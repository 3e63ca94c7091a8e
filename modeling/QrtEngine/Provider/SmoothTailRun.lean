import QrtEngine.Library.Assign
import QrtEngine.Provider.SmoothTail

/-!
# Tiles on Two Streams

What the tiles leave on the device. A tile without padding is run in place. One with padding is
copied to scratch surfaces, its padding is cleared, its kernel runs there, and its rows are copied
back. With a parallel lane the tiles of the tail are on a second stream, which waits for the work
before the tiles and is waited for behind them; in between the two streams run as they like. Each
row gets what the kernel of its tile makes of it all the same, because no two tiles share a row and
only one of them uses the scratch surfaces.

The streamed lengths have BF16 rows and one stream. Every tile is widened into the scratch surfaces,
its kernel runs there, and its rows are narrowed back.

## Main definitions

* `Place`: The rows of the surfaces.
* `RowKernels`: What the kernels make of rows.
* `program`, `streamedProgram`: What is enqueued for a tile.
* `streams`: What is enqueued on the two streams.

## Theorems

* `program_spec`, `streamedProgram_spec`: What a tile alone leaves.
* `runs_tiles`: What tiles leave one after the other.
* `smooth_tail_tiles`: What the tiles leave, however the streams are interleaved.
-/

namespace QrtEngine

namespace SmoothTail

open Assignments Segments

/-- The rows of the output, which holds the residuals at first, and of the scratch surfaces. -/
inductive Place
  | residual (row : Nat)
  | tailPost (row : Nat)
  | tailResidual (row : Nat)
deriving DecidableEq

/-- What the kernels make of rows: those of the experts of a row and its residual, and the
    conversions of BF16 and F32. A cleared row is `zero`. -/
structure RowKernels (ρ : Type) where
  compute : Kernel → ρ → ρ → ρ
  bf16ToF32 : ρ → ρ
  f32ToBf16 : ρ → ρ
  zero : ρ

variable {ρ : Type}

/-- Write a row that does not depend on the memory. -/
def put (target : Place) (value : ρ) : Assign Place ρ where
  target := target
  reads := []
  value := fun _ => value
  value_congr := fun _ _ _ => rfl

/-- Convert a row. -/
def convert (f : ρ → ρ) (target source : Place) : Assign Place ρ where
  target := target
  reads := [source]
  value := fun m => f (m source)
  value_congr := fun _ _ h => by rw [h source List.mem_cons_self]

/-- Copy a row. -/
def copy (target source : Place) : Assign Place ρ := convert id target source

section Tile

variable (kernels : RowKernels ρ) (post : Nat → ρ) (tile : Tile)

/-- A kernel at a row in place. -/
def launchRow (row : Nat) : Assign Place ρ where
  target := .residual row
  reads := [.residual row]
  value := fun m => kernels.compute tile.kernel (post row) (m (.residual row))
  value_congr := fun _ _ h => by rw [h (.residual row) List.mem_cons_self]

/-- A kernel at a row of the scratch surfaces. -/
def launchTailRow (row : Nat) : Assign Place ρ where
  target := .tailResidual row
  reads := [.tailPost row, .tailResidual row]
  value := fun m => kernels.compute tile.kernel (m (.tailPost row)) (m (.tailResidual row))
  value_congr := fun _ _ h => by
    rw [h (.tailPost row) List.mem_cons_self,
      h (.tailResidual row) (List.mem_cons_of_mem _ List.mem_cons_self)]

/-- The rows of a tile are copied to the scratch surfaces, and the padding is cleared. -/
def stage : List (Assign Place ρ) :=
  (List.range tile.logicalTokens).map
      (fun i => put (.tailPost i) (post (tile.logicalIndex + i))) ++
    (List.range tile.logicalTokens).map
      (fun i => copy (.tailResidual i) (.residual (tile.logicalIndex + i))) ++
    (List.range (tile.capacityTokens - tile.logicalTokens)).map
      (fun i => put (.tailPost (tile.logicalTokens + i)) kernels.zero) ++
    (List.range (tile.capacityTokens - tile.logicalTokens)).map
      (fun i => put (.tailResidual (tile.logicalTokens + i)) kernels.zero)

/-- Scratch surfaces that the rows of a streamed tile do not fill are cleared. -/
def clearTail : List (Assign Place ρ) :=
  if tile.logicalTokens ≠ tile.capacityTokens then
    (List.range tile.capacityTokens).map (fun i => put (.tailPost i) kernels.zero) ++
      (List.range tile.capacityTokens).map (fun i => put (.tailResidual i) kernels.zero)
  else []

/-- The rows of a streamed tile are widened into the scratch surfaces. -/
def widen : List (Assign Place ρ) :=
  (List.range tile.logicalTokens).map
      (fun i => put (.tailPost i) (kernels.bf16ToF32 (post (tile.logicalIndex + i)))) ++
    (List.range tile.logicalTokens).map
      (fun i => convert kernels.bf16ToF32 (.tailResidual i) (.residual (tile.logicalIndex + i)))

/-- The kernel of a tile in the scratch surfaces, and what it leaves in the rows of the tile. -/
def runTail (store : ρ → ρ) : List (Assign Place ρ) :=
  (List.range tile.capacityTokens).map (launchTailRow kernels tile) ++
    (List.range tile.logicalTokens).map
      (fun i => convert store (.residual (tile.logicalIndex + i)) (.tailResidual i))

/-- What is enqueued for a tile. -/
def program : List (Assign Place ρ) :=
  if tile.logicalTokens ≠ tile.capacityTokens then
    stage kernels post tile ++ runTail kernels tile id
  else
    (List.range tile.capacityTokens).map
      (fun i => launchRow kernels post tile (tile.logicalIndex + i))

/-- What is enqueued for a tile of a length that is streamed. -/
def streamedProgram : List (Assign Place ρ) :=
  clearTail kernels tile ++ widen kernels post tile ++ runTail kernels tile kernels.f32ToBf16

end Tile

section Tiles

variable (kernels : RowKernels ρ) (post : Nat → ρ) (flags : Flags) (prefillTokens : Nat)

/-- What is enqueued on the null stream and on the stream of the parallel lane. -/
def streams : List (List (Assign Place ρ)) :=
  if maximumContextStreamedPrefillTokens prefillTokens then
    [(tiles flags prefillTokens).flatMap (streamedProgram kernels post)]
  else
    [((tiles flags prefillTokens).filter fun tile => !tile.lane).flatMap (program kernels post),
      ((tiles flags prefillTokens).filter fun tile => tile.lane).flatMap (program kernels post)]

/-- What the kernel of a tile makes of a row and its residual. -/
def tileRow (tile : Tile) (row : Nat) (residual : ρ) : ρ :=
  if maximumContextStreamedPrefillTokens prefillTokens then
    kernels.f32ToBf16
      (kernels.compute tile.kernel (kernels.bf16ToF32 (post row)) (kernels.bf16ToF32 residual))
  else kernels.compute tile.kernel (post row) residual

end Tiles

/-- A row of a tile. -/
def Tile.Holds (tile : Tile) (row : Nat) : Prop :=
  tile.logicalIndex ≤ row ∧ row < tile.logicalIndex + tile.logicalTokens

instance (tile : Tile) (row : Nat) : Decidable (tile.Holds row) :=
  inferInstanceAs (Decidable (_ ∧ _))

/-- The places that a tile may read or write: its rows, and the scratch surfaces if it is staged. -/
def Tile.Touches (tile : Tile) (staged : Prop) : Place → Prop
  | .residual row => tile.Holds row
  | .tailPost row => staged ∧ row < tile.capacityTokens
  | .tailResidual row => staged ∧ row < tile.capacityTokens

/-- A tile with padding. -/
abbrev Tile.Padded (tile : Tile) : Prop := tile.logicalTokens ≠ tile.capacityTokens

/-- Tiles that share no place. -/
def Separate (tile other : Tile) : Prop :=
  ∀ place, tile.Touches tile.Padded place → ¬other.Touches other.Padded place

theorem Separate.symm {tile other : Tile} (h : Separate tile other) : Separate other tile :=
  fun place hother htile => h place htile hother

instance : Std.Symm Separate := ⟨fun _ _ => Separate.symm⟩

section Programs

variable {kernels : RowKernels ρ} {post : Nat → ρ} {tile : Tile}

/-- The kernel of a tile keeps to its rows and to the scratch surfaces. -/
theorem runTail_touches (hroom : tile.logicalTokens ≤ tile.capacityTokens) {store : ρ → ρ}
    {a : Assign Place ρ} (ha : a ∈ runTail kernels tile store) {place : Place}
    (hplace : place ∈ a.footprint) {staged : Prop} (hstaged : staged) :
    tile.Touches staged place := by
  simp only [runTail, List.mem_append, List.mem_map, List.mem_range] at ha
  rcases ha with ⟨i, hi, rfl⟩ | ⟨i, hi, rfl⟩ <;>
  simp only [Assign.footprint, convert, launchTailRow, List.mem_cons, List.not_mem_nil,
    or_false] at hplace
  · rcases hplace with rfl | rfl | rfl <;> exact ⟨hstaged, hi⟩
  · rcases hplace with rfl | rfl
    · exact ⟨by omega, by omega⟩
    · exact ⟨hstaged, by omega⟩

/-- A tile keeps to its places. -/
theorem program_touches (hroom : tile.logicalTokens ≤ tile.capacityTokens)
    {a : Assign Place ρ} (ha : a ∈ program kernels post tile) {place : Place}
    (hplace : place ∈ a.footprint) : tile.Touches tile.Padded place := by
  unfold program at ha
  by_cases hpadded : tile.logicalTokens ≠ tile.capacityTokens
  · rw [if_pos hpadded, List.mem_append] at ha
    rcases ha with ha | ha
    · simp only [stage, List.mem_append, List.mem_map, List.mem_range] at ha
      rcases ha with ((⟨i, hi, rfl⟩ | ⟨i, hi, rfl⟩) | ⟨i, hi, rfl⟩) | ⟨i, hi, rfl⟩ <;>
      simp only [Assign.footprint, put, copy, convert, List.mem_cons, List.not_mem_nil,
        or_false] at hplace
      · subst hplace
        exact ⟨hpadded, by omega⟩
      · rcases hplace with rfl | rfl
        · exact ⟨hpadded, by omega⟩
        · exact ⟨by omega, by omega⟩
      · subst hplace
        exact ⟨hpadded, by omega⟩
      · subst hplace
        exact ⟨hpadded, by omega⟩
    · exact runTail_touches hroom ha hplace hpadded
  · rw [if_neg hpadded] at ha
    obtain ⟨i, hi, rfl⟩ := List.mem_map.mp ha
    rw [List.mem_range] at hi
    simp only [Assign.footprint, launchRow, List.mem_cons, List.not_mem_nil, or_false,
      or_self] at hplace
    subst hplace
    exact ⟨by omega, by omega⟩

/-- A streamed tile keeps to its rows and to the scratch surfaces. -/
theorem streamedProgram_touches (hroom : tile.logicalTokens ≤ tile.capacityTokens)
    {a : Assign Place ρ} (ha : a ∈ streamedProgram kernels post tile) {place : Place}
    (hplace : place ∈ a.footprint) : tile.Touches True place := by
  simp only [streamedProgram, List.mem_append] at ha
  rcases ha with (ha | ha) | ha
  · unfold clearTail at ha
    split_ifs at ha with hpadded
    · simp only [List.mem_append, List.mem_map, List.mem_range] at ha
      rcases ha with ⟨i, hi, rfl⟩ | ⟨i, hi, rfl⟩ <;>
      simp only [Assign.footprint, put, List.mem_cons, List.not_mem_nil, or_false] at hplace <;>
      subst hplace <;>
      exact ⟨trivial, hi⟩
    · cases ha
  · simp only [widen, List.mem_append, List.mem_map, List.mem_range] at ha
    rcases ha with ⟨i, hi, rfl⟩ | ⟨i, hi, rfl⟩ <;>
    simp only [Assign.footprint, put, convert, List.mem_cons, List.not_mem_nil,
      or_false] at hplace
    · subst hplace
      exact ⟨trivial, by omega⟩
    · rcases hplace with rfl | rfl
      · exact ⟨trivial, by omega⟩
      · exact ⟨by omega, by omega⟩
  · exact runTail_touches hroom ha hplace trivial

/-- Once a tile is in the scratch surfaces, its rows get what the kernel makes of them. -/
theorem runTail_spec (hroom : tile.logicalTokens ≤ tile.capacityTokens) (store : ρ → ρ)
    (m : Place → ρ) (row : Nat) :
    runs (runTail kernels tile store) m (.residual row) =
      if tile.Holds row then
        store (kernels.compute tile.kernel (m (.tailPost (row - tile.logicalIndex)))
          (m (.tailResidual (row - tile.logicalIndex))))
      else m (.residual row) := by
  unfold runTail
  rw [runs_append]
  by_cases hrow : tile.Holds row
  · obtain ⟨hfirst, hlast⟩ := hrow
    obtain ⟨i, rfl⟩ : ∃ i, row = tile.logicalIndex + i := ⟨row - tile.logicalIndex, by omega⟩
    have hi : i < tile.logicalTokens := by omega
    rw [if_pos ⟨hfirst, hlast⟩, Nat.add_sub_cancel_left]
    refine (runs_range
      (f := fun i => convert store (.residual (tile.logicalIndex + i)) (.tailResidual i))
      (fun j k hne => by simp [convert, Assign.footprint, hne]) hi _).trans ?_
    exact congrArg store (runs_range (f := launchTailRow kernels tile)
      (fun j k hne => by simp [launchTailRow, Assign.footprint, hne]) (i := i) (by omega) m)
  · rw [if_neg hrow, runs_range_other (fun j hj => ?_),
      runs_range_other (fun j _ => by simp [launchTailRow])]
    simp only [convert, ne_eq, Place.residual.injEq]
    rintro rfl
    exact hrow ⟨by omega, by omega⟩

/-- The tile's rows are in the scratch surfaces once it is staged, and nothing else has changed. -/
theorem stage_spec (m : Place → ρ) :
    (∀ i, i < tile.logicalTokens →
      runs (stage kernels post tile) m (.tailPost i) = post (tile.logicalIndex + i) ∧
        runs (stage kernels post tile) m (.tailResidual i) =
          m (.residual (tile.logicalIndex + i))) ∧
    ∀ row, runs (stage kernels post tile) m (.residual row) = m (.residual row) := by
  unfold stage
  simp only [runs_append]
  refine ⟨fun i hi => ⟨?_, ?_⟩, fun row => ?_⟩
  · rw [runs_range_other (fun j _ => by simp [put]), runs_range_other (fun j _ => ?_),
      runs_range_other (fun j _ => by simp [copy, convert])]
    · exact runs_range (f := fun i => put (.tailPost i) (post (tile.logicalIndex + i)))
        (fun j k hne => by simp [put, Assign.footprint, hne]) hi m
    · simp only [put, ne_eq, Place.tailPost.injEq]
      omega
  · rw [runs_range_other (fun j _ => ?_), runs_range_other (fun j _ => by simp [put])]
    · refine (runs_range (f := fun i => copy (.tailResidual i) (.residual (tile.logicalIndex + i)))
        (fun j k hne => by simp [copy, convert, Assign.footprint, hne]) hi _).trans ?_
      exact runs_range_other (fun j _ => by simp [put]) m
    · simp only [put, ne_eq, Place.tailResidual.injEq]
      omega
  · rw [runs_range_other (fun j _ => by simp [put]), runs_range_other (fun j _ => by simp [put]),
      runs_range_other (fun j _ => by simp [copy, convert]),
      runs_range_other (fun j _ => by simp [put])]

/-- Clearing the scratch surfaces leaves the rows as they are. -/
theorem clearTail_residual (m : Place → ρ) (row : Nat) :
    runs (clearTail kernels tile) m (.residual row) = m (.residual row) := by
  unfold clearTail
  split_ifs
  · rw [runs_append, runs_range_other (fun j _ => by simp [put]),
      runs_range_other (fun j _ => by simp [put])]
  · rfl

/-- The tile's rows are in the scratch surfaces once they are widened. -/
theorem widen_spec (m : Place → ρ) :
    (∀ i, i < tile.logicalTokens →
      runs (widen kernels post tile) m (.tailPost i) =
          kernels.bf16ToF32 (post (tile.logicalIndex + i)) ∧
        runs (widen kernels post tile) m (.tailResidual i) =
          kernels.bf16ToF32 (m (.residual (tile.logicalIndex + i)))) ∧
    ∀ row, runs (widen kernels post tile) m (.residual row) = m (.residual row) := by
  unfold widen
  simp only [runs_append]
  refine ⟨fun i hi => ⟨?_, ?_⟩, fun row => ?_⟩
  · rw [runs_range_other (fun j _ => by simp [convert])]
    exact runs_range
      (f := fun i => put (.tailPost i) (kernels.bf16ToF32 (post (tile.logicalIndex + i))))
      (fun j k hne => by simp [put, Assign.footprint, hne]) hi m
  · refine (runs_range
      (f := fun i =>
        convert kernels.bf16ToF32 (.tailResidual i) (.residual (tile.logicalIndex + i)))
      (fun j k hne => by simp [convert, Assign.footprint, hne]) hi _).trans ?_
    exact congrArg kernels.bf16ToF32 (runs_range_other (fun j _ => by simp [put]) m)
  · rw [runs_range_other (fun j _ => by simp [convert]), runs_range_other (fun j _ => by simp [put])]

/-- What a tile leaves in its rows, and that it leaves the others as they are. -/
theorem program_spec (hroom : tile.logicalTokens ≤ tile.capacityTokens) (m : Place → ρ)
    (row : Nat) :
    runs (program kernels post tile) m (.residual row) =
      if tile.Holds row then kernels.compute tile.kernel (post row) (m (.residual row))
      else m (.residual row) := by
  unfold program
  by_cases hpadded : tile.logicalTokens ≠ tile.capacityTokens
  · rw [if_pos hpadded, runs_append, runTail_spec hroom]
    obtain ⟨hstaged, hkept⟩ := @stage_spec ρ kernels post tile m
    by_cases hrow : tile.Holds row
    · obtain ⟨hfirst, hlast⟩ := id hrow
      obtain ⟨hpost, hresidual⟩ := hstaged (row - tile.logicalIndex) (by omega)
      rw [if_pos hrow, if_pos hrow, hpost, hresidual, Nat.add_sub_cancel' hfirst]
      rfl
    · rw [if_neg hrow, if_neg hrow, hkept]
  · rw [if_neg hpadded]
    have hfull : tile.capacityTokens = tile.logicalTokens := by omega
    by_cases hrow : tile.Holds row
    · obtain ⟨hfirst, hlast⟩ := id hrow
      obtain ⟨i, rfl⟩ : ∃ i, row = tile.logicalIndex + i := ⟨row - tile.logicalIndex, by omega⟩
      rw [if_pos hrow]
      exact runs_range (f := fun i => launchRow kernels post tile (tile.logicalIndex + i))
        (fun j k hne => by simp [launchRow, Assign.footprint, hne]) (i := i) (by omega) m
    · rw [if_neg hrow]
      refine runs_range_other (fun j hj => ?_) m
      simp only [launchRow, ne_eq, Place.residual.injEq]
      rintro rfl
      exact hrow ⟨by omega, by omega⟩

/-- What a streamed tile leaves, whatever is in the scratch surfaces before it. -/
theorem streamedProgram_spec (hroom : tile.logicalTokens ≤ tile.capacityTokens) (m : Place → ρ)
    (row : Nat) :
    runs (streamedProgram kernels post tile) m (.residual row) =
      if tile.Holds row then
        kernels.f32ToBf16 (kernels.compute tile.kernel (kernels.bf16ToF32 (post row))
          (kernels.bf16ToF32 (m (.residual row))))
      else m (.residual row) := by
  unfold streamedProgram
  rw [runs_append, runs_append, runTail_spec hroom]
  obtain ⟨hwidened, hkept⟩ :=
    @widen_spec ρ kernels post tile (runs (clearTail kernels tile) m)
  by_cases hrow : tile.Holds row
  · obtain ⟨hfirst, hlast⟩ := id hrow
    obtain ⟨hpost, hresidual⟩ := hwidened (row - tile.logicalIndex) (by omega)
    rw [if_pos hrow, if_pos hrow, hpost, hresidual, clearTail_residual,
      Nat.add_sub_cancel' hfirst]
  · rw [if_neg hrow, if_neg hrow, hkept, clearTail_residual]

/-- Tiles with rows of their own, one after the other: each leaves in its rows what it would
    alone. -/
theorem runs_tiles {enqueue : Tile → List (Assign Place ρ)} (result : Tile → Nat → ρ → ρ)
    {l : List Tile}
    (hspec : ∀ tile ∈ l, ∀ m row, runs (enqueue tile) m (.residual row) =
      if tile.Holds row then result tile row (m (.residual row)) else m (.residual row))
    (hown : l.Pairwise fun tile other => ∀ row, tile.Holds row → ¬other.Holds row)
    (m : Place → ρ) (row : Nat) :
    let last := runs (l.flatMap enqueue) m (.residual row)
    (∀ tile ∈ l, tile.Holds row → last = result tile row (m (.residual row))) ∧
    ((∀ tile ∈ l, ¬tile.Holds row) → last = m (.residual row)) := by
  induction l generalizing m with
  | nil => exact ⟨fun tile h => absurd h List.not_mem_nil, fun _ => rfl⟩
  | cons tile l ih =>
      rw [List.pairwise_cons] at hown
      obtain ⟨hin, hout⟩ := ih (fun other h => hspec other (List.mem_cons_of_mem tile h))
        hown.2 (runs (enqueue tile) m)
      have hone := hspec tile List.mem_cons_self m row
      rw [List.flatMap_cons, runs_append]
      refine ⟨fun other hother hrow => ?_, fun hnone => ?_⟩
      · rcases List.mem_cons.mp hother with rfl | hother
        · rw [hout fun later hlater => hown.1 later hlater row hrow, hone, if_pos hrow]
        · rw [hin other hother hrow, hone, if_neg fun htile => hown.1 other hother row htile hrow]
      · rw [hout fun later hlater => hnone later (List.mem_cons_of_mem tile hlater), hone,
          if_neg (hnone tile List.mem_cons_self)]

end Programs

section Streams

variable {flags : Flags} {prefillTokens : Nat}

/-- No two tiles share a row. -/
theorem tiles_own : (tiles flags prefillTokens).Pairwise fun tile other =>
    ∀ row, tile.Holds row → ¬other.Holds row := by
  refine (@tiles_covers flags prefillTokens).disjoint.imp ?_
  intro tile other h row htile hother
  obtain ⟨_, hlast⟩ := htile
  obtain ⟨hfirst, _⟩ := hother
  omega

theorem tiles_separate : (tiles flags prefillTokens).Pairwise Separate := by
  refine ((@tiles_full flags prefillTokens).and (@tiles_own flags prefillTokens)).imp ?_
  intro tile other h place htile hother
  cases place with
  | residual row => exact h.2 row htile hother
  | tailPost row => exact htile.1 h.1
  | tailResidual row => exact htile.1 h.1

/-- A place of the output or of the scratch surfaces. -/
def InBounds (flags : Flags) (prefillTokens : Nat) : Place → Prop
  | .residual row => row < prefillTokens
  | .tailPost row => row < tailScratchTileTokens flags prefillTokens
  | .tailResidual row => row < tailScratchTileTokens flags prefillTokens

theorem touches_inBounds {tile : Tile} (h : tile ∈ tiles flags prefillTokens) {staged : Prop}
    (hstaged : staged → maximumContextStreamedPrefillTokens prefillTokens = true ∨ tile.Padded)
    {place : Place} (htouch : tile.Touches staged place) : InBounds flags prefillTokens place := by
  cases place with
  | residual row => exact Nat.lt_of_lt_of_le htouch.2 ((tiles_covers).inside h).2
  | tailPost row => exact Nat.lt_of_lt_of_le htouch.2 (tile_scratch h (hstaged htouch.1))
  | tailResidual row => exact Nat.lt_of_lt_of_le htouch.2 (tile_scratch h (hstaged htouch.1))

variable {kernels : RowKernels ρ} {post : Nat → ρ}

/-- Nothing that is enqueued is out of bounds. -/
theorem streams_inBounds {enqueued : List (Assign Place ρ)}
    (henqueued : enqueued ∈ streams kernels post flags prefillTokens) {a : Assign Place ρ}
    (ha : a ∈ enqueued) {place : Place} (hplace : place ∈ a.footprint) :
    InBounds flags prefillTokens place := by
  unfold streams at henqueued
  split_ifs at henqueued with hstreamed
  · rw [List.mem_singleton] at henqueued
    subst henqueued
    obtain ⟨tile, htile, ha⟩ := List.mem_flatMap.mp ha
    exact touches_inBounds htile (fun _ => Or.inl hstreamed)
      (streamedProgram_touches (tile_tokens htile).2 ha hplace)
  · simp only [List.mem_cons, List.not_mem_nil, or_false] at henqueued
    rcases henqueued with rfl | rfl <;>
    · obtain ⟨tile, htile, ha⟩ := List.mem_flatMap.mp ha
      have hmem := List.mem_of_mem_filter htile
      exact touches_inBounds hmem Or.inr (program_touches (tile_tokens hmem).2 ha hplace)

/-- The streams share no place. -/
theorem streams_apart :
    (streams kernels post flags prefillTokens).Pairwise
      fun p p' => ∀ a ∈ p, ∀ b ∈ p', Apart a b := by
  unfold streams
  split_ifs
  · exact List.pairwise_singleton ..
  · refine List.pairwise_cons.mpr ⟨?_, List.pairwise_singleton ..⟩
    intro p' hp' a ha b hb
    rw [List.mem_singleton] at hp'
    subst hp'
    obtain ⟨tile, htile, ha⟩ := List.mem_flatMap.mp ha
    obtain ⟨other, hother, hb⟩ := List.mem_flatMap.mp hb
    rw [List.mem_filter] at htile hother
    have hne : tile ≠ other := by
      rintro rfl
      simp [hother.2] at htile
    have hseparate : Separate tile other :=
      List.Pairwise.forall tiles_separate htile.1 hother.1 hne
    refine apart_of_forall_ne ?_
    rintro place hplace place' hplace' rfl
    exact hseparate place (program_touches (tile_tokens htile.1).2 ha hplace)
      (program_touches (tile_tokens hother.1).2 hb hplace')

/-- One stream after the other leaves in each row what the kernel of its tile makes of it. -/
theorem runs_streams (m : Place → ρ) (row : Nat) :
    let last := runs (streams kernels post flags prefillTokens).flatten m (.residual row)
    (∀ tile ∈ tiles flags prefillTokens, tile.Holds row →
      last = tileRow kernels post prefillTokens tile row (m (.residual row))) ∧
    ((∀ tile ∈ tiles flags prefillTokens, ¬tile.Holds row) → last = m (.residual row)) := by
  unfold streams tileRow
  by_cases hstreamed : maximumContextStreamedPrefillTokens prefillTokens = true
  · simp only [if_pos hstreamed, List.flatten_cons, List.flatten_nil, List.append_nil]
    exact runs_tiles (fun tile row residual => kernels.f32ToBf16 (kernels.compute
        tile.kernel (kernels.bf16ToF32 (post row)) (kernels.bf16ToF32 residual)))
      (fun tile h => streamedProgram_spec (tile_tokens h).2) tiles_own m row
  · simp only [if_neg hstreamed, List.flatten_cons, List.flatten_nil, List.append_nil]
    -- The streams one after the other take the tiles in another order.
    have hperm : ((tiles flags prefillTokens).filter (fun tile => !tile.lane) ++
        (tiles flags prefillTokens).filter fun tile => tile.lane).Perm
          (tiles flags prefillTokens) :=
      List.perm_append_comm.trans (List.filter_append_perm Tile.lane _)
    rw [← List.flatMap_append]
    obtain ⟨hin, hout⟩ := runs_tiles
      (fun tile row residual => kernels.compute tile.kernel (post row) residual)
      (fun tile h => program_spec (tile_tokens (hperm.mem_iff.mp h)).2)
      ((hperm.pairwise_iff fun h row hother htile => h row htile hother).mpr tiles_own) m row
    exact ⟨fun tile h => hin tile (hperm.mem_iff.mpr h),
      fun hnone => hout fun tile h => hnone tile (hperm.mem_iff.mp h)⟩

end Streams

/-- The tiles cover the prefill with loaded kernels, tiles on different streams have different
    kernels, nothing is out of bounds, and however the streams are interleaved each row gets what
    the kernel of its tile makes of it. The provider does not check that the tiles of a streamed
    length are those of the kernel that it loads. -/
theorem smooth_tail_tiles (flags : Flags) (prefillTokens : Nat) (kernels : RowKernels ρ)
    (post : Nat → ρ) (hstreamed : maximumContextStreamedPrefillTokens prefillTokens = true →
      exactArbitraryQ1024Moe flags prefillTokens = false) (log : List (Nat × Nat))
    (hlog : Interleave.Complete (streams kernels post flags prefillTokens) log)
    (m : Place → ρ) :
    (Covers Tile.logicalIndex Tile.logicalTokens 0 (tiles flags prefillTokens) prefillTokens ∧
      (smoothTailTransactions flags prefillTokens).length ≤ 9 ∧
      smoothTailShapeSupported flags prefillTokens = true) ∧
    (∀ tile ∈ tiles flags prefillTokens, 0 < tile.logicalTokens ∧
      tile.logicalTokens ≤ tile.capacityTokens ∧ tile.Loaded flags prefillTokens) ∧
    (∀ tile ∈ tiles flags prefillTokens, ∀ other ∈ tiles flags prefillTokens,
      tile.lane ≠ other.lane → tile.kernel ≠ other.kernel) ∧
    (∀ enqueued ∈ streams kernels post flags prefillTokens, ∀ a ∈ enqueued,
      ∀ place ∈ a.footprint, InBounds flags prefillTokens place) ∧
    let last := log.foldl (fun m turn => Interleave.plain Assign.act
      (streams kernels post flags prefillTokens) turn m) m
    (∀ tile ∈ tiles flags prefillTokens, ∀ row, tile.logicalIndex ≤ row →
      row < tile.logicalIndex + tile.logicalTokens → last (.residual row) =
        tileRow kernels post prefillTokens tile row (m (.residual row))) ∧
    ∀ row, prefillTokens ≤ row → last (.residual row) = m (.residual row) := by
  refine ⟨⟨tiles_covers, transactions_few, shape_supported⟩, ?_, ?_, ?_, ?_⟩
  · exact fun tile h => ⟨(tile_tokens h).1, (tile_tokens h).2, tile_loaded hstreamed h⟩
  · intro tile h other hother hlane
    cases hone : tile.lane with
    | true => exact lane_kernel h hother hone (by simpa [hone] using hlane.symm)
    | false => exact (lane_kernel hother h (by simpa [hone] using hlane.symm) hone).symm
  · exact fun enqueued henqueued a ha place hplace => streams_inBounds henqueued ha hplace
  · intro last
    have hlast : last = runs (streams kernels post flags prefillTokens).flatten m :=
      interleaved streams_apart log hlog m
    have hrows := fun row => @runs_streams ρ flags prefillTokens kernels post m row
    rw [hlast]
    refine ⟨fun tile h row hfirst hend => (hrows row).1 tile h ⟨hfirst, hend⟩, fun row hrow => ?_⟩
    refine (hrows row).2 fun tile h hholds => ?_
    have hend := ((tiles_covers).inside h).2
    have hbefore := hholds.2
    omega

/-- The tail on the parallel lane. -/
def besideFlags : Flags :=
  { exactArbitraryProductPath := true
    forceQ1024MoeProvider := false
    smoothTailMoeProvider := true
    q1024MoeProvider := false
    singleCeilProvider := false
    boundedTransactions := false
    parallelBase := true
    parallelTransactions := false
    profileMoeSubphases := false }

/-- Kernels that add a row to its residual and say which kernel it was, and rows that say whether
    they have been narrowed. -/
def addRows : RowKernels (Nat × Nat) where
  compute := fun kernel post residual => (post.1 + residual.1, match kernel with
    | .main => 0
    | .smoothTail index => index + 1
    | .directM16 => 100)
  bf16ToF32 := id
  f32ToBf16 := fun row => (row.1, row.2 + 1000)
  zero := (0, 0)

/-- A tail on the parallel lane, and a length that is streamed. -/
theorem smooth_tail_tiles_beside :
    (let programs := streams addRows (fun row => (row, 0)) besideFlags 8232
     (Interleave.serial 0 programs).foldl
       (fun m turn => Interleave.plain Assign.act programs turn m) (fun _ => (1, 0))
       (.residual 8231) = (8232, 2)) ∧
    (let programs := streams addRows (fun row => (row, 0)) besideFlags 131073
     (Interleave.serial 0 programs).foldl
       (fun m turn => Interleave.plain Assign.act programs turn m) (fun _ => (1, 0))
       (.residual 131072) = (131073, 1000)) := by
  refine ⟨?_, ?_⟩
  · intro programs
    obtain ⟨tile, htile, hkernel, hfirst, htokens⟩ : ∃ tile ∈ tiles besideFlags 8232,
        tile.kernel = .smoothTail 1 ∧ tile.logicalIndex = 8192 ∧ tile.logicalTokens = 40 := by
      refine ⟨transactionTile besideFlags 8232 0 ⟨0, 40, 64, false⟩, ?_, rfl, rfl, rfl⟩
      rw [tiles_smooth rfl]
      refine List.mem_append_right _ (List.mem_mapIdx.mpr ⟨0, Nat.zero_lt_one, rfl⟩)
    have hrow := (smooth_tail_tiles besideFlags 8232 addRows (fun row => (row, 0))
      (fun _ => rfl) (Interleave.serial 0 programs) Interleave.serial_complete
      fun _ => (1, 0)).2.2.2.2.1 tile htile 8231 (by omega) (by omega)
    refine hrow.trans ?_
    unfold tileRow
    rw [hkernel]
    rfl
  · intro programs
    have htile : wholeTile besideFlags 131073 16 ∈ tiles besideFlags 131073 := by
      rw [tiles_plain rfl]
      exact List.mem_append_right _ List.mem_cons_self
    exact (smooth_tail_tiles besideFlags 131073 addRows (fun row => (row, 0)) (fun _ => rfl)
      (Interleave.serial 0 programs) Interleave.serial_complete
      fun _ => (1, 0)).2.2.2.2.1 _ htile 131072 (by decide) (by decide)

end SmoothTail

end QrtEngine
