import QrtEngine.Kernels.RouteSortCorrect
import QrtEngine.Library.Tiling

/-!
# The Tiles of the Matrix Kernels

The two matrix kernels behind the route sort compute their output tile by tile, one program for
each. Which tile a program computes is `_grouped_pid`: the programs go through the tiles in groups
of `GROUP_M` rows, and through each group column by column. The last group may have fewer rows. The
row inside a group is a remainder of the number of the program in the whole grid, not in its group,
so the rows of the last group are rotated; every tile is met once all the same.

Values are integers without a width. A grid that can be launched is a number of thirty-two bits,
and so is the total with a block behind it after a sort whose indices fit; the products of the
mapping are constants of the compilation or at most the grid, so nothing wraps. All values are
nonnegative, so that the quotients and remainders of the kernels are the ones of the integers.

## Main definitions

* `groupedPid`, `groupRows`: `_grouped_pid`, and how many rows its group has.
* `TileShape`: The shape constants of the matrix kernels.
* `gateUpTile`, `downTile`: The tile that a program of a kernel computes.

## Theorems

* `groupedPid_bijOn`: The tiles are met once each.
* `tile_once`: So is each tile of a launch that is large enough.
* `groupedPid_spec`: Both, for every grid and for the launches of the two kernels.
-/

namespace QrtEngine

namespace RouteSort

/-! ## The mapping -/

/-- How many rows the group of a program has. -/
def groupRows (groupMValue pid numPidM numPidN : Int) : Int :=
  let programsPerGroup := groupMValue * numPidN
  let group := pid / programsPerGroup
  let firstM := group * groupMValue
  min (numPidM - firstM) groupMValue

/-- The row and the column of the tile of a program. -/
def groupedPid (groupMValue pid numPidM numPidN : Int) : Int × Int :=
  let programsPerGroup := groupMValue * numPidN
  let group := pid / programsPerGroup
  let firstM := group * groupMValue
  let groupM := groupRows groupMValue pid numPidM numPidN
  let pidM := firstM + pid % groupM
  let pidN := pid % programsPerGroup / groupM
  (pidM, pidN)

section Mapping

variable (groupMValue numPidM numPidN : Int) (hgroup : 0 < groupMValue) (hn : 0 < numPidN)

include hgroup hn

/-- The positions of a group, counted from its first program. -/
theorem group_bijOn (group rows : Int) (hpos : 0 ≤ group)
    (hrows : rows = min (numPidM - group * groupMValue) groupMValue) :
    Set.BijOn (fun pid => pid - group * (groupMValue * numPidN))
      {pid | pid ∈ Set.Ico 0 (numPidM * numPidN) ∧ pid / (groupMValue * numPidN) = group}
      (Set.Ico 0 (rows * numPidN)) := by
  have hprograms : 0 < groupMValue * numPidN := mul_pos hgroup hn
  -- The rows of the group times the columns are what is left of the grid, or a full group.
  have hsize : rows * numPidN =
      min (numPidM * numPidN - group * (groupMValue * numPidN)) (groupMValue * numPidN) := by
    rw [hrows, min_mul_of_nonneg _ _ hn.le]
    congr 1
    ring
  refine ⟨?_, fun a _ b _ hab => by simpa using hab, ?_⟩
  · rintro pid ⟨⟨hlow, hhigh⟩, hquotient⟩
    have hfloor := Int.ediv_mul_le pid hprograms.ne'
    have hceil := Int.lt_ediv_add_one_mul_self pid hprograms
    rw [hquotient] at hfloor hceil
    rw [add_mul, one_mul] at hceil
    rw [hsize]
    refine ⟨by simp only; omega, lt_min ?_ ?_⟩
    · simp only
      omega
    · simp only
      omega
  · rintro q ⟨hlow, hhigh⟩
    rw [hsize] at hhigh
    have hleft := lt_of_lt_of_le hhigh (min_le_left _ _)
    have hfull := lt_of_lt_of_le hhigh (min_le_right _ _)
    have hfirst : 0 ≤ group * (groupMValue * numPidN) := mul_nonneg hpos hprograms.le
    refine ⟨group * (groupMValue * numPidN) + q, ⟨⟨by omega, by omega⟩, ?_⟩, by simp⟩
    rw [add_comm, Int.add_mul_ediv_right _ _ hprograms.ne', Int.ediv_eq_zero_of_lt hlow hfull,
      zero_add]

omit hn in
/-- The tiles of a group, counted from its first row. -/
theorem groupTiles_bijOn (group rows : Int) (hpos : 0 ≤ group)
    (hrows : rows = min (numPidM - group * groupMValue) groupMValue) :
    Set.BijOn (fun tile : Int × Int => (group * groupMValue + tile.1, tile.2))
      (Set.Ico 0 rows ×ˢ Set.Ico 0 numPidN)
      {tile | tile ∈ Set.Ico 0 numPidM ×ˢ Set.Ico 0 numPidN ∧ tile.1 / groupMValue = group} := by
  have hfirst : 0 ≤ group * groupMValue := mul_nonneg hpos hgroup.le
  refine ⟨?_, ?_, ?_⟩
  · rintro ⟨row, column⟩ ⟨⟨hlow, hhigh⟩, hcolumn⟩
    dsimp only at hlow hhigh
    rw [hrows] at hhigh
    have hleft := lt_of_lt_of_le hhigh (min_le_left _ _)
    have hfull := lt_of_lt_of_le hhigh (min_le_right _ _)
    refine ⟨⟨⟨by simp only; omega, by simp only; omega⟩, hcolumn⟩, ?_⟩
    dsimp only
    rw [add_comm, Int.add_mul_ediv_right _ _ hgroup.ne', Int.ediv_eq_zero_of_lt hlow hfull,
      zero_add]
  · rintro ⟨row, column⟩ _ ⟨row', column'⟩ _ hsame
    simp only [Prod.mk.injEq, add_right_inj] at hsame
    rw [hsame.1, hsame.2]
  · -- A row of the group lies between its first row and the first row of the next one.
    rintro ⟨row, column⟩ ⟨⟨⟨hlow, hhigh⟩, hcolumn⟩, hquotient⟩
    dsimp only at hlow hhigh hquotient
    have hfloor := Int.ediv_mul_le row hgroup.ne'
    have hceil := Int.lt_ediv_add_one_mul_self row hgroup
    rw [hquotient] at hfloor hceil
    rw [add_mul, one_mul] at hceil
    refine ⟨(row - group * groupMValue, column), ⟨⟨by simp only; omega, ?_⟩, hcolumn⟩, by simp⟩
    rw [hrows]
    exact lt_min (by simp only; omega) (by simp only; omega)

/-- The group of a program of the grid has a row. -/
theorem groupRows_pos (pid : Int) (hhigh : pid < numPidM * numPidN) :
    0 < groupRows groupMValue pid numPidM numPidN := by
  have hprograms : 0 < groupMValue * numPidN := mul_pos hgroup hn
  have hfloor := Int.ediv_mul_le pid hprograms.ne'
  unfold groupRows
  dsimp only
  refine lt_min ?_ hgroup
  -- The first row of the group is above the last one of the grid otherwise.
  have hfirst : pid / (groupMValue * numPidN) * groupMValue * numPidN < numPidM * numPidN := by
    rw [mul_assoc]
    omega
  have := lt_of_mul_lt_mul_right hfirst hn.le
  omega

/-- The programs of the grid meet its tiles once each. -/
theorem groupedPid_bijOn :
    Set.BijOn (fun pid => groupedPid groupMValue pid numPidM numPidN)
      (Set.Ico 0 (numPidM * numPidN)) (Set.Ico 0 numPidM ×ˢ Set.Ico 0 numPidN) := by
  refine bijOn_of_fibers (fun pid => pid / (groupMValue * numPidN))
    (fun tile => tile.1 / groupMValue) fun group => ?_
  have hprograms : 0 < groupMValue * numPidN := mul_pos hgroup hn
  by_cases hinside : 0 ≤ group ∧ group * groupMValue < numPidM
  · rcases hinside with ⟨hpos, hinside⟩
    have hrows : 0 < min (numPidM - group * groupMValue) groupMValue :=
      lt_min (by omega) hgroup
    have hchain := (groupTiles_bijOn groupMValue numPidM numPidN hgroup group _ hpos rfl).comp
      ((rotated_bijOn _ numPidN (group * (groupMValue * numPidN)) hrows).comp
        (group_bijOn groupMValue numPidM numPidN hgroup hn group _ hpos rfl))
    refine hchain.congr ?_
    rintro pid ⟨-, hquotient⟩
    have hposition : pid - group * (groupMValue * numPidN) = pid % (groupMValue * numPidN) := by
      have := Int.emod_add_mul_ediv pid (groupMValue * numPidN)
      rw [hquotient] at this
      linarith
    dsimp only [Function.comp]
    rw [add_sub_cancel, hposition]
    unfold groupedPid groupRows
    dsimp only at hquotient ⊢
    rw [hquotient]
  -- A group before the first or after the last row has neither programs nor tiles.
  · have hpids : {pid | pid ∈ Set.Ico 0 (numPidM * numPidN) ∧
        pid / (groupMValue * numPidN) = group} = ∅ := by
      refine Set.eq_empty_of_forall_notMem ?_
      rintro pid ⟨⟨hlow, hhigh⟩, hquotient⟩
      have hrows := groupRows_pos groupMValue numPidM numPidN hgroup hn pid hhigh
      unfold groupRows at hrows
      dsimp only at hrows
      rw [hquotient] at hrows
      have := lt_of_lt_of_le hrows (min_le_left _ _)
      have := Int.ediv_nonneg hlow hprograms.le
      exact hinside ⟨by omega, by omega⟩
    have htiles : {tile : Int × Int | tile ∈ Set.Ico 0 numPidM ×ˢ Set.Ico 0 numPidN ∧
        tile.1 / groupMValue = group} = ∅ := by
      refine Set.eq_empty_of_forall_notMem ?_
      rintro ⟨row, column⟩ ⟨⟨⟨hlow, hhigh⟩, -⟩, hquotient⟩
      dsimp only at hlow hhigh hquotient
      have hfloor := Int.ediv_mul_le row hgroup.ne'
      have := Int.ediv_nonneg hlow hgroup.le
      rw [hquotient] at hfloor
      exact hinside ⟨by omega, by omega⟩
    rw [hpids, htiles]
    exact Set.bijOn_empty _

end Mapping

/-! ## The kernels -/

/-- The shape constants of the matrix kernels, with what `configure_shape` checks of them. -/
structure TileShape extends Shape where
  gateBlockN : Nat
  downBlockN : Nat
  groupMValue : Nat
  gateBlockN_mem : gateBlockN = 32 ∨ gateBlockN = 64 ∨ gateBlockN = 128 ∨ gateBlockN = 256
  downBlockN_mem : downBlockN = 32 ∨ downBlockN = 64 ∨ downBlockN = 128 ∨ downBlockN = 256
  groupMValue_pos : 0 < groupMValue

/-- The rows of the gate and up matrices together. -/
def gateUpRows : Nat := 1024

/-- The rows of the down matrix. -/
def hidden : Nat := 2048

/-- The tile of a program of a kernel over so many blocks of columns. A program behind the grid
    returns. -/
def programTile (sh : TileShape) (numPidN : Nat) (totalPostPad pid : Int) : Option (Int × Int) :=
  let numPidM := cdiv totalPostPad sh.blockM
  let grid := numPidM * numPidN
  if pid ≥ grid then none else some (groupedPid sh.groupMValue pid numPidM numPidN)

/-- The tile of a program of `_gate_up_silu_kernel`. -/
def gateUpTile (sh : TileShape) : Int → Int → Option (Int × Int) :=
  programTile sh (gateUpRows / sh.gateBlockN)

/-- The tile of a program of `_down_kernel`. -/
def downTile (sh : TileShape) : Int → Int → Option (Int × Int) :=
  programTile sh (hidden / sh.downBlockN)

/-- The launch of `gate_up_silu` in `kernel_specs`. -/
def gateUpLaunch (sh : TileShape) : Nat := sh.maxRouteBlocks * (1024 / sh.gateBlockN)

/-- The launch of `down` in `kernel_specs`. -/
def downLaunch (sh : TileShape) : Nat := sh.maxRouteBlocks * (2048 / sh.downBlockN)

/-- The programs of a launch compute tiles of a grid only, and each of them once. -/
structure ComputedOnce (tile : Int → Option (Int × Int)) (launch : Nat) (numPidM numPidN : Int) :
    Prop where
  inside : ∀ pid ∈ Set.Ico (0 : Int) launch, ∀ t, tile pid = some t →
    t ∈ Set.Ico 0 numPidM ×ˢ Set.Ico 0 numPidN
  once : ∀ t ∈ Set.Ico 0 numPidM ×ˢ Set.Ico 0 numPidN,
    ∃! pid, pid ∈ Set.Ico (0 : Int) launch ∧ tile pid = some t

/-- A launch with a program for each block of routes and of columns computes every tile once. -/
theorem tile_once (sh : TileShape) (numPidN : Nat) (hn : 0 < numPidN) (totalPostPad : Int)
    (htotal : totalPostPad ≤ sh.maxSortedRoutes) :
    ComputedOnce (programTile sh numPidN totalPostPad) (sh.maxRouteBlocks * numPidN)
      (cdiv totalPostPad sh.blockM) numPidN := by
  have hblock : 0 < (sh.blockM : Int) := by exact_mod_cast sh.blockM_pos
  have hgroup : 0 < (sh.groupMValue : Int) := by exact_mod_cast sh.groupMValue_pos
  have hn' : 0 < (numPidN : Int) := by exact_mod_cast hn
  have hbij := groupedPid_bijOn sh.groupMValue (cdiv totalPostPad sh.blockM) numPidN hgroup hn'
  -- The grid is a part of the launch.
  have hrows : cdiv totalPostPad sh.blockM ≤ sh.maxRouteBlocks := by
    have hmax : (sh.maxRouteBlocks : Int) =
        ((sh.maxSortedRoutes : Int) + sh.blockM - 1) / sh.blockM := by
      have hpos := sh.blockM_pos
      unfold Shape.maxRouteBlocks
      rw [Int.natCast_div, Int.natCast_sub (by omega)]
      push_cast
      rfl
    rw [hmax, cdiv]
    exact Int.ediv_le_ediv hblock (by omega)
  have hgrid : cdiv totalPostPad sh.blockM * numPidN ≤
      ((sh.maxRouteBlocks * numPidN : Nat) : Int) := by
    push_cast
    exact Int.mul_le_mul_of_nonneg_right hrows hn'.le
  have htile : ∀ pid, programTile sh numPidN totalPostPad pid =
      if pid ≥ cdiv totalPostPad sh.blockM * numPidN then none
      else some (groupedPid sh.groupMValue pid (cdiv totalPostPad sh.blockM) numPidN) :=
    fun _ => rfl
  refine ⟨?_, ?_⟩
  · rintro pid ⟨hlow, -⟩ t ht
    rw [htile] at ht
    by_cases hbehind : pid ≥ cdiv totalPostPad sh.blockM * numPidN
    · rw [if_pos hbehind] at ht
      cases ht
    · rw [if_neg hbehind, Option.some.injEq] at ht
      exact ht ▸ hbij.mapsTo ⟨hlow, not_le.mp hbehind⟩
  · intro t ht
    rcases hbij.surjOn ht with ⟨pid, ⟨hlow, hhigh⟩, hpid⟩
    refine ⟨pid, ⟨⟨hlow, by omega⟩, ?_⟩, ?_⟩
    · rw [htile, if_neg (not_le.mpr hhigh)]
      exact congrArg some hpid
    · rintro pid' ⟨⟨hlow', -⟩, hpid'⟩
      rw [htile] at hpid'
      by_cases hbehind : pid' ≥ cdiv totalPostPad sh.blockM * numPidN
      · rw [if_pos hbehind] at hpid'
        cases hpid'
      · rw [if_neg hbehind, Option.some.injEq] at hpid'
        exact hbij.injOn ⟨hlow', not_le.mp hbehind⟩ ⟨hlow, hhigh⟩ (hpid'.trans hpid.symm)

/-- Both kernels, launched behind any total the sorted buffer has room for. -/
theorem tiles_computedOnce (sh : TileShape) (total : Int) (htotal : total ≤ sh.maxSortedRoutes) :
    ComputedOnce (gateUpTile sh total) (gateUpLaunch sh) (cdiv total sh.blockM)
        (gateUpRows / sh.gateBlockN : Nat) ∧
      ComputedOnce (downTile sh total) (downLaunch sh) (cdiv total sh.blockM)
        (hidden / sh.downBlockN : Nat) := by
  have hgate : 0 < gateUpRows / sh.gateBlockN := by
    rcases sh.gateBlockN_mem with h | h | h | h <;> rw [h] <;> decide
  have hdown : 0 < hidden / sh.downBlockN := by
    rcases sh.downBlockN_mem with h | h | h | h <;> rw [h] <;> decide
  exact ⟨tile_once sh _ hgate _ htotal, tile_once sh _ hdown _ htotal⟩

/-- Both kernels, launched after the sort. -/
theorem tiles_afterSort (sh : TileShape) (hwidth : sh.maxSortedRoutes < 2 ^ 31)
    (order : Schedule sh.toShape) (sentinel : Int) (s : Buffers)
    (h : Fresh sh.toShape sentinel s) :
    ∃ out total, routeSort sh.toShape order s = some out ∧ out.totalPostPad = [total] ∧
      ComputedOnce (gateUpTile sh total) (gateUpLaunch sh) (cdiv total sh.blockM)
        (gateUpRows / sh.gateBlockN : Nat) ∧
      ComputedOnce (downTile sh total) (downLaunch sh) (cdiv total sh.blockM)
        (hidden / sh.downBlockN : Nat) := by
  rcases routeSort_described sh.toShape hwidth order sentinel s h with
    ⟨out, hout, _, _, _, _, -, -, -, -, htotal, -⟩
  have hle : ((paddedTotal sh.toShape s : Nat) : Int) ≤ sh.maxSortedRoutes := by
    exact_mod_cast total_le_maxSortedRoutes sh.toShape _ (expertOf_lt h)
  exact ⟨out, _, hout, htotal, tiles_computedOnce sh _ hle⟩

/-- For all positive sizes the programs meet the tiles once each and every group has a row; and so
    each tile of the two matrix kernels is computed once, behind every total that fits the sorted
    buffer, and in the launches that follow a sort. -/
theorem groupedPid_spec :
    (∀ groupMValue numPidM numPidN : Int, 0 < groupMValue → 0 < numPidM → 0 < numPidN →
      Set.BijOn (fun pid => groupedPid groupMValue pid numPidM numPidN)
          (Set.Ico 0 (numPidM * numPidN)) (Set.Ico 0 numPidM ×ˢ Set.Ico 0 numPidN) ∧
        ∀ pid ∈ Set.Ico 0 (numPidM * numPidN), 0 < groupRows groupMValue pid numPidM numPidN) ∧
    (∀ (sh : TileShape) (total : Int), total ≤ sh.maxSortedRoutes →
      ComputedOnce (gateUpTile sh total) (gateUpLaunch sh) (cdiv total sh.blockM)
          (gateUpRows / sh.gateBlockN : Nat) ∧
        ComputedOnce (downTile sh total) (downLaunch sh) (cdiv total sh.blockM)
          (hidden / sh.downBlockN : Nat)) ∧
    ∀ sh : TileShape, sh.maxSortedRoutes < 2 ^ 31 → ∀ (order : Schedule sh.toShape)
      (sentinel : Int) (s : Buffers), Fresh sh.toShape sentinel s →
      ∃ out total, routeSort sh.toShape order s = some out ∧ out.totalPostPad = [total] ∧
        ComputedOnce (gateUpTile sh total) (gateUpLaunch sh) (cdiv total sh.blockM)
          (gateUpRows / sh.gateBlockN : Nat) ∧
        ComputedOnce (downTile sh total) (downLaunch sh) (cdiv total sh.blockM)
          (hidden / sh.downBlockN : Nat) := by
  refine ⟨?_, tiles_computedOnce, tiles_afterSort⟩
  intro groupMValue numPidM numPidN hgroup _ hn
  exact ⟨groupedPid_bijOn groupMValue numPidM numPidN hgroup hn,
    fun pid hpid => groupRows_pos groupMValue numPidM numPidN hgroup hn pid hpid.2⟩

/-- The shape constants of a small sort with the defaults of the kernels behind it. -/
def smallTileShape : TileShape :=
  { smallShape with
    gateBlockN := 64, downBlockN := 64, groupMValue := 8, gateBlockN_mem := Or.inr (Or.inl rfl)
    downBlockN_mem := Or.inr (Or.inl rfl), groupMValue_pos := by decide }

/-- Thirteen rows in groups of eight: the last group has five, and its first program computes the
    fourth of them. -/
theorem raggedGroup_bijOn :
    groupRows 8 128 13 16 = 5 ∧ groupedPid 8 128 13 16 = (11, 0) ∧
      Set.BijOn (fun pid => groupedPid 8 pid 13 16) (Set.Ico 0 (13 * 16))
        (Set.Ico 0 13 ×ˢ Set.Ico 0 16) ∧
      ∃ out total, routeSort smallShape (Schedule.inOrder smallShape) (oneExpert smallShape 7) =
          some out ∧ out.totalPostPad = [total] ∧
        ComputedOnce (gateUpTile smallTileShape total) (gateUpLaunch smallTileShape)
          (cdiv total 16) 16 ∧
        ComputedOnce (downTile smallTileShape total) (downLaunch smallTileShape)
          (cdiv total 16) 32 := by
  refine ⟨by decide, by decide,
    (groupedPid_spec.1 8 13 16 (by decide) (by decide) (by decide)).1, ?_⟩
  refine groupedPid_spec.2.2 smallTileShape (by decide) (Schedule.inOrder smallShape) (-1)
    (oneExpert smallShape 7)
    ⟨List.length_replicate, ?_, rfl, rfl, rfl, rfl, List.length_replicate, Or.inl (by decide)⟩
  intro x hx
  rw [List.eq_of_mem_replicate hx]
  exact ⟨by decide, by decide⟩

end RouteSort

end QrtEngine
