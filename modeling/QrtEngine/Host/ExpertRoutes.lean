import QrtEngine.Host.Projection

/-!
# An Expert

A route of a token goes through its expert in three parts: the gate and up projections, what is
activated, and the down projections, whose outputs are scaled and added. The rows of the
projections are taken in blocks of four, with what is left one by one, by one of two block kernels.
All parts are sequences of steps on the weights and buffers of the route, so a part of the rows is
a part of the sequence.

What the floating-point operations compute is left open, and so is which of its two block kernels
the library is built with.

## Main definitions

* `ExpertOps`, `Kernel`: The operations, and those of a block.
* `Block`, `blocks`: The rows in blocks of four, with what is left one by one.
* `RouteState`, `step`: A route and its steps.
* `expertKernel`: `qrt_qwen36_moe_expert_scalar_kernel`.

## Theorems

* `blocks_append`: Blocks of a range are those of its parts.
* `expertKernel_eq_sequence`: A route is a sequence of steps.
* `expertKernel_alike`: It does not depend on what its buffers hold before.
-/

namespace QrtEngine

namespace ExpertRoutes

open Projection (FloatOps hiddenSize)

/-! ## Operations -/

/-- The operations on single-precision numbers that an expert uses. -/
structure ExpertOps (F : Type) extends FloatOps F where
  scale : F → F → F
  activate : F → F → F

/-- What the library does with the rows of a block, by the processor that it is built for. -/
structure Kernel (F : Type) where
  blockDot : Nat → (Nat → UInt16) → (Nat → F) → F
  blockScale : F → F → F
  blockDot_congr : ∀ columns row input input', (∀ col, col < columns → input col = input' col) →
    blockDot columns row input = blockDot columns row input'

section Kernels

variable {F : Type} (ops : ExpertOps F)

/-- A row, column after column. -/
def scalarDot (columns : Nat) (row : Nat → UInt16) (input : Nat → F) : F :=
  (List.range columns).foldl
    (fun acc col => ops.add acc (ops.mul (input col) (ops.ofBf16 (row col)))) ops.zero

/-- A row reads its columns only. -/
theorem scalarDot_congr (columns : Nat) (row : Nat → UInt16) (input input' : Nat → F)
    (h : ∀ col, col < columns → input col = input' col) :
    scalarDot ops columns row input = scalarDot ops columns row input' := by
  refine List.foldl_ext _ _ _ fun acc col hcol => ?_
  rw [h col (List.mem_range.mp hcol)]

/-- The kernel of any processor. -/
def scalarKernel : Kernel F where
  blockDot := scalarDot ops
  blockScale := ops.scale
  blockDot_congr := scalarDot_congr ops

/-- A row in eight lanes, which are added from the left, and the columns that are left. -/
def lanesDot (columns : Nat) (row : Nat → UInt16) (input : Nat → F) : F :=
  let lanes := (List.range 8).map fun lane => (List.range (columns / 8)).foldl
    (fun acc group => ops.add acc
      (ops.mul (input (8 * group + lane)) (ops.ofBf16 (row (8 * group + lane))))) ops.zero
  let sum := lanes.tail.foldl ops.add (lanes.headD ops.zero)
  (List.range' (columns / 8 * 8) (columns % 8)).foldl
    (fun acc col => ops.add acc (ops.mul (input col) (ops.ofBf16 (row col)))) sum

theorem lanesDot_congr (columns : Nat) (row : Nat → UInt16) (input input' : Nat → F)
    (h : ∀ col, col < columns → input col = input' col) :
    lanesDot ops columns row input = lanesDot ops columns row input' := by
  have hlanes : ∀ lane ∈ List.range 8, (List.range (columns / 8)).foldl
      (fun acc group => ops.add acc
        (ops.mul (input (8 * group + lane)) (ops.ofBf16 (row (8 * group + lane))))) ops.zero =
      (List.range (columns / 8)).foldl
      (fun acc group => ops.add acc
        (ops.mul (input' (8 * group + lane)) (ops.ofBf16 (row (8 * group + lane))))) ops.zero := by
    intro lane hlane
    refine List.foldl_ext _ _ _ fun acc group hgroup => ?_
    rw [List.mem_range] at hlane hgroup
    rw [h (8 * group + lane) (by omega)]
  unfold lanesDot
  rw [List.map_congr_left hlanes]
  refine List.foldl_ext _ _ _ fun acc col hcol => ?_
  rw [List.mem_range'_1] at hcol
  rw [h col (by omega)]

/-- The kernel of a processor with AVX2. -/
def avx2Kernel : Kernel F where
  blockDot := lanesDot ops
  blockScale := fun scale value => ops.mul value scale
  blockDot_congr := lanesDot_congr ops

end Kernels

/-! ## Blocks -/

/-- Rows that are taken together: four, or one. -/
structure Block where
  first : Nat
  four : Bool
  deriving DecidableEq, Repr

def Block.width (block : Block) : Nat := if block.four then 4 else 1

def Block.covers (block : Block) (row : Nat) : Bool :=
  decide (block.first ≤ row) && decide (row < block.first + block.width)

/-- The rows of a block. -/
def Block.rows (block : Block) : List Nat := List.range' block.first block.width

/-- The rows of a range: blocks of four as long as there are four, then one by one. -/
def blocks (row rowEnd : Nat) : List Block :=
  if row + 3 < rowEnd then { first := row, four := true } :: blocks (row + 4) rowEnd
  else (List.range' row (rowEnd - row)).map fun row => { first := row, four := false }
termination_by rowEnd - row

/-- Write the rows of a block. -/
def overlay {F : Type} (block : Block) (values buffer : Nat → F) : Nat → F :=
  fun row => if block.covers row then values row else buffer row

theorem Block.mem_rows (block : Block) (row : Nat) :
    row ∈ block.rows ↔ block.covers row = true := by
  simp [Block.rows, Block.covers, List.mem_range'_1]

/-- The blocks of a range have rows of the range. -/
theorem blocks_covers {row rowEnd : Nat} {block : Block} (h : block ∈ blocks row rowEnd)
    {other : Nat} (hcovers : block.covers other = true) : row ≤ other ∧ other < rowEnd := by
  fun_induction blocks row rowEnd with
  | case1 row hlt ih =>
      rcases List.mem_cons.mp h with rfl | h
      · simp only [Block.covers, Block.width, if_true, Bool.and_eq_true,
          decide_eq_true_eq] at hcovers
        omega
      · have := ih h
        omega
  | case2 row hlt =>
      obtain ⟨first, hfirst, rfl⟩ := List.mem_map.mp h
      rw [List.mem_range'_1] at hfirst
      simp only [Block.covers, Block.width, Bool.false_eq_true, if_false, Bool.and_eq_true,
        decide_eq_true_eq] at hcovers
      omega

/-- Every row of a range is in one of its blocks. -/
theorem exists_block {row rowEnd other : Nat} (hle : row ≤ other) (hlt : other < rowEnd) :
    ∃ block ∈ blocks row rowEnd, block.covers other = true := by
  fun_induction blocks row rowEnd with
  | case1 row hfour ih =>
      by_cases hfirst : other < row + 4
      · refine ⟨_, List.mem_cons_self, ?_⟩
        simp only [Block.covers, Block.width, if_true, Bool.and_eq_true, decide_eq_true_eq]
        omega
      · obtain ⟨block, hblock, hcovers⟩ := ih (by omega)
        exact ⟨block, List.mem_cons_of_mem _ hblock, hcovers⟩
  | case2 row hfour =>
      refine ⟨⟨other, false⟩, List.mem_map_of_mem (List.mem_range'_1.mpr (by omega)), ?_⟩
      simp only [Block.covers, Block.width, Bool.false_eq_true, if_false, Bool.and_eq_true,
        decide_eq_true_eq]
      omega

/-- No row is in two blocks. -/
def Block.Apart (block other : Block) : Prop :=
  ∀ row, ¬ (block.covers row = true ∧ other.covers row = true)

theorem blocks_apart (row rowEnd : Nat) : (blocks row rowEnd).Pairwise Block.Apart := by
  fun_induction blocks row rowEnd with
  | case1 row hfour ih =>
      refine List.pairwise_cons.mpr ⟨?_, ih⟩
      intro block hblock other hboth
      have hlater := blocks_covers hblock hboth.2
      have hfirst := hboth.1
      simp only [Block.covers, Block.width, if_true, Bool.and_eq_true,
        decide_eq_true_eq] at hfirst
      omega
  | case2 row hfour =>
      rw [List.pairwise_map]
      refine (List.pairwise_lt_range' ..).imp ?_
      intro a b hab other hboth
      simp only [Block.covers, Block.width, Bool.false_eq_true, if_false, Bool.and_eq_true,
        decide_eq_true_eq] at hboth
      omega

theorem Block.covers_first (block : Block) : block.covers block.first = true := by
  cases hfour : block.four <;> simp [covers, width, hfour]

theorem blocks_nodup (row rowEnd : Nat) : (blocks row rowEnd).Nodup := by
  refine (blocks_apart row rowEnd).imp fun {a b} h => ?_
  rintro rfl
  exact h a.first ⟨a.covers_first, a.covers_first⟩

/-- Two blocks of a range are one, or apart. -/
theorem blocks_eq_or_apart {row rowEnd : Nat} {block other : Block}
    (h : block ∈ blocks row rowEnd) (h' : other ∈ blocks row rowEnd) (hne : block ≠ other) :
    block.Apart other := by
  have : Std.Symm Block.Apart := ⟨fun _ _ hab row hboth => hab row hboth.symm⟩
  exact (blocks_apart row rowEnd).forall h h' hne

/-- Blocks of a range are those of its parts, if the parts meet between two blocks of four. -/
theorem blocks_append {row mid rowEnd : Nat} (hmid : 4 ∣ mid - row) (hle : row ≤ mid)
    (hend : mid ≤ rowEnd) : blocks row rowEnd = blocks row mid ++ blocks mid rowEnd := by
  obtain ⟨groups, hgroups⟩ := hmid
  induction groups generalizing row with
  | zero =>
      obtain rfl : row = mid := by omega
      rw [show blocks row row = [] by rw [blocks, if_neg (by omega), Nat.sub_self]; rfl,
        List.nil_append]
  | succ groups ih =>
      rw [blocks, if_pos (by omega), ih (by omega) (by omega),
        show blocks row mid = { first := row, four := true } :: blocks (row + 4) mid by
          rw [blocks, if_pos (by omega)], List.cons_append]

/-! ## A route -/

/-- The rows of the gate projection, and of the up projection. -/
def expertIntermediate : Nat := 512

/-- `qrt_qwen36_moe_selected_compute_state_t`: the weights of the expert of a route, its input and
    weight, and its buffers. -/
structure RouteState (F : Type) where
  gateUpWeight : Nat → UInt16
  downWeight : Nat → UInt16
  input : Nat → F
  scale : F
  output : Nat → F
  gateValues : Nat → F
  upValues : Nat → F
  activated : Nat → F

/-- A step of a route: a block of the projections, or a row that is activated. -/
inductive Step
  | gateUp (block : Block)
  | activate (inter : Nat)
  | down (block : Block)
  deriving DecidableEq, Repr

section Steps

variable {F : Type} (ops : ExpertOps F) (kernel : Kernel F)

/-- What a row of a block comes to. -/
def dot (block : Block) (columns : Nat) (row : Nat → UInt16) (input : Nat → F) : F :=
  if block.four then kernel.blockDot columns row input else scalarDot ops columns row input

/-- What is added to an output. -/
def scaled (block : Block) (scale value : F) : F :=
  if block.four then kernel.blockScale scale value else ops.scale scale value

def gateValue (s : RouteState F) (block : Block) (inter : Nat) : F :=
  dot ops kernel block hiddenSize (fun col => s.gateUpWeight (inter * hiddenSize + col)) s.input

def upValue (s : RouteState F) (block : Block) (inter : Nat) : F :=
  dot ops kernel block hiddenSize
    (fun col => s.gateUpWeight ((expertIntermediate + inter) * hiddenSize + col)) s.input

def downValue (s : RouteState F) (block : Block) (row : Nat) : F :=
  dot ops kernel block expertIntermediate
    (fun col => s.downWeight (row * expertIntermediate + col)) s.activated

/-- What an output comes to. -/
def downOutput (s : RouteState F) (block : Block) (row : Nat) : F :=
  ops.add (s.output row) (scaled ops kernel block s.scale (downValue ops kernel s block row))

/-- The steps of a route. A block of which one row comes to no number is not stored, and one whose
    outputs come to none is. -/
def step : Step → RouteState F → Bool × RouteState F
  | .gateUp block, s =>
      if block.rows.any fun inter => ops.isNan (gateValue ops kernel s block inter) ||
          ops.isNan (upValue ops kernel s block inter) then (false, s)
      else (true, { s with
        gateValues := overlay block (gateValue ops kernel s block) s.gateValues
        upValues := overlay block (upValue ops kernel s block) s.upValues })
  | .activate inter, s =>
      let value := ops.activate (s.gateValues inter) (s.upValues inter)
      (!ops.isNan value, { s with activated := Function.update s.activated inter value })
  | .down block, s =>
      if block.rows.any fun row => ops.isNan (downValue ops kernel s block row) then (false, s)
      else
        (!block.rows.any fun row => ops.isNan (downOutput ops kernel s block row), { s with
          output := overlay block (downOutput ops kernel s block) s.output })

/-- The projections of a range, one block after the other. -/
def gateUpRange (interBegin interEnd : Nat) (s : RouteState F) : Bool × RouteState F :=
  if interEnd ≤ interBegin ∨ expertIntermediate < interEnd then (false, s)
  else Interleave.sequence (step ops kernel) ((blocks interBegin interEnd).map .gateUp) s

def activateAll (s : RouteState F) : Bool × RouteState F :=
  Interleave.sequence (step ops kernel) ((List.range expertIntermediate).map .activate) s

def downRange (rowBegin rowEnd : Nat) (s : RouteState F) : Bool × RouteState F :=
  if rowEnd ≤ rowBegin ∨ hiddenSize < rowEnd then (false, s)
  else Interleave.sequence (step ops kernel) ((blocks rowBegin rowEnd).map .down) s

/-- `qrt_qwen36_moe_expert_scalar_kernel`, with what its buffers hold before. -/
def expertKernel (s : RouteState F) : Bool × RouteState F :=
  let gateUp := gateUpRange ops kernel 0 expertIntermediate s
  if gateUp.1 = false then gateUp
  else
    let activated := activateAll ops kernel gateUp.2
    if activated.1 = false then activated
    else downRange ops kernel 0 hiddenSize activated.2

/-- The steps of a route in order. -/
def expertSteps : List Step :=
  (blocks 0 expertIntermediate).map .gateUp ++
    ((List.range expertIntermediate).map .activate ++ (blocks 0 hiddenSize).map .down)

theorem gateUpRange_all (s : RouteState F) :
    gateUpRange ops kernel 0 expertIntermediate s =
      Interleave.sequence (step ops kernel) ((blocks 0 expertIntermediate).map .gateUp) s := by
  have hrange : ¬ (expertIntermediate ≤ 0 ∨ expertIntermediate < expertIntermediate) := by decide
  rw [gateUpRange, if_neg hrange]

theorem downRange_all (s : RouteState F) :
    downRange ops kernel 0 hiddenSize s =
      Interleave.sequence (step ops kernel) ((blocks 0 hiddenSize).map .down) s := by
  have hrange : ¬ (hiddenSize ≤ 0 ∨ hiddenSize < hiddenSize) := by decide
  rw [downRange, if_neg hrange]

theorem expertKernel_eq_sequence (s : RouteState F) :
    expertKernel ops kernel s = Interleave.sequence (step ops kernel) expertSteps s := by
  rw [expertSteps, Interleave.sequence_append, Interleave.sequence_append, expertKernel,
    gateUpRange_all]
  dsimp only
  generalize Interleave.sequence (step ops kernel)
    ((blocks 0 expertIntermediate).map .gateUp) s = gateUp
  rw [activateAll, downRange_all]
  generalize Interleave.sequence (step ops kernel)
    ((List.range expertIntermediate).map .activate) gateUp.2 = activated
  cases gateUp.1 <;> cases activated.1 <;> simp

/-! ## What the buffers hold before -/

/-- Two states with the same weights, input and output, and the same rows in the buffers as far as
    they are written. -/
structure Alike (projected activated : Nat → Prop) (s s' : RouteState F) : Prop where
  gateUpWeight : s.gateUpWeight = s'.gateUpWeight
  downWeight : s.downWeight = s'.downWeight
  input : s.input = s'.input
  scale : s.scale = s'.scale
  output : s.output = s'.output
  projected : ∀ row, projected row →
    s.gateValues row = s'.gateValues row ∧ s.upValues row = s'.upValues row
  activated : ∀ row, activated row → s.activated row = s'.activated row

variable {projected activated : Nat → Prop} {s s' : RouteState F}

theorem Alike.gateUp (h : Alike projected activated s s') (block : Block) :
    (step ops kernel (.gateUp block) s).1 = (step ops kernel (.gateUp block) s').1 ∧
      ((step ops kernel (.gateUp block) s).1 = true →
        Alike (fun row => projected row ∨ block.covers row = true) activated
          (step ops kernel (.gateUp block) s).2 (step ops kernel (.gateUp block) s').2) ∧
      (step ops kernel (.gateUp block) s).2.output =
        (step ops kernel (.gateUp block) s').2.output := by
  have hgate : gateValue ops kernel s block = gateValue ops kernel s' block := by
    funext inter
    rw [gateValue, gateValue, h.gateUpWeight, h.input]
  have hup : upValue ops kernel s block = upValue ops kernel s' block := by
    funext inter
    rw [upValue, upValue, h.gateUpWeight, h.input]
  rw [step, step, hgate, hup]
  split_ifs
  · exact ⟨rfl, fun hfalse => absurd hfalse (by simp), h.output⟩
  · refine ⟨rfl, fun _ => ⟨h.gateUpWeight, h.downWeight, h.input, h.scale, h.output, ?_,
      h.activated⟩, h.output⟩
    intro row hrow
    simp only [overlay]
    by_cases hcovers : block.covers row = true
    · simp only [if_pos hcovers, and_self]
    · simp only [if_neg hcovers]
      exact h.projected row (hrow.resolve_right hcovers)

theorem Alike.activate (h : Alike projected activated s s') (inter : Nat)
    (hinter : projected inter) :
    (step ops kernel (.activate inter) s).1 = (step ops kernel (.activate inter) s').1 ∧
      Alike projected (fun row => activated row ∨ row = inter)
        (step ops kernel (.activate inter) s).2 (step ops kernel (.activate inter) s').2 := by
  obtain ⟨hgate, hup⟩ := h.projected inter hinter
  rw [step, step, hgate, hup]
  refine ⟨rfl, h.gateUpWeight, h.downWeight, h.input, h.scale, h.output, h.projected, ?_⟩
  intro row hrow
  dsimp only
  by_cases hsame : row = inter
  · subst hsame
    rw [Function.update_self, Function.update_self]
  · rw [Function.update_of_ne hsame, Function.update_of_ne hsame]
    exact h.activated row (hrow.resolve_right hsame)

/-- An output depends on the activated rows. -/
theorem downOutput_congr (block : Block) (row : Nat)
    (hweight : s.downWeight = s'.downWeight) (hscale : s.scale = s'.scale)
    (houtput : s.output row = s'.output row)
    (hactivated : ∀ col, col < expertIntermediate → s.activated col = s'.activated col) :
    downValue ops kernel s block row = downValue ops kernel s' block row ∧
      downOutput ops kernel s block row = downOutput ops kernel s' block row := by
  have hvalue : downValue ops kernel s block row = downValue ops kernel s' block row := by
    unfold downValue dot
    rw [hweight]
    split_ifs
    · exact kernel.blockDot_congr _ _ _ _ hactivated
    · exact scalarDot_congr ops _ _ _ _ hactivated
  refine ⟨hvalue, ?_⟩
  rw [downOutput, downOutput, hvalue, hscale, houtput]

theorem Alike.down (h : Alike projected activated s s') (block : Block)
    (hall : ∀ col, col < expertIntermediate → activated col) :
    (step ops kernel (.down block) s).1 = (step ops kernel (.down block) s').1 ∧
      Alike projected activated (step ops kernel (.down block) s).2
        (step ops kernel (.down block) s').2 := by
  have hsame := fun row => downOutput_congr ops kernel block row h.downWeight h.scale
    (congrFun h.output row) fun col hcol => h.activated col (hall col hcol)
  have hvalue : downValue ops kernel s block = downValue ops kernel s' block :=
    funext fun row => (hsame row).1
  have houtput : downOutput ops kernel s block = downOutput ops kernel s' block :=
    funext fun row => (hsame row).2
  rw [step, step, hvalue, houtput, h.output]
  split_ifs
  · exact ⟨rfl, h⟩
  · exact ⟨rfl, h.gateUpWeight, h.downWeight, h.input, h.scale, rfl, h.projected, h.activated⟩

/-- The projections of the gate do not depend on what the buffers hold before. -/
theorem Alike.gateUps (list : List Block) (h : Alike projected activated s s') :
    let run := Interleave.sequence (step ops kernel) (list.map .gateUp) s
    let run' := Interleave.sequence (step ops kernel) (list.map .gateUp) s'
    run.1 = run'.1 ∧ run.2.output = run'.2.output ∧
      (run.1 = true → Alike
        (fun row => projected row ∨ ∃ block ∈ list, block.covers row = true) activated
        run.2 run'.2) := by
  induction list generalizing projected s s' with
  | nil =>
      refine ⟨rfl, h.output, fun _ => ?_⟩
      simpa [Interleave.sequence] using h
  | cons block list ih =>
      obtain ⟨hflag, hnext, houtput⟩ := h.gateUp ops kernel block
      simp only [List.map_cons, Interleave.sequence]
      by_cases hok : (step ops kernel (.gateUp block) s).1 = true
      · rw [if_pos hok, if_pos (hflag ▸ hok)]
        obtain ⟨hrest, hout, halike⟩ := ih (hnext hok)
        refine ⟨hrest, hout, fun hdone => ?_⟩
        have hlast := halike hdone
        simp only [or_assoc] at hlast
        simpa only [List.mem_cons, exists_eq_or_imp] using hlast
      · rw [if_neg hok, if_neg (hflag ▸ hok)]
        exact ⟨hflag, houtput, fun hdone => absurd hdone hok⟩

/-- Nor does what is activated. -/
theorem Alike.activates (list : List Nat) (h : Alike projected activated s s')
    (hall : ∀ inter ∈ list, projected inter) :
    let run := Interleave.sequence (step ops kernel) (list.map .activate) s
    let run' := Interleave.sequence (step ops kernel) (list.map .activate) s'
    run.1 = run'.1 ∧ run.2.output = run'.2.output ∧
      (run.1 = true → Alike projected (fun row => activated row ∨ row ∈ list) run.2 run'.2) := by
  induction list generalizing activated s s' with
  | nil =>
      refine ⟨rfl, h.output, fun _ => ?_⟩
      simpa [Interleave.sequence] using h
  | cons inter list ih =>
      obtain ⟨hflag, hnext⟩ := h.activate ops kernel inter (hall inter List.mem_cons_self)
      simp only [List.map_cons, Interleave.sequence]
      by_cases hok : (step ops kernel (.activate inter) s).1 = true
      · rw [if_pos hok, if_pos (hflag ▸ hok)]
        obtain ⟨hrest, hout, halike⟩ := ih hnext fun i hi => hall i (List.mem_cons_of_mem _ hi)
        refine ⟨hrest, hout, fun hdone => ?_⟩
        have hlast := halike hdone
        simp only [or_assoc] at hlast
        simpa only [List.mem_cons] using hlast
      · rw [if_neg hok, if_neg (hflag ▸ hok)]
        exact ⟨hflag, hnext.output, fun hdone => absurd hdone hok⟩

/-- Nor do the outputs. -/
theorem Alike.downs (list : List Block) (h : Alike projected activated s s')
    (hall : ∀ col, col < expertIntermediate → activated col) :
    let run := Interleave.sequence (step ops kernel) (list.map .down) s
    let run' := Interleave.sequence (step ops kernel) (list.map .down) s'
    run.1 = run'.1 ∧ run.2.output = run'.2.output := by
  induction list generalizing s s' with
  | nil => exact ⟨rfl, h.output⟩
  | cons block list ih =>
      obtain ⟨hflag, hnext⟩ := h.down ops kernel block hall
      simp only [List.map_cons, Interleave.sequence]
      by_cases hok : (step ops kernel (.down block) s).1 = true
      · rw [if_pos hok, if_pos (hflag ▸ hok)]
        exact ih hnext
      · rw [if_neg hok, if_neg (hflag ▸ hok)]
        exact ⟨hflag, hnext.output⟩

/-- The outputs of a route do not depend on what its buffers hold before, if each step reads what
    the steps before it have written. -/
theorem Alike.route (gates : List Block) (inters : List Nat) (downs : List Block)
    (h : Alike (fun _ => False) (fun _ => False) s s')
    (hgates : ∀ inter ∈ inters, ∃ block ∈ gates, block.covers inter = true)
    (hinters : ∀ col, col < expertIntermediate → col ∈ inters) :
    let steps := gates.map Step.gateUp ++ (inters.map Step.activate ++ downs.map Step.down)
    let run := Interleave.sequence (step ops kernel) steps s
    let run' := Interleave.sequence (step ops kernel) steps s'
    run.1 = run'.1 ∧ run.2.output = run'.2.output := by
  simp only [Interleave.sequence_append]
  obtain ⟨hgate, hgateOutput, hprojected⟩ := h.gateUps ops kernel gates
  by_cases hok : (Interleave.sequence (step ops kernel) (gates.map .gateUp) s).1 = true
  · rw [if_pos hok, if_pos (hgate.symm.trans hok)]
    obtain ⟨hactive, hactiveOutput, hactivated⟩ :=
      (hprojected hok).activates ops kernel inters fun inter hinter => Or.inr (hgates inter hinter)
    by_cases hok' : (Interleave.sequence (step ops kernel) (inters.map .activate)
        (Interleave.sequence (step ops kernel) (gates.map .gateUp) s).2).1 = true
    · rw [if_pos hok', if_pos (hactive.symm.trans hok')]
      exact (hactivated hok').downs ops kernel downs fun col hcol => Or.inr (hinters col hcol)
    · rw [if_neg hok', if_neg fun hok'' => hok' (hactive.trans hok'')]
      exact ⟨hactive, hactiveOutput⟩
  · rw [if_neg hok, if_neg fun hok' => hok (hgate.trans hok')]
    exact ⟨hgate, hgateOutput⟩

theorem expertKernel_alike (h : Alike (fun _ => False) (fun _ => False) s s') :
    (expertKernel ops kernel s).1 = (expertKernel ops kernel s').1 ∧
      (expertKernel ops kernel s).2.output = (expertKernel ops kernel s').2.output := by
  rw [expertKernel_eq_sequence, expertKernel_eq_sequence, expertSteps]
  refine Alike.route ops kernel _ _ _ h ?_ ?_
  · intro inter hinter
    exact exists_block (Nat.zero_le _) (List.mem_range.mp hinter)
  · intro col hcol
    exact List.mem_range.mpr hcol

end Steps

end ExpertRoutes

end QrtEngine
