import Mathlib.Algebra.Order.Group.Nat
import Mathlib.Order.Interval.Finset.Nat
import QrtEngine.Core.Engine
import QrtEngine.Library.Cells
import QrtEngine.Library.Collect
import QrtEngine.Library.Outcome
import QrtEngine.Library.Window

/-!
# The Layer 1 Frontier

A linear attention layer begins with a convolution over the last few tokens, so what it computes
for a token depends on that token and a few before it. The frontier of some targets is what the
second layer has to be computed for: the core walks the layers downwards from the last but one, and
at every layer without full attention replaces the tokens by the windows of that convolution.

The tokens are kept in two arrays of a fixed length. Before a token is stored the ones that are
there are searched for it, so after the first windows no token occurs twice. The loop over a window
collects its tokens in an array as `collect` does in a list, the loop over the targets gathers the
`window` of their set, and the walk takes that window again for each layer. Since windows only
grow, a layer that does not fit means that the frontier does not fit.

## Main definitions

* `selectedWindowTokensForTargets`: The windows of some tokens.
* `layer1FrontierTokensForFinalTargets`: The frontier.
* `TokenArray.Holds`, `Gathered`: What an array holds, and what a loop has made of it.
* `receptiveField`: What the convolutions of so many layers read.

## Theorems

* `windowLoop_collected`, `addWindows_collected`: The loops collect the tokens they go over.
* `selectedWindowTokensForTargets_gathered`: The windows gather the window of the set.
* `layerLoop_gathered`: The walk gathers the receptive field.
* `layer1FrontierTokensForFinalTargets_closure`: The frontier is a union of intervals, or does not
  fit.
-/

namespace QrtEngine

namespace Core

namespace Frontier

/-- Why a computation stops. That a cell lies outside its array or that a loop has no end is not a
    status of the source. -/
inductive Stop where
  | outside
  | unfinished
  | failed (status : Status)
deriving DecidableEq, Repr

/-- The result of an access, stopping if there is none. -/
def inside {α : Type} : Option α → Except Stop α
  | none => .error .outside
  | some value => .ok value

/-- The layers of the model. -/
def layerCount : Nat := 40

/-- The last layer. -/
def finalLayerIndex : Nat := layerCount - 1

/-- The tokens a convolution reads for one. -/
def convKernel : UInt32 := 4

/-- The cells of an array of tokens. -/
def frontierTokenCapacity : Nat := 8192

/-- `qrt_qwen36_is_full_attention_layer`. -/
def isFullAttentionLayer (layerIndex : Nat) : Bool := layerIndex % 4 == 3

/-- An array of tokens, and how many of its cells count. -/
structure TokenArray where
  cells : List UInt32
  count : Nat
deriving DecidableEq, Repr

/-! ## The windows of some tokens -/

/-- `qrt_qwen36_u32_array_contains`. -/
def u32ArrayContains : List UInt32 → Nat → UInt32 → Except Stop Bool
  | _, 0, _ => .ok false
  | [], _ + 1, _ => .error .outside
  | head :: values, count + 1, value =>
      if head = value then .ok true else u32ArrayContains values count value

/-- Where the window of a token begins. -/
def windowBegin (token : UInt32) : UInt32 :=
  if token ≥ convKernel - 1 then token - (convKernel - 1) else 0

/-- The loop over the window of a token. The variable has the width of a token. -/
def windowLoop (tokenCapacity : Nat) (token : UInt32) :
    Nat → TokenArray → UInt32 → Except Stop TokenArray
  | 0, _, _ => .error .unfinished
  | fuel + 1, out, current =>
      if current ≤ token then do
        let contained ← u32ArrayContains out.cells out.count current
        if contained then windowLoop tokenCapacity token fuel out (current + 1)
        else if out.count ≥ tokenCapacity then .error (.failed .outOfMemory)
        else do
          let cells ← inside (storeCell out.cells out.count current)
          windowLoop tokenCapacity token fuel { cells := cells, count := out.count + 1 }
            (current + 1)
      else .ok out

/-- Add the window of a token. A loop that has taken as many rounds as there are tokens has found
    or stored each of them and is back where it began, so it has no end. -/
def addWindow (tokenCapacity : Nat) (out : TokenArray) (token : UInt32) :
    Except Stop TokenArray :=
  windowLoop tokenCapacity token UInt32.size out (windowBegin token)

/-- `qrt_qwen36_selected_window_tokens_for_targets`. No targets stand for the null pointer too. -/
def selectedWindowTokensForTargets (targetTokens outTokens : List UInt32) (tokenCapacity : Nat) :
    Except Stop TokenArray :=
  if targetTokens.length = 0 then .error (.failed .invalidArgument)
  else targetTokens.foldlM (addWindow tokenCapacity) { cells := outTokens, count := 0 }

/-! ## The walk over the layers -/

/-- The loop over the layers. The window of the current tokens is built in an array of its own,
    which is cleared for every layer, and copied back. -/
def layerLoop : Nat → TokenArray → Except Stop TokenArray
  | 0, current => .ok current
  | layerIndex + 1, current =>
      if layerIndex + 1 > 1 then
        if isFullAttentionLayer (layerIndex + 1) then layerLoop layerIndex current
        else do
          let targets ← inside (firstCells current.cells current.count)
          let next ← selectedWindowTokensForTargets targets
            (List.replicate frontierTokenCapacity 0) frontierTokenCapacity
          let nextTokens ← inside (firstCells next.cells next.count)
          let cells ← inside (copyCells current.cells nextTokens)
          layerLoop layerIndex { cells := cells, count := next.count }
      else .ok current

/-- What the caller finds in its own array, with the count and the digest of the tokens. -/
structure Output where
  outTokens : List UInt32
  outTokenCount : Nat
  outTokenIdsHash : UInt64
deriving DecidableEq, Repr

/-- `qrt_qwen36_layer1_frontier_tokens_for_final_targets`. No targets stand for the null pointer
    too, and a caller that asks for the results passes pointers for them. -/
def layer1FrontierTokensForFinalTargets (finalTargetTokens outTokens : List UInt32)
    (tokenCapacity : Nat) : Except Stop Output :=
  if finalTargetTokens.length = 0 ∨ finalTargetTokens.length > frontierTokenCapacity ∨
      tokenCapacity < frontierTokenCapacity then
    .error (.failed .invalidArgument)
  else do
    let cells ← inside (copyCells (List.replicate frontierTokenCapacity 0) finalTargetTokens)
    let current ← layerLoop (finalLayerIndex - 1)
      { cells := cells, count := finalTargetTokens.length }
    let tokens ← inside (firstCells current.cells current.count)
    let outTokens ← inside (copyCells outTokens tokens)
    let hashed ← inside (firstCells outTokens current.count)
    .ok { outTokens := outTokens, outTokenCount := current.count, outTokenIdsHash := digest hashed }

/-! ## What the arrays hold -/

/-- An array of a length holds some tokens: they stand at its front and are counted. -/
structure TokenArray.Holds (array : TokenArray) (size : Nat) (found : List UInt32) : Prop where
  front : found <+: array.cells
  count_eq : array.count = found.length
  length_eq : array.cells.length = size

section Arrays

variable {array : TokenArray} {size : Nat} {found : List UInt32}

theorem u32ArrayContains_front (h : array.Holds size found) (value : UInt32) :
    u32ArrayContains array.cells array.count value = .ok (decide (value ∈ found)) := by
  rcases h with ⟨hfront, hcount, -⟩
  rcases hfront with ⟨rest, hcells⟩
  rw [hcount, ← hcells]
  clear hcells hcount
  induction found with
  | nil => simp [u32ArrayContains]
  | cons head found ih =>
      rw [List.length_cons, List.cons_append, u32ArrayContains]
      by_cases hhead : head = value
      · simp [hhead]
      · rw [if_neg hhead, ih]
        simp [Ne.symm hhead]

/-- The counted cells hold the tokens. -/
theorem firstCells_holds (h : array.Holds size found) :
    firstCells array.cells array.count = some found := by
  rw [h.count_eq]
  exact firstCells_front array.cells found h.front

/-- A store behind the tokens adds one. -/
theorem storeCell_holds (h : array.Holds size found) (hroom : found.length < size)
    (value : UInt32) :
    ∃ cells, storeCell array.cells array.count value = some cells ∧
      (TokenArray.mk cells (array.count + 1)).Holds size (found ++ [value]) := by
  have hlength := h.length_eq
  rcases storeCell_front array.cells found value h.front (by omega) with
    ⟨cells, hstore, hfront, hsame⟩
  refine ⟨cells, ?_, hfront, ?_, ?_⟩
  · rw [h.count_eq, hstore]
  · rw [h.count_eq, List.length_append, List.length_singleton]
  · rw [hsame, hlength]

/-- Tokens copied to an array that has room for them. -/
theorem copyCells_holds (cells found : List UInt32) (hfits : found.length ≤ cells.length) :
    ∃ cells', copyCells cells found = some cells' ∧
      (TokenArray.mk cells' found.length).Holds cells.length found := by
  rcases copyCells_front cells found hfits with ⟨cells', hcopy, hfront, hlength⟩
  exact ⟨cells', hcopy, hfront, rfl, hlength⟩

end Arrays

/-! ## The loop over a window -/

/-- So many tokens, one after the other. -/
def tokensFrom : UInt32 → Nat → List UInt32
  | _, 0 => []
  | token, count + 1 => token :: tokensFrom (token + 1) count

/-- A token that is not the last one has a next. -/
theorem toNat_next {token : UInt32} (h : token.toNat + 1 < UInt32.size) :
    (token + 1).toNat = token.toNat + 1 := by
  rw [UInt32.toNat_add]
  exact Nat.mod_eq_of_lt h

theorem mem_tokensFrom {token x : UInt32} {count : Nat} (h : token.toNat + count < UInt32.size) :
    x ∈ tokensFrom token count ↔ token.toNat ≤ x.toNat ∧ x.toNat < token.toNat + count := by
  induction count generalizing token with
  | zero =>
      simp only [tokensFrom, List.not_mem_nil, false_iff]
      omega
  | succ count ih =>
      have hnext : (token + 1).toNat = token.toNat + 1 := toNat_next (by omega)
      rw [tokensFrom, List.mem_cons, ih (by omega), hnext, ← UInt32.toNat_inj]
      omega

/-- What has become of a collection in an array. -/
def Collected (size : Nat) : Option (List UInt32) → Except Stop TokenArray → Prop
  | none, result => result = .error (.failed .outOfMemory)
  | some found, result => ∃ array, result = .ok array ∧ array.Holds size found

/-- The loop collects the tokens it goes over. The induction is on the tokens left. -/
theorem windowLoop_collected {size tokenCapacity fuel count : Nat} {token current : UInt32}
    {out : TokenArray} {found : List UInt32} (hcapacity : tokenCapacity ≤ size)
    (hout : out.Holds size found) (hlast : token.toNat + 1 < UInt32.size)
    (hcount : current.toNat + count = token.toNat + 1) (hfuel : count < fuel) :
    Collected size (collect tokenCapacity found (tokensFrom current count))
      (windowLoop tokenCapacity token fuel out current) := by
  induction count generalizing fuel current out found with
  | zero =>
      rcases fuel with _ | fuel
      · omega
      -- No token is left: the loop has passed the last one.
      have hpast : ¬ current ≤ token := by
        rw [UInt32.le_iff_toNat_le]
        omega
      rw [windowLoop, if_neg hpast]
      exact ⟨out, rfl, hout⟩
  | succ count ih =>
      rcases fuel with _ | fuel
      · omega
      have hinside : current ≤ token := by
        rw [UInt32.le_iff_toNat_le]
        omega
      have hnext : (current + 1).toNat + count = token.toNat + 1 := by
        rw [toNat_next (by omega)]
        omega
      rw [windowLoop, if_pos hinside, u32ArrayContains_front hout, ok_bind, tokensFrom, collect]
      -- A token that is there is passed over; a new one is stored behind the others, or finds no
      -- room.
      by_cases hmem : current ∈ found
      · rw [if_pos hmem, if_pos (decide_eq_true hmem)]
        exact ih hout hnext (by omega)
      · have hcontained : ¬ decide (current ∈ found) = true := by simpa using hmem
        rw [if_neg hmem, if_neg hcontained, hout.count_eq]
        by_cases hroom : found.length < tokenCapacity
        · rcases storeCell_holds hout (by omega) current with ⟨cells, hstore, hholds⟩
          rw [hout.count_eq] at hstore hholds
          rw [if_pos hroom, if_neg (by omega), hstore]
          exact ih hholds hnext (by omega)
        · rw [if_neg hroom, if_pos (by omega)]
          exact rfl

/-! ## The windows of some tokens, as a collection -/

/-- The tokens in the window of a token. -/
def windowTokens (token : UInt32) : List UInt32 :=
  tokensFrom (windowBegin token) (token.toNat + 1 - (windowBegin token).toNat)

/-- A window begins as far back as the convolution reads, or at the first token. -/
theorem toNat_windowBegin (token : UInt32) :
    (windowBegin token).toNat = token.toNat - (convKernel.toNat - 1) := by
  have hreach : (convKernel - 1).toNat = convKernel.toNat - 1 := by decide
  rw [windowBegin]
  by_cases h : token ≥ convKernel - 1
  · rw [if_pos h, UInt32.toNat_sub_of_le _ _ h, hreach]
  · rw [ge_iff_le, UInt32.le_iff_toNat_le, hreach] at h
    rw [if_neg (by rwa [ge_iff_le, UInt32.le_iff_toNat_le, hreach]), UInt32.toNat_zero]
    omega

theorem mem_windowTokens {token x : UInt32} (hlast : token.toNat + 1 < UInt32.size) :
    x ∈ windowTokens token ↔
      token.toNat - (convKernel.toNat - 1) ≤ x.toNat ∧ x.toNat ≤ token.toNat := by
  have hbegin := toNat_windowBegin token
  rw [windowTokens, mem_tokensFrom (by omega), hbegin]
  omega

section Collections

variable {size tokenCapacity : Nat} {out : TokenArray} {found targets : List UInt32}

/-- Adding a window collects its tokens, in fewer rounds than there are tokens. -/
theorem addWindow_collected (hcapacity : tokenCapacity ≤ size) (hout : out.Holds size found)
    {token : UInt32} (hlast : token.toNat + 1 < UInt32.size) :
    Collected size (collect tokenCapacity found (windowTokens token))
      (addWindow tokenCapacity out token) := by
  have hbegin := toNat_windowBegin token
  exact windowLoop_collected hcapacity hout hlast (by omega) (by omega)

/-- The loop over the targets collects the windows one after the other. -/
theorem addWindows_collected (hcapacity : tokenCapacity ≤ size) (hout : out.Holds size found)
    (hlast : ∀ token ∈ targets, token.toNat + 1 < UInt32.size) :
    Collected size (collect tokenCapacity found (targets.flatMap windowTokens))
      (targets.foldlM (addWindow tokenCapacity) out) := by
  induction targets generalizing out found with
  | nil => exact ⟨out, rfl, hout⟩
  | cons target targets ih =>
      have hwindow := addWindow_collected hcapacity hout (hlast target List.mem_cons_self)
      rw [List.flatMap_cons, collect_append, List.foldlM_cons]
      cases hcollect : collect tokenCapacity found (windowTokens target) with
      | none =>
          rw [hcollect] at hwindow
          rw [hwindow]
          exact rfl
      | some result =>
          rw [hcollect] at hwindow
          rcases hwindow with ⟨next, hnext, hholds⟩
          rw [hnext]
          exact ih hholds fun token htoken => hlast token (List.mem_cons_of_mem _ htoken)

end Collections

/-! ## The windows of some tokens, as a set -/

/-- The places of some tokens. -/
def tokenSet (tokens : List UInt32) : Finset Nat := tokens.toFinset.image UInt32.toNat

theorem mem_tokenSet {tokens : List UInt32} {x : Nat} :
    x ∈ tokenSet tokens ↔ ∃ token ∈ tokens, token.toNat = x := by
  simp only [tokenSet, Finset.mem_image, List.mem_toFinset]

theorem card_tokenSet (tokens : List UInt32) : (tokenSet tokens).card = tokens.toFinset.card :=
  Finset.card_image_of_injective _ fun _ _ h => UInt32.toNat_inj.mp h

/-- The windows of some tokens hold the window of their set. -/
theorem tokenSet_windowTokens {targets : List UInt32}
    (hlast : ∀ token ∈ targets, token.toNat + 1 < UInt32.size) :
    tokenSet (targets.flatMap windowTokens) =
      window (convKernel.toNat - 1) (tokenSet targets) := by
  ext x
  simp only [mem_tokenSet, mem_window, List.mem_flatMap]
  constructor
  · rintro ⟨token, ⟨target, htarget, htoken⟩, rfl⟩
    exact ⟨target.toNat, ⟨target, htarget, rfl⟩,
      (mem_windowTokens (hlast target htarget)).mp htoken⟩
  · rintro ⟨_, ⟨target, htarget, rfl⟩, hx⟩
    -- What lies in front of a token is the place of a token.
    have hword : (UInt32.ofNat x).toNat = x :=
      UInt32.toNat_ofNat_of_lt' (by have := hlast target htarget; omega)
    refine ⟨UInt32.ofNat x, ⟨target, htarget, ?_⟩, hword⟩
    rw [mem_windowTokens (hlast target htarget), hword]
    exact hx

/-- A set of tokens has been gathered in an array, each of them once, or does not fit. -/
def Gathered (size : Nat) (tokens : Finset Nat) (result : Except Stop TokenArray) : Prop :=
  (size < tokens.card ∧ result = .error (.failed .outOfMemory)) ∨
    ∃ array found, result = .ok array ∧ array.Holds size found ∧ found.Nodup ∧
      tokenSet found = tokens

theorem card_le_of_holds {array : TokenArray} {size : Nat} {found : List UInt32}
    (hholds : array.Holds size found) (hnodup : found.Nodup) : (tokenSet found).card ≤ size := by
  rw [card_tokenSet, List.toFinset_card_of_nodup hnodup, ← hholds.length_eq]
  exact hholds.front.length_le

/-- The windows are gathered, if there is a target. -/
theorem selectedWindowTokensForTargets_gathered {targets : List UInt32} (cells : List UInt32)
    (hne : targets ≠ []) (hlast : ∀ token ∈ targets, token.toNat + 1 < UInt32.size) :
    Gathered cells.length (window (convKernel.toNat - 1) (tokenSet targets))
      (selectedWindowTokensForTargets targets cells cells.length) := by
  have hempty : (TokenArray.mk cells 0).Holds cells.length [] := ⟨List.nil_prefix, rfl, rfl⟩
  have hcollected := addWindows_collected (Nat.le_refl _) hempty hlast
  rw [selectedWindowTokensForTargets, if_neg (by simpa using hne), ← tokenSet_windowTokens hlast]
  cases hcollect : collect cells.length [] (targets.flatMap windowTokens) with
  | none =>
      rw [hcollect] at hcollected
      have hcard := (collect_eq_none_iff List.nodup_nil (Nat.zero_le _)).mp hcollect
      rw [List.nil_append, ← card_tokenSet] at hcard
      exact Or.inl ⟨hcard, hcollected⟩
  | some found =>
      rw [hcollect] at hcollected
      rcases hcollected with ⟨array, hresult, hholds⟩
      refine Or.inr ⟨array, found, hresult, hholds, nodup_collect hcollect List.nodup_nil, ?_⟩
      ext x
      simp only [mem_tokenSet, mem_collect hcollect, List.not_mem_nil, false_or]

/-! ## The walk gathers the receptive field -/

/-- What the convolutions of so many layers read for some tokens: each of them reads a window. -/
def receptiveField (layers : Nat) (tokens : Finset Nat) : Finset Nat :=
  (window (convKernel.toNat - 1))^[layers] tokens

theorem receptiveField_eq (layers : Nat) (tokens : Finset Nat) :
    receptiveField layers tokens = window (layers * (convKernel.toNat - 1)) tokens := by
  rw [receptiveField, window_iterate, Nat.nsmul_eq_mul]

theorem receptiveField_succ (layers : Nat) (tokens : Finset Nat) :
    receptiveField (layers + 1) tokens =
      receptiveField layers (window (convKernel.toNat - 1) tokens) :=
  Function.iterate_succ_apply _ _ _

theorem subset_receptiveField (layers : Nat) (tokens : Finset Nat) :
    tokens ⊆ receptiveField layers tokens := by
  rw [receptiveField_eq]
  exact subset_window _ tokens

/-- The layers the walk builds windows for. -/
def isWalked (layerIndex : Nat) : Bool :=
  decide (layerIndex > 1) && !isFullAttentionLayer layerIndex

/-- The layers without full attention on the walk from a layer down. -/
def walkedLayers (layerIndex : Nat) : Nat :=
  (List.range (layerIndex + 1)).countP isWalked

theorem walkedLayers_succ (layerIndex : Nat) :
    walkedLayers (layerIndex + 1) =
      walkedLayers layerIndex + if isWalked (layerIndex + 1) then 1 else 0 := by
  rw [walkedLayers, List.range_succ, List.countP_append, List.countP_singleton]
  rfl

example : walkedLayers (finalLayerIndex - 1) = 28 := by decide

/-- Without a layer there is nothing to do but to have each token once. -/
theorem gathered_of_holds {array : TokenArray} {size : Nat} {found : List UInt32}
    (hholds : array.Holds size found) (hnodup : found.Nodup) :
    Gathered size (receptiveField 0 (tokenSet found)) (.ok array) :=
  Or.inr ⟨array, found, rfl, hholds, hnodup, rfl⟩

/-- No window is empty, and none goes on behind its tokens. -/
theorem window_targets {reach : Nat} {found tokens : List UInt32}
    (hset : tokenSet tokens = window reach (tokenSet found)) (hne : found ≠ [])
    (hlast : ∀ token ∈ found, token.toNat + 1 < UInt32.size) :
    tokens ≠ [] ∧ ∀ token ∈ tokens, token.toNat + 1 < UInt32.size := by
  constructor
  · rcases List.exists_mem_of_ne_nil found hne with ⟨token, htoken⟩
    have hmem := subset_window reach (tokenSet found) (mem_tokenSet.mpr ⟨token, htoken, rfl⟩)
    rw [← hset, mem_tokenSet] at hmem
    rcases hmem with ⟨token', htoken', -⟩
    exact List.ne_nil_of_mem htoken'
  · intro token htoken
    have hmem := mem_tokenSet.mpr ⟨token, htoken, rfl⟩
    rw [hset, mem_window] at hmem
    rcases hmem with ⟨place, hplace, -, hto⟩
    rcases mem_tokenSet.mp hplace with ⟨target, htarget, rfl⟩
    have := hlast target htarget
    omega

/-- The walk gathers the receptive field of the layers it walks. The induction is on the layers
    left. A layer whose windows do not fit ends the walk, and what would have come later only adds
    to them. -/
theorem layerLoop_gathered {layerIndex : Nat} {current : TokenArray} {found : List UInt32}
    (hcurrent : current.Holds frontierTokenCapacity found) (hne : found ≠ [])
    (hlast : ∀ token ∈ found, token.toNat + 1 < UInt32.size)
    (hnodup : found.Nodup ∨ 0 < walkedLayers layerIndex) :
    Gathered frontierTokenCapacity (receptiveField (walkedLayers layerIndex) (tokenSet found))
      (layerLoop layerIndex current) := by
  induction layerIndex generalizing current found with
  | zero => exact gathered_of_holds hcurrent (hnodup.resolve_right (by decide))
  | succ layerIndex ih =>
      rw [layerLoop]
      by_cases hlayer : layerIndex + 1 > 1
      · rw [if_pos hlayer]
        rw [walkedLayers_succ] at hnodup ⊢
        by_cases hfull : isFullAttentionLayer (layerIndex + 1)
        · -- A layer with full attention reads no window.
          have hwalked : ¬ isWalked (layerIndex + 1) = true := by simp [isWalked, hfull]
          rw [if_neg hwalked] at hnodup ⊢
          rw [if_pos hfull]
          exact ih hcurrent hne hlast hnodup
        · have hwalked : isWalked (layerIndex + 1) = true := by simp [isWalked, hfull, hlayer]
          rw [if_neg hfull, if_pos hwalked, receptiveField_succ, firstCells_holds hcurrent]
          have hselected := selectedWindowTokensForTargets_gathered
            (List.replicate frontierTokenCapacity 0) hne hlast
          rw [List.length_replicate] at hselected
          simp only [inside, ok_bind]
          -- The windows of this layer do not fit, or they are copied back and the walk goes on from
          -- them.
          rcases hselected with ⟨hcard, hresult⟩ | ⟨next, tokens, hresult, hnext, hunique, hset⟩
          · rw [hresult]
            refine Or.inl ⟨hcard.trans_le (Finset.card_le_card ?_), rfl⟩
            exact subset_receptiveField _ _
          · have hfits : tokens.length ≤ current.cells.length := by
              rw [hcurrent.length_eq, ← hnext.length_eq]
              exact hnext.front.length_le
            rcases copyCells_holds current.cells tokens hfits with ⟨cells, hcopy, hcells⟩
            rcases window_targets hset hne hlast with ⟨hne', hlast'⟩
            rw [hcurrent.length_eq, ← hnext.count_eq] at hcells
            rw [hresult, ok_bind, firstCells_holds hnext]
            simp only [ok_bind, hcopy, ← hset]
            exact ih hcells hne' hlast' (Or.inl hunique)
      · -- The walk ends in front of the second layer.
        rw [if_neg hlayer]
        obtain rfl : layerIndex = 0 := by omega
        exact gathered_of_holds hcurrent (hnodup.resolve_right (by decide))

/-- The window of some tokens, as the union of their windows. -/
theorem window_tokenSet (reach : Nat) (tokens : List UInt32) :
    window reach (tokenSet tokens) =
      tokens.toFinset.biUnion fun token => Finset.Icc (token.toNat - reach) token.toNat :=
  Finset.image_biUnion

/-- The caller finds some tokens at the front of its array, with their count and their digest. -/
structure Output.Reports (output : Output) (size : Nat) (tokens : List UInt32) : Prop where
  front : tokens <+: output.outTokens
  length_eq : output.outTokens.length = size
  count_eq : output.outTokenCount = tokens.length
  hash_eq : output.outTokenIdsHash = digest tokens

section Closure

variable {finalTargetTokens outTokens : List UInt32} {tokenCapacity : Nat}

/-- The caller gets the receptive field of the layers walked, or it does not fit. -/
theorem layer1FrontierTokensForFinalTargets_gathered (hne : finalTargetTokens ≠ [])
    (hcount : finalTargetTokens.length ≤ frontierTokenCapacity)
    (hlast : ∀ token ∈ finalTargetTokens, token.toNat + 1 < UInt32.size)
    (hcapacity : frontierTokenCapacity ≤ tokenCapacity)
    (hout : tokenCapacity ≤ outTokens.length) :
    let field := receptiveField (walkedLayers (finalLayerIndex - 1)) (tokenSet finalTargetTokens)
    let result := layer1FrontierTokensForFinalTargets finalTargetTokens outTokens tokenCapacity
    (frontierTokenCapacity < field.card ∧ result = .error (.failed .outOfMemory)) ∨
      field.card ≤ frontierTokenCapacity ∧
        ∃ output tokens, result = .ok output ∧ output.Reports outTokens.length tokens ∧
          tokens.Nodup ∧ tokenSet tokens = field := by
  intro field result
  have haccepted : ¬ (finalTargetTokens.length = 0 ∨
      finalTargetTokens.length > frontierTokenCapacity ∨
      tokenCapacity < frontierTokenCapacity) := by
    have := List.length_pos_iff.mpr hne
    omega
  -- There is a layer to walk, so targets that occur twice do not matter.
  have hwalked : 0 < walkedLayers (finalLayerIndex - 1) := by decide
  rcases copyCells_holds (List.replicate frontierTokenCapacity 0) finalTargetTokens
    (by rwa [List.length_replicate]) with ⟨cells, hcopy, hcells⟩
  rw [List.length_replicate] at hcells
  have hgathered := layerLoop_gathered hcells hne hlast (Or.inr hwalked)
  simp only [result, layer1FrontierTokensForFinalTargets, if_neg haccepted, hcopy, inside, ok_bind]
  rcases hgathered with ⟨hcard, hresult⟩ | ⟨current, tokens, hresult, hcurrent, hnodup, hset⟩
  · rw [hresult]
    exact Or.inl ⟨hcard, rfl⟩
  · -- What was gathered fits in the first array, and so in that of the caller.
    have hfits : tokens.length ≤ outTokens.length := by
      have := hcurrent.front.length_le
      rw [hcurrent.length_eq] at this
      omega
    rcases copyCells_holds outTokens tokens hfits with ⟨out, hcopy', hholds⟩
    have hhashed := firstCells_holds hholds
    rw [hresult, ok_bind, firstCells_holds hcurrent]
    simp only [ok_bind, hcopy', hcurrent.count_eq, hhashed]
    have hcard := card_le_of_holds hcurrent hnodup
    rw [hset] at hcard
    refine Or.inr ⟨hcard, _, tokens, rfl, ?_, hnodup, hset⟩
    exact ⟨hholds.front, hholds.length_eq, rfl, rfl⟩

end Closure

/-- The frontier of some targets: every target and what is before it, as far back as the
    convolutions of all the layers walked read together. It is found without repetition and
    without an access outside an array, unless it does not fit. -/
theorem layer1FrontierTokensForFinalTargets_closure (finalTargetTokens outTokens : List UInt32)
    (tokenCapacity : Nat) (hne : finalTargetTokens ≠ [])
    (hcount : finalTargetTokens.length ≤ frontierTokenCapacity)
    (hlast : ∀ token ∈ finalTargetTokens, token.toNat < 2 ^ 32 - 1)
    (hcapacity : frontierTokenCapacity ≤ tokenCapacity)
    (hout : tokenCapacity ≤ outTokens.length) :
    let reach := walkedLayers (finalLayerIndex - 1) * (convKernel.toNat - 1)
    let frontier := finalTargetTokens.toFinset.biUnion fun token =>
      Finset.Icc (token.toNat - reach) token.toNat
    let result := layer1FrontierTokensForFinalTargets finalTargetTokens outTokens tokenCapacity
    (result = .error (.failed .outOfMemory) ↔ frontierTokenCapacity < frontier.card) ∧
      (result ≠ .error (.failed .outOfMemory) →
        ∃ output tokens, result = .ok output ∧ output.Reports outTokens.length tokens ∧
          tokens.Nodup ∧ tokens.toFinset.image UInt32.toNat = frontier) := by
  intro reach frontier result
  have hwords : ∀ token ∈ finalTargetTokens, token.toNat + 1 < UInt32.size := by
    intro token htoken
    have := hlast token htoken
    simp only [UInt32.size]
    omega
  have hfrontier : receptiveField (walkedLayers (finalLayerIndex - 1))
      (tokenSet finalTargetTokens) = frontier := by
    rw [receptiveField_eq, window_tokenSet]
  have hgathered := layer1FrontierTokensForFinalTargets_gathered hne hcount hwords hcapacity hout
  rw [hfrontier] at hgathered
  rcases hgathered with ⟨hcard, hresult⟩ | ⟨hcard, output, tokens, hresult, hfound⟩
  · exact ⟨⟨fun _ => hcard, fun _ => hresult⟩, fun hok => absurd hresult hok⟩
  · refine ⟨⟨fun hfull => ?_, fun hlt => absurd hcard (Nat.not_le.mpr hlt)⟩, fun _ => ?_⟩
    · rw [show result = .ok output from hresult] at hfull
      cases hfull
    · exact ⟨output, tokens, hresult, hfound⟩

/-- A target that occurs twice and lies near the first token, and another one. -/
theorem layer1FrontierTokensForFinalTargets_closure_near :
    ∃ output tokens,
      layer1FrontierTokensForFinalTargets [5, 5, 100] (List.replicate 8192 0) 8192 = .ok output ∧
        output.Reports 8192 tokens ∧ tokens.Nodup ∧
        tokens.toFinset.image UInt32.toNat = Finset.Icc 0 5 ∪ Finset.Icc 16 100 := by
  have hclosure := layer1FrontierTokensForFinalTargets_closure [5, 5, 100]
    (List.replicate 8192 0) 8192 (by simp) (by decide) (by simp) (Nat.le_refl _)
    (by rw [List.length_replicate])
  have hfrontier : (([5, 5, 100] : List UInt32).toFinset.biUnion fun token =>
      Finset.Icc (token.toNat - walkedLayers (finalLayerIndex - 1) * (convKernel.toNat - 1))
        token.toNat) = Finset.Icc 0 5 ∪ Finset.Icc 16 100 := by
    decide +kernel
  have hcard : (Finset.Icc 0 5 ∪ Finset.Icc 16 100).card ≤ frontierTokenCapacity := by
    decide +kernel
  rw [List.length_replicate] at hclosure
  simp only [hfrontier] at hclosure
  refine hclosure.2 fun hfull => ?_
  exact absurd (hclosure.1.mp hfull) (Nat.not_lt.mpr hcard)

end Frontier

end Core

end QrtEngine
