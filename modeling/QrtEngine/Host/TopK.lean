import QrtEngine.Host.Projection
import QrtEngine.Library.Ranking
import QrtEngine.Library.Double
import Mathlib.Data.Prod.Lex
import Mathlib.Data.List.Nodup

/-!
# The Tokens and Experts with the Largest Logits

Three loops of `qrt.c` put logits in order: the sampler, which inserts one token after the other
into a few slots; the probe, which counts the tokens ahead of one; and the router, which looks for
the best expert as many times as there are routes. All of them break ties by the smaller number,
also between the two zeros, and turn down logits of which one is not a number. The slots of the
sampler start with minus infinity and a number that no token has, so tokens whose logit is minus
infinity get in as well. The router takes a softmax over the logits of its routes, and that fails
if the largest of them is an infinity: plus infinity, or minus infinity if there is nothing else.

## Main definitions

* `greater`, `same`: What the comparisons of two logits say.
* `samplerTopk`: `qrt_qwen36_sampler_topk_cpu`.
* `probeToken`: `qrt_qwen36_output_head_probe_token_cpu`.
* `routerSelect`: `qrt_moe_router_select_topk_from_logits_cpu`.
* `placeOf`: How many logits are ahead of one.

## Theorems

* `insertToken_eq`: An insertion by moving slots is one into a sorted list.
* `sampler_probe`: The slots have the tokens in order, and the probe tells where.
* `outputHead_order`: The same for logits that threads have computed.
* `routeWeights_spec`: When the softmax over the routes fails.
* `router_order`: The routes have the experts in order.
-/

namespace QrtEngine

namespace TopK

open Binary32 (isNan standing magnitude negative)
open Projection (vocabSize)

/-! ## Logits -/

/-- `value > other`. -/
def greater (value other : UInt32) : Bool :=
  !isNan value && !isNan other && decide (standing other < standing value)

/-- `value == other`. -/
def same (value other : UInt32) : Bool :=
  !isNan value && !isNan other && decide (standing value = standing other)

/-! ## The sampler -/

/-- A slot: the token and its logit. -/
structure Slot where
  tokenId : UInt32
  logit : UInt32
  deriving DecidableEq, Repr

/-- A slot with no token: `UINT32_MAX` and `-HUGE_VALF`. -/
def Slot.empty : Slot := { tokenId := 0xffffffff, logit := 0xff800000 }

/-- The slot of a token. -/
def tokenSlot (token : Nat) (value : UInt32) : Slot :=
  { tokenId := UInt32.ofNat token, logit := value }

/-- The test for the place of a token. -/
def beats (token : Nat) (value : UInt32) (slot : Slot) : Bool :=
  greater value slot.logit || (same value slot.logit && decide (token < slot.tokenId.toNat))

/-- The loop that moves the slots from a place on by one. -/
def moveSlots (slots : List Slot) (insertAt : Nat) : Nat → List Slot
  | 0 => slots
  | move + 1 =>
      if insertAt < move + 1 then
        moveSlots (slots.set (move + 1) (slots.getD move Slot.empty)) insertAt move
      else slots

/-- A token of the loop over all tokens. -/
def insertToken (slots : List Slot) (token : Nat) (value : UInt32) : List Slot :=
  let insertAt := slots.findIdx (beats token value)
  if insertAt < slots.length then
    (moveSlots slots insertAt (slots.length - 1)).set insertAt (tokenSlot token value)
  else slots

/-- The loop over the tokens from one on. -/
def sampleFrom (token : Nat) : List UInt32 → List Slot → Option (List Slot)
  | [], slots => some slots
  | value :: logits, slots =>
      if isNan value then none else sampleFrom (token + 1) logits (insertToken slots token value)

/-- `qrt_qwen36_sampler_topk_cpu`. -/
def samplerTopk (logits : List UInt32) (topk : Nat) : Option (List Slot) :=
  if topk = 0 ∨ vocabSize < topk then none
  else
    match sampleFrom 0 logits (List.replicate topk Slot.empty) with
    | none => none
    | some slots => if slots.head?.map Slot.tokenId = some 0xffffffff then none else some slots

/-! ## The probe -/

/-- The logit at an index ahead of the logit at another. -/
def ahead (logits : List UInt32) (index other : Nat) : Bool :=
  greater (logits.getD index 0) (logits.getD other 0) ||
    (same (logits.getD index 0) (logits.getD other 0) && decide (index < other))

/-- What the probe finds: the logit of the token, its rank, how far it is below the logit of the
    first slot, and whether one of the slots has it. -/
structure Probe where
  logit : UInt32
  rank : Nat
  marginToTop1 : UInt32
  inTopk : Bool
  deriving DecidableEq, Repr

/-- The loop of the probe over the tokens from one on. -/
def probeFrom (logits : List UInt32) (probe : Nat) : Nat → Nat → Option Nat
  | 0, rank => some rank
  | left + 1, rank =>
      let token := logits.length - (left + 1)
      if isNan (logits.getD token 0) then none
      else probeFrom logits probe left
        (if token ≠ probe ∧ ahead logits token probe = true then rank + 1 else rank)

/-- `qrt_qwen36_output_head_probe_token_cpu`, for five slots at most, with the difference of two
    floats. -/
def probeToken (sub : UInt32 → UInt32 → UInt32) (logits : List UInt32) (slots : List Slot)
    (probe : UInt32) : Option Probe :=
  if vocabSize ≤ probe.toNat ∨ slots.length = 0 ∨ 5 < slots.length then none
  else if isNan (logits.getD probe.toNat 0) then none
  else (probeFrom logits probe.toNat logits.length 1).map fun rank =>
    { logit := logits.getD probe.toNat 0
      rank := rank
      marginToTop1 := sub (slots.headD Slot.empty).logit (logits.getD probe.toNat 0)
      inTopk := slots.any fun slot => slot.tokenId = probe }

/-! ## The router -/

/-- `QRT_QWEN36_EXPERT_COUNT`. -/
def expertCount : Nat := 256

/-- `QRT_QWEN36_EXPERTS_PER_TOKEN`. -/
def routeCount : Nat := 8

/-- An expert of the loop that looks for the best. -/
def considerExpert (logits : List UInt32) (selected : List Bool) (best : Option Nat)
    (expert : Nat) : Option Nat :=
  if selected.getD expert false then best
  else
    match best with
    | none => some expert
    | some current => if ahead logits expert current then some expert else some current

/-- The best of the experts that are not selected. -/
def bestExpert (logits : List UInt32) (selected : List Bool) : Option Nat :=
  (List.range expertCount).foldl (considerExpert logits selected) none

/-- The routes that are still to be filled. -/
def selectRoutes (logits : List UInt32) : Nat → List Bool → List Nat → Option (List Nat)
  | 0, _, ids => some ids
  | left + 1, selected, ids =>
      match bestExpert logits selected with
      | none => none
      | some best => selectRoutes logits left (selected.set best true) (ids ++ [best])

/-- The largest value of the routes, which starts with `-HUGE_VAL`. -/
def maxValue (values : List Double) : Double :=
  values.foldl (fun max value => if Double.lt max value then value else max) .negInf

/-- The weights of the routes: the softmax of their values. -/
def routeWeights (arith : Double.Arithmetic) (values : List Double) : Option (List UInt32) :=
  let expValues := values.map fun value => arith.exp (arith.sub value (maxValue values))
  let denom := expValues.foldl arith.add (.finite 0)
  if Double.le denom (.finite 0) ∨ denom = .nan then none
  else
    let weights := expValues.map fun value => arith.toFloat (arith.div value denom)
    if weights.any isNan then none else some weights

/-- The experts of the routes with their weights. -/
structure Routes where
  ids : List Nat
  weights : List UInt32
  deriving DecidableEq, Repr

/-- `qrt_moe_router_select_topk_from_logits_cpu`. -/
def routerSelect (arith : Double.Arithmetic) (logits : List UInt32) : Option Routes :=
  if (List.range expertCount).any fun expert => isNan (logits.getD expert 0) then none
  else
    match selectRoutes logits routeCount (List.replicate expertCount false) [] with
    | none => none
    | some ids =>
        (routeWeights arith (ids.map fun expert => Double.ofFloat (logits.getD expert 0))).map
          fun weights => { ids := ids, weights := weights }

/-! ## The order -/

/-- How many logits are ahead of one. -/
def placeOf (logits : List UInt32) (index : Nat) : Nat :=
  (List.range logits.length).countP fun other => ahead logits other index

/-- The key of a slot: the larger logit is better, then the smaller number. -/
def slotKey (slot : Slot) : Int ×ₗ Nat := toLex (-standing slot.logit, slot.tokenId.toNat)

/-- The key of a logit with its index. -/
def indexKey (logits : List UInt32) (index : Nat) : Int ×ₗ Nat :=
  toLex (-standing (logits.getD index 0), index)

theorem ahead_eq_key (logits : List UInt32) (index other : Nat)
    (h : isNan (logits.getD index 0) = false) (h' : isNan (logits.getD other 0) = false) :
    ahead logits index other = decide (indexKey logits index < indexKey logits other) := by
  rw [ahead, greater, same, h, h', Bool.eq_iff_iff, decide_eq_true_iff, indexKey, indexKey,
    Prod.Lex.toLex_lt_toLex]
  simp

theorem indexKey_injective (logits : List UInt32) (index other : Nat)
    (h : indexKey logits index = indexKey logits other) : index = other :=
  (Prod.mk.inj (toLex.injective h)).2

/-- The test of the sampler compares keys. -/
theorem beats_eq_key (token : Nat) (value : UInt32) (slot : Slot) (htoken : token < 2 ^ 32)
    (h : isNan value = false) (h' : isNan slot.logit = false) :
    beats token value slot =
      decide (slotKey (tokenSlot token value) < slotKey slot) := by
  have hid : (UInt32.ofNat token).toNat = token := by
    rw [UInt32.toNat_ofNat']
    exact Nat.mod_eq_of_lt htoken
  rw [beats, greater, same, h, h', Bool.eq_iff_iff, decide_eq_true_iff, slotKey, slotKey,
    Prod.Lex.toLex_lt_toLex]
  simp [tokenSlot, hid]

/-! ## Insertion by moving slots -/

@[simp] theorem length_moveSlots (slots : List Slot) (insertAt move : Nat) :
    (moveSlots slots insertAt move).length = slots.length := by
  induction move generalizing slots with
  | zero => rfl
  | succ move ih =>
      rw [moveSlots]
      split_ifs
      · rw [ih, List.length_set]
      · rfl

/-- The slots after the loop that moves them. -/
theorem getElem?_moveSlots (slots : List Slot) (insertAt move : Nat) (hmove : move < slots.length)
    (j : Nat) :
    (moveSlots slots insertAt move)[j]? =
      if insertAt < j ∧ j ≤ move then slots[j - 1]? else slots[j]? := by
  induction move generalizing slots with
  | zero =>
      rw [moveSlots, if_neg (by omega)]
  | succ move ih =>
      rw [moveSlots]
      by_cases hlt : insertAt < move + 1
      · rw [if_pos hlt, ih _ (by rw [List.length_set]; omega), List.getElem?_set,
          List.getElem?_set]
        by_cases hj : j = move + 1
        · subst hj
          rw [if_neg (by omega), if_pos rfl, if_pos hmove, if_pos ⟨hlt, Nat.le_refl _⟩,
            Nat.add_sub_cancel, List.getD_eq_getElem?_getD, List.getElem?_eq_getElem (by omega)]
          rfl
        · rw [if_neg (Ne.symm hj)]
          by_cases hin : insertAt < j ∧ j ≤ move
          · rw [if_pos hin, if_neg (by omega), if_pos ⟨hin.1, by omega⟩]
          · rw [if_neg hin, if_neg (by omega)]
      · rw [if_neg hlt, if_neg (by omega)]

/-- An insertion by moving slots is one into a sorted list, which is not let grow. -/
theorem insertToken_eq (slots : List Slot) (token : Nat) (value : UInt32)
    (htoken : token < 2 ^ 32) (hvalue : isNan value = false)
    (hslots : ∀ slot ∈ slots, isNan slot.logit = false) :
    insertToken slots token value =
      (slots.orderedInsert (fun a b => slotKey a < slotKey b) (tokenSlot token value)).take
        slots.length := by
  -- The first slot that is beaten is the first that is worse.
  have hbeats : ∀ slot ∈ slots, beats token value slot =
      decide (slotKey (tokenSlot token value) < slotKey slot) := fun slot hslot =>
    beats_eq_key token value slot htoken hvalue (hslots slot hslot)
  have hindex : slots.findIdx (beats token value) = slots.findIdx fun slot =>
      decide (slotKey (tokenSlot token value) < slotKey slot) :=
    Nat.le_antisymm
      (List.findIdx_le_findIdx fun slot hslot h => by rw [hbeats slot hslot, h])
      (List.findIdx_le_findIdx fun slot hslot h => by rw [← hbeats slot hslot, h])
  rw [Ranking.orderedInsert_eq_findIdx, ← hindex, insertToken]
  generalize slots.findIdx (beats token value) = insertAt
  by_cases hlt : insertAt < slots.length
  · rw [if_pos hlt]
    refine List.ext_getElem? fun j => ?_
    have hmoved := getElem?_moveSlots slots insertAt (slots.length - 1) (by omega)
    rw [List.getElem?_set, length_moveSlots, List.getElem?_take]
    by_cases hj : j < slots.length
    · rw [if_pos hj]
      by_cases hsame : insertAt = j
      · subst hsame
        rw [if_pos rfl, if_pos hj, List.getElem?_append_right (by simp), List.length_take,
          Nat.min_eq_left hj.le, Nat.sub_self]
        rfl
      · rw [if_neg hsame, hmoved]
        by_cases hafter : insertAt < j
        · obtain ⟨d, rfl⟩ := Nat.exists_eq_add_of_lt hafter
          rw [if_pos ⟨hafter, by omega⟩, List.getElem?_append_right (by simp; omega),
            List.length_take, Nat.min_eq_left hlt.le,
            show insertAt + d + 1 - insertAt = d + 1 by omega, List.getElem?_cons_succ,
            List.getElem?_drop]
          rfl
        · rw [if_neg (fun h => hafter h.1), List.getElem?_append_left (by simp; omega),
            List.getElem?_take, if_pos (by omega)]
    · rw [if_neg hj, if_neg (by omega), hmoved, if_neg (by omega), List.getElem?_eq_none (by omega)]
  · rw [if_neg hlt, List.take_of_length_le (Nat.le_of_not_lt hlt), List.take_append,
      List.take_of_length_le (Nat.le_refl _), Nat.sub_self, List.take_zero, List.append_nil]

/-! ## The loop of the sampler -/

/-- The slots of the tokens from one on. -/
def candidates (token : Nat) (logits : List UInt32) : List Slot :=
  (logits.zipIdx token).map fun entry => tokenSlot entry.2 entry.1

@[simp] theorem candidates_cons (token : Nat) (value : UInt32) (logits : List UInt32) :
    candidates token (value :: logits) =
      tokenSlot token value :: candidates (token + 1) logits := by
  simp [candidates, List.zipIdx_cons]

theorem toNat_token {token : Nat} (h : token < 2 ^ 32) : (UInt32.ofNat token).toNat = token := by
  rw [UInt32.toNat_ofNat']
  exact Nat.mod_eq_of_lt h

/-- A token is better than no token, even with minus infinity. -/
theorem slotKey_lt_empty (token : Nat) (value : UInt32) (htoken : token < 0xffffffff)
    (hvalue : isNan value = false) : slotKey (tokenSlot token value) < slotKey Slot.empty := by
  have hempty : standing Slot.empty.logit = -0x7f800000 := by decide
  have hid : Slot.empty.tokenId.toNat = 0xffffffff := by decide
  have hstanding : -0x7f800000 ≤ standing value := by
    rw [isNan, decide_eq_false_iff_not, not_lt] at hvalue
    unfold standing
    split_ifs <;> omega
  rw [slotKey, slotKey, Prod.Lex.toLex_lt_toLex, hempty, hid]
  simp only [tokenSlot, toNat_token (by omega : token < 2 ^ 32)]
  rcases lt_or_eq_of_le hstanding with hlt | heq
  · left
    omega
  · right
    exact ⟨by omega, htoken⟩

/-- The sampler when it has seen some tokens: the slots have the best of them, and behind those no
    tokens. -/
theorem sampleFrom_spec (topk : Nat) (logits : List UInt32) (token : Nat)
    (seen found : List Slot) (hsize : token + logits.length ≤ vocabSize)
    (hbest : Ranking.Best slotKey topk seen found)
    (hseen : ∀ slot ∈ seen, slot.tokenId.toNat < token ∧ isNan slot.logit = false) :
    (sampleFrom token logits (found ++ List.replicate (topk - found.length) Slot.empty) = none ↔
      ∃ value ∈ logits, isNan value = true) ∧
    ∀ slots, sampleFrom token logits
        (found ++ List.replicate (topk - found.length) Slot.empty) = some slots →
      ∃ found', Ranking.Best slotKey topk (seen ++ candidates token logits) found' ∧
        slots = found' ++ List.replicate (topk - found'.length) Slot.empty := by
  induction logits generalizing token seen found with
  | nil =>
      refine ⟨by simp [sampleFrom], fun slots h => ⟨found, ?_, (Option.some.inj h).symm⟩⟩
      rwa [candidates, List.zipIdx_nil, List.map_nil, List.append_nil]
  | cons value logits ih =>
      rw [List.length_cons] at hsize
      have htoken : token < 0xffffffff := by
        unfold vocabSize at hsize
        omega
      rw [sampleFrom]
      cases hvalue : isNan value with
      | true =>
          rw [if_pos rfl]
          exact ⟨⟨fun _ => ⟨value, List.mem_cons_self, hvalue⟩, fun _ => rfl⟩,
            fun slots h => by cases h⟩
      | false =>
          rw [if_neg Bool.false_ne_true]
          have hfound : ∀ slot ∈ found, isNan slot.logit = false := by
            intro slot hslot
            obtain ⟨i, hi⟩ := List.mem_iff_getElem?.mp hslot
            exact (hseen slot (hbest.rank_eq hi).1).2
          have hslots : ∀ slot ∈ found ++ List.replicate (topk - found.length) Slot.empty,
              isNan slot.logit = false := by
            intro slot hslot
            rcases List.mem_append.mp hslot with hslot | hslot
            · exact hfound slot hslot
            · rw [List.eq_of_mem_replicate hslot]
              decide
          have hle : found.length ≤ topk := by
            have hlength := hbest.length_eq
            omega
          have hlength : found.length + (topk - found.length) = topk := by omega
          -- The key carries the id, so the new token is none of those seen.
          have hnew : ∀ slot ∈ seen, slotKey slot ≠ slotKey (tokenSlot token value) := by
            intro slot hslot heq
            have hid := (Prod.mk.inj (toLex.injective heq)).2
            rw [tokenSlot, toNat_token (by omega)] at hid
            have hold := (hseen slot hslot).1
            omega
          have hinsert := insertToken_eq
            (found ++ List.replicate (topk - found.length) Slot.empty) token value (by omega)
            hvalue hslots
          rw [List.length_append, List.length_replicate,
            Ranking.take_orderedInsert_padded found _ _ _
              (slotKey_lt_empty token value htoken hvalue), hlength] at hinsert
          have hbest' := hbest.insert (tokenSlot token value) hnew
          -- One slot more is in use, or the last one falls out: the padding shrinks with it.
          generalize hnext : (found.orderedInsert (fun a b => slotKey a < slotKey b)
            (tokenSlot token value)).take topk = next at hbest'
          have hpadding : topk - found.length - 1 = topk - next.length := by
            rw [← hnext, List.length_take, List.orderedInsert_length]
            omega
          have hseen' : ∀ slot ∈ seen ++ [tokenSlot token value],
              slot.tokenId.toNat < token + 1 ∧ isNan slot.logit = false := by
            intro slot hslot
            rcases List.mem_append.mp hslot with hslot | hslot
            · exact ⟨Nat.lt_succ_of_lt (hseen slot hslot).1, (hseen slot hslot).2⟩
            · rw [List.mem_singleton.mp hslot, tokenSlot, toNat_token (by omega)]
              exact ⟨Nat.lt_succ_self token, hvalue⟩
          obtain ⟨hnone, hsome⟩ := ih (token + 1) (seen ++ [tokenSlot token value]) next
            (by omega) hbest' hseen'
          have hstep : insertToken (found ++ List.replicate (topk - found.length) Slot.empty)
              token value = next ++ List.replicate (topk - next.length) Slot.empty := by
            rw [hinsert, hpadding]
            exact congrArg (· ++ _) hnext
          rw [hstep, hnone]
          refine ⟨?_, ?_⟩
          · simp [hvalue]
          · intro slots h
            obtain ⟨found', hfound', hslots'⟩ := hsome slots h
            rw [List.append_assoc, List.singleton_append] at hfound'
            exact ⟨found', by rwa [candidates_cons], hslots'⟩

theorem candidates_eq (logits : List UInt32) :
    candidates 0 logits =
      (List.range logits.length).map fun token => tokenSlot token (logits.getD token 0) := by
  refine List.ext_getElem? fun i => ?_
  rw [candidates, List.getElem?_map, List.getElem?_map, List.getElem?_zipIdx]
  by_cases hi : i < logits.length
  · rw [List.getElem?_eq_getElem hi, List.getElem?_range hi]
    simp [List.getD_eq_getElem?_getD, List.getElem?_eq_getElem hi]
  · rw [List.getElem?_eq_none (by omega), List.getElem?_eq_none (by simp; omega)]
    rfl

section Ranks

variable {logits : List UInt32} (hnumbers : ∀ value ∈ logits, isNan value = false)
include hnumbers

theorem getD_number {index : Nat} (h : index < logits.length) :
    isNan (logits.getD index 0) = false := by
  rw [List.getD_eq_getElem?_getD, List.getElem?_eq_getElem h, Option.getD_some]
  exact hnumbers _ (List.getElem_mem h)

/-- How many logits are ahead is how many indices are better. -/
theorem placeOf_eq_rank {index : Nat} (h : index < logits.length) :
    placeOf logits index =
      Ranking.rank (indexKey logits) (List.range logits.length) index := by
  unfold placeOf Ranking.rank
  refine List.countP_congr fun other hother => ?_
  rw [ahead_eq_key logits other index (getD_number hnumbers (List.mem_range.mp hother))
    (getD_number hnumbers h)]

/-- The same for the slots of the tokens. -/
theorem rank_candidates (hsize : logits.length ≤ vocabSize) {token : Nat}
    (h : token < logits.length) :
    Ranking.rank slotKey (candidates 0 logits) (tokenSlot token (logits.getD token 0)) =
      placeOf logits token := by
  have hkey : ∀ index, index < logits.length →
      slotKey (tokenSlot index (logits.getD index 0)) = indexKey logits index := by
    intro index hindex
    unfold vocabSize at hsize
    rw [slotKey, indexKey, tokenSlot, toNat_token (by omega)]
  rw [placeOf_eq_rank hnumbers h, candidates_eq, Ranking.rank, Ranking.rank, List.countP_map,
    hkey token h]
  refine List.countP_congr fun other hother => ?_
  rw [Function.comp_apply, hkey other (List.mem_range.mp hother)]

/-- What the probe counts. -/
theorem probeFrom_eq (probe left rank : Nat) (hleft : left ≤ logits.length) :
    probeFrom logits probe left rank = some (rank +
      (List.range' (logits.length - left) left).countP fun token =>
        decide (token ≠ probe) && ahead logits token probe) := by
  induction left generalizing rank with
  | zero => simp [probeFrom]
  | succ left ih =>
      rw [probeFrom, getD_number hnumbers (by omega), if_neg Bool.false_ne_true, ih _ (by omega),
        List.range'_succ, List.countP_cons,
        show logits.length - (left + 1) + 1 = logits.length - left by omega]
      by_cases hahead : logits.length - (left + 1) ≠ probe ∧
          ahead logits (logits.length - (left + 1)) probe = true
      · rw [if_pos hahead, if_pos (by simpa using hahead)]
        congr 1
        omega
      · rw [if_neg hahead, if_neg (by simpa using hahead)]
        rfl

theorem probe_rank {probe : Nat} (h : probe < logits.length) :
    probeFrom logits probe logits.length 1 = some (placeOf logits probe + 1) := by
  rw [probeFrom_eq hnumbers probe _ 1 (Nat.le_refl _), Nat.sub_self, ← List.range_eq_range',
    placeOf, Nat.add_comm]
  congr 2
  refine List.countP_congr fun token htoken => ?_
  -- No logit is ahead of itself.
  by_cases hsame : token = probe
  · subst hsame
    rw [ahead_eq_key logits token token (getD_number hnumbers h) (getD_number hnumbers h)]
    simp
  · simp [hsame]

end Ranks

theorem slotKey_injective (a b : Slot) (ha : a ∈ candidates 0 logits)
    (hb : b ∈ candidates 0 logits) (hsize : logits.length ≤ vocabSize)
    (h : slotKey a = slotKey b) : a = b := by
  rw [candidates_eq] at ha hb
  obtain ⟨token, htoken, rfl⟩ := List.mem_map.mp ha
  obtain ⟨other, hother, rfl⟩ := List.mem_map.mp hb
  have hid := (Prod.mk.inj (toLex.injective h)).2
  rw [List.mem_range] at htoken hother
  unfold vocabSize at hsize
  rw [tokenSlot, tokenSlot, toNat_token (by omega), toNat_token (by omega)] at hid
  rw [hid]

/-- The sampler finds the best of all tokens, if their logits are numbers. -/
theorem samplerTopk_best (logits : List UInt32) (topk : Nat) (hsize : logits.length = vocabSize)
    (hpos : 0 < topk) (hle : topk ≤ vocabSize) :
    (samplerTopk logits topk = none ↔ ∃ value ∈ logits, isNan value = true) ∧
    ∀ slots, samplerTopk logits topk = some slots →
      Ranking.Best slotKey topk (candidates 0 logits) slots := by
  obtain ⟨hnone, hsome⟩ := sampleFrom_spec topk logits 0 [] []
    (by rw [hsize, Nat.zero_add]) (Ranking.Best.nil topk) (by simp)
  rw [List.nil_append, List.length_nil, Nat.sub_zero] at hnone hsome
  rw [samplerTopk, if_neg (by omega)]
  cases hsample : sampleFrom 0 logits (List.replicate topk Slot.empty) with
  | none =>
      refine ⟨⟨fun _ => hnone.mp hsample, fun _ => rfl⟩, fun slots h => by cases h⟩
  | some slots =>
      obtain ⟨found, hbest, hslots⟩ := hsome slots hsample
      rw [List.nil_append] at hbest
      have hlength : found.length = topk := by
        rw [hbest.length_eq, candidates_eq, List.length_map, List.length_range, hsize]
        exact Nat.min_eq_left hle
      rw [hlength, Nat.sub_self, List.replicate_zero, List.append_nil] at hslots
      subst hslots
      -- The first slot has a token.
      have hhead : slots.head?.map Slot.tokenId ≠ some 0xffffffff := by
        intro hhead
        obtain ⟨slot, hslot, hid⟩ := Option.map_eq_some_iff.mp hhead
        rw [List.head?_eq_getElem?] at hslot
        have hmem := (hbest.rank_eq hslot).1
        rw [candidates_eq] at hmem
        obtain ⟨token, htoken, rfl⟩ := List.mem_map.mp hmem
        rw [List.mem_range, hsize] at htoken
        unfold vocabSize at htoken
        have hcontra := congrArg UInt32.toNat hid
        rw [tokenSlot, toNat_token (by omega)] at hcontra
        have hmax : (0xffffffff : UInt32).toNat = 0xffffffff := by decide
        omega
      simp only [if_neg hhead]
      refine ⟨⟨fun h => absurd h (Option.some_ne_none _), fun hnan => ?_⟩, fun other h => ?_⟩
      · rw [hnone.mpr hnan] at hsample
        cases hsample
      · rw [← Option.some.inj h]
        exact hbest

/-- The slots have the tokens at their places, with their logits. -/
theorem samplerTopk_places {logits : List UInt32} {topk : Nat} {slots : List Slot}
    (hsize : logits.length = vocabSize) (hle : topk ≤ vocabSize)
    (hnumbers : ∀ value ∈ logits, isNan value = false)
    (hbest : Ranking.Best slotKey topk (candidates 0 logits) slots) :
    slots.length = topk ∧
    (∀ slot ∈ slots, slot.tokenId.toNat < vocabSize ∧
      slot = tokenSlot slot.tokenId.toNat (logits.getD slot.tokenId.toNat 0)) ∧
    (∀ i token, i < topk → token < vocabSize →
      (slots[i]? = some (tokenSlot token (logits.getD token 0)) ↔ placeOf logits token = i)) ∧
    (∀ token, token < vocabSize →
      (tokenSlot token (logits.getD token 0) ∈ slots ↔ placeOf logits token < topk)) := by
  have hinj : ∀ a ∈ candidates 0 logits, ∀ b ∈ candidates 0 logits,
      slotKey a = slotKey b → a = b := fun a ha b hb =>
    slotKey_injective a b ha hb hsize.le
  have hcandidate : ∀ token, token < vocabSize →
      tokenSlot token (logits.getD token 0) ∈ candidates 0 logits := by
    intro token htoken
    rw [candidates_eq]
    exact List.mem_map_of_mem (List.mem_range.mpr (by omega))
  refine ⟨?_, ?_, ?_, ?_⟩
  · rw [hbest.length_eq, candidates_eq, List.length_map, List.length_range, hsize]
    exact Nat.min_eq_left hle
  · intro slot hslot
    obtain ⟨i, hi⟩ := List.mem_iff_getElem?.mp hslot
    have hmem := (hbest.rank_eq hi).1
    rw [candidates_eq] at hmem
    obtain ⟨token, htoken, rfl⟩ := List.mem_map.mp hmem
    rw [List.mem_range, hsize] at htoken
    have hid : (UInt32.ofNat token).toNat = token := by
      unfold vocabSize at htoken
      exact toNat_token (by omega)
    simp only [tokenSlot, hid, htoken, true_and]
  · intro i token hi htoken
    rw [hbest.getElem?_iff hinj hi,
      rank_candidates hnumbers hsize.le (by rw [hsize]; exact htoken)]
    exact ⟨fun h => h.2, fun h => ⟨hcandidate token htoken, h⟩⟩
  · intro token htoken
    rw [hbest.mem_iff hinj (hcandidate token htoken),
      rank_candidates hnumbers hsize.le (by rw [hsize]; exact htoken)]

/-- The same by the numbers of the tokens. -/
theorem places_tokens {logits : List UInt32} {topk : Nat} {slots : List Slot}
    (hslot : ∀ slot ∈ slots, slot.tokenId.toNat < vocabSize ∧
      slot = tokenSlot slot.tokenId.toNat (logits.getD slot.tokenId.toNat 0))
    (hat : ∀ i token, i < topk → token < vocabSize →
      (slots[i]? = some (tokenSlot token (logits.getD token 0)) ↔ placeOf logits token = i))
    (i token : Nat) (hi : i < topk) (htoken : token < vocabSize) :
    (slots[i]?.map fun slot => slot.tokenId.toNat) = some token ↔
      placeOf logits token = i := by
  rw [← hat i token hi htoken, Option.map_eq_some_iff]
  constructor
  · rintro ⟨slot, hget, rfl⟩
    rw [hget, ← (hslot slot (List.mem_of_getElem? hget)).2]
  · intro hget
    unfold vocabSize at htoken
    exact ⟨_, hget, toNat_token (by omega)⟩

/-- The slots of the sampler and the probe. The sampler fails exactly if a logit is not a number.
    If not, a slot has the token that as many logits are ahead of as slots stand before it, with
    its logit. The rank that the probe finds for a token is one more than the logits ahead, its
    margin is the difference to the logit that no other is ahead of, and the token is in a slot
    exactly if the rank is not larger than the number of slots: it is in the slot of that rank. -/
theorem sampler_probe (sub : UInt32 → UInt32 → UInt32) (logits : List UInt32) (topk : Nat)
    (hsize : logits.length = vocabSize) (hpos : 0 < topk) (hle : topk ≤ vocabSize) :
    (samplerTopk logits topk = none ↔ ∃ value ∈ logits, isNan value = true) ∧
    ∀ slots, samplerTopk logits topk = some slots →
      slots.length = topk ∧
      (∀ slot ∈ slots, slot.tokenId.toNat < vocabSize ∧
        slot.logit = logits.getD slot.tokenId.toNat 0) ∧
      (∀ i token, i < topk → token < vocabSize →
        ((slots[i]?.map fun slot => slot.tokenId.toNat) = some token ↔
          placeOf logits token = i)) ∧
      (topk ≤ 5 → ∀ probe : UInt32, probe.toNat < vocabSize →
        ∃ found, probeToken sub logits slots probe = some found ∧
          found.logit = logits.getD probe.toNat 0 ∧
          found.rank = placeOf logits probe.toNat + 1 ∧
          (∃ first, first < vocabSize ∧ placeOf logits first = 0 ∧
            found.marginToTop1 = sub (logits.getD first 0) (logits.getD probe.toNat 0)) ∧
          (found.inTopk = true ↔ found.rank ≤ topk) ∧
          (found.rank ≤ topk → slots[found.rank - 1]?.map Slot.tokenId = some probe)) := by
  obtain ⟨hnone, hsome⟩ := samplerTopk_best logits topk hsize hpos hle
  refine ⟨hnone, fun slots hslots => ?_⟩
  have hnumbers : ∀ value ∈ logits, isNan value = false := by
    intro value hvalue
    rw [← Bool.not_eq_true]
    intro hnan
    rw [hnone.mpr ⟨value, hvalue, hnan⟩] at hslots
    cases hslots
  obtain ⟨hlength, hslot, hat, hmem⟩ :=
    samplerTopk_places hsize hle hnumbers (hsome slots hslots)
  refine ⟨hlength, fun slot h => ⟨(hslot slot h).1, ?_⟩, places_tokens hslot hat, ?_⟩
  · exact congrArg Slot.logit (hslot slot h).2
  · intro hfive probe hprobe
    have hself : UInt32.ofNat probe.toNat = probe := UInt32.ofNat_toNat
    -- The first slot has the token that no other is ahead of.
    obtain ⟨top, others, rfl⟩ : ∃ top others, slots = top :: others :=
      List.exists_cons_of_length_pos (by omega)
    have htop := hslot top List.mem_cons_self
    have hplace : placeOf logits top.tokenId.toNat = 0 :=
      (hat 0 top.tokenId.toNat hpos htop.1).mp (congrArg some htop.2)
    refine ⟨⟨logits.getD probe.toNat 0, placeOf logits probe.toNat + 1,
      sub top.logit (logits.getD probe.toNat 0),
      (top :: others).any fun slot => slot.tokenId = probe⟩, ?_, rfl, rfl,
      ⟨top.tokenId.toNat, htop.1, hplace, ?_⟩, ?_, ?_⟩
    · rw [probeToken, if_neg (by omega), getD_number hnumbers (by omega),
        if_neg Bool.false_ne_true, probe_rank hnumbers (by omega)]
      rfl
    · exact congrArg (sub · _) (congrArg Slot.logit htop.2)
    · -- The probe is among the slots where its rank is.
      rw [List.any_eq_true, Nat.add_one_le_iff, ← hmem probe.toNat hprobe]
      constructor
      · rintro ⟨slot, hin, heq⟩
        obtain rfl := of_decide_eq_true heq
        rw [← (hslot slot hin).2]
        exact hin
      · exact fun hin => ⟨_, hin, decide_eq_true hself⟩
    · intro hrank
      dsimp only at hrank ⊢
      rw [Nat.add_sub_cancel, (hat _ probe.toNat (by omega) hprobe).mpr rfl, Option.map_some,
        tokenSlot, hself]

/-- All logits are one: the first tokens are found. -/
theorem sampler_probe_ones : ∃ slots,
    samplerTopk (List.replicate vocabSize 0x3f800000) 5 = some slots ∧ slots.length = 5 ∧
      (slots[0]?.map fun slot => slot.tokenId.toNat) = some 0 ∧
      ∃ found, probeToken (· - ·) (List.replicate vocabSize 0x3f800000) slots 0 = some found ∧
        found.rank = 1 ∧ found.marginToTop1 = 0 ∧ found.inTopk = true := by
  obtain ⟨hnone, hsome⟩ := sampler_probe (· - ·) (List.replicate vocabSize 0x3f800000) 5
    (List.length_replicate ..) (by decide) (by decide)
  have hplace : placeOf (List.replicate vocabSize 0x3f800000) 0 = 0 := by
    refine List.countP_eq_zero.mpr fun other hother => ?_
    rw [List.mem_range, List.length_replicate] at hother
    have hone : greater 0x3f800000 0x3f800000 = false := by decide
    simp [ahead, hother, hone, show 0 < vocabSize by decide]
  cases hslots : samplerTopk (List.replicate vocabSize 0x3f800000) 5 with
  | none =>
      obtain ⟨value, hvalue, hnan⟩ := hnone.mp hslots
      rw [List.eq_of_mem_replicate hvalue] at hnan
      exact absurd hnan (by decide)
  | some slots =>
      obtain ⟨hlength, _, hat, hprobe⟩ := hsome slots hslots
      obtain ⟨found, hfound, _, hrank, ⟨first, hfirst, _, hmargin⟩, hin, _⟩ :=
        hprobe (by decide) 0 (by decide)
      have hone : found.rank = 1 := hrank.trans (congrArg (· + 1) hplace)
      have hlogit : ∀ token, token < vocabSize →
          (List.replicate vocabSize (0x3f800000 : UInt32)).getD token 0 = 0x3f800000 := by
        intro token htoken
        rw [List.getD_eq_getElem?_getD, List.getElem?_replicate, if_pos htoken, Option.getD_some]
      rw [hlogit first hfirst, hlogit (UInt32.toNat 0) (by decide)] at hmargin
      exact ⟨slots, rfl, hlength, (hat 0 0 (by decide) (by decide)).mpr hplace, found, hfound,
        hone, hmargin, hin.mpr (by omega)⟩

/-! ## The output head -/

/-- The logits that the threads of the output head leave, and the slots that the sampler fills from
    them. The threads fail exactly if some token comes to no number. If they do not, the sampler
    does not fail either, and a slot has the token that as many are ahead of as slots stand before
    it, by what each token comes to. -/
theorem outputHead_order (ops : Projection.FloatOps UInt32) (hnan : ops.isNan = isNan)
    (weights : Nat → UInt16) (hidden : Nat → UInt32) (threads : Projection.ThreadUse)
    (hlog : Interleave.Complete
      ((Projection.headTasks threads).map Projection.Task.rows) threads.log)
    (buffer : List UInt32) (hbuffer : buffer.length = vocabSize) (topk : Nat) (hpos : 0 < topk)
    (hle : topk ≤ vocabSize) :
    let run := Projection.engineLogits ops weights hidden threads buffer
    let logits := (List.range vocabSize).map fun token =>
      (Projection.logitRow ops weights hidden token).getD 0
    (run.1 = true ↔ ∀ token < vocabSize,
      (Projection.logitRow ops weights hidden token).isSome = true) ∧
    (run.1 = true → run.2 = logits ∧ ∃ slots, samplerTopk run.2 topk = some slots ∧
      slots.length = topk ∧
      ∀ i token, i < topk → token < vocabSize →
        ((slots[i]?.map fun slot => slot.tokenId.toNat) = some token ↔
          placeOf logits token = i)) := by
  intro run logits
  obtain ⟨hflag, hsame⟩ := Projection.engineLogits_eq_rows ops weights hidden threads hlog buffer
  obtain ⟨hok, hrows⟩ := Projection.logitsCpu_spec ops weights hidden buffer
  have hrun : run.1 = true ↔ ∀ token < vocabSize,
      (Projection.logitRow ops weights hidden token).isSome = true := by
    rw [← hok, ← hflag]
  refine ⟨hrun, fun hdone => ?_⟩
  have hall := hrun.mp hdone
  -- The threads leave what one thread leaves, and that is one row for each token.
  have hlogits : run.2 = logits := by
    have hserial := hok.mpr hall
    rw [show run = _ from hsame hserial]
    refine List.ext_getElem? fun index => ?_
    rw [hrows hserial, List.getElem?_map]
    by_cases hindex : index < vocabSize
    · obtain ⟨value, hvalue⟩ := Option.isSome_iff_exists.mp (hall index hindex)
      rw [List.getElem?_eq_getElem (by omega), List.getElem?_range hindex]
      simp only [Option.map_some, if_pos hindex, hvalue, Option.getD_some]
    · rw [List.getElem?_eq_none (by omega),
        List.getElem?_eq_none (by rw [List.length_range]; omega)]
      rfl
  have hsize : logits.length = vocabSize := by
    rw [List.length_map, List.length_range]
  obtain ⟨hnone, hsome⟩ := samplerTopk_best logits topk hsize hpos hle
  -- A row that is not a number would have ended the run.
  have hnumbers : ∀ value ∈ logits, isNan value = false := by
    intro value hvalue
    obtain ⟨token, htoken, rfl⟩ := List.mem_map.mp hvalue
    obtain ⟨value, hvalue⟩ := Option.isSome_iff_exists.mp
      (hall token (List.mem_range.mp htoken))
    rw [hvalue, Option.getD_some, ← hnan]
    exact Projection.logitRow_number ops weights hidden token hvalue
  rw [hlogits]
  refine ⟨rfl, ?_⟩
  cases hslots : samplerTopk logits topk with
  | none =>
      obtain ⟨value, hvalue, hbad⟩ := hnone.mp hslots
      rw [hnumbers value hvalue] at hbad
      cases hbad
  | some slots =>
      obtain ⟨hlength, hslot, hat, _⟩ :=
        samplerTopk_places hsize hle hnumbers (hsome slots hslots)
      exact ⟨slots, rfl, hlength, places_tokens hslot hat⟩

/-- The operations on zeros. -/
def zeroOps : Projection.FloatOps UInt32 where
  zero := 0
  add := fun _ _ => 0
  mul := fun _ _ => 0
  isNan := isNan
  ofBf16 := fun _ => 0
  toBf16 := fun _ => 0

/-- Two threads, one after the other. -/
def twoThreads : Projection.ThreadUse where
  attached := true
  processors := 2
  created := 2
  log := Interleave.serial 0
    ((Projection.splitEvenly vocabSize 2).take 2 |>.map Projection.Task.rows)

/-- Weights and a hidden state of zeros: the sampler fills its slots. -/
theorem outputHead_order_zeros : ∃ slots,
    samplerTopk (Projection.engineLogits zeroOps (fun _ => 0) (fun _ => 0) twoThreads
      (List.replicate vocabSize 7)).2 5 = some slots ∧ slots.length = 5 := by
  have hall := outputHead_order zeroOps rfl (fun _ => 0) (fun _ => 0) twoThreads
    Interleave.serial_complete (List.replicate vocabSize 7) (List.length_replicate ..) 5
    (by decide) (by decide)
  have hzero : ∀ token,
      (Projection.logitRow zeroOps (fun _ => 0) (fun _ => 0) token).isSome = true := by
    intro token
    have hfold : ∀ cols : List Nat, cols.foldl (fun value col => zeroOps.add value
        (zeroOps.mul 0 (zeroOps.ofBf16 0))) zeroOps.zero = 0 := by
      intro cols
      induction cols with
      | nil => rfl
      | cons _ cols ih => exact ih
    rw [Projection.logitRow]
    simp only [hfold]
    rfl
  obtain ⟨_, slots, hslots, hlength, _⟩ := hall.2 (hall.1.mpr fun token _ => hzero token)
  exact ⟨slots, hslots, hlength⟩

/-! ## The routes of the router -/

/-- The flags of the experts that are selected. -/
def Flags (selected : List Bool) (ids : List Nat) : Prop :=
  ∀ expert, expert < expertCount → (selected.getD expert false = true ↔ expert ∈ ids)

theorem Flags.select {selected : List Bool} {ids : List Nat} (h : Flags selected ids)
    (hlength : selected.length = expertCount) (best : Nat) :
    Flags (selected.set best true) (ids ++ [best]) := by
  intro expert hexpert
  rw [List.mem_append, List.mem_singleton, ← h expert hexpert, List.getD_eq_getElem?_getD,
    List.getD_eq_getElem?_getD, List.getElem?_set]
  by_cases hsame : best = expert
  · subst hsame
    simp [hlength, hexpert]
  · simp [hsame, Ne.symm hsame]

section Routes

variable {logits : List UInt32} (hnumbers : ∀ value ∈ logits, isNan value = false)
  (hsize : logits.length = expertCount)
include hnumbers hsize

/-- The loop over the experts finds the best of those that are not selected. -/
theorem bestExpert_spec {selected : List Bool} {ids : List Nat} (hflags : Flags selected ids) :
    (bestExpert logits selected = none → ∀ expert, expert < expertCount → expert ∈ ids) ∧
    ∀ best, bestExpert logits selected = some best →
      best < expertCount ∧ best ∉ ids ∧
        ∀ expert, expert < expertCount → expert ∉ ids →
          indexKey logits best ≤ indexKey logits expert := by
  have hahead : ∀ expert current, expert < expertCount → current < expertCount →
      ahead logits expert current = decide (indexKey logits expert < indexKey logits current) :=
    fun expert current hexpert hcurrent =>
      ahead_eq_key logits expert current (getD_number hnumbers (by omega))
        (getD_number hnumbers (by omega))
  -- The experts before one are dealt with.
  have hprefix : ∀ count, count ≤ expertCount →
      let best := (List.range count).foldl (considerExpert logits selected) none
      (best = none → ∀ expert, expert < count → expert ∈ ids) ∧
      ∀ b, best = some b → b < count ∧ b ∉ ids ∧
        ∀ expert, expert < count → expert ∉ ids →
          indexKey logits b ≤ indexKey logits expert := by
    intro count hcount
    induction count with
    | zero => simp
    | succ count ih =>
        obtain ⟨hnone, hsome⟩ := ih (by omega)
        rw [List.range_succ, List.foldl_append, List.foldl_cons, List.foldl_nil]
        generalize (List.range count).foldl (considerExpert logits selected) none = before
          at hnone hsome
        have hflag := hflags count (by omega)
        by_cases hselected : selected.getD count false = true
        · simp only [considerExpert, if_pos hselected]
          refine ⟨fun h expert hexpert => ?_, fun b hb => ?_⟩
          · rcases Nat.lt_succ_iff_lt_or_eq.mp hexpert with hlt | rfl
            · exact hnone h expert hlt
            · exact hflag.mp hselected
          · obtain ⟨hlt, hnot, hleast⟩ := hsome b hb
            refine ⟨by omega, hnot, fun expert hexpert hleft => ?_⟩
            rcases Nat.lt_succ_iff_lt_or_eq.mp hexpert with hlt' | rfl
            · exact hleast expert hlt' hleft
            · exact absurd (hflag.mp hselected) hleft
        · simp only [considerExpert, if_neg hselected]
          have hfree : count ∉ ids := fun hin => hselected (hflag.mpr hin)
          cases before with
          | none =>
              refine ⟨fun h => (by cases h), fun b hb => ?_⟩
              obtain rfl := Option.some.inj hb
              refine ⟨Nat.lt_succ_self _, hfree, fun expert hexpert hleft => ?_⟩
              rcases Nat.lt_succ_iff_lt_or_eq.mp hexpert with hlt | rfl
              · exact absurd (hnone rfl expert hlt) hleft
              · exact le_refl _
          | some current =>
              obtain ⟨hlt, hnot, hleast⟩ := hsome current rfl
              simp only [hahead count current (by omega) (by omega)]
              by_cases hless : indexKey logits count < indexKey logits current
              · simp only [hless, decide_true, if_true]
                refine ⟨fun h => (by cases h), fun b hb => ?_⟩
                obtain rfl := Option.some.inj hb
                refine ⟨Nat.lt_succ_self _, hfree, fun expert hexpert hleft => ?_⟩
                rcases Nat.lt_succ_iff_lt_or_eq.mp hexpert with hlt' | rfl
                · exact hless.le.trans (hleast expert hlt' hleft)
                · exact le_refl _
              · simp only [hless, decide_false, Bool.false_eq_true, if_false]
                refine ⟨fun h => (by cases h), fun b hb => ?_⟩
                obtain rfl := Option.some.inj hb
                refine ⟨by omega, hnot, fun expert hexpert hleft => ?_⟩
                rcases Nat.lt_succ_iff_lt_or_eq.mp hexpert with hlt' | rfl
                · exact hleast expert hlt' hleft
                · exact not_lt.mp hless
  exact hprefix expertCount (Nat.le_refl _)

/-- The routes that are filled have the best experts so far. -/
theorem selectRoutes_spec (left : Nat) (selected : List Bool) (ids : List Nat)
    (hlength : selected.length = expertCount) (hflags : Flags selected ids)
    (hbest : Ranking.Best (indexKey logits) ids.length (List.range expertCount) ids)
    (hroom : ids.length + left ≤ expertCount) :
    ∃ found, selectRoutes logits left selected ids = some found ∧
      Ranking.Best (indexKey logits) (ids.length + left) (List.range expertCount) found := by
  induction left generalizing selected ids with
  | zero => exact ⟨ids, rfl, hbest⟩
  | succ left ih =>
      obtain ⟨hnone, hsome⟩ := bestExpert_spec hnumbers hsize hflags
      rw [selectRoutes]
      cases hexpert : bestExpert logits selected with
      | none =>
          -- Not all experts can be selected yet.
          have hall : List.range expertCount ⊆ ids := fun expert hin =>
            hnone hexpert expert (List.mem_range.mp hin)
          have hmore := (List.subperm_of_subset List.nodup_range hall).length_le
          rw [List.length_range] at hmore
          omega
      | some best =>
          obtain ⟨hlt, hfree, hleast⟩ := hsome best hexpert
          have hnext := hbest.next List.nodup_range
            (fun a _ b _ h => indexKey_injective logits a b h) rfl best (List.mem_range.mpr hlt)
            hfree (fun expert hin hleft => hleast expert (List.mem_range.mp hin) hleft)
          have hids : (ids ++ [best]).length = ids.length + 1 := by simp
          rw [← hids] at hnext
          obtain ⟨found, hfound, hspec⟩ := ih (selected.set best true) (ids ++ [best])
            (by rw [List.length_set, hlength]) (hflags.select hlength best) hnext (by omega)
          refine ⟨found, hfound, ?_⟩
          rwa [hids, Nat.add_assoc, Nat.add_comm 1 left] at hspec

omit hnumbers in
/-- No logit is ahead of that of the first route. -/
theorem largest_of_first {first : Nat} {others : List Nat}
    (hbest : Ranking.Best (indexKey logits) routeCount (List.range expertCount)
      (first :: others)) :
    ∀ value ∈ logits, standing value ≤ standing (logits.getD first 0) := by
  intro value hvalue
  obtain ⟨expert, hexpert⟩ := List.mem_iff_getElem?.mp hvalue
  have hlt : expert < expertCount := by
    rw [← hsize]
    exact (List.getElem?_eq_some_iff.mp hexpert).1
  have hrank := (hbest.rank_eq (i := 0) rfl).2
  have hnot := List.countP_eq_zero.mp hrank expert (List.mem_range.mpr hlt)
  rw [decide_eq_true_iff, indexKey, indexKey, Prod.Lex.toLex_lt_toLex,
    List.getD_eq_getElem?_getD, hexpert, Option.getD_some] at hnot
  by_contra hgreater
  exact hnot (Or.inl (by simp only; omega))

end Routes

/-! ## The weights of the routes -/

/-- The largest value is that of the first route, whose logit is the largest. -/
theorem maxValue_eq {x : UInt32} {xs : List UInt32} (hx : isNan x = false)
    (hxs : ∀ y ∈ xs, isNan y = false ∧ standing y ≤ standing x) :
    maxValue ((x :: xs).map Double.ofFloat) = Double.ofFloat x := by
  have hfirst : (if Double.lt .negInf (Double.ofFloat x) then Double.ofFloat x else .negInf) =
      Double.ofFloat x := by
    rcases Double.finite_or_infinite hx with hfinite | hinfinite
    · rw [Double.ofFloat_of_finite hfinite]
      rfl
    · rw [Double.ofFloat_of_infinite hinfinite]
      cases Binary32.negative x <;> rfl
  rw [maxValue, List.map_cons, List.foldl_cons, hfirst]
  -- No route behind the first has a larger value.
  induction xs with
  | nil => rfl
  | cons y xs ih =>
      have hy := hxs y List.mem_cons_self
      rw [List.map_cons, List.foldl_cons, Double.lt_ofFloat hx hy.1 hy.2,
        if_neg Bool.false_ne_true]
      exact ih fun y h => hxs y (List.mem_cons_of_mem _ h)

/-- The softmax of routes, of which the first has the largest logit, fails exactly if that is an
    infinity. If not, there is a number for each route. -/
theorem routeWeights_spec (arith : Double.Arithmetic) {x : UInt32} {xs : List UInt32}
    (hx : isNan x = false) (hxs : ∀ y ∈ xs, isNan y = false ∧ standing y ≤ standing x)
    (hlength : xs.length < 2 ^ 53) :
    (routeWeights arith ((x :: xs).map Double.ofFloat) = none ↔ magnitude x = 0x7f800000) ∧
    ∀ weights, routeWeights arith ((x :: xs).map Double.ofFloat) = some weights →
      weights.length = xs.length + 1 ∧ ∀ weight ∈ weights, isNan weight = false := by
  rw [routeWeights, maxValue_eq hx hxs, List.map_map, List.map_cons]
  simp only [Function.comp_apply]
  rcases Double.finite_or_infinite hx with hfinite | hinfinite
  · -- The first share is one and the others lie between zero and one.
    rw [Double.exp_sub_self arith hfinite]
    generalize hshares : xs.map ((fun value => arith.exp (arith.sub value (Double.ofFloat x))) ∘
      Double.ofFloat) = shares
    have hshare : ∀ share ∈ shares, ∃ w : ℚ, share = .finite w ∧ 0 ≤ w ∧ w ≤ 1 := by
      intro share hmem
      rw [← hshares] at hmem
      obtain ⟨y, hy, rfl⟩ := List.mem_map.mp hmem
      exact Double.exp_sub_ofFloat arith (hxs y hy).1 hfinite (hxs y hy).2
    have hcount : shares.length = xs.length := by rw [← hshares, List.length_map]
    obtain ⟨c, hc, hpos, hle, hone⟩ := @Double.Arithmetic.add_share arith 0 1 0 (by norm_num)
      (le_refl 0) (by norm_num) zero_le_one (le_refl 1)
    obtain ⟨d, hd, _, hdone⟩ := arith.foldl_add_shares shares hshare c 1 (by omega) hpos hle
    have hsum : 1 ≤ d := hdone (hone (by norm_num))
    rw [List.foldl_cons, hc, hd, if_neg (by
      rintro (h | h)
      · simp only [Double.le, Double.lt, Bool.not_eq_true', decide_eq_false_iff_not] at h
        linarith
      · cases h)]
    -- So every quotient is a number.
    have hnumbers : ∀ weight ∈ (Double.finite 1 :: shares).map fun value =>
        arith.toFloat (arith.div value (.finite d)), isNan weight = false := by
      intro weight hmem
      obtain ⟨share, hin, rfl⟩ := List.mem_map.mp hmem
      obtain ⟨w, rfl, hw, hw1⟩ : ∃ w : ℚ, share = .finite w ∧ 0 ≤ w ∧ w ≤ 1 := by
        rcases List.mem_cons.mp hin with rfl | hin
        · exact ⟨1, rfl, zero_le_one, le_refl 1⟩
        · exact hshare share hin
      obtain ⟨e, he, _⟩ := arith.div_share hw hw1 hsum
      rw [he, ← Bool.not_eq_true, arith.isNan_toFloat]
      exact fun h => by cases h
    have hany : (((Double.finite 1 :: shares).map fun value =>
        arith.toFloat (arith.div value (.finite d))).any isNan) = false := by
      rw [List.any_eq_false]
      exact fun weight hmem => by rw [hnumbers weight hmem]; exact Bool.false_ne_true
    rw [hany, if_neg Bool.false_ne_true]
    refine ⟨⟨fun h => (by cases h), fun h => (by omega)⟩, fun weights h => ?_⟩
    obtain rfl := Option.some.inj h
    exact ⟨by rw [List.length_map, List.length_cons, hcount], hnumbers⟩
  · -- An infinity has no difference with itself, and no sum either.
    rw [Double.sub_self_of_infinite arith hinfinite, arith.exp_nan, List.foldl_cons,
      Double.Arithmetic.add_nan, arith.foldl_add_nan, if_pos (Or.inr rfl)]
    exact ⟨⟨fun _ => hinfinite, fun _ => rfl⟩, fun weights h => by cases h⟩

/-! ## The routes in order -/

/-- The infinities are the only words at their ends of the order. -/
theorem infinite_iff_of_largest {logits : List UInt32} {x : UInt32} (hmem : x ∈ logits)
    (hnumbers : ∀ value ∈ logits, isNan value = false)
    (hlargest : ∀ value ∈ logits, standing value ≤ standing x) :
    magnitude x = 0x7f800000 ↔
      0x7f800000 ∈ logits ∨ ∀ value ∈ logits, value = 0xff800000 := by
  constructor
  · intro hinfinite
    have hx := Binary32.eq_of_infinite hinfinite
    cases hneg : Binary32.negative x with
    | false =>
        rw [hneg, if_neg Bool.false_ne_true] at hx
        exact Or.inl (hx ▸ hmem)
    | true =>
        -- Nothing is below minus infinity.
        refine Or.inr fun value hvalue => ?_
        have hle := hlargest value hvalue
        rw [Double.standing_of_infinite hinfinite, hneg, if_pos rfl] at hle
        rcases Double.finite_or_infinite (hnumbers value hvalue) with hfinite | hinfinite'
        · have hbound := (Double.standing_of_finite hfinite).1
          omega
        · have hbits := Binary32.eq_of_infinite hinfinite'
          rw [Double.standing_of_infinite hinfinite'] at hle
          cases hneg' : Binary32.negative value with
          | true => rw [hbits, hneg', if_pos rfl]
          | false =>
              rw [hneg'] at hle
              exact absurd hle (by decide)
  · rintro (hpos | hall)
    · have hle := hlargest _ hpos
      rcases Double.finite_or_infinite (hnumbers x hmem) with hfinite | hinfinite
      · have hbound := (Double.standing_of_finite hfinite).2
        have htop : standing 0x7f800000 = 0x7f800000 := by decide
        omega
      · exact hinfinite
    · rw [hall x hmem]
      decide

theorem any_isNan_iff {logits : List UInt32} (hsize : logits.length = expertCount) :
    ((List.range expertCount).any fun expert => isNan (logits.getD expert 0)) = true ↔
      ∃ value ∈ logits, isNan value = true := by
  rw [List.any_eq_true]
  constructor
  · rintro ⟨expert, hexpert, hnan⟩
    rw [List.mem_range, ← hsize] at hexpert
    rw [List.getD_eq_getElem?_getD, List.getElem?_eq_getElem hexpert] at hnan
    exact ⟨_, List.getElem_mem hexpert, hnan⟩
  · rintro ⟨value, hvalue, hnan⟩
    obtain ⟨expert, hexpert⟩ := List.mem_iff_getElem?.mp hvalue
    refine ⟨expert, ?_, ?_⟩
    · rw [List.mem_range, ← hsize]
      exact (List.getElem?_eq_some_iff.mp hexpert).1
    · rwa [List.getD_eq_getElem?_getD, hexpert]

/-- Nothing is chosen at the start, and eight rounds choose the eight best. -/
theorem selectRoutes_all {logits : List UInt32} (hnumbers : ∀ value ∈ logits, isNan value = false)
    (hsize : logits.length = expertCount) :
    ∃ first others, selectRoutes logits routeCount (List.replicate expertCount false) [] =
        some (first :: others) ∧ (first :: others).length = routeCount ∧
      Ranking.Best (indexKey logits) routeCount (List.range expertCount) (first :: others) := by
  obtain ⟨found, hfound, hbest⟩ := selectRoutes_spec hnumbers hsize routeCount
    (List.replicate expertCount false) [] (List.length_replicate ..)
    (fun expert _ => by simp) (Ranking.Best.none _) (by decide)
  rw [List.length_nil, Nat.zero_add] at hbest
  have hcount : found.length = routeCount := by
    rw [hbest.length_eq, List.length_range]
    decide
  obtain ⟨first, others, rfl⟩ : ∃ first others, found = first :: others :=
    List.exists_cons_of_length_pos (by rw [hcount]; decide)
  exact ⟨first, others, hfound, hcount, hbest⟩

/-- The router fails exactly if a logit is not a number, or is plus infinity, or all of them are
    minus infinity. If not, a route has the expert that as many logits are ahead of as routes come
    before it, so no two routes have the same, and every route has a weight that is a number. -/
theorem router_order (arith : Double.Arithmetic) (logits : List UInt32)
    (hsize : logits.length = expertCount) :
    (routerSelect arith logits = none ↔ (∃ value ∈ logits, isNan value = true) ∨
      0x7f800000 ∈ logits ∨ ∀ value ∈ logits, value = 0xff800000) ∧
    ∀ routes, routerSelect arith logits = some routes →
      routes.ids.length = routeCount ∧ routes.ids.Nodup ∧
      (∀ expert ∈ routes.ids, expert < expertCount) ∧
      (∀ i expert, i < routeCount → expert < expertCount →
        (routes.ids[i]? = some expert ↔ placeOf logits expert = i)) ∧
      routes.weights.length = routeCount ∧ ∀ weight ∈ routes.weights, isNan weight = false := by
  rw [routerSelect]
  by_cases hnan : ∃ value ∈ logits, isNan value = true
  · rw [if_pos ((any_isNan_iff hsize).mpr hnan)]
    exact ⟨⟨fun _ => Or.inl hnan, fun _ => rfl⟩, fun routes h => by cases h⟩
  · rw [if_neg (fun h => hnan ((any_isNan_iff hsize).mp h))]
    have hnumbers : ∀ value ∈ logits, isNan value = false := by
      intro value hvalue
      rw [← Bool.not_eq_true]
      exact fun h => hnan ⟨value, hvalue, h⟩
    obtain ⟨first, others, hfound, hcount, hbest⟩ := selectRoutes_all hnumbers hsize
    have hinj : ∀ a ∈ List.range expertCount, ∀ b ∈ List.range expertCount,
        indexKey logits a = indexKey logits b → a = b :=
      fun a _ b _ h => indexKey_injective logits a b h
    have hinside : ∀ expert ∈ first :: others, expert < expertCount := by
      intro expert hexpert
      obtain ⟨i, hi⟩ := List.mem_iff_getElem?.mp hexpert
      exact List.mem_range.mp (hbest.rank_eq hi).1
    have hlogit : ∀ expert ∈ first :: others, logits.getD expert 0 ∈ logits := by
      intro expert hexpert
      have hlt := hinside expert hexpert
      rw [← hsize] at hlt
      rw [List.getD_eq_getElem?_getD, List.getElem?_eq_getElem hlt, Option.getD_some]
      exact List.getElem_mem hlt
    -- The first route has the largest logit.
    have hlargest := largest_of_first hsize hbest
    have hweights := routeWeights_spec arith (hnumbers _ (hlogit first List.mem_cons_self))
      (fun y hy => by
        obtain ⟨expert, hexpert, rfl⟩ := List.mem_map.mp hy
        have hmem := hlogit expert (List.mem_cons_of_mem _ hexpert)
        exact ⟨hnumbers _ hmem, hlargest _ hmem⟩)
      (by rw [List.length_map]; rw [List.length_cons] at hcount; rw [routeCount] at hcount; omega)
    have hvalues : (logits.getD first 0 :: others.map fun expert => logits.getD expert 0).map
        Double.ofFloat = (first :: others).map fun expert =>
          Double.ofFloat (logits.getD expert 0) := by
      rw [List.map_cons, List.map_cons, List.map_map]
      rfl
    rw [hvalues] at hweights
    rw [← infinite_iff_of_largest (hlogit first List.mem_cons_self) hnumbers hlargest, hfound]
    dsimp only
    refine ⟨?_, ?_⟩
    · rw [Option.map_eq_none_iff, or_iff_right hnan]
      exact hweights.1
    · intro routes hroutes
      obtain ⟨weights, hsome, rfl⟩ := Option.map_eq_some_iff.mp hroutes
      obtain ⟨hlength, hnumber⟩ := hweights.2 weights hsome
      refine ⟨hcount, ?_, hinside, ?_, ?_, hnumber⟩
      · obtain ⟨_, _, hsorted, _⟩ := hbest
        refine hsorted.imp fun h heq => ?_
        rw [heq] at h
        exact lt_irrefl _ h
      · intro i expert hi hexpert
        rw [hbest.getElem?_iff hinj hi, placeOf_eq_rank hnumbers (by omega), hsize]
        exact ⟨fun h => h.2, fun h => ⟨List.mem_range.mpr hexpert, h⟩⟩
      · rw [List.length_map] at hlength
        rw [hlength, ← hcount, List.length_cons]

/-- An exponential function that knows its value at zero, and has none but zero below. -/
def stepExp : Double → Double
  | .nan => .nan
  | .negInf => .finite 0
  | .finite v => if v < 0 then .finite 0 else if v = 0 then .finite 1 else .posInf
  | .posInf => .posInf

/-- A conversion to floats that knows an eighth. -/
def eighthFloat : Double → UInt32
  | .nan => 0x7fc00000
  | .negInf => 0xff800000
  | .finite v => if v = 1 / 8 then 0x3e000000 else 0
  | .posInf => 0x7f800000

theorem stepExp_zero : stepExp (.finite 0) = .finite 1 := by
  rw [stepExp, if_neg (lt_irrefl _), if_pos rfl]

theorem isNan_eighthFloat (x : Double) : isNan (eighthFloat x) = true ↔ x = .nan := by
  cases x with
  | nan => exact ⟨fun _ => rfl, fun _ => by decide⟩
  | negInf => exact ⟨fun h => absurd h (by decide), fun h => by cases h⟩
  | finite v =>
      refine ⟨fun h => ?_, fun h => by cases h⟩
      rw [eighthFloat] at h
      split_ifs at h <;> exact absurd h (by decide)
  | posInf => exact ⟨fun h => absurd h (by decide), fun h => by cases h⟩

/-- Doubles without rounding, which are enough for routes with equal logits. -/
def exactArithmetic : Double.Arithmetic :=
  { round := .finite
    exp := stepExp
    toFloat := eighthFloat
    round_finite := fun q _ => ⟨q, rfl⟩
    round_le := fun q v n _ hle h => by
      obtain rfl := Double.finite.inj h
      exact hle
    le_round := fun q v n _ hle h => by
      obtain rfl := Double.finite.inj h
      exact hle
    exp_nan := rfl
    exp_negInf := rfl
    exp_zero := stepExp_zero
    exp_nonpos := fun v hv => by
      rcases lt_or_eq_of_le hv with hlt | rfl
      · exact ⟨0, by rw [stepExp, if_pos hlt], le_refl _, zero_le_one⟩
      · exact ⟨1, stepExp_zero, zero_le_one, le_refl _⟩
    isNan_toFloat := isNan_eighthFloat }

/-- All logits are one: the routes have different experts. -/
theorem router_order_ones : ∃ routes,
    routerSelect exactArithmetic (List.replicate expertCount 0x3f800000) = some routes ∧
      routes.ids.length = 8 ∧ routes.ids.Nodup ∧ routes.weights.length = 8 := by
  obtain ⟨hnone, hsome⟩ := router_order exactArithmetic (List.replicate expertCount 0x3f800000)
    (List.length_replicate ..)
  cases hroutes : routerSelect exactArithmetic (List.replicate expertCount 0x3f800000) with
  | none =>
      rcases hnone.mp hroutes with ⟨value, hvalue, hnan⟩ | hpos | hall
      · rw [List.eq_of_mem_replicate hvalue] at hnan
        exact absurd hnan (by decide)
      · exact absurd (List.eq_of_mem_replicate hpos) (by decide)
      · exact absurd (hall _ (List.mem_replicate.mpr ⟨by decide, rfl⟩)) (by decide)
  | some routes =>
      obtain ⟨hlength, hnodup, _, _, hweights, _⟩ := hsome routes hroutes
      exact ⟨routes, rfl, hlength, hnodup, hweights⟩

end TopK

end QrtEngine
