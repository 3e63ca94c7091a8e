import Mathlib.Algebra.Order.Ring.Nat
import Mathlib.Data.List.GetD
import Mathlib.Data.Nat.Find

/-!
# Open Addressing

A table of slots for numbered items, each of which has a hash. An item is put into the first free
slot from its hash on, and is looked up in the same order until a free slot. The length of the table
is a power of two, so a mask takes the place of a remainder.

Items are put in one after the other, and none is taken out, so every slot between the hash of an
item and its own is taken for ever: a lookup cannot miss an item that is there.

## Main definitions

* `insert`, `lookup`: The two loops over the slots.
* `Holds`: The items below a bound are in the table, and no others.

## Theorems

* `insert_holds`: There is room for an item as long as there are fewer items than slots.
* `lookup_some`, `lookup_none`: What a lookup finds, and that it misses nothing.
* `lookup_probes_le`: It looks at each slot at most once.
-/

namespace QrtEngine

namespace ProbeTable

/-! ## The loops -/

/-- Put an item into the first slot that is free or has it. A slot is zero if it is free, and one
    more than its item otherwise. -/
def insertFrom (slots : List Nat) (item : Nat) : Nat → Nat → Option (List Nat)
  | 0, _ => none
  | left + 1, slot =>
      let stored := slots.getD slot 0
      if stored = 0 || stored = item + 1 then some (slots.set slot (item + 1))
      else insertFrom slots item left ((slot + 1) &&& (slots.length - 1))

/-- Put an item into the table, from its hash on. -/
def insert (slots : List Nat) (hash item : Nat) : Option (List Nat) :=
  insertFrom slots item slots.length (hash &&& (slots.length - 1))

/-- Look for an item until a free slot, and count the slots that are looked at. -/
def lookupFrom (slots : List Nat) (found : Nat → Bool) : Nat → Nat → Option Nat × Nat
  | 0, _ => (none, 0)
  | left + 1, slot =>
      let stored := slots.getD slot 0
      if stored = 0 then (none, 1)
      else if found (stored - 1) then (some (stored - 1), 1)
      else
        let rest := lookupFrom slots found left ((slot + 1) &&& (slots.length - 1))
        (rest.1, rest.2 + 1)

/-- Look for an item, from a hash on. -/
def lookup (slots : List Nat) (hash : Nat) (found : Nat → Bool) : Option Nat × Nat :=
  lookupFrom slots found slots.length (hash &&& (slots.length - 1))

/-! ## What the table holds -/

/-- The slot that a loop comes to. -/
def probeAt (slots : List Nat) (hash distance : Nat) : Nat :=
  slots.getD ((hash + distance) % slots.length) 0

/-- The items below a bound are in the table, each behind taken slots only, and no others. -/
structure Holds (slots : List Nat) (hash : Nat → Nat) (items : Nat) : Prop where
  pow : ∃ k, slots.length = 2 ^ k
  bounded : ∀ slot, slots.getD slot 0 ≤ items
  placed : ∀ item, item < items → ∃ distance, distance < slots.length ∧
    probeAt slots (hash item) distance = item + 1 ∧
    ∀ before, before < distance → probeAt slots (hash item) before ≠ 0
  count : slots.countP (fun stored => decide (stored ≠ 0)) = items

variable {slots : List Nat} {hash : Nat → Nat} {items : Nat}

theorem Holds.length_pos (h : Holds slots hash items) : 0 < slots.length := by
  obtain ⟨k, hk⟩ := h.pow
  rw [hk]
  exact Nat.two_pow_pos k

/-- Only the hashes of the items matter. -/
theorem Holds.congr (h : Holds slots hash items) {hash' : Nat → Nat}
    (hsame : ∀ item, item < items → hash item = hash' item) : Holds slots hash' items where
  pow := h.pow
  bounded := h.bounded
  placed := by
    intro item hitem
    rw [← hsame item hitem]
    exact h.placed item hitem
  count := h.count

/-- A mask takes the place of a remainder. -/
theorem Holds.mask (h : Holds slots hash items) (n : Nat) :
    n &&& (slots.length - 1) = n % slots.length := by
  obtain ⟨k, hk⟩ := h.pow
  rw [hk, Nat.and_two_pow_sub_one_eq_mod]

/-- The slot behind the one that a loop comes to. -/
theorem Holds.next (h : Holds slots hash items) (start distance : Nat) :
    ((start + distance) % slots.length + 1) &&& (slots.length - 1) =
      (start + (distance + 1)) % slots.length := by
  rw [h.mask, Nat.mod_add_mod, Nat.add_assoc]

/-- A table of free slots. -/
theorem holds_replicate (hash : Nat → Nat) (k : Nat) :
    Holds (List.replicate (2 ^ k) 0) hash 0 where
  pow := ⟨k, List.length_replicate⟩
  bounded := by
    intro slot
    rw [List.getD_eq_getElem?_getD, List.getElem?_replicate]
    split_ifs <;> exact Nat.le_refl 0
  placed := fun item hitem => absurd hitem (Nat.not_lt_zero item)
  count := by
    rw [List.countP_replicate]
    simp

/-- From any hash on there is a first free slot, if there are fewer items than slots. -/
theorem Holds.exists_free (h : Holds slots hash items) (hroom : items < slots.length)
    (start : Nat) : ∃ distance, distance < slots.length ∧ probeAt slots start distance = 0 ∧
      ∀ before, before < distance → probeAt slots start before ≠ 0 := by
  have hfree : ∃ slot, slot < slots.length ∧ slots.getD slot 0 = 0 := by
    by_contra hnone
    have hall : ∀ stored ∈ slots, decide (stored ≠ 0) = true := by
      intro stored hstored
      obtain ⟨slot, hslot, rfl⟩ := List.mem_iff_getElem.mp hstored
      rw [decide_eq_true_eq]
      intro hzero
      exact hnone ⟨slot, hslot, by rw [List.getD_eq_getElem _ _ hslot, hzero]⟩
    have hcount := List.countP_eq_length.mpr hall
    rw [h.count] at hcount
    omega
  obtain ⟨slot, hslot, hzero⟩ := hfree
  -- The loop comes to every slot, so it comes to this one.
  have hat :
      probeAt slots start ((slot + (slots.length - start % slots.length)) % slots.length) = 0 := by
    have hmod := Nat.mod_lt start h.length_pos
    rw [probeAt, Nat.add_mod_mod, ← Nat.mod_add_mod, show start % slots.length +
      (slot + (slots.length - start % slots.length)) = slot + slots.length by omega,
      Nat.add_mod_right, Nat.mod_eq_of_lt hslot, hzero]
  have hexists : ∃ distance, probeAt slots start distance = 0 := ⟨_, hat⟩
  refine ⟨Nat.find hexists, ?_, Nat.find_spec hexists, fun before hlt => Nat.find_min hexists hlt⟩
  exact Nat.lt_of_le_of_lt (Nat.find_min' hexists hat) (Nat.mod_lt _ h.length_pos)

/-! ## Insertion -/

/-- The loop puts the item into the first free slot. -/
theorem Holds.insertFrom_eq (h : Holds slots hash items) {start free : Nat}
    (hfree : probeAt slots start free = 0)
    (hbefore : ∀ before, before < free → probeAt slots start before ≠ 0) :
    ∀ left distance, distance ≤ free → free < distance + left →
      insertFrom slots items left ((start + distance) % slots.length) =
        some (slots.set ((start + free) % slots.length) (items + 1)) := by
  intro left
  induction left with
  | zero =>
      intro distance hle hlt
      omega
  | succ left ih =>
      intro distance hle hlt
      rw [insertFrom]
      by_cases hhere : distance = free
      · have hstored : slots.getD ((start + distance) % slots.length) 0 = 0 := by
          rw [hhere]
          exact hfree
        rw [hstored, hhere]
        rfl
      · have htaken : slots.getD ((start + distance) % slots.length) 0 ≠ 0 :=
          hbefore distance (by omega)
        have hother := h.bounded ((start + distance) % slots.length)
        rw [h.next]
        simp only [htaken, decide_false, Bool.false_or, decide_eq_true_eq]
        rw [if_neg (by omega)]
        exact ih (distance + 1) (by omega) (by omega)

theorem getD_set (slot other value : Nat) (hslot : slot < slots.length) :
    (slots.set slot value).getD other 0 = if slot = other then value else slots.getD other 0 := by
  rw [List.getD_eq_getElem?_getD, List.getD_eq_getElem?_getD, List.getElem?_set]
  by_cases heq : slot = other
  · rw [if_pos heq, if_pos (by omega), if_pos heq]
    rfl
  · rw [if_neg heq, if_neg heq]

/-- There is room for an item as long as there are fewer items than slots. -/
theorem insert_holds (h : Holds slots hash items) (hroom : items < slots.length) :
    ∃ slots', insert slots (hash items) items = some slots' ∧ slots'.length = slots.length ∧
      Holds slots' hash (items + 1) := by
  obtain ⟨free, hlt, hfree, hbefore⟩ := h.exists_free hroom (hash items)
  have hinsert := h.insertFrom_eq hfree hbefore slots.length 0 (Nat.zero_le _) (by omega)
  rw [Nat.add_zero] at hinsert
  have hslot : (hash items + free) % slots.length < slots.length := Nat.mod_lt _ h.length_pos
  refine ⟨_, by rw [insert, h.mask]; exact hinsert, List.length_set, ?_⟩
  have hat : ∀ start distance, probeAt (slots.set ((hash items + free) % slots.length) (items + 1))
      start distance = if (hash items + free) % slots.length = (start + distance) % slots.length
        then items + 1 else probeAt slots start distance := by
    intro start distance
    rw [probeAt, probeAt, List.length_set, getD_set _ _ _ hslot]
  -- Only the slot that was free changes, so no chain of another item is cut.
  have hkeep : ∀ start distance, probeAt slots start distance ≠ 0 →
      probeAt (slots.set ((hash items + free) % slots.length) (items + 1)) start distance =
        probeAt slots start distance := by
    intro start distance htaken
    rw [hat, if_neg]
    intro heq
    rw [probeAt, ← heq] at htaken
    exact htaken hfree
  constructor
  case pow =>
    rw [List.length_set]
    exact h.pow
  case bounded =>
    intro slot
    rw [getD_set _ _ _ hslot]
    have hbounded := h.bounded slot
    split_ifs <;> omega
  case placed =>
    intro item hitem
    rw [List.length_set]
    by_cases hnew : item = items
    · subst hnew
      refine ⟨free, hlt, by rw [hat, if_pos rfl], fun before hlt' => ?_⟩
      rw [hkeep _ _ (hbefore before hlt')]
      exact hbefore before hlt'
    · obtain ⟨distance, hdistance, hplaced, htaken⟩ := h.placed item (by omega)
      refine ⟨distance, hdistance, ?_, fun before hlt' => ?_⟩
      · rw [hkeep _ _ (by omega), hplaced]
      · rw [hkeep _ _ (htaken before hlt')]
        exact htaken before hlt'
  case count =>
    have hzero : slots[(hash items + free) % slots.length] = 0 := by
      rw [← List.getD_eq_getElem slots 0 hslot]
      exact hfree
    rw [List.countP_set hslot, h.count, hzero]
    simp

/-! ## Lookup -/

/-- What the loop finds is in the table and what was looked for. -/
theorem lookupFrom_some {found : Nat → Bool} {left slot item : Nat}
    (h : (lookupFrom slots found left slot).1 = some item) :
    found item = true ∧ ∃ slot', slots.getD slot' 0 = item + 1 := by
  induction left generalizing slot with
  | zero => cases h
  | succ left ih =>
      rw [lookupFrom] at h
      dsimp only at h
      split_ifs at h with hfree hfound
      · obtain rfl := Option.some.inj h
        refine ⟨hfound, slot, ?_⟩
        omega
      · exact ih h

/-- What a lookup finds is one of the items, and what was looked for. -/
theorem Holds.lookup_some (h : Holds slots hash items) {start item : Nat} {found : Nat → Bool}
    (hlookup : (lookup slots start found).1 = some item) : found item = true ∧ item < items := by
  obtain ⟨hfound, slot, hslot⟩ := lookupFrom_some hlookup
  have hbounded := h.bounded slot
  exact ⟨hfound, by omega⟩

/-- A loop that finds nothing has come to a free slot or to no item that was looked for. -/
theorem Holds.lookupFrom_none (h : Holds slots hash items) {start : Nat} {found : Nat → Bool} :
    ∀ {left from_ : Nat},
      (lookupFrom slots found left ((start + from_) % slots.length)).1 = none →
      ∀ distance, from_ ≤ distance → distance < from_ + left →
        (∀ before, before < distance → probeAt slots start before ≠ 0) →
        probeAt slots start distance ≠ 0 → found (probeAt slots start distance - 1) = false := by
  intro left
  induction left with
  | zero =>
      intro from_ _ distance hle hlt
      omega
  | succ left ih =>
      intro from_ hnone distance hle hlt hbefore htaken
      rw [lookupFrom, h.next] at hnone
      dsimp only at hnone
      have hhere : slots.getD ((start + from_) % slots.length) 0 = probeAt slots start from_ := rfl
      rw [hhere] at hnone
      by_cases heq : from_ = distance
      · subst heq
        rw [if_neg htaken] at hnone
        split_ifs at hnone with hfound
        exact Bool.not_eq_true _ ▸ hfound
      · rw [if_neg (hbefore from_ (by omega))] at hnone
        split_ifs at hnone with hfound
        exact ih hnone distance (by omega) (by omega) hbefore htaken

/-- A lookup that finds nothing misses no item of its hash. -/
theorem Holds.lookup_none (h : Holds slots hash items) {start : Nat} {found : Nat → Bool}
    (hlookup : (lookup slots start found).1 = none) {item : Nat} (hitem : item < items)
    (hhash : hash item = start) : found item = false := by
  obtain ⟨distance, hdistance, hplaced, hbefore⟩ := h.placed item hitem
  rw [hhash] at hplaced hbefore
  rw [lookup, h.mask, ← Nat.add_zero start] at hlookup
  have hnone := h.lookupFrom_none hlookup distance (Nat.zero_le _) (by omega) hbefore (by omega)
  rwa [hplaced, Nat.add_sub_cancel] at hnone

/-- A lookup looks at each slot at most once. -/
theorem lookup_probes_le (slots : List Nat) (start : Nat) (found : Nat → Bool) :
    (lookup slots start found).2 ≤ slots.length := by
  have hle : ∀ left slot, (lookupFrom slots found left slot).2 ≤ left := by
    intro left
    induction left with
    | zero => exact fun slot => Nat.le_refl 0
    | succ left ih =>
        intro slot
        rw [lookupFrom]
        dsimp only
        have hrest := ih ((slot + 1) &&& (slots.length - 1))
        split_ifs <;> simp only <;> omega
  exact hle _ _

end ProbeTable

end QrtEngine
