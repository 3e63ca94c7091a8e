import QrtEngine.Library.Run
import QrtEngine.Library.Tally
import Mathlib.Data.List.Perm.Basic
import Mathlib.Data.List.Nodup
import Mathlib.Data.List.Basic

/-!
# Items that Threads Write, with Slots from a Counter

Threads go through items in strides: each starts at its own number and goes on by the number of
threads. Some items need a slot, which is what an atomic counter holds before it is incremented.
What is written of an item, and where, may depend on its slot, and the writes of an item happen in
any order. If writes to one place are always the same write, and the counter does not wrap around,
the threads leave in memory what they would leave one after the other, with the slots in the order
in which the counter was incremented.

## Main definitions

* `Job`: The items, which of them need a slot, and what is written of each.
* `State`, `step`: The threads, and one access of one of them to the memory or the counter.
* `Job.Sound`: What the writes of a job must satisfy.
* `Done`: An item of which all writes are in memory.

## Theorems

* `reachable_inv`: What holds in every state.
* `finished`: What holds in a state where no thread can take a step.
* `steps_le`: No run is longer than a number that the job gives.
-/

namespace QrtEngine

namespace SlotPool

/-- Items for some threads. -/
structure Job (α β : Type) where
  items : Nat
  stride : Nat
  needsSlot : Nat → Bool
  writes : Nat → Nat → List (α × β)
  inBounds : α → Bool

/-- Where a thread is: at the head of its loop, before the counter, or at the writes of an item
    that are left. -/
inductive Wave (α β : Type)
  | ready (item : Nat)
  | adding (item : Nat)
  | writing (item : Nat) (pending : List (α × β))

/-- The item that a thread is at. -/
def Wave.item {α β : Type} : Wave α β → Nat
  | ready item => item
  | adding item => item
  | writing item _ => item

/-- The memory and the counter, the items that have been given a slot, in order, whether there was
    a write out of bounds, and the threads. -/
structure State (α β : Type) where
  memory : α → β
  counter : Nat
  claimed : List Nat
  fault : Bool
  waves : List (Wave α β)

/-- The threads at the start, over any memory. -/
def Started {α β : Type} (job : Job α β) (s : State α β) : Prop :=
  s.counter = 0 ∧ s.claimed = [] ∧ s.fault = false ∧
    s.waves = (List.range job.stride).map .ready

section Steps

variable {α β : Type} [DecidableEq α]

/-- A write, which must be in bounds. -/
def State.write (job : Job α β) (s : State α β) (w : α × β) : State α β :=
  if job.inBounds w.1 then { s with memory := Function.update s.memory w.1 w.2 }
  else { s with fault := true }

/-- A step of a thread, `none` where it has no item left or the choice is not a write. -/
def waveStep (job : Job α β) (s : State α β) (choice : Nat) :
    Wave α β → Option (Wave α β × State α β)
  | .ready item =>
      if item < job.items then
        some (if job.needsSlot item then .adding item else .writing item (job.writes item 0), s)
      else none
  | .adding item =>
      some (.writing item (job.writes item s.counter),
        { s with counter := (s.counter + 1) % 2 ^ 32, claimed := s.claimed ++ [item] })
  | .writing item [] => some (.ready (item + job.stride), s)
  | .writing item (w :: pending) =>
      match (w :: pending)[choice]? with
      | none => none
      | some chosen =>
          some (.writing item ((w :: pending).eraseIdx choice), s.write job chosen)

/-- A step: which thread, and which of its writes. -/
def step (job : Job α β) (s : State α β) (action : Nat × Nat) : Option (State α β) :=
  match s.waves[action.1]? with
  | none => none
  | some wave => (waveStep job s action.2 wave).map fun next =>
      { next.2 with waves := s.waves.set action.1 next.1 }

def Reachable (job : Job α β) : State α β → Prop :=
  Run.Reachable (step job) Run.anyStep (Started job)

end Steps

variable {α β : Type}

/-! ## Sound jobs -/

/-- The items that need a slot. -/
def Job.slotted (job : Job α β) : List Nat := (List.range job.items).filter job.needsSlot

/-- A slot that an item may be written with. -/
def Job.Fits (job : Job α β) (item slot : Nat) : Prop :=
  item < job.items ∧ if job.needsSlot item then slot < job.slotted.length else slot = 0

/-- There is a thread, the counter does not wrap around, no write is out of bounds, and writes to
    one place are the same unless two items had one slot. -/
structure Job.Sound (job : Job α β) : Prop where
  stride_pos : 0 < job.stride
  slots_lt : job.slotted.length < 2 ^ 32
  inBounds : ∀ item slot, job.Fits item slot → ∀ w ∈ job.writes item slot,
    job.inBounds w.1 = true
  separate : ∀ item slot item' slot', job.Fits item slot → job.Fits item' slot' →
    (item = item' → slot = slot') →
    (job.needsSlot item = true → job.needsSlot item' = true → slot = slot' → item = item') →
    ∀ w ∈ job.writes item slot, ∀ w' ∈ job.writes item' slot', w.1 = w'.1 → w = w'

theorem Job.mem_slotted (job : Job α β) (item : Nat) :
    item ∈ job.slotted ↔ item < job.items ∧ job.needsSlot item = true := by
  rw [slotted, List.mem_filter, List.mem_range]

/-! ## What is in memory -/

/-- The slot of an item, by the order of the items that have one. -/
def slotOf (job : Job α β) (claimed : List Nat) (item : Nat) : Nat :=
  if job.needsSlot item then claimed.idxOf item else 0

/-- An item that has been given a slot, or needs none. -/
def Assigned (job : Job α β) (claimed : List Nat) (item : Nat) : Prop :=
  item < job.items ∧ (job.needsSlot item = true → item ∈ claimed)

/-- The writes of an item. -/
def writesOf (job : Job α β) (claimed : List Nat) (item : Nat) : List (α × β) :=
  job.writes item (slotOf job claimed item)

/-- An item of which all writes are in memory. -/
def Done (job : Job α β) (s : State α β) (item : Nat) : Prop :=
  Assigned job s.claimed item ∧ ∀ w ∈ writesOf job s.claimed item, s.memory w.1 = w.2

/-- The items that have been given a slot are different, and need one. -/
structure Claims (job : Job α β) (claimed : List Nat) : Prop where
  nodup : claimed.Nodup
  slotted : ∀ item ∈ claimed, item ∈ job.slotted

variable {job : Job α β} {claimed : List Nat} {item item' : Nat}

theorem Claims.length_le (h : Claims job claimed) : claimed.length ≤ job.slotted.length :=
  (List.subperm_of_subset h.nodup h.slotted).length_le

theorem Claims.fits (h : Claims job claimed) (hitem : Assigned job claimed item) :
    job.Fits item (slotOf job claimed item) := by
  refine ⟨hitem.1, ?_⟩
  unfold slotOf
  split_ifs with hneeds
  · exact Nat.lt_of_lt_of_le (List.idxOf_lt_length_iff.mpr (hitem.2 hneeds)) h.length_le
  · rfl

/-- Writes of assigned items to one place are the same. -/
theorem Claims.separate (hjob : job.Sound) (h : Claims job claimed)
    (hitem : Assigned job claimed item) (hitem' : Assigned job claimed item') {w w' : α × β}
    (hw : w ∈ writesOf job claimed item) (hw' : w' ∈ writesOf job claimed item')
    (hplace : w.1 = w'.1) : w = w' := by
  refine hjob.separate _ _ _ _ (h.fits hitem) (h.fits hitem') ?_ ?_ w hw w' hw' hplace
  · rintro rfl
    rfl
  · intro hneeds hneeds' hsame
    rw [slotOf, slotOf, if_pos hneeds, if_pos hneeds'] at hsame
    exact (List.idxOf_inj (hitem.2 hneeds)).mp hsame

/-- An item that has a slot keeps it. -/
theorem slotOf_append (h : Assigned job claimed item) (other : Nat) :
    slotOf job (claimed ++ [other]) item = slotOf job claimed item := by
  unfold slotOf
  split_ifs with hneeds
  · rw [List.idxOf_append_of_mem (h.2 hneeds)]
  · rfl

theorem Assigned.append (h : Assigned job claimed item) (other : Nat) :
    Assigned job (claimed ++ [other]) item :=
  ⟨h.1, fun hneeds => List.mem_append_left _ (h.2 hneeds)⟩

theorem writesOf_append (h : Assigned job claimed item) (other : Nat) :
    writesOf job (claimed ++ [other]) item = writesOf job claimed item := by
  rw [writesOf, writesOf, slotOf_append h]

/-- The item that has just been given a slot. -/
theorem Claims.claim (h : Claims job claimed) (hitem : item ∈ job.slotted)
    (hfresh : item ∉ claimed) :
    Claims job (claimed ++ [item]) ∧ slotOf job (claimed ++ [item]) item = claimed.length ∧
      claimed.length < job.slotted.length := by
  have hclaims : Claims job (claimed ++ [item]) := by
    refine ⟨List.nodup_append.mpr ⟨h.nodup, List.nodup_singleton item, ?_⟩, ?_⟩
    · intro a ha b hb
      rw [List.mem_singleton] at hb
      rintro rfl
      exact hfresh (hb ▸ ha)
    · intro other hother
      rcases List.mem_append.mp hother with hother | hother
      · exact h.slotted other hother
      · rw [List.mem_singleton.mp hother]
        exact hitem
  refine ⟨hclaims, ?_, ?_⟩
  · rw [slotOf, if_pos ((job.mem_slotted item).mp hitem).2, List.idxOf_append_of_notMem hfresh]
    simp
  · have hle := hclaims.length_le
    rw [List.length_append, List.length_singleton] at hle
    omega

/-! ## What holds in every state -/

/-- Between a number and the next of its thread there is none of the thread. -/
theorem mod_ne_of_between {a b n : Nat} (hlt : b < a) (hle : a < b + n) : a % n ≠ b % n := by
  intro hsame
  have hdvd : n ∣ a - b := Nat.dvd_of_mod_eq_zero (Nat.sub_mod_eq_zero_of_mod_eq hsame)
  have := Nat.le_of_dvd (by omega) hdvd
  omega

/-- What is left of a list without one of its entries. -/
theorem mem_eraseIdx_or {γ : Type} {l : List γ} {i : Nat} {a b : γ} (ha : l[i]? = some a)
    (hb : b ∈ l) : b = a ∨ b ∈ l.eraseIdx i := by
  obtain ⟨j, hj⟩ := List.mem_iff_getElem?.mp hb
  by_cases hsame : i = j
  · subst hsame
    exact Or.inl (Option.some.inj (hj.symm.trans ha))
  · refine Or.inr (List.mem_iff_getElem?.mpr ⟨if j < i then j else j - 1, ?_⟩)
    rw [List.getElem?_eraseIdx]
    split_ifs <;> first | omega | (rw [← hj]; congr 1; omega)

/-- Where a thread is, and what it still has to do there. -/
def Place (job : Job α β) (s : State α β) : Wave α β → Prop
  | .ready item => item ∉ s.claimed
  | .adding item => item ∈ job.slotted ∧ item ∉ s.claimed
  | .writing item pending => Assigned job s.claimed item ∧
      (∀ w ∈ pending, w ∈ writesOf job s.claimed item) ∧
      ∀ w ∈ writesOf job s.claimed item, w ∈ pending ∨ s.memory w.1 = w.2

/-- A thread has done all of its items before the one it is at, and none after that. -/
structure WaveInv (job : Job α β) (s : State α β) (thread : Nat) (wave : Wave α β) : Prop where
  aligned : wave.item % job.stride = thread
  before : ∀ item, item < wave.item → item < job.items → item % job.stride = thread →
    Done job s item
  latest : ∀ item ∈ s.claimed, item % job.stride = thread → item ≤ wave.item
  place : Place job s wave

/-- What holds in every state. -/
structure Inv (job : Job α β) (s : State α β) : Prop extends Claims job s.claimed where
  counter : s.counter = s.claimed.length
  fault : s.fault = false
  threads : s.waves.length = job.stride
  waves : ∀ (thread : Nat) (wave : Wave α β), s.waves[thread]? = some wave →
    WaveInv job s thread wave

variable {s : State α β} {thread : Nat} {wave : Wave α β}

/-- An item that another thread gives a slot changes nothing for this one. -/
theorem WaveInv.claim (hwave : WaveInv job s thread wave) (counter other : Nat)
    (hother : other % job.stride ≠ thread) :
    WaveInv job { s with counter := counter, claimed := s.claimed ++ [other] } thread wave where
  aligned := hwave.aligned
  before := by
    intro item hlt hitems halign
    have hdone := hwave.before item hlt hitems halign
    refine ⟨hdone.1.append other, fun w hw => hdone.2 w ?_⟩
    rwa [writesOf_append hdone.1] at hw
  latest := by
    intro item hitem halign
    rcases List.mem_append.mp hitem with hitem | hitem
    · exact hwave.latest item hitem halign
    · rw [List.mem_singleton.mp hitem] at halign
      exact absurd halign hother
  place := by
    have hplace := hwave.place
    have hfresh : wave.item ∉ s.claimed → wave.item ∉ s.claimed ++ [other] := by
      intro hnone hmem
      rcases List.mem_append.mp hmem with hmem | hmem
      · exact hnone hmem
      · rw [← List.mem_singleton.mp hmem] at hother
        exact hother hwave.aligned
    cases wave with
    | ready item => exact hfresh hplace
    | adding item => exact ⟨hplace.1, hfresh hplace.2⟩
    | writing item pending =>
        refine ⟨hplace.1.append other, ?_, ?_⟩
        · intro w hw
          rw [writesOf_append hplace.1]
          exact hplace.2.1 w hw
        · intro w hw
          rw [writesOf_append hplace.1] at hw
          exact hplace.2.2 w hw

/-- The threads after one of them has taken a step. -/
theorem Inv.set (h : Inv job s) {next : State α β} {wave' : Wave α β}
    (hclaims : Claims job next.claimed) (hcounter : next.counter = next.claimed.length)
    (hfault : next.fault = false)
    (hothers : ∀ (other : Nat) (w : Wave α β), other ≠ thread → s.waves[other]? = some w →
      WaveInv job next other w)
    (hthread : WaveInv job next thread wave') :
    Inv job { next with waves := s.waves.set thread wave' } where
  nodup := hclaims.nodup
  slotted := hclaims.slotted
  counter := hcounter
  fault := hfault
  threads := by
    rw [List.length_set]
    exact h.threads
  waves := by
    intro other w hw
    rcases Tally.getElem?_set_cases hw with ⟨rfl, rfl⟩ | ⟨hne, hw⟩
    · exact ⟨hthread.aligned, hthread.before, hthread.latest, hthread.place⟩
    · have hkeep := hothers other w (Ne.symm hne) hw
      exact ⟨hkeep.aligned, hkeep.before, hkeep.latest, hkeep.place⟩

theorem started_inv (s : State α β) (h : Started job s) : Inv job s := by
  obtain ⟨hcounter, hclaimed, hfault, hwaves⟩ := h
  refine ⟨⟨?_, ?_⟩, ?_, hfault, ?_, ?_⟩
  · rw [hclaimed]
    exact List.nodup_nil
  · rw [hclaimed]
    exact fun item hitem => absurd hitem List.not_mem_nil
  · rw [hcounter, hclaimed]
    rfl
  · rw [hwaves, List.length_map, List.length_range]
  · intro thread wave hwave
    rw [hwaves, List.getElem?_map, Option.map_eq_some_iff] at hwave
    obtain ⟨first, hfirst, rfl⟩ := hwave
    obtain ⟨hlt, rfl⟩ := List.getElem?_eq_some_iff.mp hfirst
    rw [List.length_range] at hlt
    rw [List.getElem_range]
    refine ⟨Nat.mod_eq_of_lt hlt, ?_, ?_, ?_⟩
    · intro item hitem _ halign
      simp only [Wave.item] at hitem
      rw [Nat.mod_eq_of_lt (by omega)] at halign
      omega
    · rw [hclaimed]
      exact fun item hitem => absurd hitem List.not_mem_nil
    · rw [Place, hclaimed]
      exact List.not_mem_nil

section Steps

variable [DecidableEq α]

/-- A write of an assigned item changes no write that is in memory. -/
theorem Claims.write_keeps (hjob : job.Sound) (h : Claims job s.claimed)
    (hitem : Assigned job s.claimed item) {w : α × β} (hw : w ∈ writesOf job s.claimed item)
    (hitem' : Assigned job s.claimed item') {w' : α × β}
    (hw' : w' ∈ writesOf job s.claimed item') (hheld : s.memory w'.1 = w'.2) :
    Function.update s.memory w.1 w.2 w'.1 = w'.2 := by
  by_cases hplace : w'.1 = w.1
  · obtain rfl := h.separate hjob hitem' hitem hw' hw hplace
    exact Function.update_self ..
  · rw [Function.update_of_ne hplace]
    exact hheld

theorem WaveInv.write (hjob : job.Sound) (h : Claims job s.claimed)
    (hwave : WaveInv job s thread wave) (hitem : Assigned job s.claimed item) {w : α × β}
    (hw : w ∈ writesOf job s.claimed item) :
    WaveInv job { s with memory := Function.update s.memory w.1 w.2 } thread wave where
  aligned := hwave.aligned
  before := by
    intro other hlt hitems halign
    have hdone := hwave.before other hlt hitems halign
    exact ⟨hdone.1, fun w' hw' => h.write_keeps hjob hitem hw hdone.1 hw' (hdone.2 w' hw')⟩
  latest := hwave.latest
  place := by
    have hplace := hwave.place
    cases wave with
    | ready other => exact hplace
    | adding other => exact hplace
    | writing other pending =>
        refine ⟨hplace.1, hplace.2.1, fun w' hw' => ?_⟩
        rcases hplace.2.2 w' hw' with hpending | hheld
        · exact Or.inl hpending
        · exact Or.inr (h.write_keeps hjob hitem hw hplace.1 hw' hheld)

theorem step_inv (hjob : job.Sound) (s : State α β) (action : Nat × Nat) (s' : State α β)
    (h : Inv job s) (hstep : step job s action = some s') : Inv job s' := by
  rw [step] at hstep
  cases hat : s.waves[action.1]? with
  | none => simp [hat] at hstep
  | some wave =>
      have hwave := h.waves action.1 wave hat
      simp only [hat, Option.map_eq_some_iff] at hstep
      obtain ⟨⟨wave', next⟩, hmove, rfl⟩ := hstep
      have hothers : ∀ (other : Nat) (w : Wave α β), other ≠ action.1 →
          s.waves[other]? = some w → WaveInv job s other w :=
        fun other w _ hw => h.waves other w hw
      have hplace := hwave.place
      cases wave with
      | ready item =>
          simp only [waveStep] at hmove
          split_ifs at hmove with hitems hneeds
          · -- The item needs a slot.
            cases hmove
            refine h.set h.toClaims h.counter h.fault hothers
              ⟨hwave.aligned, hwave.before, hwave.latest, ?_, hplace⟩
            exact (job.mem_slotted item).mpr ⟨hitems, hneeds⟩
          · cases hmove
            have hassigned : Assigned job s.claimed item :=
              ⟨hitems, fun htrue => absurd htrue hneeds⟩
            have hwrites : writesOf job s.claimed item = job.writes item 0 := by
              rw [writesOf, slotOf, if_neg hneeds]
            refine h.set h.toClaims h.counter h.fault hothers
              ⟨hwave.aligned, hwave.before, hwave.latest, hassigned, ?_, ?_⟩
            · intro w hw
              rwa [hwrites]
            · intro w hw
              rw [hwrites] at hw
              exact Or.inl hw
      | adding item =>
          simp only [waveStep, Option.some.injEq, Prod.mk.injEq] at hmove
          obtain ⟨rfl, rfl⟩ := hmove
          obtain ⟨hclaims, hslot, hlt⟩ := h.toClaims.claim hplace.1 hplace.2
          have hsmall := hjob.slots_lt
          have halign : item % job.stride = action.1 := hwave.aligned
          refine h.set hclaims ?_ h.fault ?_ ?_
          · simp only [List.length_append, List.length_singleton, h.counter]
            exact Nat.mod_eq_of_lt (by omega)
          · intro other w hne hw
            exact (h.waves other w hw).claim _ item (by rw [halign]; exact Ne.symm hne)
          · have hassigned : Assigned job (s.claimed ++ [item]) item :=
              ⟨((job.mem_slotted item).mp hplace.1).1, fun _ => by simp⟩
            have hwrites : writesOf job (s.claimed ++ [item]) item =
                job.writes item s.counter := by
              rw [writesOf, hslot, h.counter]
            refine ⟨halign, ?_, ?_, hassigned, ?_, ?_⟩
            · intro other hother hitems hsame
              have hdone := hwave.before other hother hitems hsame
              refine ⟨hdone.1.append item, fun w hw => hdone.2 w ?_⟩
              rwa [writesOf_append hdone.1] at hw
            · intro other hother hsame
              rcases List.mem_append.mp hother with hother | hother
              · exact hwave.latest other hother hsame
              · rw [List.mem_singleton.mp hother]
                exact Nat.le_refl _
            · intro w hw
              rwa [hwrites]
            · intro w hw
              rw [hwrites] at hw
              exact Or.inl hw
      | writing item pending =>
          cases pending with
          | nil =>
              -- The item is done.
              simp only [waveStep, Option.some.injEq, Prod.mk.injEq] at hmove
              obtain ⟨rfl, rfl⟩ := hmove
              have halign : item % job.stride = action.1 := hwave.aligned
              have hpos := hjob.stride_pos
              have hdone : Done job s item := by
                refine ⟨hplace.1, fun w hw => ?_⟩
                rcases hplace.2.2 w hw with hnone | hheld
                · cases hnone
                · exact hheld
              refine h.set h.toClaims h.counter h.fault hothers ⟨?_, ?_, ?_, ?_⟩
              · simp only [Wave.item, Nat.add_mod_right]
                exact halign
              · intro other hother hitems hsame
                simp only [Wave.item] at hother
                rcases Nat.lt_trichotomy other item with hlt | rfl | hlt
                · exact hwave.before other hlt hitems hsame
                · exact hdone
                · exact absurd (hsame.trans halign.symm) (mod_ne_of_between hlt hother)
              · intro other hother hsame
                exact Nat.le_trans (hwave.latest other hother hsame) (Nat.le_add_right _ _)
              · intro hmem
                have hle : item + job.stride ≤ item :=
                  hwave.latest (item + job.stride) hmem (by rw [Nat.add_mod_right]; exact halign)
                omega
          | cons first rest =>
              simp only [waveStep] at hmove
              cases hchosen : (first :: rest)[action.2]? with
              | none => simp [hchosen] at hmove
              | some chosen =>
                  simp only [hchosen, Option.some.injEq, Prod.mk.injEq] at hmove
                  obtain ⟨rfl, rfl⟩ := hmove
                  have hw := hplace.2.1 chosen (List.mem_of_getElem? hchosen)
                  have hbounds := hjob.inBounds item _ (h.toClaims.fits hplace.1) chosen hw
                  rw [State.write, if_pos hbounds]
                  refine h.set h.toClaims h.counter h.fault ?_ ?_
                  · intro other w hne hother
                    exact (h.waves other w hother).write hjob h.toClaims hplace.1 hw
                  · have hkeep := hwave.write hjob h.toClaims hplace.1 hw
                    refine ⟨hkeep.aligned, hkeep.before, hkeep.latest, hplace.1, ?_, ?_⟩
                    · intro w hmem
                      exact hplace.2.1 w (List.mem_of_mem_eraseIdx hmem)
                    · intro w hmem
                      rcases hkeep.place.2.2 w hmem with hpending | hheld
                      · rcases mem_eraseIdx_or hchosen hpending with rfl | hleft
                        · exact Or.inr (Function.update_self ..)
                        · exact Or.inl hleft
                      · exact Or.inr hheld

theorem reachable_inv (hjob : job.Sound) {s : State α β} (h : Reachable job s) : Inv job s :=
  Run.Reachable.invariant (Inv job) started_inv
    (fun s action s' hinv _ hstep => step_inv hjob s action s' hinv hstep) h

/-! ## The end of a run -/

/-- Where no thread can take a step, each is past its last item. -/
theorem ended (hstuck : ∀ action, step job s action = none) (hwave : s.waves[thread]? = some wave) :
    ∃ item, wave = .ready item ∧ job.items ≤ item := by
  have hnone := hstuck (thread, 0)
  rw [step] at hnone
  simp only [hwave, Option.map_eq_none_iff] at hnone
  cases wave with
  | ready item =>
      refine ⟨item, rfl, ?_⟩
      by_contra hlt
      simp [waveStep, Nat.lt_of_not_le hlt] at hnone
  | adding item => simp [waveStep] at hnone
  | writing item pending => cases pending <;> simp [waveStep] at hnone

/-- In a state where no thread can take a step all items are done, and those that need a slot have
    been given one each. -/
theorem finished (hjob : job.Sound) {s : State α β} (h : Reachable job s)
    (hstuck : ∀ action, step job s action = none) :
    (∀ item, item < job.items → Done job s item) ∧ s.claimed.Perm job.slotted ∧
      s.counter = job.slotted.length := by
  have hinv := reachable_inv hjob h
  have hdone : ∀ item, item < job.items → Done job s item := by
    intro item hitem
    have hlt : item % job.stride < s.waves.length := by
      rw [hinv.threads]
      exact Nat.mod_lt _ hjob.stride_pos
    have hat := List.getElem?_eq_getElem hlt
    obtain ⟨last, hlast, hle⟩ := ended hstuck hat
    have hwave := hinv.waves _ _ hat
    rw [hlast] at hwave
    exact hwave.before item (by simp only [Wave.item]; omega) hitem rfl
  have hperm : s.claimed.Perm job.slotted := by
    refine (List.perm_ext_iff_of_nodup hinv.nodup (List.nodup_range.filter _)).mpr fun item => ?_
    refine ⟨hinv.slotted item, fun hmem => ?_⟩
    obtain ⟨hitems, hneeds⟩ := (job.mem_slotted item).mp hmem
    exact (hdone item hitems).1.2 hneeds
  exact ⟨hdone, hperm, by rw [hinv.counter, hperm.length_eq]⟩

/-- What is left of the steps of a thread, if an item has no more writes than a limit. -/
def Wave.remaining (job : Job α β) (limit : Nat) : Wave α β → Nat
  | .ready item => (job.items - item) * (limit + 4)
  | .adding item => (job.items - item - 1) * (limit + 4) + limit + 2
  | .writing item pending => (job.items - item - 1) * (limit + 4) + pending.length + 1

/-- What is left of the steps of all threads. -/
def remaining (job : Job α β) (limit : Nat) (s : State α β) : Nat :=
  (s.waves.map (Wave.remaining job limit)).sum

/-- The wave that moves has less left. -/
theorem waveStep_lowers (hpos : 0 < job.stride) {limit : Nat}
    (hlimit : ∀ item slot, (job.writes item slot).length ≤ limit) (s : State α β) (choice : Nat)
    {wave wave' : Wave α β} {next : State α β}
    (hmove : waveStep job s choice wave = some (wave', next)) :
    wave'.remaining job limit < wave.remaining job limit := by
  cases wave with
  | ready item =>
      simp only [waveStep] at hmove
      split_ifs at hmove with hitems hneeds
      all_goals cases hmove
      all_goals
        simp only [Wave.remaining]
        -- One item is worth its writes and four steps.
        have hone : (job.items - item) * (limit + 4) =
            (job.items - item - 1) * (limit + 4) + (limit + 4) := by
          rw [← Nat.succ_mul, Nat.succ_eq_add_one, Nat.sub_add_cancel (by omega)]
        have hwrites := hlimit item 0
        omega
  | adding item =>
      simp only [waveStep, Option.some.injEq, Prod.mk.injEq] at hmove
      obtain ⟨rfl, rfl⟩ := hmove
      have hwrites := hlimit item s.counter
      simp only [Wave.remaining]
      omega
  | writing item pending =>
      cases pending with
      | nil =>
          simp only [waveStep, Option.some.injEq, Prod.mk.injEq] at hmove
          obtain ⟨rfl, rfl⟩ := hmove
          have hle := Nat.mul_le_mul_right (limit + 4)
            (show job.items - (item + job.stride) ≤ job.items - item - 1 by omega)
          simp only [Wave.remaining, List.length_nil]
          omega
      | cons first rest =>
          simp only [waveStep] at hmove
          cases hchosen : (first :: rest)[choice]? with
          | none => simp [hchosen] at hmove
          | some chosen =>
              simp only [hchosen, Option.some.injEq, Prod.mk.injEq] at hmove
              obtain ⟨rfl, rfl⟩ := hmove
              have hlt := (List.getElem?_eq_some_iff.mp hchosen).1
              simp only [Wave.remaining, List.length_eraseIdx, if_pos hlt]
              omega

/-- Every step is one less that is left. -/
theorem step_lowers (hpos : 0 < job.stride) {limit : Nat}
    (hlimit : ∀ item slot, (job.writes item slot).length ≤ limit) (s : State α β)
    (action : Nat × Nat) (s' : State α β) (hstep : step job s action = some s') :
    remaining job limit s' < remaining job limit s := by
  rw [step] at hstep
  cases hat : s.waves[action.1]? with
  | none => simp [hat] at hstep
  | some wave =>
      simp only [hat, Option.map_eq_some_iff] at hstep
      obtain ⟨⟨wave', next⟩, hmove, rfl⟩ := hstep
      -- The other waves keep what they have left.
      have hsum := Tally.sum_map_set_add (Wave.remaining job limit) hat (b := wave')
      have hless := waveStep_lowers hpos hlimit s action.2 hmove
      rw [remaining, remaining]
      dsimp only
      omega

/-- No run is longer than what is left at its start. -/
theorem steps_le (hpos : 0 < job.stride) {limit : Nat}
    (hlimit : ∀ item slot, (job.writes item slot).length ≤ limit) (actions : List (Nat × Nat))
    (s t : State α β) (h : Run.runs (step job) s actions = some t) :
    actions.length ≤ remaining job limit s := by
  have hrun := Run.runs_length_add_le (fun _ => True) (remaining job limit)
    (fun s action s' _ _ hstep => ⟨trivial, step_lowers hpos hlimit s action s' hstep⟩)
    actions s t trivial (fun _ _ => trivial) h (p := fun _ => True)
  omega

/-- Every state can be run to one where no thread can take a step. -/
theorem exists_finished (hpos : 0 < job.stride) {limit : Nat}
    (hlimit : ∀ item slot, (job.writes item slot).length ≤ limit) (s : State α β)
    (h : Reachable job s) : ∃ t, Reachable job t ∧ ∀ action, step job t action = none := by
  induction hmeasure : remaining job limit s using Nat.strongRecOn generalizing s with
  | ind n ih =>
      by_cases hstuck : ∀ action, step job s action = none
      · exact ⟨s, h, hstuck⟩
      · push Not at hstuck
        obtain ⟨action, hmoves⟩ := hstuck
        obtain ⟨u, hu⟩ := Option.ne_none_iff_exists'.mp hmoves
        exact ih (remaining job limit u)
          (hmeasure ▸ step_lowers hpos hlimit s action u hu) u (h.tail hu) rfl

end Steps

end SlotPool

end QrtEngine
