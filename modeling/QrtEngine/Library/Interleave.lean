import Mathlib.Data.List.Nodup
import Mathlib.Data.List.Flatten
import Mathlib.Data.List.Range
import Mathlib.Logic.Function.Basic

/-!
# Interleavings of Independent Programs

Some threads each run a program, a list of effects on a state they share. An effect says whether
it has succeeded, and a thread goes no further after one that has not. When all effects of all
programs are different and any two of them leave each other's outcome alone, the order in which
the threads take their turns does not matter: the threads all come to the end of their programs
exactly if the programs, one after the other, do, and leave the same state then. When each thread
has a part of the state for itself, its program may depend on what it has done before.

## Main definitions

* `own`: The turns of a thread in a log.
* `Independent`: Effects that leave each other alone.
* `sequence`: The effects one after the other, up to the first that fails.
* `Board`, `perform`: The threads taking turns.

## Theorems

* `foldl_eq_of_own_eq`: Logs with the same turns of each thread do the same.
* `sequence_ok_iff`: A sequence succeeds if each of its effects would have at the start.
* `perform_eq_sequence`: Threads taking turns do what their programs do in sequence.
* `perform_private`: Threads with a part of the state each do what each program does alone.
* `sequence_parts`: So does one program on each part in sequence, if it fails on none.
-/

namespace QrtEngine

namespace Interleave

variable {σ ε : Type}

/-! ## Turns -/

/-- The turns of a thread, in the order of the log. -/
def own (log : List (Nat × Nat)) (thread : Nat) : List Nat :=
  log.filterMap fun turn => if turn.1 = thread then some turn.2 else none

@[simp] theorem own_nil (thread : Nat) : own [] thread = [] := rfl

theorem own_cons (turn : Nat × Nat) (log : List (Nat × Nat)) (thread : Nat) :
    own (turn :: log) thread =
      (if turn.1 = thread then [turn.2] else []) ++ own log thread := by
  unfold own
  by_cases h : turn.1 = thread <;> simp [h]

theorem own_append (log log' : List (Nat × Nat)) (thread : Nat) :
    own (log ++ log') thread = own log thread ++ own log' thread := by
  simp [own]

theorem own_eq_nil {log : List (Nat × Nat)} {thread : Nat}
    (h : ∀ turn ∈ log, turn.1 ≠ thread) : own log thread = [] := by
  unfold own
  rw [List.filterMap_eq_nil_iff]
  intro turn hturn
  rw [if_neg (h turn hturn)]

/-- The first turn of a thread, with the turns of others before it. -/
theorem own_eq_cons {log : List (Nat × Nat)} {thread k : Nat} {ks : List Nat}
    (h : own log thread = k :: ks) :
    ∃ before after, log = before ++ (thread, k) :: after ∧
      ∀ turn ∈ before, turn.1 ≠ thread := by
  induction log with
  | nil => cases h
  | cons turn log ih =>
      rw [own_cons] at h
      by_cases hturn : turn.1 = thread
      · rw [if_pos hturn, List.singleton_append, List.cons.injEq] at h
        refine ⟨[], log, ?_, by simp⟩
        rw [List.nil_append, ← hturn, ← h.1]
      · rw [if_neg hturn, List.nil_append] at h
        obtain ⟨before, after, rfl, hbefore⟩ := ih h
        refine ⟨turn :: before, after, rfl, ?_⟩
        intro other hother
        rcases List.mem_cons.mp hother with rfl | hother
        · exact hturn
        · exact hbefore other hother

/-- A turn that commutes with all of those before it may be taken first. -/
theorem foldl_comm (act : Nat × Nat → σ → σ) (turn : Nat × Nat) (before : List (Nat × Nat))
    (hcomm : ∀ other ∈ before, ∀ s, act turn (act other s) = act other (act turn s)) (s : σ) :
    act turn (before.foldl (fun s other => act other s) s) =
      before.foldl (fun s other => act other s) (act turn s) := by
  induction before generalizing s with
  | nil => rfl
  | cons other before ih =>
      rw [List.foldl_cons, List.foldl_cons,
        ih (fun o ho => hcomm o (List.mem_cons_of_mem other ho)),
        hcomm other List.mem_cons_self]

/-- If the turns of different threads commute, only the order of each thread's own turns counts. -/
theorem foldl_eq_of_own_eq (act : Nat × Nat → σ → σ)
    (hcomm : ∀ turn other, turn.1 ≠ other.1 → ∀ s,
      act turn (act other s) = act other (act turn s))
    (log log' : List (Nat × Nat)) (h : ∀ thread, own log thread = own log' thread) (s : σ) :
    log.foldl (fun s turn => act turn s) s = log'.foldl (fun s turn => act turn s) s := by
  induction log generalizing log' s with
  | nil =>
      cases log' with
      | nil => rfl
      | cons turn log' =>
          have hturn := h turn.1
          rw [own_nil, own_cons, if_pos rfl] at hturn
          cases hturn
  | cons turn log ih =>
      have hturn := (h turn.1).symm
      rw [own_cons turn log, if_pos rfl, List.singleton_append] at hturn
      obtain ⟨before, after, rfl, hbefore⟩ := own_eq_cons hturn
      have hrest : ∀ thread, own log thread = own (before ++ after) thread := by
        intro thread
        have hthread := h thread
        rw [own_cons, own_append, own_cons] at hthread
        rw [own_append]
        by_cases hsame : turn.1 = thread
        · subst hsame
          rw [own_eq_nil hbefore] at hthread ⊢
          simpa using hthread
        · simpa [hsame] using hthread
      rw [List.foldl_cons, ih (before ++ after) hrest, List.foldl_append, List.foldl_append,
        List.foldl_cons,
        foldl_comm act turn before fun other hother => hcomm turn other (hbefore other hother).symm]

/-! ## Effects -/

/-- Effects that do not change whether another succeeds, and whose order does not matter. -/
def Independent (act : ε → σ → Bool × σ) (effects : List ε) : Prop :=
  ∀ e ∈ effects, ∀ e' ∈ effects, e ≠ e' → ∀ s,
    (act e (act e' s).2).1 = (act e s).1 ∧ (act e (act e' s).2).2 = (act e' (act e s).2).2

/-- The effects one after the other, up to the first that fails. -/
def sequence (act : ε → σ → Bool × σ) : List ε → σ → Bool × σ
  | [], s => (true, s)
  | e :: effects, s => if (act e s).1 then sequence act effects (act e s).2 else act e s

variable {act : ε → σ → Bool × σ}

/-- A sequence in two parts. -/
theorem sequence_append (effects rest : List ε) (s : σ) :
    sequence act (effects ++ rest) s =
      if (sequence act effects s).1 then sequence act rest (sequence act effects s).2
      else sequence act effects s := by
  induction effects generalizing s with
  | nil => rfl
  | cons e effects ih =>
      rw [List.cons_append, sequence, sequence]
      by_cases hok : (act e s).1 = true
      · rw [if_pos hok, if_pos hok, ih]
      · rw [if_neg hok, if_neg hok, if_neg hok]

/-- Effects that all succeed. -/
theorem sequence_succeeds (effects : List ε) (h : ∀ e s, (act e s).1 = true) (s : σ) :
    (sequence act effects s).1 = true := by
  induction effects generalizing s with
  | nil => rfl
  | cons e effects ih =>
      rw [sequence, if_pos (h e s)]
      exact ih _

theorem sequence_congr {act act' : ε → σ → Bool × σ} {effects : List ε}
    (h : ∀ e ∈ effects, act e = act' e) (s : σ) :
    sequence act effects s = sequence act' effects s := by
  induction effects generalizing s with
  | nil => rfl
  | cons e effects ih =>
      rw [sequence, sequence, h e List.mem_cons_self,
        ih fun e' he' => h e' (List.mem_cons_of_mem e he')]

theorem sequence_state (effects : List ε) (s : σ) (h : (sequence act effects s).1 = true) :
    (sequence act effects s).2 = effects.foldl (fun s e => (act e s).2) s := by
  induction effects generalizing s with
  | nil => rfl
  | cons e effects ih =>
      rw [sequence] at h ⊢
      by_cases hok : (act e s).1 = true
      · rw [if_pos hok] at h ⊢
        exact ih _ h
      · rw [if_neg hok] at h
        exact absurd h hok

/-- Effects that write if a test lets them leave each other alone if no test and no result sees
    what another effect writes, and the writes commute. -/
theorem independent_of_guarded {effects : List ε} (stops succeeds : ε → σ → Bool)
    (write : ε → σ → σ)
    (hact : ∀ e ∈ effects, ∀ s, act e s =
      if stops e s then (false, s) else (succeeds e s, write e s))
    (hwrite : ∀ e ∈ effects, ∀ e' ∈ effects, e ≠ e' → ∀ s,
      stops e (write e' s) = stops e s ∧ succeeds e (write e' s) = succeeds e s ∧
        write e (write e' s) = write e' (write e s)) :
    Independent act effects := by
  intro e he e' he' hne s
  obtain ⟨hstops, hsucceeds, hcomm⟩ := hwrite e he e' he' hne s
  have hstops' := (hwrite e' he' e he (Ne.symm hne) s).1
  rw [hact e he s, hact e' he' s]
  by_cases h : stops e s = true
  · by_cases h' : stops e' s = true
    · rw [if_pos h, if_pos h', hact e he, hact e' he', if_pos h, if_pos h']
      exact ⟨rfl, rfl⟩
    · rw [if_pos h, if_neg h', hact e he, hact e' he', hstops, if_pos h, if_neg h']
      exact ⟨rfl, rfl⟩
  · by_cases h' : stops e' s = true
    · rw [if_neg h, if_pos h', hact e he, hact e' he', hstops', if_neg h, if_pos h']
      exact ⟨rfl, rfl⟩
    · rw [if_neg h, if_neg h', hact e he, hact e' he', hstops, hstops', if_neg h, if_neg h']
      exact ⟨hsucceeds, hcomm⟩

theorem Independent.map {α : Type} {act : ε → σ → Bool × σ} {f : α → ε} {effects : List α}
    (h : Independent (fun a => act (f a)) effects) : Independent act (effects.map f) := by
  intro e he e' he' hne s
  obtain ⟨a, ha, rfl⟩ := List.mem_map.mp he
  obtain ⟨a', ha', rfl⟩ := List.mem_map.mp he'
  exact h a ha a' ha' (fun heq => hne (by rw [heq])) s

theorem Independent.tail {e : ε} {effects : List ε} (h : Independent act (e :: effects)) :
    Independent act effects := fun a ha b hb =>
  h a (List.mem_cons_of_mem e ha) b (List.mem_cons_of_mem e hb)

theorem sequence_ok_iff (effects : List ε) (hnodup : effects.Nodup)
    (hind : Independent act effects) (s : σ) :
    (sequence act effects s).1 = true ↔ ∀ e ∈ effects, (act e s).1 = true := by
  induction effects generalizing s with
  | nil => simp [sequence]
  | cons e effects ih =>
      rw [List.nodup_cons] at hnodup
      have hother : ∀ e' ∈ effects, (act e' (act e s).2).1 = (act e' s).1 := by
        intro e' he'
        refine (hind e' (List.mem_cons_of_mem e he') e List.mem_cons_self ?_ s).1
        rintro rfl
        exact hnodup.1 he'
      rw [sequence, List.forall_mem_cons]
      by_cases hok : (act e s).1 = true
      · rw [if_pos hok, ih hnodup.2 hind.tail]
        constructor
        · exact fun hall => ⟨hok, fun e' he' => by rw [← hother e' he', hall e' he']⟩
        · exact fun hall e' he' => by rw [hother e' he', hall.2 e' he']
      · rw [if_neg hok]
        exact ⟨fun hall => absurd hall hok, fun hall => absurd hall.1 hok⟩

/-! ## Threads -/

/-- The state that the threads share, which of them have failed, and the results that they have
    handed in at their ends. -/
structure Board (σ : Type) where
  state : σ
  failed : Nat → Bool
  ok : Nat → Bool

/-- The threads at the start. -/
def Board.start (s : σ) : Board σ := { state := s, failed := fun _ => false, ok := fun _ => false }

/-- A turn: an effect of the program of the thread or, behind the last, its result. -/
def perform (act : ε → σ → Bool × σ) (programs : List (List ε)) (board : Board σ)
    (turn : Nat × Nat) : Board σ :=
  match programs[turn.1]? with
  | none => board
  | some program =>
      match program[turn.2]? with
      | none => { board with ok := Function.update board.ok turn.1 (!board.failed turn.1) }
      | some e =>
          if board.failed turn.1 then board
          else
            { board with
              state := (act e board.state).2
              failed := Function.update board.failed turn.1 (!(act e board.state).1) }

/-- A log with all turns of all threads. -/
def Complete (programs : List (List ε)) (log : List (Nat × Nat)) : Prop :=
  ∀ thread, own log thread =
    (programs[thread]?.map fun program => List.range (program.length + 1)).getD []

/-- What a turn does to the state if no thread fails. -/
def plain (act : ε → σ → Bool × σ) (programs : List (List ε)) (turn : Nat × Nat) (s : σ) : σ :=
  match (programs[turn.1]?.getD [])[turn.2]? with
  | none => s
  | some e => (act e s).2

section Threads

variable {programs : List (List ε)}

/-- Two turns have the same effect only if they are the same. -/
theorem turn_eq (hnodup : programs.flatten.Nodup) {i i' j j' : Nat} {p p' : List ε} {e : ε}
    (hp : programs[i]? = some p) (he : p[j]? = some e) (hp' : programs[i']? = some p')
    (he' : p'[j']? = some e) : i = i' ∧ j = j' := by
  rw [List.nodup_flatten] at hnodup
  obtain ⟨hi, rfl⟩ := List.getElem?_eq_some_iff.mp hp
  obtain ⟨hi', rfl⟩ := List.getElem?_eq_some_iff.mp hp'
  have hsame : i = i' := by
    rcases Nat.lt_trichotomy i i' with hlt | heq | hlt
    · have hdisj := List.pairwise_iff_getElem.mp hnodup.2 i i' hi hi' hlt
      exact (hdisj (List.mem_of_getElem? he) (List.mem_of_getElem? he')).elim
    · exact heq
    · have hdisj := List.pairwise_iff_getElem.mp hnodup.2 i' i hi' hi hlt
      exact (hdisj (List.mem_of_getElem? he') (List.mem_of_getElem? he)).elim
  subst hsame
  obtain ⟨hj, hje⟩ := List.getElem?_eq_some_iff.mp he
  obtain ⟨hj', hje'⟩ := List.getElem?_eq_some_iff.mp he'
  exact ⟨rfl, (hnodup.1 _ (List.getElem_mem hi)).getElem_inj_iff.mp (hje.trans hje'.symm)⟩

theorem mem_flatten_of_get {i j : Nat} {p : List ε} {e : ε} (hp : programs[i]? = some p)
    (he : p[j]? = some e) : e ∈ programs.flatten :=
  List.mem_flatten.mpr ⟨p, List.mem_of_getElem? hp, List.mem_of_getElem? he⟩

/-- The threads after some turns: how far each has come, and what that says. -/
structure Halfway (act : ε → σ → Bool × σ) (programs : List (List ε)) (s : σ) (taken : Nat → Nat)
    (board : Board σ) : Prop where
  bound : ∀ i p, programs[i]? = some p → taken i ≤ p.length + 1
  ahead : ∀ i p j e, programs[i]? = some p → taken i ≤ j → p[j]? = some e →
    (act e board.state).1 = (act e s).1
  failed : ∀ i p, programs[i]? = some p → (board.failed i = true ↔
    ∃ j e, j < taken i ∧ p[j]? = some e ∧ (act e s).1 = false)
  ok : ∀ i p, programs[i]? = some p → taken i = p.length + 1 → board.ok i = !board.failed i

theorem Halfway.start (s : σ) :
    Halfway act programs s (fun _ => 0) (Board.start s) where
  bound := fun _ _ _ => Nat.zero_le _
  ahead := fun _ _ _ _ _ _ _ => rfl
  failed := by
    intro i p _
    constructor
    · intro hfailed
      cases hfailed
    · rintro ⟨j, e, hj, _⟩
      exact absurd hj (Nat.not_lt_zero j)
  ok := by
    intro i p _ hend
    exact absurd hend.symm (Nat.succ_ne_zero _)

/-- A turn takes no thread back. -/
theorem le_next (taken : Nat → Nat) (i i' : Nat) :
    taken i' ≤ Function.update taken i (taken i + 1) i' := by
  by_cases hi : i' = i
  · subst hi
    rw [Function.update_self]
    exact Nat.le_succ _
  · rw [Function.update_of_ne hi]

/-- A thread that still has its result to hand in stays in bounds. -/
theorem Halfway.bound_next {s : σ} {taken : Nat → Nat} {board : Board σ}
    (h : Halfway act programs s taken board) {i : Nat} {p : List ε}
    (hp : programs[i]? = some p) (hle : taken i ≤ p.length) (i' : Nat) (p' : List ε)
    (hp' : programs[i']? = some p') :
    Function.update taken i (taken i + 1) i' ≤ p'.length + 1 := by
  by_cases hi : i' = i
  · subst hi
    obtain rfl := Option.some.inj (hp.symm.trans hp')
    rw [Function.update_self]
    exact Nat.succ_le_succ hle
  · rw [Function.update_of_ne hi]
    exact h.bound i' p' hp'

/-- The turn behind the last effect hands in the result. -/
theorem Halfway.result {s : σ} {taken : Nat → Nat} {board : Board σ}
    (h : Halfway act programs s taken board) {i : Nat} {p : List ε}
    (hp : programs[i]? = some p) (hend : taken i = p.length) :
    Halfway act programs s (Function.update taken i (taken i + 1))
      { board with ok := Function.update board.ok i (!board.failed i) } where
  bound := h.bound_next hp (by omega)
  ahead := fun i' p' j e hp' hj he =>
    h.ahead i' p' j e hp' (Nat.le_trans (le_next taken i i') hj) he
  failed := by
    intro i' p' hp'
    rw [h.failed i' p' hp']
    by_cases hi : i' = i
    · subst hi
      obtain rfl := Option.some.inj (hp.symm.trans hp')
      rw [Function.update_self]
      constructor
      · rintro ⟨j, e, hj, he, hfail⟩
        exact ⟨j, e, by omega, he, hfail⟩
      · rintro ⟨j, e, _, he, hfail⟩
        have hlt := (List.getElem?_eq_some_iff.mp he).1
        exact ⟨j, e, by omega, he, hfail⟩
    · rw [Function.update_of_ne hi]
  ok := by
    intro i' p' hp' htaken
    by_cases hi : i' = i
    · subst hi
      exact Function.update_self ..
    · rw [Function.update_of_ne hi] at htaken
      simp only [Function.update_of_ne hi]
      exact h.ok i' p' hp' htaken

/-- A thread that has failed lets its turns go by. -/
theorem Halfway.pass {s : σ} {taken : Nat → Nat} {board : Board σ}
    (h : Halfway act programs s taken board) {i : Nat} {p : List ε}
    (hp : programs[i]? = some p) (hlt : taken i < p.length) (hfailed : board.failed i = true) :
    Halfway act programs s (Function.update taken i (taken i + 1)) board where
  bound := h.bound_next hp (by omega)
  ahead := fun i' p' j e hp' hj he =>
    h.ahead i' p' j e hp' (Nat.le_trans (le_next taken i i') hj) he
  failed := by
    intro i' p' hp'
    by_cases hi : i' = i
    · subst hi
      rw [Function.update_self]
      obtain ⟨j, e, hj, he, hfail⟩ := (h.failed i' p hp).mp hfailed
      obtain rfl := Option.some.inj (hp.symm.trans hp')
      exact ⟨fun _ => ⟨j, e, by omega, he, hfail⟩, fun _ => hfailed⟩
    · rw [Function.update_of_ne hi]
      exact h.failed i' p' hp'
  ok := by
    intro i' p' hp' htaken
    by_cases hi : i' = i
    · subst hi
      obtain rfl := Option.some.inj (hp.symm.trans hp')
      rw [Function.update_self] at htaken
      omega
    · rw [Function.update_of_ne hi] at htaken
      exact h.ok i' p' hp' htaken

/-- A thread that has not failed does the next effect of its program. -/
theorem Halfway.effect {s : σ} {taken : Nat → Nat} {board : Board σ}
    (h : Halfway act programs s taken board) (hnodup : programs.flatten.Nodup)
    (hind : Independent act programs.flatten) {i : Nat} {p : List ε} {e : ε}
    (hp : programs[i]? = some p) (he : p[taken i]? = some e) (hgoing : board.failed i = false) :
    Halfway act programs s (Function.update taken i (taken i + 1))
      { board with
        state := (act e board.state).2
        failed := Function.update board.failed i (!(act e board.state).1) } where
  bound := h.bound_next hp (Nat.le_of_lt (List.getElem?_eq_some_iff.mp he).1)
  ahead := by
    intro i' p' j e' hp' hj he'
    have hle : taken i' ≤ j ∧ (i' = i → taken i < j) := by
      by_cases hi : i' = i
      · subst hi
        rw [Function.update_self] at hj
        exact ⟨by omega, fun _ => by omega⟩
      · rw [Function.update_of_ne hi] at hj
        exact ⟨hj, fun hsame => absurd hsame hi⟩
    have hne : e' ≠ e := by
      rintro rfl
      obtain ⟨hi, hj⟩ := turn_eq hnodup hp' he' hp he
      have hlt := hle.2 hi
      omega
    rw [(hind e' (mem_flatten_of_get hp' he') e (mem_flatten_of_get hp he) hne board.state).1]
    exact h.ahead i' p' j e' hp' hle.1 he'
  failed := by
    intro i' p' hp'
    by_cases hi : i' = i
    · subst hi
      obtain rfl := Option.some.inj (hp.symm.trans hp')
      simp only [Function.update_self]
      rw [h.ahead i' p (taken i') e hp (Nat.le_refl _) he, Bool.not_eq_true']
      constructor
      · exact fun hfail => ⟨taken i', e, Nat.lt_succ_self _, he, hfail⟩
      · rintro ⟨j, e', hj, he', hfail⟩
        rcases Nat.lt_succ_iff_lt_or_eq.mp hj with hlt | rfl
        · -- A failure further back would have stopped the thread.
          have hstop := (h.failed i' p hp).mpr ⟨j, e', hlt, he', hfail⟩
          rw [hgoing] at hstop
          cases hstop
        · obtain rfl := Option.some.inj (he.symm.trans he')
          exact hfail
    · simp only [Function.update_of_ne hi]
      exact h.failed i' p' hp'
  ok := by
    intro i' p' hp' htaken
    by_cases hi : i' = i
    · subst hi
      obtain rfl := Option.some.inj (hp.symm.trans hp')
      have hlt := (List.getElem?_eq_some_iff.mp he).1
      rw [Function.update_self] at htaken
      omega
    · rw [Function.update_of_ne hi] at htaken
      simp only [Function.update_of_ne hi]
      exact h.ok i' p' hp' htaken

theorem Halfway.turn {s : σ} {taken : Nat → Nat} {board : Board σ}
    (h : Halfway act programs s taken board) (hnodup : programs.flatten.Nodup)
    (hind : Independent act programs.flatten) {i : Nat} {p : List ε}
    (hp : programs[i]? = some p) (hat : taken i ≤ p.length) :
    Halfway act programs s (Function.update taken i (taken i + 1))
      (perform act programs board (i, taken i)) := by
  unfold perform
  simp only [hp]
  cases he : p[taken i]? with
  | none =>
      rw [List.getElem?_eq_none_iff] at he
      exact h.result hp (Nat.le_antisymm hat he)
  | some e =>
      cases hgoing : board.failed i with
      | true =>
          simp only [if_true]
          exact h.pass hp (List.getElem?_eq_some_iff.mp he).1 hgoing
      | false =>
          simp only [Bool.false_eq_true, if_false]
          exact h.effect hnodup hind hp he hgoing

/-- If all effects would succeed at the start, a turn changes the state as if nothing could fail. -/
theorem Halfway.plain_state {s : σ} {taken : Nat → Nat} {board : Board σ}
    (h : Halfway act programs s taken board) (hall : ∀ e ∈ programs.flatten, (act e s).1 = true)
    (i j : Nat) :
    (perform act programs board (i, j)).state = plain act programs (i, j) board.state := by
  unfold perform plain
  cases hp : programs[i]? with
  | none => simp
  | some p =>
      cases he : p[j]? with
      | none => simp [he]
      | some e =>
          have hgoing : board.failed i = false := by
            rw [← Bool.not_eq_true, h.failed i p hp]
            rintro ⟨j', e', _, he', hfail⟩
            rw [hall e' (mem_flatten_of_get hp he')] at hfail
            cases hfail
          simp [he, hgoing]

/-- What is left of a complete log, once some turns are taken. -/
def Rest (programs : List (List ε)) (taken : Nat → Nat) (log : List (Nat × Nat)) : Prop :=
  ∀ thread, own log thread =
    (programs[thread]?.map fun program =>
      (List.range (program.length + 1)).drop (taken thread)).getD []

/-- The next turn of what is left is the next of its thread. -/
theorem Rest.next {taken : Nat → Nat} {turn : Nat × Nat} {log : List (Nat × Nat)}
    (h : Rest programs taken (turn :: log)) :
    ∃ p, programs[turn.1]? = some p ∧ taken turn.1 ≤ p.length ∧ turn.2 = taken turn.1 ∧
      Rest programs (Function.update taken turn.1 (taken turn.1 + 1)) log := by
  have hturn := h turn.1
  rw [own_cons, if_pos rfl, List.singleton_append] at hturn
  cases hp : programs[turn.1]? with
  | none =>
      rw [hp] at hturn
      cases hturn
  | some p =>
      rw [hp, Option.map_some, Option.getD_some] at hturn
      have hlt : taken turn.1 < p.length + 1 := by
        by_contra hge
        rw [List.drop_eq_nil_of_le (by rw [List.length_range]; omega)] at hturn
        cases hturn
      rw [List.drop_eq_getElem_cons (by rw [List.length_range]; exact hlt), List.getElem_range,
        List.cons.injEq] at hturn
      refine ⟨p, rfl, by omega, hturn.1, ?_⟩
      intro thread
      by_cases hsame : turn.1 = thread
      · subst hsame
        rw [hp, Function.update_self, hturn.2]
        rfl
      · have hthread := h thread
        rw [own_cons, if_neg hsame, List.nil_append] at hthread
        rw [Function.update_of_ne (Ne.symm hsame), hthread]

/-- The rest of the turns. -/
theorem Halfway.finish (hnodup : programs.flatten.Nodup)
    (hind : Independent act programs.flatten) (s : σ) (log : List (Nat × Nat))
    (taken : Nat → Nat) (board : Board σ) (h : Halfway act programs s taken board)
    (hrest : Rest programs taken log) :
    (∀ i p, programs[i]? = some p →
      ((log.foldl (perform act programs) board).ok i = true ↔
        ∀ e ∈ p, (act e s).1 = true)) ∧
    ((∀ e ∈ programs.flatten, (act e s).1 = true) →
      (log.foldl (perform act programs) board).state =
        log.foldl (fun s turn => plain act programs turn s) board.state) := by
  induction log generalizing taken board with
  | nil =>
      refine ⟨?_, fun _ => rfl⟩
      intro i p hp
      have hdone : taken i = p.length + 1 := by
        have hnone := hrest i
        rw [own_nil, hp, Option.map_some, Option.getD_some] at hnone
        have hlength := congrArg List.length hnone
        rw [List.length_drop, List.length_range, List.length_nil] at hlength
        have hbound := h.bound i p hp
        omega
      rw [List.foldl_nil, h.ok i p hp hdone, Bool.not_eq_true', ← Bool.not_eq_true,
        h.failed i p hp]
      constructor
      · intro hnone e he
        obtain ⟨j, hj⟩ := List.mem_iff_getElem?.mp he
        by_contra hfail
        have hlt := (List.getElem?_eq_some_iff.mp hj).1
        exact hnone ⟨j, e, by omega, hj, by simpa using hfail⟩
      · rintro hall ⟨j, e, _, he, hfail⟩
        rw [hall e (List.mem_of_getElem? he)] at hfail
        cases hfail
  | cons turn log ih =>
      obtain ⟨p, hp, hat, hsecond, hnext⟩ := hrest.next
      have hturn : turn = (turn.1, taken turn.1) := Prod.ext rfl hsecond
      obtain ⟨hok, hstate⟩ := ih _ _ (h.turn hnodup hind hp hat) hnext
      rw [List.foldl_cons, List.foldl_cons, hturn]
      refine ⟨hok, ?_⟩
      intro hall
      rw [hstate hall, h.plain_state hall]

/-- The turns of the threads from one on, one thread after the other. -/
def serial (thread : Nat) : List (List ε) → List (Nat × Nat)
  | [] => []
  | p :: ps => (List.range (p.length + 1)).map (fun j => (thread, j)) ++ serial (thread + 1) ps

theorem own_map_pair (thread other : Nat) (js : List Nat) :
    own (js.map fun j => (other, j)) thread = if other = thread then js else [] := by
  induction js with
  | nil => simp
  | cons j js ih =>
      rw [List.map_cons, own_cons, ih]
      by_cases h : other = thread <;> simp [h]

theorem own_serial (ps : List (List ε)) (first thread : Nat) :
    own (serial first ps) thread =
      if thread < first then []
      else (ps[thread - first]?.map fun p => List.range (p.length + 1)).getD [] := by
  induction ps generalizing first with
  | nil => simp [serial]
  | cons p ps ih =>
      rw [serial, own_append, own_map_pair, ih]
      by_cases hlt : thread < first
      · rw [if_neg (by omega), if_pos (by omega), if_pos hlt]
        rfl
      · by_cases heq : first = thread
        · subst heq
          rw [if_pos rfl, if_pos (Nat.lt_succ_self _), if_neg hlt, Nat.sub_self,
            List.getElem?_cons_zero, List.append_nil]
          rfl
        · obtain ⟨d, hd⟩ : ∃ d, thread - first = d + 1 := ⟨thread - first - 1, by omega⟩
          rw [if_neg heq, if_neg (by omega), if_neg hlt, hd, List.getElem?_cons_succ,
            List.nil_append]
          congr 3
          omega

theorem serial_complete : Complete programs (serial 0 programs) := by
  intro thread
  rw [own_serial, if_neg (Nat.not_lt_zero _), Nat.sub_zero]

/-- The turns of one thread do what its program does. -/
theorem foldl_program (act : ε → σ → Bool × σ) (p : List ε) (s : σ) :
    (List.range (p.length + 1)).foldl
        (fun s j => match p[j]? with
          | none => s
          | some e => (act e s).2) s =
      p.foldl (fun s e => (act e s).2) s := by
  induction p generalizing s with
  | nil => rfl
  | cons e p ih =>
      rw [List.length_cons, List.range_succ_eq_map, List.foldl_cons, List.foldl_map,
        List.foldl_cons]
      simp only [List.getElem?_cons_zero, Nat.succ_eq_add_one, List.getElem?_cons_succ]
      exact ih _

theorem foldl_serial (ps : List (List ε)) (first : Nat)
    (hps : ∀ i, programs[first + i]? = ps[i]?) (s : σ) :
    (serial first ps).foldl (fun s turn => plain act programs turn s) s =
      ps.flatten.foldl (fun s e => (act e s).2) s := by
  induction ps generalizing first s with
  | nil => rfl
  | cons p ps ih =>
      have hp : programs[first]? = some p := hps 0
      rw [serial, List.foldl_append, List.foldl_map, List.flatten_cons, List.foldl_append,
        ← foldl_program act p, ih]
      · simp only [plain, hp, Option.getD_some]
      · intro i
        rw [Nat.add_assoc, Nat.add_comm 1 i, hps (i + 1), List.getElem?_cons_succ]

theorem plain_comm (hnodup : programs.flatten.Nodup) (hind : Independent act programs.flatten)
    (turn other : Nat × Nat) (hne : turn.1 ≠ other.1) (s : σ) :
    plain act programs turn (plain act programs other s) =
      plain act programs other (plain act programs turn s) := by
  unfold plain
  cases he : (programs[turn.1]?.getD [])[turn.2]? with
  | none => rfl
  | some e =>
      cases he' : (programs[other.1]?.getD [])[other.2]? with
      | none => rfl
      | some e' =>
          cases hp : programs[turn.1]? with
          | none => simp [hp] at he
          | some p =>
              cases hp' : programs[other.1]? with
              | none => simp [hp'] at he'
              | some p' =>
                  simp only [hp, Option.getD_some] at he
                  simp only [hp', Option.getD_some] at he'
                  refine (hind e (mem_flatten_of_get hp he) e' (mem_flatten_of_get hp' he') ?_ s).2
                  rintro rfl
                  exact hne (turn_eq hnodup hp he hp' he').1

/-- Threads taking turns in any order do what their programs do one after the other: all of them
    succeed if that does, and then they leave the same state. -/
theorem perform_eq_sequence (hnodup : programs.flatten.Nodup)
    (hind : Independent act programs.flatten) (log : List (Nat × Nat))
    (hlog : Complete programs log) (s : σ) :
    ((∀ i, i < programs.length →
        (log.foldl (perform act programs) (Board.start s)).ok i = true) ↔
      (sequence act programs.flatten s).1 = true) ∧
    ((sequence act programs.flatten s).1 = true →
      (log.foldl (perform act programs) (Board.start s)).state =
        (sequence act programs.flatten s).2) := by
  have hrest : Rest programs (fun _ => 0) log := by
    intro thread
    rw [hlog thread]
    rfl
  obtain ⟨hok, hstate⟩ := Halfway.finish hnodup hind s log _ _ (Halfway.start s) hrest
  rw [sequence_ok_iff programs.flatten hnodup hind]
  refine ⟨⟨?_, ?_⟩, ?_⟩
  · intro hall e he
    obtain ⟨p, hp, hep⟩ := List.mem_flatten.mp he
    obtain ⟨i, hi⟩ := List.mem_iff_getElem?.mp hp
    exact (hok i p hi).mp (hall i (List.getElem?_eq_some_iff.mp hi).1) e hep
  · intro hall i hi
    refine (hok i _ (List.getElem?_eq_getElem hi)).mpr fun e he => ?_
    exact hall e (List.mem_flatten.mpr ⟨_, List.getElem_mem hi, he⟩)
  · intro hall
    have hseq : (sequence act programs.flatten s).1 = true :=
      (sequence_ok_iff programs.flatten hnodup hind s).mpr hall
    rw [hstate hall, sequence_state _ _ hseq,
      foldl_eq_of_own_eq (plain act programs) (plain_comm hnodup hind) log (serial 0 programs)
        (fun thread => by rw [hlog thread, serial_complete thread]),
      foldl_serial programs 0 (fun i => by rw [Nat.zero_add])]
    rfl

end Threads

/-! ## Threads with a part of the state each -/

section Private

variable {τ : Type} (step : ε → τ → Bool × τ)

/-- An effect of a thread on its part of the state. -/
def onPart (tagged : Nat × ε) (s : Nat → τ) : Bool × (Nat → τ) :=
  ((step tagged.2 (s tagged.1)).1, Function.update s tagged.1 (step tagged.2 (s tagged.1)).2)

/-- The programs with the threads they are for. -/
def tagged (programs : List (List ε)) : List (List (Nat × ε)) :=
  programs.zipIdx.map fun entry => entry.1.map fun e => (entry.2, e)

variable {step} {programs : List (List ε)}

theorem getElem?_tagged (thread : Nat) :
    (tagged programs)[thread]? = programs[thread]?.map fun p => p.map fun e => (thread, e) := by
  rw [tagged, List.getElem?_map, List.getElem?_zipIdx, Nat.zero_add]
  cases programs[thread]? <;> rfl

/-- What a thread comes to that has failed or not. -/
def resume (step : ε → τ → Bool × τ) (failed : Bool) (program : List ε) (s : τ) : Bool × τ :=
  if failed then (false, s) else sequence step program s

/-- A turn of another thread is none for this one. -/
theorem perform_other (step : ε → τ → Bool × τ) (programs : List (List ε))
    (board : Board (Nat → τ)) (turn : Nat × Nat) (thread : Nat)
    (h : turn.1 ≠ thread) :
    (perform (onPart step) (tagged programs) board turn).state thread = board.state thread ∧
      (perform (onPart step) (tagged programs) board turn).failed thread =
        board.failed thread ∧
      (perform (onPart step) (tagged programs) board turn).ok thread = board.ok thread := by
  unfold perform
  rw [getElem?_tagged]
  cases programs[turn.1]? with
  | none => exact ⟨rfl, rfl, rfl⟩
  | some p =>
      simp only [Option.map_some, List.getElem?_map]
      cases p[turn.2]? with
      | none => exact ⟨rfl, rfl, Function.update_of_ne h.symm ..⟩
      | some e =>
          simp only [Option.map_some]
          split_ifs
          · exact ⟨rfl, rfl, rfl⟩
          · exact ⟨Function.update_of_ne h.symm .., Function.update_of_ne h.symm .., rfl⟩

/-- The turns that are left of a thread do what is left of its program. -/
theorem perform_private_from (thread : Nat) (p : List ε) (hp : programs[thread]? = some p)
    (log : List (Nat × Nat)) (taken : Nat) (board : Board (Nat → τ)) (htaken : taken ≤ p.length)
    (hlog : own log thread = (List.range (p.length + 1)).drop taken) :
    let last := log.foldl (perform (onPart step) (tagged programs)) board
    (last.ok thread, last.state thread) =
      resume step (board.failed thread) (p.drop taken) (board.state thread) := by
  -- Once the result is in, the thread has no more turns.
  have hover : ∀ (log : List (Nat × Nat)) (board : Board (Nat → τ)), own log thread = [] →
      (log.foldl (perform (onPart step) (tagged programs)) board).ok thread = board.ok thread ∧
      (log.foldl (perform (onPart step) (tagged programs)) board).state thread =
        board.state thread := by
    intro log
    induction log with
    | nil => exact fun _ _ => ⟨rfl, rfl⟩
    | cons turn log ih =>
        intro board hnone
        rw [own_cons, List.append_eq_nil_iff] at hnone
        have hne : turn.1 ≠ thread := by
          intro heq
          rw [if_pos heq] at hnone
          cases hnone.1
        obtain ⟨hstate, _, hok⟩ := perform_other step programs board
          turn thread hne
        obtain ⟨hok', hstate'⟩ := ih (perform (onPart step) (tagged programs) board turn) hnone.2
        exact ⟨hok'.trans hok, hstate'.trans hstate⟩
  have hprogram : (tagged programs)[thread]? = some (p.map fun e => (thread, e)) := by
    rw [getElem?_tagged, hp, Option.map_some]
  intro last
  induction log generalizing taken board with
  | nil =>
      have hlength := congrArg List.length hlog
      rw [own_nil, List.length_nil, List.length_drop, List.length_range] at hlength
      omega
  | cons turn log ih =>
      by_cases hturn : turn.1 = thread
      · rw [own_cons, if_pos hturn, List.singleton_append,
          List.drop_eq_getElem_cons (by rw [List.length_range]; omega), List.getElem_range,
          List.cons.injEq] at hlog
        obtain ⟨hsecond, hrest⟩ := hlog
        have hpair : turn = (thread, taken) := Prod.ext hturn hsecond
        subst hpair
        by_cases hend : taken = p.length
        · -- The result is handed in.
          subst hend
          rw [List.drop_eq_nil_of_le (by rw [List.length_range])] at hrest
          obtain ⟨hok, hstate⟩ := hover log
            (perform (onPart step) (tagged programs) board (thread, p.length)) hrest
          have hresult : perform (onPart step) (tagged programs) board (thread, p.length) =
              { board with ok := Function.update board.ok thread (!board.failed thread) } := by
            simp [perform, hprogram]
          simp only [hresult, Function.update_self] at hok hstate
          simp only [last, List.foldl_cons, hresult, hok, hstate, List.drop_length, resume,
            sequence]
          cases board.failed thread <;> rfl
        · obtain ⟨e, he⟩ : ∃ e, p[taken]? = some e :=
            ⟨_, List.getElem?_eq_getElem (by omega)⟩
          have hdrop : p.drop taken = e :: p.drop (taken + 1) := by
            obtain ⟨hlt, rfl⟩ := List.getElem?_eq_some_iff.mp he
            exact List.drop_eq_getElem_cons hlt
          have hnext := ih (taken + 1)
            (perform (onPart step) (tagged programs) board (thread, taken)) (by omega) hrest
          refine hnext.trans ?_
          cases hfailed : board.failed thread with
          | true =>
              have hpass : perform (onPart step) (tagged programs) board (thread, taken) =
                  board := by
                simp [perform, hprogram, he, hfailed]
              rw [hpass, hfailed]
              rfl
          | false =>
              have heffect : perform (onPart step) (tagged programs) board (thread, taken) =
                  { board with
                    state := Function.update board.state thread (step e (board.state thread)).2
                    failed := Function.update board.failed thread
                      (!(step e (board.state thread)).1) } := by
                simp [perform, hprogram, he, hfailed, onPart]
              simp only [heffect, Function.update_self]
              rw [hdrop, resume, resume, sequence]
              cases hok : (step e (board.state thread)).1 with
              | true => rfl
              | false => exact Prod.ext hok.symm rfl
      · rw [own_cons, if_neg hturn, List.nil_append] at hlog
        obtain ⟨hstate, hfailed, _⟩ := perform_other step programs board
          turn thread hturn
        rw [← hstate, ← hfailed]
        exact ih taken (perform (onPart step) (tagged programs) board turn) htaken hlog

/-- Threads that have a part of the state each do what each program does alone. -/
theorem perform_private (programs : List (List ε)) (log : List (Nat × Nat))
    (hlog : Complete (tagged programs) log) (s : Nat → τ) (thread : Nat) (p : List ε)
    (hp : programs[thread]? = some p) :
    let last := log.foldl (perform (onPart step) (tagged programs)) (Board.start s)
    (last.ok thread, last.state thread) = sequence step p (s thread) := by
  refine perform_private_from thread p hp log 0 (Board.start s) (Nat.zero_le _) ?_
  rw [hlog thread, getElem?_tagged, hp]
  simp

/-- Effects on one part after the other, if none fails. -/
theorem sequence_tagged (thread : Nat) (p : List ε) (s : Nat → τ) :
    (sequence (onPart step) (p.map fun e => (thread, e)) s).1 =
        (sequence step p (s thread)).1 ∧
      (sequence (onPart step) (p.map fun e => (thread, e)) s).2 =
        Function.update s thread (sequence step p (s thread)).2 := by
  induction p generalizing s with
  | nil => exact ⟨rfl, (Function.update_eq_self ..).symm⟩
  | cons e p ih =>
      rw [List.map_cons, sequence, sequence]
      cases hok : (step e (s thread)).1 with
      | true =>
          have hfirst : (onPart step (thread, e) s).1 = true := hok
          rw [if_pos hfirst, if_pos rfl]
          obtain ⟨hflag, hstate⟩ := ih (onPart step (thread, e) s).2
          rw [hflag, hstate]
          simp [onPart]
      | false =>
          have hfirst : (onPart step (thread, e) s).1 = false := hok
          rw [hfirst, if_neg Bool.false_ne_true, if_neg Bool.false_ne_true]
          exact ⟨rfl, rfl⟩

/-- Effects on different parts leave each other alone, and so do those on one part that did. -/
theorem onPart_independent (threads : List Nat) {p : List ε} (h : Independent step p) :
    Independent (onPart step) (threads.flatMap fun thread => p.map fun e => (thread, e)) := by
  intro a ha b hb hne s
  obtain ⟨i, _, ha⟩ := List.mem_flatMap.mp ha
  obtain ⟨e, he, rfl⟩ := List.mem_map.mp ha
  obtain ⟨j, _, hb⟩ := List.mem_flatMap.mp hb
  obtain ⟨e', he', rfl⟩ := List.mem_map.mp hb
  unfold onPart
  by_cases hpart : i = j
  · subst hpart
    have hstep := h e he e' he' (fun heq => hne (by rw [heq])) (s i)
    simp only [Function.update_self, Function.update_idem, hstep, and_self]
  · simp only [Function.update_of_ne hpart, Function.update_of_ne (Ne.symm hpart), true_and]
    exact Function.update_comm (Ne.symm hpart) ..

theorem nodup_parts {threads : List Nat} (hthreads : threads.Nodup) {p : List ε}
    (hp : p.Nodup) : (threads.flatMap fun thread => p.map fun e => (thread, e)).Nodup := by
  rw [List.nodup_flatMap]
  refine ⟨fun thread _ => hp.map fun e e' heq => (Prod.mk.inj heq).2, ?_⟩
  refine hthreads.imp fun {i j} hne => ?_
  intro a ha hb
  obtain ⟨e, _, rfl⟩ := List.mem_map.mp ha
  obtain ⟨e', _, heq⟩ := List.mem_map.mp hb
  exact hne (Prod.mk.inj heq).1.symm

/-- A program on one part after the other: it succeeds if it does on each, and leaves in each what
    it leaves there. -/
theorem sequence_parts (threads : List Nat) (hthreads : threads.Nodup) (p : List ε)
    (s : Nat → τ) :
    let run := sequence (onPart step)
      (threads.flatMap fun thread => p.map fun e => (thread, e)) s
    (run.1 = true ↔ ∀ thread ∈ threads, (sequence step p (s thread)).1 = true) ∧
      (run.1 = true → run.2 = fun thread =>
        if thread ∈ threads then (sequence step p (s thread)).2 else s thread) := by
  induction threads generalizing s with
  | nil => simp [sequence]
  | cons thread threads ih =>
      rw [List.nodup_cons] at hthreads
      obtain ⟨hflag, hstate⟩ := @sequence_tagged _ _ step thread p s
      simp only [List.flatMap_cons, sequence_append, hflag, List.forall_mem_cons]
      cases hok : (sequence step p (s thread)).1 with
      | false => simp [hflag, hok]
      | true =>
          obtain ⟨hall, hrest⟩ := ih hthreads.2
            (sequence (onPart step) (p.map fun e => (thread, e)) s).2
          have hother : ∀ other ∈ threads,
              (sequence (onPart step) (p.map fun e => (thread, e)) s).2 other = s other := by
            intro other hmem
            rw [hstate, Function.update_of_ne]
            rintro rfl
            exact hthreads.1 hmem
          rw [if_pos rfl, hall]
          refine ⟨?_, ?_⟩
          · simp only [true_and]
            exact forall₂_congr fun other hmem => by rw [hother other hmem]
          · intro hdone
            rw [hrest (hall.mpr hdone)]
            funext other
            by_cases hmem : other ∈ threads
            · rw [if_pos hmem, if_pos (List.mem_cons_of_mem thread hmem), hother other hmem]
            · rw [if_neg hmem, hstate]
              by_cases hsame : other = thread
              · subst hsame
                rw [Function.update_self, if_pos List.mem_cons_self]
              · rw [Function.update_of_ne hsame, if_neg (by simp [hsame, hmem])]

end Private

end Interleave

end QrtEngine
