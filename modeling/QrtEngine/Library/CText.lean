import Mathlib.Algebra.GroupWithZero.Nat
import Mathlib.Data.List.Infix
import QrtEngine.Library.Outcome

/-!
# NUL-Terminated Texts

A pointer into a block of bytes is the list of the bytes from it to the end of the block. A load is
the first of them, and fails at the end of the block, so that a computation that goes on has read
inside its block only. Two pointers into one block compare by how much of it they leave.

A text ends at its first NUL, wherever its block does. `Ahead p q` says that `q` is reached from
`p` without passing a NUL, and `Safe` that a computation has a result of some kind or refuses. A
scan of a text is safe when it starts at or before the NUL and goes ahead only.

## Main definitions

* `Stop`: Why a computation has no result.
* `Safe`: A result of some kind, or a refusal.
* `Ahead`, `upTo`: A pointer reached without passing a NUL, and what is passed on the way.
* `load`, `skipWhile`, `cString`: A byte, a run of bytes, and a whole text.
* `strchr`, `strstr`: The first of its kind up to the NUL.
* `strtoull`: A number in base ten, with its bounds.

## Theorems

* `Safe.bind`, `Safe.load`: The rules for putting scans together.
* `Ahead.trans`, `Ahead.of_length_le`: Pointers into one text are in line.
* `skipWhile_safe`, `strchr_safe`, `strtoull_safe`: What the scans reach.
* `skipWhile_append`, `strchr_append`, `cString_append`: The same, where the text is known.
* `strchr_occurs`, `strstr_first`: A search stops at or before every occurrence.
-/

namespace QrtEngine

namespace CText

/-- Why a computation has no result: an access outside its block, more rounds than it was given,
    or a check of its own. -/
inductive Stop
  | outside
  | unfinished
  | refused
  deriving DecidableEq, Repr

/-- The bytes of a literal. -/
def bytes (s : String) : List UInt8 := s.toList.map fun c => UInt8.ofNat c.toNat

variable {α β : Type}

/-- A result of some kind, or a refusal. -/
def Safe (done : α → Prop) : Except Stop α → Prop
  | .ok result => done result
  | .error stop => stop = .refused

/-- A pointer is reached from another one without passing a NUL. -/
def Ahead (p q : List UInt8) : Prop := ∃ passed, p = passed ++ q ∧ 0 ∉ passed

/-- The bytes in front of a pointer. -/
def upTo (text p : List UInt8) : List UInt8 := text.take (text.length - p.length)

/-! ## Scans -/

/-- The byte at a pointer. -/
def load : List UInt8 → Except Stop UInt8
  | [] => .error .outside
  | ch :: _ => .ok ch

/-- The first byte that is not of a kind. -/
def skipWhile (kind : UInt8 → Bool) : List UInt8 → Except Stop (List UInt8)
  | [] => .error .outside
  | ch :: rest => if kind ch then skipWhile kind rest else .ok (ch :: rest)

/-- The text at a pointer. -/
def cString : List UInt8 → Except Stop (List UInt8)
  | [] => .error .outside
  | ch :: rest => if ch = 0 then .ok [] else (cString rest).map (ch :: ·)

/-- The first byte of its value, up to the NUL. -/
def strchr (c : UInt8) : List UInt8 → Except Stop (List UInt8)
  | [] => .error .outside
  | ch :: rest =>
      if ch = c then .ok (ch :: rest) else if ch = 0 then .error .refused else strchr c rest

/-- Whether a pattern stands at a pointer, read up to the first byte that differs. -/
def startsWith : List UInt8 → List UInt8 → Except Stop Bool
  | [], _ => .ok true
  | _ :: _, [] => .error .outside
  | c :: pattern, ch :: rest => if ch = c then startsWith pattern rest else .ok false

/-- The first occurrence of a pattern, up to the NUL. -/
def strstr (pattern : List UInt8) : List UInt8 → Except Stop (List UInt8)
  | [] => .error .outside
  | ch :: rest => do
      if ← startsWith pattern (ch :: rest) then .ok (ch :: rest)
      else if ch = 0 then .error .refused
      else strstr pattern rest

/-- The whitespace of the number parser. -/
def isSpace (ch : UInt8) : Bool := ch = 32 || (9 ≤ ch && ch ≤ 13)

def isDigit (ch : UInt8) : Bool := 48 ≤ ch && ch ≤ 57

/-- The digits at a pointer, behind what has been read of a number. -/
def readDigits : Nat → List UInt8 → Except Stop (Nat × List UInt8)
  | _, [] => .error .outside
  | value, ch :: rest =>
      if isDigit ch then readDigits (value * 10 + (ch.toNat - 48)) rest
      else .ok (value, ch :: rest)

/-- The sign at a pointer, if there is one. -/
def readSign : List UInt8 → Except Stop (Bool × List UInt8)
  | [] => .error .outside
  | ch :: rest =>
      .ok (if ch = 45 then (true, rest) else if ch = 43 then (false, rest) else (false, ch :: rest))

/-- A number in base ten and the pointer behind it, which is the start if there is no digit.
    Numbers that do not fit are cut to the greatest one, others are negated by their sign. -/
def strtoull (start : List UInt8) : Except Stop (UInt64 × List UInt8) := do
  let p ← skipWhile isSpace start
  let (negative, digits) ← readSign p
  let (value, stop) ← readDigits 0 digits
  if stop.length = digits.length then .ok (0, start)
  else if 2 ^ 64 ≤ value then .ok (UInt64.ofNat (2 ^ 64 - 1), stop)
  else .ok (if negative then 0 - UInt64.ofNat value else UInt64.ofNat value, stop)

/-! ## Rules -/

namespace Safe

variable {done : α → Prop}

/-- If the first computation goes on, the second one may use its result. -/
theorem bind_ok {next : β → Prop} {first : Except Stop α} {second : α → Except Stop β}
    (hfirst : Safe done first)
    (hsecond : ∀ result, first = .ok result → done result → Safe next (second result)) :
    Safe next (first >>= second) := by
  cases first with
  | error stop => exact hfirst
  | ok result => exact hsecond result rfl hfirst

/-- If the first computation goes on, the second one begins where the first has ended. -/
theorem bind {next : β → Prop} {first : Except Stop α} {second : α → Except Stop β}
    (hfirst : Safe done first) (hsecond : ∀ result, done result → Safe next (second result)) :
    Safe next (first >>= second) :=
  bind_ok hfirst fun result _ => hsecond result

theorem mono {more : α → Prop} {first : Except Stop α} (h : Safe done first)
    (hmore : ∀ result, done result → more result) : Safe more first := by
  cases first with
  | error stop => exact h
  | ok result => exact hmore result h

/-- What holds of every result of a safe computation. -/
theorem of_eq_ok {first : Except Stop α} (h : Safe done first) {result : α}
    (hresult : first = .ok result) : done result := by
  rw [hresult] at h
  exact h

/-- A load inside a block. -/
theorem load {p : List UInt8} (h : 0 ∈ p) :
    Safe (fun ch => ∃ rest, p = ch :: rest) (load p) := by
  cases p with
  | nil => exact absurd h List.not_mem_nil
  | cons ch rest => exact ⟨rest, rfl⟩

end Safe

namespace Ahead

variable {p q r : List UInt8}

theorem refl (p : List UInt8) : Ahead p p := ⟨[], rfl, List.not_mem_nil⟩

theorem trans (hpq : Ahead p q) (hqr : Ahead q r) : Ahead p r := by
  rcases hpq with ⟨passed, rfl, hpassed⟩
  rcases hqr with ⟨more, rfl, hmore⟩
  refine ⟨passed ++ more, (List.append_assoc ..).symm, ?_⟩
  rw [List.mem_append]
  exact fun h => h.elim hpassed hmore

/-- One byte ahead. -/
theorem step {ch : UInt8} (hch : ch ≠ 0) (p : List UInt8) : Ahead (ch :: p) p :=
  ⟨[ch], rfl, fun h => hch (List.mem_singleton.mp h).symm⟩

/-- What is not at a byte is behind it. -/
theorem behind {ch : UInt8} (h : Ahead (ch :: p) q) (hne : q ≠ ch :: p) : ch ≠ 0 ∧ Ahead p q := by
  rcases h with ⟨passed, hpassed, hclean⟩
  cases passed with
  | nil => exact absurd hpassed.symm hne
  | cons ch' passed =>
      rw [List.cons_append, List.cons.injEq] at hpassed
      rw [List.mem_cons, not_or] at hclean
      exact ⟨hpassed.1 ▸ fun hzero => hclean.1 hzero.symm, passed, hpassed.2, hclean.2⟩

/-- The NUL is still in reach. -/
theorem mem (h : Ahead p q) (hp : 0 ∈ p) : 0 ∈ q := by
  rcases h with ⟨passed, rfl, hpassed⟩
  exact (List.mem_append.mp hp).resolve_left hpassed

theorem suffix (h : Ahead p q) : q <:+ p := by
  rcases h with ⟨passed, rfl, -⟩
  exact List.suffix_append passed q

theorem upTo_append (h : Ahead p q) : upTo p q ++ q = p := by
  rcases h with ⟨passed, rfl, -⟩
  rw [upTo, List.length_append, Nat.add_sub_cancel, List.take_left]

theorem length_le (h : Ahead p q) : q.length ≤ p.length := h.suffix.length_le

/-- Of two pointers into a text, the one that leaves less is ahead of the other. -/
theorem of_length_le (hq : Ahead p q) (hr : Ahead p r) (h : r.length ≤ q.length) :
    Ahead q r := by
  rcases List.suffix_of_suffix_length_le hr.suffix hq.suffix h with ⟨between, hbetween⟩
  refine ⟨between, hbetween.symm, fun hmem => ?_⟩
  rcases hq with ⟨front, hfront, -⟩
  rcases hr with ⟨passed, hpassed, hclean⟩
  -- What lies between them is the end of what the second one has passed.
  rw [hpassed, ← hbetween, ← List.append_assoc] at hfront
  rw [List.append_cancel_right hfront] at hclean
  exact hclean (List.mem_append_right _ hmem)

end Ahead

/-! ## What the scans reach -/

variable {p : List UInt8}

/-- A run of bytes ends at or before the NUL if the NUL is not of its kind. -/
theorem skipWhile_safe {kind : UInt8 → Bool} (hkind : kind 0 = false) (h : 0 ∈ p) :
    Safe (Ahead p) (skipWhile kind p) := by
  induction p with
  | nil => exact absurd h List.not_mem_nil
  | cons ch rest ih =>
      rw [skipWhile]
      by_cases hch : kind ch = true
      · have hne : ch ≠ 0 := fun hzero => by rw [hzero, hkind] at hch; cases hch
        rw [if_pos hch]
        refine (ih ((Ahead.step hne rest).mem h)).mono ?_
        intro q hq
        exact (Ahead.step hne rest).trans hq
      · rw [if_neg hch]
        exact Ahead.refl _

theorem skipWhile_append {kind : UInt8 → Bool} {run : List UInt8} (hrun : ∀ ch ∈ run, kind ch)
    {stop : UInt8} (hstop : kind stop = false) (rest : List UInt8) :
    skipWhile kind (run ++ stop :: rest) = .ok (stop :: rest) := by
  induction run with
  | nil => rw [List.nil_append, skipWhile, if_neg (by rw [hstop]; decide)]
  | cons ch run ih =>
      rw [List.cons_append, skipWhile, if_pos (hrun ch List.mem_cons_self)]
      exact ih fun ch' hch' => hrun ch' (List.mem_cons_of_mem _ hch')

/-- Where a run of bytes has ended. -/
theorem eq_append_of_skipWhile {kind : UInt8 → Bool} {q : List UInt8}
    (h : skipWhile kind p = .ok q) :
    ∃ run, p = run ++ q ∧ (∀ ch ∈ run, kind ch) ∧ ∃ stop rest, q = stop :: rest ∧
      kind stop = false := by
  induction p with
  | nil => cases h
  | cons ch rest ih =>
      rw [skipWhile] at h
      by_cases hch : kind ch = true
      · rw [if_pos hch] at h
        rcases ih h with ⟨run, rfl, hrun, hstop⟩
        refine ⟨ch :: run, rfl, ?_, hstop⟩
        intro ch' hch'
        rcases List.mem_cons.mp hch' with rfl | hch'
        · exact hch
        · exact hrun ch' hch'
      · rw [if_neg hch] at h
        cases h
        exact ⟨[], rfl, fun _ h => absurd h List.not_mem_nil, ch, rest, rfl, by simpa using hch⟩

theorem cString_append {text : List UInt8} (htext : 0 ∉ text) (rest : List UInt8) :
    cString (text ++ 0 :: rest) = .ok text := by
  induction text with
  | nil => rw [List.nil_append, cString, if_pos rfl]
  | cons ch text ih =>
      rw [List.mem_cons, not_or] at htext
      rw [List.cons_append, cString, if_neg (fun h => htext.1 h.symm), ih htext.2]
      rfl

theorem strchr_safe (c : UInt8) (h : 0 ∈ p) :
    Safe (fun q => Ahead p q ∧ ∃ rest, q = c :: rest) (strchr c p) := by
  induction p with
  | nil => exact absurd h List.not_mem_nil
  | cons ch rest ih =>
      rw [strchr]
      by_cases hch : ch = c
      · rw [if_pos hch, hch]
        exact ⟨Ahead.refl _, rest, rfl⟩
      · rw [if_neg hch]
        by_cases hzero : ch = 0
        · rw [if_pos hzero]
          exact rfl
        · rw [if_neg hzero]
          refine (ih ((Ahead.step hzero rest).mem h)).mono ?_
          rintro q ⟨hq, hc⟩
          exact ⟨(Ahead.step hzero rest).trans hq, hc⟩

theorem strchr_append {c : UInt8} {front : List UInt8} (hzero : 0 ∉ front) (hc : c ∉ front)
    (rest : List UInt8) : strchr c (front ++ c :: rest) = .ok (c :: rest) := by
  induction front with
  | nil => rw [List.nil_append, strchr, if_pos rfl]
  | cons ch front ih =>
      rw [List.mem_cons, not_or] at hzero hc
      rw [List.cons_append, strchr, if_neg (fun h => hc.1 h.symm),
        if_neg (fun h => hzero.1 h.symm)]
      exact ih hzero.2 hc.2

/-- A search for a byte that occurs ends there, unless the byte occurs before. -/
theorem strchr_occurs {c : UInt8} {front : List UInt8} (hzero : 0 ∉ front) (rest : List UInt8) :
    ∃ q, strchr c (front ++ c :: rest) = .ok q ∧ (q = c :: rest ↔ c ∉ front) := by
  by_cases hc : c ∈ front
  · rcases List.eq_append_cons_of_mem hc with ⟨before, between, rfl, hbefore⟩
    have hclean : 0 ∉ before := fun h => hzero (List.mem_append_left _ h)
    -- The first occurrence leaves more of the text.
    refine ⟨c :: (between ++ c :: rest), ?_, ?_⟩
    · rw [List.append_assoc]
      exact strchr_append hclean hbefore _
    · refine ⟨fun hsame => ?_, fun hnot => absurd hc hnot⟩
      have hlength := congrArg List.length hsame
      simp only [List.length_cons, List.length_append] at hlength
      omega
  · exact ⟨c :: rest, strchr_append hzero hc rest, fun _ => hc, fun _ => rfl⟩

/-- A comparison with a text stops at the NUL. -/
theorem startsWith_eq {pattern : List UInt8} (hpattern : 0 ∉ pattern) (h : 0 ∈ p) :
    startsWith pattern p = .ok (decide (pattern <+: p)) := by
  induction pattern generalizing p with
  | nil => simp [startsWith]
  | cons c pattern ih =>
      rw [List.mem_cons, not_or] at hpattern
      cases p with
      | nil => exact absurd h List.not_mem_nil
      | cons ch rest =>
          rw [startsWith]
          by_cases hch : ch = c
          · have hrest := (Ahead.step (hch ▸ fun hzero => hpattern.1 hzero.symm) rest).mem h
            rw [if_pos hch, ih hpattern.2 hrest, hch]
            simp
          · rw [if_neg hch]
            simp [List.cons_prefix_cons, Ne.symm hch]

/-- A search stops at an occurrence, and at or before every other one. -/
theorem strstr_first {pattern : List UInt8} (hpattern : 0 ∉ pattern) (h : 0 ∈ p)
    {r : List UInt8} (hr : Ahead p r) (hoccurs : pattern <+: r) :
    ∃ q, strstr pattern p = .ok q ∧ Ahead p q ∧ pattern <+: q ∧ Ahead q r := by
  induction p with
  | nil => exact absurd h List.not_mem_nil
  | cons ch rest ih =>
      rw [strstr, startsWith_eq hpattern h]
      by_cases hhere : pattern <+: ch :: rest
      · refine ⟨ch :: rest, ?_, Ahead.refl _, hhere, hr⟩
        rw [decide_eq_true hhere]
        rfl
      -- The occurrence lies behind this byte, so the byte is not the NUL.
      · have hbehind := hr.behind fun hsame => hhere (hsame ▸ hoccurs)
        have hstep := Ahead.step hbehind.1 rest
        rcases ih (hstep.mem h) hbehind.2 with ⟨q, hq, hahead, hstarts, hfirst⟩
        refine ⟨q, ?_, hstep.trans hahead, hstarts, hfirst⟩
        rw [decide_eq_false hhere]
        simpa [bind, Except.bind, hbehind.1] using hq

/-- A search ends at an occurrence or refuses. -/
theorem strstr_safe {pattern : List UInt8} (hpattern : 0 ∉ pattern) (h : 0 ∈ p) :
    Safe (fun q => Ahead p q ∧ pattern <+: q) (strstr pattern p) := by
  induction p with
  | nil => exact absurd h List.not_mem_nil
  | cons ch rest ih =>
      rw [strstr, startsWith_eq hpattern h]
      by_cases hhere : pattern <+: ch :: rest
      · rw [decide_eq_true hhere]
        exact ⟨Ahead.refl _, hhere⟩
      · rw [decide_eq_false hhere]
        by_cases hzero : ch = 0
        · simp [bind, Except.bind, hzero, Safe]
        · simp only [bind, Except.bind, Bool.false_eq_true, if_false, if_neg hzero]
          refine (ih ((Ahead.step hzero rest).mem h)).mono ?_
          rintro q ⟨hq, hstarts⟩
          exact ⟨(Ahead.step hzero rest).trans hq, hstarts⟩

theorem readDigits_safe (value : Nat) (h : 0 ∈ p) :
    Safe (fun read => Ahead p read.2) (readDigits value p) := by
  induction p generalizing value with
  | nil => exact absurd h List.not_mem_nil
  | cons ch rest ih =>
      rw [readDigits]
      by_cases hch : isDigit ch = true
      · have hne : ch ≠ 0 := fun hzero => by rw [hzero] at hch; exact absurd hch (by decide)
        rw [if_pos hch]
        refine (ih _ ((Ahead.step hne rest).mem h)).mono ?_
        intro read hread
        exact (Ahead.step hne rest).trans hread
      · rw [if_neg hch]
        exact Ahead.refl _

theorem readSign_safe (h : 0 ∈ p) : Safe (fun read => Ahead p read.2) (readSign p) := by
  cases p with
  | nil => exact absurd h List.not_mem_nil
  | cons ch rest =>
      rw [readSign]
      by_cases hminus : ch = 45
      · rw [if_pos hminus]
        exact Ahead.step (hminus ▸ by decide) rest
      · rw [if_neg hminus]
        by_cases hplus : ch = 43
        · rw [if_pos hplus]
          exact Ahead.step (hplus ▸ by decide) rest
        · rw [if_neg hplus]
          exact Ahead.refl _

/-- A number ends at or before the NUL. -/
theorem strtoull_safe (h : 0 ∈ p) : Safe (fun read => Ahead p read.2) (strtoull p) := by
  -- Blanks, a sign and digits, each of which stops at or before the NUL.
  refine (skipWhile_safe (by decide) h).bind ?_
  intro start hstart
  refine (readSign_safe (hstart.mem h)).bind ?_
  rintro ⟨negative, digits⟩ hdigits
  have hto : Ahead p digits := hstart.trans hdigits
  refine (readDigits_safe 0 (hto.mem h)).bind ?_
  rintro ⟨value, stop⟩ hstop
  -- Without a digit the start is returned, and not where the sign has ended.
  by_cases hnone : stop.length = digits.length
  · simp only [if_pos hnone]
    exact Ahead.refl _
  · simp only [if_neg hnone]
    by_cases hbig : 2 ^ 64 ≤ value
    · rw [if_pos hbig]
      exact hto.trans hstop
    · rw [if_neg hbig]
      exact hto.trans hstop

end CText

end QrtEngine
