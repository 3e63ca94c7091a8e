import Mathlib.Algebra.GroupWithZero.Nat
import Mathlib.Data.List.Infix

/-!
# Lossy UTF-8

Reading bytes as text when not all of them are text. Bytes that cannot be continued to a character
are replaced: the longest beginning of a character counts as one, and so does every other byte. This
is what the standard libraries call a lossy conversion.

The bytes are read one at a time. What has been read so far is a text that stays as it is, whatever
comes next, and at most one character of which only the first bytes are there. If the bytes end
there, the character is replaced too, so the text of some bytes need not begin the text of more of
them. The text without that last replacement does.

An unfinished character is kept as the bits read so far, the number of bytes that are owed after the
next one, and the bounds of the next one. The bounds leave out every spelling that is too long, the
surrogates and what is beyond the last character, so however it is finished it is a character that
needs two bytes at least. The structure says so.

## Main definitions

* `Unfinished`: A character of which the first bytes were read.
* `Settled`, `settle`: What was read of some bytes.
* `fromUtf8Lossy`: The text of some bytes.

## Theorems

* `settle_append`: Reading more bytes goes on from what was read.
* `stable_isPrefix_fromUtf8Lossy`: What is settled begins the text of more bytes.
* `pending_next`: What stands there then for an unfinished character.
-/

namespace QrtEngine

namespace Utf8Lossy

/-- The character that replaces what is not one. -/
def replacement : Char := '\uFFFD'

/-- A character of which the first bytes were read: their bits, how many bytes are owed after the
    next one, and the bounds of the next one. Whatever is read, it is a character, and not one of
    a single byte. -/
structure Unfinished where
  bits : Nat
  owed : Nat
  lower : Nat
  upper : Nat
  valid : ∀ v, (bits * 64 + (lower - 0x80)) * 64 ^ owed ≤ v →
    v < (bits * 64 + (upper - 0x80) + 1) * 64 ^ owed → 0x80 ≤ v ∧ v.isValidChar

/-- The first byte of a character of more than one. -/
def lead (byte : Nat) : Option Unfinished :=
  if h : 0xC2 ≤ byte ∧ byte ≤ 0xDF then
    some { bits := byte - 0xC0, owed := 0, lower := 0x80, upper := 0xBF
           valid := by intro v hlow hhigh; unfold Nat.isValidChar; omega }
  else if byte = 0xE0 then
    some { bits := 0, owed := 1, lower := 0xA0, upper := 0xBF
           valid := by intro v hlow hhigh; unfold Nat.isValidChar; omega }
  else if h : 0xE1 ≤ byte ∧ byte ≤ 0xEC then
    some { bits := byte - 0xE0, owed := 1, lower := 0x80, upper := 0xBF
           valid := by intro v hlow hhigh; unfold Nat.isValidChar; omega }
  else if byte = 0xED then
    some { bits := 0xD, owed := 1, lower := 0x80, upper := 0x9F
           valid := by intro v hlow hhigh; unfold Nat.isValidChar; omega }
  else if h : 0xEE ≤ byte ∧ byte ≤ 0xEF then
    some { bits := byte - 0xE0, owed := 1, lower := 0x80, upper := 0xBF
           valid := by intro v hlow hhigh; unfold Nat.isValidChar; omega }
  else if byte = 0xF0 then
    some { bits := 0, owed := 2, lower := 0x90, upper := 0xBF
           valid := by intro v hlow hhigh; unfold Nat.isValidChar; omega }
  else if h : 0xF1 ≤ byte ∧ byte ≤ 0xF3 then
    some { bits := byte - 0xF0, owed := 2, lower := 0x80, upper := 0xBF
           valid := by intro v hlow hhigh; unfold Nat.isValidChar; omega }
  else if byte = 0xF4 then
    some { bits := 4, owed := 2, lower := 0x80, upper := 0x8F
           valid := by intro v hlow hhigh; unfold Nat.isValidChar; omega }
  else none

namespace Unfinished

/-- The bits with those of the next byte. -/
def added (char : Unfinished) (byte : Nat) : Nat := char.bits * 64 + (byte - 0x80)

/-- The byte can be the next one. -/
def Continues (char : Unfinished) (byte : Nat) : Prop := char.lower ≤ byte ∧ byte ≤ char.upper

instance instDecidableContinues (char : Unfinished) (byte : Nat) :
    Decidable (char.Continues byte) := inferInstanceAs (Decidable (_ ∧ _))

/-- The next byte is the last one: the bits are those of a character. -/
theorem added_valid (char : Unfinished) (byte : Nat) (h : char.Continues byte)
    (howed : char.owed = 0) : 0x80 ≤ char.added byte ∧ (char.added byte).isValidChar := by
  rcases h with ⟨hlower, hupper⟩
  refine char.valid (char.added byte) ?_ ?_
  · rw [howed, Nat.pow_zero, Nat.mul_one]
    unfold added
    omega
  · rw [howed, Nat.pow_zero, Nat.mul_one]
    unfold added
    omega

/-- The character when one more byte was read and others are owed. -/
def next (char : Unfinished) (byte owed : Nat) (h : char.Continues byte)
    (howed : char.owed = owed + 1) : Unfinished where
  bits := char.added byte
  owed := owed
  lower := 0x80
  upper := 0xBF
  valid := by
    rcases h with ⟨hlower, hupper⟩
    intro v hlow hhigh
    -- One more digit splits the range of what it can become into parts, and this is one of them.
    refine char.valid v ?_ ?_
    · refine Nat.le_trans ?_ hlow
      rw [howed, Nat.pow_succ', ← Nat.mul_assoc]
      refine Nat.mul_le_mul_right _ ?_
      unfold added
      omega
    · refine Nat.lt_of_lt_of_le hhigh ?_
      rw [howed, Nat.pow_succ', ← Nat.mul_assoc]
      refine Nat.mul_le_mul_right _ ?_
      unfold added
      omega

end Unfinished

/-- What was read of some bytes: the text that stays, and the character that is not finished. -/
structure Settled where
  stable : List Char
  pending : Option Unfinished

namespace Settled

/-- A byte after a text, between characters. -/
def start (stable : List Char) (byte : UInt8) : Settled :=
  if byte.toNat < 0x80 then { stable := stable ++ [Char.ofNat byte.toNat], pending := none }
  else
    match lead byte.toNat with
    | some char => { stable := stable, pending := some char }
    | none => { stable := stable ++ [replacement], pending := none }

/-- One more byte. One that does not continue the character that is not finished is read again,
    after the replacement of that one. -/
def step (settled : Settled) (byte : UInt8) : Settled :=
  match settled.pending with
  | none => start settled.stable byte
  | some char =>
      if h : char.Continues byte.toNat then
        match howed : char.owed with
        | 0 =>
            { stable := settled.stable ++ [Char.ofNat (char.added byte.toNat)], pending := none }
        | owed + 1 =>
            { settled with pending := some (char.next byte.toNat owed h howed) }
      else start (settled.stable ++ [replacement]) byte

/-- The text if there are no more bytes. -/
def text (settled : Settled) : List Char :=
  settled.stable ++ if settled.pending.isSome then [replacement] else []

end Settled

/-- Read some bytes. -/
def settle (bytes : List UInt8) : Settled :=
  bytes.foldl Settled.step { stable := [], pending := none }

/-- The text of some bytes. -/
def fromUtf8Lossy (bytes : List UInt8) : List Char := (settle bytes).text

/-! ## What stays -/

/-- Reading more bytes goes on from what was read. -/
theorem settle_append (bytes more : List UInt8) :
    settle (bytes ++ more) = more.foldl Settled.step (settle bytes) := List.foldl_append

namespace Settled

theorem start_stable (stable : List Char) (byte : UInt8) :
    stable <+: (start stable byte).stable := by
  unfold start
  split_ifs
  · exact List.prefix_append _ _
  · cases lead byte.toNat with
    | some char => exact List.prefix_refl _
    | none => exact List.prefix_append _ _

theorem step_stable (settled : Settled) (byte : UInt8) :
    settled.stable <+: (settled.step byte).stable := by
  unfold step
  cases settled.pending with
  | none => exact start_stable _ byte
  | some char =>
      dsimp only
      split_ifs with h
      · split
        · exact List.prefix_append _ _
        · exact List.prefix_refl _
      · exact (List.prefix_append _ _).trans (start_stable _ byte)

theorem foldl_stable (bytes : List UInt8) (settled : Settled) :
    settled.stable <+: (bytes.foldl step settled).stable := by
  induction bytes generalizing settled with
  | nil => exact List.prefix_refl _
  | cons byte bytes ih => exact (step_stable settled byte).trans (ih _)

theorem stable_isPrefix_text (settled : Settled) : settled.stable <+: settled.text :=
  List.prefix_append _ _

end Settled

/-- What is settled begins the text of more bytes. -/
theorem stable_isPrefix_fromUtf8Lossy (bytes more : List UInt8) :
    (settle bytes).stable <+: fromUtf8Lossy (bytes ++ more) := by
  unfold fromUtf8Lossy
  rw [settle_append]
  exact (Settled.foldl_stable more _).trans (Settled.stable_isPrefix_text _)

theorem stable_isPrefix_stable (bytes more : List UInt8) :
    (settle bytes).stable <+: (settle (bytes ++ more)).stable := by
  rw [settle_append]
  exact Settled.foldl_stable more _

/-! ## What an unfinished character becomes -/

theorem utf8Size_ofNat (v : Nat) (h : 0x80 ≤ v) (hvalid : v.isValidChar) :
    2 ≤ (Char.ofNat v).utf8Size := by
  have hval : (Char.ofNat v).val.toNat = v := by
    unfold Char.ofNat
    rw [dif_pos hvalid]
    rfl
  unfold Char.utf8Size
  dsimp only
  have hnot : ¬((Char.ofNat v).val ≤ UInt32.ofNatLT 0x7F (of_decide_eq_true rfl)) := by
    rw [UInt32.le_iff_toNat_le, hval]
    exact Nat.not_le.mpr h
  rw [if_neg hnot]
  split_ifs <;> omega

/-- A character that is not finished is replaced, or is finished to one of two bytes at least. -/
def Becomes (char : Char) : Prop := char = replacement ∨ 2 ≤ char.utf8Size

/-- One more byte decides what a character that is not finished becomes, or leaves it open. -/
theorem Settled.step_pending (settled : Settled) (byte : UInt8)
    (h : settled.pending.isSome = true) :
    (∃ char, Becomes char ∧ settled.stable ++ [char] <+: (settled.step byte).stable) ∨
      (settled.step byte).stable = settled.stable ∧
        (settled.step byte).pending.isSome = true := by
  obtain ⟨char, hchar⟩ := Option.isSome_iff_exists.mp h
  unfold step
  rw [hchar]
  dsimp only
  by_cases hcontinues : char.Continues byte.toNat
  · rw [dif_pos hcontinues]
    split
    · next howed =>
      rcases char.added_valid byte.toNat hcontinues howed with ⟨hmany, hvalid⟩
      exact .inl ⟨_, .inr (utf8Size_ofNat _ hmany hvalid), List.prefix_refl _⟩
    · exact .inr ⟨rfl, rfl⟩
  · rw [dif_neg hcontinues]
    exact .inl ⟨replacement, .inl rfl, start_stable _ byte⟩

/-- What stands, in the text of more bytes, for a character that is not finished. -/
theorem Settled.foldl_next (bytes : List UInt8) (settled : Settled)
    (h : settled.pending.isSome = true) :
    ∃ char, Becomes char ∧ settled.stable ++ [char] <+: (bytes.foldl step settled).text := by
  induction bytes generalizing settled with
  | nil =>
      refine ⟨replacement, .inl rfl, ?_⟩
      unfold text
      rw [List.foldl_nil, h, if_pos rfl]
  | cons byte bytes ih =>
      rw [List.foldl_cons]
      rcases step_pending settled byte h with ⟨char, hchar, hnext⟩ | ⟨hsame, hopen⟩
      · have hrest := (foldl_stable bytes (settled.step byte)).trans (stable_isPrefix_text _)
        exact ⟨char, hchar, hnext.trans hrest⟩
      · rw [← hsame]
        exact ih (settled.step byte) hopen

theorem pending_next (bytes more : List UInt8) (h : (settle bytes).pending.isSome = true) :
    ∃ char, Becomes char ∧
      (settle bytes).stable ++ [char] <+: fromUtf8Lossy (bytes ++ more) := by
  unfold fromUtf8Lossy
  rw [settle_append]
  exact Settled.foldl_next more (settle bytes) h

end Utf8Lossy

end QrtEngine
