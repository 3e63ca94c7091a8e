import QrtEngine.Library.JsonOrder
import QrtEngine.Library.JsonText
import QrtEngine.Server.Chat

/-!
# JSON in a Prompt

How a tool and an argument are written into a prompt: as the template engine of the model
writes JSON, with sorted keys, a space after each comma and colon, ASCII escapes for
everything else and escapes for the characters that mean something in markup. The tokens of a
prompt depend on every byte of it.

The JSON library itself, which the parser of tool calls takes as a parameter, is made of the
same values, with their parser and their compact writer.

The text can be read back, it has no character in it that could open or close markup, and it
is one text for all orders in which the members of an object may be iterated.

## Main definitions

* `jinjaTojson`: The text of a value.
* `PlainChar`: A printable ASCII character that means nothing in markup.
* `serdeJson`: The JSON library.

## Theorems

* `jinjaTojson_plain`: The text has plain characters only.
* `value_jinjaTojson`: The text is read back, with the members sorted.
* `jinjaTojson_of_reorders`: The order of members makes no difference.
* `jinjaTojson_faithful`: All of it, for values whose numbers are integers.
-/

namespace QrtEngine

namespace Chat

open Text Json

variable {F : Type} (floats : Floats F)

/-! ## The writer -/

/-- The characters with an escape of their own. -/
def namedEscapes : List (Char × Str) :=
  [('"', ['\\', '"']), ('\\', ['\\', '\\']), (Char.ofNat 8, ['\\', 'b']),
    (Char.ofNat 12, ['\\', 'f']), ('\n', ['\\', 'n']), ('\r', ['\\', 'r']),
    ('\t', ['\\', 't']), ('<', "\\u003c".toList), ('>', "\\u003e".toList),
    ('&', "\\u0026".toList), ('\'', "\\u0027".toList)]

/-- The escape of any other character that is not printable ASCII. -/
def scalarEscape (scalar : Nat) : Str :=
  if scalar ≤ 0xFFFF then '\\' :: 'u' :: hexText scalar
  else
    -- Two halves, of ten bits each.
    let surrogate := scalar - 0x10000
    let high := 0xD800 + surrogate / 1024
    let low := 0xDC00 + surrogate % 1024
    '\\' :: 'u' :: (hexText high ++ '\\' :: 'u' :: hexText low)

/-- A character in a string. -/
def pushChar (c : Char) : Str :=
  match namedEscapes.lookup c with
  | some text => text
  | none => if ' ' ≤ c ∧ c ≤ '~' then [c] else scalarEscape c.toNat

/-- A string. -/
def pushString (s : Str) : Str := '"' :: (s.flatMap pushChar ++ ['"'])

mutual

/-- A value. Members are sorted by their keys with their texts at hand, which is the same as
    sorting them before. -/
def pushValue : Value F → Str
  | .null => "null".toList
  | .bool b => if b then "true".toList else "false".toList
  | .int n => integerText n.val
  | .float x => floats.write x
  | .string s => pushString s
  | .array values => '[' :: ([',', ' '].intercalate (pushValues values) ++ [']'])
  | .object entries =>
      '{' :: ([',', ' '].intercalate ((sortEntries (pushEntries entries)).map fun entry =>
        pushString entry.1 ++ ':' :: ' ' :: entry.2) ++ ['}'])

/-- The texts of elements. -/
def pushValues : List (Value F) → List Str
  | [] => []
  | v :: values => pushValue v :: pushValues values

/-- The keys of members with the texts of their values. -/
def pushEntries : List (Str × Value F) → List (Str × Str)
  | [] => []
  | (key, v) :: entries => (key, pushValue v) :: pushEntries entries

end

/-- The text of a value in a prompt. -/
def jinjaTojson (v : Value F) : Str := pushValue floats v

theorem pushValues_eq_map (values : List (Value F)) :
    pushValues floats values = values.map (pushValue floats) := by
  induction values with
  | nil => rfl
  | cons v values ih => rw [pushValues, List.map_cons, ih]

theorem pushEntries_eq_map (entries : List (Str × Value F)) :
    pushEntries floats entries = entries.map fun e => (e.1, pushValue floats e.2) := by
  induction entries with
  | nil => rfl
  | cons e entries ih => rw [pushEntries, List.map_cons, ih]

/-- A member. -/
def pushEntry (entry : Str × Value F) : Str :=
  pushString entry.1 ++ ':' :: ' ' :: pushValue floats entry.2

/-- An object: its members are sorted, and then written one after the other. -/
theorem pushValue_object (entries : List (Str × Value F)) :
    pushValue floats (.object entries) =
      '{' :: ([',', ' '].intercalate ((sortEntries entries).map (pushEntry floats)) ++ ['}']) := by
  rw [pushValue, pushEntries_eq_map, sortEntries_map, List.map_map]
  rfl

theorem pushValue_array (values : List (Value F)) :
    pushValue floats (.array values) =
      '[' :: ([',', ' '].intercalate (values.map (pushValue floats)) ++ [']']) := by
  rw [pushValue, pushValues_eq_map]

/-! ## The library -/

/-- The member of an object with a key. -/
def getMember (v : Value F) (key : Str) : Option (Value F) :=
  match v with
  | .object entries => lookup key entries
  | _ => none

/-- The text of a string. -/
def asText : Value F → Option Str
  | .string s => some s
  | _ => none

/-- The members of an object. -/
def asObject : Value F → Option (List (Str × Value F))
  | .object entries => some entries
  | _ => none

/-- An object with one more member, in the place of one with the same key. -/
def insertMember (v : Value F) (key : Str) (member : Value F) : Value F :=
  match v with
  | .object entries => .object (insertEntry key member entries)
  | other => other

/-- The JSON library: maps order their keys, and every value can be written. -/
def serdeJson : Serde (Value F) where
  fromStr := fromStr floats
  toString v := some (compact floats v)
  get := getMember
  asStr := asText
  isObject v := (asObject v).isSome
  string := .string
  emptyObject := .object []
  insert := insertMember

/-! ## Plain characters -/

/-- A printable ASCII character that means nothing in markup. -/
def PlainChar (c : Char) : Prop :=
  ' ' ≤ c ∧ c ≤ '~' ∧ c ≠ '<' ∧ c ≠ '>' ∧ c ≠ '&' ∧ c ≠ '\''

instance (c : Char) : Decidable (PlainChar c) :=
  inferInstanceAs (Decidable (' ' ≤ c ∧ c ≤ '~' ∧ c ≠ '<' ∧ c ≠ '>' ∧ c ≠ '&' ∧ c ≠ '\''))

theorem plainChar_hexDigit (n : Nat) (h : n < 16) : PlainChar (hexDigit n) := by
  have hall : ∀ m : Fin 16, PlainChar (hexDigit m) := by decide
  exact hall ⟨n, h⟩

theorem plainChar_hexText (n : Nat) : ∀ c ∈ hexText n, PlainChar c := by
  intro c hc
  simp only [hexText, List.mem_cons, List.not_mem_nil, or_false] at hc
  rcases hc with rfl | rfl | rfl | rfl <;>
    exact plainChar_hexDigit _ (Nat.mod_lt _ (by decide))

/-- An escape is written with plain characters. -/
theorem plainChar_escape (n : Nat) : ∀ c ∈ '\\' :: 'u' :: hexText n, PlainChar c := by
  intro c hc
  rcases List.mem_cons.mp hc with rfl | hc
  · decide
  rcases List.mem_cons.mp hc with rfl | hc
  · decide
  · exact plainChar_hexText n c hc

theorem plainChar_scalarEscape (scalar : Nat) : ∀ c ∈ scalarEscape scalar, PlainChar c := by
  unfold scalarEscape
  by_cases hbmp : scalar ≤ 0xFFFF
  · rw [if_pos hbmp]
    exact plainChar_escape scalar
  · rw [if_neg hbmp]
    intro c hc
    rcases List.mem_append.mp (show c ∈ ('\\' :: 'u' :: hexText _) ++ _ from hc) with hc | hc
    · exact plainChar_escape _ c hc
    · exact plainChar_escape _ c hc

/-- A character without an escape of its own is none of those with one. -/
theorem ne_of_lookup_none (c : Char) (h : namedEscapes.lookup c = none) :
    ∀ d ∈ namedEscapes.map Prod.fst, c ≠ d := by
  intro d hd heq
  rcases List.mem_map.mp hd with ⟨p, hp, rfl⟩
  rw [List.lookup_eq_none_iff] at h
  exact absurd (h p hp) (by simp [heq])

theorem mem_of_lookup_some (c : Char) (text : Str) (h : namedEscapes.lookup c = some text) :
    (c, text) ∈ namedEscapes := by
  rcases List.lookup_eq_some_iff.mp h with ⟨before, after, hsplit, -⟩
  rw [hsplit]
  exact List.mem_append_right before List.mem_cons_self

theorem plainChar_pushChar (c : Char) : ∀ d ∈ pushChar c, PlainChar d := by
  unfold pushChar
  cases h : namedEscapes.lookup c with
  | some text =>
      have hnamed : ∀ p ∈ namedEscapes, p.2.all (fun d => decide (PlainChar d)) = true :=
        forall_mem_of_all _ _ (by decide)
      exact forall_mem_of_all _ _ (hnamed (c, text) (mem_of_lookup_some c text h))
  | none =>
      have hne := ne_of_lookup_none c h
      dsimp only
      by_cases hplain : ' ' ≤ c ∧ c ≤ '~'
      · rw [if_pos hplain]
        intro d hd
        rw [List.mem_singleton.mp hd]
        exact ⟨hplain.1, hplain.2, hne '<' (by decide), hne '>' (by decide),
          hne '&' (by decide), hne '\'' (by decide)⟩
      · rw [if_neg hplain]
        exact plainChar_scalarEscape _

theorem plainChar_pushString (s : Str) : ∀ c ∈ pushString s, PlainChar c := by
  intro c hc
  simp only [pushString, List.mem_cons, List.mem_append, List.mem_flatMap, List.not_mem_nil,
    or_false] at hc
  rcases hc with rfl | ⟨d, -, hc⟩ | rfl
  · decide
  · exact plainChar_pushChar d c hc
  · decide

theorem plainChar_numberChars : ∀ c ∈ numberChars, PlainChar c :=
  forall_mem_of_all _ _ (by decide)

theorem plainChar_intercalate (texts : List Str) (h : ∀ text ∈ texts, ∀ c ∈ text, PlainChar c) :
    ∀ c ∈ [',', ' '].intercalate texts, PlainChar c := by
  induction texts with
  | nil => exact fun c hc => absurd hc (by simp [List.intercalate])
  | cons text texts ih =>
      have hrest := ih fun text' htext' => h text' (List.mem_cons_of_mem text htext')
      cases texts with
      | nil =>
          rw [List.intercalate_singleton]
          exact h text List.mem_cons_self
      | cons text' texts =>
          intro c hc
          rw [List.intercalate_cons_cons, List.append_assoc] at hc
          rcases List.mem_append.mp hc with hc | hc
          · exact h text List.mem_cons_self c hc
          rcases List.mem_append.mp hc with hc | hc
          · have hseparator : ∀ d ∈ [',', ' '], PlainChar d :=
              forall_mem_of_all _ _ (by decide)
            exact hseparator c hc
          · exact hrest c hc

/-- The text of a value has plain characters only. -/
theorem jinjaTojson_plain (v : Value F) : ∀ c ∈ jinjaTojson floats v, PlainChar c := by
  unfold jinjaTojson
  induction v with
  | null =>
      have hnull : ∀ c ∈ "null".toList, PlainChar c := forall_mem_of_all _ _ (by decide)
      exact hnull
  | bool b =>
      have hbool : ∀ c ∈ (if b then "true".toList else "false".toList), PlainChar c := by
        cases b <;> exact forall_mem_of_all _ _ (by decide)
      exact hbool
  | int n =>
      intro c hc
      simp only [pushValue, integerText, List.mem_append] at hc
      rcases hc with hc | hc
      · split_ifs at hc
        · rw [List.mem_singleton.mp hc]
          decide
        · exact absurd hc List.not_mem_nil
      · exact plainChar_numberChars c (isDigit_mem_numberChars c
          (Nat.isDigit_of_mem_toDigits (by decide) (by decide) hc))
  | float x => exact fun c hc => plainChar_numberChars c (floats.write_chars x c hc)
  | string s => exact plainChar_pushString s
  | array values ih =>
      intro c hc
      rw [pushValue_array] at hc
      -- The brackets and separators are plain, and so are the texts of the elements.
      rcases List.mem_cons.mp hc with rfl | hc
      · decide
      rcases List.mem_append.mp hc with hc | hc
      · refine plainChar_intercalate _ (fun text htext => ?_) c hc
        rcases List.mem_map.mp htext with ⟨v, hv, rfl⟩
        exact ih v hv
      · rw [List.mem_singleton.mp hc]
        decide
  | object entries ih =>
      intro c hc
      rw [pushValue_object] at hc
      rcases List.mem_cons.mp hc with rfl | hc
      · decide
      rcases List.mem_append.mp hc with hc | hc
      · refine plainChar_intercalate _ (fun text htext => ?_) c hc
        rcases List.mem_map.mp htext with ⟨e, he, rfl⟩
        intro c hc
        rcases List.mem_append.mp hc with hc | hc
        · exact plainChar_pushString e.1 c hc
        rcases List.mem_cons.mp hc with rfl | hc
        · decide
        rcases List.mem_cons.mp hc with rfl | hc
        · decide
        · exact ih e ((sortEntries_perm entries).mem_iff.mp he) c hc
      · rw [List.mem_singleton.mp hc]
        decide

/-! ## Reading strings back -/

/-- A scalar value is no half of a surrogate pair. -/
theorem toNat_not_surrogate (c : Char) :
    c.toNat < 0xD800 ∨ 0xE000 ≤ c.toNat ∧ c.toNat < 0x110000 := by
  rcases c.valid with h | ⟨h, h'⟩
  · exact .inl h
  · exact .inr ⟨Nat.succ_le_of_lt h, h'⟩

/-- A unit that is no half of a pair is read back. -/
theorem unicodeEscape_unit (unit : Nat) (rest : Str) (h : unit < 0xD800 ∨ 0xE000 ≤ unit)
    (hunit : unit < 65536) :
    unicodeEscape (hexText unit ++ rest) = some (Char.ofNat unit, rest) := by
  unfold unicodeEscape
  rw [hexQuad_hexText unit hunit rest]
  dsimp only
  rw [if_neg (by omega), if_neg (by omega)]

theorem lowSurrogate_hexText (low : Nat) (rest : Str) (h : 0xDC00 ≤ low ∧ low < 0xE000) :
    lowSurrogate ('\\' :: 'u' :: (hexText low ++ rest)) = some (low, rest) := by
  rw [lowSurrogate, hexQuad_hexText low (by omega)]
  dsimp only
  rw [if_pos h]

/-- Two halves are read back together. -/
theorem unicodeEscape_pair (high low : Nat) (rest : Str) (hhigh : 0xD800 ≤ high ∧ high < 0xDC00)
    (hlow : 0xDC00 ≤ low ∧ low < 0xE000) :
    unicodeEscape (hexText high ++ '\\' :: 'u' :: (hexText low ++ rest)) =
      some (Char.ofNat (0x10000 + (high - 0xD800) * 0x400 + (low - 0xDC00)), rest) := by
  unfold unicodeEscape
  rw [hexQuad_hexText high (by omega)]
  dsimp only
  rw [if_pos hhigh, lowSurrogate_hexText low rest hlow, Option.map_some]

/-- The two halves of a scalar value put together are the value again. -/
theorem halves_eq (n : Nat) (h : 65536 ≤ n) :
    0x10000 + (0xD800 + (n - 0x10000) / 1024 - 0xD800) * 0x400 +
      (0xDC00 + (n - 0x10000) % 1024 - 0xDC00) = n := by
  omega

/-- The escape of a scalar value is read back as its character. -/
theorem escape_scalarEscape (c : Char) (rest : Str) :
    ∃ tail, scalarEscape c.toNat = '\\' :: tail ∧ escape (tail ++ rest) = some (c, rest) := by
  have hscalar := toNat_not_surrogate c
  unfold scalarEscape
  by_cases hbmp : c.toNat ≤ 0xFFFF
  · rw [if_pos hbmp]
    refine ⟨_, rfl, ?_⟩
    rw [List.cons_append, escape, if_pos rfl, unicodeEscape_unit c.toNat rest (by omega) (by omega),
      Char.ofNat_toNat]
  · rw [if_neg hbmp]
    refine ⟨_, rfl, ?_⟩
    rw [List.cons_append, escape, if_pos rfl, List.append_assoc, List.cons_append,
      List.cons_append, unicodeEscape_pair _ _ rest (by omega) (by omega),
      halves_eq c.toNat (by omega), Char.ofNat_toNat]

/-- The escapes of their own are read back. -/
theorem escape_namedEscapes (p : Char × Str) (h : p ∈ namedEscapes) (rest : Str) :
    ∃ tail, p.2 = '\\' :: tail ∧ escape (tail ++ rest) = some (p.1, rest) := by
  simp only [namedEscapes, List.mem_cons, List.not_mem_nil, or_false] at h
  rcases h with rfl | rfl | rfl | rfl | rfl | rfl | rfl | rfl | rfl | rfl | rfl <;>
    exact ⟨_, rfl, rfl⟩

/-- A written character is read back as one character. -/
theorem stringBody_pushChar (fuel : Nat) (c : Char) (rest : Str) :
    stringBody (fuel + 1) (pushChar c ++ rest) =
      (stringBody fuel rest).map fun (s, rest) => (c :: s, rest) := by
  unfold pushChar
  cases h : namedEscapes.lookup c with
  | some text =>
      rcases escape_namedEscapes (c, text) (mem_of_lookup_some c text h) rest with
        ⟨tail, htext, hread⟩
      dsimp only at htext hread ⊢
      rw [htext, List.cons_append, stringBody, if_neg (by decide), if_pos rfl, hread]
  | none =>
      have hne := ne_of_lookup_none c h
      dsimp only
      by_cases hplain : ' ' ≤ c ∧ c ≤ '~'
      · rw [if_pos hplain, List.cons_append, List.nil_append, stringBody,
          if_neg (hne '"' (by decide)), if_neg (hne '\\' (by decide)), if_neg]
        have hspace : 32 ≤ c.toNat := hplain.1
        omega
      · rw [if_neg hplain]
        rcases escape_scalarEscape c rest with ⟨tail, htext, hread⟩
        rw [htext, List.cons_append, stringBody, if_neg (by decide), if_pos rfl, hread]

/-- A written string is read back. -/
theorem stringBody_pushString (s rest : Str) (fuel : Nat) (h : s.length < fuel) :
    stringBody fuel (s.flatMap pushChar ++ '"' :: rest) = some (s, rest) := by
  induction s generalizing fuel with
  | nil =>
      cases fuel with
      | zero => exact absurd h (by simp)
      | succ fuel => simp [stringBody]
  | cons c s ih =>
      cases fuel with
      | zero => exact absurd h (by simp)
      | succ fuel =>
          rw [List.flatMap_cons, List.append_assoc, stringBody_pushChar, ih fuel (by simpa using h)]
          rfl

/-! ## Reading values back -/

theorem pushChar_ne_nil (c : Char) : pushChar c ≠ [] := by
  have hnamed : ∀ p ∈ namedEscapes, p.2 ≠ [] := by decide
  unfold pushChar
  cases h : namedEscapes.lookup c with
  | some text => exact hnamed (c, text) (mem_of_lookup_some c text h)
  | none =>
      dsimp only
      unfold scalarEscape
      split_ifs <;> exact List.cons_ne_nil _ _

theorem length_le_flatMap_pushChar (s : Str) : s.length ≤ (s.flatMap pushChar).length := by
  induction s with
  | nil => exact Nat.zero_le _
  | cons c s ih =>
      have hpos := List.length_pos_of_ne_nil (pushChar_ne_nil c)
      rw [List.flatMap_cons, List.length_append, List.length_cons]
      omega

theorem integerText_cons (n : Int) : ∃ c rest, integerText n = c :: rest ∧ c ∈ numberChars := by
  unfold integerText
  by_cases hneg : n < 0
  · rw [if_pos hneg]
    exact ⟨'-', _, rfl, by decide⟩
  · rw [if_neg hneg, List.nil_append]
    cases hdigits : Nat.toDigits 10 n.natAbs with
    | nil => exact absurd hdigits Nat.toDigits_ne_nil
    | cons c ds =>
        refine ⟨c, ds, rfl, isDigit_mem_numberChars c ?_⟩
        exact Nat.isDigit_of_mem_toDigits (b := 10) (n := n.natAbs) (by decide) (by decide)
          (by rw [hdigits]; exact List.mem_cons_self)

/-- The text of a value begins with a character that is neither white space nor a closing
    bracket. -/
theorem pushValue_cons (v : Value F) (h : v.Integral) :
    ∃ c rest, pushValue floats v = c :: rest ∧ isSpace c = false ∧ c ≠ ']' := by
  cases h with
  | null => exact ⟨'n', "ull".toList, rfl, by decide, by decide⟩
  | bool b => cases b <;> exact ⟨_, _, rfl, by decide, by decide⟩
  | int n =>
      have hall : ∀ c ∈ numberChars, isSpace c = false ∧ c ≠ ']' :=
        forall_mem_of_all _ _ (by decide)
      rcases integerText_cons n.val with ⟨c, rest, htext, hc⟩
      exact ⟨c, rest, htext, hall c hc⟩
  | string s => exact ⟨'"', _, rfl, by decide, by decide⟩
  | array values _ => exact ⟨'[', _, rfl, by decide, by decide⟩
  | object entries _ => exact ⟨'{', _, rfl, by decide, by decide⟩

theorem value_string (s rest : Str) (fuel : Nat) (h : (pushString s ++ rest).length ≤ fuel) :
    value floats fuel (pushString s ++ rest) = some (.string s, rest) := by
  have hlen := length_le_flatMap_pushChar s
  simp only [pushString, List.cons_append, List.append_assoc, List.length_cons,
    List.length_append, List.nil_append] at h ⊢
  cases fuel with
  | zero => exact absurd h (by simp)
  | succ fuel =>
      rw [value, if_neg (by decide), if_neg (by decide), if_neg (by decide), if_pos rfl,
        stringBody_pushString s rest fuel (by omega)]
      rfl

theorem value_integer (n : Integer) (rest : Str) (hrest : Ends rest) (fuel : Nat)
    (h : (integerText n.val ++ rest).length ≤ fuel) :
    value floats fuel (integerText n.val ++ rest) = some (.int n, rest) := by
  have hnumber := number_integerText floats n rest hrest
  rcases integerText_cons n.val with ⟨c, tail, htext, hc⟩
  rw [htext, List.cons_append] at h hnumber ⊢
  cases fuel with
  | zero => exact absurd h (by simp)
  | succ fuel =>
      -- The first character decides that it is a number.
      have hall : ∀ c ∈ numberChars,
          c ≠ 'n' ∧ c ≠ 't' ∧ c ≠ 'f' ∧ c ≠ '"' ∧ c ≠ '[' ∧ c ≠ '{' :=
        forall_mem_of_all _ _ (by decide)
      rcases hall c hc with ⟨h1, h2, h3, h4, h5, h6⟩
      rw [value, if_neg h1, if_neg h2, if_neg h3, if_neg h4, if_neg h5, if_neg h6, hnumber]

theorem isSpace_separator : ∀ c ∈ [' '], isSpace c = true := forall_mem_of_all _ _ (by decide)

/-- A member is read back if its value is. -/
theorem member_pushEntry (entry : Str × Value F) (w : Value F) (fuel : Nat) (rest : Str)
    (hsolid : Solid (pushValue floats entry.2))
    (hvalue : value floats fuel (pushValue floats entry.2 ++ rest) = some (w, rest))
    (h : (pushEntry floats entry ++ rest).length ≤ fuel) :
    member fuel (value floats fuel) (pushEntry floats entry ++ rest) =
      some ((entry.1, w), rest) := by
  have hlen := length_le_flatMap_pushChar entry.1
  have hspace := skipSpace_of_solid [' '] (pushValue floats entry.2) rest
    isSpace_separator hsolid
  simp only [pushEntry, pushString, List.cons_append, List.append_assoc, List.length_cons,
    List.length_append, List.nil_append] at h hspace ⊢
  rw [member, stringBody_pushString entry.1 _ fuel (by omega)]
  simp only [bind, Option.bind_some]
  rw [skipSpace_cons ':' _ (by decide)]
  simp only [hspace, hvalue, Option.bind_some, pure]

/-- The text of a value is read back before anything that ends a number, with the members of
    objects sorted. -/
def TextRead (v : Value F) : Prop :=
  ∀ rest, Ends rest → ∀ fuel, (pushValue floats v ++ rest).length ≤ fuel →
    value floats fuel (pushValue floats v ++ rest) = some (v.sorted, rest)

/-- An array is read back if its elements are. -/
theorem textRead_array (values : List (Value F)) (hvalues : ∀ v ∈ values, v.Integral)
    (hreads : ∀ v ∈ values, TextRead floats v) : TextRead floats (.array values) := by
  intro rest hrest fuel hfuel
  rw [pushValue_array, List.cons_append, List.append_assoc] at hfuel ⊢
  cases fuel with
  | zero => exact absurd hfuel (by simp)
  | succ fuel =>
      -- Each element is read from its own text, and no text begins with the closing bracket.
      have hread : ReadsBack (value floats fuel) fuel
          (values.map fun v => (v.sorted, pushValue floats v)) := by
        intro p hp
        rcases List.mem_map.mp hp with ⟨v, hmem, rfl⟩
        rcases pushValue_cons floats v (hvalues v hmem) with ⟨c, tail, htext, hc, -⟩
        exact ⟨⟨c, tail, htext, hc⟩, fun r hr hlen => hreads v hmem r hr fuel hlen⟩
      have hfirst : ∀ p ∈ values.map (fun v => (v.sorted, pushValue floats v)),
          p.2.head? ≠ some ']' := by
        intro p hp
        rcases List.mem_map.mp hp with ⟨v, hmem, rfl⟩
        rcases pushValue_cons floats v (hvalues v hmem) with ⟨c, tail, htext, -, hc⟩
        simpa [htext] using hc
      have htexts : (values.map fun v => (v.sorted, pushValue floats v)).map Prod.snd =
          values.map (pushValue floats) := List.map_map
      have hvalues' : (values.map fun v => (v.sorted, pushValue floats v)).map Prod.fst =
          sortedList values := by
        rw [sortedList_eq_map]
        exact List.map_map
      have henclosed := enclosed_intercalate (value floats fuel) ']' (by decide) (by decide)
        (by decide) [' '] isSpace_separator fuel _ hread hfirst rest (by
          rw [htexts]
          exact Nat.le_of_succ_le_succ hfuel)
      rw [htexts, hvalues'] at henclosed
      rw [value, if_neg (by decide), if_neg (by decide), if_neg (by decide),
        if_neg (by decide), if_pos rfl, List.cons_append, List.nil_append, henclosed]
      rfl

/-- An object is read back if the values of its members are. -/
theorem textRead_object (entries : List (Str × Value F)) (hentries : ∀ e ∈ entries, e.2.Integral)
    (hreads : ∀ e ∈ entries, TextRead floats e.2) : TextRead floats (.object entries) := by
  intro rest hrest fuel hfuel
  rw [pushValue_object, List.cons_append, List.append_assoc] at hfuel ⊢
  cases fuel with
  | zero => exact absurd hfuel (by simp)
  | succ fuel =>
      -- The members are written in sorted order, so they are read in it.
      have hmem : ∀ e ∈ sortEntries entries, e ∈ entries :=
        fun e he => (sortEntries_perm entries).mem_iff.mp he
      have hread : ReadsBack (member fuel (value floats fuel)) fuel
          ((sortEntries entries).map fun e => ((e.1, e.2.sorted), pushEntry floats e)) := by
        intro p hp
        rcases List.mem_map.mp hp with ⟨e, he, rfl⟩
        rcases pushValue_cons floats e.2 (hentries e (hmem e he)) with ⟨c, tail, htext, hc, -⟩
        refine ⟨⟨'"', _, rfl, by decide⟩, fun r hr hlen => ?_⟩
        refine member_pushEntry floats e e.2.sorted fuel r ⟨c, tail, htext, hc⟩ ?_ hlen
        refine hreads e (hmem e he) r hr fuel (Nat.le_trans ?_ hlen)
        simp only [pushEntry, List.length_append, List.length_cons]
        omega
      have htexts : ((sortEntries entries).map fun e =>
          ((e.1, e.2.sorted), pushEntry floats e)).map Prod.snd =
          (sortEntries entries).map (pushEntry floats) := List.map_map
      have hvalues : ((sortEntries entries).map fun e =>
          ((e.1, e.2.sorted), pushEntry floats e)).map Prod.fst =
          sortEntries (sortedEntries entries) := by
        rw [sortedEntries_eq_map, sortEntries_map]
        exact List.map_map
      have hfirst : ∀ p ∈ (sortEntries entries).map (fun e =>
          ((e.1, e.2.sorted), pushEntry floats e)), p.2.head? ≠ some '}' := by
        intro p hp
        rcases List.mem_map.mp hp with ⟨e, -, rfl⟩
        simp [pushEntry, pushString]
      have henclosed := enclosed_intercalate (member fuel (value floats fuel)) '}'
        (by decide) (by decide) (by decide) [' '] isSpace_separator fuel _ hread hfirst rest (by
          rw [htexts]
          exact Nat.le_of_succ_le_succ hfuel)
      rw [htexts, hvalues] at henclosed
      rw [value, if_neg (by decide), if_neg (by decide), if_neg (by decide),
        if_neg (by decide), if_neg (by decide), if_pos rfl, List.cons_append,
        List.nil_append, henclosed]
      rfl

/-- The text of every value is read back. -/
theorem value_pushValue (v : Value F) (hv : v.Integral) : TextRead floats v := by
  induction v with
  | null =>
      intro rest hrest fuel hfuel
      cases fuel with
      | zero => exact absurd hfuel (by simp [pushValue])
      | succ fuel => simp [pushValue, value, afterWord, Value.sorted]
  | bool b =>
      intro rest hrest fuel hfuel
      cases fuel with
      | zero => cases b <;> exact absurd hfuel (by simp [pushValue])
      | succ fuel => cases b <;> simp [pushValue, value, afterWord, Value.sorted]
  | int n => exact fun rest hrest fuel hfuel => value_integer floats n rest hrest fuel hfuel
  | float x => cases hv
  | string s => exact fun rest _ fuel hfuel => value_string floats s rest fuel hfuel
  | array values ih =>
      cases hv with
      | array _ hvalues =>
          exact textRead_array floats values hvalues fun v hmem => ih v hmem (hvalues v hmem)
  | object entries ih =>
      cases hv with
      | object _ hentries =>
          exact textRead_object floats entries hentries fun e he => ih e he (hentries e he)

/-- The text of a value is the text of a document: the value with its members sorted. -/
theorem document_jinjaTojson (v : Value F) (hv : v.Integral) :
    document floats (jinjaTojson floats v) = some v.sorted := by
  rcases pushValue_cons floats v hv with ⟨c, tail, htext, hc, -⟩
  refine (document_eq_some_iff floats _ _).mpr ⟨_, [], Nat.le_refl _, ?_, rfl⟩
  have hspace := skipSpace_of_solid [] (pushValue floats v) []
    (fun d hd => absurd hd List.not_mem_nil) ⟨c, tail, htext, hc⟩
  rw [List.nil_append, List.append_nil] at hspace
  have hvalue := value_pushValue floats v hv [] ends_nil (jinjaTojson floats v).length (by
    rw [List.append_nil]
    exact Nat.le_refl _)
  rw [List.append_nil] at hvalue
  unfold jinjaTojson at hvalue ⊢
  rw [hspace, hvalue]

/-- A value with its keys in order is read back from its text. -/
theorem fromStr_jinjaTojson (v : Value F) (hv : v.Integral) (hordered : v.Ordered) :
    fromStr floats (jinjaTojson floats v) = some v := by
  unfold fromStr
  rw [document_jinjaTojson floats v hv, sorted_of_ordered v hordered, Option.map_some,
    normalize_of_ordered v hordered]

/-- The order of members makes no difference. -/
theorem jinjaTojson_of_reorders (v w : Value F) (h : v.Reorders w) (hv : v.Distinct) :
    jinjaTojson floats v = jinjaTojson floats w := by
  unfold jinjaTojson
  induction h with
  | refl v => rfl
  | trans u v w huv _ ihuv ihvw => exact (ihuv hv).trans (ihvw (huv.distinct hv))
  | element before after v w _ ih =>
      cases hv with
      | array _ hvalues =>
          rw [pushValue_array, pushValue_array, List.map_append, List.map_append, List.map_cons,
            List.map_cons, ih (hvalues v (List.mem_append_right _ List.mem_cons_self))]
  | member before after key v w _ ih =>
      cases hv with
      | object _ hkeys hentries =>
          have hsame : pushEntries floats (before ++ (key, v) :: after) =
              pushEntries floats (before ++ (key, w) :: after) := by
            rw [pushEntries_eq_map, pushEntries_eq_map, List.map_append, List.map_append,
              List.map_cons, List.map_cons,
              ih (hentries (key, v) (List.mem_append_right _ List.mem_cons_self))]
          rw [pushValue, pushValue, hsame]
  | places entries entries' hperm =>
      cases hv with
      | object _ hkeys _ =>
          -- Members with different keys have one sorted order, with their texts at hand.
          have hsorted : sortEntries (pushEntries floats entries) =
              sortEntries (pushEntries floats entries') := by
            rw [pushEntries_eq_map, pushEntries_eq_map]
            refine sortEntries_eq_of_perm _ _ (hperm.map _) ?_
            rw [List.map_map]
            exact hkeys
          rw [pushValue, pushValue, hsorted]

/-- The text of a value whose numbers are integers, whatever the order of its members: plain
    characters, read back as the same value with increasing keys, and the same text for every
    other order. A value that has its keys in order, as a map that orders them does, is read
    back as it was. -/
theorem jinjaTojson_faithful (v : Value F) (hv : v.Integral) (hdistinct : v.Distinct) :
    (∀ c ∈ jinjaTojson floats v, PlainChar c) ∧
      (∃ w, document floats (jinjaTojson floats v) = some w ∧ w.Ordered ∧ v.Reorders w) ∧
      (v.Ordered → fromStr floats (jinjaTojson floats v) = some v) ∧
      ∀ w, v.Reorders w → jinjaTojson floats v = jinjaTojson floats w :=
  ⟨jinjaTojson_plain floats v,
    ⟨v.sorted, document_jinjaTojson floats v hv, sorted_ordered v hdistinct, reorders_sorted v⟩,
    fromStr_jinjaTojson floats v hv,
    fun w h => jinjaTojson_of_reorders floats v w h hdistinct⟩

/-- Numbers that are never floats. -/
def noFloats : Floats Empty where
  read _ := none
  write x := nomatch x
  write_chars x := nomatch x

/-- An object with its keys out of order, markup and a character outside the basic plane in a
    string, and an array. -/
def sampleValue : Value Empty :=
  .object [("b".toList, .string ['<', Char.ofNat 0x1F600]),
    ("a".toList, .array [.null, .int ⟨-7, by decide, by decide⟩])]

theorem sampleValue_integral : sampleValue.Integral := by
  refine .object _ fun e he => ?_
  simp only [List.mem_cons, List.not_mem_nil, or_false] at he
  rcases he with rfl | rfl
  · exact .string _
  · refine .array _ fun v hv => ?_
    simp only [List.mem_cons, List.not_mem_nil, or_false] at hv
    rcases hv with rfl | rfl
    · exact .null
    · exact .int _

theorem sampleValue_distinct : sampleValue.Distinct := by
  refine .object _ (by decide) fun e he => ?_
  simp only [List.mem_cons, List.not_mem_nil, or_false] at he
  rcases he with rfl | rfl
  · exact .string _
  · refine .array _ fun v hv => ?_
    simp only [List.mem_cons, List.not_mem_nil, or_false] at hv
    rcases hv with rfl | rfl
    · exact .null
    · exact .int _

/-- The text of that object, and that it is read back. -/
theorem jinjaTojson_sample_faithful :
    jinjaTojson noFloats sampleValue =
        "\x7b\"a\": [null, -7], \"b\": \"\\u003c\\ud83d\\ude00\"\x7d".toList ∧
      ∃ w, document noFloats (jinjaTojson noFloats sampleValue) = some w ∧ w.Ordered ∧
        sampleValue.Reorders w :=
  ⟨by decide +kernel,
    (jinjaTojson_faithful noFloats sampleValue sampleValue_integral sampleValue_distinct).2.1⟩

end Chat

end QrtEngine
