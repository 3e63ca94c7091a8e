import Mathlib.Data.Char
import Mathlib.Data.List.Induction
import Mathlib.Data.List.Lex
import Mathlib.Data.List.Sort

/-!
# JSON Values and Texts

JSON values and a parser for their texts. An object is the list of its members in the order
they are iterated; a map that orders its keys gives them in increasing order, and the parser
builds such maps. Integers are those of sixty-four bits, signed or not. Every other number is
a float, and what a float is, is a parameter: a reader and a writer of number texts.

The parser follows the grammar of RFC 8259: white space between tokens, the two-character
escapes and the four-digit ones with surrogate pairs, no control characters in strings, no
leading zeros. It has no limit on the depth. The fuel is only there for the recursion, and
`value_fuel` says that the length of the text is enough of it.

## Main definitions

* `Value`: A JSON value.
* `Floats`: What a float is.
* `Value.Integral`, `Value.Ordered`: No floats, and objects with increasing keys.
* `value`, `document`: The parser, with the members in the order of the text.
* `Value.insertEntry`, `Value.normalize`: Building maps from members.
* `fromStr`: The value of a text.

## Theorems

* `value_fuel`: More fuel than characters makes no difference.
* `value_shorter`: A value takes at least one character.
* `normalize_of_ordered`: Members in increasing order are the map they build.
-/

namespace QrtEngine

namespace Json

/-! ## Values -/

/-- An integer that a number of a value holds: sixty-four bits, signed or not. -/
structure Integer where
  val : Int
  lower : -0x8000000000000000 ≤ val
  upper : val < 0x10000000000000000
deriving DecidableEq, Repr

/-- A JSON value. -/
inductive Value (F : Type) where
  | null
  | bool (value : Bool)
  | int (number : Integer)
  | float (number : F)
  | string (text : List Char)
  | array (values : List (Value F))
  | object (entries : List (List Char × Value F))

/-- The characters a number is written with. -/
def numberChars : List Char := "0123456789+-.eE".toList

/-- What a float is: a reader of number texts, which may refuse one out of range, and a
    writer. -/
structure Floats (F : Type) where
  read : List Char → Option F
  write : F → List Char
  write_chars : ∀ x, ∀ c ∈ write x, c ∈ numberChars

variable {F : Type}

/-- Induction on a value: an array from its elements, an object from its members. -/
theorem Value.induct {P : Value F → Prop} (null : P .null) (bool : ∀ b, P (.bool b))
    (int : ∀ n, P (.int n)) (float : ∀ x, P (.float x)) (string : ∀ s, P (.string s))
    (array : ∀ values, (∀ v ∈ values, P v) → P (.array values))
    (object : ∀ entries, (∀ e ∈ entries, P e.2) → P (.object entries)) (v : Value F) : P v := by
  -- The lists are walked along: what holds of the head and the tail holds of all.
  refine @Value.rec F P (fun values => ∀ v ∈ values, P v) (fun entries => ∀ e ∈ entries, P e.2)
    (fun e => P e.2) null bool int float string array object ?_ ?_ ?_ ?_ ?_ v
  · exact fun v h => absurd h List.not_mem_nil
  · intro v values hv hvalues w hw
    rcases List.mem_cons.mp hw with rfl | hw
    · exact hv
    · exact hvalues w hw
  · exact fun e h => absurd h List.not_mem_nil
  · intro e entries he hentries e' he'
    rcases List.mem_cons.mp he' with rfl | he'
    · exact he
    · exact hentries e' he'
  · exact fun key v hv => hv

attribute [induction_eliminator] Value.induct

/-- All the numbers are integers. -/
inductive Value.Integral : Value F → Prop where
  | null : Integral .null
  | bool (b : Bool) : Integral (.bool b)
  | int (n : Integer) : Integral (.int n)
  | string (s : List Char) : Integral (.string s)
  | array (values : List (Value F)) (h : ∀ v ∈ values, Integral v) : Integral (.array values)
  | object (entries : List (List Char × Value F)) (h : ∀ e ∈ entries, Integral e.2) :
      Integral (.object entries)

/-- The keys of members. -/
def keys (entries : List (List Char × Value F)) : List (List Char) := entries.map Prod.fst

/-- The keys are increasing in every object. -/
inductive Value.Ordered : Value F → Prop where
  | null : Ordered .null
  | bool (b : Bool) : Ordered (.bool b)
  | int (n : Integer) : Ordered (.int n)
  | float (x : F) : Ordered (.float x)
  | string (s : List Char) : Ordered (.string s)
  | array (values : List (Value F)) (h : ∀ v ∈ values, Ordered v) : Ordered (.array values)
  | object (entries : List (List Char × Value F)) (hkeys : (keys entries).Pairwise (· < ·))
      (h : ∀ e ∈ entries, Ordered e.2) : Ordered (.object entries)

/-! ## Maps -/

/-- A member added to a map that orders its keys, in the place of one with the same key. -/
def insertEntry {α : Type} (key : List Char) (value : α) :
    List (List Char × α) → List (List Char × α)
  | [] => [(key, value)]
  | (key', value') :: entries =>
      if key < key' then (key, value) :: (key', value') :: entries
      else if key' < key then (key', value') :: insertEntry key value entries
      else (key, value) :: entries

/-- The map of a list of members: of two with the same key, the later one stays. -/
def buildMap {α : Type} (entries : List (List Char × α)) : List (List Char × α) :=
  entries.foldl (fun map entry => insertEntry entry.1 entry.2 map) []

/-- The value of the first member with a key. -/
def lookup {α : Type} (key : List Char) (entries : List (List Char × α)) : Option α :=
  (entries.find? fun entry => entry.1 == key).map Prod.snd

mutual

/-- A value with its objects as maps that order their keys. -/
def Value.normalize : Value F → Value F
  | .null => .null
  | .bool b => .bool b
  | .int n => .int n
  | .float x => .float x
  | .string s => .string s
  | .array values => .array (normalizeList values)
  | .object entries => .object (buildMap (normalizeEntries entries))

/-- The elements, with their objects as maps. -/
def normalizeList : List (Value F) → List (Value F)
  | [] => []
  | v :: values => v.normalize :: normalizeList values

/-- The members, with the objects in their values as maps. -/
def normalizeEntries : List (List Char × Value F) → List (List Char × Value F)
  | [] => []
  | (key, v) :: entries => (key, v.normalize) :: normalizeEntries entries

end

/-! ## Tokens -/

/-- White space between tokens. -/
def isSpace (c : Char) : Bool := c == ' ' || c == '\t' || c == '\n' || c == '\r'

/-- The text after white space. -/
def skipSpace (s : List Char) : List Char := s.dropWhile isSpace

/-- The value of a hexadecimal digit. -/
def hexValue (c : Char) : Option Nat :=
  if '0' ≤ c ∧ c ≤ '9' then some (c.toNat - 48)
  else if 'a' ≤ c ∧ c ≤ 'f' then some (c.toNat - 87)
  else if 'A' ≤ c ∧ c ≤ 'F' then some (c.toNat - 55)
  else none

/-- Four hexadecimal digits. -/
def hexQuad : List Char → Option (Nat × List Char)
  | a :: b :: c :: d :: rest => do
      let a ← hexValue a
      let b ← hexValue b
      let c ← hexValue c
      let d ← hexValue d
      return (((a * 16 + b) * 16 + c) * 16 + d, rest)
  | _ => none

/-- The second half of a surrogate pair, with its mark. -/
def lowSurrogate : List Char → Option (Nat × List Char)
  | '\\' :: 'u' :: rest =>
      match hexQuad rest with
      | none => none
      | some (low, rest) => if 0xDC00 ≤ low ∧ low < 0xE000 then some (low, rest) else none
  | _ => none

/-- The character of a four-digit escape, which may be half of a pair. -/
def unicodeEscape (s : List Char) : Option (Char × List Char) :=
  match hexQuad s with
  | none => none
  | some (unit, rest) =>
      if 0xD800 ≤ unit ∧ unit < 0xDC00 then
        (lowSurrogate rest).map fun (low, rest) =>
          (Char.ofNat (0x10000 + (unit - 0xD800) * 0x400 + (low - 0xDC00)), rest)
      -- A second half without a first one stands for nothing.
      else if 0xDC00 ≤ unit ∧ unit < 0xE000 then none
      else some (Char.ofNat unit, rest)

/-- The character of a two-character escape. -/
def simpleEscape (c : Char) : Option Char :=
  if c = '"' ∨ c = '\\' ∨ c = '/' then some c
  else if c = 'b' then some (Char.ofNat 8)
  else if c = 'f' then some (Char.ofNat 12)
  else if c = 'n' then some '\n'
  else if c = 'r' then some '\r'
  else if c = 't' then some '\t'
  else none

/-- The character of an escape, after its mark. -/
def escape : List Char → Option (Char × List Char)
  | [] => none
  | c :: rest => if c = 'u' then unicodeEscape rest else (simpleEscape c).map fun d => (d, rest)

/-- The characters of a string up to its closing quote, after the opening one. -/
def stringBody : Nat → List Char → Option (List Char × List Char)
  | 0, _ => none
  | _ + 1, [] => none
  | fuel + 1, c :: rest =>
      if c = '"' then some ([], rest)
      else if c = '\\' then
        match escape rest with
        | none => none
        | some (d, rest) => (stringBody fuel rest).map fun (s, rest) => (d :: s, rest)
      else if c.toNat < 0x20 then none
      else (stringBody fuel rest).map fun (s, rest) => (c :: s, rest)

/-- One digit at least, and the text after the digits. -/
def digits (s : List Char) : Option (List Char × List Char) :=
  if s.takeWhile Char.isDigit = [] then none
  else some (s.takeWhile Char.isDigit, s.dropWhile Char.isDigit)

/-- The digits before the point, without a leading zero. -/
def wholePart (s : List Char) : Option (List Char × List Char) :=
  match digits s with
  | none => none
  | some (whole, rest) => if whole.head? = some '0' ∧ whole ≠ ['0'] then none else some (whole, rest)

/-- The point and the digits after it, if there is a point. -/
def fraction : List Char → Option (List Char × List Char)
  | '.' :: rest => (digits rest).map fun (part, rest) => ('.' :: part, rest)
  | rest => some ([], rest)

/-- The exponent, if there is one. -/
def exponent : List Char → Option (List Char × List Char)
  | [] => some ([], [])
  | c :: rest =>
      if c = 'e' ∨ c = 'E' then
        match rest with
        | '+' :: rest => (digits rest).map fun (part, rest) => (c :: '+' :: part, rest)
        | '-' :: rest => (digits rest).map fun (part, rest) => (c :: '-' :: part, rest)
        | rest => (digits rest).map fun (part, rest) => (c :: part, rest)
      else some ([], c :: rest)

/-- The value of a number text: an integer if it is written as one, fits and is not minus
    zero, and a float otherwise. -/
def numberValue (floats : Floats F) (negative : Bool) (whole decimals : List Char) :
    Option (Value F) :=
  let magnitude := Nat.ofDigitChars 10 whole 0
  let number : Int := if negative then -(magnitude : Int) else magnitude
  if h : decimals = [] ∧ ¬(negative = true ∧ magnitude = 0) ∧
      -0x8000000000000000 ≤ number ∧ number < 0x10000000000000000 then
    some (.int ⟨number, h.2.2.1, h.2.2.2⟩)
  else (floats.read ((if negative then ['-'] else []) ++ whole ++ decimals)).map .float

/-- A number without its sign. -/
def unsigned (floats : Floats F) (negative : Bool) (s : List Char) :
    Option (Value F × List Char) := do
  let (whole, rest) ← wholePart s
  let (part, rest) ← fraction rest
  let (power, rest) ← exponent rest
  let number ← numberValue floats negative whole (part ++ power)
  return (number, rest)

/-- A number. -/
def number (floats : Floats F) : List Char → Option (Value F × List Char)
  | '-' :: rest => unsigned floats true rest
  | rest => unsigned floats false rest

/-! ## Structure -/

/-- One item at least, separated by commas, up to the closing mark. -/
def items {α : Type} (item : List Char → Option (α × List Char)) (close : Char) :
    Nat → List Char → Option (List α × List Char)
  | 0, _ => none
  | fuel + 1, s =>
      match item (skipSpace s) with
      | none => none
      | some (x, rest) =>
          match skipSpace rest with
          | [] => none
          | c :: rest =>
              if c = ',' then
                (items item close fuel rest).map fun (xs, rest) => (x :: xs, rest)
              else if c = close then some ([x], rest)
              else none

/-- The items between an opening mark, already taken, and the closing one. -/
def enclosed {α : Type} (item : List Char → Option (α × List Char)) (close : Char) (fuel : Nat)
    (s : List Char) : Option (List α × List Char) :=
  match skipSpace s with
  | [] => none
  | c :: rest => if c = close then some ([], rest) else items item close fuel (c :: rest)

/-- A member: a key, a colon and a value. -/
def member {α : Type} (fuel : Nat) (item : List Char → Option (α × List Char)) :
    List Char → Option ((List Char × α) × List Char)
  | '"' :: rest => do
      let (key, rest) ← stringBody fuel rest
      match skipSpace rest with
      | ':' :: rest =>
          let (x, rest) ← item (skipSpace rest)
          return ((key, x), rest)
      | _ => none
  | _ => none

/-- The text after a word. -/
def afterWord (word s : List Char) : Option (List Char) :=
  if word.isPrefixOf s then some (s.drop word.length) else none

/-- A value at the start of a text, with the members of its objects as they are written. -/
def value (floats : Floats F) : Nat → List Char → Option (Value F × List Char)
  | 0, _ => none
  | _ + 1, [] => none
  | fuel + 1, c :: rest =>
      if c = 'n' then (afterWord "ull".toList rest).map fun rest => (.null, rest)
      else if c = 't' then (afterWord "rue".toList rest).map fun rest => (.bool true, rest)
      else if c = 'f' then (afterWord "alse".toList rest).map fun rest => (.bool false, rest)
      else if c = '"' then (stringBody fuel rest).map fun (s, rest) => (.string s, rest)
      else if c = '[' then
        (enclosed (value floats fuel) ']' fuel rest).map fun (values, rest) =>
          (.array values, rest)
      else if c = '{' then
        (enclosed (member fuel (value floats fuel)) '}' fuel rest).map fun (entries, rest) =>
          (.object entries, rest)
      else number floats (c :: rest)

/-- The value a whole text is, with the members of its objects as they are written. -/
def document (floats : Floats F) (s : List Char) : Option (Value F) :=
  match value floats (s.length + 1) (skipSpace s) with
  | none => none
  | some (v, rest) => if skipSpace rest = [] then some v else none

/-- The value of a text. -/
def fromStr (floats : Floats F) (s : List Char) : Option (Value F) :=
  (document floats s).map Value.normalize

/-! ## Writing -/

/-- A hexadecimal digit, in lower case. -/
def hexDigit (n : Nat) : Char := if n < 10 then Char.ofNat (48 + n) else Char.ofNat (87 + n)

/-- The text of an integer. -/
def integerText (n : Int) : List Char :=
  (if n < 0 then ['-'] else []) ++ Nat.toDigits 10 n.natAbs

/-- A character in a string, as the compact writer has it. -/
def compactChar (c : Char) : List Char :=
  if c = '"' then ['\\', '"']
  else if c = '\\' then ['\\', '\\']
  else if c.toNat = 8 then ['\\', 'b']
  else if c.toNat = 12 then ['\\', 'f']
  else if c = '\n' then ['\\', 'n']
  else if c = '\r' then ['\\', 'r']
  else if c = '\t' then ['\\', 't']
  else if c.toNat < 0x20 then
    ['\\', 'u', '0', '0', hexDigit (c.toNat / 16), hexDigit (c.toNat % 16)]
  else [c]

/-- A string, as the compact writer has it. -/
def compactString (s : List Char) : List Char := '"' :: (s.flatMap compactChar ++ ['"'])

mutual

/-- The compact text of a value. -/
def compact (floats : Floats F) : Value F → List Char
  | .null => "null".toList
  | .bool b => if b then "true".toList else "false".toList
  | .int n => integerText n.val
  | .float x => floats.write x
  | .string s => compactString s
  | .array values => '[' :: ([','].intercalate (compactList floats values) ++ [']'])
  | .object entries => '{' :: ([','].intercalate (compactEntries floats entries) ++ ['}'])

/-- The compact texts of elements. -/
def compactList (floats : Floats F) : List (Value F) → List (List Char)
  | [] => []
  | v :: values => compact floats v :: compactList floats values

/-- The compact texts of members. -/
def compactEntries (floats : Floats F) : List (List Char × Value F) → List (List Char)
  | [] => []
  | (key, v) :: entries =>
      (compactString key ++ ':' :: compact floats v) :: compactEntries floats entries

end

/-! ## Fuel -/

theorem length_skipSpace_le (s : List Char) : (skipSpace s).length ≤ s.length :=
  (List.dropWhile_sublist _).length_le

/-- A parser takes at least one character. -/
def Shortens {α : Type} (item : List Char → Option (α × List Char)) : Prop :=
  ∀ s x rest, item s = some (x, rest) → rest.length < s.length

/-- Two parsers agree on the texts up to a length. -/
def AgreeUpTo {α : Type} (n : Nat) (item item' : List Char → Option (α × List Char)) : Prop :=
  ∀ s : List Char, s.length ≤ n → item s = item' s

theorem hexQuad_length (s rest : List Char) (n : Nat) (h : hexQuad s = some (n, rest)) :
    rest.length < s.length := by
  unfold hexQuad at h
  split at h
  · simp only [bind, Option.bind_eq_some_iff, pure, Option.some.injEq, Prod.mk.injEq] at h
    rcases h with ⟨-, -, -, -, -, -, -, -, -, rfl⟩
    simp only [List.length_cons]
    omega
  · exact absurd h (by simp)

theorem unicodeEscape_shortens : Shortens unicodeEscape := by
  intro s c rest h
  unfold unicodeEscape at h
  cases hquad : hexQuad s with
  | none =>
      rw [hquad] at h
      exact absurd h (by simp)
  | some found =>
      have hlen := hexQuad_length s found.2 found.1 hquad
      rw [hquad] at h
      dsimp only at h
      split_ifs at h with hhigh hlow
      · rcases Option.map_eq_some_iff.mp h with ⟨low, hsecond, heq⟩
        rw [Prod.mk.injEq] at heq
        rw [← heq.2]
        -- The second half is another four digits after two characters.
        unfold lowSurrogate at hsecond
        split at hsecond
        · rename_i tail htail
          cases hquad' : hexQuad tail with
          | none =>
              rw [hquad'] at hsecond
              exact absurd hsecond (by simp)
          | some found' =>
              have hlen' := hexQuad_length tail found'.2 found'.1 hquad'
              rw [hquad'] at hsecond
              dsimp only at hsecond
              split_ifs at hsecond with hin
              rw [← Option.some.inj hsecond]
              rw [htail, List.length_cons, List.length_cons] at hlen
              dsimp only
              omega
        · exact absurd hsecond (by simp)
      · rw [Option.some.injEq, Prod.mk.injEq] at h
        rw [← h.2]
        exact hlen

theorem escape_shortens : Shortens escape := by
  intro s c rest h
  cases s with
  | nil => exact absurd h (by simp [escape])
  | cons d s =>
      unfold escape at h
      dsimp only at h
      rw [List.length_cons]
      split_ifs at h with hd
      · exact Nat.lt_succ_of_lt (unicodeEscape_shortens s c rest h)
      · rcases Option.map_eq_some_iff.mp h with ⟨_, -, heq⟩
        rw [Prod.mk.injEq] at heq
        rw [← heq.2]
        exact Nat.lt_succ_self _

/-- A string takes its closing quote, and a character at least for each of its own. -/
theorem stringBody_length (fuel : Nat) (s text rest : List Char)
    (h : stringBody fuel s = some (text, rest)) : text.length + rest.length < s.length := by
  induction fuel generalizing s text with
  | zero => exact absurd h (by simp [stringBody])
  | succ fuel ih =>
      cases s with
      | nil => exact absurd h (by simp [stringBody])
      | cons c s =>
          unfold stringBody at h
          -- A closing quote, an escape, or a character that stands for itself.
          split_ifs at h with hquote hescape hcontrol
          · rw [Option.some.injEq, Prod.mk.injEq] at h
            rw [← h.1, ← h.2, List.length_cons, List.length_nil]
            omega
          · cases hchar : escape s with
            | none =>
                rw [hchar] at h
                exact absurd h (by simp)
            | some found =>
                have hlen := escape_shortens s found.1 found.2 hchar
                rw [hchar] at h
                rcases Option.map_eq_some_iff.mp h with ⟨found', htail, heq⟩
                have hrest := ih found.2 found'.1 (by rw [htail, ← (Prod.mk.inj heq).2])
                rw [← (Prod.mk.inj heq).1, List.length_cons, List.length_cons]
                omega
          · rcases Option.map_eq_some_iff.mp h with ⟨found', htail, heq⟩
            have hrest := ih s found'.1 (by rw [htail, ← (Prod.mk.inj heq).2])
            rw [← (Prod.mk.inj heq).1, List.length_cons, List.length_cons]
            omega

theorem stringBody_fuel (fuel fuel' : Nat) (s : List Char) (h : s.length ≤ fuel)
    (h' : s.length ≤ fuel') : stringBody fuel s = stringBody fuel' s := by
  induction fuel generalizing fuel' s with
  | zero =>
      have hnil : s = [] := List.length_eq_zero_iff.mp (by omega)
      subst hnil
      cases fuel' <;> rfl
  | succ fuel ih =>
      cases s with
      | nil => cases fuel' <;> rfl
      | cons c s =>
          rw [List.length_cons] at h h'
          cases fuel' with
          | zero => omega
          | succ fuel' =>
              unfold stringBody
              split_ifs
              · rfl
              · cases hchar : escape s with
                | none => rfl
                | some found =>
                    have hlen := escape_shortens s found.1 found.2 hchar
                    dsimp only
                    rw [ih fuel' found.2 (by omega) (by omega)]
              · rfl
              · rw [ih fuel' s (by omega) (by omega)]

theorem digits_length (s part rest : List Char) (h : digits s = some (part, rest)) :
    rest.length < s.length ∧ part ++ rest = s := by
  unfold digits at h
  split_ifs at h with hnil
  rw [Option.some.injEq, Prod.mk.injEq] at h
  have hsplit := List.takeWhile_append_dropWhile (p := Char.isDigit) (l := s)
  rw [h.1, h.2] at hsplit
  rw [h.1] at hnil
  have hpos := List.length_pos_of_ne_nil hnil
  have hlen := congrArg List.length hsplit
  rw [List.length_append] at hlen
  exact ⟨by omega, hsplit⟩

theorem fraction_length (s part rest : List Char) (h : fraction s = some (part, rest)) :
    rest.length ≤ s.length := by
  unfold fraction at h
  split at h
  · rcases Option.map_eq_some_iff.mp h with ⟨found, hdigits, heq⟩
    have hlen := (digits_length _ found.1 found.2 hdigits).1
    rw [← (Prod.mk.inj heq).2, List.length_cons]
    omega
  · rw [← (Prod.mk.inj (Option.some.inj h)).2]

theorem exponent_length (s part rest : List Char) (h : exponent s = some (part, rest)) :
    rest.length ≤ s.length := by
  unfold exponent at h
  split at h
  · rw [← (Prod.mk.inj (Option.some.inj h)).2]
  · split_ifs at h with hmark
    · split at h <;>
      · rcases Option.map_eq_some_iff.mp h with ⟨found, hdigits, heq⟩
        have hlen := (digits_length _ found.1 found.2 hdigits).1
        rw [← (Prod.mk.inj heq).2]
        simp only [List.length_cons]
        omega
    · rw [← (Prod.mk.inj (Option.some.inj h)).2]

theorem wholePart_length (s part rest : List Char) (h : wholePart s = some (part, rest)) :
    rest.length < s.length := by
  unfold wholePart at h
  cases hdigits : digits s with
  | none =>
      rw [hdigits] at h
      exact absurd h (by simp)
  | some found =>
      rw [hdigits] at h
      dsimp only at h
      split_ifs at h with hzero
      rw [← (Prod.mk.inj (Option.some.inj h)).2]
      exact (digits_length s found.1 found.2 hdigits).1

theorem unsigned_shortens (floats : Floats F) (negative : Bool) :
    Shortens (unsigned floats negative) := by
  intro s v rest h
  unfold unsigned at h
  simp only [bind, Option.bind_eq_some_iff, pure, Option.some.injEq, Prod.mk.injEq] at h
  rcases h with ⟨whole, hwhole, part, hpart, power, hpower, -, -, -, rfl⟩
  have h1 := wholePart_length s whole.1 whole.2 hwhole
  have h2 := fraction_length whole.2 part.1 part.2 hpart
  have h3 := exponent_length part.2 power.1 power.2 hpower
  omega

theorem number_shortens (floats : Floats F) : Shortens (number floats) := by
  intro s v rest h
  unfold number at h
  split at h
  · exact Nat.lt_succ_of_lt (unsigned_shortens floats true _ v rest h)
  · exact unsigned_shortens floats false _ v rest h

theorem items_shortens {α : Type} (item : List Char → Option (α × List Char)) (close : Char)
    (hitem : Shortens item) (fuel : Nat) : Shortens (items item close fuel) := by
  induction fuel with
  | zero => exact fun s xs rest h => absurd h (by simp [items])
  | succ fuel ih =>
      intro s xs rest h
      unfold items at h
      have hspace := length_skipSpace_le s
      cases hfirst : item (skipSpace s) with
      | none =>
          rw [hfirst] at h
          exact absurd h (by simp)
      | some found =>
          have hlen := hitem _ found.1 found.2 hfirst
          have hspace' := length_skipSpace_le found.2
          rw [hfirst] at h
          dsimp only at h
          cases hnext : skipSpace found.2 with
          | nil =>
              rw [hnext] at h
              exact absurd h (by simp)
          | cons c tail =>
              rw [hnext] at h
              rw [hnext, List.length_cons] at hspace'
              dsimp only at h
              -- A comma and more items, or the closing bracket.
              split_ifs at h with hcomma hclose
              · rcases Option.map_eq_some_iff.mp h with ⟨more, hmore, heq⟩
                have htail := ih tail more.1 more.2 hmore
                rw [← (Prod.mk.inj heq).2]
                omega
              · rw [← (Prod.mk.inj (Option.some.inj h)).2]
                omega

theorem enclosed_length {α : Type} (item : List Char → Option (α × List Char)) (close : Char)
    (hitem : Shortens item) (fuel : Nat) : Shortens (enclosed item close fuel) := by
  intro s xs rest h
  unfold enclosed at h
  have hspace := length_skipSpace_le s
  cases hnext : skipSpace s with
  | nil =>
      rw [hnext] at h
      exact absurd h (by simp)
  | cons c tail =>
      rw [hnext] at h
      rw [hnext] at hspace
      dsimp only at h
      split_ifs at h with hclose
      · rw [← (Prod.mk.inj (Option.some.inj h)).2]
        rw [List.length_cons] at hspace
        omega
      · exact Nat.lt_of_lt_of_le (items_shortens item close hitem fuel _ xs rest h) hspace

theorem member_shortens {α : Type} (fuel : Nat) (item : List Char → Option (α × List Char))
    (hitem : Shortens item) : Shortens (member fuel item) := by
  intro s e rest h
  unfold member at h
  split at h
  · simp only [bind, Option.bind_eq_some_iff] at h
    rcases h with ⟨found, hkey, h⟩
    have hlen := stringBody_length fuel _ found.1 found.2 hkey
    have hspace := length_skipSpace_le found.2
    split at h
    · rename_i tail hcolon
      rw [hcolon, List.length_cons] at hspace
      simp only [Option.bind_eq_some_iff, pure, Option.some.injEq, Prod.mk.injEq] at h
      rcases h with ⟨found', hvalue, -, rfl⟩
      have hlen' := hitem _ found'.1 found'.2 hvalue
      have hspace' := length_skipSpace_le tail
      rw [List.length_cons]
      omega
    · exact absurd h (by simp)
  · exact absurd h (by simp)

/-- What is behind a word, when its value is known. -/
theorem afterWord_shorter (word s rest : List Char) (known v : Value F)
    (h : (afterWord word s).map (fun tail => (known, tail)) = some (v, rest)) :
    rest.length < s.length + 1 := by
  rcases Option.map_eq_some_iff.mp h with ⟨tail, hword, heq⟩
  unfold afterWord at hword
  split_ifs at hword
  rw [← (Prod.mk.inj heq).2, ← Option.some.inj hword, List.length_drop]
  omega

/-- A value takes at least one character. -/
theorem value_shorter (floats : Floats F) (fuel : Nat) : Shortens (value floats fuel) := by
  induction fuel with
  | zero => exact fun s v rest h => absurd h (by simp [value])
  | succ fuel ih =>
      intro s v rest h
      cases s with
      | nil => exact absurd h (by simp [value])
      | cons c s =>
          unfold value at h
          rw [List.length_cons]
          -- One goal for each kind of value, told by its first character.
          split_ifs at h
          · exact afterWord_shorter _ s rest .null v h
          · exact afterWord_shorter _ s rest (.bool true) v h
          · exact afterWord_shorter _ s rest (.bool false) v h
          · rcases Option.map_eq_some_iff.mp h with ⟨found, hstring, heq⟩
            have hlen := stringBody_length fuel s found.1 found.2 hstring
            rw [← (Prod.mk.inj heq).2]
            omega
          · rcases Option.map_eq_some_iff.mp h with ⟨found, harray, heq⟩
            rw [← (Prod.mk.inj heq).2]
            exact Nat.lt_succ_of_lt (enclosed_length _ _ ih fuel s found.1 found.2 harray)
          · rcases Option.map_eq_some_iff.mp h with ⟨found, hobject, heq⟩
            rw [← (Prod.mk.inj heq).2]
            exact Nat.lt_succ_of_lt (enclosed_length _ _ (member_shortens fuel _ ih) fuel s
              found.1 found.2 hobject)
          · exact number_shortens floats (c :: s) v rest h

theorem unsigned_ne_string (floats : Floats F) (negative : Bool) (s t rest : List Char) :
    unsigned floats negative s ≠ some (.string t, rest) := by
  intro h
  simp only [unsigned, bind, Option.bind_eq_some_iff, pure, Option.some.injEq, Prod.mk.injEq] at h
  rcases h with ⟨_, -, _, -, _, -, v, hv, rfl, -⟩
  unfold numberValue at hv
  dsimp only at hv
  split_ifs at hv
  · exact nomatch hv
  · rcases Option.map_eq_some_iff.mp hv with ⟨x, -, hx⟩
    exact nomatch hx
  · exact nomatch hv
  · rcases Option.map_eq_some_iff.mp hv with ⟨x, -, hx⟩
    exact nomatch hx

/-- A string is shorter than its text. -/
theorem value_string_length (floats : Floats F) (fuel : Nat) (s t rest : List Char)
    (h : value floats fuel s = some (.string t, rest)) : t.length < s.length := by
  cases fuel with
  | zero => exact absurd h (by simp [value])
  | succ fuel =>
      cases s with
      | nil => exact absurd h (by simp [value])
      | cons c s =>
          unfold value at h
          split_ifs at h
          -- Only a text in quotes is a string.
          · rcases Option.map_eq_some_iff.mp h with ⟨_, -, heq⟩
            exact nomatch heq
          · rcases Option.map_eq_some_iff.mp h with ⟨_, -, heq⟩
            exact nomatch heq
          · rcases Option.map_eq_some_iff.mp h with ⟨_, -, heq⟩
            exact nomatch heq
          · rcases Option.map_eq_some_iff.mp h with ⟨found, hstring, heq⟩
            have hlen := stringBody_length fuel s found.1 found.2 hstring
            cases heq
            rw [List.length_cons]
            omega
          · rcases Option.map_eq_some_iff.mp h with ⟨_, -, heq⟩
            exact nomatch heq
          · rcases Option.map_eq_some_iff.mp h with ⟨_, -, heq⟩
            exact nomatch heq
          · unfold number at h
            split at h
            · exact absurd h (unsigned_ne_string floats true _ t rest)
            · exact absurd h (unsigned_ne_string floats false _ t rest)

theorem Shortens.nil {α : Type} {item : List Char → Option (α × List Char)} (h : Shortens item) :
    item [] = none := by
  cases hitem : item [] with
  | none => rfl
  | some found => exact absurd (h [] found.1 found.2 hitem) (Nat.not_lt_zero _)

theorem items_fuel {α : Type} (item item' : List Char → Option (α × List Char)) (close : Char)
    (hitem : Shortens item) (n : Nat) (hagree : AgreeUpTo n item item') (fuel fuel' : Nat)
    (s : List Char) (hn : s.length ≤ n) (h : s.length ≤ fuel) (h' : s.length ≤ fuel') :
    items item close fuel s = items item' close fuel' s := by
  induction fuel generalizing fuel' s with
  | zero =>
      -- Nothing is left, and no item is nothing.
      have hnil : s = [] := List.length_eq_zero_iff.mp (by omega)
      subst hnil
      cases fuel' with
      | zero => rfl
      | succ fuel' => simp [items, skipSpace, ← hagree [] (Nat.zero_le _), hitem.nil]
  | succ fuel ih =>
      have hspace := length_skipSpace_le s
      cases fuel' with
      | zero =>
          have hnil : s = [] := List.length_eq_zero_iff.mp (by omega)
          subst hnil
          simp [items, skipSpace, hitem.nil]
      | succ fuel' =>
          unfold items
          rw [← hagree (skipSpace s) (by omega)]
          cases hfirst : item (skipSpace s) with
          | none => rfl
          | some found =>
              have hlen := hitem _ found.1 found.2 hfirst
              have hspace' := length_skipSpace_le found.2
              dsimp only
              cases hnext : skipSpace found.2 with
              | nil => rfl
              | cons c tail =>
                  rw [hnext, List.length_cons] at hspace'
                  dsimp only
                  rw [ih fuel' tail (by omega) (by omega) (by omega)]

theorem enclosed_fuel {α : Type} (item item' : List Char → Option (α × List Char)) (close : Char)
    (hitem : Shortens item) (n : Nat) (hagree : AgreeUpTo n item item') (fuel fuel' : Nat)
    (s : List Char) (hn : s.length ≤ n) (h : s.length ≤ fuel) (h' : s.length ≤ fuel') :
    enclosed item close fuel s = enclosed item' close fuel' s := by
  have hspace := length_skipSpace_le s
  unfold enclosed
  cases hnext : skipSpace s with
  | nil => rfl
  | cons c tail =>
      rw [hnext] at hspace
      dsimp only
      rw [items_fuel item item' close hitem n hagree fuel fuel' (c :: tail) (by omega) (by omega)
        (by omega)]

theorem member_agree {α : Type} (item item' : List Char → Option (α × List Char)) (n : Nat)
    (hagree : AgreeUpTo n item item') (fuel fuel' : Nat) (h : n ≤ fuel) (h' : n ≤ fuel') :
    AgreeUpTo n (member fuel item) (member fuel' item') := by
  intro s hs
  unfold member
  split
  · rename_i tail
    rw [List.length_cons] at hs
    rw [stringBody_fuel fuel fuel' tail (by omega) (by omega)]
    cases hkey : stringBody fuel' tail with
    | none => rfl
    | some found =>
        have hlen := stringBody_length fuel' tail found.1 found.2 hkey
        have hspace := length_skipSpace_le found.2
        simp only [bind, Option.bind_some]
        split
        · rename_i tail' hcolon
          rw [hcolon, List.length_cons] at hspace
          have hspace' := length_skipSpace_le tail'
          rw [hagree (skipSpace tail') (by omega)]
        · rfl
  · rfl

/-- More fuel than characters makes no difference. -/
theorem value_fuel (floats : Floats F) (fuel fuel' : Nat) (s : List Char) (h : s.length ≤ fuel)
    (h' : s.length ≤ fuel') : value floats fuel s = value floats fuel' s := by
  induction fuel generalizing fuel' s with
  | zero =>
      have hnil : s = [] := List.length_eq_zero_iff.mp (by omega)
      subst hnil
      cases fuel' <;> rfl
  | succ fuel ih =>
      cases s with
      | nil => cases fuel' <;> rfl
      | cons c s =>
          rw [List.length_cons] at h h'
          cases fuel' with
          | zero => omega
          | succ fuel' =>
              -- What stands between the marks is shorter, so there the two agree.
              have hagree : AgreeUpTo s.length (value floats fuel) (value floats fuel') :=
                fun t ht => ih fuel' t (by omega) (by omega)
              have hmember : AgreeUpTo s.length (member fuel (value floats fuel))
                  (member fuel' (value floats fuel')) :=
                member_agree _ _ _ hagree fuel fuel' (by omega) (by omega)
              unfold value
              rw [stringBody_fuel fuel fuel' s (by omega) (by omega),
                enclosed_fuel _ _ ']' (value_shorter floats fuel) _ hagree fuel fuel' s
                  (Nat.le_refl _) (by omega) (by omega),
                enclosed_fuel _ _ '}' (member_shortens fuel _ (value_shorter floats fuel)) _
                  hmember fuel fuel' s (Nat.le_refl _) (by omega) (by omega)]

/-- The value of a text is what the parser finds with any fuel from the length of the text
    on, and only white space stands around it. -/
theorem document_eq_some_iff (floats : Floats F) (s : List Char) (v : Value F) :
    document floats s = some v ↔
      ∃ fuel rest, s.length ≤ fuel ∧ value floats fuel (skipSpace s) = some (v, rest) ∧
        skipSpace rest = [] := by
  have hspace := length_skipSpace_le s
  unfold document
  constructor
  · intro h
    cases hvalue : value floats (s.length + 1) (skipSpace s) with
    | none =>
        rw [hvalue] at h
        exact absurd h (by simp)
    | some found =>
        rw [hvalue] at h
        dsimp only at h
        split_ifs at h with hend
        rw [← Option.some.inj h]
        exact ⟨s.length + 1, found.2, Nat.le_succ _, hvalue, hend⟩
  · rintro ⟨fuel, rest, hfuel, hvalue, hend⟩
    rw [value_fuel floats (s.length + 1) fuel (skipSpace s) (by omega) (by omega), hvalue]
    dsimp only
    rw [if_pos hend]

/-! ## Building maps -/

section Maps

variable {α : Type}

theorem lookup_cons (key : List Char) (entry : List Char × α) (entries : List (List Char × α)) :
    lookup key (entry :: entries) = if entry.1 = key then some entry.2 else lookup key entries := by
  unfold lookup
  by_cases h : entry.1 = key
  · rw [if_pos h, List.find?_cons_of_pos (by simpa using h), Option.map_some]
  · rw [if_neg h, List.find?_cons_of_neg (by simpa using h)]

/-- A member with the greatest key goes to the end. -/
theorem insertEntry_of_lt (key : List Char) (x : α) (entries : List (List Char × α))
    (h : ∀ entry ∈ entries, entry.1 < key) :
    insertEntry key x entries = entries ++ [(key, x)] := by
  induction entries with
  | nil => rfl
  | cons entry entries ih =>
      have hentry := h entry List.mem_cons_self
      unfold insertEntry
      rw [if_neg (not_lt_of_gt hentry), if_pos hentry,
        ih fun e he => h e (List.mem_cons_of_mem _ he)]
      rfl

/-- Members in increasing order are the map they build. -/
theorem buildMap_of_pairwise (entries : List (List Char × α))
    (h : (entries.map Prod.fst).Pairwise (· < ·)) : buildMap entries = entries := by
  unfold buildMap
  induction entries using List.reverseRecOn with
  | nil => rfl
  | append_singleton entries entry ih =>
      rw [List.map_append, List.pairwise_append] at h
      rw [List.foldl_append, ih h.1, List.foldl_cons, List.foldl_nil]
      refine insertEntry_of_lt entry.1 entry.2 entries fun e he => ?_
      exact h.2.2 e.1 (List.mem_map_of_mem he) entry.1 (by simp)

end Maps

theorem normalizeList_eq_map (values : List (Value F)) :
    normalizeList values = values.map Value.normalize := by
  induction values with
  | nil => rfl
  | cons v values ih => rw [normalizeList, List.map_cons, ih]

theorem normalizeEntries_eq_map (entries : List (List Char × Value F)) :
    normalizeEntries entries = entries.map fun e => (e.1, e.2.normalize) := by
  induction entries with
  | nil => rfl
  | cons e entries ih => rw [normalizeEntries, List.map_cons, ih]

/-- A value with its keys in order is its own normal form. -/
theorem normalize_of_ordered (v : Value F) (h : v.Ordered) : v.normalize = v := by
  induction v with
  | null => rfl
  | bool b => rfl
  | int n => rfl
  | float x => rfl
  | string s => rfl
  | array values ih =>
      cases h with
      | array _ hvalues =>
          rw [Value.normalize, normalizeList_eq_map,
            List.map_congr_left fun v hv => ih v hv (hvalues v hv), List.map_id']
  | object entries ih =>
      cases h with
      | object _ hkeys hentries =>
          have hsame : normalizeEntries entries = entries := by
            rw [normalizeEntries_eq_map]
            calc entries.map (fun e => (e.1, e.2.normalize))
                = entries.map id := List.map_congr_left fun e he =>
                  Prod.ext rfl (ih e he (hentries e he))
              _ = entries := List.map_id entries
          rw [Value.normalize, hsame, buildMap_of_pairwise entries hkeys]

end Json

end QrtEngine
