import Mathlib.Data.List.Basic
import Mathlib.Order.Lattice

/-!
# The Grammar of JSON Bytes

JSON as a grammar of byte texts, to say what a scanner has to skip. The grammar is more generous
than the standard where that costs a scanner nothing: behind a backslash stands any byte, a string
may hold control bytes, and a scalar is any run of bytes without blanks, quotes and punctuation.
Every text of the standard is among the texts of this grammar.

A text has a depth, the number of arrays and objects its innermost part stands in.

## Main definitions

* `isBlank`, `Blank`: The whitespace between tokens.
* `StringBody`: What stands between two quotes, and the letters that it spells.
* `Unescaped`: A text that spells itself.
* `Scalar`: Numbers and literal names.
* `Phrase`: Values, and the lists of them inside of arrays and objects.

## Theorems

* `StringBody.no_nul`: A string body holds no NUL.
* `StringBody.letters_no_nul`: Neither do its letters.
* `StringBody.unescaped`: A text without quotes and backslashes spells itself.
-/

namespace QrtEngine

namespace JsonGrammar

def quote : UInt8 := 34
def comma : UInt8 := 44
def colon : UInt8 := 58
def openBracket : UInt8 := 91
def backslash : UInt8 := 92
def closeBracket : UInt8 := 93
def openBrace : UInt8 := 123
def closeBrace : UInt8 := 125

/-- Space, line feed, carriage return and tab. -/
def isBlank (ch : UInt8) : Bool := ch = 32 || ch = 10 || ch = 13 || ch = 9

/-- Whitespace between tokens. -/
def Blank (text : List UInt8) : Prop := ∀ ch ∈ text, isBlank ch

instance (text : List UInt8) : Decidable (Blank text) :=
  List.decidableBAll (fun ch => isBlank ch) text

theorem Blank.no_nul {blank : List UInt8} (h : Blank blank) : 0 ∉ blank :=
  fun hmem => absurd (h 0 hmem) (by decide)

/-- What stands between two quotes, and the letters that it spells. A backslash is dropped and the
    byte behind it is kept as it stands. -/
inductive StringBody : List UInt8 → List UInt8 → Prop
  | nil : StringBody [] []
  | plain {ch : UInt8} {body letters : List UInt8} (hnul : ch ≠ 0) (hquote : ch ≠ quote)
      (hbackslash : ch ≠ backslash) (rest : StringBody body letters) :
      StringBody (ch :: body) (ch :: letters)
  | escape {ch : UInt8} {body letters : List UInt8} (hnul : ch ≠ 0)
      (rest : StringBody body letters) : StringBody (backslash :: ch :: body) (ch :: letters)

/-- A text that stands between quotes as it is. -/
def Unescaped (name : List UInt8) : Prop := ∀ ch ∈ name, ch ≠ 0 ∧ ch ≠ quote ∧ ch ≠ backslash

instance (name : List UInt8) : Decidable (Unescaped name) :=
  List.decidableBAll (fun ch => ch ≠ 0 ∧ ch ≠ quote ∧ ch ≠ backslash) name

namespace StringBody

variable {body letters : List UInt8}

theorem no_nul (h : StringBody body letters) : 0 ∉ body := by
  induction h with
  | nil => exact List.not_mem_nil
  | plain hnul _ _ _ ih =>
      rw [List.mem_cons, not_or]
      exact ⟨hnul.symm, ih⟩
  | escape hnul _ ih =>
      rw [List.mem_cons, List.mem_cons, not_or, not_or]
      exact ⟨by decide, hnul.symm, ih⟩

theorem letters_no_nul (h : StringBody body letters) : 0 ∉ letters := by
  induction h with
  | nil => exact List.not_mem_nil
  | plain hnul _ _ _ ih | escape hnul _ ih =>
      rw [List.mem_cons, not_or]
      exact ⟨hnul.symm, ih⟩

/-- A string body that begins with a text without quotes and backslashes, and a quote behind it,
    is that text. -/
theorem unescaped (h : StringBody body letters) :
    ∀ {name rest rest' : List UInt8}, Unescaped name →
      body ++ quote :: rest = name ++ quote :: rest' → letters = name ∧ rest = rest' := by
  induction h with
  | nil =>
      intro name rest rest' hname hsame
      cases name with
      | nil => exact ⟨rfl, (List.cons.inj hsame).2⟩
      | cons ch name =>
          exact absurd (List.cons.inj hsame).1.symm (hname ch List.mem_cons_self).2.1
  | plain _ hquote _ _ ih =>
      intro name rest rest' hname hsame
      cases name with
      | nil => exact absurd (List.cons.inj hsame).1 hquote
      | cons ch name =>
          rcases List.cons.inj hsame with ⟨rfl, htail⟩
          rcases ih (fun c hc => hname c (List.mem_cons_of_mem _ hc)) htail with ⟨rfl, hrest⟩
          exact ⟨rfl, hrest⟩
  | escape _ _ _ =>
      intro name rest rest' hname hsame
      cases name with
      | nil => exact absurd (List.cons.inj hsame).1 (by decide)
      | cons ch name =>
          exact absurd (List.cons.inj hsame).1.symm (hname ch List.mem_cons_self).2.2

end StringBody

/-- The bytes that end a scalar or cannot stand in one. -/
def endsScalar (ch : UInt8) : Bool :=
  ch = 0 || isBlank ch || ch = quote || ch = comma || ch = colon || ch = openBracket ||
    ch = closeBracket || ch = openBrace || ch = closeBrace

/-- A number or a literal name. -/
def Scalar (text : List UInt8) : Prop := text ≠ [] ∧ ∀ ch ∈ text, endsScalar ch = false

instance (text : List UInt8) : Decidable (Scalar text) :=
  have : Decidable (∀ ch ∈ text, endsScalar ch = false) :=
    List.decidableBAll (fun ch => endsScalar ch = false) text
  instDecidableAnd

/-- What a phrase stands for. The items of an array are elements, those of an object members. -/
inductive Part
  | value
  | elements
  | members
  deriving DecidableEq, Repr

/-- The phrases of the grammar, each with its depth. -/
inductive Phrase : Part → Nat → List UInt8 → Prop
  | scalar {text : List UInt8} (h : Scalar text) : Phrase .value 0 text
  | string {body letters : List UInt8} (h : StringBody body letters) :
      Phrase .value 0 (quote :: body ++ [quote])
  | emptyArray {blank : List UInt8} (h : Blank blank) :
      Phrase .value 1 (openBracket :: blank ++ [closeBracket])
  | emptyObject {blank : List UInt8} (h : Blank blank) :
      Phrase .value 1 (openBrace :: blank ++ [closeBrace])
  | array {depth : Nat} {items : List UInt8} (h : Phrase .elements depth items) :
      Phrase .value (depth + 1) (openBracket :: items ++ [closeBracket])
  | object {depth : Nat} {items : List UInt8} (h : Phrase .members depth items) :
      Phrase .value (depth + 1) (openBrace :: items ++ [closeBrace])
  | element {depth : Nat} {before text behind : List UInt8} (hbefore : Blank before)
      (h : Phrase .value depth text) (hbehind : Blank behind) :
      Phrase .elements depth (before ++ text ++ behind)
  | member {depth : Nat} {before body letters between after text behind : List UInt8}
      (hbefore : Blank before) (hkey : StringBody body letters) (hbetween : Blank between)
      (hafter : Blank after) (h : Phrase .value depth text) (hbehind : Blank behind) :
      Phrase .members depth
        (before ++ (quote :: body ++ [quote]) ++ between ++ colon :: after ++ text ++ behind)
  | moreElements {depth depth' : Nat} {first rest : List UInt8}
      (hfirst : Phrase .elements depth first) (hrest : Phrase .elements depth' rest) :
      Phrase .elements (max depth depth') (first ++ comma :: rest)
  | moreMembers {depth depth' : Nat} {first rest : List UInt8}
      (hfirst : Phrase .members depth first) (hrest : Phrase .members depth' rest) :
      Phrase .members (max depth depth') (first ++ comma :: rest)

end JsonGrammar

end QrtEngine
