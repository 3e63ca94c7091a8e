import QrtEngine.Library.Json

/-!
# Reading Written JSON

What the parser makes of the pieces a writer puts together: the digits of an integer, four
hexadecimal digits, the items of a list with a separator between them. A number ends where no
character can continue it, so what a writer puts after a value matters. `Ends` is that
condition, and the separators and closing marks of every writer meet it.

## Main definitions

* `Ends`: A text that does not continue a number.
* `hexText`: Four hexadecimal digits.

## Theorems

* `hexQuad_hexText`: Four digits written are read back.
* `value_integerText`: An integer written is read back.
* `items_intercalate`: Items written with a separator are read back.
* `enclosed_intercalate`: The same between marks, without items too.
-/

namespace QrtEngine

namespace Json

variable {F : Type}

/-- What a list of characters is checked for holds of each of them. -/
theorem forall_mem_of_all {α : Type} (l : List α) (p : α → Prop) [DecidablePred p]
    (h : l.all (fun x => decide (p x)) = true) : ∀ x ∈ l, p x := by
  intro x hx
  exact of_decide_eq_true (List.all_eq_true.mp h x hx)

/-! ## Hexadecimal digits -/

/-- Four hexadecimal digits. -/
def hexText (n : Nat) : List Char :=
  [hexDigit (n / 4096 % 16), hexDigit (n / 256 % 16), hexDigit (n / 16 % 16), hexDigit (n % 16)]

theorem hexValue_hexDigit (n : Nat) (h : n < 16) : hexValue (hexDigit n) = some n := by
  have hall : ∀ m : Fin 16, hexValue (hexDigit m) = some m.val := by decide
  exact hall ⟨n, h⟩

theorem hexQuad_hexText (n : Nat) (h : n < 65536) (rest : List Char) :
    hexQuad (hexText n ++ rest) = some (n, rest) := by
  have hdigit : ∀ m : Nat, hexValue (hexDigit (m % 16)) = some (m % 16) :=
    fun m => hexValue_hexDigit _ (Nat.mod_lt _ (by decide))
  simp only [hexText, List.cons_append, List.nil_append, hexQuad, hdigit, bind, Option.bind_some,
    pure, Option.some.injEq, Prod.mk.injEq, and_true]
  omega

/-! ## Numbers -/

/-- A text that does not continue a number. -/
def Ends (rest : List Char) : Prop := ∀ c, rest.head? = some c → c ∉ numberChars

theorem ends_nil : Ends [] := fun c h => absurd h (by simp)

theorem ends_cons (c : Char) (rest : List Char) (h : c ∉ numberChars) : Ends (c :: rest) := by
  intro d hd
  rw [List.head?_cons, Option.some.injEq] at hd
  rw [← hd]
  exact h

theorem isDigit_mem_numberChars (c : Char) (h : c.isDigit = true) : c ∈ numberChars := by
  have hrange : 48 ≤ c.toNat ∧ c.toNat ≤ 57 := by
    simp only [Char.isDigit, Bool.and_eq_true, decide_eq_true_eq, ge_iff_le] at h
    exact h
  have hall : ∀ n : Fin 10, Char.ofNat (48 + n) ∈ numberChars := by decide
  have hc := hall ⟨c.toNat - 48, by omega⟩
  dsimp only at hc
  rwa [show 48 + (c.toNat - 48) = c.toNat by omega, Char.ofNat_toNat] at hc

theorem dropWhile_isDigit_of_ends (rest : List Char) (h : Ends rest) :
    rest.takeWhile Char.isDigit = [] ∧ rest.dropWhile Char.isDigit = rest := by
  cases rest with
  | nil => exact ⟨rfl, rfl⟩
  | cons c rest =>
      have hc : c.isDigit = false := by
        by_contra hdigit
        exact h c rfl (isDigit_mem_numberChars c (by simpa using hdigit))
      exact ⟨List.takeWhile_cons_of_neg (by simp [hc]), List.dropWhile_cons_of_neg (by simp [hc])⟩

theorem digits_append (ds rest : List Char) (hne : ds ≠ []) (hds : ∀ c ∈ ds, c.isDigit = true)
    (hrest : Ends rest) : digits (ds ++ rest) = some (ds, rest) := by
  rcases dropWhile_isDigit_of_ends rest hrest with ⟨htake, hdrop⟩
  unfold digits
  rw [List.takeWhile_append_of_pos hds, List.dropWhile_append_of_pos hds, htake, hdrop,
    List.append_nil, if_neg hne]

/-- A number without a leading zero is written without one. -/
theorem toDigits_head (n : Nat) (h : (Nat.toDigits 10 n).head? = some '0') :
    Nat.toDigits 10 n = ['0'] := by
  induction n using Nat.strongRecOn with
  | ind n ih =>
      by_cases hlt : n < 10
      · rw [Nat.toDigits_of_lt_base hlt] at h ⊢
        rw [List.head?_cons, Option.some.injEq] at h
        rw [h]
      · -- The first digit is that of the number without its last one, which is not zero.
        rw [Nat.toDigits_of_base_le (by decide) (by omega)] at h
        have hhead : (Nat.toDigits 10 (n / 10)).head? = some '0' := by
          rw [List.head?_append_of_ne_nil _ Nat.toDigits_ne_nil] at h
          exact h
        have hzero := ih (n / 10) (by omega) hhead
        have hvalue := Nat.ofDigitChars_ten_toDigits (n := n / 10)
        rw [hzero] at hvalue
        simp [Nat.ofDigitChars] at hvalue
        omega

theorem fraction_of_ends (rest : List Char) (h : Ends rest) : fraction rest = some ([], rest) := by
  unfold fraction
  split
  · exact absurd (h '.' rfl) (by decide)
  · rfl

theorem exponent_of_ends (rest : List Char) (h : Ends rest) : exponent rest = some ([], rest) := by
  cases rest with
  | nil => rfl
  | cons c rest =>
      have hc := h c rfl
      have hmark : ¬(c = 'e' ∨ c = 'E') := by
        rintro (rfl | rfl) <;> exact absurd hc (by decide)
      simp only [exponent, if_neg hmark]

/-- Digits written are read back as a number. -/
theorem unsigned_toDigits (floats : Floats F) (negative : Bool) (n : Nat) (rest : List Char)
    (hrest : Ends rest) :
    unsigned floats negative (Nat.toDigits 10 n ++ rest) =
      (numberValue floats negative (Nat.toDigits 10 n) []).map fun v => (v, rest) := by
  have hdigits : digits (Nat.toDigits 10 n ++ rest) = some (Nat.toDigits 10 n, rest) :=
    digits_append _ rest Nat.toDigits_ne_nil
      (fun c hc => Nat.isDigit_of_mem_toDigits (by decide) (by decide) hc) hrest
  have hwhole : wholePart (Nat.toDigits 10 n ++ rest) = some (Nat.toDigits 10 n, rest) := by
    unfold wholePart
    rw [hdigits]
    dsimp only
    rw [if_neg fun h => h.2 (toDigits_head n h.1)]
  unfold unsigned
  simp only [hwhole, fraction_of_ends rest hrest, exponent_of_ends rest hrest, bind,
    Option.bind_some, List.append_nil, pure]
  cases numberValue floats negative (Nat.toDigits 10 n) [] <;> rfl

/-- An integer written is read back. -/
theorem number_integerText (floats : Floats F) (n : Integer) (rest : List Char)
    (hrest : Ends rest) :
    number floats (integerText n.val ++ rest) = some (.int n, rest) := by
  have hlower := n.lower
  have hupper := n.upper
  by_cases hneg : n.val < 0
  · have htext : integerText n.val ++ rest = '-' :: (Nat.toDigits 10 n.val.natAbs ++ rest) := by
      simp [integerText, hneg]
    have hback : -((n.val.natAbs : Nat) : Int) = n.val := by omega
    rw [htext, number, unsigned_toDigits floats true _ rest hrest]
    simp only [numberValue, Nat.ofDigitChars_ten_toDigits, if_true, hback]
    rw [dif_pos ⟨trivial, by omega, hlower, hupper⟩]
    rfl
  · have htext : integerText n.val ++ rest = Nat.toDigits 10 n.val.natAbs ++ rest := by
      simp [integerText, hneg]
    have hback : ((n.val.natAbs : Nat) : Int) = n.val := by omega
    -- The first character is a digit, so it is not the sign.
    have hnumber : number floats (Nat.toDigits 10 n.val.natAbs ++ rest) =
        unsigned floats false (Nat.toDigits 10 n.val.natAbs ++ rest) := by
      cases hdigits : Nat.toDigits 10 n.val.natAbs with
      | nil => exact absurd hdigits Nat.toDigits_ne_nil
      | cons c ds =>
          have hc : c.isDigit = true := Nat.isDigit_of_mem_toDigits (b := 10) (n := n.val.natAbs)
            (by decide) (by decide) (by rw [hdigits]; exact List.mem_cons_self)
          unfold number
          split
          · rename_i heq
            rw [List.cons_append, List.cons.injEq] at heq
            rw [heq.1] at hc
            exact absurd hc (by decide)
          · rfl
    rw [htext, hnumber, unsigned_toDigits floats false _ rest hrest]
    simp only [numberValue, Nat.ofDigitChars_ten_toDigits, Bool.false_eq_true, if_false, hback,
      false_and, not_false_eq_true, true_and]
    rw [dif_pos ⟨hlower, hupper⟩]
    rfl

/-! ## Items -/

/-- A text that begins with a character that is no white space. -/
def Solid (text : List Char) : Prop := ∃ c rest, text = c :: rest ∧ isSpace c = false

theorem skipSpace_of_solid (spaces text rest : List Char) (hspaces : ∀ c ∈ spaces, isSpace c = true)
    (h : Solid text) : skipSpace (spaces ++ (text ++ rest)) = text ++ rest := by
  rcases h with ⟨c, tail, rfl, hc⟩
  unfold skipSpace
  rw [List.dropWhile_append_of_pos hspaces, List.cons_append,
    List.dropWhile_cons_of_neg (by simp [hc])]

theorem skipSpace_cons (c : Char) (rest : List Char) (h : isSpace c = false) :
    skipSpace (c :: rest) = c :: rest :=
  List.dropWhile_cons_of_neg (by simp [h])

/-- A parser reads back written items, each in front of anything that ends a number and up to
    a length. -/
def ReadsBack {α : Type} (item : List Char → Option (α × List Char)) (n : Nat)
    (pairs : List (α × List Char)) : Prop :=
  ∀ p ∈ pairs, Solid p.2 ∧ ∀ rest, Ends rest → (p.2 ++ rest).length ≤ n →
    item (p.2 ++ rest) = some (p.1, rest)

/-- Items written with a separator are read back. -/
theorem items_intercalate {α : Type} (item : List Char → Option (α × List Char)) (close : Char)
    (hcomma : close ≠ ',') (hspace : isSpace close = false) (hclose : close ∉ numberChars)
    (spaces : List Char) (hspaces : ∀ c ∈ spaces, isSpace c = true) (n : Nat)
    (pairs : List (α × List Char)) (hne : pairs ≠ []) (hread : ReadsBack item n pairs)
    (lead rest : List Char) (hlead : ∀ c ∈ lead, isSpace c = true) (fuel : Nat)
    (hfuel : pairs.length ≤ fuel)
    (hn : ((',' :: spaces).intercalate (pairs.map Prod.snd) ++ close :: rest).length ≤ n) :
    items item close fuel
        (lead ++ ((',' :: spaces).intercalate (pairs.map Prod.snd) ++ close :: rest)) =
      some (pairs.map Prod.fst, rest) := by
  induction pairs generalizing lead fuel with
  | nil => exact absurd rfl hne
  | cons p pairs ih =>
      rcases hread p List.mem_cons_self with ⟨hsolid, hitem⟩
      cases fuel with
      | zero => exact absurd hfuel (by simp)
      | succ fuel =>
          cases pairs with
          | nil =>
              simp only [List.map_cons, List.map_nil, List.intercalate_singleton] at hn ⊢
              unfold items
              rw [skipSpace_of_solid lead p.2 (close :: rest) hlead hsolid,
                hitem (close :: rest) (ends_cons close rest hclose) hn]
              dsimp only
              rw [skipSpace_cons close rest hspace]
              dsimp only
              rw [if_neg hcomma, if_pos rfl]
          | cons q pairs =>
              simp only [List.map_cons, List.intercalate_cons_cons, List.append_assoc,
                List.cons_append] at hn ⊢
              unfold items
              rw [skipSpace_of_solid lead p.2 _ hlead hsolid,
                hitem _ (ends_cons ',' _ (by decide)) hn]
              dsimp only
              rw [skipSpace_cons ',' _ (by decide)]
              dsimp only
              -- After the comma the remaining items follow, behind the separator's spaces.
              have hrest := ih (by simp) (fun r hr => hread r (List.mem_cons_of_mem p hr)) spaces
                hspaces fuel (by simpa using hfuel) (by
                  simp only [List.map_cons, List.length_append, List.length_cons] at hn ⊢
                  omega)
              simp only [List.map_cons] at hrest
              rw [if_pos rfl, hrest]
              rfl

/-- Joined texts are at least as long as they are many. -/
theorem length_le_intercalate (separator : List Char) (texts : List (List Char))
    (h : ∀ text ∈ texts, text ≠ []) : texts.length ≤ (separator.intercalate texts).length := by
  induction texts with
  | nil => exact Nat.zero_le _
  | cons text texts ih =>
      have hpos := List.length_pos_of_ne_nil (h text List.mem_cons_self)
      have hrest := ih fun text' htext' => h text' (List.mem_cons_of_mem text htext')
      cases texts with
      | nil =>
          rw [List.intercalate_singleton, List.length_cons, List.length_nil]
          omega
      | cons text' texts =>
          rw [List.intercalate_cons_cons, List.length_cons, List.length_append, List.length_append]
          omega

/-- Items written between marks are read back, without items too. -/
theorem enclosed_intercalate {α : Type} (item : List Char → Option (α × List Char)) (close : Char)
    (hcomma : close ≠ ',') (hspace : isSpace close = false) (hclose : close ∉ numberChars)
    (spaces : List Char) (hspaces : ∀ c ∈ spaces, isSpace c = true) (fuel : Nat)
    (pairs : List (α × List Char)) (hread : ReadsBack item fuel pairs)
    (hfirst : ∀ p ∈ pairs, p.2.head? ≠ some close) (rest : List Char)
    (hfuel : ((',' :: spaces).intercalate (pairs.map Prod.snd) ++ close :: rest).length ≤ fuel) :
    enclosed item close fuel
        ((',' :: spaces).intercalate (pairs.map Prod.snd) ++ close :: rest) =
      some (pairs.map Prod.fst, rest) := by
  cases pairs with
  | nil =>
      simp only [List.map_nil, List.intercalate_nil, List.nil_append]
      unfold enclosed
      rw [skipSpace_cons close rest hspace]
      dsimp only
      rw [if_pos rfl]
  | cons p pairs =>
      -- There are no more items than characters.
      have hcount : (p :: pairs).length ≤ fuel := by
        have hjoined := length_le_intercalate (',' :: spaces) ((p :: pairs).map Prod.snd) (by
          intro text htext
          rcases List.mem_map.mp htext with ⟨q, hq, rfl⟩
          rcases (hread q hq).1 with ⟨c, tail, heq, -⟩
          rw [heq]
          exact List.cons_ne_nil c tail)
        rw [List.length_map] at hjoined
        rw [List.length_append] at hfuel
        omega
      have hitems := items_intercalate item close hcomma hspace hclose spaces hspaces fuel
        (p :: pairs) (by simp) hread [] rest (fun c hc => absurd hc List.not_mem_nil) fuel hcount
        hfuel
      rcases (hread p List.mem_cons_self).1 with ⟨c, tail, htext, hc⟩
      -- The first item begins the text, with a character that is not the closing mark.
      have hhead : ∃ more, (',' :: spaces).intercalate ((p :: pairs).map Prod.snd) ++
          close :: rest = c :: more := by
        cases pairs with
        | nil => exact ⟨tail ++ close :: rest, by simp [List.intercalate, htext]⟩
        | cons q pairs =>
            rw [List.map_cons, List.map_cons, List.intercalate_cons_cons, List.append_assoc, htext]
            exact ⟨_, rfl⟩
      rcases hhead with ⟨more, hmore⟩
      rw [List.nil_append, hmore] at hitems
      have hne : c ≠ close := by
        intro heq
        exact hfirst p List.mem_cons_self (by rw [htext, heq]; rfl)
      unfold enclosed
      rw [hmore, skipSpace_cons c more hc]
      dsimp only
      rw [if_neg hne, hitems]

end Json

end QrtEngine
