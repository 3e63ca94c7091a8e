import Mathlib.Data.List.Basic

/-!
# Chains

A chain extends a list by one entry at a time, each a function of the list so far. Cutting a chain
into pieces changes nothing if each piece goes on from the list the pieces before have left.

## Main definitions

* `chain`: The entries added, so many of them.
* `cutAfter`: A list up to the first entry of a kind.
* `spanReplies`: The replies of the spans that fill an output.

## Theorems

* `length_chain`: As many entries are added as were asked for.
* `chain_add`: A chain in two pieces.
* `take_chain`: A shorter chain begins a longer one.
* `chain_succ`: The last entry of a chain.
* `chain_cutAfter`: Where a chain is cut, known from an entry of it and the ones before.
* `tail_chain_chain`: A span that repeats the last entry of a chain goes on after it.
-/

namespace QrtEngine

variable {α : Type}

/-- The entries added to a list one by one, each a function of the list so far. -/
def chain (next : List α → α) : List α → Nat → List α
  | _, 0 => []
  | input, count + 1 => next input :: chain next (input ++ [next input]) count

variable (next : List α → α) (input : List α)

theorem length_chain (count : Nat) : (chain next input count).length = count := by
  induction count generalizing input with
  | zero => rfl
  | succ count ih => exact congrArg (· + 1) (ih _)

/-- A chain in two pieces. -/
theorem chain_add (m n : Nat) :
    chain next input (m + n) =
      chain next input m ++ chain next (input ++ chain next input m) n := by
  induction m generalizing input with
  | zero => rw [Nat.zero_add, chain, List.append_nil, List.nil_append]
  | succ m ih =>
      rw [Nat.succ_add, chain, chain, ih, List.cons_append, List.append_assoc,
        List.singleton_append]

/-- A shorter chain begins a longer one. -/
theorem take_chain (m n : Nat) (h : m ≤ n) : (chain next input n).take m = chain next input m := by
  obtain ⟨k, rfl⟩ := Nat.exists_eq_add_of_le h
  rw [chain_add]
  exact List.take_left' (length_chain next input m)

/-- The last entry of a chain is added to the ones before. -/
theorem chain_succ (count : Nat) :
    chain next input (count + 1) =
      chain next input count ++ [next (input ++ chain next input count)] := by
  rw [chain_add]
  rfl

/-- A span that repeats the last entry of a chain goes on after it. -/
theorem tail_chain_chain (m n : Nat) :
    (chain next (input ++ chain next input m) (n + 1)).tail =
      chain next (input ++ chain next input (m + 1)) n := by
  rw [chain_succ next input m, ← List.append_assoc]
  rfl

/-! ## Chains cut after an entry -/

/-- A list up to and with its first entry of a kind, and the whole list if there is none. -/
def cutAfter (kind : α → Bool) : List α → List α
  | [] => []
  | a :: l => if kind a then [a] else a :: cutAfter kind l

section Cut

variable (kind : α → Bool)

theorem cutAfter_append (l m : List α) (h : ∀ a ∈ l, kind a = false) :
    cutAfter kind (l ++ m) = l ++ cutAfter kind m := by
  induction l with
  | nil => rfl
  | cons a l ih =>
      rw [List.cons_append, cutAfter, if_neg (by rw [h a List.mem_cons_self]; decide),
        ih fun b hb => h b (List.mem_cons_of_mem a hb), List.cons_append]

/-- An entry with none of the kind before it stands in a cut chain, and it is the last one exactly
    if it is of the kind or the chain ends with it. -/
theorem chain_cutAfter (count capacity : Nat) (hlt : count < capacity)
    (hnone : ∀ a ∈ chain next input count, kind a = false) :
    let entry := next (input ++ chain next input count)
    (kind entry = true ∨ count + 1 = capacity →
      cutAfter kind (chain next input capacity) = chain next input (count + 1)) ∧
    (kind entry = false → count + 1 < capacity →
      count + 1 < (cutAfter kind (chain next input capacity)).length) ∧
    (cutAfter kind (chain next input capacity)).take (count + 1) =
      chain next input (count + 1) := by
  intro entry
  obtain ⟨more, rfl⟩ := Nat.exists_eq_add_of_lt hlt
  have hwhole : cutAfter kind (chain next input (count + more + 1)) =
      chain next input count ++
        (if kind entry then [entry]
          else entry :: cutAfter kind (chain next (input ++ chain next input count ++ [entry])
            more)) := by
    rw [Nat.add_assoc, chain_add, cutAfter_append kind _ _ hnone, chain, cutAfter]
  have hlast : chain next input (count + 1) = chain next input count ++ [entry] :=
    chain_succ next input count
  have hcount := length_chain next input count
  rw [hwhole, hlast]
  refine ⟨?_, ?_, ?_⟩
  · intro hends
    by_cases hkind : kind entry = true
    · rw [if_pos hkind]
    · have hmore : more = 0 := by
        have := hends.resolve_left hkind
        omega
      subst hmore
      rw [if_neg hkind]
      rfl
  · intro hkind hmore
    -- A cut list that is not empty has at least one entry.
    obtain ⟨rest, rfl⟩ := Nat.exists_eq_add_of_lt (show 0 < more by omega)
    rw [hkind, if_neg Bool.false_ne_true, Nat.zero_add, chain, cutAfter]
    split
    · simp only [List.length_append, List.length_cons, List.length_nil, hcount]
      omega
    · simp only [List.length_append, List.length_cons, hcount]
      omega
  · rw [List.take_append, List.take_of_length_le (by omega), hcount,
      show count + 1 - count = 1 by omega]
    split <;> rfl

end Cut

/-! ## Spans -/

section Spans

variable {σ ρ : Type} (ask : σ → List α → ρ × σ) (added : ρ → List α) (capacity : Nat)

/-- The replies of the spans that fill an output up to a capacity, one after the other: each is
    asked for in the state that the one before has left, and adds to the output. -/
def spanReplies : Nat → σ → List α → List ρ
  | 0, _, _ => []
  | fuel + 1, s, outputs =>
      if capacity ≤ outputs.length then []
      else
        let reply := ask s outputs
        reply.1 :: spanReplies fuel reply.2 (outputs ++ added reply.1)

end Spans

end QrtEngine
