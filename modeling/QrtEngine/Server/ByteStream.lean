import QrtEngine.Library.Utf8Lossy
import QrtEngine.Server.Finalize

/-!
# Streaming Bytes

A stream over a tokenizer whose tokens are bytes, of which a character may need several. The text
of a prefix of the tokens can end with a replacement for a character that is not finished, and the
text of a longer prefix does not extend it then. The stream holds back the three bytes of the
replacement, or the bytes in which a stop string may have begun, whichever are more. It would have
to hold back both.

So there are two ways in which it goes wrong, both at a prefix of the tokens that ends inside a
character which is not itself the replacement. The stop string may end with a replacement, and the
provisional one completes it: the stream stops there, and the finished text goes on. Or the stop
string has begun before the character, and so few bytes of it are left that the replacement covers
them: the first character of the stop string is sent, and the finished text ends before it. In all
other cases what was sent begins the finished text at every moment, and is all of it at the end.

## Main definitions

* `Codec.ByteLevel`: The tokens are bytes.
* `harmful`: Breaking off here goes wrong.
* `Harmless`: What an update has to do at a prefix.
* `StreamsFinal`: What was sent begins the finished text, and is all of it at the end.

## Theorems

* `harmless_of_single`: A prefix that is not harmful is harmless.
* `updates_of_harmless`: What has been sent after updates that are harmless.
* `completionStream_bytes_iff`: The stream is exact if no prefix is harmful, and only then.
-/

namespace QrtEngine

namespace Text

open ByteText
open Utf8Lossy

/-- The tokenizer decodes the bytes of its tokens. -/
def Codec.ByteLevel (codec : Codec) (bytes : UInt32 → List UInt8) : Prop :=
  ∀ tokens, codec.decode tokens = some (fromUtf8Lossy (tokens.flatMap bytes))

/-! ## Cuts at one stop string -/

theorem earliestStop_single (text stop : Str) :
    earliestStop text [stop] = (find stop text).map fun position => (position, stop) := by
  unfold earliestStop
  cases h : find stop text with
  | none => simp only [List.filterMap_cons, h, Option.map_none, List.filterMap_nil, minByKey]
  | some position =>
      simp only [List.filterMap_cons, h, Option.map_some, List.filterMap_nil, minByKey]

/-- The stop string occurs in a text exactly if it is found there. -/
theorem earliestStop_isSome_iff (text stop : Str) :
    (earliestStop text [stop]).isSome = true ↔ ∃ u, Occurs text stop u := by
  rw [earliestStop_single, Option.isSome_map]
  cases h : find stop text with
  | none => exact iff_of_false Bool.false_ne_true fun ⟨u, hu⟩ => find_eq_none_iff.mp h u hu
  | some position =>
      rcases find_spec h with ⟨u, hu, -⟩
      exact iff_of_true rfl ⟨u, hu⟩

/-- The cut of a text without the stop string. -/
theorem cutAt_of_free (text stop : Str) (h : ∀ u, ¬Occurs text stop u) :
    cutAt text [stop] = text := by
  unfold cutAt
  rw [earliestStop_single, find_eq_none_iff.mpr h]
  rfl

/-- The cut of a text with it is the text before its first occurrence. -/
theorem cutAt_of_occurs (text stop u : Str) (h : Occurs text stop u) :
    Occurs text stop (cutAt text [stop]) ∧
      find stop text = some (byteLen (cutAt text [stop])) ∧
      ∀ u', Occurs text stop u' → byteLen (cutAt text [stop]) ≤ byteLen u' := by
  cases hfind : find stop text with
  | none => exact absurd h (find_eq_none_iff.mp hfind u)
  | some position =>
      rcases find_spec hfind with ⟨w, hw, hlen, hmin⟩
      have hearliest : earliestStop text [stop] = some (position, stop) := by
        rw [earliestStop_single, hfind, Option.map_some]
      rw [cutAt_of_some text [stop] position stop w hearliest hw.before hlen]
      exact ⟨hw, congrArg some hlen.symm, hmin⟩

/-- A text that begins a longer one and has the stop string is cut where the longer one is. -/
theorem cutAt_of_isPrefix (text full stop u : Str) (hpre : text <+: full)
    (h : Occurs text stop u) : cutAt text [stop] = cutAt full [stop] := by
  rcases cutAt_of_occurs text stop u h with ⟨hfirst, -, hmin⟩
  rcases cutAt_of_occurs full stop u (h.extend hpre) with ⟨hfirst', -, hmin'⟩
  have hle := hmin' _ (hfirst.extend hpre)
  -- The occurrence in the longer text ends no later, so it is inside the shorter one.
  have hends := hfirst.byteLen_le
  have hge := hmin _ (hfirst'.restrict hpre (by omega))
  exact prefix_eq_of_byteLen_eq (hfirst.before.trans hpre) hfirst'.before (by omega)

/-! ## Breaking off inside a character -/

/-- What was read of some of the bytes of a text. -/
structure Within (full : Str) (settled : Settled) : Prop where
  stable : settled.stable <+: full
  next : settled.pending.isSome = true →
    ∃ char, Becomes char ∧ settled.stable ++ [char] <+: full

theorem within_settle (bytes more : List UInt8) :
    Within (fromUtf8Lossy (bytes ++ more)) (settle bytes) :=
  ⟨stable_isPrefix_fromUtf8Lossy bytes more, pending_next bytes more⟩

/-- The bytes break off inside a character that is not the replacement itself. Either the stop
    string ends with the replacement that stands there instead, or it begins before the character
    in the full text, with so few bytes from the character on that they are covered by what is
    held back for the replacement. -/
def harmful (stop full : Str) (settled : Settled) : Bool :=
  settled.pending.isSome &&
    (full.drop settled.stable.length).head? != some replacement &&
    ((find stop settled.stable).isNone &&
        stop.isSuffixOf (settled.stable ++ [replacement]) ||
      match find stop full with
      | none => false
      | some position =>
          decide (position < byteLen settled.stable) &&
            decide (byteLen settled.stable < position + byteLen stop) &&
            decide ((stop.headD replacement).utf8Size +
              (position + byteLen stop - byteLen settled.stable) ≤ 4))

/-! ### What is left if it is not harmful -/

section Single

variable {full stop : Str} {settled : Settled}

/-- The text so far begins the full text, or it ends with a replacement for a character that turns
    out to be another one. -/
theorem Within.cases (h : Within full settled) :
    settled.text <+: full ∨
      settled.text = settled.stable ++ [replacement] ∧ settled.pending.isSome = true ∧
        ∃ char, 2 ≤ char.utf8Size ∧ char ≠ replacement ∧ settled.stable ++ [char] <+: full := by
  unfold Settled.text
  cases hpending : settled.pending.isSome with
  | false =>
      rw [if_neg Bool.false_ne_true, List.append_nil]
      exact .inl h.stable
  | true =>
      rw [if_pos rfl]
      rcases h.next hpending with ⟨char, hbecomes, hnext⟩
      by_cases hchar : char = replacement
      · rw [hchar] at hnext
        exact .inl hnext
      · exact .inr ⟨rfl, rfl, char, hbecomes.resolve_left hchar, hchar, hnext⟩

/-- What follows the text that is settled. -/
theorem head?_drop_of_isPrefix {stable : Str} {char : Char} (h : stable ++ [char] <+: full) :
    (full.drop stable.length).head? = some char := by
  rcases h with ⟨rest, rfl⟩
  rw [List.append_assoc, List.drop_left]
  rfl

/-- Where the bytes break off inside another character, the two ways to go wrong are excluded. -/
theorem harmful_eq_false_iff {char : Char} (hpending : settled.pending.isSome = true)
    (hchar : char ≠ replacement) (hnext : settled.stable ++ [char] <+: full) :
    harmful stop full settled = false ↔
      ¬((find stop settled.stable) = none ∧ stop <:+ settled.stable ++ [replacement]) ∧
      ∀ position, find stop full = some position →
        ¬(position < byteLen settled.stable ∧ byteLen settled.stable < position + byteLen stop ∧
          (stop.headD replacement).utf8Size +
            (position + byteLen stop - byteLen settled.stable) ≤ 4) := by
  have hhead : ((full.drop settled.stable.length).head? != some replacement) = true := by
    rw [head?_drop_of_isPrefix hnext, bne_iff_ne]
    exact fun h => hchar (Option.some.inj h)
  unfold harmful
  rw [hpending, hhead, Bool.true_and, Bool.true_and, Bool.or_eq_false_iff]
  refine and_congr ?_ ?_
  · rw [← Bool.not_eq_true, Bool.and_eq_true, Option.isNone_iff_eq_none, List.isSuffixOf_iff_suffix]
  · cases hfind : find stop full with
    | none => exact iff_of_true rfl fun _ h => absurd h (Option.some_ne_none _).symm
    | some position =>
        dsimp only
        rw [← Bool.not_eq_true]
        simp only [Bool.and_eq_true, decide_eq_true_eq, Option.some.injEq, forall_eq', and_assoc]

/-- A stop string that ends with the last character and does not occur before it is at the end. -/
theorem isSuffix_of_occurs {stable u : Str} {char : Char} (hfree : ∀ u, ¬Occurs stable stop u)
    (h : Occurs (stable ++ [char]) stop u) : stop <:+ stable ++ [char] := by
  rcases h with ⟨v, hv⟩
  rcases List.eq_nil_or_concat v with rfl | ⟨rest, last, rfl⟩
  · exact ⟨u, by rw [hv, List.append_nil]⟩
  · have hsplit : stable ++ [char] = u ++ (stop ++ rest) ++ [last] := by
      rw [hv, List.concat_eq_append, List.append_assoc, List.append_assoc]
    exact absurd ⟨rest, (List.append_inj' hsplit rfl).1⟩ (hfree u)

end Single

/-- An update at this prefix does what it should: it cuts where the finished text is cut, and
    before that it sends no more than the finished text has. -/
structure Harmless (stops : List Str) (full : Str) (settled : Settled) : Prop where
  cut : (earliestStop settled.text stops).isSome = true →
    cutAt settled.text stops = cutAt full stops
  target : earliestStop settled.text stops = none → ∀ st : TextStreamState, st.stops = stops →
    takeBytes (st.targetEnd settled.text false) settled.text <+: cutAt full stops

/-- The bytes that an update before the last holds back are not sent. -/
theorem byteLen_target_le (st : TextStreamState) (text : Str)
    (hfree : earliestStop text st.stops = none) :
    byteLen (takeBytes (st.targetEnd text false) text) ≤ byteLen text - st.holdBytes text := by
  refine Nat.le_trans (byteLen_takeBytes_le _ text) ?_
  unfold TextStreamState.targetEnd
  rw [hfree]
  exact floorBoundary_le text _

/-- A prefix whose text begins the full one is harmless. -/
theorem target_of_isPrefix (stops : List Str) (text full : Str) (hpre : text <+: full)
    (hfree : earliestStop text stops = none) (st : TextStreamState) (hstops : st.stops = stops) :
    takeBytes (st.targetEnd text false) text <+: cutAt full stops := by
  subst hstops
  have hle := byteLen_target_le st text hfree
  have hhold : stopHold st.stops ≤ st.holdBytes text := Nat.le_max_left _ _
  by_cases hall : byteLen text < stopHold st.stops
  · rw [eq_nil_of_byteLen (s := takeBytes (st.targetEnd text false) text) (by omega)]
    exact List.nil_prefix
  · exact held_prefix_cutAt text full _ st.stops hpre hfree (takeBytes_isPrefix _ text) (by omega)

/-- While the text ends with a replacement, its three bytes are held back. -/
theorem three_le_holdBytes (st : TextStreamState) (stable : Str) :
    3 ≤ st.holdBytes (stable ++ [replacement]) := by
  have hlast : (stable ++ [replacement]).getLast? = some '\uFFFD' := List.getLast?_concat
  unfold TextStreamState.holdBytes
  rw [hlast, if_pos rfl]
  exact Nat.le_max_right _ _

theorem byteLen_replacement : byteLen [replacement] = 3 := rfl

/-- What is sent of a text that ends with a replacement is from the part that is settled. -/
theorem target_isPrefix_stable (st : TextStreamState) (stable : Str)
    (hfree : earliestStop (stable ++ [replacement]) st.stops = none) :
    takeBytes (st.targetEnd (stable ++ [replacement]) false) (stable ++ [replacement]) <+:
      stable := by
  have hle := byteLen_target_le st _ hfree
  have hthree := three_le_holdBytes st stable
  rw [byteLen_append, byteLen_replacement] at hle
  exact prefix_of_byteLen_le (takeBytes_isPrefix _ _) (List.prefix_append stable _) (by omega)

/-- Without stop strings every prefix is harmless. -/
theorem harmless_of_nil (full : Str) (settled : Settled) (h : Within full settled) :
    Harmless [] full settled := by
  refine ⟨fun hsome => absurd hsome Bool.false_ne_true, ?_⟩
  intro hfree st hstops
  rcases h.cases with hpre | ⟨htext, -, -, -, -, hnext⟩
  · exact target_of_isPrefix [] _ full hpre hfree st hstops
  · rw [htext] at hfree ⊢
    rw [← hstops] at hfree
    exact (target_isPrefix_stable st settled.stable hfree).trans h.stable

/-- The first character of a stop string after its first occurrence. -/
theorem head_of_occurs {full stop u : Str} (hne : stop ≠ []) (h : Occurs full stop u) :
    u ++ [stop.headD replacement] <+: full := by
  cases stop with
  | nil => exact absurd rfl hne
  | cons char rest =>
      rcases h with ⟨v, rfl⟩
      exact ⟨rest ++ v, by simp only [List.headD_cons, List.append_assoc, List.cons_append,
        List.nil_append]⟩

/-- What is held back for a text that ends with a replacement, if it is settled that the stop string
    is not too close. -/
theorem target_of_not_covered (stop full stable target : Str) (hne : stop ≠ [])
    (hstable : stable <+: full) (htarget : target <+: stable)
    (hheld : byteLen target + byteLen stop ≤ byteLen stable + 4)
    (hfree : ∀ u, ¬Occurs stable stop u)
    (hcovers : ∀ position, find stop full = some position →
      ¬(position < byteLen stable ∧ byteLen stable < position + byteLen stop ∧
        (stop.headD replacement).utf8Size + (position + byteLen stop - byteLen stable) ≤ 4)) :
    target <+: cutAt full [stop] := by
  by_cases hoccurs : ∃ u, Occurs full stop u
  · rcases hoccurs with ⟨u, hu⟩
    rcases cutAt_of_occurs full stop u hu with ⟨hfirst, hfind, -⟩
    by_cases hle : byteLen target ≤ byteLen (cutAt full [stop])
    · exact prefix_of_byteLen_le (htarget.trans hstable) hfirst.before hle
    -- Otherwise the first character of the stop string is sent, and the few bytes that are left of
    -- it are the ones that were excluded.
    · have hends : byteLen stable < byteLen (cutAt full [stop]) + byteLen stop := by
        by_contra hinside
        exact hfree _ (hfirst.restrict hstable (by omega))
      have hhead := byteLen_le_of_isPrefix (prefix_concat_of_byteLen_lt
        (head_of_occurs hne hfirst) (htarget.trans hstable) (by omega))
      have hinside := byteLen_le_of_isPrefix htarget
      rw [byteLen_append, byteLen_cons, byteLen_nil] at hhead
      exact absurd ⟨by omega, hends, by omega⟩ (hcovers _ hfind)
  · rw [cutAt_of_free full stop fun u hu => hoccurs ⟨u, hu⟩]
    exact htarget.trans hstable

/-- With one stop string a prefix that is not harmful is harmless. -/
theorem harmless_of_single (stop full : Str) (settled : Settled) (hne : stop ≠ [])
    (h : Within full settled) (hsafe : harmful stop full settled = false) :
    Harmless [stop] full settled := by
  rcases h.cases with hpre | ⟨htext, hpending, char, -, hchar, hnext⟩
  · refine ⟨fun hsome => ?_, fun hfree st => target_of_isPrefix [stop] _ full hpre hfree st⟩
    rcases (earliestStop_isSome_iff _ stop).mp hsome with ⟨u, hu⟩
    exact cutAt_of_isPrefix _ full stop u hpre hu
  · rcases (harmful_eq_false_iff hpending hchar hnext).mp hsafe with ⟨hcompletes, hcovers⟩
    refine ⟨fun hsome => ?_, fun hfree st hstops => ?_⟩
    -- The stop string does not need the replacement, so it is in the part that is settled.
    · rw [htext] at hsome ⊢
      rcases (earliestStop_isSome_iff _ stop).mp hsome with ⟨u, hu⟩
      cases hfind : find stop settled.stable with
      | none =>
          exact absurd ⟨hfind, isSuffix_of_occurs (find_eq_none_iff.mp hfind) hu⟩ hcompletes
      | some position =>
          rcases find_spec hfind with ⟨w, hw, -⟩
          rw [← cutAt_of_isPrefix settled.stable (settled.stable ++ [replacement]) stop w
            (List.prefix_append _ _) hw, cutAt_of_isPrefix settled.stable full stop w h.stable hw]
    · rw [htext] at hfree ⊢
      rw [← hstops] at hfree
      have hle := byteLen_target_le st _ hfree
      have hwidth := byteLen_le_stopHold [stop] stop List.mem_cons_self
      have hhold : stopHold st.stops ≤ st.holdBytes (settled.stable ++ [replacement]) :=
        Nat.le_max_left _ _
      rw [byteLen_append, byteLen_replacement] at hle
      rw [hstops] at hhold
      by_cases hall : byteLen settled.stable + 3 < st.holdBytes (settled.stable ++ [replacement])
      · rw [eq_nil_of_byteLen (s := takeBytes _ _) (by omega)]
        exact List.nil_prefix
      · refine target_of_not_covered stop full settled.stable _ hne h.stable
          (target_isPrefix_stable st settled.stable hfree) (by omega) ?_ hcovers
        intro u hu
        rw [hstops, earliestStop_eq_none_iff] at hfree
        exact hfree stop List.mem_cons_self u (hu.extend (List.prefix_append _ _))

/-! ## The updates -/

theorem updates_concat (stops : List Str) (texts : List Str) (full : Str) :
    updates stops (texts ++ [full]) = ((updates stops texts).update full false).2 := by
  unfold updates
  rw [List.foldl_append]
  rfl

theorem update_stops (st : TextStreamState) (full : Str) (finalUpdate : Bool) :
    (st.update full finalUpdate).2.stops = st.stops := by
  unfold TextStreamState.update TextStreamState.send
  split_ifs <;> rfl

theorem updates_stops (stops : List Str) (texts : List Str) :
    (updates stops texts).stops = stops := by
  induction texts using List.reverseRecOn with
  | nil => rfl
  | append_singleton texts full ih => rw [updates_concat, update_stops, ih]

/-- An update goes to its target, or does nothing if that does not extend what was sent. -/
theorem update_emitted (st : TextStreamState) (full : Str) (finalUpdate : Bool)
    (hlive : st.stopped = false) :
    (st.emitted <+: takeBytes (st.targetEnd full finalUpdate) full ∧
      (st.update full finalUpdate).2.emitted = takeBytes (st.targetEnd full finalUpdate) full) ∨
    ¬st.emitted <+: takeBytes (st.targetEnd full finalUpdate) full ∧
      (st.update full finalUpdate).2.emitted = st.emitted := by
  rw [update_of_live st full finalUpdate hlive]
  by_cases hpre : st.emitted <+: takeBytes (st.targetEnd full finalUpdate) full
  · exact .inl ⟨hpre, congrArg TextStreamState.emitted (send_of_isPrefix
      { st with stopped := (earliestStop full st.stops).isSome } _ hpre)⟩
  · have hsame := send_of_not_isPrefix
      { st with stopped := (earliestStop full st.stops).isSome } _ hpre
    exact .inr ⟨hpre, by rw [hsame]⟩

/-- An update stops the stream if the text has a stop string. -/
theorem update_stopped (st : TextStreamState) (full : Str) (finalUpdate : Bool) :
    (st.update full finalUpdate).2.stopped =
      (st.stopped || (earliestStop full st.stops).isSome) := by
  cases hlive : st.stopped with
  | true =>
      rw [update_of_stopped st full finalUpdate hlive]
      exact hlive
  | false =>
      rw [update_of_live st full finalUpdate hlive, Bool.false_or]
      unfold TextStreamState.send
      split_ifs <;> rfl

/-- What was sent begins the finished text, and is all of it once the stream has stopped. -/
structure OnCourse (stops : List Str) (full : Str) (st : TextStreamState) : Prop where
  sent : st.emitted <+: cutAt full stops
  stopped : st.stopped = true → st.emitted = cutAt full stops

/-- What has been sent after updates that are harmless. -/
theorem updates_of_harmless (stops : List Str) (full : Str) (reads : List Settled)
    (h : ∀ settled ∈ reads, Harmless stops full settled) :
    OnCourse stops full (updates stops (reads.map Settled.text)) := by
  induction reads using List.reverseRecOn with
  | nil => exact ⟨List.nil_prefix, fun hstopped => absurd hstopped Bool.false_ne_true⟩
  | append_singleton reads settled ih =>
      have hbefore := ih fun other hmem => h other (List.mem_append_left _ hmem)
      have hhere := h settled (List.mem_append_right _ List.mem_cons_self)
      have hstops := updates_stops stops (reads.map Settled.text)
      rw [List.map_append, List.map_cons, List.map_nil, updates_concat]
      generalize updates stops (reads.map Settled.text) = st at hbefore hstops ⊢
      cases hlive : st.stopped with
      | true =>
          rw [update_of_stopped st _ false hlive]
          exact hbefore
      | false =>
          -- A stop string ends the stream where the finished text ends; without one the stream
          -- sends up to the target.
          cases hstop : (earliestStop settled.text stops).isSome with
          | true =>
              have hcut := hhere.cut hstop
              rw [update_of_stop st settled.text false hlive (by rw [hstops]; exact hstop)
                (by rw [hstops, hcut]; exact hbefore.sent)]
              rw [hstops, hcut]
              exact ⟨List.prefix_refl _, fun _ => rfl⟩
          | false =>
              have hfree := Option.not_isSome_iff_eq_none.mp (Bool.not_eq_true _ ▸ hstop)
              refine ⟨?_, fun hstopped => ?_⟩
              · rcases update_emitted st settled.text false hlive with ⟨-, heq⟩ | ⟨-, heq⟩
                · rw [heq]
                  exact hhere.target hfree st hstops
                · rw [heq]
                  exact hbefore.sent
              · rw [update_stopped, hlive, hstops, hstop] at hstopped
                exact absurd hstopped Bool.false_ne_true

/-- The closing update sends what is left of the finished text. -/
theorem OnCourse.closing {stops : List Str} {full : Str} {st : TextStreamState}
    (h : OnCourse stops full st) (hne : ∀ stop ∈ stops, stop ≠ []) (hstops : st.stops = stops) :
    (st.update (cutAt full stops) true).2.emitted = cutAt full stops := by
  cases hlive : st.stopped with
  | true =>
      rw [update_of_stopped st _ true hlive]
      exact h.stopped hlive
  | false =>
      have hfree := earliestStop_cutAt full stops hne
      rw [← hstops] at hfree ⊢
      exact update_final st _ hlive hfree (by rw [hstops]; exact h.sent)

/-! ## What a harmful prefix does -/

section Necessity

variable {stop full : Str}

/-- The target of an update is empty or ends a stop string before the end of the text, but for one
    byte. -/
theorem target_bound (st : TextStreamState) (text : Str) (hstops : st.stops = [stop]) :
    takeBytes (st.targetEnd text false) text = [] ∨
      byteLen (takeBytes (st.targetEnd text false) text) + byteLen stop ≤ byteLen text + 1 := by
  cases hfound : earliestStop text st.stops with
  | some found =>
      have hspec := hfound
      rw [hstops] at hspec
      rcases earliestStop_spec text [stop] found.1 found.2 hspec with ⟨hmem, u, hu, hlen, -⟩
      have hends := hu.byteLen_le
      have htarget : st.targetEnd text false = found.1 := by
        unfold TextStreamState.targetEnd
        rw [hfound]
      have hle := byteLen_takeBytes_le found.1 text
      rw [List.mem_singleton.mp hmem] at hends
      rw [htarget]
      exact .inr (by omega)
  | none =>
      have hle := byteLen_target_le st text hfound
      have hwidth := byteLen_le_stopHold [stop] stop List.mem_cons_self
      have hhold : stopHold st.stops ≤ st.holdBytes text := Nat.le_max_left _ _
      rw [hstops] at hhold
      by_cases hall : byteLen text < st.holdBytes text
      · exact .inl (eq_nil_of_byteLen (by omega))
      · exact .inr (by omega)

/-- What was sent is a target. -/
theorem updates_bound (stop : Str) (texts : List Str) :
    (updates [stop] texts).emitted = [] ∨
      ∃ text ∈ texts,
        byteLen (updates [stop] texts).emitted + byteLen stop ≤ byteLen text + 1 := by
  induction texts using List.reverseRecOn with
  | nil => exact .inl rfl
  | append_singleton texts text ih =>
      have hbefore : (updates [stop] texts).emitted = [] ∨ ∃ other ∈ texts ++ [text],
          byteLen (updates [stop] texts).emitted + byteLen stop ≤ byteLen other + 1 := by
        rcases ih with hnil | ⟨other, hmem, hle⟩
        · exact .inl hnil
        · exact .inr ⟨other, List.mem_append_left _ hmem, hle⟩
      rw [updates_concat]
      cases hlive : (updates [stop] texts).stopped with
      | true =>
          rw [update_of_stopped _ text false hlive]
          exact hbefore
      | false =>
          rcases update_emitted _ text false hlive with ⟨-, heq⟩ | ⟨-, heq⟩
          · rw [heq]
            rcases target_bound (updates [stop] texts) text (updates_stops _ _) with hnil | hle
            · exact .inl hnil
            · exact .inr ⟨text, List.mem_append_right _ List.mem_cons_self, hle⟩
          · rw [heq]
            exact hbefore

/-- The stream has stopped if one of the texts had a stop string. -/
theorem updates_stopped_iff (stops : List Str) (texts : List Str) :
    (updates stops texts).stopped = true ↔
      ∃ text ∈ texts, (earliestStop text stops).isSome = true := by
  induction texts using List.reverseRecOn with
  | nil => exact iff_of_false Bool.false_ne_true fun ⟨text, hmem, _⟩ => List.not_mem_nil hmem
  | append_singleton texts text ih =>
      rw [updates_concat, update_stopped, updates_stops, Bool.or_eq_true, ih]
      constructor
      · rintro (⟨other, hmem, hsome⟩ | hsome)
        · exact ⟨other, List.mem_append_left _ hmem, hsome⟩
        · exact ⟨text, List.mem_append_right _ List.mem_cons_self, hsome⟩
      · rintro ⟨other, hmem, hsome⟩
        rcases List.mem_append.mp hmem with hmem | hmem
        · exact .inl ⟨other, hmem, hsome⟩
        · rw [List.mem_singleton.mp hmem] at hsome
          exact .inr hsome

/-- A stream that has stopped is not changed by more texts. -/
theorem updates_append_of_stopped (stops : List Str) (texts more : List Str)
    (h : (updates stops texts).stopped = true) :
    updates stops (texts ++ more) = updates stops texts := by
  induction more using List.reverseRecOn with
  | nil => rw [List.append_nil]
  | append_singleton more text ih =>
      rw [← List.append_assoc, updates_concat, ih, update_of_stopped _ text false h]

/-- A text has no more bytes than what is settled of it and a replacement. -/
theorem byteLen_text_le (settled : Settled) :
    byteLen settled.text ≤ byteLen settled.stable + 3 := by
  unfold Settled.text
  rw [byteLen_append]
  cases settled.pending.isSome with
  | false => exact Nat.add_le_add_left (Nat.zero_le 3) _
  | true => exact Nat.le_refl _

/-- If the provisional replacement completes the stop string and turns out to be another character,
    the finished text goes on after it. -/
theorem le_cutAt_of_completes {stable : Str} {char : Char} (hne : stop ≠ [])
    (hwide : 2 ≤ char.utf8Size) (hchar : char ≠ replacement) (hnext : stable ++ [char] <+: full)
    (hfree : ∀ u, ¬Occurs stable stop u) (hsuffix : stop <:+ stable ++ [replacement]) :
    byteLen stable + 5 ≤ byteLen (cutAt full [stop]) + byteLen stop := by
  -- The stop string ends with the replacement.
  rcases List.eq_nil_or_concat stop with hnil | ⟨init, last, hstop⟩
  · exact absurd hnil hne
  rw [List.concat_eq_append] at hstop
  have hlast : last = replacement := by
    rcases hsuffix with ⟨u, hu⟩
    rw [hstop, ← List.append_assoc] at hu
    exact (List.cons.inj (List.append_inj' hu rfl).2).1
  rw [hlast] at hstop
  have hwidth : byteLen stop = byteLen init + 3 := by
    rw [hstop, byteLen_append, byteLen_replacement]
  have hnextLen := byteLen_le_of_isPrefix hnext
  rw [byteLen_append, byteLen_cons, byteLen_nil] at hnextLen
  by_cases hoccurs : ∃ u, Occurs full stop u
  · rcases hoccurs with ⟨u, hu⟩
    rcases cutAt_of_occurs full stop u hu with ⟨hfirst, -, -⟩
    generalize cutAt full [stop] = cut at hfirst ⊢
    have hends : byteLen stable < byteLen (cut ++ stop) := by
      rw [byteLen_append]
      by_contra hinside
      refine hfree cut (hfirst.restrict ((List.prefix_append _ _).trans hnext) (by omega))
    have hpre : cut ++ stop <+: full := by
      rcases hfirst with ⟨v, rfl⟩
      exact ⟨v, List.append_assoc _ _ _⟩
    have hinside := prefix_concat_of_byteLen_lt hnext hpre hends
    -- It does not end with this character, so the whole character is before its end.
    rw [hstop, ← List.append_assoc] at hinside
    rcases List.prefix_concat_iff.mp hinside with heq | hle
    · exact absurd (List.cons.inj (List.append_inj' heq rfl).2).1 hchar
    · have hlen := byteLen_le_of_isPrefix hle
      rw [byteLen_append, byteLen_append, byteLen_cons, byteLen_nil] at hlen
      omega
  · rw [cutAt_of_free full stop fun u hu => hoccurs ⟨u, hu⟩]
    omega

/-- The stop string is completed by a replacement that turns out to be another character. -/
structure Completes (stop full : Str) (settled : Settled) : Prop where
  pending : settled.pending.isSome = true
  next : ∃ char, 2 ≤ char.utf8Size ∧ char ≠ replacement ∧ settled.stable ++ [char] <+: full
  free : ∀ u, ¬Occurs settled.stable stop u
  suffix : stop <:+ settled.stable ++ [replacement]

theorem text_of_pending {settled : Settled} (h : settled.pending.isSome = true) :
    settled.text = settled.stable ++ [replacement] := by
  unfold Settled.text
  rw [h, if_pos rfl]

/-- Then the stream has stopped too early, and not all of the finished text is sent. -/
theorem not_all_of_completes (hne : stop ≠ []) (before after : List Settled) (settled : Settled)
    (hchain : ∀ other ∈ before, other.stable <+: settled.stable)
    (h : Completes stop full settled) :
    ((updates [stop] ((before ++ settled :: after).map Settled.text)).update
      (cutAt full [stop]) true).2.emitted ≠ cutAt full [stop] := by
  rcases h.next with ⟨char, hwide, hchar, hnext⟩
  have htext := text_of_pending h.pending
  -- The stream has stopped at this read, and nothing after it is sent.
  have hsplit : (before ++ settled :: after).map Settled.text =
      (before ++ [settled]).map Settled.text ++ after.map Settled.text := by
    rw [← List.map_append, List.append_assoc, List.singleton_append]
  have hstopped : (updates [stop] ((before ++ [settled]).map Settled.text)).stopped = true := by
    refine (updates_stopped_iff _ _).mpr ⟨settled.text, List.mem_map_of_mem
      (List.mem_append_right _ List.mem_cons_self), ?_⟩
    rcases h.suffix with ⟨u, hu⟩
    refine (earliestStop_isSome_iff _ stop).mpr ⟨u, [], ?_⟩
    rw [htext, List.append_nil, hu]
  rw [hsplit, updates_append_of_stopped _ _ _ hstopped, update_of_stopped _ _ true hstopped]
  intro hall
  -- What was sent is no longer than some read, and the finished text is longer than all of them.
  have hbound := updates_bound stop ((before ++ [settled]).map Settled.text)
  rw [hall] at hbound
  have hlong := le_cutAt_of_completes hne hwide hchar hnext h.free h.suffix
  rcases hbound with hnil | ⟨text, hmem, hle⟩
  · have hshort : byteLen stop ≤ byteLen settled.stable + 3 := by
      rcases h.suffix with ⟨u, hu⟩
      have hlen := congrArg byteLen hu
      rw [byteLen_append, byteLen_append, byteLen_replacement] at hlen
      omega
    rw [hnil, byteLen_nil] at hlong
    omega
  · rcases List.mem_map.mp hmem with ⟨other, hother, rfl⟩
    have hbefore : other.stable <+: settled.stable := by
      rcases List.mem_append.mp hother with hother | hother
      · exact hchain other hother
      · rw [List.mem_singleton.mp hother]
    have hlen := byteLen_le_of_isPrefix hbefore
    have hother := byteLen_text_le other
    omega

/-- The bytes that are held back with one stop string. -/
theorem holdBytes_single (st : TextStreamState) (stable : Str) (hstops : st.stops = [stop]) :
    st.holdBytes (stable ++ [replacement]) = max (byteLen stop - 1) 3 := by
  have hlast : (stable ++ [replacement]).getLast? = some '\uFFFD' := List.getLast?_concat
  unfold TextStreamState.holdBytes
  rw [hlast, if_pos rfl, hstops]
  rfl

/-- A stop string that begins before the character, with few bytes from the character on. -/
structure Covered (stop full : Str) (settled : Settled) : Prop where
  pending : settled.pending.isSome = true
  next : ∃ char, char ≠ replacement ∧ settled.stable ++ [char] <+: full
  occurs : Occurs full stop (cutAt full [stop])
  first : ∀ u, Occurs full stop u → byteLen (cutAt full [stop]) ≤ byteLen u
  begins : byteLen (cutAt full [stop]) < byteLen settled.stable
  ends : byteLen settled.stable < byteLen (cutAt full [stop]) + byteLen stop
  few : (stop.headD replacement).utf8Size +
    (byteLen (cutAt full [stop]) + byteLen stop - byteLen settled.stable) ≤ 4

/-- The stop string is in no text so far, unless a replacement has completed it. -/
theorem Covered.free {settled : Settled} (h : Covered stop full settled) (other : Settled)
    (hbefore : other.stable <+: settled.stable) (hwithin : Within full other)
    (hcompletes : ¬Completes stop full other) (u : Str) : ¬Occurs other.text stop u := by
  intro hu
  rcases h.next with ⟨char, hchar, hnext⟩
  have hstable : settled.stable <+: full := (List.prefix_append _ _).trans hnext
  have hends := h.ends
  have hfree (v : Str) : ¬Occurs other.stable stop v := by
    intro hv
    have hle := (hv.extend hbefore).byteLen_le
    have hfirst := h.first v (hv.extend (hbefore.trans hstable))
    omega
  rcases hwithin.cases with hpre | ⟨htext, hpending, hother⟩
  -- The text begins the full one, so it reaches beyond what is settled now, by a replacement.
  · have hle := hu.byteLen_le
    have hfirst := h.first u (hu.extend hpre)
    cases hpending : other.pending.isSome with
    | false =>
        have htext : other.text = other.stable := by
          unfold Settled.text
          rw [hpending, if_neg Bool.false_ne_true, List.append_nil]
        exact hfree u (htext ▸ hu)
    | true =>
        have htext := text_of_pending hpending
        rw [htext] at hpre hle
        by_cases hlt : byteLen other.stable < byteLen settled.stable
        · have hinside := byteLen_le_of_isPrefix (prefix_concat_of_byteLen_lt hpre hstable hlt)
          omega
        · have hlen := byteLen_le_of_isPrefix hbefore
          have hsame := prefix_eq_of_byteLen_eq (hbefore.trans hstable) hstable (by omega)
          rw [hsame] at hpre
          have hhead := head?_drop_of_isPrefix hnext
          rw [head?_drop_of_isPrefix hpre] at hhead
          exact hchar (Option.some.inj hhead).symm
  · rw [htext] at hu
    exact hcompletes ⟨hpending, hother, hfree, isSuffix_of_occurs hfree hu⟩

/-- Then the first character of the stop string is sent. -/
theorem not_sent_of_covered (hne : stop ≠ []) (before : List Settled) (settled : Settled)
    (hchain : ∀ other ∈ before, other.stable <+: settled.stable)
    (hwithin : ∀ other ∈ before ++ [settled], Within full other)
    (hcompletes : ∀ other ∈ before ++ [settled], ¬Completes stop full other)
    (h : Covered stop full settled)
    (hsent : (updates [stop] (before.map Settled.text)).emitted <+: cutAt full [stop]) :
    ¬(updates [stop] ((before ++ [settled]).map Settled.text)).emitted <+: cutAt full [stop] := by
  have hfree (other : Settled) (hmem : other ∈ before ++ [settled]) (u : Str) :
      ¬Occurs other.text stop u := by
    refine h.free other ?_ (hwithin other hmem) (hcompletes other hmem) u
    rcases List.mem_append.mp hmem with hmem | hmem
    · exact hchain other hmem
    · rw [List.mem_singleton.mp hmem]
  have hhere := hfree settled (List.mem_append_right _ List.mem_cons_self)
  have hstops := updates_stops [stop] (before.map Settled.text)
  have hlive : (updates [stop] (before.map Settled.text)).stopped = false := by
    rw [← Bool.not_eq_true, updates_stopped_iff]
    rintro ⟨text, hmem, hsome⟩
    rcases List.mem_map.mp hmem with ⟨other, hother, rfl⟩
    rcases (earliestStop_isSome_iff _ stop).mp hsome with ⟨u, hu⟩
    exact hfree other (List.mem_append_left _ hother) u hu
  rw [List.map_append, List.map_cons, List.map_nil, updates_concat]
  generalize updates [stop] (before.map Settled.text) = st at hsent hstops hlive ⊢
  have htext := text_of_pending h.pending
  rw [htext] at hhere ⊢
  -- The target has the cut and the first character of the stop string.
  have hhead : cutAt full [stop] ++ [stop.headD replacement] <+:
      takeBytes (st.targetEnd (settled.stable ++ [replacement]) false)
        (settled.stable ++ [replacement]) := by
    rcases h.next with ⟨char, -, hnext⟩
    have hinside := prefix_concat_of_byteLen_lt (head_of_occurs hne h.occurs)
      ((List.prefix_append _ _).trans hnext) h.begins
    have hlen := byteLen_le_of_isPrefix hinside
    have hpre := hinside.trans (List.prefix_append settled.stable [replacement])
    have hfew := h.few
    have hends := h.ends
    rw [byteLen_append, byteLen_cons, byteLen_nil] at hlen
    have hnone : earliestStop (settled.stable ++ [replacement]) st.stops = none := by
      rw [hstops, earliestStop_single, find_eq_none_iff.mpr hhere, Option.map_none]
    refine isPrefix_takeBytes hpre ?_
    unfold TextStreamState.targetEnd
    rw [hnone]
    refine byteLen_le_floorBoundary hpre ?_
    rw [holdBytes_single st settled.stable hstops, byteLen_append, byteLen_append,
      byteLen_replacement, byteLen_cons, byteLen_nil]
    omega
  have hpre := hsent.trans ((List.prefix_append _ _).trans hhead)
  rcases update_emitted st _ false hlive with ⟨-, heq⟩ | ⟨hnot, -⟩
  · rw [heq]
    intro hle
    have hlen := byteLen_le_of_isPrefix (hhead.trans hle)
    have hpos := (stop.headD replacement).utf8Size_pos
    rw [byteLen_append, byteLen_cons, byteLen_nil] at hlen
    omega
  · exact absurd hpre hnot

end Necessity

/-! ## The stream -/

section Stream

variable {codec : Codec} {bytes : UInt32 → List UInt8}

/-- What was read of the prefixes of some tokens, but for the empty one. -/
def reads (bytes : UInt32 → List UInt8) (tokens : List UInt32) : List Settled :=
  tokens.inits.tail.map fun prefixTokens => settle (prefixTokens.flatMap bytes)

theorem reads_concat (tokens : List UInt32) (token : UInt32) :
    reads bytes (tokens ++ [token]) =
      reads bytes tokens ++ [settle ((tokens ++ [token]).flatMap bytes)] := by
  unfold reads
  rw [inits_concat_tail, List.map_append, List.map_cons, List.map_nil]

theorem mem_reads {tokens : List UInt32} {settled : Settled} (h : settled ∈ reads bytes tokens) :
    ∃ shorter, shorter <+: tokens ∧ settled = settle (shorter.flatMap bytes) := by
  rcases List.mem_map.mp h with ⟨shorter, hmem, rfl⟩
  exact ⟨shorter, (List.mem_inits _ _).mp (List.mem_of_mem_tail hmem), rfl⟩

/-- What was read of more tokens goes on. -/
theorem reads_append (bytes : UInt32 → List UInt8) (tokens more : List UInt32) :
    ∃ after, reads bytes (tokens ++ more) = reads bytes tokens ++ after := by
  induction more using List.reverseRecOn with
  | nil => exact ⟨[], by rw [List.append_nil, List.append_nil]⟩
  | append_singleton more token ih =>
      rcases ih with ⟨after, hafter⟩
      refine ⟨after ++ [settle ((tokens ++ more ++ [token]).flatMap bytes)], ?_⟩
      rw [← List.append_assoc, reads_concat, hafter, List.append_assoc]

/-- What was read of a prefix is within the text of all the tokens. -/
theorem within_of_isPrefix {shorter tokens : List UInt32} (h : shorter <+: tokens) :
    Within (fromUtf8Lossy (tokens.flatMap bytes)) (settle (shorter.flatMap bytes)) := by
  rcases h with ⟨rest, rfl⟩
  rw [List.flatMap_append]
  exact within_settle _ _

theorem stable_of_isPrefix {shorter tokens : List UInt32} (h : shorter <+: tokens) :
    (settle (shorter.flatMap bytes)).stable <+: (settle (tokens.flatMap bytes)).stable := by
  rcases h with ⟨rest, rfl⟩
  rw [List.flatMap_append]
  exact stable_isPrefix_stable _ _

/-- The texts that the stream sees are what was read, with the replacements. -/
theorem liveTexts_eq_reads (hbytes : codec.ByteLevel bytes) (generated : List UInt32)
    (ignoreEos : Bool) :
    liveTexts codec generated ignoreEos =
      (reads bytes (liveTokens codec generated ignoreEos)).map Settled.text := by
  unfold liveTexts reads
  rw [List.map_map]
  exact List.filterMap_eq_map_iff_forall_eq_some.mpr fun tokens _ => hbytes tokens

/-- The live tokens of a prefix begin those of the whole. -/
theorem liveTokens_isPrefix {observed generated : List UInt32} (h : observed <+: generated)
    (ignoreEos : Bool) :
    liveTokens codec observed ignoreEos <+: liveTokens codec generated ignoreEos := by
  rcases h with ⟨rest, rfl⟩
  unfold liveTokens
  rw [List.takeWhile_append]
  split_ifs with hall
  · rw [(List.takeWhile_prefix _).eq_of_length hall]
    exact List.prefix_append _ _
  · exact List.prefix_refl _

/-- A prefix of live tokens is live. -/
theorem liveTokens_of_isPrefix {tokens generated : List UInt32} {ignoreEos : Bool}
    (h : tokens <+: liveTokens codec generated ignoreEos) :
    liveTokens codec tokens ignoreEos = tokens := by
  unfold liveTokens at h ⊢
  refine List.takeWhile_eq_self_iff.mpr fun token hmem => ?_
  exact List.mem_takeWhile_imp (p := fun token => !(!ignoreEos && codec.isEos token))
    (h.subset hmem)

/-- What the stream has sent is at every moment a prefix of the finished text, and all of it at the
    end. -/
structure StreamsFinal (codec : Codec) (generated : List UInt32) (stops : List Str)
    (ignoreEos : Bool) (requestedTokens : Nat) (out : FinalizedOutput) : Prop where
  sent : ∀ observed, observed <+: generated →
    (streamLoop codec observed stops ignoreEos true).deltas.flatten <+: out.text
  all : (completionStream codec generated stops ignoreEos requestedTokens).1.flatten = out.text

/-- There is a finished text, the cut of the text of the live tokens. -/
theorem finalizeTokens_bytes (hbytes : codec.ByteLevel bytes) (generated : List UInt32)
    (stops : List Str) (ignoreEos : Bool) (requestedTokens : Nat) :
    ∃ out, finalizeTokens codec generated stops ignoreEos requestedTokens = .ok out ∧
      out.text =
        cutAt (fromUtf8Lossy ((liveTokens codec generated ignoreEos).flatMap bytes)) stops := by
  rcases finalizeTokens_returns codec generated stops ignoreEos requestedTokens
    (fun tokens _ => by rw [hbytes]; rfl) with ⟨out, hout⟩
  rcases finalizeTokens_text codec generated stops ignoreEos requestedTokens out hout with
    ⟨full, hfull, htext⟩
  rw [hbytes, Option.some.injEq] at hfull
  exact ⟨out, hout, by rw [hfull]; exact htext⟩

/-- The stream in terms of its updates. -/
theorem streamsFinal_iff (hbytes : codec.ByteLevel bytes) (generated : List UInt32)
    (stops : List Str) (ignoreEos : Bool) (requestedTokens : Nat) (out : FinalizedOutput)
    (hout : finalizeTokens codec generated stops ignoreEos requestedTokens = .ok out) :
    StreamsFinal codec generated stops ignoreEos requestedTokens out ↔
      (∀ tokens, tokens <+: liveTokens codec generated ignoreEos →
        (updates stops ((reads bytes tokens).map Settled.text)).emitted <+: out.text) ∧
      ((updates stops ((reads bytes (liveTokens codec generated ignoreEos)).map
        Settled.text)).update out.text true).2.emitted = out.text := by
  have hsent (observed : List UInt32) :
      (streamLoop codec observed stops ignoreEos true).deltas.flatten =
        (updates stops ((reads bytes (liveTokens codec observed ignoreEos)).map
          Settled.text)).emitted := by
    have hloop := streamLoop_eq_updates codec observed stops ignoreEos
    rw [hloop.sent, hloop.stream, liveTexts_eq_reads hbytes]
  have hall : (completionStream codec generated stops ignoreEos requestedTokens).1.flatten =
      ((updates stops ((reads bytes (liveTokens codec generated ignoreEos)).map
        Settled.text)).update out.text true).2.emitted := by
    have hloop := streamLoop_eq_updates codec generated stops ignoreEos
    unfold completionStream directDeltas
    rw [hout]
    dsimp only
    rw [List.flatten_append, hloop.sent, ← update_delta, hloop.stream, liveTexts_eq_reads hbytes]
  -- A prefix of the tokens that were generated is seen as its live tokens.
  constructor
  · rintro ⟨hmoments, hend⟩
    refine ⟨fun tokens htokens => ?_, hall ▸ hend⟩
    have hmoment := hmoments tokens (htokens.trans (List.takeWhile_prefix _))
    rw [hsent, liveTokens_of_isPrefix htokens] at hmoment
    exact hmoment
  · rintro ⟨hmoments, hend⟩
    refine ⟨fun observed hobserved => ?_, hall.trans hend⟩
    rw [hsent]
    exact hmoments _ (liveTokens_isPrefix hobserved ignoreEos)

end Stream

/-! ## When the stream is exact -/

section Exact

variable {bytes : UInt32 → List UInt8} {stops : List Str} {tokens : List UInt32}

/-- If no prefix is harmful, none of what was read is. -/
theorem harmless_reads (hsingle : stops.length ≤ 1) (hne : ∀ stop ∈ stops, stop ≠ [])
    (h : ∀ shorter, shorter <+: tokens → ∀ stop ∈ stops,
      harmful stop (fromUtf8Lossy (tokens.flatMap bytes))
        (settle (shorter.flatMap bytes)) = false) :
    ∀ shorter, shorter <+: tokens → ∀ settled ∈ reads bytes shorter,
      Harmless stops (fromUtf8Lossy (tokens.flatMap bytes)) settled := by
  intro shorter hshorter settled hmem
  rcases mem_reads hmem with ⟨shortest, hshortest, rfl⟩
  have hlive := hshortest.trans hshorter
  have hwithin : Within (fromUtf8Lossy (tokens.flatMap bytes)) (settle (shortest.flatMap bytes)) :=
    within_of_isPrefix hlive
  match stops, hsingle, hne, h with
  | [], _, _, _ => exact harmless_of_nil _ _ hwithin
  | [stop], _, hne, h =>
      exact harmless_of_single stop _ _ (hne stop List.mem_cons_self) hwithin
        (h shortest hlive stop List.mem_cons_self)

/-- If the stream is exact, no prefix has the stop string completed by its replacement. -/
theorem not_completes {stop : Str} (hne : stop ≠ [])
    (hall : ((updates [stop] ((reads bytes tokens).map Settled.text)).update
      (cutAt (fromUtf8Lossy (tokens.flatMap bytes)) [stop]) true).2.emitted =
        cutAt (fromUtf8Lossy (tokens.flatMap bytes)) [stop])
    (shorter : List UInt32) (hshorter : shorter <+: tokens) :
    ¬Completes stop (fromUtf8Lossy (tokens.flatMap bytes)) (settle (shorter.flatMap bytes)) := by
  intro hcompletes
  rcases List.eq_nil_or_concat shorter with rfl | ⟨before, token, rfl⟩
  · exact absurd hcompletes.pending Bool.false_ne_true
  · rw [List.concat_eq_append] at hshorter hcompletes
    rcases hshorter with ⟨rest, hrest⟩
    rcases reads_append bytes (before ++ [token]) rest with ⟨after, hafter⟩
    rw [← hrest, hafter, reads_concat, List.append_assoc, List.singleton_append, hrest] at hall
    refine not_all_of_completes hne (reads bytes before) after _ ?_ hcompletes hall
    intro other hother
    rcases mem_reads hother with ⟨shortest, hshortest, rfl⟩
    exact stable_of_isPrefix (hshortest.trans (List.prefix_append _ _))

/-- If the stream is exact at every moment, no prefix has the stop string covered. -/
theorem not_covered {stop : Str} (hne : stop ≠ [])
    (hsent : ∀ shorter, shorter <+: tokens →
      (updates [stop] ((reads bytes shorter).map Settled.text)).emitted <+:
        cutAt (fromUtf8Lossy (tokens.flatMap bytes)) [stop])
    (hcompletes : ∀ shorter, shorter <+: tokens →
      ¬Completes stop (fromUtf8Lossy (tokens.flatMap bytes)) (settle (shorter.flatMap bytes)))
    (shorter : List UInt32) (hshorter : shorter <+: tokens) :
    ¬Covered stop (fromUtf8Lossy (tokens.flatMap bytes)) (settle (shorter.flatMap bytes)) := by
  intro hcovered
  rcases List.eq_nil_or_concat shorter with rfl | ⟨before, token, rfl⟩
  · exact absurd hcovered.pending Bool.false_ne_true
  · rw [List.concat_eq_append] at hshorter hcovered
    have hbefore : before <+: tokens := (List.prefix_append _ _).trans hshorter
    have hall := hsent _ hshorter
    rw [reads_concat] at hall
    have hreads (other : Settled)
        (hother : other ∈ reads bytes before ++ [settle ((before ++ [token]).flatMap bytes)]) :
        ∃ shortest, shortest <+: tokens ∧ other = settle (shortest.flatMap bytes) := by
      rw [← reads_concat] at hother
      rcases mem_reads hother with ⟨shortest, hshortest, heq⟩
      exact ⟨shortest, hshortest.trans hshorter, heq⟩
    -- The last read adds a token, and the reads before it hold a shorter text.
    refine not_sent_of_covered hne (reads bytes before) _ ?_ ?_ ?_ hcovered (hsent _ hbefore) hall
    · intro other hother
      rcases mem_reads hother with ⟨shortest, hshortest, rfl⟩
      exact stable_of_isPrefix (hshortest.trans (List.prefix_append _ _))
    · intro other hother
      rcases hreads other hother with ⟨shortest, hshortest, rfl⟩
      exact within_of_isPrefix hshortest
    · intro other hother
      rcases hreads other hother with ⟨shortest, hshortest, rfl⟩
      exact hcompletes shortest hshortest

/-- A prefix that has neither is not harmful. -/
theorem harmful_eq_false {stop full : Str} {settled : Settled} (hwithin : Within full settled)
    (hcompletes : ¬Completes stop full settled) (hcovered : ¬Covered stop full settled) :
    harmful stop full settled = false := by
  rcases hwithin.cases with hpre | ⟨-, hpending, char, hwide, hchar, hnext⟩
  -- There is nothing unfinished, or it is replaced.
  · unfold harmful
    cases hpending : settled.pending.isSome with
    | false => rfl
    | true =>
        rw [text_of_pending hpending] at hpre
        rw [head?_drop_of_isPrefix hpre, bne_self_eq_false, Bool.and_false, Bool.false_and]
  · refine (harmful_eq_false_iff hpending hchar hnext).mpr ⟨?_, ?_⟩
    · rintro ⟨hfree, hsuffix⟩
      exact hcompletes ⟨hpending, ⟨char, hwide, hchar, hnext⟩, find_eq_none_iff.mp hfree, hsuffix⟩
    · rintro position hfind ⟨hbegins, hends, hfew⟩
      rcases find_spec hfind with ⟨u, hu, -⟩
      rcases cutAt_of_occurs full stop u hu with ⟨hoccurs, hcut, hfirst⟩
      obtain rfl : byteLen (cutAt full [stop]) = position :=
        Option.some.inj (hcut.symm.trans hfind)
      exact hcovered ⟨hpending, ⟨char, hchar, hnext⟩, hoccurs, hfirst, hbegins, hends, hfew⟩

end Exact

/-- Over bytes and with at most one stop string, the text sent so far is at every moment a prefix of
    the finished text and all of it at the end, exactly if no prefix of the live tokens is
    harmful. -/
theorem completionStream_bytes_iff (codec : Codec) (bytes : UInt32 → List UInt8)
    (hbytes : codec.ByteLevel bytes) (generated : List UInt32) (stops : List Str)
    (hsingle : stops.length ≤ 1) (hne : ∀ stop ∈ stops, stop ≠ []) (ignoreEos : Bool)
    (requestedTokens : Nat) :
    ∃ out, finalizeTokens codec generated stops ignoreEos requestedTokens = .ok out ∧
      (StreamsFinal codec generated stops ignoreEos requestedTokens out ↔
        ∀ tokens, tokens <+: liveTokens codec generated ignoreEos → ∀ stop ∈ stops,
          harmful stop (fromUtf8Lossy ((liveTokens codec generated ignoreEos).flatMap bytes))
            (settle (tokens.flatMap bytes)) = false) := by
  rcases finalizeTokens_bytes hbytes generated stops ignoreEos requestedTokens with
    ⟨out, hout, htext⟩
  refine ⟨out, hout, ?_⟩
  rw [streamsFinal_iff hbytes generated stops ignoreEos requestedTokens out hout, htext]
  generalize liveTokens codec generated ignoreEos = live
  constructor
  · rintro ⟨hsent, hall⟩ tokens htokens stop hstop
    -- The only stop string is the one that is given.
    obtain rfl : stops = [stop] := by
      match stops, hsingle, hstop with
      | [other], _, hstop => rw [List.mem_singleton.mp hstop]
    have hcompletes := not_completes (hne stop List.mem_cons_self) hall
    exact harmful_eq_false (within_of_isPrefix htokens) (hcompletes tokens htokens)
      (not_covered (hne stop List.mem_cons_self) hsent hcompletes tokens htokens)
  · intro hsafe
    have hharmless := harmless_reads hsingle hne hsafe
    refine ⟨fun tokens htokens => ?_, ?_⟩
    · exact (updates_of_harmless stops _ _ (hharmless tokens htokens)).sent
    · exact (updates_of_harmless stops _ _ (hharmless live (List.prefix_refl live))).closing hne
        (updates_stops _ _)

/-- A tokenizer with a token for each byte. -/
def byteCodec : Codec where
  decode tokens := some (fromUtf8Lossy (tokens.flatMap fun token => [token.toUInt8]))
  decodeError _ := []
  isEos token := token == 256

theorem byteCodec_byteLevel : byteCodec.ByteLevel fun token => [token.toUInt8] := fun _ => rfl

/-- A character in two pieces, and the stop string well behind it. -/
theorem byteCodec_streamsFinal :
    ∃ out, finalizeTokens byteCodec [0x61, 0xC3, 0xA9, 0x62, 0x63] [['b', 'c']] false 8 = .ok out ∧
      StreamsFinal byteCodec [0x61, 0xC3, 0xA9, 0x62, 0x63] [['b', 'c']] false 8 out := by
  rcases completionStream_bytes_iff byteCodec _ byteCodec_byteLevel
    [0x61, 0xC3, 0xA9, 0x62, 0x63] [['b', 'c']] (by decide) (by decide) false 8 with
    ⟨out, hout, hiff⟩
  refine ⟨out, hout, hiff.mpr fun tokens htokens stop hstop => ?_⟩
  have hall : ∀ tokens ∈ (liveTokens byteCodec [0x61, 0xC3, 0xA9, 0x62, 0x63] false).inits,
      harmful ['b', 'c'] (fromUtf8Lossy ((liveTokens byteCodec [0x61, 0xC3, 0xA9, 0x62, 0x63]
        false).flatMap fun token => [token.toUInt8]))
        (settle (tokens.flatMap fun token => [token.toUInt8])) = false := by decide +kernel
  rw [List.mem_singleton.mp hstop]
  exact hall tokens ((List.mem_inits _ _).mpr htokens)

/-- A stop string that ends with a character in two pieces: its first character is sent while the
    character is not finished, and the finished text is empty. -/
theorem byteCodec_not_streamsFinal :
    byteCodec.ByteLevel (fun token => [token.toUInt8]) ∧
      ∃ out, finalizeTokens byteCodec [0x61, 0xC3, 0xA9] [['a', 'é']] false 8 = .ok out ∧
        ¬StreamsFinal byteCodec [0x61, 0xC3, 0xA9] [['a', 'é']] false 8 out := by
  refine ⟨byteCodec_byteLevel, _, rfl, fun h => ?_⟩
  exact absurd h.all (by decide +kernel)

end Text

end QrtEngine
