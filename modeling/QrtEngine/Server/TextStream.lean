import Mathlib.Data.List.TakeWhile
import QrtEngine.Server.Text

/-!
# Streamed Text against Finished Text

When the deltas of a stream put together are the finished text. The stream sees a chain of
texts, each extending the one before, and cuts at the first of them that contains a stop
string; the plain response looks at the last of them only. What is held back in between is
enough for the cut to be possible: a stop string that the earlier texts do not contain ends
after them, so at least one byte less than its length of it is still held back.

The two agree exactly when the cut is at the same place. They differ when a stop string
begins before the one the stream cut at and is completed only by later tokens, which takes
two stop strings of which one overlaps the beginning of the other's remainder. With one stop
string the cut is always at the same place.

## Main definitions

* `cutAt`: The finished text as a cut of the full one.
* `liveTexts`: The texts the stream sees.
* `firstStopped`: The first of them that contains a stop string.
* `CutsAgree`: The earliest stop string begins in the full text where it began in that one.

## Theorems

* `earliestStop_spec`, `earliestStop_eq_none_iff`: What a search for stop strings returns.
* `held_prefix_cutAt`: What is held back keeps the text sent so far before every later cut.
* `updates_streamed`: What has been sent after the updates over a chain of texts.
* `streamLoop_eq_updates`: The loop is a fold of updates over the live texts.
* `directDeltas_eq_iff`: The deltas put together are the finished text exactly when the cuts
  agree.
* `cutsAgree_of_single`: With at most one stop string the cuts agree.
* `completionStream_text_iff`: The deltas of a completion stream against its finished text.
-/

namespace QrtEngine

namespace Text

open ByteText

/-! ## Stop strings -/

section Stops

variable {β : Type} {l : List (Nat × β)} {x : Nat × β}

theorem minByKey_eq_none_iff : minByKey l = none ↔ l = [] := by
  cases l with
  | nil => simp only [minByKey]
  | cons y l =>
      simp only [minByKey, reduceCtorEq, iff_false]
      cases minByKey l with
      | none => simp only [reduceCtorEq, not_false_eq_true]
      | some z =>
          dsimp only
          split_ifs <;> exact not_false

theorem minByKey_spec (h : minByKey l = some x) : x ∈ l ∧ ∀ y ∈ l, x.1 ≤ y.1 := by
  induction l generalizing x with
  | nil => exact absurd h (by simp only [minByKey, reduceCtorEq, not_false_eq_true])
  | cons y l ih =>
      unfold minByKey at h
      cases hl : minByKey l with
      | none =>
          rw [hl] at h
          simp only [Option.some.injEq] at h
          subst h
          rw [minByKey_eq_none_iff] at hl
          subst hl
          refine ⟨List.mem_cons_self, fun z hz => ?_⟩
          rw [List.mem_singleton] at hz
          rw [hz]
      | some z =>
          rw [hl] at h
          rcases ih hl with ⟨hz, hmin⟩
          -- On a tie the earlier one is kept.
          by_cases hle : y.1 ≤ z.1
          · simp only [if_pos hle, Option.some.injEq] at h
            subst h
            refine ⟨List.mem_cons_self, fun w hw => ?_⟩
            rcases List.mem_cons.mp hw with rfl | hw
            · exact Nat.le_refl _
            · exact Nat.le_trans hle (hmin w hw)
          · simp only [if_neg hle, Option.some.injEq] at h
            subst h
            refine ⟨List.mem_cons_of_mem y hz, fun w hw => ?_⟩
            rcases List.mem_cons.mp hw with rfl | hw
            · omega
            · exact hmin w hw

end Stops

/-- No stop string is found exactly when none occurs. -/
theorem earliestStop_eq_none_iff (text : Str) (stops : List Str) :
    earliestStop text stops = none ↔ ∀ stop ∈ stops, ∀ u, ¬Occurs text stop u := by
  unfold earliestStop
  rw [minByKey_eq_none_iff, List.filterMap_eq_nil_iff]
  simp only [Option.map_eq_none_iff, find_eq_none_iff]

/-- The position found is that of a stop string, and no stop string occurs before it. -/
theorem earliestStop_spec (text : Str) (stops : List Str) (position : Nat) (stop : Str)
    (h : earliestStop text stops = some (position, stop)) :
    stop ∈ stops ∧ ∃ u, Occurs text stop u ∧ byteLen u = position ∧
      ∀ stop' ∈ stops, ∀ u', Occurs text stop' u' → position ≤ byteLen u' := by
  rcases minByKey_spec h with ⟨hmem, hmin⟩
  rcases List.mem_filterMap.mp hmem with ⟨stop₀, hstop₀, hfind⟩
  rcases Option.map_eq_some_iff.mp hfind with ⟨n, hn, heq⟩
  rw [Prod.mk.injEq] at heq
  rcases heq with ⟨rfl, rfl⟩
  rcases find_spec hn with ⟨u, hu, hlen, -⟩
  refine ⟨hstop₀, u, hu, hlen, ?_⟩
  intro stop' hstop' u' hu'
  -- The position found for the other stop string is no later than any occurrence of it.
  cases hfind' : find stop' text with
  | none => exact absurd hu' (find_eq_none_iff.mp hfind' u')
  | some m =>
      have hle := hmin (m, stop') (List.mem_filterMap.mpr ⟨stop', hstop', by rw [hfind']; rfl⟩)
      rcases find_spec hfind' with ⟨w, -, hwlen, hwmin⟩
      have hw := hwmin u' hu'
      dsimp only at hle
      omega

/-- Cutting a text at its earliest stop string, if it has one. -/
def cutAt (text : Str) (stops : List Str) : Str :=
  match earliestStop text stops with
  | none => text
  | some (position, _) => takeBytes position text

/-- The cut keeps the prefix before the earliest stop string. -/
theorem cutAt_of_some (text : Str) (stops : List Str) (position : Nat) (stop u : Str)
    (h : earliestStop text stops = some (position, stop)) (hu : u <+: text)
    (hlen : byteLen u = position) : cutAt text stops = u := by
  unfold cutAt
  rw [h]
  rcases hu with ⟨v, rfl⟩
  rw [← hlen]
  exact takeBytes_append u v

/-- The finished text contains no stop string, if none is empty. -/
theorem earliestStop_cutAt (text : Str) (stops : List Str) (hstops : ∀ stop ∈ stops, stop ≠ []) :
    earliestStop (cutAt text stops) stops = none := by
  cases h : earliestStop text stops with
  | none =>
      unfold cutAt
      rw [h]
      exact h
  | some found =>
      rcases earliestStop_spec text stops found.1 found.2 h with ⟨-, u, hu, hlen, hmin⟩
      rw [cutAt_of_some text stops found.1 found.2 u h hu.before hlen]
      refine (earliestStop_eq_none_iff u stops).mpr fun stop hstop w hw => ?_
      -- An occurrence inside the cut would begin before it, with a byte at least after.
      have hbefore := hmin stop hstop w (hw.extend hu.before)
      have hinside := hw.byteLen_le
      have hpos : byteLen stop ≠ 0 := fun hzero => hstops stop hstop (eq_nil_of_byteLen hzero)
      omega

/-! ## Held back bytes -/

/-- The bytes every update but the last holds back. -/
def stopHold (stops : List Str) : Nat := (stops.map byteLen).max?.getD 1 - 1

theorem byteLen_le_stopHold (stops : List Str) (stop : Str) (h : stop ∈ stops) :
    byteLen stop ≤ stopHold stops + 1 := by
  unfold stopHold
  have hmem : byteLen stop ∈ stops.map byteLen := List.mem_map_of_mem h
  cases hmax : (stops.map byteLen).max? with
  | none =>
      rw [List.max?_eq_none_iff.mp hmax] at hmem
      exact absurd hmem List.not_mem_nil
  | some longest =>
      have hle := (List.max?_eq_some_iff.mp hmax).2 (byteLen stop) hmem
      rw [Option.getD_some]
      omega

/-- What was sent of a text without stop strings, with the last bytes held back, is before
    the cut of every longer text. -/
theorem held_prefix_cutAt (shorter longer emitted : Str) (stops : List Str)
    (hchain : shorter <+: longer) (hfree : earliestStop shorter stops = none)
    (hemitted : emitted <+: shorter)
    (hheld : byteLen emitted + stopHold stops ≤ byteLen shorter) :
    emitted <+: cutAt longer stops := by
  cases h : earliestStop longer stops with
  | none =>
      unfold cutAt
      rw [h]
      exact hemitted.trans hchain
  | some found =>
      rcases earliestStop_spec longer stops found.1 found.2 h with ⟨hmem, u, hu, hlen, -⟩
      rw [cutAt_of_some longer stops found.1 found.2 u h hu.before hlen]
      -- The stop string is not in the shorter text, so it ends after it.
      have hends : byteLen shorter < byteLen u + byteLen found.2 := by
        by_contra hle
        exact (earliestStop_eq_none_iff shorter stops).mp hfree found.2 hmem u
          (hu.restrict hchain (by omega))
      -- It begins less than its own length before that end, and what was sent ends earlier
      -- still.
      have hwidth := byteLen_le_stopHold stops found.2 hmem
      exact prefix_of_byteLen_le (hemitted.trans hchain) hu.before (by omega)

/-! ## Updates -/

/-- The first of the texts that contains a stop string. -/
def firstStopped (texts : List Str) (stops : List Str) : Option Str :=
  texts.find? fun text => (earliestStop text stops).isSome

/-- The stream after one update for each of the texts. -/
def updates (stops : List Str) (texts : List Str) : TextStreamState :=
  texts.foldl (fun st full => (st.update full false).2) (TextStreamState.new stops)

/-- What a stream has sent after a chain of texts: the cut of the first one with a stop
    string, or before that a part of one of them with the last bytes held back. -/
structure Streamed (stops : List Str) (texts : List Str) (st : TextStreamState) : Prop where
  stops_eq : st.stops = stops
  stopped_eq : st.stopped = (firstStopped texts stops).isSome
  cut : ∀ full, firstStopped texts stops = some full → st.emitted = cutAt full stops
  held : firstStopped texts stops = none → st.emitted = [] ∨
    ∃ full ∈ texts, st.emitted <+: full ∧ byteLen st.emitted + stopHold stops ≤ byteLen full

theorem firstStopped_concat (texts : List Str) (full : Str) (stops : List Str) :
    firstStopped (texts ++ [full]) stops =
      (firstStopped texts stops).or
        (if (earliestStop full stops).isSome then some full else none) := by
  unfold firstStopped
  rw [List.find?_append, List.find?_singleton]

theorem earliestStop_of_firstStopped_none (texts : List Str) (stops : List Str) (full : Str)
    (h : firstStopped texts stops = none) (hmem : full ∈ texts) :
    earliestStop full stops = none := by
  have hnot := List.find?_eq_none.mp h full hmem
  rwa [Option.not_isSome_iff_eq_none] at hnot

/-- The text sent is what is added to the text sent before. -/
theorem send_delta (st : TextStreamState) (target : Str) :
    (st.send target).2.emitted = st.emitted ++ (st.send target).1.toList.flatten := by
  unfold TextStreamState.send
  by_cases hpre : st.emitted.isPrefixOf target = true
  · rw [if_pos hpre]
    dsimp only
    by_cases hnil : dropBytes (byteLen st.emitted) target = []
    · rw [if_pos hnil, hnil, Option.toList_none, List.flatten_nil]
    · rw [if_neg hnil, Option.toList_some, List.flatten_singleton]
  · rw [if_neg hpre, Option.toList_none, List.flatten_nil, List.append_nil]

/-- Sending towards a text that extends what was sent sends all of it. -/
theorem send_of_isPrefix (st : TextStreamState) (target : Str) (h : st.emitted <+: target) :
    (st.send target).2 = { st with emitted := target } := by
  rcases h with ⟨rest, rfl⟩
  unfold TextStreamState.send
  rw [if_pos (List.isPrefixOf_iff_prefix.mpr (List.prefix_append st.emitted rest))]
  simp only [dropBytes_append]

theorem send_of_not_isPrefix (st : TextStreamState) (target : Str) (h : ¬st.emitted <+: target) :
    (st.send target).2 = st := by
  unfold TextStreamState.send
  rw [if_neg (fun hpre => h (List.isPrefixOf_iff_prefix.mp hpre))]

theorem earliestStop_of_firstStopped_some (texts : List Str) (stops : List Str) (full : Str)
    (h : firstStopped texts stops = some full) :
    full ∈ texts ∧ (earliestStop full stops).isSome = true :=
  ⟨List.mem_of_find?_eq_some h,
    List.find?_some (p := fun text => (earliestStop text stops).isSome) h⟩

/-- A stopped stream sends nothing more. -/
theorem update_of_stopped (st : TextStreamState) (full : Str) (finalUpdate : Bool)
    (h : st.stopped = true) : st.update full finalUpdate = (none, st) := by
  unfold TextStreamState.update
  rw [if_pos h]

theorem update_of_live (st : TextStreamState) (full : Str) (finalUpdate : Bool)
    (h : st.stopped = false) : st.update full finalUpdate =
      { st with stopped := (earliestStop full st.stops).isSome }.send
        (takeBytes (st.targetEnd full finalUpdate) full) := by
  unfold TextStreamState.update
  rw [h, if_neg Bool.false_ne_true]

theorem update_delta (st : TextStreamState) (full : Str) (finalUpdate : Bool) :
    (st.update full finalUpdate).2.emitted =
      st.emitted ++ (st.update full finalUpdate).1.toList.flatten := by
  cases h : st.stopped with
  | true =>
      rw [update_of_stopped st full finalUpdate h, Option.toList_none, List.flatten_nil,
        List.append_nil]
  | false =>
      rw [update_of_live st full finalUpdate h]
      exact send_delta _ _

/-- The update on a text with a stop string sends everything up to the cut. -/
theorem update_of_stop (st : TextStreamState) (full : Str) (finalUpdate : Bool)
    (hlive : st.stopped = false) (hstop : (earliestStop full st.stops).isSome = true)
    (hpre : st.emitted <+: cutAt full st.stops) :
    (st.update full finalUpdate).2 =
      { st with emitted := cutAt full st.stops, stopped := true } := by
  have htarget : takeBytes (st.targetEnd full finalUpdate) full = cutAt full st.stops := by
    rcases Option.isSome_iff_exists.mp hstop with ⟨found, hfound⟩
    unfold TextStreamState.targetEnd cutAt
    rw [hfound]
  rw [update_of_live st full finalUpdate hlive, htarget, hstop]
  exact send_of_isPrefix _ _ hpre

/-- The closing update on a text without stop strings sends all of it. -/
theorem update_final (st : TextStreamState) (full : Str) (hlive : st.stopped = false)
    (hfree : earliestStop full st.stops = none) (hpre : st.emitted <+: full) :
    (st.update full true).2.emitted = full := by
  have htarget : takeBytes (st.targetEnd full true) full = full := by
    unfold TextStreamState.targetEnd
    rw [hfree]
    exact takeBytes_byteLen full
  rw [update_of_live st full true hlive, htarget]
  exact congrArg TextStreamState.emitted
    (send_of_isPrefix { st with stopped := (earliestStop full st.stops).isSome } full hpre)

/-- An update before the last on a text without stop strings leaves the stream as it was, or
    sends a part of the text with the last bytes held back, or nothing at all. -/
theorem update_held (st : TextStreamState) (full : Str) (hlive : st.stopped = false)
    (hfree : earliestStop full st.stops = none) :
    (st.update full false).2 = st ∨
      ∃ target, (st.update full false).2 = { st with emitted := target } ∧
        (target = [] ∨ target <+: full ∧ byteLen target + stopHold st.stops ≤ byteLen full) := by
  have hsame : { st with stopped := (earliestStop full st.stops).isSome } = st := by
    rw [hfree, Option.isSome_none, ← hlive]
  rw [update_of_live st full false hlive, hsame]
  by_cases hpre : st.emitted <+: takeBytes (st.targetEnd full false) full
  · refine .inr ⟨_, send_of_isPrefix st _ hpre, ?_⟩
    have hend : st.targetEnd full false ≤ byteLen full - st.holdBytes full := by
      unfold TextStreamState.targetEnd
      rw [hfree]
      exact floorBoundary_le full _
    have htake := byteLen_takeBytes_le (st.targetEnd full false) full
    have hhold : stopHold st.stops ≤ st.holdBytes full := Nat.le_max_left _ _
    -- Either the whole text is held back, or what is sent leaves that much of it.
    by_cases hall : byteLen full < stopHold st.stops
    · exact .inl (eq_nil_of_byteLen (by omega))
    · exact .inr ⟨takeBytes_isPrefix _ full, by omega⟩
  · exact .inl (send_of_not_isPrefix st _ hpre)

theorem streamed_new (stops : List Str) : Streamed stops [] (TextStreamState.new stops) where
  stops_eq := rfl
  stopped_eq := rfl
  cut := fun _ h => absurd h (by simp only [firstStopped, List.find?_nil, reduceCtorEq,
    not_false_eq_true])
  held := fun _ => .inl rfl

/-- One update keeps track of a chain of texts. -/
theorem streamed_update (stops : List Str) (texts : List Str) (full : Str) (st : TextStreamState)
    (hst : Streamed stops texts st) (hchain : ∀ text ∈ texts, text <+: full) :
    Streamed stops (texts ++ [full]) (st.update full false).2 := by
  cases hfirst : firstStopped texts stops with
  | some cut =>
      -- The stream has stopped, and the first text with a stop string stays the first.
      have hstopped : st.stopped = true := by rw [hst.stopped_eq, hfirst, Option.isSome_some]
      have hconcat : firstStopped (texts ++ [full]) stops = some cut := by
        rw [firstStopped_concat, hfirst, Option.some_or]
      rw [update_of_stopped st full false hstopped]
      refine ⟨hst.stops_eq, by rw [hconcat]; exact hstopped, fun text htext => ?_, fun hnone => ?_⟩
      · rw [hconcat, Option.some.injEq] at htext
        subst htext
        exact hst.cut cut hfirst
      · exact absurd hnone (by rw [hconcat]; exact Option.some_ne_none cut)
  | none =>
      have hlive : st.stopped = false := by rw [hst.stopped_eq, hfirst, Option.isSome_none]
      have hstops := hst.stops_eq
      subst hstops
      cases hstop : (earliestStop full st.stops).isSome with
      | true =>
          have hconcat : firstStopped (texts ++ [full]) st.stops = some full := by
            rw [firstStopped_concat, hfirst, Option.none_or, hstop, if_pos rfl]
          -- What was sent came from a text without stop strings, so it is before the cut.
          have hpre : st.emitted <+: cutAt full st.stops := by
            rcases hst.held hfirst with hnil | ⟨text, hmem, hsent, hheld⟩
            · rw [hnil]
              exact List.nil_prefix
            · exact held_prefix_cutAt text full st.emitted st.stops (hchain text hmem)
                (earliestStop_of_firstStopped_none texts st.stops text hfirst hmem) hsent hheld
          rw [update_of_stop st full false hlive hstop hpre]
          refine ⟨rfl, by rw [hconcat]; rfl, fun text htext => ?_, fun hnone => ?_⟩
          · rw [hconcat, Option.some.injEq] at htext
            rw [htext]
          · exact absurd hnone (by rw [hconcat]; exact Option.some_ne_none full)
      | false =>
          have hfree := Option.isSome_eq_false_iff.mp hstop
          rw [Option.isNone_iff_eq_none] at hfree
          have hconcat : firstStopped (texts ++ [full]) st.stops = none := by
            rw [firstStopped_concat, hfirst, Option.none_or, hstop, if_neg Bool.false_ne_true]
          have hnoCut : ∀ text, firstStopped (texts ++ [full]) st.stops = some text →
              (st.update full false).2.emitted = cutAt text st.stops := by
            intro text htext
            exact absurd htext (by rw [hconcat]; exact (Option.some_ne_none text).symm)
          rcases update_held st full hlive hfree with hsame | ⟨target, htarget, hsent⟩
          · refine ⟨by rw [hsame], by rw [hsame, hconcat]; exact hlive, hnoCut, fun _ => ?_⟩
            rw [hsame]
            rcases hst.held hfirst with hnil | ⟨text, hmem, hheld⟩
            · exact .inl hnil
            · exact .inr ⟨text, List.mem_append_left [full] hmem, hheld⟩
          · refine ⟨by rw [htarget], by rw [htarget, hconcat]; exact hlive, hnoCut, fun _ => ?_⟩
            rw [htarget]
            rcases hsent with hnil | hheld
            · exact .inl hnil
            · exact .inr ⟨full, List.mem_append_right texts List.mem_cons_self, hheld⟩

/-- What a stream has sent after the updates over a chain of texts. -/
theorem updates_streamed (stops : List Str) (texts : List Str)
    (hchain : texts.Pairwise (· <+: ·)) : Streamed stops texts (updates stops texts) := by
  induction texts using List.reverseRecOn with
  | nil => exact streamed_new stops
  | append_singleton texts full ih =>
      rw [List.pairwise_append] at hchain
      unfold updates
      rw [List.foldl_append]
      exact streamed_update stops texts full (updates stops texts) (ih hchain.1)
        fun text hmem => hchain.2.2 text hmem full List.mem_cons_self

/-! ## The loop -/

/-- The generated tokens before the end of sequence, or all of them if it is ignored. -/
def liveTokens (codec : Codec) (generated : List UInt32) (ignoreEos : Bool) : List UInt32 :=
  generated.takeWhile fun token => !(!ignoreEos && codec.isEos token)

/-- The texts the stream sees: what the prefixes of the live tokens decode to. -/
def liveTexts (codec : Codec) (generated : List UInt32) (ignoreEos : Bool) : List Str :=
  (liveTokens codec generated ignoreEos).inits.tail.filterMap codec.decode

/-- The plain response decodes the live tokens. -/
theorem take_decodeCount (codec : Codec) (generated : List UInt32) (ignoreEos : Bool) :
    generated.take (decodeCount codec generated ignoreEos) =
      liveTokens codec generated ignoreEos := by
  unfold decodeCount liveTokens
  cases ignoreEos with
  | true =>
      simp only [if_true, Bool.not_true, Bool.false_and, Bool.not_false, List.take_length]
      exact (List.takeWhile_eq_self_iff.mpr fun _ _ => rfl).symm
  | false =>
      simp only [Bool.false_eq_true, if_false, Bool.not_false, Bool.true_and]
      rw [List.takeWhile_eq_take_findIdx_not, List.findIdx_eq_getD_findIdx?]
      simp only [Bool.not_not]

/-- The loop is over the end of sequence once some token is not live. -/
theorem liveTokens_concat (codec : Codec) (generated : List UInt32) (token : UInt32)
    (ignoreEos : Bool) :
    liveTokens codec (generated ++ [token]) ignoreEos =
      if liveTokens codec generated ignoreEos = generated then
        if !ignoreEos && codec.isEos token then generated else generated ++ [token]
      else liveTokens codec generated ignoreEos := by
  unfold liveTokens
  rw [List.takeWhile_append]
  -- All tokens are live exactly when as many are.
  have hlen : (generated.takeWhile fun token => !(!ignoreEos && codec.isEos token)).length =
      generated.length ↔
      (generated.takeWhile fun token => !(!ignoreEos && codec.isEos token)) = generated :=
    ⟨fun h => (List.takeWhile_prefix _).eq_of_length h, fun h => congrArg List.length h⟩
  rw [if_congr hlen rfl rfl]
  cases heos : (!ignoreEos && codec.isEos token) with
  | true =>
      simp only [List.takeWhile_cons, heos, Bool.not_true, Bool.false_eq_true, if_false,
        List.append_nil, if_true]
  | false =>
      simp only [List.takeWhile_cons, heos, Bool.not_false, List.takeWhile_nil, if_true,
        Bool.false_eq_true, if_false]

theorem inits_concat_tail (tokens : List UInt32) (token : UInt32) :
    (tokens ++ [token]).inits.tail = tokens.inits.tail ++ [tokens ++ [token]] := by
  rw [List.inits_append]
  cases tokens with
  | nil => rfl
  | cons first tokens => rfl

/-- The loop has seen the tokens, knows whether the sequence has ended, and has made one
    update for each live text. -/
structure Looped (codec : Codec) (generated : List UInt32) (stops : List Str) (ignoreEos : Bool)
    (loop : StreamLoop) : Prop where
  observed : loop.observedIds = generated
  eos : loop.eosObserved = !decide (liveTokens codec generated ignoreEos = generated)
  stream : loop.textStream = updates stops (liveTexts codec generated ignoreEos)
  sent : loop.deltas.flatten = loop.textStream.emitted

/-- The loop passes over a token that ends the sequence or comes after its end. -/
theorem looped_pass (codec : Codec) (generated : List UInt32) (token : UInt32)
    (stops : List Str) (ignoreEos : Bool) (loop : StreamLoop)
    (h : Looped codec generated stops ignoreEos loop)
    (hlive : liveTokens codec (generated ++ [token]) ignoreEos =
      liveTokens codec generated ignoreEos) :
    Looped codec (generated ++ [token]) stops ignoreEos
      { loop with observedIds := loop.observedIds ++ [token], eosObserved := true } := by
  have hshort : liveTokens codec (generated ++ [token]) ignoreEos ≠ generated ++ [token] := by
    intro hall
    have hlen := (List.takeWhile_prefix (l := generated)
      (fun token => !(!ignoreEos && codec.isEos token))).length_le
    have hlen' := congrArg List.length (hlive.symm.trans hall)
    unfold liveTokens at hlen'
    rw [List.length_append, List.length_singleton] at hlen'
    omega
  refine ⟨by rw [h.observed], ?_, ?_, h.sent⟩
  · rw [decide_eq_false hshort]
    rfl
  · unfold liveTexts
    rw [hlive]
    exact h.stream

/-- After the end of sequence a token is seen and nothing else happens. -/
theorem observe_ended (codec : Codec) (ignoreEos : Bool) (loop : StreamLoop) (token : UInt32)
    (h : (!ignoreEos && codec.isEos token) = true ∨ loop.eosObserved = true) :
    StreamLoop.observe codec ignoreEos true loop token =
      { loop with observedIds := loop.observedIds ++ [token], eosObserved := true } := by
  unfold StreamLoop.observe
  cases heos : (!ignoreEos && codec.isEos token) with
  | true => rfl
  | false =>
      rcases h with h | h
      · exact absurd (heos.symm.trans h) Bool.false_ne_true
      · simp only [Bool.false_eq_true, if_false, h, Bool.not_true, Bool.and_false]

/-- Before it, a token makes one update with what the tokens so far decode to. -/
theorem observe_live (codec : Codec) (ignoreEos : Bool) (loop : StreamLoop) (token : UInt32)
    (heos : (!ignoreEos && codec.isEos token) = false) (hlive : loop.eosObserved = false) :
    StreamLoop.observe codec ignoreEos true loop token =
      match codec.decode (loop.observedIds ++ [token]) with
      | none => { loop with observedIds := loop.observedIds ++ [token] }
      | some full =>
          { loop with
            observedIds := loop.observedIds ++ [token]
            textStream := (loop.textStream.update full false).2
            deltas := loop.deltas ++ (loop.textStream.update full false).1.toList } := by
  unfold StreamLoop.observe
  simp only [heos, Bool.false_eq_true, if_false, hlive, Bool.true_and, Bool.not_false,
    Bool.and_true]
  cases hstopped : loop.textStream.stopped with
  | false => rfl
  | true =>
      -- A stopped stream is passed over; an update would not change it either.
      simp only [Bool.not_true, Bool.false_eq_true, if_false]
      cases codec.decode (loop.observedIds ++ [token]) with
      | none => rfl
      | some full =>
          simp only [update_of_stopped loop.textStream full false hstopped, Option.toList_none,
            List.append_nil]

/-- The loop makes the update of a live token. -/
theorem looped_live (codec : Codec) (generated : List UInt32) (token : UInt32)
    (stops : List Str) (ignoreEos : Bool) (loop : StreamLoop)
    (h : Looped codec generated stops ignoreEos loop)
    (hall : liveTokens codec generated ignoreEos = generated)
    (hconcat : liveTokens codec (generated ++ [token]) ignoreEos = generated ++ [token])
    (heos : (!ignoreEos && codec.isEos token) = false) (hnoEos : loop.eosObserved = false) :
    Looped codec (generated ++ [token]) stops ignoreEos
      (StreamLoop.observe codec ignoreEos true loop token) := by
  -- The new token adds the text of the whole list, if it decodes.
  have htexts : liveTexts codec (generated ++ [token]) ignoreEos =
      liveTexts codec generated ignoreEos ++ (codec.decode (generated ++ [token])).toList := by
    unfold liveTexts
    rw [hconcat, hall, inits_concat_tail, List.filterMap_append, List.filterMap_cons,
      List.filterMap_nil]
    cases codec.decode (generated ++ [token]) <;> rfl
  have hlive : loop.eosObserved =
      !decide (liveTokens codec (generated ++ [token]) ignoreEos = generated ++ [token]) := by
    rw [hnoEos, decide_eq_true hconcat, Bool.not_true]
  rw [observe_live codec ignoreEos loop token heos hnoEos, h.observed]
  cases hdecode : codec.decode (generated ++ [token]) with
  | none =>
      rw [hdecode, Option.toList_none, List.append_nil] at htexts
      exact ⟨rfl, hlive, by rw [htexts]; exact h.stream, h.sent⟩
  | some full =>
      rw [hdecode, Option.toList_some] at htexts
      refine ⟨rfl, hlive, ?_, ?_⟩
      · dsimp only
        unfold updates
        rw [htexts, List.foldl_append, List.foldl_cons, List.foldl_nil, h.stream]
        rfl
      · dsimp only
        rw [List.flatten_append, h.sent, update_delta]

/-- The loop is a fold of updates over the live texts. -/
theorem streamLoop_eq_updates (codec : Codec) (generated : List UInt32) (stops : List Str)
    (ignoreEos : Bool) :
    Looped codec generated stops ignoreEos (streamLoop codec generated stops ignoreEos true) := by
  induction generated using List.reverseRecOn with
  | nil => exact ⟨rfl, rfl, rfl, rfl⟩
  | append_singleton generated token ih =>
      unfold streamLoop at ih ⊢
      rw [List.foldl_append, List.foldl_cons, List.foldl_nil]
      -- The loop so far enters only through the invariant.
      generalize generated.foldl (StreamLoop.observe codec ignoreEos true)
        (StreamLoop.new stops) = loop at ih
      have hconcat := liveTokens_concat codec generated token ignoreEos
      by_cases hall : liveTokens codec generated ignoreEos = generated
      · rw [if_pos hall] at hconcat
        cases heos : (!ignoreEos && codec.isEos token) with
        | true =>
            rw [heos, if_pos rfl] at hconcat
            rw [observe_ended codec ignoreEos loop token (.inl heos)]
            exact looped_pass codec generated token stops ignoreEos loop ih
              (hconcat.trans hall.symm)
        | false =>
            rw [heos, if_neg Bool.false_ne_true] at hconcat
            have hnoEos : loop.eosObserved = false := by
              rw [ih.eos, decide_eq_true hall, Bool.not_true]
            exact looped_live codec generated token stops ignoreEos loop ih hall hconcat heos hnoEos
      · rw [if_neg hall] at hconcat
        have hEos : loop.eosObserved = true := by
          rw [ih.eos, decide_eq_false hall, Bool.not_false]
        rw [observe_ended codec ignoreEos loop token (.inr hEos)]
        exact looped_pass codec generated token stops ignoreEos loop ih hconcat

/-! ## The finished text -/

theorem inits_pairwise (tokens : List UInt32) : tokens.inits.Pairwise (· <+: ·) := by
  induction tokens using List.reverseRecOn with
  | nil => exact List.pairwise_singleton _ _
  | append_singleton tokens token ih =>
      rw [List.inits_append]
      refine List.pairwise_append.mpr ⟨ih, List.pairwise_singleton _ _, ?_⟩
      intro shorter hshorter longer hlonger
      rw [List.mem_singleton.mp hlonger]
      exact ((List.mem_inits _ _).mp hshorter).trans (List.prefix_append tokens [token])

/-- The live texts are a chain. -/
theorem liveTexts_pairwise (codec : Codec) (generated : List UInt32) (ignoreEos : Bool)
    (hmono : codec.PrefixMonotone) :
    (liveTexts codec generated ignoreEos).Pairwise (· <+: ·) := by
  unfold liveTexts
  rw [List.pairwise_filterMap]
  refine ((inits_pairwise _).sublist (List.tail_sublist _)).imp ?_
  intro shorter longer hpre text htext text' htext'
  exact hmono shorter longer text text' hpre htext htext'

/-- The full text extends every live text. -/
theorem liveTexts_isPrefix (codec : Codec) (generated : List UInt32) (ignoreEos : Bool)
    (hmono : codec.PrefixMonotone) (full text : Str)
    (hfull : codec.decode (liveTokens codec generated ignoreEos) = some full)
    (hmem : text ∈ liveTexts codec generated ignoreEos) : text <+: full := by
  rcases List.mem_filterMap.mp hmem with ⟨tokens, htokens, hdecode⟩
  have hpre := (List.mem_inits _ _).mp (List.mem_of_mem_tail htokens)
  exact hmono tokens _ text full hpre hdecode hfull

/-- The earliest stop string of the full text begins where the stream has cut, if it has. -/
def CutsAgree (codec : Codec) (generated : List UInt32) (stops : List Str) (ignoreEos : Bool) :
    Prop :=
  ∀ text full, firstStopped (liveTexts codec generated ignoreEos) stops = some text →
    codec.decode (liveTokens codec generated ignoreEos) = some full →
    (earliestStop full stops).map Prod.fst = (earliestStop text stops).map Prod.fst

/-- A cut of a longer text at the same place is the same cut, and at another place it is not. -/
theorem cutAt_eq_iff (text full : Str) (stops : List Str) (hpre : text <+: full)
    (hstop : (earliestStop text stops).isSome = true) :
    cutAt text stops = cutAt full stops ↔
      (earliestStop full stops).map Prod.fst = (earliestStop text stops).map Prod.fst := by
  rcases Option.isSome_iff_exists.mp hstop with ⟨found, hfound⟩
  rcases earliestStop_spec text stops found.1 found.2 hfound with ⟨hmem, u, hu, hlen, -⟩
  have hcut := cutAt_of_some text stops found.1 found.2 u hfound hu.before hlen
  cases hfull : earliestStop full stops with
  -- What occurs in a text occurs in a longer one.
  | none =>
      exact absurd (hu.extend hpre) ((earliestStop_eq_none_iff full stops).mp hfull found.2 hmem u)
  | some found' =>
      rcases earliestStop_spec full stops found'.1 found'.2 hfull with ⟨-, u', hu', hlen', -⟩
      have hcut' := cutAt_of_some full stops found'.1 found'.2 u' hfull hu'.before hlen'
      rw [hcut, hcut', hfound, Option.map_some, Option.map_some, Option.some.injEq, ← hlen,
        ← hlen']
      constructor
      · intro heq
        rw [heq]
      · intro heq
        exact (prefix_eq_of_byteLen_eq hu'.before (hu.before.trans hpre) heq).symm

/-- The deltas of a direct stream put together are the finished text exactly when the cuts
    agree. -/
theorem directDeltas_eq_iff (codec : Codec) (generated : List UInt32) (stops : List Str)
    (ignoreEos : Bool) (full : Str) (hmono : codec.PrefixMonotone)
    (hstops : ∀ stop ∈ stops, stop ≠ [])
    (hfull : codec.decode (liveTokens codec generated ignoreEos) = some full) :
    (directDeltas codec generated stops ignoreEos (cutAt full stops)).flatten =
        cutAt full stops ↔ CutsAgree codec generated stops ignoreEos := by
  have hloop := streamLoop_eq_updates codec generated stops ignoreEos
  have hstreamed := updates_streamed stops (liveTexts codec generated ignoreEos)
    (liveTexts_pairwise codec generated ignoreEos hmono)
  rw [← hloop.stream] at hstreamed
  unfold directDeltas
  rw [List.flatten_append, hloop.sent, ← update_delta]
  generalize (streamLoop codec generated stops ignoreEos true).textStream = st at hstreamed
  cases hfirst : firstStopped (liveTexts codec generated ignoreEos) stops with
  | some text =>
      -- The stream has stopped at its cut, so the closing update sends nothing.
      have hstopped : st.stopped = true := by
        rw [hstreamed.stopped_eq, hfirst, Option.isSome_some]
      rcases earliestStop_of_firstStopped_some _ stops text hfirst with ⟨hmem, hsome⟩
      have hpre := liveTexts_isPrefix codec generated ignoreEos hmono full text hfull hmem
      rw [update_of_stopped st _ true hstopped, hstreamed.cut text hfirst,
        cutAt_eq_iff text full stops hpre hsome]
      constructor
      · intro hagree text' full' htext' hfull'
        rw [hfirst, Option.some.injEq] at htext'
        rw [hfull, Option.some.injEq] at hfull'
        rw [← htext', ← hfull']
        exact hagree
      · intro hagree
        exact hagree text full hfirst hfull
  -- The closing update gets a text without stop strings that extends what was sent, so all
  -- of it arrives.
  | none =>
      have hlive : st.stopped = false := by
        rw [hstreamed.stopped_eq, hfirst, Option.isSome_none]
      have hfree := earliestStop_cutAt full stops hstops
      have hpre : st.emitted <+: cutAt full stops := by
        rcases hstreamed.held hfirst with hnil | ⟨text, hmem, hsent, hheld⟩
        · rw [hnil]
          exact List.nil_prefix
        · exact held_prefix_cutAt text full st.emitted stops
            (liveTexts_isPrefix codec generated ignoreEos hmono full text hfull hmem)
            (earliestStop_of_firstStopped_none _ stops text hfirst hmem) hsent hheld
      rw [← hstreamed.stops_eq] at hfree hpre
      rw [← hstreamed.stops_eq]
      refine iff_of_true (update_final st _ hlive hfree hpre) ?_
      intro text full' htext
      rw [hstreamed.stops_eq] at htext
      exact absurd (hfirst.symm.trans htext) (Option.some_ne_none text).symm

/-- With at most one stop string the cuts agree: an occurrence in the full text before the
    cut would already end inside the text the stream cut. -/
theorem cutsAgree_of_single (codec : Codec) (generated : List UInt32) (stops : List Str)
    (ignoreEos : Bool) (hmono : codec.PrefixMonotone) (hsingle : stops.length ≤ 1) :
    CutsAgree codec generated stops ignoreEos := by
  intro text full hfirst hfull
  rcases earliestStop_of_firstStopped_some _ stops text hfirst with ⟨hlive, hsome⟩
  have hpre := liveTexts_isPrefix codec generated ignoreEos hmono full text hfull hlive
  rcases Option.isSome_iff_exists.mp hsome with ⟨found, hfound⟩
  rcases earliestStop_spec text stops found.1 found.2 hfound with ⟨hmem, u, hu, hlen, hmin⟩
  cases hlast : earliestStop full stops with
  | none =>
      exact absurd (hu.extend hpre) ((earliestStop_eq_none_iff full stops).mp hlast found.2 hmem u)
  | some found' =>
      rcases earliestStop_spec full stops found'.1 found'.2 hlast with
        ⟨hmem', u', hu', hlen', hmin'⟩
      -- There is only one stop string to find.
      have hsame : found'.2 = found.2 := by
        match stops, hsingle, hmem, hmem' with
        | [stop], _, hmem, hmem' =>
            rw [List.mem_singleton.mp hmem, List.mem_singleton.mp hmem']
      -- The full text has the occurrence of the shorter one, and its own earliest is no later.
      -- So it ends inside the shorter text and was there to be found.
      have hle : byteLen u' ≤ byteLen u := by
        rw [hlen']
        exact hmin' found.2 hmem u (hu.extend hpre)
      have hends := hu.byteLen_le
      have hge := hmin found'.2 hmem' u' (hu'.restrict hpre (by rw [hsame]; omega))
      rw [hfound, Option.map_some, Option.map_some]
      exact congrArg some (by omega)

/-- The finished text is the full text, cut. -/
theorem finalizeTokens_text (codec : Codec) (generated : List UInt32) (stops : List Str)
    (ignoreEos : Bool) (requestedTokens : Nat) (out : FinalizedOutput)
    (h : finalizeTokens codec generated stops ignoreEos requestedTokens = .ok out) :
    ∃ full, codec.decode (liveTokens codec generated ignoreEos) = some full ∧
      out.text = cutAt full stops := by
  unfold finalizeTokens at h
  dsimp only at h
  rw [take_decodeCount] at h
  cases hfull : codec.decode (liveTokens codec generated ignoreEos) with
  | none =>
      rw [hfull] at h
      exact absurd h (by simp only [reduceCtorEq, not_false_eq_true])
  | some full =>
      rw [hfull] at h
      dsimp only at h
      refine ⟨full, rfl, ?_⟩
      unfold cutAt
      cases hstop : earliestStop full stops with
      | none =>
          rw [hstop] at h
          dsimp only at h
          rw [← Except.ok.inj h]
      | some found =>
          rw [hstop] at h
          dsimp only at h
          -- The text is cut here, and the tokens by a search that can only fail.
          split at h
          · exact absurd h (by simp only [reduceCtorEq, not_false_eq_true])
          · rw [← Except.ok.inj h]

/-- The deltas of a completion stream put together are the finished text exactly when no stop
    string begins, in the full text, before the one the stream has cut at. -/
theorem completionStream_text_iff (codec : Codec) (hmono : codec.PrefixMonotone)
    (generated : List UInt32) (stops : List Str) (hstops : ∀ stop ∈ stops, stop ≠ [])
    (ignoreEos : Bool) (requestedTokens : Nat) (out : FinalizedOutput)
    (hout : finalizeTokens codec generated stops ignoreEos requestedTokens = .ok out) :
    (completionStream codec generated stops ignoreEos requestedTokens).1.flatten = out.text ↔
      CutsAgree codec generated stops ignoreEos := by
  rcases finalizeTokens_text codec generated stops ignoreEos requestedTokens out hout with
    ⟨full, hfull, htext⟩
  unfold completionStream
  rw [hout]
  dsimp only
  rw [htext]
  exact directDeltas_eq_iff codec generated stops ignoreEos full hmono hstops hfull

/-- A tokenizer with a piece of text for each token: 1 is "abc", 2 is "d", 0 ends the
    sequence and the others are empty. -/
def pieceCodec : Codec where
  decode tokens := some (tokens.flatMap fun token =>
    if token = 1 then ['a', 'b', 'c'] else if token = 2 then ['d'] else [])
  decodeError _ := []
  isEos token := token == 0

theorem pieceCodec_prefixMonotone : pieceCodec.PrefixMonotone := by
  rintro a b x y ⟨rest, rfl⟩ hx hy
  simp only [pieceCodec, Option.some.injEq, List.flatMap_append] at hx hy
  rw [← hx, ← hy]
  exact List.prefix_append _ _

/-- One stop string over two tokens: the stream sends "ab", as it should. -/
theorem completionStream_pieces :
    (completionStream pieceCodec [1, 2] [['c', 'd']] false 8).1.flatten = ['a', 'b'] ∧
      CutsAgree pieceCodec [1, 2] [['c', 'd']] false :=
  ⟨by decide,
    (completionStream_text_iff pieceCodec pieceCodec_prefixMonotone [1, 2] [['c', 'd']]
      (by decide) false 8
      { text := ['a', 'b'], generatedTokenIds := [1, 2], generatedTokenCount := 2
        finishReason := .stop, stopReason := some ['c', 'd'] } (by decide)).mp (by decide)⟩

/-- Two stop strings, of which the longer begins first and ends last: the stream sends "ab"
    after the first token, and the finished text is empty. -/
theorem completionStream_overlapping :
    pieceCodec.PrefixMonotone ∧
      ∃ out, finalizeTokens pieceCodec [1, 2] [['a', 'b', 'c', 'd'], ['c']] false 8 = .ok out ∧
        (completionStream pieceCodec [1, 2] [['a', 'b', 'c', 'd'], ['c']] false 8).1.flatten ≠
          out.text :=
  ⟨pieceCodec_prefixMonotone,
    { text := [], generatedTokenIds := [1, 2], generatedTokenCount := 2
      finishReason := .stop, stopReason := some ['a', 'b', 'c', 'd'] }, by decide, by decide⟩

end Text

end QrtEngine
