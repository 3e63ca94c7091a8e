import QrtEngine.Server.TextStream

/-!
# The Finished Output

What the plain response returns for a list of generated tokens: the text, the ids it
accounts for, the stop string it reports and the reason it ended. The text is decoded from
the tokens before the end of sequence and cut at the earliest stop string. The ids are
found in a second pass, which decodes longer and longer prefixes until one contains the
reported stop string.

That pass begins with one token. A tokenizer that gives text for no tokens at all may have
the stop string there already, and then the ids are the first token and not the empty list.
Every other case is the shortest prefix.

## Main definitions

* `Contains`: A pattern occurs in a text.
* `throughEos`: The generated tokens up to and with the end of sequence.
* `IsShortest`: The shortest prefix whose decoding contains a stop string.
* `FinalizedAs`: What the plain response returns.

## Theorems

* `locateStop_spec`: What the second pass returns.
* `finalizeTokens_cases`: The two ways to a finished output.
* `finalizeTokens_returns`: There is a finished output if every prefix decodes.
* `finalizeTokens_finalizedAs`: What the finished output is.
-/

namespace QrtEngine

namespace Text

open ByteText

/-- A pattern occurs in a text. -/
def Contains (text pattern : Str) : Prop := ∃ u, Occurs text pattern u

theorem find_isSome_iff (text pattern : Str) :
    (find pattern text).isSome = true ↔ Contains text pattern := by
  rw [Option.isSome_iff_ne_none, Ne, find_eq_none_iff]
  exact not_forall_not

theorem Contains.extend {text longer pattern : Str} (h : Contains text pattern)
    (hpre : text <+: longer) : Contains longer pattern := by
  rcases h with ⟨u, hu⟩
  exact ⟨u, hu.extend hpre⟩

/-! ## The second pass -/

/-- A pass over successive counts returns the first whose prefix contains the stop string.
    All the prefixes before it decode and do not contain it. -/
theorem locateStop_spec (codec : Codec) (generated : List UInt32) (stop : Str)
    (default first length count : Nat)
    (h : locateStop codec generated stop default (List.range' first length) = .ok count) :
    (count = default ∧ ∀ m, first ≤ m → m < first + length →
        ∃ text, codec.decode (generated.take m) = some text ∧ ¬Contains text stop) ∨
      first ≤ count ∧ count < first + length ∧
        (∃ text, codec.decode (generated.take count) = some text ∧ Contains text stop) ∧
        ∀ m, first ≤ m → m < count →
          ∃ text, codec.decode (generated.take m) = some text ∧ ¬Contains text stop := by
  induction length generalizing first with
  | zero =>
      rw [List.range'_zero] at h
      exact .inl ⟨(Except.ok.inj h).symm, fun m hle hlt => absurd hlt (by omega)⟩
  | succ length ih =>
      rw [List.range'_succ] at h
      unfold locateStop at h
      cases hdecode : codec.decode (generated.take first) with
      | none =>
          rw [hdecode] at h
          exact absurd h (by simp only [reduceCtorEq, not_false_eq_true])
      | some text =>
          rw [hdecode] at h
          dsimp only at h
          by_cases hfind : (find stop text).isSome = true
          · rw [if_pos hfind, Except.ok.injEq] at h
            subst h
            refine .inr ⟨Nat.le_refl _, by omega, ?_, fun m hle hlt => absurd hlt (by omega)⟩
            exact ⟨text, hdecode, (find_isSome_iff text stop).mp hfind⟩
          · rw [if_neg hfind] at h
            have hnot : ¬Contains text stop := fun hc => hfind ((find_isSome_iff text stop).mpr hc)
            -- The count just passed joins those the rest of the pass has seen.
            have hhere : ∀ m, first ≤ m → m < first + 1 →
                ∃ text, codec.decode (generated.take m) = some text ∧ ¬Contains text stop := by
              intro m hle hlt
              have hm : m = first := by omega
              rw [hm]
              exact ⟨text, hdecode, hnot⟩
            rcases ih (first + 1) h with ⟨hdefault, hall⟩ | ⟨hfirst, hlast, hfound, hall⟩
            · refine .inl ⟨hdefault, fun m hle hlt => ?_⟩
              by_cases hm : m < first + 1
              · exact hhere m hle hm
              · exact hall m (by omega) (by omega)
            · refine .inr ⟨by omega, by omega, hfound, fun m hle hlt => ?_⟩
              by_cases hm : m < first + 1
              · exact hhere m hle hm
              · exact hall m (by omega) hlt

/-- The pass returns if every prefix decodes. -/
theorem locateStop_returns (codec : Codec) (generated : List UInt32) (stop : Str) (default : Nat)
    (counts : List Nat)
    (h : ∀ tokens, tokens <+: generated → (codec.decode tokens).isSome = true) :
    ∃ count, locateStop codec generated stop default counts = .ok count := by
  induction counts with
  | nil => exact ⟨default, rfl⟩
  | cons count counts ih =>
      rcases Option.isSome_iff_exists.mp (h _ (List.take_prefix count generated)) with
        ⟨text, htext⟩
      unfold locateStop
      rw [htext]
      dsimp only
      by_cases hfind : (find stop text).isSome = true
      · rw [if_pos hfind]
        exact ⟨count, rfl⟩
      · rw [if_neg hfind]
        exact ih

/-! ## The output -/

/-- The generated tokens up to and with the first that ends the sequence, or all of them if
    none does or it is ignored. -/
def throughEos (codec : Codec) (generated : List UInt32) (ignoreEos : Bool) : List UInt32 :=
  generated.take ((liveTokens codec generated ignoreEos).length + 1)

/-- The sequence was ended by a token. -/
def endsSequence (codec : Codec) (generated : List UInt32) (ignoreEos : Bool) : Bool :=
  !ignoreEos && generated.any codec.isEos

/-- The shortest prefix of the generated tokens whose decoding contains the stop string. -/
def IsShortest (codec : Codec) (generated : List UInt32) (stop : Str) (ids : List UInt32) : Prop :=
  ids <+: generated ∧ (∃ text, codec.decode ids = some text ∧ Contains text stop) ∧
    ∀ tokens text, tokens <+: generated → codec.decode tokens = some text →
      Contains text stop → ids.length ≤ tokens.length

/-- What the plain response returns. The ids it accounts for depend on a predicate, as the
    shortest prefix has one exception. -/
structure FinalizedAs (codec : Codec) (generated : List UInt32) (stops : List Str)
    (ignoreEos : Bool) (requestedTokens : Nat) (accounted : Str → List UInt32 → Prop)
    (out : FinalizedOutput) : Prop where
  /-- The text has no stop string in it. -/
  free : ∀ stop ∈ stops, ¬Contains out.text stop
  /-- It is the decoding of the live tokens, cut before the reported stop string, and no stop
      string begins earlier. -/
  cut : ∃ full, codec.decode (liveTokens codec generated ignoreEos) = some full ∧
    match out.stopReason with
    | none => out.text = full
    | some stop => stop ∈ stops ∧ Occurs full stop out.text ∧
        ∀ stop' ∈ stops, ∀ u, Occurs full stop' u → out.text <+: u
  ids : match out.stopReason with
    | none => out.generatedTokenIds = throughEos codec generated ignoreEos
    | some stop => accounted stop out.generatedTokenIds
  count : out.generatedTokenCount = out.generatedTokenIds.length
  /-- The decoding of the ids starts with the text. -/
  decoded : ∀ text, codec.decode out.generatedTokenIds = some text → out.text <+: text
  finish : out.finishReason = .length ↔
    endsSequence codec generated ignoreEos = false ∧ out.stopReason = none ∧
      requestedTokens ≤ generated.length

/-- Where the sequence was ended. -/
def eosIndex (codec : Codec) (generated : List UInt32) (ignoreEos : Bool) : Option Nat :=
  if ignoreEos then none else generated.findIdx? codec.isEos

theorem eosIndex_lt (codec : Codec) (generated : List UInt32) (ignoreEos : Bool) (index : Nat)
    (h : eosIndex codec generated ignoreEos = some index) : index < generated.length := by
  cases ignoreEos with
  | true => exact absurd h (by simp [eosIndex])
  | false => exact (List.findIdx?_eq_some_iff_getElem.mp h).1

/-- Without a stop string the ids are the live tokens and the one that ended them. -/
theorem throughEos_eq (codec : Codec) (generated : List UInt32) (ignoreEos : Bool) :
    throughEos codec generated ignoreEos =
      generated.take ((eosIndex codec generated ignoreEos).elim generated.length (· + 1)) := by
  unfold throughEos
  rw [← take_decodeCount]
  unfold decodeCount
  cases ignoreEos with
  | true => simp [eosIndex]
  | false =>
      have hlt := eosIndex_lt codec generated false
      simp only [eosIndex, Bool.false_eq_true, if_false] at hlt ⊢
      cases h : generated.findIdx? codec.isEos with
      | none => simp
      | some index =>
          rw [Option.getD_some, Option.elim_some, List.length_take,
            Nat.min_eq_left (Nat.le_of_lt (hlt index h))]

theorem eosIndex_isSome (codec : Codec) (generated : List UInt32) (ignoreEos : Bool) :
    (eosIndex codec generated ignoreEos).isSome = endsSequence codec generated ignoreEos := by
  unfold endsSequence eosIndex
  cases ignoreEos with
  | true => rfl
  | false => simp [List.findIdx?_isSome]

/-- The finish reason of an output without a stop string. -/
def plainFinish (codec : Codec) (generated : List UInt32) (ignoreEos : Bool)
    (requestedTokens : Nat) : FinishReason :=
  if endsSequence codec generated ignoreEos then .stop
  else if generated.length ≥ requestedTokens then .length else .stop

/-- The two ways to a finished output: without a stop string, or cut at the earliest one with
    the ids the second pass has found. -/
theorem finalizeTokens_cases (codec : Codec) (generated : List UInt32) (stops : List Str)
    (ignoreEos : Bool) (requestedTokens : Nat) (out : FinalizedOutput)
    (h : finalizeTokens codec generated stops ignoreEos requestedTokens = .ok out) :
    ∃ full, codec.decode (liveTokens codec generated ignoreEos) = some full ∧
      (earliestStop full stops = none ∧ out =
          { text := full
            generatedTokenIds := throughEos codec generated ignoreEos
            generatedTokenCount := (throughEos codec generated ignoreEos).length
            finishReason := plainFinish codec generated ignoreEos requestedTokens
            stopReason := none } ∨
        ∃ position stop count default, earliestStop full stops = some (position, stop) ∧
          generated.take default = throughEos codec generated ignoreEos ∧
          default ≤ generated.length ∧
          locateStop codec generated stop default
            (List.range' 1 (decodeCount codec generated ignoreEos)) = .ok count ∧ out =
          { text := takeBytes position full
            generatedTokenIds := generated.take count
            generatedTokenCount := count
            finishReason := .stop
            stopReason := some stop }) := by
  have hids := throughEos_eq codec generated ignoreEos
  have hends := eosIndex_isSome codec generated ignoreEos
  have hle : (eosIndex codec generated ignoreEos).elim generated.length (· + 1) ≤
      generated.length := by
    cases heos : eosIndex codec generated ignoreEos with
    | none => exact Nat.le_refl _
    | some index => exact eosIndex_lt codec generated ignoreEos index heos
  unfold finalizeTokens at h
  dsimp only at h
  rw [take_decodeCount, ← eosIndex] at h
  -- From here on all that is known of the end is how it bounds the ids.
  generalize eosIndex codec generated ignoreEos = eos at h hids hends hle
  cases hfull : codec.decode (liveTokens codec generated ignoreEos) with
  | none =>
      rw [hfull] at h
      exact absurd h (by simp only [reduceCtorEq, not_false_eq_true])
  | some full =>
      rw [hfull] at h
      dsimp only at h
      refine ⟨full, rfl, ?_⟩
      cases hstop : earliestStop full stops with
      | none =>
          rw [hstop] at h
          dsimp only at h
          refine .inl ⟨rfl, ?_⟩
          rw [← Except.ok.inj h, hids, List.length_take, Nat.min_eq_left hle, plainFinish,
            ← hends]
          cases eos <;> rfl
      | some found =>
          rw [hstop] at h
          dsimp only at h
          split at h
          · exact absurd h (by simp only [reduceCtorEq, not_false_eq_true])
          · rename_i count hcount
            refine .inr ⟨found.1, found.2, count, _, rfl, hids.symm, hle, ?_,
              (Except.ok.inj h).symm⟩
            cases eos <;> exact hcount

/-- There is a finished output if every prefix of the tokens decodes. -/
theorem finalizeTokens_returns (codec : Codec) (generated : List UInt32) (stops : List Str)
    (ignoreEos : Bool) (requestedTokens : Nat)
    (h : ∀ tokens, tokens <+: generated → (codec.decode tokens).isSome = true) :
    ∃ out, finalizeTokens codec generated stops ignoreEos requestedTokens = .ok out := by
  have hlive : liveTokens codec generated ignoreEos <+: generated := List.takeWhile_prefix _
  rcases Option.isSome_iff_exists.mp (h _ hlive) with ⟨full, hfull⟩
  unfold finalizeTokens
  dsimp only
  rw [take_decodeCount, hfull]
  dsimp only
  cases hstop : earliestStop full stops with
  | none => exact ⟨_, rfl⟩
  | some found =>
      rcases locateStop_returns codec generated found.2 _ _ h with ⟨count, hcount⟩
      dsimp only
      rw [hcount]
      exact ⟨_, rfl⟩

/-! ## The ids -/

/-- A tokenizer has the stop string in what it gives for no tokens. -/
def StopsAtOnce (codec : Codec) (stop : Str) : Prop :=
  ∃ text, codec.decode [] = some text ∧ Contains text stop

/-- The ids accounted for with a stop string: the shortest prefix, or the first token if no
    tokens at all have it. -/
def Accounted (codec : Codec) (generated : List UInt32) (stop : Str) (ids : List UInt32) : Prop :=
  (¬StopsAtOnce codec stop → IsShortest codec generated stop ids) ∧
    (StopsAtOnce codec stop → ids = generated.take 1)

theorem decodeCount_le (codec : Codec) (generated : List UInt32) (ignoreEos : Bool) :
    decodeCount codec generated ignoreEos ≤ generated.length := by
  unfold decodeCount
  cases ignoreEos with
  | true => exact Nat.le_refl _
  | false =>
      simp only [Bool.false_eq_true, if_false]
      rw [← List.findIdx_eq_getD_findIdx?]
      exact List.findIdx_le_length

theorem take_isPrefix_take (generated : List UInt32) (m n : Nat) (h : m ≤ n) :
    generated.take m <+: generated.take n :=
  List.take_prefix_take_left h

section Ids

variable (codec : Codec) (hmono : codec.PrefixMonotone) (generated : List UInt32)
  (ignoreEos : Bool) (stop full : Str) (default count : Nat)

include hmono

/-- The pass over the live tokens fails to find the stop string only if there are none. -/
theorem locateStop_accounts
    (hfull : codec.decode (liveTokens codec generated ignoreEos) = some full)
    (hstop : Contains full stop)
    (hdefault : generated.take default = throughEos codec generated ignoreEos)
    (hle : default ≤ generated.length)
    (h : locateStop codec generated stop default
      (List.range' 1 (decodeCount codec generated ignoreEos)) = .ok count) :
    count ≤ generated.length ∧ Accounted codec generated stop (generated.take count) ∧
      ((∃ text, codec.decode (generated.take count) = some text ∧ Contains text stop ∧
          text <+: full) ∨ liveTokens codec generated ignoreEos = []) := by
  have hlive := take_decodeCount codec generated ignoreEos
  rcases locateStop_spec codec generated stop default 1 _ count h with
    ⟨rfl, hnone⟩ | ⟨hfirst, hlast, ⟨text, htext, hcontains⟩, hbefore⟩
  · -- The whole of the live tokens has it, so they were not among the prefixes tried.
    have hzero : decodeCount codec generated ignoreEos = 0 := by
      by_contra hne
      rcases hnone (decodeCount codec generated ignoreEos) (by omega) (by omega) with
        ⟨text, htext, hnot⟩
      rw [hlive, hfull, Option.some.injEq] at htext
      exact hnot (htext ▸ hstop)
    rw [hzero, List.take_zero] at hlive
    have hat : StopsAtOnce codec stop := ⟨full, by rw [hlive]; exact hfull, hstop⟩
    refine ⟨hle, ⟨fun hno => absurd hat hno, fun _ => ?_⟩, .inr hlive.symm⟩
    rw [hdefault, throughEos, ← hlive, List.length_nil]
  · have hcount : count ≤ generated.length := by
      have hbound := decodeCount_le codec generated ignoreEos
      omega
    refine ⟨hcount,
      ⟨fun hno => ⟨List.take_prefix _ _, ⟨text, htext, hcontains⟩, ?_⟩, fun hat => ?_⟩,
      .inl ⟨text, htext, hcontains, ?_⟩⟩
    · -- A shorter prefix with the stop string would have been found before this one.
      intro tokens text' hpre htext' hcontains'
      rw [List.length_take, Nat.min_eq_left hcount]
      by_contra hlt
      have htokens := List.prefix_iff_eq_take.mp hpre
      by_cases hempty : tokens.length = 0
      · rw [List.length_eq_zero_iff.mp hempty] at htext'
        exact hno ⟨text', htext', hcontains'⟩
      · rcases hbefore tokens.length (by omega) (by omega) with ⟨text'', htext'', hnot⟩
        rw [← htokens, htext', Option.some.injEq] at htext''
        exact hnot (htext'' ▸ hcontains')
    · -- A first token before the one found would have the stop string too.
      rcases hat with ⟨empty, hempty, hcontains'⟩
      have hone : count = 1 := by
        by_contra hne
        rcases hbefore 1 (Nat.le_refl _) (by omega) with ⟨text', htext', hnot⟩
        exact hnot (hcontains'.extend
          (hmono [] _ empty text' List.nil_prefix hempty htext'))
      rw [hone]
    · refine hmono _ _ text full (take_isPrefix_take generated count
        (decodeCount codec generated ignoreEos) (by omega)) htext ?_
      rw [hlive]
      exact hfull

end Ids

/-! ## What is returned -/

theorem liveTokens_isPrefix_throughEos (codec : Codec) (generated : List UInt32)
    (ignoreEos : Bool) :
    liveTokens codec generated ignoreEos <+: throughEos codec generated ignoreEos := by
  have hpre : liveTokens codec generated ignoreEos <+: generated := List.takeWhile_prefix _
  have htake := take_isPrefix_take generated _ _
    (Nat.le_succ (liveTokens codec generated ignoreEos).length)
  rwa [← List.prefix_iff_eq_take.mp hpre] at htake

/-- A list of ids found by the second pass decodes to a text that begins with the cut. -/
theorem cut_isPrefix_of_contains (full stop cut text : Str) (stops : List Str)
    (hmem : stop ∈ stops) (hcut : cut <+: full)
    (hmin : ∀ stop' ∈ stops, ∀ u, Occurs full stop' u → byteLen cut ≤ byteLen u)
    (hcontains : Contains text stop) (hpre : text <+: full) : cut <+: text := by
  rcases hcontains with ⟨u, hu⟩
  have hle := hmin stop hmem u (hu.extend hpre)
  exact (prefix_of_byteLen_le hcut (hu.before.trans hpre) hle).trans hu.before

theorem plainFinish_eq_length_iff (codec : Codec) (generated : List UInt32) (ignoreEos : Bool)
    (requestedTokens : Nat) :
    plainFinish codec generated ignoreEos requestedTokens = .length ↔
      endsSequence codec generated ignoreEos = false ∧ requestedTokens ≤ generated.length := by
  unfold plainFinish
  cases endsSequence codec generated ignoreEos with
  | true => simp
  | false => by_cases h : generated.length ≥ requestedTokens <;> simp [h]

/-- What the plain response returns, for every tokenizer whose decoding only grows: it returns
    if every prefix decodes, and then the text, the ids, the reported stop string and the
    finish reason are these. -/
theorem finalizeTokens_finalizedAs (codec : Codec) (hmono : codec.PrefixMonotone)
    (generated : List UInt32) (stops : List Str) (hstops : ∀ stop ∈ stops, stop ≠ [])
    (ignoreEos : Bool) (requestedTokens : Nat) :
    ((∀ tokens, tokens <+: generated → (codec.decode tokens).isSome = true) →
        ∃ out, finalizeTokens codec generated stops ignoreEos requestedTokens = .ok out) ∧
      ∀ out, finalizeTokens codec generated stops ignoreEos requestedTokens = .ok out →
        FinalizedAs codec generated stops ignoreEos requestedTokens (Accounted codec generated)
          out := by
  refine ⟨finalizeTokens_returns codec generated stops ignoreEos requestedTokens, ?_⟩
  intro out h
  have hfree : ∀ stop ∈ stops, ¬Contains out.text stop := by
    rcases finalizeTokens_text codec generated stops ignoreEos requestedTokens out h with
      ⟨full, -, htext⟩
    have hnone := earliestStop_cutAt full stops hstops
    rw [← htext, earliestStop_eq_none_iff] at hnone
    exact fun stop hstop ⟨u, hu⟩ => hnone stop hstop u hu
  rcases finalizeTokens_cases codec generated stops ignoreEos requestedTokens out h with
    ⟨full, hfull, ⟨hnone, rfl⟩ | ⟨position, stop, count, default, hfound, hids, hle, hcount, rfl⟩⟩
  · -- Nothing is cut: the text is that of the live tokens.
    refine ⟨hfree, ⟨full, hfull, rfl⟩, rfl, rfl, fun text htext => ?_, ?_⟩
    · exact hmono _ _ full text (liveTokens_isPrefix_throughEos codec generated ignoreEos) hfull
        htext
    · simp only [plainFinish_eq_length_iff, true_and]
  · -- The text is cut before the earliest stop string, and the tokens where that is complete.
    rcases earliestStop_spec full stops position stop hfound with ⟨hmem, u, hu, hlen, hmin⟩
    have hcut : takeBytes position full = u := by
      rcases hu with ⟨v, rfl⟩
      rw [← hlen, takeBytes_append]
    rw [← hlen] at hmin
    rcases locateStop_accounts codec hmono generated ignoreEos stop full default count hfull
      ⟨u, hu⟩ hids hle hcount with ⟨hlength, haccounted, hdecoded⟩
    refine ⟨hfree, ⟨full, hfull, hmem, ?_, ?_⟩, haccounted, ?_, ?_, ?_⟩
    · dsimp only
      rw [hcut]
      exact hu
    · intro stop' hstop' u' hu'
      dsimp only
      rw [hcut]
      exact prefix_of_byteLen_le hu.before hu'.before (hmin stop' hstop' u' hu')
    · dsimp only
      rw [List.length_take, Nat.min_eq_left hlength]
    · intro text htext
      dsimp only at htext ⊢
      rw [hcut]
      rcases hdecoded with ⟨text', htext', hcontains, hpre⟩ | hempty
      · rw [htext, Option.some.injEq] at htext'
        subst htext'
        exact cut_isPrefix_of_contains full stop u text stops hmem hu.before hmin hcontains hpre
      · rw [hempty] at hfull
        exact hu.before.trans (hmono [] _ full text List.nil_prefix hfull htext)
    · simp only [reduceCtorEq, false_and, and_false]

/-- The stop string "cd" over two tokens, then the end of the sequence: the text is "ab" and
    the ids are the two tokens. -/
theorem finalizeTokens_pieces_finalizedAs :
    ∃ out, finalizeTokens pieceCodec [1, 2, 0] [['c', 'd']] false 8 = .ok out ∧
      out.text = ['a', 'b'] ∧ out.generatedTokenIds = [1, 2] ∧
      FinalizedAs pieceCodec [1, 2, 0] [['c', 'd']] false 8
        (Accounted pieceCodec [1, 2, 0]) out :=
  ⟨{ text := ['a', 'b'], generatedTokenIds := [1, 2], generatedTokenCount := 2
     finishReason := .stop, stopReason := some ['c', 'd'] }, by decide, rfl, rfl,
    (finalizeTokens_finalizedAs pieceCodec pieceCodec_prefixMonotone [1, 2, 0] [['c', 'd']]
      (by decide) false 8).2 _ (by decide)⟩

/-- A tokenizer that begins every text with "> ", also that of no tokens. -/
def quoteCodec : Codec where
  decode tokens := some ('>' :: ' ' :: tokens.map fun _ => 'a')
  decodeError _ := []
  isEos token := token == 0

theorem quoteCodec_prefixMonotone : quoteCodec.PrefixMonotone := by
  rintro a b x y ⟨rest, rfl⟩ hx hy
  simp only [quoteCodec, Option.some.injEq, List.map_append] at hx hy
  rw [← hx, ← hy]
  exact ⟨rest.map fun _ => 'a', by simp⟩

/-- With the stop string ">" the empty list has it already, and the ids are the first token. -/
theorem finalizeTokens_not_shortest :
    quoteCodec.PrefixMonotone ∧
      ∃ out, finalizeTokens quoteCodec [1, 2] [['>']] false 8 = .ok out ∧
        out.generatedTokenIds = [1] ∧
        ¬FinalizedAs quoteCodec [1, 2] [['>']] false 8 (IsShortest quoteCodec [1, 2]) out := by
  refine ⟨quoteCodec_prefixMonotone,
    { text := [], generatedTokenIds := [1], generatedTokenCount := 1
      finishReason := .stop, stopReason := some ['>'] }, by decide, rfl, fun h => ?_⟩
  have hle := h.ids.2.2 [] ['>', ' '] List.nil_prefix rfl ⟨[], [' '], rfl⟩
  exact absurd hle (by decide)

end Text

end QrtEngine
