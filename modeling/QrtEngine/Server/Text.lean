import QrtEngine.Library.ByteText

/-!
# Finished and Streamed Text

Two ways from generated tokens to the text a client reads. The plain response decodes
everything up to the end-of-sequence token and cuts the text at the earliest stop string.
The stream decodes every prefix as it arrives and sends what is new, holding back as many
bytes as a stop string could still begin in, and ends with one more update on the finished
text.

The tokenizer is a parameter: a partial decoding of token lists, the texts of its errors and
the set of end-of-sequence tokens. Decoding always skips the special tokens here, so the flag
is left out. A Rust string is the list of its characters, and every offset is a byte offset.

## Main definitions

* `Codec`: The tokenizer.
* `finalizeTokens`: The text of the plain response.
* `TextStreamState.update`: One update of the stream.
* `streamLoop`: The updates over the generated tokens.
* `completionStream`: The deltas of a whole stream.
-/

namespace QrtEngine

namespace Text

open ByteText

/-- A Rust string. -/
abbrev Str := List Char

/-- The part of the tokenizer a response uses. -/
structure Codec where
  decode : List UInt32 → Option Str
  decodeError : List UInt32 → Str
  isEos : UInt32 → Bool

/-- Decoding a longer list extends what decoding a shorter one gave. -/
def Codec.PrefixMonotone (codec : Codec) : Prop :=
  ∀ a b x y, a <+: b → codec.decode a = some x → codec.decode b = some y → x <+: y

/-- The first of the entries with the smallest key, as `Iterator::min_by_key` picks it. -/
def minByKey {β : Type} : List (Nat × β) → Option (Nat × β)
  | [] => none
  | x :: xs =>
      match minByKey xs with
      | none => some x
      | some y => if x.1 ≤ y.1 then some x else some y

/-- The earliest position of a stop string in a text, with that stop string. -/
def earliestStop (text : Str) (stops : List Str) : Option (Nat × Str) :=
  minByKey (stops.filterMap fun stop => (find stop text).map fun position => (position, stop))

/-- Why a response ended. -/
inductive FinishReason where
  | length
  | stop
  | toolCalls
deriving DecidableEq, Repr

/-- The finished output of a generation. -/
structure FinalizedOutput where
  text : Str
  generatedTokenIds : List UInt32
  generatedTokenCount : Nat
  finishReason : FinishReason
  stopReason : Option Str
deriving DecidableEq, Repr

/-- The shortest prefix, from the given counts, whose decoding contains the stop string. A
    prefix that does not decode ends the search with the tokenizer's error. -/
def locateStop (codec : Codec) (generated : List UInt32) (stop : Str) (default : Nat) :
    List Nat → Except Str Nat
  | [] => .ok default
  | count :: counts =>
      match codec.decode (generated.take count) with
      | none => .error (codec.decodeError (generated.take count))
      | some text =>
          if (find stop text).isSome then .ok count
          else locateStop codec generated stop default counts

/-- The number of tokens to decode: up to the end of sequence, unless it is ignored. -/
def decodeCount (codec : Codec) (generated : List UInt32) (ignoreEos : Bool) : Nat :=
  if ignoreEos then generated.length
  else (generated.findIdx? codec.isEos).getD generated.length

/-- The finished output of a list of generated tokens, or the tokenizer's error. -/
def finalizeTokens (codec : Codec) (generated : List UInt32) (stops : List Str)
    (ignoreEos : Bool) (requestedTokens : Nat) : Except Str FinalizedOutput :=
  let finishReason : FinishReason :=
    if generated.length ≥ requestedTokens then .length else .stop
  let eos := if ignoreEos then none else generated.findIdx? codec.isEos
  let count := decodeCount codec generated ignoreEos
  let generatedCount := match eos with
    | some index => index + 1
    | none => generated.length
  let finishReason := if eos.isSome then .stop else finishReason
  -- The text ends before the end-of-sequence token, the count and the ids after it.
  match codec.decode (generated.take count) with
  | none => .error (codec.decodeError (generated.take count))
  | some text =>
      match earliestStop text stops with
      | none =>
          .ok { text := text
                generatedTokenIds := generated.take generatedCount
                generatedTokenCount := generatedCount
                finishReason := finishReason
                stopReason := none }
      | some (position, stop) =>
          match locateStop codec generated stop generatedCount (List.range' 1 count) with
          | .error error => .error error
          | .ok generatedCount =>
              .ok { text := takeBytes position text
                    generatedTokenIds := generated.take generatedCount
                    generatedTokenCount := generatedCount
                    finishReason := .stop
                    stopReason := some stop }

/-- What a stream has sent and whether it met a stop string. -/
structure TextStreamState where
  emitted : Str
  stops : List Str
  stopped : Bool
deriving DecidableEq, Repr

/-- A stream that has sent nothing. -/
def TextStreamState.new (stops : List Str) : TextStreamState :=
  { emitted := [], stops := stops, stopped := false }

/-- The bytes held back: one less than the longest stop string, and three while the text
    ends in a replacement character. -/
def TextStreamState.holdBytes (st : TextStreamState) (full : Str) : Nat :=
  max (((st.stops.map byteLen).max?.getD 1) - 1)
    (if full.getLast? = some '\uFFFD' then 3 else 0)

/-- The offset a text may be sent up to: the earliest stop string, or without one the last
    boundary before the bytes held back. -/
def TextStreamState.targetEnd (st : TextStreamState) (full : Str) (finalUpdate : Bool) : Nat :=
  match earliestStop full st.stops with
  | some (position, _) => position
  | none =>
      if finalUpdate then byteLen full
      else floorBoundary full (byteLen full - st.holdBytes full)

/-- Send what is new in a target text, if it extends what was sent. -/
def TextStreamState.send (st : TextStreamState) (target : Str) : Option Str × TextStreamState :=
  if st.emitted.isPrefixOf target then
    let delta := dropBytes (byteLen st.emitted) target
    (if delta = [] then none else some delta, { st with emitted := st.emitted ++ delta })
  -- A text that takes back what was sent, as a changed decoding may, sends nothing.
  else (none, st)

/-- Send what is new in a longer text. -/
def TextStreamState.update (st : TextStreamState) (full : Str) (finalUpdate : Bool) :
    Option Str × TextStreamState :=
  if st.stopped then (none, st)
  else
    { st with stopped := (earliestStop full st.stops).isSome }.send
      (takeBytes (st.targetEnd full finalUpdate) full)

/-- The state of the loop over the generated tokens. -/
structure StreamLoop where
  observedIds : List UInt32
  textStream : TextStreamState
  eosObserved : Bool
  deltas : List Str
deriving DecidableEq, Repr

/-- The loop before the first token. -/
def StreamLoop.new (stops : List Str) : StreamLoop :=
  { observedIds := [], textStream := TextStreamState.new stops, eosObserved := false, deltas := [] }

/-- One token arrives. A prefix that does not decode is passed over. -/
def StreamLoop.observe (codec : Codec) (ignoreEos direct : Bool) (loop : StreamLoop)
    (token : UInt32) : StreamLoop :=
  let loop := { loop with observedIds := loop.observedIds ++ [token] }
  if !ignoreEos && codec.isEos token then { loop with eosObserved := true }
  -- A stream that parses at its end only collects here.
  else if direct && !loop.textStream.stopped && !loop.eosObserved then
    match codec.decode loop.observedIds with
    | none => loop
    | some full =>
        let result := loop.textStream.update full false
        { loop with textStream := result.2, deltas := loop.deltas ++ result.1.toList }
  else loop

/-- The loop over all the generated tokens. -/
def streamLoop (codec : Codec) (generated : List UInt32) (stops : List Str)
    (ignoreEos direct : Bool) : StreamLoop :=
  generated.foldl (StreamLoop.observe codec ignoreEos direct) (StreamLoop.new stops)

/-- The deltas of a direct stream with the given finished text: those of the loop, and the
    one of the closing update. -/
def directDeltas (codec : Codec) (generated : List UInt32) (stops : List Str) (ignoreEos : Bool)
    (finalText : Str) : List Str :=
  let loop := streamLoop codec generated stops ignoreEos true
  loop.deltas ++ (loop.textStream.update finalText true).1.toList

/-- The deltas a completion stream sends and the output it ends on, or the tokenizer's error
    after the deltas already sent. -/
def completionStream (codec : Codec) (generated : List UInt32) (stops : List Str)
    (ignoreEos : Bool) (requestedTokens : Nat) : List Str × Except Str FinalizedOutput :=
  match finalizeTokens codec generated stops ignoreEos requestedTokens with
  | .error error => ((streamLoop codec generated stops ignoreEos true).deltas, .error error)
  | .ok finalized =>
      (directDeltas codec generated stops ignoreEos finalized.text, .ok finalized)

end Text

end QrtEngine
