import Mathlib.Tactic.Ring
import Mathlib.Data.List.Basic

/-!
# The BF16 Group Accumulator

The host model of a matrix instruction's BF16 dot product, as the accumulator
header writes it. A `Value` is a significand, a binary exponent and a sign; a
product of two BF16 words is exact, and a group of products is added to the
carried accumulator by aligning everything to the largest exponent, dropping the
bits that fall off, and renormalising the sum to a 24 bit significand.

Words are machine words and `Value` fields are natural numbers and integers with
the source's casts kept as explicit reductions: `toUInt32` for the stores into the
significand and `toInt16` for the stores into the exponent. Floats are their bit
patterns, since the source only ever copies the bits in and out.

The source adds in sixty-four bits. `groupSumInt32` is the same function with the
sum reduced to a signed thirty-two bit word after every addition, which is what the
upstream accumulator does, so that the two can be compared.

## Main definitions

* `Value`: A significand, an exponent and a sign.
* `multiplyBf16`: The exact product of two BF16 words.
* `groupSum`: Align, add and renormalise one group.
* `groupSumInt32`: `groupSum` with the running sum in a signed 32 bit word.
* `Instantiation`: The parameter sets the header instantiates.
* `groupSteps`: The accumulator and the products of every group of a run.
* `accumulateBf16`: The whole run over a list of pairs.
-/

namespace QrtEngine

namespace Accumulator

/-- A number `significand * 2 ^ (exponent - 23)` with a sign of its own. -/
structure Value where
  significand : Nat
  exponent : Int
  negative : Bool
deriving DecidableEq, Repr

/-- A cast to `uint32_t`. -/
def toUInt32 (n : Nat) : Nat := n % 2 ^ 32

/-- A cast to `int16_t`. -/
def toInt16 (n : Int) : Int := Int.bmod n (2 ^ 16)

/-- The number of bits of a word, zero for zero. -/
def bitWidthU64 (value : Nat) : Nat :=
  if value = 0 then 0 else Nat.log2 value + 1

/-- The exact product of two BF16 words, with a subnormal word read at exponent one
    without its hidden bit, and a zero product placed at the zero exponent. -/
def multiplyBf16 (left right : UInt16) (zeroExponent : Int) : Value :=
  let negative := (left ^^^ right) &&& 0x8000 != 0
  let leftExponent := (left.toNat >>> 7) &&& 0xff
  let rightExponent := (right.toNat >>> 7) &&& 0xff
  let leftFraction := left.toNat &&& 0x7f
  let rightFraction := right.toNat &&& 0x7f
  let leftSignificand := if leftExponent ≠ 0 then leftFraction ||| 0x80 else leftFraction
  let rightSignificand := if rightExponent ≠ 0 then rightFraction ||| 0x80 else rightFraction
  let leftExponent := if leftExponent = 0 then 1 else leftExponent
  let rightExponent := if rightExponent = 0 then 1 else rightExponent
  let significand := toUInt32 ((leftSignificand * rightSignificand) <<< 9)
  if significand = 0 then
    { significand := 0, exponent := zeroExponent, negative := negative }
  else
    { significand := significand
      exponent := toInt16 ((leftExponent : Int) + rightExponent - 254)
      negative := negative }

/-- The largest exponent of a group, at least the zero exponent. -/
def maxExponent (zeroExponent : Int) (values : List Value) : Int :=
  values.foldl (fun e v => if v.exponent > e then v.exponent else e) zeroExponent

/-- The significand moved to the internal width and down to the group's exponent. -/
def aligned (width : Nat) (shift : Int) (v : Value) : Nat :=
  (v.significand <<< (width - 24)) >>> shift.toNat

/-- One iteration of the summing loop. A value more than 31 places down is skipped. -/
def sumStep (width : Nat) (maxExponent : Int) (sum : Int) (v : Value) : Int :=
  let shift := maxExponent - v.exponent
  if shift ≥ 32 then sum
  else sum + if v.negative then -(aligned width shift v : Int) else aligned width shift v

/-- The values the running sum takes, the initial zero included. -/
def partialSums (width : Nat) (zeroExponent : Int) (values : List Value) : List Int :=
  values.scanl (sumStep width (maxExponent zeroExponent values)) 0

/-- Renormalise a signed sum to a 24 bit significand, flushing what falls below the
    smallest binary32 exponent. -/
def normalize (width : Nat) (zeroExponent maxExponent : Int) (signedSignificand : Int) : Value :=
  let negative := decide (signedSignificand < 0)
  let magnitude := signedSignificand.natAbs
  let bits := bitWidthU64 magnitude
  if bits = 0 then
    { significand := 0, exponent := zeroExponent, negative := negative }
  else
    let exponent := toInt16 (maxExponent + bits - width)
    let normalized :=
      if bits > width then magnitude >>> (bits - width) else magnitude <<< (width - bits)
    let underflowShift := (-126 - exponent).toNat
    let underflows := decide (exponent < -126)
    let normalized :=
      if underflows then (if underflowShift ≥ 64 then 0 else normalized >>> underflowShift)
      else normalized
    let exponent := if underflows then -126 else exponent
    let normalized := normalized >>> (width - 24)
    if normalized = 0 then
      { significand := 0, exponent := zeroExponent, negative := negative }
    else
      { significand := toUInt32 normalized, exponent := exponent, negative := negative }

/-- The sum of one group, the running sum kept wide. -/
def groupSum (width : Nat) (zeroExponent : Int) (values : List Value) : Value :=
  let maxExponent := maxExponent zeroExponent values
  normalize width zeroExponent maxExponent (values.foldl (sumStep width maxExponent) 0)

/-- A signed 32 bit word, two's complement. -/
def wrapInt32 (n : Int) : Int := Int.bmod n (2 ^ 32)

/-- The sum of one group with the running sum in a signed 32 bit word. -/
def groupSumInt32 (width : Nat) (zeroExponent : Int) (values : List Value) : Value :=
  let maxExponent := maxExponent zeroExponent values
  normalize width zeroExponent maxExponent
    (values.foldl (fun sum v => wrapInt32 (sumStep width maxExponent sum v)) 0)

/-- The bit pattern of the float a value stands for. -/
def valueToFloat (value : Value) : Nat :=
  if value.significand = 0 then 0
  else
    let exponentBits := value.exponent + 127
    let exponentBits :=
      if value.significand &&& 0x800000 = 0 then exponentBits - 1 else exponentBits
    (if value.negative then 0x80000000 else 0) |||
      ((exponentBits % 2 ^ 32).toNat &&& 0xff) <<< 23 ||| value.significand &&& 0x7fffff

/-- The value a float's bit pattern stands for. -/
def valueFromFloat (bits : UInt32) (zeroExponent : Int) : Value :=
  let negative := bits &&& 0x80000000 != 0
  let exponentBits := (bits.toNat >>> 23) &&& 0xff
  let fraction := bits.toNat &&& 0x7fffff
  if exponentBits = 0 ∧ fraction = 0 then
    { significand := 0, exponent := zeroExponent, negative := negative }
  else
    { significand := if exponentBits = 0 then fraction else fraction ||| 0x800000
      exponent := if exponentBits = 0 then -126 else toInt16 ((exponentBits : Int) - 127)
      negative := negative }

/-- The parameter sets the header instantiates, by the names of the entry points. -/
inductive Instantiation where
  | ampereLovelace
  | hopper
  | group8Width26
  | group16Width25
  | group4Width25
  | group8Width24
deriving DecidableEq, Repr

namespace Instantiation

/-- The internal significand width. -/
def width : Instantiation → Nat
  | ampereLovelace | group16Width25 | group4Width25 => 25
  | hopper | group8Width26 => 26
  | group8Width24 => 24

/-- The number of products a group holds beside the accumulator. -/
def productsPerGroup : Instantiation → Nat
  | ampereLovelace | group8Width26 | group8Width24 => 8
  | hopper | group16Width25 => 16
  | group4Width25 => 4

/-- The exponent a zero is placed at. -/
def zeroExponent : Instantiation → Int
  | ampereLovelace | group16Width25 | group4Width25 => -132
  | hopper | group8Width26 => -133
  | group8Width24 => -131

end Instantiation

/-- The exact products of one group. -/
def products (zeroExponent : Int) (pairs : List (UInt16 × UInt16)) : List Value :=
  pairs.map fun p => multiplyBf16 p.1 p.2 zeroExponent

/-- The loop of the accumulator: the carried accumulator and the products of every
    group, in order, and the accumulator left at the end. Each iteration takes at least
    one pair, so as many iterations as there are pairs are enough. -/
def accumulateLoop (t : Instantiation) :
    Nat → Value → List (UInt16 × UInt16) → List (Value × List Value) × Value
  | 0, accumulator, _ => ([], accumulator)
  | _ + 1, accumulator, [] => ([], accumulator)
  | fuel + 1, accumulator, pair :: pairs =>
    let group := products t.zeroExponent ((pair :: pairs).take t.productsPerGroup)
    let rest := accumulateLoop t fuel
      (groupSum t.width t.zeroExponent (accumulator :: group))
      ((pair :: pairs).drop t.productsPerGroup)
    ((accumulator, group) :: rest.1, rest.2)

/-- The accumulator and the products of every group of a run. -/
def groupSteps (t : Instantiation) (initial : UInt32) (pairs : List (UInt16 × UInt16)) :
    List (Value × List Value) :=
  (accumulateLoop t pairs.length (valueFromFloat initial t.zeroExponent) pairs).1

/-- The accumulator once every pair has been consumed. -/
def lastAccumulator (t : Instantiation) (initial : UInt32) (pairs : List (UInt16 × UInt16)) :
    Value :=
  (accumulateLoop t pairs.length (valueFromFloat initial t.zeroExponent) pairs).2

/-- The bit pattern `accumulate_bf16_impl` returns, after one more sum of the
    accumulator alone. -/
def accumulateBf16 (t : Instantiation) (initial : UInt32) (pairs : List (UInt16 × UInt16)) :
    Nat :=
  valueToFloat (groupSum t.width t.zeroExponent [lastAccumulator t initial pairs])

/-- The value lists `groupSum` is called on in a run. -/
def groupSumCalls (t : Instantiation) (initial : UInt32) (pairs : List (UInt16 × UInt16)) :
    List (List Value) :=
  (groupSteps t initial pairs).map (fun step => step.1 :: step.2) ++
    [[lastAccumulator t initial pairs]]

/-- The dot product entry points start from a zero accumulator. -/
def dotBf16 (t : Instantiation) (pairs : List (UInt16 × UInt16)) : Nat :=
  accumulateBf16 t 0 pairs

end Accumulator

end QrtEngine
