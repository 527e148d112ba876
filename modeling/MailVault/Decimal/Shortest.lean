/-!
# The shortest decimal that reads back

A finite double stands for every real number that rounds to it.  Among the
decimals in that interval the one on the coarsest decimal grid has the fewest
digits, and of its two neighbours on that grid the nearer one is taken.  All
arithmetic is on natural numbers: the value and the ends of the interval are
fractions with one common denominator.
-/

namespace MailVault
namespace Decimal

def twoTo (exponent : Nat) : Nat :=
  1 <<< exponent

def tenTo (exponent : Nat) : Nat :=
  Nat.pow 10 exponent

/-- A positive number and the interval of numbers that round to it, all over `denominator`. -/
structure Interval where
  low : Nat
  value : Nat
  high : Nat
  denominator : Nat
  /-- Whether the ends belong to the interval. -/
  closed : Bool

/-- A decimal number: `digits` times ten to the power `exponent`. -/
structure Digits where
  digits : Nat
  exponent : Int
deriving DecidableEq, Repr

namespace Interval

/-- The interval of a double with the given fraction bits and biased exponent; it is closed when
the significand is even, and shorter below a power of two. -/
def ofBits (fraction biased : Nat) : Interval :=
  let significand := if biased = 0 then fraction else fraction + twoTo 52
  let exponent := (if biased = 0 then 1 else biased)
  let power := twoTo exponent
  let below := if fraction = 0 ∧ 1 < biased then 1 else 2
  { low := (4 * significand - below) * power
    value := 4 * significand * power
    high := (4 * significand + 2) * power
    denominator := twoTo 1077
    closed := significand % 2 = 0 }

/-- Whether a fraction over the common denominator lies in the interval. -/
def holds (interval : Interval) (numerator : Nat) : Bool :=
  if interval.closed then decide (interval.low ≤ numerator ∧ numerator ≤ interval.high)
  else decide (interval.low < numerator ∧ numerator < interval.high)

/-- The same interval over a denominator that is `factor` times as large. -/
def scale (interval : Interval) (factor : Nat) : Interval :=
  { interval with
    low := interval.low * factor
    value := interval.value * factor
    high := interval.high * factor }

/-- The multiple of `unit` in the interval that is nearest to the value; a tie goes to the even
one. -/
def nearestMultiple? (interval : Interval) (unit : Nat) : Option Nat :=
  let lower := interval.value / unit
  let below := interval.value - lower * unit
  let above := (lower + 1) * unit - interval.value
  match interval.holds (lower * unit), interval.holds ((lower + 1) * unit) with
  | true, true =>
    if below < above then some lower
    else if above < below then some (lower + 1)
    else if lower % 2 = 0 then some lower else some (lower + 1)
  | true, false => some lower
  | false, true => some (lower + 1)
  | false, false => none

/-- The neighbour on the grid of ten to the power `exponent`, if the interval holds one. -/
def onGrid? (interval : Interval) (exponent : Int) : Option Nat :=
  if 0 ≤ exponent then interval.nearestMultiple? (interval.denominator * tenTo exponent.toNat)
  else (interval.scale (tenTo (-exponent).toNat)).nearestMultiple? interval.denominator

/-- The coarsest of the given number of grids, from `exponent` downwards, that has a neighbour. -/
def search (interval : Interval) (exponent : Int) : Nat → Digits
  | 0 => ⟨0, 0⟩
  | count + 1 =>
    match interval.onGrid? exponent with
    | some digits => ⟨digits, exponent⟩
    | none => search interval (exponent - 1) count

end Interval

/-- The shortest decimal for a double with these fraction bits and biased exponent. -/
def shortest (fraction biased : Nat) : Digits :=
  (Interval.ofBits fraction biased).search 309 640

end Decimal
end MailVault
