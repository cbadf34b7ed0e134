namespace TypedMvc

inductive Binary64 where
  | nan
  | infinite (negative : Bool)
  | finite (negative : Bool) (significand : Nat) (exponent : Int)
  deriving DecidableEq, Repr, Inhabited

namespace Binary64

def leastExponent : Int := -1074

def greatestExponent : Int := 971

def zero : Binary64 := .finite false 0 leastExponent

def twoTo (exponent : Nat) : Nat := Nat.pow 2 exponent

def tenTo (exponent : Nat) : Nat := Nat.pow 10 exponent

theorem tenTo_pos (exponent : Nat) : 0 < tenTo exponent := Nat.pow_pos (by decide)

def roundDiv (numerator denominator : Nat) : Nat :=
  let quotient := numerator / denominator
  let twice := 2 * (numerator % denominator)
  if denominator < twice ∨ (twice = denominator ∧ quotient % 2 = 1) then quotient + 1 else quotient

def inUnits (numerator denominator : Nat) (exponent : Int) : Nat × Nat :=
  if exponent < 0 then (numerator * twoTo exponent.natAbs,denominator)
  else (numerator,denominator * twoTo exponent.natAbs)

def unitOf (numerator denominator : Nat) : Int :=
  let guess : Int := (numerator.log2 : Int) - denominator.log2 - 53
  let scaled := inUnits numerator denominator guess
  max (if scaled.1 / scaled.2 < twoTo 53 then guess else guess + 1) leastExponent

def ofRatio (negative : Bool) (numerator denominator : Nat) : Binary64 :=
  if numerator = 0 then .finite negative 0 leastExponent
  else
    let unit := unitOf numerator denominator
    let scaled := inUnits numerator denominator unit
    let rounded := roundDiv scaled.1 scaled.2
    let carried := if rounded = twoTo 53 then (twoTo 52,unit + 1) else (rounded,unit)
    if greatestExponent < carried.2 then .infinite negative
    else .finite negative carried.1 carried.2

-- Rounds `digits` times ten to the `exponent`. Far outside the range of doubles the answer is known
-- from the size alone, so no huge power is computed.
def ofDecimal (negative : Bool) (digits : Nat) (exponent : Int) : Binary64 :=
  if digits = 0 then .finite negative 0 leastExponent
  else if 310 < (digits.log2 * 30102 / 100000 : Nat) + exponent then .infinite negative
  else if ((digits.log2 + 1) * 30104 / 100000 + 1 : Nat) + exponent < -330 then
    .finite negative 0 leastExponent
  else if exponent < 0 then ofRatio negative digits (tenTo exponent.natAbs)
  else ofRatio negative (digits * tenTo exponent.natAbs) 1

def ofInt (i : Int) : Binary64 := ofRatio (i < 0) i.natAbs 1

def isZero : Binary64 → Bool
  | .finite _ significand _ => significand == 0
  | _ => false

def negate : Binary64 → Binary64
  | .nan => .nan
  | .infinite negative => .infinite !negative
  | .finite negative significand exponent => .finite (!negative) significand exponent

def ratio? : Binary64 → Option (Int × Nat)
  | .finite negative significand exponent =>
    let size : Nat := if exponent < 0 then significand else significand * twoTo exponent.natAbs
    let denominator : Nat := if exponent < 0 then twoTo exponent.natAbs else 1
    some (if negative then -(size : Int) else size,denominator)
  | _ => none

def truncate? (x : Binary64) : Option Int :=
  x.ratio?.map fun r => r.1.tdiv r.2

private def ofSigned (numerator : Int) (denominator : Nat) : Binary64 :=
  ofRatio (numerator < 0) numerator.natAbs denominator

def add (x y : Binary64) : Binary64 :=
  match x,y with
  | .nan,_ => .nan
  | _,.nan => .nan
  | .infinite a,.infinite b => if a = b then .infinite a else .nan
  | .infinite a,_ => .infinite a
  | _,.infinite b => .infinite b
  | .finite a m e,.finite b n f =>
    match ratio? (.finite a m e),ratio? (.finite b n f) with
    | some p,some q => ofSigned (p.1 * q.2 + q.1 * p.2) (p.2 * q.2)
    | _,_ => .nan

def scale (x : Binary64) (factor : Nat) : Binary64 :=
  match x,ofInt factor with
  | .nan,_ => .nan
  | .infinite a,y => if y.isZero then .nan else .infinite a
  | .finite a m e,.finite b n f =>
    match ratio? (.finite a m e),ratio? (.finite b n f) with
    | some p,some q => ofRatio (xor a b) (p.1.natAbs * q.1.natAbs) (p.2 * q.2)
    | _,_ => .nan
  | .finite a m _,_ => if m = 0 then .nan else .infinite a

private def quarter (exponent : Int) : Nat × Nat :=
  if exponent < 2 then (1,twoTo (2 - exponent).natAbs) else (twoTo (exponent - 2).natAbs,1)

private def tenPowerLe (power : Int) (significand : Nat) (exponent : Int) : Bool :=
  let left := if power < 0 then 1 else tenTo power.natAbs
  let right := if power < 0 then tenTo power.natAbs else 1
  if exponent < 0 then left * twoTo exponent.natAbs ≤ significand * right
  else left ≤ significand * twoTo exponent.natAbs * right

def decimalPosition (significand : Nat) (exponent : Int) : Int :=
  let guess : Int := ((significand.log2 : Int) + exponent) * 30103 / 100000
  if tenPowerLe (guess + 1) significand exponent then guess + 1
  else if tenPowerLe guess significand exponent then guess
  else guess - 1

private def onGrid? (significand : Nat) (exponent : Int) (power : Int) : Option Nat :=
  let unit := quarter exponent
  let up := if power < 0 then tenTo power.natAbs else 1
  let down := if power < 0 then 1 else tenTo power.natAbs
  let value := 4 * significand * unit.1 * up
  let high := (4 * significand + 2) * unit.1 * up
  let low :=
    (if significand = twoTo 52 ∧ leastExponent < exponent then 4 * significand - 1
      else 4 * significand - 2) * unit.1 * up
  let grid := unit.2 * down
  let inside (d : Nat) : Bool :=
    if significand % 2 = 0 then low ≤ d * grid && d * grid ≤ high
    else low < d * grid && d * grid < high
  let below := value / grid
  let above := below + 1
  match inside below,inside above with
  | true,true =>
    let first := value - below * grid
    let second := above * grid - value
    if first < second ∨ (first = second ∧ below % 2 = 0) then some below else some above
  | true,false => some below
  | false,true => some above
  | false,false => none

-- The shortest decimal that reads back as a positive finite number: its digits and the power of ten
-- of the last one. The grids are tried from the one above the first digit on, since a number just below a
-- power of ten may have that power as its shortest decimal.
def shortest (significand : Nat) (exponent : Int) : Nat × Int :=
  let position := decimalPosition significand exponent
  let found := (List.range 18).findSome? fun (count : Nat) =>
    let power := position + 1 - count
    (onGrid? significand exponent power).map fun digits => (digits,power)
  found.getD (significand,exponent)

end Binary64
end TypedMvc
