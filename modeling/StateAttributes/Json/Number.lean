import StateAttributes.Decimal.Shortest

namespace StateAttributes.Json

-- The parts of a written number. An absent fraction has no digits.
structure Number where
  negative : Bool
  whole : List Nat
  fraction : List Nat
  exponent : Option (Bool × List Nat)
deriving DecidableEq, Repr, Inhabited

inductive Magnitude where
  | integer (value : Int)
  | float (value : Float)
  | outOfRange

def decimalValue (digits : List Nat) : Nat := digits.foldl (fun n digit => 10 * n + digit) 0

-- The digits that are used and the power of ten they are to be scaled by.
structure Scaled where
  significand : Nat
  exponent : Int

-- The significand holds the leading digits that fit into 64 bits. A digit of the whole part that no
-- longer fits, and every one after it, only raises the exponent; such a digit of the fraction ends
-- the reading.
def Scaled.addWhole : Scaled → List Nat → Scaled
  | scaled, [] => scaled
  | scaled, digit :: rest =>
    let next := 10 * scaled.significand + digit
    if next < Nat.pow 2 64 then addWhole { scaled with significand := next } rest
    else { scaled with exponent := (digit :: rest).length }

def Scaled.addFraction : Scaled → List Nat → Scaled
  | scaled, [] => scaled
  | scaled, digit :: rest =>
    let next := 10 * scaled.significand + digit
    if next < Nat.pow 2 64 then addFraction ⟨next, scaled.exponent - 1⟩ rest
    else scaled

-- Scales by a power of ten with one rounding for each step of at most 308; too large is no number.
def scale (fuel : Nat) (value : Float) (exponent : Int) : Option Float :=
  match fuel with
  | 0 => some value
  | fuel + 1 =>
    if exponent.natAbs ≤ 308 then
      let power := Float.ofScientific 1 false exponent.natAbs
      if 0 ≤ exponent then
        let scaled := value * power
        if scaled.isInf then none else some scaled
      else some (value / power)
    else if value == 0 then some value
    else if 0 ≤ exponent then none
    else scale fuel (value / Float.ofScientific 1 false 308) (exponent + 308)

-- Four steps bring every significand below the smallest double.
def Scaled.toFloat? (scaled : Scaled) : Option Float :=
  scale 5 (UInt64.ofNat scaled.significand).toFloat scaled.exponent

namespace Number

def signed (number : Number) (value : Float) : Float := if number.negative then -value else value

def asFloat (number : Number) : Magnitude :=
  let scaled := (Scaled.addWhole ⟨0, 0⟩ number.whole).addFraction number.fraction
  let finish (scaled : Scaled) : Magnitude :=
    match scaled.toFloat? with
    | some value => .float (number.signed value)
    | none => .outOfRange
  match number.exponent with
  | none => finish scaled
  | some (down, digits) =>
    let shift := decimalValue digits
    if Nat.pow 2 31 ≤ shift then
      if scaled.significand ≠ 0 && !down then .outOfRange else .float (number.signed 0)
    else
      finish { scaled with exponent := if down then scaled.exponent - shift else scaled.exponent + shift }

-- A number without fraction and exponent is an integer while it fits into 64 bits, with or without
-- a sign. Negative zero is not an integer.
def magnitude (number : Number) : Magnitude :=
  if number.fraction.isEmpty && number.exponent.isNone then
    let n := decimalValue number.whole
    if number.negative then
      if 0 < n && n ≤ Nat.pow 2 63 then .integer (-(n : Int)) else number.asFloat
    else if n < Nat.pow 2 64 then .integer n
    else number.asFloat
  else number.asFloat

end Number

-- Doubles are shown with the fewest digits that read back: positional from `1e-5` up to `1e16`,
-- with one zero after the point of a whole number, and with a signed exponent outside that range.
def floatText (value : Float) : String :=
  let sign := if value.toBits.toNat / Nat.pow 2 63 = 1 then "-" else ""
  let binary := Decimal.Binary.ofFloat value
  if binary.mantissa = 0 then sign ++ "0.0"
  else
    let shortest := binary.shortest
    let all := Nat.toDigits 10 shortest.digits
    let digits := (all.reverse.dropWhile (· = '0')).reverse
    let point : Int := all.length + shortest.exponent
    let zeros (n : Nat) : List Char := List.replicate n '0'
    let shown : List Char :=
      if -5 < point && point ≤ 16 then
        if point ≤ 0 then '0' :: '.' :: zeros (-point).toNat ++ digits
        else
          let whole := digits.take point.toNat
          let fraction := digits.drop point.toNat
          whole ++ zeros (point.toNat - digits.length) ++ '.' ::
            if fraction.isEmpty then ['0'] else fraction
      else
        let fraction := digits.drop 1
        digits.take 1 ++ (if fraction.isEmpty then [] else '.' :: fraction)
          ++ 'e' :: (if 0 < point then ['+'] else []) ++ (toString (point - 1)).toList
    sign ++ String.ofList shown

end StateAttributes.Json
