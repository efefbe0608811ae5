namespace StateAttributes.Decimal

structure GridPoint where
  digits : Nat
  exponent : Int
deriving DecidableEq, Repr

-- A positive double `mantissa * 2 ^ exponent`; `atPower` marks a power of two above the smallest
-- exponent, where the gap below is half the gap above.
structure Binary where
  mantissa : Nat
  exponent : Int
  atPower : Bool
deriving DecidableEq, Repr

def Binary.ofFloat (x : Float) : Binary :=
  let bits := x.toBits.toNat
  let fraction : Nat := bits % Nat.pow 2 52
  let biased : Nat := bits / Nat.pow 2 52 % Nat.pow 2 11
  if biased = 0 then ⟨fraction, -1074, false⟩
  else ⟨fraction + Nat.pow 2 52, (biased : Int) - 1075, fraction = 0 && biased ≠ 1⟩

-- All comparisons are between naturals: both sides are brought to one denominator.
def power (base : Nat) (exponent : Int) : Nat := base.pow exponent.toNat

-- `a * 2 ^ (q - 2)` against `b * 10 ^ e`.
def compareScaled (a : Nat) (q : Int) (b : Nat) (e : Int) : Ordering :=
  compare (a * power 2 (q - 2) * power 10 (-e)) (b * power 10 e * power 2 (2 - q))

-- The reals that round to a double form an interval, whose ends belong to it when the mantissa is even.
def Binary.reads (x : Binary) (d : GridPoint) : Bool :=
  let low := compareScaled (4 * x.mantissa - if x.atPower then 1 else 2) x.exponent d.digits d.exponent
  let high := compareScaled (4 * x.mantissa + 2) x.exponent d.digits d.exponent
  if x.mantissa % 2 = 0 then low ≠ .gt && high ≠ .lt else low = .lt && high = .gt

-- The grid point at or below the double for the given exponent.
def Binary.floorAt (x : Binary) (e : Int) : Nat :=
  4 * x.mantissa * power 2 (x.exponent - 2) * power 10 (-e) /
    (power 10 e * power 2 (2 - x.exponent))

def Binary.leading (x : Binary) : Int :=
  let top := x.mantissa * power 2 x.exponent
  let bottom := power 2 (-x.exponent)
  let guess : Int := ((Nat.toDigits 10 top).length : Int) - (Nat.toDigits 10 bottom).length
  if bottom * power 10 guess ≤ top * power 10 (-guess) then guess else guess - 1

-- The nearer of the two grid points that read back, if any does; an exact tie goes to the even one.
def Binary.onGrid (x : Binary) (e : Int) : Option GridPoint :=
  let k := x.floorAt e
  let below : GridPoint := ⟨k, e⟩
  let above : GridPoint := ⟨k + 1, e⟩
  match x.reads below, x.reads above with
  | false, false => none
  | true, false => some below
  | false, true => some above
  | true, true =>
    match compareScaled (8 * x.mantissa) x.exponent (2 * k + 1) e with
    | .lt => some below
    | .gt => some above
    | .eq => some (if k % 2 = 0 then below else above)

def Binary.shortest (x : Binary) : GridPoint :=
  let first := x.leading
  let found := (List.range 17).findSome? fun (n : Nat) => x.onGrid (first - n)
  found.getD ⟨x.floorAt (first - 16), first - 16⟩

end StateAttributes.Decimal
