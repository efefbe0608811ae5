import StateAttributes.Instant

namespace StateAttributes.Text

-- White space.
def blankRanges : List (Nat × Nat) :=
  [(0x9, 0xd), (0x20, 0x20), (0x85, 0x85), (0xa0, 0xa0), (0x1680, 0x1680), (0x2000, 0x200a),
   (0x2028, 0x2029), (0x202f, 0x202f), (0x205f, 0x205f), (0x3000, 0x3000)]

def isBlank (c : Char) : Bool :=
  blankRanges.any fun (low, high) => low ≤ c.toNat && c.toNat ≤ high

def trimStart (text : List Char) : List Char := text.dropWhile isBlank

end StateAttributes.Text

namespace StateAttributes.Instant

-- The last `width` digits of a number, padded with zeros.
def padded : Nat → Nat → List Char
  | 0, _ => []
  | width + 1, n => padded width (n / 10) ++ [Nat.digitChar (n % 10)]

-- Beyond four digits a year carries its sign, and a sign fills the first of five places.
def yearText (year : Int) : List Char :=
  if 0 ≤ year ∧ year ≤ 9999 then padded 4 year.toNat
  else
    let digits := Nat.toDigits 10 year.natAbs
    (if year < 0 then '-' else '+') :: List.replicate (4 - digits.length) '0' ++ digits

def fractionText (nano : Nat) : List Char :=
  if nano = 0 then []
  else if nano % 1000000 = 0 then '.' :: padded 3 (nano / 1000000)
  else if nano % 1000 = 0 then '.' :: padded 6 (nano / 1000)
  else '.' :: padded 9 nano

def write (instant : Instant) : List Char :=
  let second := if instant.isLeapSecond then 60 else instant.second
  yearText instant.year ++ '-' :: padded 2 instant.month ++ '-' :: padded 2 instant.day
    ++ 'T' :: padded 2 instant.hour ++ ':' :: padded 2 instant.minute ++ ':' :: padded 2 second
    ++ fractionText (instant.nano % 1000000000) ++ ['Z']

def render (instant : Instant) : String := String.ofList instant.write

def digitsValue (digits : List Char) : Nat :=
  digits.foldl (fun n digit => 10 * n + (digit.toNat - '0'.toNat)) 0

-- Each reader takes what it needs from the front of the text and answers the rest.
def takeNumber? (width : Nat) (text : List Char) : Option (Nat × List Char) :=
  let digits := (text.take width).takeWhile Char.isDigit
  if digits.isEmpty then none else some (digitsValue digits, text.drop digits.length)

def takeField? (text : List Char) : Option (Nat × List Char) := takeNumber? 2 (Text.trimStart text)

-- A sign lifts the limit of four digits.
def takeYear? (text : List Char) : Option (Int × List Char) :=
  match Text.trimStart text with
  | '-' :: rest => (takeNumber? rest.length rest).map fun (n, rest) => (-(n : Int), rest)
  | '+' :: rest => (takeNumber? rest.length rest).map fun (n, rest) => ((n : Int), rest)
  | text => (takeNumber? 4 text).map fun (n, rest) => ((n : Int), rest)

def takeLiteral? (literal : Char) (text : List Char) : Option (List Char) :=
  match Text.trimStart text with
  | c :: rest => if c = literal then some rest else none
  | [] => none

-- A fraction in nanoseconds; digits after the ninth are passed over.
def takeFraction? (text : List Char) : Option (Nat × List Char) :=
  match text with
  | '.' :: rest =>
    let digits := rest.takeWhile Char.isDigit
    let used := digits.take 9
    if used.isEmpty then none
    else some (digitsValue used * Nat.pow 10 (9 - used.length), rest.drop digits.length)
  | _ => some (0, text)

def takePair? (text : List Char) : Option (Nat × List Char) :=
  match text with
  | a :: b :: rest => if a.isDigit && b.isDigit then some (digitsValue [a, b], rest) else none
  | _ => none

-- The offset in minutes: `Z`, `UTC`, or a sign, hours and minutes.
def takeOffset? (text : List Char) : Option (Int × List Char) :=
  let utc := (text.take 3).map Char.toLower = ['u', 't', 'c']
  if utc then some (0, text.drop 3)
  else
    match text with
    | 'Z' :: rest | 'z' :: rest => some (0, rest)
    | sign :: rest => do
      guard (sign = '+' || sign = '-' || sign = '−')
      let (hours, rest) ← takePair? rest
      let (minutes, rest) ← takePair? (rest.dropWhile fun c => c = ':' || Text.isBlank c)
      guard (minutes < 60 && hours < 24)
      let offset : Int := 60 * hours + minutes
      return (if sign = '+' then offset else -offset, rest)
    | [] => none

-- Between date and time stands a letter or one space.
def takeSeparator? : List Char → Option (List Char)
  | 'T' :: rest | 't' :: rest | ' ' :: rest => some rest
  | _ => none

-- Second sixty is the leap second of the minute.
def ofFields? (year : Int) (month day hour minute second nano : Nat) : Option Instant :=
  if second = 60 then of? year month day hour minute 59 (nano + 1000000000)
  else if nano < 1000000000 then of? year month day hour minute second nano
  else none

def read? (text : List Char) : Option Instant := do
  let (year, text) ← takeYear? text
  let text ← takeLiteral? '-' text
  let (month, text) ← takeField? text
  let text ← takeLiteral? '-' text
  let (day, text) ← takeField? text
  let text ← takeSeparator? text
  let (hour, text) ← takeField? text
  let text ← takeLiteral? ':' text
  let (minute, text) ← takeField? text
  let text ← takeLiteral? ':' text
  let (second, text) ← takeField? text
  let (nano, text) ← takeFraction? text
  let (offset, text) ← takeOffset? (Text.trimStart text)
  guard (Text.trimStart text).isEmpty
  (← ofFields? year month day hour minute second nano).earlier? offset

def parse? (text : String) : Option Instant := read? text.toList

end StateAttributes.Instant
