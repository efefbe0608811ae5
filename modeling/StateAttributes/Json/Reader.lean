import StateAttributes.Json.Value

namespace StateAttributes.Json

def isBlank (c : Char) : Bool := c = ' ' || c = '\n' || c = '\t' || c = '\r'

def skipBlank (text : List Char) : List Char := text.dropWhile isBlank

def hexValue? (c : Char) : Option Nat :=
  if '0' ≤ c ∧ c ≤ '9' then some (c.toNat - '0'.toNat)
  else if 'a' ≤ c ∧ c ≤ 'f' then some (c.toNat - 'a'.toNat + 10)
  else if 'A' ≤ c ∧ c ≤ 'F' then some (c.toNat - 'A'.toNat + 10)
  else none

def unit? (a b c d : Char) : Option Nat := do
  return 4096 * (← hexValue? a) + 256 * (← hexValue? b) + 16 * (← hexValue? c) + (← hexValue? d)

def unescape? : Char → Option Char
  | '"' => some '"'
  | '\\' => some '\\'
  | '/' => some '/'
  | 'b' => some '\x08'
  | 'f' => some '\x0c'
  | 'n' => some '\n'
  | 'r' => some '\r'
  | 't' => some '\t'
  | _ => none

-- One element of a text: a character, or half of a pair.
inductive Piece where
  | char (c : Char)
  | half (unit : Nat)
deriving DecidableEq, Repr

-- The elements up to the closing quote and what follows it; nothing where the form is broken.
def readPieces : List Char → Option (List Piece × List Char)
  | [] => none
  | '"' :: rest => some ([], rest)
  | '\\' :: 'u' :: a :: b :: c :: d :: rest => do
    let unit ← unit? a b c d
    let (pieces, rest) ← readPieces rest
    let piece := if 0xD800 ≤ unit ∧ unit < 0xE000 then .half unit else .char (Char.ofNat unit)
    return (piece :: pieces, rest)
  | '\\' :: c :: rest => do
    let c ← unescape? c
    let (pieces, rest) ← readPieces rest
    return (.char c :: pieces, rest)
  | c :: rest =>
    if c.toNat < 0x20 then none
    else do
      let (pieces, rest) ← readPieces rest
      return (.char c :: pieces, rest)

-- A leading half and a trailing half make one character; a half alone makes none.
def joinHalves? : List Piece → Option (List Char)
  | [] => some []
  | .char c :: rest => (joinHalves? rest).map (c :: ·)
  | .half high :: .half low :: rest =>
    if high < 0xDC00 ∧ 0xDC00 ≤ low then
      (joinHalves? rest).map (Char.ofNat (0x10000 + 0x400 * (high - 0xD800) + (low - 0xDC00)) :: ·)
    else none
  | .half _ :: _ => none

def readText (text : List Char) : Option (Option String × List Char) :=
  (readPieces text).map fun (pieces, rest) => ((joinHalves? pieces).map String.ofList, rest)

def readDigits (text : List Char) : List Nat × List Char :=
  ((text.takeWhile Char.isDigit).map fun c => c.toNat - '0'.toNat, text.dropWhile Char.isDigit)

def readExponent? (text : List Char) : Option ((Bool × List Nat) × List Char) :=
  let (down, text) :=
    match text with
    | '+' :: rest => (false, rest)
    | '-' :: rest => (true, rest)
    | _ => (false, text)
  match readDigits text with
  | ([], _) => none
  | (digits, rest) => some ((down, digits), rest)

-- A number from its first character on. A leading zero stands alone, and a point is followed by a digit.
def readNumber? (text : List Char) : Option (Number × List Char) := do
  let (negative, text) :=
    match text with
    | '-' :: rest => (true, rest)
    | _ => (false, text)
  let (whole, text) := readDigits text
  guard (!whole.isEmpty && (whole.head? ≠ some 0 || whole.length = 1))
  let (fraction, text) ←
    match text with
    | '.' :: rest =>
      match readDigits rest with
      | ([], _) => none
      | found => some found
    | _ => some ([], text)
  match text with
  | 'e' :: rest | 'E' :: rest =>
    let (exponent, text) ← readExponent? rest
    return (⟨negative, whole, fraction, some exponent⟩, text)
  | _ => return (⟨negative, whole, fraction, none⟩, text)

-- Fuel bounds the nesting of calls. Of two calls inside each other the outer one has taken a bracket,
-- a comma or a colon, so twice the length of the text is enough.
mutual
def readValue : Nat → List Char → Value × List Char
  | 0, _ => (.broken, [])
  | fuel + 1, text =>
    match skipBlank text with
    | 'n' :: 'u' :: 'l' :: 'l' :: rest => (.null, rest)
    | 't' :: 'r' :: 'u' :: 'e' :: rest => (.bool true, rest)
    | 'f' :: 'a' :: 'l' :: 's' :: 'e' :: rest => (.bool false, rest)
    | '"' :: rest =>
      match readText rest with
      | some (value, rest) => (.text value, rest)
      | none => (.broken, [])
    | '[' :: rest =>
      match skipBlank rest with
      | ']' :: rest => (.list .closed, rest)
      | rest =>
        let (items, rest) := readItems fuel rest
        (.list items, rest)
    | '{' :: rest =>
      match skipBlank rest with
      | '}' :: rest => (.object .closed, rest)
      | rest =>
        let (fields, rest) := readFields fuel rest
        (.object fields, rest)
    | text =>
      match readNumber? text with
      | some (number, rest) => (.number number, rest)
      | none => (.broken, [])
def readItems : Nat → List Char → Items × List Char
  | 0, _ => (.cut, [])
  | fuel + 1, text =>
    let (value, rest) := readValue fuel text
    match skipBlank rest with
    | ',' :: rest =>
      let (items, rest) := readItems fuel rest
      (.item value items, rest)
    | ']' :: rest => (.item value .closed, rest)
    | _ => (.item value .cut, [])
def readFields : Nat → List Char → Fields × List Char
  | 0, _ => (.cut, [])
  | fuel + 1, text =>
    match skipBlank text with
    | '"' :: rest =>
      match readText rest with
      | none => (.cut, [])
      | some (key, rest) =>
        match skipBlank rest with
        | ':' :: rest =>
          let (value, rest) := readValue fuel rest
          match skipBlank rest with
          | ',' :: rest =>
            let (fields, rest) := readFields fuel rest
            (.field key value fields, rest)
          | '}' :: rest => (.field key value .closed, rest)
          | _ => (.field key value .cut, [])
        | _ => (.field key .broken .cut, [])
    | _ => (.cut, [])
end

-- A text as one value, and whether nothing but blanks follows it.
structure Document where
  value : Value
  ends : Bool

def Document.read (text : String) : Document :=
  let chars := text.toList
  let (value, rest) := readValue (2 * chars.length + 2) chars
  ⟨value, (skipBlank rest).isEmpty⟩

end StateAttributes.Json
