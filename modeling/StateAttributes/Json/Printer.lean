import StateAttributes.Json.Value

namespace StateAttributes.Json

def hexDigit (n : Nat) : Char := (Nat.toDigits 16 n).headD '0'

def escape (c : Char) : List Char :=
  match c with
  | '"' => ['\\', '"']
  | '\\' => ['\\', '\\']
  | '\x08' => ['\\', 'b']
  | '\x0c' => ['\\', 'f']
  | '\n' => ['\\', 'n']
  | '\r' => ['\\', 'r']
  | '\t' => ['\\', 't']
  | c =>
    if c.toNat < 0x20 then ['\\', 'u', '0', '0', hexDigit (c.toNat / 16), hexDigit (c.toNat % 16)]
    else [c]

def writeText (text : String) : List Char :=
  '"' :: text.toList.flatMap escape ++ ['"']

def writeDigits (digits : List Nat) : List Char := digits.map fun digit => (Nat.digitChar digit)

def Number.write (number : Number) : List Char :=
  (if number.negative then ['-'] else []) ++ writeDigits number.whole
    ++ (if number.fraction.isEmpty then [] else '.' :: writeDigits number.fraction)
    ++ match number.exponent with
      | none => []
      | some (down, digits) => 'e' :: (if down then ['-'] else []) ++ writeDigits digits

-- A comma stands before every item but the first, so the writer of a rest starts with it. A fault
-- has no written form.
mutual
def Value.write : Value → List Char
  | .broken | .text none => []
  | .null => ['n', 'u', 'l', 'l']
  | .bool true => ['t', 'r', 'u', 'e']
  | .bool false => ['f', 'a', 'l', 's', 'e']
  | .number n => n.write
  | .text (some value) => writeText value
  | .list items => '[' :: items.write ++ [']']
  | .object fields => '{' :: fields.write ++ ['}']
def Items.write : Items → List Char
  | .closed | .cut => []
  | .item value .closed => value.write
  | .item value rest => value.write ++ ',' :: rest.write
def Fields.write : Fields → List Char
  | .closed | .cut => []
  | .field key value .closed => writeText (key.getD "") ++ ':' :: value.write
  | .field key value rest => writeText (key.getD "") ++ ':' :: value.write ++ ',' :: rest.write
end

def Value.render (value : Value) : String := String.ofList value.write

end StateAttributes.Json
