import StateAttributes.Json.Reader
import StateAttributes.Json.Printer
import StateAttributes.Text.Quoted

namespace StateAttributes.Json

inductive Mismatch where
  | wrongType (found expected : String)
  | wrongLength (length : Nat) (expected : String)
  | missingField (key : String)
  | duplicateField (key : String)
  | noVariant (type : String)
  | unknownVariant (found : String) (known : List String)
deriving DecidableEq, Repr, Inhabited

inductive ReadError where
  | malformed
  | badInstant
  | mismatch (cause : Mismatch)
deriving DecidableEq, Repr, Inhabited

def Mismatch.message : Mismatch → String
  | .wrongType found expected => "invalid type: " ++ found ++ ", expected " ++ expected
  | .wrongLength length expected =>
    "invalid length " ++ toString length ++ ", expected " ++ expected
  | .missingField key => "missing field `" ++ key ++ "`"
  | .duplicateField key => "duplicate field `" ++ key ++ "`"
  | .noVariant type => "data did not match any variant of untagged enum " ++ type
  | .unknownVariant found known =>
    "unknown variant `" ++ found ++ "`, expected one of "
      ++ ", ".intercalate (known.map fun name => "`" ++ name ++ "`")

-- Faults of form have no wording of their own.
def ReadError.detail? : ReadError → Option String
  | .malformed | .badInstant => none
  | .mismatch cause => some cause.message

abbrev Read := Except ReadError

-- Containers may nest this deep where their content is read.
def maxNesting : Nat := 127

def malformed : Read α := .error .malformed

def refuse (cause : Mismatch) : Read α := .error (.mismatch cause)

def enter : Nat → Read Nat
  | 0 => malformed
  | room + 1 => .ok room

-- The report that something else stands here. A scalar is read before it is judged, so a fault in it
-- comes first.
def Value.unexpected (value : Value) (expected : String) : Read α :=
  let found (what : String) : Read α := refuse (.wrongType what expected)
  match value with
  | .broken | .text none => malformed
  | .null => found "null"
  | .bool b => found ("boolean `" ++ (if b then "true" else "false") ++ "`")
  | .number n =>
    match n.magnitude with
    | .integer i => found ("integer `" ++ toString i ++ "`")
    | .float x => found ("floating point `" ++ floatText x ++ "`")
    | .outOfRange => malformed
  | .text (some t) => found ("string " ++ Text.quoted t)
  | .list _ => found "sequence"
  | .object _ => found "map"

def Value.readString (value : Value) : Read String :=
  match value with
  | .text (some t) => .ok t
  | value => value.unexpected "a string"

def Value.readBool (value : Value) : Read Bool :=
  match value with
  | .bool b => .ok b
  | value => value.unexpected "a boolean"

def Value.readOption (read : Value → Read α) (value : Value) : Read (Option α) :=
  match value with
  | .null => .ok none
  | value => some <$> read value

def Items.readAll (read : Value → Read α) : Items → Read (List α)
  | .closed => .ok []
  | .cut => malformed
  | .item value rest => do
    let first ← read value
    return first :: (← rest.readAll read)

-- A list whose items read alike, each with the room that is left inside.
def Value.readList (read : Nat → Value → Read α) (room : Nat) (value : Value) : Read (List α) :=
  match value with
  | .list items => do items.readAll (read (← enter room))
  | value => value.unexpected "a sequence"

-- The entries of an object in order, repeated keys included.
def Fields.readAll (read : Value → Read α) : Fields → Read (List (String × α))
  | .closed => .ok []
  | .cut | .field none _ _ => malformed
  | .field (some key) value rest => do
    let first ← read value
    return (key, first) :: (← rest.readAll read)

def Value.readEntries (expected : String) (read : Nat → Value → Read α) (room : Nat) (value : Value) :
    Read (List (String × α)) :=
  match value with
  | .object fields => do fields.readAll (read (← enter room))
  | value => value.unexpected expected

-- Puts a value that is read for the first time into its place.
def once (key : String) (present : Option α) (read : Value → Read α) (put : α → δ) (value : Value) :
    Read δ :=
  match present with
  | some _ => refuse (.duplicateField key)
  | none => put <$> read value

-- Unknown keys are skipped with their values; only the form of a skipped value is checked.
def Fields.fill (fill : String → δ → Option (Value → Read δ)) : Fields → δ → Read δ
  | .closed, draft => .ok draft
  | .cut, _ | .field none _ _, _ => malformed
  | .field (some key) value rest, draft =>
    match fill key draft with
    | some read => do rest.fill fill (← read value)
    | none => if value.isWhole then rest.fill fill draft else malformed

-- The values of a list taken as the fields named by `keys`. The list may end early, but not go on.
def Items.fill (fill : String → δ → Option (Value → Read δ)) : List String → Items → δ → Read δ
  | _, .closed, draft => .ok draft
  | _, .cut, _ | [], .item _ _, _ => malformed
  | key :: keys, .item value rest, draft =>
    match fill key draft with
    | some read => do Items.fill fill keys rest (← read value)
    | none => malformed

-- A record type: its name, its fields in order, and the empty draft that is filled. A record stands as an object
-- with its fields in any order or as the list of their values; both fill the same draft.
structure RecordForm (δ : Type) where
  type : String
  keys : List String
  empty : δ
  fill : String → δ → Option (Value → Read δ)

-- How a record was written. A field that is missing from an object is missed by name, one that is
-- missing from a list by position.
inductive Origin where
  | object
  | list (type : String) (keys : List String)
deriving DecidableEq, Repr

def Origin.miss (origin : Origin) (key : String) : Read α :=
  match origin with
  | .object => refuse (.missingField key)
  | .list type keys =>
    refuse (.wrongLength (keys.idxOf key)
      ("struct " ++ type ++ " with " ++ toString keys.length
        ++ (if keys.length = 1 then " element" else " elements")))

def Origin.require (origin : Origin) (key : String) : Option α → Read α
  | some value => .ok value
  | none => origin.miss key

-- A field that may be left out of an object, but not off the end of a list.
def Origin.optional (origin : Origin) (key : String) : Option (Option α) → Read (Option α)
  | some value => .ok value
  | none =>
    match origin with
    | .object => .ok none
    | .list _ _ => origin.miss key

def RecordForm.read (form : Nat → RecordForm δ) (room : Nat) (value : Value) : Read (δ × Origin) :=
  match value with
  | .object fields => do
    let form := form (← enter room)
    return (← fields.fill form.fill form.empty, .object)
  | .list items => do
    let form := form (← enter room)
    return (← items.fill form.fill form.keys form.empty, .list form.type form.keys)
  | value => value.unexpected ("struct " ++ (form room).type)

def Read.ofText (read : Nat → Value → Read α) (text : String) : Read α := do
  let document := Document.read text
  let result ← read maxNesting document.value
  if document.ends then return result else malformed

end StateAttributes.Json
