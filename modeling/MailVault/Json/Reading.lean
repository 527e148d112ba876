import MailVault.Chunk.Manifest
import MailVault.Json.Mismatch
import MailVault.Net.IpAddress

/-!
# Reading typed values

A reader turns a value into what it stands for, or says why it cannot.  Fields
of an object are read by name and may be missing; items of a row are read by
position and may not.  In which order the fields are read decides which of
several faults is reported, and is therefore left to each record.
-/

namespace MailVault
namespace Json

/-- A way to understand a value. -/
abbrev Reader (α : Type) := Value → Except Mismatch α

namespace Read

def text : Reader String
  | .text value => .ok value
  | other => .error (.kind other .text)

def boolean : Reader Bool
  | .bool value => .ok value
  | other => .error (.kind other .boolean)

def natural : Reader Nat
  | .int value => if value < 0 then .error (.range value .unsigned) else .ok value.toNat
  | other => .error (.kind other .unsigned)

/-- The first integer that does not fit into sixty-four bits with a sign. -/
def signedLimit : Int := 9223372036854775808

/-- An integer of at most sixty-four bits with its sign. -/
def signed : Reader Int
  | .int value =>
    if -signedLimit ≤ value ∧ value < signedLimit then .ok value
    else .error (.range value .signed)
  | other => .error (.kind other .signed)

def path : Reader String
  | .text value => .ok value
  | other => .error (.kind other .path)

def digest : Reader Digest := fun value => do
  let written ← text value
  match Digest.ofHex? written with
  | some digest => .ok digest
  | none => .error (.digest written)

def address : Reader Net.IpAddress
  | .text value =>
    match Net.IpAddress.read? value with
    | some address => .ok address
    | none => .error .address
  | other => .error (.kind other .address)

/-- What `reader` understands, or null for nothing. -/
def nullable {α : Type} (reader : Reader α) : Reader (Option α)
  | .null => .ok none
  | other => (reader other).map some

/-- A row of values of one shape. -/
def sequence {α : Type} (reader : Reader α) : Reader (List α)
  | .array items => items.mapM reader
  | other => .error (.kind other .sequence)

end Read

/-- The field of that name as `reader` understands it, or nothing if it is missing. -/
def Fields.get? {α : Type} (fields : Fields) (name : String) (reader : Reader α) :
    Except Mismatch (Option α) :=
  match fields.lookup name with
  | none => .ok none
  | some value => (reader value).map some

/-- What was read for a field that may not be missing. -/
def required {α : Type} (name : String) (found : Option α) : Except Mismatch α :=
  match found with
  | some value => .ok value
  | none => .error (.missing name)

/-- The shape of a record that is written as a row. -/
structure Row where
  record : String
  fields : Nat

/-- The item at a position of a row. -/
def Row.item {α : Type} (row : Row) (items : List Value) (position : Nat) (reader : Reader α) :
    Except Mismatch α :=
  match items[position]? with
  | some value => reader value
  | none => .error (.tooShort position row.record row.fields)

/-- Refuse items after the last field. -/
def Row.finish (row : Row) (items : List Value) : Except Mismatch Unit :=
  if row.fields < items.length then .error (.tooLong items.length) else .ok ()

end Json
end MailVault
