import MailVault.Decimal.Layout
import MailVault.Json.Value
import MailVault.Text.Quoted

/-!
# Why a value does not have the wanted shape

A value is read field by field, and reading stops at the first value that does
not fit.  The causes are kept apart from their wording: `Mismatch` says what was
found and what was wanted, and `Mismatch.message` is the only place where a
sentence is made of it.
-/

namespace MailVault
namespace Json

/-- What can be wanted of a value. -/
inductive Wanted where
  | text
  | path
  | signed
  | unsigned
  | boolean
  | sequence
  | address
  /-- A record of the given name. -/
  | record (name : String)
deriving DecidableEq

/-- A value does not fit. -/
inductive Mismatch where
  /-- The value is of another kind. -/
  | kind (found : Value) (wanted : Wanted)
  /-- The value is of the right kind and out of range. -/
  | range (found : Int) (wanted : Wanted)
  /-- A field without a default is missing. -/
  | missing (field : String)
  /-- A row ends before all fields of a record are filled. -/
  | tooShort (length : Nat) (record : String) (fields : Nat)
  /-- A row goes on after the last field of a record. -/
  | tooLong (length : Nat)
  /-- A text that is not a digest. -/
  | digest (text : String)
  /-- A text that is not an internet address. -/
  | address

namespace Wanted

/-- How the wanted shape is called. -/
def name : Wanted → String
  | text => "a string"
  | path => "path string"
  | signed => "i64"
  | unsigned => "u64"
  | boolean => "a boolean"
  | sequence => "a sequence"
  | address => "IP address"
  | record name => "struct " ++ name

end Wanted

namespace Value

/-- How a found value is called: scalars are shown, the others are named by their kind. -/
def describe : Value → String
  | null => "null"
  | bool true => "boolean `true`"
  | bool false => "boolean `false`"
  | int value => "integer `" ++ toString value ++ "`"
  | float value => "floating point `" ++ Decimal.floatText value ++ "`"
  | text value => "string " ++ Text.quote value
  | array _ => "sequence"
  | object _ => "map"

end Value

namespace Mismatch

def message : Mismatch → String
  | kind found wanted =>
    "invalid type: " ++ found.describe ++ ", expected " ++ wanted.name
  | range found wanted =>
    "invalid value: " ++ (Value.int found).describe ++ ", expected " ++ wanted.name
  | missing field => "missing field `" ++ field ++ "`"
  | tooShort length record fields =>
    "invalid length " ++ toString length ++ ", expected struct " ++ record ++ " with " ++
      toString fields ++ " elements"
  | tooLong length =>
    "invalid length " ++ toString length ++ ", expected fewer elements in array"
  | digest text => "invalid chunk hash: " ++ text
  | address => "invalid IP address syntax"

end Mismatch
end Json
end MailVault
