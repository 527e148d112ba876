/-!
# Parts of a message

An analyser that sees the message go by publishes its parts.  A part begins at an
offset of the message stream; its body begins at another one, which stays zero
until the end of the header block has been seen.
-/

namespace MailVault
namespace Mime

structure Part where
  /-- The place of the part in the tree of parts, such as `1.2`. -/
  node : String := ""
  /-- Where the part begins. -/
  start : Nat := 0
  /-- Where the body of the part begins, and zero while that is not known. -/
  bodyStart : Nat := 0
  /-- The header fields with their values in order; the names differ. -/
  headers : List (String × List String) := []
deriving DecidableEq

namespace Part

/-- Add values to the field of exactly this name, which is created if it is missing. -/
def addHeader (part : Part) (name : String) (values : List String) : Part :=
  if part.headers.any fun field => decide (field.1 = name) then
    { part with
      headers := part.headers.map fun field =>
        if field.1 = name then (name, field.2 ++ values) else field }
  else { part with headers := part.headers ++ [(name, values)] }

/-- Whether two field names are the same, the case of ASCII letters aside. -/
def sameName (left right : String) : Bool :=
  left.toList.map Char.toLower == right.toList.map Char.toLower

/-- The first value of the first field of that name. -/
def header? (part : Part) (name : String) : Option String := do
  let field ← part.headers.find? fun field => sameName field.1 name
  field.2.head?

/-- The content type that the part declares. -/
def contentType? (part : Part) : Option String :=
  part.header? "Content-Type"

end Part
end Mime
end MailVault
