/-!
# Dynamic values of a data format

Settings arrive as a JSON object, and records are stored as one.  A number is an
integer or a floating-point number; which of the two is decided where the
text is read, from the way the number is written, and never changes afterwards.
-/

namespace MailVault
namespace Json

inductive Value where
  | null
  | bool (value : Bool)
  | int (value : Int)
  | float (value : Float)
  | text (value : String)
  | array (items : List Value)
  | object (fields : List (String × Value))

/-- The fields of an object, of which no two have the same name. -/
abbrev Fields := List (String × Value)

end Json
end MailVault
