import MailVault.Address.Grammar
import MailVault.Text.Quoted

/-!
# Addresses of header fields

A header field lists mailboxes.  Of the first one only the address is kept: what
stands between the angle brackets, if there are any, without white space around
it.  The result is an address by the grammar or the reason why there is none.
-/

namespace MailVault
namespace Address

/-- Why a header field gives no address. -/
inductive Fault where
  | empty
  /-- The text that was taken for the address breaks the grammar. -/
  | invalid (input : String) (cause : Cause)
deriving DecidableEq

namespace Fault

def message : Fault → String
  | empty => "empty address"
  | invalid input cause => "invalid address " ++ Text.quote input ++ ": " ++ cause.message

end Fault

/-- What stands between the last opening bracket and the last closing one, if they come in that
order; otherwise the whole text. -/
def unbracket (text : List Char) : List Char :=
  match Text.cutLast '<' text with
  | none => text
  | some (_, after) =>
    match Text.cutLast '>' after with
    | none => text
    | some (inside, _) => inside

/-- The text that is taken for the address: of the text before the first comma, what stands in
brackets, trimmed. -/
def candidate (value : List Char) : List Char :=
  Text.trim (unbracket (value.takeWhile fun character => decide (character ≠ ',')))

/-- The address of the first mailbox. -/
def normalize (value : String) : Except Fault String :=
  let spec := candidate value.toList
  if spec.isEmpty then .error .empty
  else
    match parse spec with
    | .ok mailbox => .ok (String.ofList mailbox.text)
    | .error cause => .error (.invalid (String.ofList spec) cause)

end Address
end MailVault
