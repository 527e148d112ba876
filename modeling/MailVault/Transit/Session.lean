import MailVault.Address.Normalize
import MailVault.Message.Envelope

/-!
# The message in transit

A session lasts from opening a message to closing it.  It knows how far the
stream has come, how many bytes the buffer has taken, and the header values that
were seen first; none of these outlives it.
-/

namespace MailVault
namespace Transit

/-- Where a message is in its life. -/
inductive Phase where
  | idle
  | opened
  | streaming
  | closed
deriving DecidableEq

namespace Phase

def name : Phase → String
  | idle => "Idle"
  | opened => "Opened"
  | streaming => "Streaming"
  | closed => "Closed"

end Phase

/-- The state of the message in transit. -/
structure Session where
  phase : Phase := .idle
  /-- The number of the open message. -/
  message : Option MessageId := none
  /-- The offset of the next byte of the stream. -/
  position : Nat := 0
  /-- How many parts need not be looked at again. -/
  progress : Nat := 0
  /-- How many bytes the buffer has taken. -/
  written : Nat := 0
  /-- Whether the first part has labelled the buffer. -/
  labelled : Bool := false
  subject : String := ""
  recipient : String := ""
  sender : String := ""

namespace Session

/-- No message. -/
def idle : Session where

def opened (id : MessageId) : Session where
  phase := .opened
  message := some id

/-- A value that was captured stays; otherwise the address of the field is taken, if it has one. -/
def captureAddress (captured : String) (part : Mime.Part) (name : String) : String :=
  if captured.isEmpty then
    match part.header? name with
    | none => captured
    | some value =>
      match Address.normalize value with
      | .ok address => address
      | .error _ => captured
  else captured

/-- A subject that was captured stays; otherwise that of the part is taken. -/
def captureSubject (captured : String) (part : Mime.Part) : String :=
  if captured.isEmpty then (part.header? "Subject").getD captured else captured

/-- Capture the headers of the first part that are still wanted. -/
def capture (session : Session) (first : Mime.Part) : Session :=
  { session with
    subject := captureSubject session.subject first
    recipient := captureAddress session.recipient first "To"
    sender := captureAddress session.sender first "From" }

/-- Whether nothing more can be cut in a part once the stream has come to `position`. -/
def isSettled (position : Nat) (part : Mime.Part) : Bool :=
  decide (part.start ≤ position ∧ 0 < part.bodyStart ∧ part.bodyStart < position)

/-- Pass over the parts that are settled; the last two always stay open. -/
def settle (session : Session) (parts : List Mime.Part) (position : Nat) : Session :=
  if parts.length ≤ 2 then session
  else
    let limit := parts.length - 2
    let first := min session.progress limit
    let waiting := (parts.take limit).drop first
    { session with progress := first + (waiting.takeWhile (isSettled position)).length }

/-- What is recorded of the headers when the message is closed. -/
def summary (session : Session) (queueId : String) : Summary where
  subject := session.subject
  queueId := queueId
  recipient := session.recipient
  sender := session.sender

def describe (session : Session) : String :=
  "Session \x7b state: " ++ session.phase.name ++
    ", envelope: None, message_id: " ++
      (match session.message with
        | none => "None"
        | some id => "Some(MessageId(" ++ toString id.value ++ "))") ++
    ", position: " ++ toString session.position ++
    ", progress: " ++ toString session.progress ++
    ", written: " ++ toString session.written ++
    ", part_selected: " ++ toString session.labelled ++
    ", subject: " ++ Text.quote session.subject ++
    ", to: " ++ Text.quote session.recipient ++
    ", from: " ++ Text.quote session.sender ++ " \x7d"

end Session
end Transit
end MailVault
