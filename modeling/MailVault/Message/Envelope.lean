import MailVault.Message.Record
import MailVault.Mime.Part
import MailVault.Table

/-!
# Envelopes

An envelope holds what the mail transaction says of a message.  Its metadata, a
table of named values, is how the stages of a stream tell each other what they
find: the analyser publishes the parts of the message, the splitter the number
under which it is stored.
-/

namespace MailVault

/-- A named value of an envelope. -/
inductive Metadatum where
  | messageId (id : MessageId)
  | parts (parts : List Mime.Part)
  | text (text : String)

abbrev Metadata := Table String Metadatum

namespace Metadata

/-- The name under which the parts are published. -/
def partsKey : String := "MimeParts"

def messageIdKey : String := "messageID"

def names (metadata : Metadata) : List String :=
  metadata.keys.mergeSort fun left right => decide (left ≤ right)

def parts? (metadata : Metadata) : Option (List Mime.Part) :=
  match metadata.find? partsKey with
  | some (.parts parts) => some parts
  | _ => none

def messageId? (metadata : Metadata) : Option MessageId :=
  match metadata.find? messageIdKey with
  | some (.messageId id) => some id
  | _ => none

end Metadata

/-- What the mail transaction says of a message. -/
structure Envelope where
  mailFrom : String := ""
  recipients : List String := []
  helo : String := ""
  remoteIp : String := ""
  tls : Bool := false
  queuedId : String := ""
  metadata : Option Metadata := none

namespace Envelope

/-- An envelope with one recipient and an empty table of metadata. -/
def new (mailFrom recipient : String) : Envelope where
  mailFrom := mailFrom
  recipients := [recipient]
  metadata := some Table.empty

def firstRecipient (envelope : Envelope) : String :=
  envelope.recipients.head?.getD ""

def parts? (envelope : Envelope) : Option (List Mime.Part) :=
  envelope.metadata.bind Metadata.parts?

def messageId? (envelope : Envelope) : Option MessageId :=
  envelope.metadata.bind Metadata.messageId?

/-- Publish a value; the table is made if it is missing. -/
def setValue (envelope : Envelope) (name : String) (value : Metadatum) : Envelope :=
  { envelope with metadata := some ((envelope.metadata.getD Table.empty).insert name value) }

def setParts (envelope : Envelope) (parts : List Mime.Part) : Envelope :=
  envelope.setValue Metadata.partsKey (.parts parts)

def removeValue (envelope : Envelope) (name : String) : Envelope :=
  { envelope with metadata := envelope.metadata.map fun metadata => metadata.erase name }

/-- Publish the number of the message, if there is a table to publish it in. -/
def noteMessage (envelope : Envelope) (id : MessageId) : Envelope :=
  { envelope with
    metadata := envelope.metadata.map fun metadata =>
      metadata.insert Metadata.messageIdKey (.messageId id) }

/-- What is recorded of the envelope when its message is opened. -/
def opening (envelope : Envelope) : Opening where
  sender := envelope.mailFrom
  helo := envelope.helo
  recipient := envelope.firstRecipient
  remoteIp := Net.IpAddress.read? envelope.remoteIp
  mailFrom := envelope.mailFrom
  tls := envelope.tls

end Envelope
end MailVault
