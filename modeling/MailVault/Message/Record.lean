import MailVault.Chunk.Manifest
import MailVault.Net.IpAddress

/-!
# Message records

A record is made when a message is opened and is filled in when it is closed.
What is known at each of the two moments is a type of its own, so that closing
cannot touch what opening has written.
-/

namespace MailVault

structure MessageId where
  value : Nat
deriving DecidableEq, Repr

/-- What is known when a message is opened. -/
structure Opening where
  sender : String := ""
  helo : String := ""
  recipient : String := ""
  remoteIp : Option Net.IpAddress := none
  mailFrom : String := ""
  tls : Bool := false
deriving DecidableEq

/-- What is known of the headers when a message is closed. -/
structure Summary where
  subject : String := ""
  queueId : String := ""
  recipient : String := ""
  sender : String := ""
deriving DecidableEq

/-- All that is kept of a message besides its chunks. -/
structure MessageRecord where
  id : MessageId
  sender : String
  helo : String
  recipient : String
  remoteIp : Option Net.IpAddress
  mailFrom : String
  tls : Bool
  closed : Bool
  totalBytes : Nat
  manifest : Manifest
  subject : String
  queueId : String
  headerTo : String
  headerFrom : String
deriving DecidableEq

namespace MessageRecord

def opened (id : MessageId) (opening : Opening) : MessageRecord where
  id := id
  sender := opening.sender
  helo := opening.helo
  recipient := opening.recipient
  remoteIp := opening.remoteIp
  mailFrom := opening.mailFrom
  tls := opening.tls
  closed := false
  totalBytes := 0
  manifest := Manifest.empty
  subject := ""
  queueId := ""
  headerTo := ""
  headerFrom := ""

/-- The record after the message is closed; it may have been closed before. -/
def close (record : MessageRecord) (total : Nat) (manifest : Manifest) (summary : Summary) :
    MessageRecord :=
  { record with
    closed := true
    totalBytes := total
    manifest := manifest
    subject := summary.subject
    queueId := summary.queueId
    headerTo := summary.recipient
    headerFrom := summary.sender }

end MessageRecord
end MailVault
