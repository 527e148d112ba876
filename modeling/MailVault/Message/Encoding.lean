import MailVault.Chunk.Encoding
import MailVault.Message.Record

/-!
# Message records as values

A record is an object with all its fields; only the remote address may be missing
when it is read.  It is also understood as the row of its fields.
-/

namespace MailVault

open Json

namespace MessageId

def toValue (id : MessageId) : Value :=
  .int id.value

def ofValue : Reader MessageId := fun value =>
  (Read.natural value).map MessageId.mk

end MessageId

namespace MessageRecord

def toValue (record : MessageRecord) : Value :=
  .object
    [("id", record.id.toValue),
     ("from", .text record.sender),
     ("helo", .text record.helo),
     ("to", .text record.recipient),
     ("remote_ip",
      match record.remoteIp with
      | none => .null
      | some address => .text address.text),
     ("mail_from", .text record.mailFrom),
     ("tls", .bool record.tls),
     ("closed", .bool record.closed),
     ("total_bytes", .int record.totalBytes),
     ("manifest", record.manifest.toValue),
     ("subject", .text record.subject),
     ("queue_id", .text record.queueId),
     ("header_to", .text record.headerTo),
     ("header_from", .text record.headerFrom)]

/-- Read the fields of an object, in the order of their names; what is missing is found out in
the order of the record. -/
def ofFields (fields : Fields) : Except Mismatch MessageRecord := do
  let closed ← fields.get? "closed" Read.boolean
  let sender ← fields.get? "from" Read.text
  let headerFrom ← fields.get? "header_from" Read.text
  let headerTo ← fields.get? "header_to" Read.text
  let helo ← fields.get? "helo" Read.text
  let id ← fields.get? "id" MessageId.ofValue
  let mailFrom ← fields.get? "mail_from" Read.text
  let manifest ← fields.get? "manifest" Manifest.ofValue
  let queueId ← fields.get? "queue_id" Read.text
  let remoteIp ← fields.get? "remote_ip" (Read.nullable Read.address)
  let subject ← fields.get? "subject" Read.text
  let tls ← fields.get? "tls" Read.boolean
  let recipient ← fields.get? "to" Read.text
  let totalBytes ← fields.get? "total_bytes" Read.natural
  let id ← required "id" id
  let sender ← required "from" sender
  let helo ← required "helo" helo
  let recipient ← required "to" recipient
  let mailFrom ← required "mail_from" mailFrom
  let tls ← required "tls" tls
  let closed ← required "closed" closed
  let totalBytes ← required "total_bytes" totalBytes
  let manifest ← required "manifest" manifest
  let subject ← required "subject" subject
  let queueId ← required "queue_id" queueId
  let headerTo ← required "header_to" headerTo
  let headerFrom ← required "header_from" headerFrom
  return ⟨id, sender, helo, recipient, remoteIp.join, mailFrom, tls, closed, totalBytes, manifest,
    subject, queueId, headerTo, headerFrom⟩

def row : Row := ⟨"MessageRecord", 14⟩

/-- Read the fields of a row, in their order. -/
def ofItems (items : List Value) : Except Mismatch MessageRecord := do
  let id ← row.item items 0 MessageId.ofValue
  let sender ← row.item items 1 Read.text
  let helo ← row.item items 2 Read.text
  let recipient ← row.item items 3 Read.text
  let remoteIp ← row.item items 4 (Read.nullable Read.address)
  let mailFrom ← row.item items 5 Read.text
  let tls ← row.item items 6 Read.boolean
  let closed ← row.item items 7 Read.boolean
  let totalBytes ← row.item items 8 Read.natural
  let manifest ← row.item items 9 Manifest.ofValue
  let subject ← row.item items 10 Read.text
  let queueId ← row.item items 11 Read.text
  let headerTo ← row.item items 12 Read.text
  let headerFrom ← row.item items 13 Read.text
  row.finish items
  return ⟨id, sender, helo, recipient, remoteIp, mailFrom, tls, closed, totalBytes, manifest,
    subject, queueId, headerTo, headerFrom⟩

def ofValue : Reader MessageRecord
  | .object fields => ofFields fields
  | .array items => ofItems items
  | other => .error (.kind other (.record row.record))

end MessageRecord
end MailVault
