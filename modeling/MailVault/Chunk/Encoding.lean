import MailVault.Json.Reading

/-!
# Manifests as values

A digest is its text, a descriptor is an object that leaves out an absent
content type, and a manifest is the row of its descriptors.  A descriptor is also
understood as the row of its fields, where only the content type may be missing.
-/

namespace MailVault

open Json

namespace Digest

def toValue (digest : Digest) : Value :=
  .text digest.toHex

end Digest

namespace Descriptor

def toValue (descriptor : Descriptor) : Value :=
  let always : Fields :=
    [("hash", descriptor.digest.toValue),
     ("size", .int descriptor.size),
     ("part", .text descriptor.part)]
  match descriptor.contentType with
  | none => .object always
  | some contentType => .object (always ++ [("content_type", .text contentType)])

/-- Read the fields of an object, in the order of their names. -/
def ofFields (fields : Fields) : Except Mismatch Descriptor := do
  let contentType ← fields.get? "content_type" (Read.nullable Read.text)
  let digest ← fields.get? "hash" Read.digest
  let part ← fields.get? "part" Read.text
  let size ← fields.get? "size" Read.natural
  let digest ← required "hash" digest
  let size ← required "size" size
  let part ← required "part" part
  return ⟨digest, size, part, contentType.join⟩

def row : Row := ⟨"ChunkDescriptor", 4⟩

/-- Read the fields of a row, in their order. -/
def ofItems (items : List Value) : Except Mismatch Descriptor := do
  let digest ← row.item items 0 Read.digest
  let size ← row.item items 1 Read.natural
  let part ← row.item items 2 Read.text
  let contentType ←
    match items[3]? with
    | none => pure none
    | some value => Read.nullable Read.text value
  row.finish items
  return ⟨digest, size, part, contentType⟩

def ofValue : Reader Descriptor
  | .object fields => ofFields fields
  | .array items => ofItems items
  | other => .error (.kind other (.record row.record))

end Descriptor

namespace Manifest

/-- A manifest as a row. -/
def toValue (manifest : Manifest) : Value :=
  .array (manifest.entries.map Descriptor.toValue)

def ofValue : Reader Manifest := fun value =>
  (Read.sequence Descriptor.ofValue value).map Manifest.mk

end Manifest
end MailVault
