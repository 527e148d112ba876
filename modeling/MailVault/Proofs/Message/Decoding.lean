import MailVault.Proofs.Message.Encoding

/-!
# What decoding looks at

A record that is stored is written again and again, by programs that need not agree on
which fields there are.  Here it is said what of a value can matter when it is decoded:
of an object the fields with known names, in whatever order and among whatever others
they stand, and at every level at which there are objects.

A value is trimmed by dropping the fields that are not known.  Trimming a record goes on
into its manifest, and trimming a manifest into each of its descriptors, in the same
places in which reading goes on.  A trimmed value is read as the value itself, and when
that fails, with the same fault.
-/

namespace MailVault

open Json

namespace Json
namespace Fields

variable {α : Type}

/-- The fields whose names are among the known ones. -/
def keep (known : List String) (fields : Fields) : Fields :=
  fields.filter fun field => decide (field.1 ∈ known)

/-- Change the value of the field of one name. -/
def revise (name : String) (change : Value → Value) (fields : Fields) : Fields :=
  fields.map fun field => if field.1 = name then (field.1, change field.2) else field

theorem get?_keep {known : List String} {name : String} (member : name ∈ known)
    (fields : Fields) (reader : Reader α) :
    (fields.keep known).get? name reader = fields.get? name reader := by
  induction fields with
  | nil => rfl
  | cons field later inductionStep =>
      unfold keep at inductionStep ⊢
      by_cases isKnown : field.1 ∈ known
      · rw [List.filter_cons, if_pos (decide_eq_true isKnown), get?_cons, get?_cons,
          inductionStep]
      · have different : name ≠ field.1 := fun same => isKnown (same ▸ member)
        rw [List.filter_cons, if_neg (by rw [decide_eq_true_eq]; exact isKnown), get?_cons,
          if_neg different, inductionStep]

/-- A revised field is read as the change of the old one, and the others are as before. -/
theorem get?_revise (name other : String) (change : Value → Value) (fields : Fields)
    (reader : Reader α) :
    (fields.revise name change).get? other reader =
      fields.get? other (if other = name then fun value => reader (change value) else reader) := by
  induction fields with
  | nil => rfl
  | cons field later inductionStep =>
      unfold revise at inductionStep ⊢
      rw [List.map_cons, get?_cons, get?_cons, inductionStep]
      by_cases revised : field.1 = name
      · by_cases same : other = field.1
        · rw [if_pos revised, if_pos same, if_pos same, if_pos (same.trans revised)]
        · rw [if_pos revised, if_neg same, if_neg same]
      · by_cases same : other = field.1
        · have different : other ≠ name := fun equal => revised (same ▸ equal)
          rw [if_neg revised, if_pos same, if_pos same, if_neg different]
        · rw [if_neg revised, if_neg same, if_neg same]

end Fields

/-- What `reader` makes of the items does not change when each is read as before. -/
theorem Read.mapM_congr {α : Type} {reader : Reader α} {change : Value → Value}
    (unchanged : ∀ value, reader (change value) = reader value) (items : List Value) :
    (items.map change).mapM reader = items.mapM reader := by
  induction items with
  | nil => rfl
  | cons value later inductionStep =>
      rw [List.map_cons, List.mapM_cons, List.mapM_cons, unchanged, inductionStep]

end Json

namespace Descriptor

def fieldNames : List String :=
  ["hash", "size", "part", "content_type"]

/-- A descriptor without unknown fields. -/
def trim : Value → Value
  | .object fields => .object (Fields.keep fieldNames fields)
  | other => other

theorem ofValue_trim (value : Value) : ofValue (trim value) = ofValue value := by
  cases value with
  | object fields =>
      simp (disch := decide) only [trim, ofValue, ofFields, Fields.get?_keep]
  | _ => rfl

end Descriptor

namespace Manifest

/-- A manifest without unknown fields in its descriptors. -/
def trim : Value → Value
  | .array items => .array (items.map Descriptor.trim)
  | other => other

theorem ofValue_trim (value : Value) : ofValue (trim value) = ofValue value := by
  cases value with
  | array items =>
      rw [trim, ofValue, ofValue, Read.sequence, Read.sequence,
        Read.mapM_congr Descriptor.ofValue_trim]
  | _ => rfl

end Manifest

namespace MessageRecord

def fieldNames : List String :=
  ["id", "from", "helo", "to", "remote_ip", "mail_from", "tls", "closed", "total_bytes",
    "manifest", "subject", "queue_id", "header_to", "header_from"]

/-- A record without unknown fields, in itself and in its manifest.  In the row of its fields, the
manifest is the tenth. -/
def trim : Value → Value
  | .object fields =>
    .object ((Fields.keep fieldNames fields).revise "manifest" Manifest.trim)
  | .array items => .array (items.modify 9 Manifest.trim)
  | other => other

theorem get?_trim {α : Type} {name : String} (member : name ∈ fieldNames)
    (other : name ≠ "manifest") (fields : Fields) (reader : Reader α) :
    ((fields.keep fieldNames).revise "manifest" Manifest.trim).get? name reader =
      fields.get? name reader := by
  rw [Fields.get?_revise, if_neg other, Fields.get?_keep member]

theorem get?_manifest_trim (fields : Fields) :
    ((fields.keep fieldNames).revise "manifest" Manifest.trim).get? "manifest"
        Manifest.ofValue = fields.get? "manifest" Manifest.ofValue := by
  rw [Fields.get?_revise, if_pos rfl, Fields.get?_keep (by decide)]
  exact congrArg _ (funext Manifest.ofValue_trim)

theorem item_trim {α : Type} {position : Nat} (other : position ≠ 9) (items : List Value)
    (reader : Reader α) :
    row.item (items.modify 9 Manifest.trim) position reader = row.item items position reader := by
  rw [Row.item, Row.item, List.getElem?_modify_ne _ _ other.symm]

theorem item_manifest_trim (items : List Value) :
    row.item (items.modify 9 Manifest.trim) 9 Manifest.ofValue =
      row.item items 9 Manifest.ofValue := by
  rw [Row.item, Row.item, List.getElem?_modify_eq]
  cases items[9]? with
  | none => rfl
  | some value => exact Manifest.ofValue_trim value

theorem ofValue_trim (value : Value) : ofValue (trim value) = ofValue value := by
  cases value with
  | object fields =>
      simp (disch := decide) only [trim, ofValue, ofFields, get?_trim, get?_manifest_trim]
  | array items =>
      have last : row.finish (items.modify 9 Manifest.trim) = row.finish items := by
        rw [Row.finish, Row.finish, List.length_modify]
      simp (disch := decide) only [trim, ofValue, ofItems, last, item_trim, item_manifest_trim]
  | _ => rfl

end MessageRecord

theorem MessageId.ofValue_toValue (id : MessageId) : ofValue id.toValue = .ok id := by
  rw [ofValue, toValue, Read.natural_int]
  rfl

/-! ## Writing and reading together -/

/-- What is written is read back, and what is read from any value is read once more when it is
written in between. -/
structure Json.RoundTrips {α : Type} (write : α → Value) (reader : Reader α) : Prop where
  back : ∀ content, reader (write content) = .ok content
  again : ∀ value, (reader value >>= fun content => reader (write content)) = reader value

/-- Reading once more gives nothing new where everything that is written is read back. -/
theorem Json.RoundTrips.of_back {α : Type} {write : α → Value} {reader : Reader α}
    (back : ∀ content, reader (write content) = .ok content) : RoundTrips write reader where
  back := back
  again value := by
    cases reader value with
    | error fault => rfl
    | ok content => exact back content

/-- Records, manifests, descriptors, numbers of messages and digests are read back from what is
written of them, and are the same when they are written and read again.  Unknown fields of objects
do not matter, neither in the value itself nor further inside. -/
theorem roundTrips_and_ofValue_trim :
    RoundTrips MessageRecord.toValue MessageRecord.ofValue ∧
      RoundTrips Manifest.toValue Manifest.ofValue ∧
      RoundTrips Descriptor.toValue Descriptor.ofValue ∧
      RoundTrips MessageId.toValue MessageId.ofValue ∧
      RoundTrips Digest.toValue Read.digest ∧
      (∀ value, MessageRecord.ofValue (MessageRecord.trim value) = MessageRecord.ofValue value) ∧
      (∀ value, Manifest.ofValue (Manifest.trim value) = Manifest.ofValue value) ∧
      ∀ value, Descriptor.ofValue (Descriptor.trim value) = Descriptor.ofValue value :=
  ⟨.of_back MessageRecord.ofValue_toValue, .of_back Manifest.ofValue_toValue,
    .of_back Descriptor.ofValue_toValue, .of_back MessageId.ofValue_toValue,
    .of_back Read.digest_toValue, MessageRecord.ofValue_trim, Manifest.ofValue_trim,
    Descriptor.ofValue_trim⟩

/-- A descriptor as another program may have written it: a field is unknown, digits are upper-case,
and the type is null. -/
example :
    Descriptor.ofValue (.object
      [("part", .text "1"), ("offset", .int 7), ("content_type", .null), ("size", .int 3),
        ("hash", .text (String.ofList (List.replicate 64 'A')))]) =
      .ok ⟨⟨List.replicate 32 0xAA, List.length_replicate⟩, 3, "1", none⟩ := by
  rfl

end MailVault
