import MailVault.Proofs.Transit.Company
import MailVault.Proofs.Transit.Stream

/-!
# What a closed record tells

A record is filled in at three moments.  What the envelope says when the message is opened
is written then.  The headers are captured by the writes: each looks at the first part that
is published just then, also if the store fails in the middle of it, and what was captured
once stays.  The queue number is the one that the envelope has at the close.

So the values of the headers are the first ones that were offered while the message went
by.  A subject is offered if it is not empty, an address if the grammar accepts it.
-/

namespace MailVault

open Transit (publishedParts)

namespace Mime.Part

/-- The part has a field of that name, and this is the first value of the field. -/
def Declares (part : Part) (name value : String) : Prop :=
  ∃ field ∈ part.headers, sameName field.1 name = true ∧ field.2.head? = some value

/-- No two field names of the part are the same, the case of ASCII letters aside. -/
def Unambiguous (part : Part) : Prop :=
  part.headers.Pairwise fun one other => sameName one.1 other.1 = false

instance (part : Part) : Decidable part.Unambiguous :=
  inferInstanceAs (Decidable (part.headers.Pairwise _))

theorem sameName_of_both {left right name : String} (one : sameName left name = true)
    (other : sameName right name = true) : sameName left right = true := by
  simp only [sameName, beq_iff_eq] at one other ⊢
  rw [one, other]

theorem header?_eq_some_iff {part : Part} (unambiguous : part.Unambiguous) {name value : String} :
    part.header? name = some value ↔ part.Declares name value := by
  rcases part with ⟨_, _, _, headers⟩
  unfold Unambiguous at unambiguous
  simp only [header?, Declares, Option.bind_eq_bind]
  induction headers with
  | nil => simp
  | cons field others inductionStep =>
      rcases List.pairwise_cons.mp unambiguous with ⟨alone, rest⟩
      rw [List.find?_cons]
      cases named : sameName field.1 name with
      | true =>
          simp only [Option.bind_some, List.mem_cons, exists_eq_or_imp, named, true_and]
          constructor
          · exact Or.inl
          · rintro (here | ⟨other, member, same, _⟩)
            · exact here
            · have different := alone other member
              rw [sameName_of_both named same] at different
              cases different
      | false =>
          simp only [List.mem_cons, exists_eq_or_imp, named, Bool.false_eq_true, false_and,
            false_or]
          exact inductionStep rest

end Mime.Part

/-- The first part that an envelope publishes, if it publishes any. -/
def Envelope.firstPart? (envelope : Envelope) : Option Mime.Part :=
  (publishedParts envelope.metadata).head?

theorem Address.normalize_ne_empty {value address : String}
    (accepted : normalize value = .ok address) : address ≠ "" := by
  unfold normalize at accepted
  simp only at accepted
  split at accepted
  · cases accepted
  · cases parsed : parse (candidate value.toList) with
    | error cause =>
        rw [parsed] at accepted
        cases accepted
    | ok mailbox =>
        rw [parsed] at accepted
        cases accepted
        intro empty
        have none : mailbox.text = [] := by
          rw [← String.toList_ofList (l := mailbox.text), empty]
          rfl
        exact List.append_ne_nil_of_right_ne_nil _ (List.cons_ne_nil _ _) none

namespace Transit

open Store (Chronicle Entry Host Note Noted Request shareOf told)

/-! ## What parts offer -/

def OffersSubject (part : Mime.Part) (subject : String) : Prop :=
  part.Declares "Subject" subject ∧ subject ≠ ""

/-- The part offers an address in the field of that name. -/
def OffersAddress (name : String) (part : Mime.Part) (address : String) : Prop :=
  ∃ value, part.Declares name value ∧ Address.normalize value = .ok address

/-- The value that is offered by the first part to offer any, or no text if there is no such
part. -/
inductive FirstOf (Offers : Mime.Part → String → Prop) : List Mime.Part → String → Prop where
  | none : FirstOf Offers [] ""
  | here {part : Mime.Part} {value : String} (offered : Offers part value)
      (others : List Mime.Part) : FirstOf Offers (part :: others) value
  | later {part : Mime.Part} (nothing : ∀ value, ¬ Offers part value) {others : List Mime.Part}
      {value : String} (first : FirstOf Offers others value) : FirstOf Offers (part :: others) value

/-- A value is captured from the part if there is none yet and the part offers one. -/
structure Captures (Offers : Mime.Part → String → Prop) (capture : String → Mime.Part → String)
    (part : Mime.Part) : Prop where
  kept : ∀ captured, captured ≠ "" → capture captured part = captured
  offered : ∀ value, Offers part value → value ≠ "" ∧ capture "" part = value
  nothing : (∀ value, ¬ Offers part value) → capture "" part = ""

section Captures

variable {Offers : Mime.Part → String → Prop} {capture : String → Mime.Part → String}
  {seen : List Mime.Part}

theorem foldl_capture_of_kept (each : ∀ part ∈ seen, Captures Offers capture part)
    {captured : String} (some : captured ≠ "") : seen.foldl capture captured = captured := by
  induction seen with
  | nil => rfl
  | cons part others inductionStep =>
      rw [List.foldl_cons, (each part List.mem_cons_self).kept captured some]
      exact inductionStep fun other member => each other (List.mem_cons_of_mem _ member)

/-- Captured from one part after the other, the value is the first that is offered. -/
theorem firstOf_foldl_capture (each : ∀ part ∈ seen, Captures Offers capture part) :
    FirstOf Offers seen (seen.foldl capture "") := by
  induction seen with
  | nil => exact .none
  | cons part others inductionStep =>
      have here := each part List.mem_cons_self
      have rest : ∀ other ∈ others, Captures Offers capture other :=
        fun other member => each other (List.mem_cons_of_mem _ member)
      rw [List.foldl_cons]
      by_cases offers : ∃ value, Offers part value
      · rcases offers with ⟨value, offered⟩
        rcases here.offered value offered with ⟨some, captured⟩
        rw [captured, foldl_capture_of_kept rest some]
        exact .here offered others
      · have nothing : ∀ value, ¬ Offers part value := not_exists.mp offers
        rw [here.nothing nothing]
        exact .later nothing (inductionStep rest)

end Captures

theorem captureSubject_empty (part : Mime.Part) :
    Session.captureSubject "" part = (part.header? "Subject").getD "" := rfl

theorem captureAddress_empty (part : Mime.Part) (name : String) :
    Session.captureAddress "" part name =
      ((part.header? name).bind fun value => (Address.normalize value).toOption).getD "" := by
  rw [Session.captureAddress, if_pos (show "".isEmpty = true from rfl)]
  cases part.header? name with
  | none => rfl
  | some value =>
      simp only [Option.bind_some]
      cases Address.normalize value <;> rfl

section Parts

variable {part : Mime.Part} (unambiguous : part.Unambiguous)

include unambiguous

theorem captures_subject : Captures OffersSubject Session.captureSubject part where
  kept captured some := by
    rw [Session.captureSubject, if_neg]
    simpa using some
  offered value offered := by
    refine ⟨offered.2, ?_⟩
    rw [captureSubject_empty, (Mime.Part.header?_eq_some_iff unambiguous).mpr offered.1,
      Option.getD_some]
  nothing none := by
    rw [captureSubject_empty]
    cases found : part.header? "Subject" with
    | none => rfl
    | some value =>
        have declared := (Mime.Part.header?_eq_some_iff unambiguous).mp found
        by_contra some
        exact none value ⟨declared, some⟩

theorem captures_address (name : String) :
    Captures (OffersAddress name) (fun captured part => Session.captureAddress captured part name)
      part where
  kept captured some := by
    rw [Session.captureAddress, if_neg]
    simpa using some
  offered address offered := by
    rcases offered with ⟨value, declared, accepted⟩
    refine ⟨Address.normalize_ne_empty accepted, ?_⟩
    rw [captureAddress_empty, (Mime.Part.header?_eq_some_iff unambiguous).mpr declared,
      Option.bind_some, accepted]
    rfl
  nothing none := by
    rw [captureAddress_empty]
    cases found : part.header? name with
    | none => rfl
    | some value =>
        have declared := (Mime.Part.header?_eq_some_iff unambiguous).mp found
        rw [Option.bind_some]
        cases accepted : Address.normalize value with
        | error fault => rfl
        | ok address => exact absurd ⟨value, declared, accepted⟩ (none address)

end Parts

/-- The three headers are captured each for itself. -/
theorem foldl_captured (seen : List Mime.Part) (summary : Summary) :
    seen.foldl captured summary =
      { summary with
        subject := seen.foldl Session.captureSubject summary.subject
        recipient := seen.foldl (fun captured part => Session.captureAddress captured part "To")
          summary.recipient
        sender := seen.foldl (fun captured part => Session.captureAddress captured part "From")
          summary.sender } := by
  induction seen generalizing summary with
  | nil => rfl
  | cons part others inductionStep => exact inductionStep _

/-! ## What writes capture -/

def firstParts (writes : List (Envelope × Bytes)) : List Mime.Part :=
  writes.filterMap fun write => write.1.firstPart?

def writesOf (writes : List (Envelope × Bytes)) : List Task :=
  writes.map fun write => .write write.1.metadata write.2

namespace Leg

variable {κ σ τ : Type} (leg : Leg κ σ τ) (host : Host κ σ) (outlet : Outlet σ τ)

/-- While a message is open, a write captures what the first part shows, whatever its outcome. -/
theorem write_summary {id : MessageId} (opened : leg.splitter.session.message = some id)
    (envelope : Envelope) (data : Bytes) (queueId : String) :
    (leg.write host outlet envelope.metadata data).2.splitter.session.summary queueId =
      envelope.firstPart?.toList.foldl captured (leg.splitter.session.summary queueId) := by
  unfold Envelope.firstPart?
  cases context : leg.splitter.hasContext envelope.metadata with
  | false =>
      rw [write_of_no_context context, Splitter.publishedParts_of_no_context opened context]
      rfl
  | true =>
      have chunked : (leg.splitter.chunking host envelope.metadata data
          leg.engines).2.1.session.summary queueId =
            (publishedParts envelope.metadata).head?.toList.foldl captured
              (leg.splitter.session.summary queueId) := by
        unfold Splitter.chunking
        cases publishedParts envelope.metadata with
        | nil => rfl
        | cons first others =>
            rcases leg.splitter.chunk_session host first others data leg.engines with
              ⟨progress, written, session, _⟩
            simp only
            rw [session]
            rfl
      rcases done : leg.splitter.chunking host envelope.metadata data leg.engines with
        ⟨result, splitter, engines⟩
      rw [done] at chunked
      cases result with
      | error fault =>
          rw [write_of_fault context done]
          exact chunked
      | ok _ =>
          rw [write_of_chunked context done]
          exact chunked

/-- A row of writes leaves the message open, with the headers of the first parts that they have
seen. -/
theorem run_writesOf {id : MessageId} (opened : leg.splitter.session.message = some id)
    (writes : List (Envelope × Bytes)) (queueId : String) :
    (leg.run host outlet (writesOf writes)).splitter.session.message = some id ∧
      (leg.run host outlet (writesOf writes)).splitter.session.summary queueId =
        (firstParts writes).foldl captured (leg.splitter.session.summary queueId) := by
  induction writes generalizing leg with
  | nil => exact ⟨opened, rfl⟩
  | cons write others inductionStep =>
      rcases write with ⟨envelope, data⟩
      have still : (leg.write host outlet envelope.metadata data).2.splitter.session.message =
          some id := (leg.write_message host outlet envelope.metadata data).trans opened
      rcases inductionStep _ still with ⟨message, summary⟩
      refine ⟨message, summary.trans ?_⟩
      rw [leg.write_summary host outlet opened envelope data queueId, firstParts, firstParts,
        List.filterMap_cons]
      cases envelope.firstPart? <;> rfl

/-- If a message was opened and all that came since are writes, then it is open, with the headers of
the first parts that these have seen. -/
theorem summary_of_episodes {tasks : List Task} {earlier middle : List (Episode κ σ τ)}
    {start finish : Episode κ σ τ} {id : MessageId} {writes : List (Envelope × Bytes)}
    (episodes : leg.episodes host outlet tasks = earlier ++ start :: (middle ++ [finish]))
    (opened : start.opened? = some id) (written : middle.map Episode.task = writesOf writes) :
    finish.before.splitter.session.message = some id ∧
      ∀ queueId, finish.before.splitter.session.summary queueId =
        (firstParts writes).foldl captured ((Session.opened id).summary queueId) := by
  have member : start ∈ leg.episodes host outlet tasks := by
    rw [episodes]
    exact List.mem_append_right _ List.mem_cons_self
  rcases task_of_opened? member opened with ⟨opening, task⟩
  rcases leg.episodes_eq_append host outlet episodes with ⟨before, _, _, _, rest⟩
  rcases episodes_eq_cons _ host outlet rest with ⟨_, _, _, rfl, after⟩
  cases task
  rcases episodes_eq_append _ host outlet after with ⟨writing, _, _, between, finished⟩
  rcases episodes_eq_cons _ host outlet finished with ⟨_, _, _, rfl, _⟩
  have same : writing = writesOf writes := by rw [← written, ← between, episodes_map_task]
  have session : ((leg.run host outlet before).perform host outlet
      (.openMessage opening)).2.splitter.session = .opened id := by
    rw [session_of_openMessage, opened]
  rw [same]
  generalize ((leg.run host outlet before).perform host outlet (.openMessage opening)).2 = begun
    at session
  have message : begun.splitter.session.message = some id := congrArg Session.message session
  have run := begun.run_writesOf host outlet message writes
  rw [session] at run
  exact ⟨(run "").1, fun queueId => (run queueId).2⟩

end Leg

/-! ## The record -/

/-- A closed record tells what the first envelope says, the queue number of the last one, and the
headers that are offered first by some parts. -/
structure Tells (record : MessageRecord) (first last : Envelope) (seen : List Mime.Part) :
    Prop where
  closed : record.closed = true
  sender : record.sender = first.mailFrom
  mailFrom : record.mailFrom = first.mailFrom
  helo : record.helo = first.helo
  recipient : record.recipient = first.recipients.head?.getD ""
  remoteIp : record.remoteIp = Net.IpAddress.read? first.remoteIp
  tls : record.tls = first.tls
  queueId : record.queueId = last.queuedId
  subject : FirstOf OffersSubject seen record.subject
  headerTo : FirstOf (OffersAddress "To") seen record.headerTo
  headerFrom : FirstOf (OffersAddress "From") seen record.headerFrom

theorem tells_closed {seen : List Mime.Part} (unambiguous : ∀ part ∈ seen, part.Unambiguous)
    (id : MessageId) (first last : Envelope) (total : Nat) (manifest : Manifest) :
    Tells ((MessageRecord.opened id first.opening).close total manifest
      (seen.foldl captured ((Session.opened id).summary last.queuedId))) first last seen := by
  rw [foldl_captured]
  exact
    { closed := rfl
      sender := rfl
      mailFrom := rfl
      helo := rfl
      recipient := rfl
      remoteIp := rfl
      tls := rfl
      queueId := rfl
      subject := firstOf_foldl_capture fun part member =>
        captures_subject (unambiguous part member)
      headerTo := firstOf_foldl_capture fun part member =>
        captures_address (unambiguous part member) "To"
      headerFrom := firstOf_foldl_capture fun part member =>
        captures_address (unambiguous part member) "From" }

variable {ι τ : Type} [DecidableEq ι]

/-- When a splitter has just closed a message, however its writes in between went, the record tells
the envelope as it was when the message was opened, the queue number of the envelope as it is now,
and the headers that were offered first by the parts that the writes have seen.  It stays so until
somebody closes the message again. -/
theorem closed_record_contents (company : Company ι τ) {maker : ι}
    {earlier middle : List (Episode Unit (Noted (List Note)) τ)}
    {start finish : Episode Unit (Noted (List Note)) τ} {id : MessageId} {first last : Envelope}
    {writes : List (Envelope × Bytes)}
    (episodes : company.episodes maker = earlier ++ start :: (middle ++ [finish]))
    (called : company.turns.getLast?.map Prod.fst = some (some maker))
    (opening : start.task = .openMessage first.opening) (opened : start.reply = .opened (.ok id))
    (written : middle.map Episode.task = writesOf writes)
    (closing : finish.task = .closeMessage last.queuedId)
    (closed : finish.reply = .closed (.ok ()))
    (unambiguous : ∀ part ∈ firstParts writes, part.Unambiguous) :
    ∃ kept, Tells kept first last (firstParts writes) ∧
      ∀ later, (company.toldAfter later).endings id = [] →
        company.recordAfter later id = .ok kept := by
  have member : start ∈ company.episodes maker := by
    rw [episodes]
    exact List.mem_append_right _ List.mem_cons_self
  have begun : start.opened? = some id := by rw [Episode.opened?, opened]
  have said := company.findSome?_opening member begun opening
  rcases Leg.summary_of_episodes _ _ _ episodes begun written with ⟨message, summary⟩
  let ending : Store.Ending :=
    { total := finish.before.splitter.session.written
      manifest := (finish.before.splitter.buffer.flush Host.scripted.noted
        finish.before.engines).2.1.manifest
      summary := finish.before.splitter.session.summary last.queuedId }
  have marked : finish.mark? Host.scripted.noted = some
      ⟨.closeMessage id ending.total ending.manifest ending.summary, .ok ()⟩ := by
    rw [Episode.mark?, closing, Episode.closed?, closed]
    simp only [message, Option.map_some]
    rfl
  rw [← List.cons_append, ← List.append_assoc] at episodes
  rcases company.told_ends called episodes marked with ⟨before, told⟩
  refine ⟨(MessageRecord.opened id first.opening).close ending.total ending.manifest
    ending.summary, ?_, fun later unclosed => ?_⟩
  · rw [show ending.summary = _ from summary last.queuedId]
    exact tells_closed unambiguous id first last ending.total ending.manifest
  · apply (company.recordAfter_ok_iff later id _).mpr
    apply Chronicle.record?_of_ended
    · rw [List.findSome?_append, said, Option.some_or]
    · have here : Entry.ending? id
          ⟨.closeMessage id ending.total ending.manifest ending.summary, .ok ()⟩ = some ending :=
        if_pos rfl
      rw [Chronicle.endings_append, unclosed, List.append_nil, told, Chronicle.endings_push, here,
        Option.toList_some, List.getLast?_concat]

/-- An envelope with two recipients and an address that cannot be read. -/
def outbound : Envelope where
  mailFrom := "ann@a.org"
  recipients := ["bob@b.org", "carl@c.org"]
  helo := "a.org"
  remoteIp := "1.2.3"
  tls := true

/-- Writes that see other headers every time: no part at first, then an empty subject and somebody
without an address, then better values, and others after that. -/
def reworded : List (Envelope × Bytes) :=
  let shown (headers : List (String × List String)) : Envelope :=
    Envelope.setParts {} [{ node := "1", headers := headers }]
  [(Envelope.setValue {} "spam" (.text "no"), [9]),
    (shown [("subject", [""]), ("To", ["nobody"]), ("FROM", ["Ann <ann@a.org>"])], [3, 4, 3]),
    (shown [("Subject", ["one", "uno"]), ("to", ["Bob <bob@b.org>, carl@c.org"]),
      ("From", ["eve@e.org"])], [3, 4]),
    (shown [("Subject", ["two"]), ("To", ["eve@e.org"])], [])]

/-- A splitter that is asked to make these writes in one message. -/
def rewording : Agent Unit where
  buffer := Buffer.new.capTo 2
  answer data _ := (.ok data.length, ())
  ahead := ()
  tasks := .openMessage outbound.opening :: (writesOf reworded ++ [.closeMessage "q"])

/-- Its calls.  Somebody else closes the message before. -/
def meddling : List (Option Unit × Request) :=
  let manifest : Manifest := ⟨[⟨.of [3, 4], 2, "1", none⟩, ⟨.of [3, 4], 2, "1", none⟩]⟩
  [(some (), ⟨.openMessage outbound.opening, rfl⟩),
    (some (), ⟨.addChunk (.of [3, 4]) [3, 4], rfl⟩),
    (none, ⟨.closeMessage ⟨1⟩ 0 .empty { subject := "none" }, rfl⟩),
    (some (), ⟨.addChunk (.of [3, 4]) [3, 4], rfl⟩),
    (some (), ⟨.addChunk (.of [3, 4]) [3, 4], rfl⟩),
    (some (), ⟨.closeMessage ⟨1⟩ 4 manifest
      { subject := "one"
        queueId := "q"
        recipient := "bob@b.org"
        sender := "ann@a.org" }, rfl⟩)]

theorem rewording_takesPart (maker : Unit) :
    rewording.TakesPart (shareOf (some maker) (Company.minutesInMemory [1] meddling)) := by
  cases maker
  exact ⟨[], List.forall_mem_nil _, by decide +kernel⟩

/-- The splitter and somebody else over one engine, which fails at the second write. -/
def meddled : Company Unit Unit :=
  .inMemory (fun _ => rewording) [1] meddling rewording_takesPart

/-- The record has the first subject that is not empty and the first addresses that are accepted,
also after another message is opened. -/
theorem closed_record_contents_meddled :
    ∃ kept, Tells kept outbound { queuedId := "q" } (firstParts reworded) ∧
      meddled.record ⟨1⟩ = .ok kept ∧
      meddled.recordAfter [⟨.openMessage {}, rfl⟩] ⟨1⟩ = .ok kept ∧
      kept.recipient = "bob@b.org" ∧ kept.remoteIp = none ∧ kept.subject = "one" ∧
      kept.headerTo = "bob@b.org" ∧ kept.headerFrom = "ann@a.org" := by
  have episodes : meddled.episodes () = [] ++ _ :: ([_, _, _, _] ++ [_]) := rfl
  rcases closed_record_contents meddled episodes rfl
    (show _ = Task.openMessage outbound.opening from rfl)
    (show _ = Reply.opened (.ok ⟨1⟩) by decide +kernel) (show _ = writesOf reworded from rfl)
    (show _ = Task.closeMessage (Envelope.queuedId { queuedId := "q" }) from rfl)
    (by decide +kernel) (by decide +kernel) with ⟨kept, tells, record⟩
  have found : meddled.record ⟨1⟩ = .ok kept := record [] rfl
  have shown : (meddled.record ⟨1⟩).toOption.map (fun record =>
      (record.recipient, record.remoteIp, record.subject, record.headerTo, record.headerFrom)) =
        some ("bob@b.org", none, "one", "bob@b.org", "ann@a.org") := by
    decide +kernel
  rw [found] at shown
  simp only [Except.toOption, Option.map_some, Option.some.injEq, Prod.mk.injEq] at shown
  exact ⟨kept, tells, found, record _ rfl, shown⟩

end Transit
end MailVault
