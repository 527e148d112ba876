import Mathlib.Data.List.DropRight
import MailVault.Proofs.Transit.Draft

/-!
# What a buffer does when it is told to

A buffer can be used without a splitter.  Its cap, its store and its label are set at any
time, bytes are written and flushed, and it is emptied to start anew.  What it was told
since the last start is what its manifest and its pending bytes have to account for.

Each order that does not start anew is described here by the bytes that it takes in and
the pieces that it stores, in such a way that the descriptions can be put one behind the
other.  A cap that is lowered below what is pending lets a first piece be larger than the
cap.  Such a piece has all bytes that were pending and no others, so that it is not larger
than the cap under which the last of them came.
-/

namespace MailVault
namespace Transit

open Store (Fault Host)

variable {κ σ : Type}

namespace Buffer

/-! ## Orders -/

inductive Order (κ : Type) where
  | capTo (asked : Nat)
  | setStore (store : κ)
  | relabel (part : Mime.Part)
  | write (data : Bytes)
  | flush
  | reset
  | takeManifest

inductive Response where
  | done
  | written (result : Except Fault Nat)
  | flushed (result : Except Fault Unit)
  | manifest (manifest : Manifest)

namespace Order

def restarts : Order κ → Bool
  | reset => true
  | takeManifest => true
  | _ => false

def labels (order : Order κ) (current : Label) : Label :=
  match order with
  | relabel part => .ofPart part
  | reset => .none
  | takeManifest => .none
  | _ => current

end Order

def follow (buffer : Buffer κ) (host : Host κ σ) (state : σ) :
    Order κ → Response × Buffer κ × σ
  | .capTo asked => (.done, buffer.capTo asked, state)
  | .setStore store => (.done, buffer.setStore store, state)
  | .relabel part => (.done, buffer.relabel part, state)
  | .write data =>
    match buffer.write host data state with
    | (result, buffer, state) => (.written result, buffer, state)
  | .flush =>
    match buffer.flush host state with
    | (result, buffer, state) => (.flushed result, buffer, state)
  | .reset => (.done, buffer.reset, state)
  | .takeManifest => (.manifest buffer.takeManifest.1, buffer.takeManifest.2, state)

/-- An order with the buffer before and after it and with the response. -/
structure Handling (κ : Type) where
  before : Buffer κ
  order : Order κ
  response : Response
  after : Buffer κ

def run (buffer : Buffer κ) (host : Host κ σ) (state : σ) : List (Order κ) → Buffer κ × σ
  | [] => (buffer, state)
  | order :: later =>
    (buffer.follow host state order).2.1.run host (buffer.follow host state order).2.2 later

def handlings (buffer : Buffer κ) (host : Host κ σ) (state : σ) :
    List (Order κ) → List (Handling κ)
  | [] => []
  | order :: later =>
    ⟨buffer, order, (buffer.follow host state order).1, (buffer.follow host state order).2.1⟩ ::
      (buffer.follow host state order).2.1.handlings host (buffer.follow host state order).2.2 later

/-- What came after the buffer was emptied for the last time. -/
def recent (handlings : List (Handling κ)) : List (Handling κ) :=
  handlings.rtakeWhile fun handling => !handling.order.restarts

def currentLabel (handlings : List (Handling κ)) : Label :=
  handlings.foldl (fun current handling => handling.order.labels current) Label.none

namespace Handling

/-- The share of a handling in the bytes of the buffer: the data of a write that succeeds, a first
part of the data of a write that fails, and nothing otherwise. -/
def Takes (handling : Handling κ) (share : Bytes) : Prop :=
  match handling.order, handling.response with
  | .write data, .written (.ok count) => share = data ∧ count = data.length
  | .write data, .written (.error _) => share <+: data
  | _, _ => share = []

/-- The chunk at that place of the manifest is stored. -/
def Stores (handling : Handling κ) (place : Nat) : Prop :=
  handling.before.manifest.size ≤ place ∧ place < handling.after.manifest.size

/-- Bytes of the chunk that gets that place in the manifest are in the buffer: the chunk is not
stored before, and either it is stored now or it is pending afterwards. -/
def Builds (handling : Handling κ) (place : Nat) : Prop :=
  handling.before.manifest.size ≤ place ∧
    (place < handling.after.manifest.size ∨
      place = handling.after.manifest.size ∧ handling.after.pending ≠ [])

end Handling

theorem recent_restart (before : List (Handling κ)) {handling : Handling κ}
    (restarts : handling.order.restarts = true) : recent (before ++ [handling]) = [] := by
  rw [recent, List.rtakeWhile_concat_neg]
  rw [restarts]
  decide

theorem recent_append (before : List (Handling κ)) {handling : Handling κ}
    (goesOn : handling.order.restarts = false) :
    recent (before ++ [handling]) = recent before ++ [handling] := by
  rw [recent, List.rtakeWhile_concat_pos]
  · rfl
  · rw [goesOn]
    rfl

theorem currentLabel_append (before : List (Handling κ)) (handling : Handling κ) :
    currentLabel (before ++ [handling]) = handling.order.labels (currentLabel before) :=
  List.foldl_append

/-! ## Bytes and pieces -/

/-- The way from one buffer to another: bytes are taken in behind those that were pending, and of
all of them some pieces are stored one after the other while the rest is pending. -/
structure Filled (before : Buffer κ) (taken : Bytes) (pieces : List Bytes)
    (after : Buffer κ) : Prop where
  hashed : after.Hashed
  joined : before.pending ++ taken = pieces.flatten ++ after.pending
  entries : after.manifest.entries =
    before.manifest.entries ++ pieces.map (Draft.describe before.label)
  some : ∀ piece ∈ pieces, piece ≠ []
  pieces_le : ∀ place piece, pieces[place]? = .some piece →
    piece.length ≤ after.cap ∨ place = 0 ∧ piece = before.pending
  pending_le : after.pending.length ≤ after.cap ∨
    pieces = [] ∧ after.pending = before.pending

namespace Filled

variable {before after : Buffer κ}

theorem still (hashed : after.Hashed) (pending : after.pending = before.pending)
    (manifest : after.manifest = before.manifest) : Filled before [] [] after where
  hashed := hashed
  joined := by rw [pending, List.append_nil, List.flatten_nil, List.nil_append]
  entries := by rw [manifest, List.map_nil, List.append_nil]
  some := nofun
  pieces_le := nofun
  pending_le := Or.inr ⟨rfl, pending⟩

theorem flushed (hashed : before.Hashed) (some : before.pending ≠ []) :
    Filled before [] [before.pending] before.flushed where
  hashed := hashed_of_empty rfl rfl
  joined := by rw [List.flatten_singleton]; rfl
  entries := by
    change before.manifest.entries ++ [before.descriptor] = _
    rw [Shows.descriptor hashed, List.map_singleton]
  some := List.forall_mem_singleton.mpr some
  pieces_le := by
    intro place piece found
    rw [List.getElem?_singleton] at found
    split at found
    · next first =>
      cases found
      exact Or.inr ⟨first, rfl⟩
    · cases found
  pending_le := Or.inl (Nat.zero_le _)

theorem appended (hashed : before.Hashed) (data : Bytes)
    (fits : (before.append data).pending.length ≤ before.cap ∨ data = []) :
    Filled before data [] (before.append data) where
  hashed := hashed.append data
  joined := rfl
  entries := (List.append_nil _).symm
  some := nofun
  pieces_le := nofun
  pending_le := by
    rcases fits with least | rfl
    · exact Or.inl least
    · exact Or.inr ⟨rfl, List.append_nil _⟩

/-- Two ways one behind the other, when the first one stores a piece at its end and the second one
does not change cap and label. -/
theorem trans_flushed {middle : Buffer κ} {taken more : Bytes} {pieces : List Bytes}
    (first : Filled before taken [] middle) (some : middle.pending ≠ [])
    (label : middle.label = before.label) (cap : after.cap = middle.cap)
    (second : Filled middle.flushed more pieces after) :
    Filled before (taken ++ more) (middle.pending :: pieces) after where
  hashed := second.hashed
  joined := by
    have front : before.pending ++ taken = middle.pending := first.joined
    have rest : more = pieces.flatten ++ after.pending := second.joined
    rw [← List.append_assoc, front, rest, List.flatten_cons, List.append_assoc]
  entries := by
    have stored : middle.flushed.manifest.entries =
        before.manifest.entries ++ [Draft.describe before.label middle.pending] := by
      change middle.manifest.entries ++ [middle.descriptor] = _
      rw [first.entries, Shows.descriptor first.hashed, label, List.map_nil, List.append_nil]
    have same : middle.flushed.label = before.label := label
    rw [second.entries, stored, same, List.append_assoc, List.map_cons]
    rfl
  some := List.forall_mem_cons.mpr ⟨some, second.some⟩
  pieces_le := by
    intro place piece found
    cases place with
    | zero =>
        cases found
        rcases first.pending_le with least | ⟨_, same⟩
        · exact Or.inl (cap ▸ least)
        · exact Or.inr ⟨rfl, same⟩
    | succ place =>
        rw [List.getElem?_cons_succ] at found
        rcases second.pieces_le place piece found with least | ⟨_, nothing⟩
        · exact Or.inl least
        · have empty : piece = [] := nothing
          rw [empty]
          exact Or.inl (Nat.zero_le _)
  pending_le := by
    rcases second.pending_le with least | ⟨_, nothing⟩
    · exact Or.inl least
    · have empty : after.pending = [] := nothing
      rw [empty]
      exact Or.inl (Nat.zero_le _)

end Filled

/-! ## What each order does -/

/-- A buffer is filled up to its cap, or it has no room and nothing is put into it. -/
theorem filled_up (buffer : Buffer κ) (data : Bytes) :
    (buffer.append (data.take buffer.room)).pending.length ≤ buffer.cap ∨
      data.take buffer.room = [] := by
  by_cases full : buffer.cap ≤ buffer.pending.length
  · have none : buffer.room = 0 := Nat.sub_eq_zero_of_le full
    rw [none, List.take_zero]
    exact Or.inr rfl
  · have length := List.length_take_le buffer.room data
    refine Or.inl ?_
    change (buffer.pending ++ data.take buffer.room).length ≤ buffer.cap
    rw [List.length_append]
    unfold room at length ⊢
    omega

/-- Feeding takes a first part of the data, and all of it unless the store fails.  If the store
fails, it does so while the buffer that is left is flushed. -/
theorem feed_filled (buffer : Buffer κ) (host : Host κ σ) (data : Bytes) (state : σ)
    (hashed : buffer.Hashed) :
    let (result, after, now) := buffer.feed host data state
    ∃ taken pieces, Filled buffer taken pieces after ∧ taken <+: data ∧
      after.cap = buffer.cap ∧ after.label = buffer.label ∧
      (result = .ok () → taken = data) ∧
      ∀ fault, result = .error fault →
        ∃ middle, after.flush host middle = (.error fault, after, now) := by
  fun_induction feed buffer host data state with
  | case1 buffer state =>
      refine ⟨[], [], .still hashed rfl rfl, List.nil_prefix, rfl, rfl, fun _ => rfl, ?_⟩
      intro fault same
      cases same
  | case2 buffer data state some short =>
      have fits : (buffer.append data).pending.length ≤ buffer.cap := by
        change (buffer.pending ++ data).length ≤ buffer.cap
        rw [List.length_take] at short
        rw [List.length_append]
        unfold room at short
        omega
      refine ⟨data, [], .appended hashed data (Or.inl fits), List.prefix_rfl, rfl, rfl,
        fun _ => rfl, ?_⟩
      intro fault same
      cases same
  | case3 buffer data state some long full fault after deposited =>
      have refused : full.flush host state = (.error fault, full, after) := by
        rw [flush, if_neg (buffer.filled_ne_nil some), deposited]
      refine ⟨data.take buffer.room, [], .appended hashed _ (buffer.filled_up data),
        List.take_prefix _ _, rfl, rfl, ?_, ?_⟩
      · intro done
        cases done
      · intro other same
        cases same
        exact ⟨state, refused⟩
  | case4 buffer data state some long full after deposited inductionStep =>
      have front : Filled buffer (data.take buffer.room) [] full :=
        .appended hashed _ (buffer.filled_up data)
      rcases inductionStep (hashed_of_empty rfl rfl) with
        ⟨taken, pieces, rest, part, cap, label, whole, stopped⟩
      refine ⟨data.take buffer.room ++ taken, full.pending :: pieces,
        front.trans_flushed (buffer.filled_ne_nil some) rfl cap rest, ?_, cap, label,
        fun ok => ?_, stopped⟩
      · rcases part with ⟨behind, equal⟩
        exact ⟨behind, by rw [List.append_assoc, equal, List.take_append_drop]⟩
      · rw [whole ok, List.take_append_drop]

/-- A deposit that succeeds has handed the pending bytes to the store of the buffer. -/
theorem deposit_eq_ok {buffer : Buffer κ} {host : Host κ σ} {state now : σ}
    (deposited : buffer.deposit host state = (.ok (), now)) :
    ∃ store known, buffer.store = some store ∧
      host.call store (.addChunk (Digest.ofHasher buffer.hasher) buffer.pending) state =
        (.ok known, now) := by
  unfold deposit at deposited
  cases stored : buffer.store with
  | none =>
      rw [stored] at deposited
      cases deposited
  | some store =>
      rw [stored] at deposited
      rcases called : host.call store
        (.addChunk (Digest.ofHasher buffer.hasher) buffer.pending) state with ⟨answer, after⟩
      simp only [called] at deposited
      cases answer with
      | error fault => cases deposited
      | ok known =>
          cases deposited
          exact ⟨store, known, rfl, called⟩

/-- A flush does nothing when nothing is pending, and otherwise it is a deposit: one that fails
changes nothing, and after one that succeeds the pending bytes are stored. -/
theorem flush_cases (buffer : Buffer κ) (host : Host κ σ) (state : σ) :
    (buffer.pending = [] ∧ buffer.flush host state = (.ok (), buffer, state)) ∨
      buffer.pending ≠ [] ∧
        ((∃ fault now, buffer.flush host state = (.error fault, buffer, now)) ∨
          ∃ now, buffer.deposit host state = (.ok (), now) ∧
            buffer.flush host state = (.ok (), buffer.flushed, now)) := by
  unfold flush
  by_cases none : buffer.pending = []
  · rw [if_pos none]
    exact Or.inl ⟨none, rfl⟩
  · rw [if_neg none]
    rcases buffer.deposit host state with ⟨answer, now⟩
    cases answer with
    | error fault => exact Or.inr ⟨none, Or.inl ⟨fault, now, rfl⟩⟩
    | ok _ => exact Or.inr ⟨none, Or.inr ⟨now, rfl, rfl⟩⟩

/-- A write takes in its share.  If it fails, it does so while the buffer that is left is
flushed. -/
theorem write_filled (buffer : Buffer κ) (host : Host κ σ) (data : Bytes) (state : σ)
    (hashed : buffer.Hashed) :
    let (result, after, now) := buffer.write host data state
    ∃ taken pieces, Filled buffer taken pieces after ∧ after.label = buffer.label ∧
      (⟨buffer, .write data, .written result, after⟩ : Handling κ).Takes taken ∧
      ∀ fault, result = .error fault →
        ∃ middle, after.flush host middle = (.error fault, after, now) := by
  have fed := buffer.feed_filled host data state hashed
  rw [write]
  rcases result : buffer.feed host data state with ⟨answer, after, now⟩
  rw [result] at fed
  rcases fed with ⟨taken, pieces, filled, part, _, label, whole, stopped⟩
  cases answer with
  | error fault =>
      refine ⟨taken, pieces, filled, label, part, fun other same => ?_⟩
      cases same
      exact stopped fault rfl
  | ok _ =>
      refine ⟨taken, pieces, filled, label, ⟨whole rfl, rfl⟩, ?_⟩
      intro fault same
      cases same

/-- An order that does not start anew takes in its share, and chooses its label. -/
theorem follow_filled (buffer : Buffer κ) (host : Host κ σ) (state : σ) {order : Order κ}
    (goesOn : order.restarts = false) (hashed : buffer.Hashed) :
    let (response, after, _) := buffer.follow host state order
    ∃ taken pieces, Filled buffer taken pieces after ∧
      after.label = order.labels buffer.label ∧
      (⟨buffer, order, response, after⟩ : Handling κ).Takes taken := by
  cases order with
  | capTo asked => exact ⟨[], [], .still hashed rfl rfl, rfl, rfl⟩
  | setStore store => exact ⟨[], [], .still hashed rfl rfl, rfl, rfl⟩
  | relabel part => exact ⟨[], [], .still hashed rfl rfl, rfl, rfl⟩
  | reset => cases goesOn
  | takeManifest => cases goesOn
  | write data =>
      have written := buffer.write_filled host data state hashed
      rw [follow]
      rcases answer : buffer.write host data state with ⟨result, after, now⟩
      rw [answer] at written
      rcases written with ⟨taken, pieces, filled, label, takes, _⟩
      exact ⟨taken, pieces, filled, label, takes⟩
  | flush =>
      rw [follow]
      rcases buffer.flush_cases host state with ⟨_, flushed⟩ | ⟨some, refused | stored⟩
      · rw [flushed]
        exact ⟨[], [], .still hashed rfl rfl, rfl, rfl⟩
      · rcases refused with ⟨fault, now, flushed⟩
        rw [flushed]
        exact ⟨[], [], .still hashed rfl rfl, rfl, rfl⟩
      · rcases stored with ⟨now, _, flushed⟩
        rw [flushed]
        exact ⟨[], [buffer.pending], .flushed hashed some, rfl, rfl⟩

end Buffer
end Transit
end MailVault
