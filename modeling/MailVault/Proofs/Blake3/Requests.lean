import Mathlib.Data.List.DropRight
import MailVault.Proofs.Blake3.Incremental

/-!
# What a hasher answers

A hasher is fed, read and reset in any order, and digests of other byte strings are asked
for in between.  Each reading is the digest of one byte string: the slices since the last
reset, joined in their order.  That string is found from the requests alone, without a
look at the tree, and where the slices end plays no part in it.

What is read off a hasher does not change it, so that a reading can be left out of the
requests without a change to any other answer.
-/

namespace MailVault
namespace Blake3

inductive Request where
  /-- Take in a slice. -/
  | update (slice : Bytes)
  /-- Tell the digest of all input since the last reset. -/
  | finalize
  | reset
  /-- Tell the digest of a byte string that is not part of the input. -/
  | digest (content : Bytes)

namespace Request

def resets : Request → Bool
  | reset => true
  | _ => false

def slice? : Request → Option Bytes
  | update slice => some slice
  | _ => none

/-- The requests that only ask for a digest. -/
inductive Reads : Request → Prop where
  | finalize : Reads .finalize
  | digest (content : Bytes) : Reads (.digest content)

end Request

/-- The slices since the last reset, joined in their order. -/
def heard (requests : List Request) : Bytes :=
  ((requests.rtakeWhile fun request => !request.resets).filterMap Request.slice?).flatten

theorem heard_reset (requests : List Request) : heard (requests ++ [.reset]) = [] := by
  rw [heard, List.rtakeWhile_concat_neg _ _ _ (by decide)]
  rfl

theorem heard_append (requests : List Request) {request : Request}
    (goesOn : request.resets = false) :
    heard (requests ++ [request]) = heard requests ++ request.slice?.getD [] := by
  rw [heard, List.rtakeWhile_concat_pos _ _ _ (by rw [goesOn]; rfl), List.filterMap_append,
    List.flatten_append]
  cases slice : request.slice? with
  | none => simp [slice, heard]
  | some data => simp [slice, heard]

theorem heard_of_reads (requests : List Request) {request : Request} (reads : request.Reads) :
    heard (requests ++ [request]) = heard requests := by
  cases reads with
  | finalize => exact (heard_append requests rfl).trans (List.append_nil _)
  | digest content => exact (heard_append requests rfl).trans (List.append_nil _)

namespace Hasher

/-- The answer to a request, and the hasher that is left. -/
def perform (hasher : Hasher) : Request → Option Digest × Hasher
  | .update slice => (none, hasher.update slice)
  | .finalize => (some (Digest.ofHasher hasher), hasher)
  | .reset => (none, empty)
  | .digest content => (some (Digest.of content), hasher)

def after (hasher : Hasher) (requests : List Request) : Hasher :=
  requests.foldl (fun hasher request => (hasher.perform request).2) hasher

def answers (hasher : Hasher) : List Request → List (Option Digest)
  | [] => []
  | request :: later => (hasher.perform request).1 :: (hasher.perform request).2.answers later

theorem answers_append (hasher : Hasher) (first second : List Request) :
    hasher.answers (first ++ second) =
      hasher.answers first ++ (hasher.after first).answers second := by
  induction first generalizing hasher with
  | nil => rfl
  | cons request later inductionStep =>
      rw [List.cons_append, answers, answers, inductionStep, List.cons_append]
      rfl

@[simp] theorem length_answers (hasher : Hasher) (requests : List Request) :
    (hasher.answers requests).length = requests.length := by
  induction requests generalizing hasher with
  | nil => rfl
  | cons request later inductionStep =>
      rw [answers, List.length_cons, List.length_cons, inductionStep]

/-- What was asked before decides about an answer, and what is asked later does not. -/
theorem getElem?_answers (hasher : Hasher) (before later : List Request) (request : Request) :
    (hasher.answers (before ++ request :: later))[before.length]? =
      some ((hasher.after before).perform request).1 := by
  rw [answers_append, List.getElem?_append_right (by rw [length_answers]), length_answers,
    Nat.sub_self, answers]
  rfl

theorem perform_of_reads (hasher : Hasher) {request : Request} (reads : request.Reads) :
    (hasher.perform request).2 = hasher := by
  cases reads with
  | finalize => rfl
  | digest content => rfl

theorem after_append (hasher : Hasher) (requests : List Request) (request : Request) :
    hasher.after (requests ++ [request]) = ((hasher.after requests).perform request).2 :=
  List.foldl_append

/-- A hasher has taken in what was heard since the last reset. -/
theorem hashes_after (requests : List Request) :
    (empty.after requests).Hashes (heard requests) := by
  induction requests using List.reverseRecOn with
  | nil => exact hashes_empty
  | append_singleton before request inductionStep =>
      rw [after_append]
      cases request with
      | update slice =>
          rw [heard_append _ rfl]
          exact inductionStep.update slice
      | finalize =>
          rw [heard_of_reads _ .finalize]
          exact inductionStep
      | reset =>
          rw [heard_reset]
          exact hashes_empty
      | digest content =>
          rw [heard_of_reads _ (.digest content)]
          exact inductionStep

/-- The digest that is read off a hasher is that of the slices since the last reset in one piece. -/
theorem ofHasher_after (requests : List Request) :
    Digest.ofHasher (empty.after requests) = Digest.of (heard requests) := by
  simp only [Digest.ofHasher, Digest.of, (hashes_after requests).finalize_eq]

end Hasher
end Blake3

open Blake3 (Hasher Request heard)

/-- Whatever is asked of a new hasher before and afterwards, a reading is answered with the digest
of the slices since the last reset, joined into one byte string, and a digest that has nothing to
do with the input is that of its own content.  If a request of one of these two kinds is left out,
all other answers stay the same. -/
theorem readings_are_digests (before later : List Request) :
    (Hasher.empty.answers (before ++ .finalize :: later))[before.length]? =
        some (some (Digest.of (heard before))) ∧
      (∀ content, (Hasher.empty.answers (before ++ .digest content :: later))[before.length]? =
        some (some (Digest.of content))) ∧
      ∀ reading : Request, reading.Reads →
        (Hasher.empty.answers (before ++ reading :: later)).eraseIdx before.length =
          Hasher.empty.answers (before ++ later) := by
  refine ⟨?_, fun content => ?_, fun reading reads => ?_⟩
  · rw [Hasher.getElem?_answers, ← Hasher.ofHasher_after]
    rfl
  · rw [Hasher.getElem?_answers]
    rfl
  · rw [Hasher.answers_append, Hasher.answers_append,
      List.eraseIdx_append_of_length_le (by rw [Hasher.length_answers]), Hasher.length_answers,
      Nat.sub_self, Hasher.answers, Hasher.perform_of_reads _ reads]
    rfl

end MailVault
