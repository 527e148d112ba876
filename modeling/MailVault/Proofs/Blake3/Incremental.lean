import Mathlib.Algebra.Group.Nat.Defs
import MailVault.Blake3.Hasher
import MailVault.Chunk.Digest

/-!
# Input in pieces hashes as input in one piece

A hasher that has finished some leaves keeps one chaining value for each binary
digit of their number.  The row of these values is described here as a function
of the finished bytes alone, so that it can be compared with the recursion that
defines the hash.  Finishing one more leaf is then a carry, and reading the digest
joins the row with the last leaf into the tree over all of the input.
-/

namespace MailVault
namespace Blake3

/-- The number of bytes in a full subtree of `2 ^ level` leaves. -/
def span (level : Nat) : Nat :=
  leafSize * 2 ^ level

theorem span_pos (level : Nat) : 0 < span level :=
  Nat.mul_pos (by decide) (Nat.pow_pos (by decide))

theorem span_succ (level : Nat) : span (level + 1) = span level + span level := by
  rw [span, span, Nat.pow_succ, ← Nat.mul_assoc]
  omega

theorem double_span (half level : Nat) : 2 * half * span level = half * span (level + 1) := by
  rw [span_succ, Nat.mul_comm 2 half, Nat.mul_assoc, Nat.two_mul]

theorem double_leaves (half level : Nat) : 2 * half * 2 ^ level = half * 2 ^ (level + 1) := by
  rw [Nat.pow_succ, Nat.mul_comm (2 ^ level) 2, ← Nat.mul_assoc, Nat.mul_comm half 2]

/-- More than one full subtree and at most two: the left child is a full subtree. -/
theorem leftSize_eq_span {length level : Nat}
    (more : span level < length) (most : length ≤ span level + span level) :
    leftSize length = span level := by
  have leaves : Nat.log2 ((length - 1) / leafSize) = level := by
    have lower : 2 ^ level ≤ (length - 1) / leafSize := by
      apply (Nat.le_div_iff_mul_le (by decide)).mpr
      rw [Nat.mul_comm]
      change span level ≤ length - 1
      omega
    have upper : (length - 1) / leafSize < 2 ^ (level + 1) := by
      apply (Nat.div_lt_iff_lt_mul (by decide)).mpr
      rw [Nat.mul_comm]
      change length - 1 < span (level + 1)
      rw [span_succ]
      omega
    have positive : (length - 1) / leafSize ≠ 0 :=
      Nat.ne_of_gt (Nat.lt_of_lt_of_le (Nat.pow_pos (by decide)) lower)
    exact (Nat.log2_eq_iff positive).mpr ⟨lower, upper⟩
  rw [leftSize, leaves, Nat.shiftLeft_eq, span]

/-- A full subtree and what follows it, at most as large, are the children of one node. -/
theorem subtree_append (level index : Nat) {left right : Bytes}
    (full : left.length = span level)
    (some : 0 < right.length) (most : right.length ≤ span level) :
    subtree index (left ++ right) =
      parent (subtree index left).compress (subtree (index + 2 ^ level) right).compress := by
  have large : ¬ (left ++ right).length ≤ leafSize := by
    have leaf : leafSize ≤ span level := Nat.le_mul_of_pos_right _ (Nat.pow_pos (by decide))
    rw [List.length_append]
    omega
  have size : leftSize (left ++ right).length = span level := by
    rw [List.length_append]
    apply leftSize_eq_span <;> omega
  have count : span level / leafSize = 2 ^ level :=
    Nat.mul_div_cancel_left _ (by decide)
  rw [subtree, if_neg large, size, count, ← full, List.take_left, List.drop_left]

/-- The chaining values of the full subtrees over `count` subtrees of a level, the last one
first: one for each binary digit of `count` that is set. -/
def towers (level count : Nat) (input : Bytes) : List ChainingValue :=
  if count = 0 then []
  else if count % 2 = 0 then towers (level + 1) (count / 2) input
  else
    (subtree ((count - 1) * 2 ^ level) (input.drop ((count - 1) * span level))).compress ::
      towers (level + 1) (count / 2) (input.take ((count - 1) * span level))
termination_by count

theorem towers_zero (level : Nat) (input : Bytes) : towers level 0 input = [] := by
  rw [towers, if_pos rfl]

theorem towers_even (level half : Nat) (input : Bytes) :
    towers level (2 * half) input = towers (level + 1) half input := by
  rw [towers]
  by_cases none : half = 0
  · rw [if_pos (by omega), none, towers_zero]
  · rw [if_neg (by omega), if_pos (by omega), Nat.mul_div_cancel_left _ (by decide)]

theorem towers_odd (level half : Nat) {input last : Bytes}
    (full : input.length = 2 * half * span level) :
    towers level (2 * half + 1) (input ++ last) =
      (subtree (2 * half * 2 ^ level) last).compress :: towers (level + 1) half input := by
  have halved : (2 * half + 1) / 2 = half := by omega
  rw [towers, if_neg (by omega), if_neg (by omega), Nat.add_sub_cancel, ← full,
    List.take_left, List.drop_left, halved]

theorem even_or_odd (count : Nat) :
    (∃ half, count = 2 * half) ∨ ∃ half, count = 2 * half + 1 := by
  rcases Nat.mod_two_eq_zero_or_one count with even | odd
  · exact Or.inl ⟨count / 2, by omega⟩
  · exact Or.inr ⟨count / 2, by omega⟩

/-- The input below an odd count is the input below the even one with a last subtree. -/
theorem exists_last_tower {level half : Nat} {input : Bytes}
    (length : input.length = (2 * half + 1) * span level) :
    ∃ before last, input = before ++ last ∧
      before.length = 2 * half * span level ∧ last.length = span level := by
  rw [Nat.add_mul, Nat.one_mul] at length
  refine ⟨input.take (2 * half * span level), input.drop (2 * half * span level),
    (List.take_append_drop _ _).symm, ?_, ?_⟩
  · rw [List.length_take]
    omega
  · rw [List.length_drop]
    omega

/-- A further full subtree joins the row as a carry. -/
theorem carry_towers (level count : Nat) {input block : Bytes}
    (length : input.length = count * span level) (full : block.length = span level) :
    Hasher.carry (towers level count input) (subtree (count * 2 ^ level) block).compress
        (count + 1) =
      towers level (count + 1) (input ++ block) := by
  rcases even_or_odd count with ⟨half, rfl⟩ | ⟨half, rfl⟩
  · rw [towers_odd level half length, towers_even]
    cases towers (level + 1) half input with
    | nil => rfl
    | cons top rest =>
        rw [Hasher.carry, if_neg (by omega)]
  · rcases exists_last_tower length with ⟨before, last, rfl, beforeLength, lastLength⟩
    have index : (2 * half + 1) * 2 ^ level = half * 2 ^ (level + 1) + 2 ^ level := by
      rw [Nat.add_mul, Nat.one_mul, double_leaves]
    have joined := subtree_append level (half * 2 ^ (level + 1)) lastLength
      (by rw [full]; exact span_pos level) (Nat.le_of_eq full)
    have doubledFull : (last ++ block).length = span (level + 1) := by
      rw [List.length_append, lastLength, full, span_succ]
    have next :=
      carry_towers (level + 1) half (beforeLength.trans (double_span half level)) doubledFull
    have halved : (2 * half + 1 + 1) / 2 = half + 1 := by omega
    have doubled : 2 * half + 1 + 1 = 2 * (half + 1) := by omega
    rw [towers_odd level half beforeLength, Hasher.carry, if_pos (by omega), halved, index,
      double_leaves, ← joined, next, doubled, towers_even, List.append_assoc]
termination_by count
decreasing_by omega

/-- Joining a last node with the row from its end gives the tree over everything. -/
theorem join_towers (level count : Nat) {input tail : Bytes}
    (length : input.length = count * span level)
    (some : 0 < tail.length) (most : tail.length ≤ span level) :
    (towers level count input).foldl (fun right left => parent left right.compress)
        (subtree (count * 2 ^ level) tail) =
      subtree 0 (input ++ tail) := by
  by_cases none : count = 0
  · subst none
    have empty : input = [] := List.eq_nil_of_length_eq_zero (by omega)
    rw [towers_zero, empty, List.foldl_nil, Nat.zero_mul, List.nil_append]
  · rcases even_or_odd count with ⟨half, rfl⟩ | ⟨half, rfl⟩
    · rw [towers_even, double_leaves]
      exact join_towers (level + 1) half (length.trans (double_span half level)) some
        (by rw [span_succ]; omega)
    · rcases exists_last_tower length with ⟨before, last, rfl, beforeLength, lastLength⟩
      have index : (2 * half + 1) * 2 ^ level = half * 2 ^ (level + 1) + 2 ^ level := by
        rw [Nat.add_mul, Nat.one_mul, double_leaves]
      rw [towers_odd level half beforeLength, List.foldl_cons, index, double_leaves,
        ← subtree_append level _ lastLength some most, List.append_assoc]
      apply join_towers (level + 1) half (beforeLength.trans (double_span half level))
      · rw [List.length_append]
        omega
      · rw [List.length_append, span_succ]
        omega
termination_by count
decreasing_by all_goals omega

namespace Hasher

/-- The state of a hasher that has taken in exactly this input, in whatever pieces. -/
structure Hashes (hasher : Hasher) (input : Bytes) : Prop where
  finished : ∃ full, input = full ++ hasher.pending ∧
    full.length = hasher.leaves * leafSize ∧ hasher.stack = towers 0 hasher.leaves full
  pending_le : hasher.pending.length ≤ leafSize
  pending_pos : hasher.leaves = 0 ∨ 0 < hasher.pending.length

theorem hashes_empty : empty.Hashes [] where
  finished := ⟨[], rfl, rfl, (towers_zero 0 []).symm⟩
  pending_le := Nat.zero_le _
  pending_pos := Or.inl rfl

/-- Finished leaves followed by any further input, as long as there is some. -/
theorem hashes_absorb (hasher : Hasher) (full input : Bytes)
    (length : full.length = hasher.leaves * leafSize)
    (stack : hasher.stack = towers 0 hasher.leaves full)
    (some : hasher.leaves = 0 ∨ 0 < input.length) :
    (hasher.absorb input).Hashes (full ++ input) := by
  fun_induction absorb hasher input generalizing full with
  | case1 hasher input small => exact ⟨⟨full, rfl, length, stack⟩, small, some⟩
  | case2 hasher input large inductionStep =>
      have leafLength : (input.take leafSize).length = leafSize := by
        rw [List.length_take]
        omega
      have leafNode : leaf hasher.leaves (input.take leafSize) =
          subtree (hasher.leaves * 2 ^ 0) (input.take leafSize) := by
        rw [subtree, if_pos (Nat.le_of_eq leafLength), Nat.pow_zero, Nat.mul_one]
      have carried : (hasher.pushLeaf (input.take leafSize)).stack =
          towers 0 (hasher.leaves + 1) (full ++ input.take leafSize) := by
        rw [pushLeaf, stack, leafNode]
        apply carry_towers 0
        · rw [length, span, Nat.pow_zero, Nat.mul_one]
        · rw [leafLength, span, Nat.pow_zero, Nat.mul_one]
      have rest := inductionStep (full ++ input.take leafSize)
        (by rw [List.length_append, length, leafLength, pushLeaf, Nat.add_mul, Nat.one_mul])
        carried
        (Or.inr (by rw [List.length_drop]; omega))
      rwa [List.append_assoc, List.take_append_drop] at rest

theorem Hashes.update {hasher : Hasher} {input : Bytes}
    (hashes : hasher.Hashes input) (data : Bytes) :
    (hasher.update data).Hashes (input ++ data) := by
  rcases hashes.finished with ⟨full, equal, length, stack⟩
  have some : hasher.leaves = 0 ∨ 0 < (hasher.pending ++ data).length := by
    rw [List.length_append]
    rcases hashes.pending_pos with none | positive
    · exact Or.inl none
    · exact Or.inr (by omega)
  rw [equal, List.append_assoc]
  exact hashes_absorb hasher full _ length stack some

/-- What is read off a hasher is the digest of the input that it has taken in. -/
theorem Hashes.finalize_eq {hasher : Hasher} {input : Bytes}
    (hashes : hasher.Hashes input) : hasher.finalize = digest input := by
  rcases hashes.finished with ⟨full, rfl, length, stack⟩
  have last : leaf hasher.leaves hasher.pending =
      subtree (hasher.leaves * 2 ^ 0) hasher.pending := by
    rw [subtree, if_pos hashes.pending_le, Nat.pow_zero, Nat.mul_one]
  have joined : hasher.node = subtree 0 (full ++ hasher.pending) := by
    rw [node, stack, last]
    rcases hashes.pending_pos with none | positive
    · have empty : full = [] := List.eq_nil_of_length_eq_zero (by rw [length, none, Nat.zero_mul])
      rw [none, empty, towers_zero, List.foldl_nil, Nat.zero_mul, List.nil_append]
    · apply join_towers 0 hasher.leaves
      · rw [length, span, Nat.pow_zero, Nat.mul_one]
      · exact positive
      · rw [span, Nat.pow_zero, Nat.mul_one]
        exact hashes.pending_le
  rw [finalize, digest, joined]

/-- What was pending does not matter to bytes that replace it. -/
theorem absorb_of_pending (hasher : Hasher) (pending input : Bytes) :
    absorb { hasher with pending := pending } input = hasher.absorb input := by
  rw [absorb.eq_def, absorb.eq_def hasher input]
  rfl

theorem absorb_append (hasher : Hasher) (first second : Bytes) :
    (hasher.absorb first).absorb ((hasher.absorb first).pending ++ second) =
      hasher.absorb (first ++ second) := by
  fun_induction absorb hasher first with
  | case1 hasher first small => rw [absorb_of_pending]
  | case2 hasher first large inductionStep =>
      have larger : ¬ (first ++ second).length ≤ leafSize := by
        rw [List.length_append]
        omega
      rw [inductionStep, absorb.eq_def hasher (first ++ second), if_neg larger,
        List.take_append_of_le_length (by omega), List.drop_append_of_le_length (by omega)]

@[simp] theorem update_update (hasher : Hasher) (first second : Bytes) :
    (hasher.update first).update second = hasher.update (first ++ second) := by
  rw [update, update, update, absorb_append, List.append_assoc]

@[simp] theorem update_empty_nil : empty.update [] = empty := by
  rw [update, absorb]
  rfl

end Hasher
end Blake3

theorem Digest.ofHasher_update (content : Bytes) :
    Digest.ofHasher (Blake3.Hasher.empty.update content) = Digest.of content := by
  have hashes := Blake3.Hasher.hashes_empty.update content
  simp only [Digest.ofHasher, Digest.of, hashes.finalize_eq, List.nil_append]

end MailVault
