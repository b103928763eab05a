import Mathlib.Algebra.Group.Basic

/-!
# Positional checksums

`checksum f l` adds `f i a` over the symbols `a` of a word `l` at their positions `i`, in a group.
It is a check word by word: replacing one symbol keeps the sum exactly when the two symbols have
one value at that position (`checksum_replace_iff`), swapping two neighbours exactly when their
values add up alike both ways (`checksum_swap_iff`), and where position 0 takes every value once,
each word has one check symbol (`existsUnique_checkSymbol`).
-/

namespace CardBinData.Library

variable {α G : Type*} [AddCommGroup G]

/-- The sum of `f i a` over the symbols `a` at the positions `i` of a word. -/
def checksum (f : Nat → α → G) : List α → G
  | [] => 0
  | a :: l => f 0 a + checksum (fun i => f (i + 1)) l

variable {f : Nat → α → G} {l r : List α} {a b : α}

theorem checksum_append (f : Nat → α → G) (l r : List α) :
    checksum f (l ++ r) = checksum f l + checksum (fun i => f (i + l.length)) r := by
  induction l generalizing f with
  | nil => simp [checksum]
  | cons a l ih =>
    rw [List.cons_append, checksum, checksum, ih, add_assoc]
    simp only [List.length_cons, Nat.add_assoc]

/-- **One symbol replaced.** -/
theorem checksum_replace_iff :
    checksum f (l ++ a :: r) = checksum f (l ++ b :: r) ↔ f l.length a = f l.length b := by
  rw [checksum_append, checksum_append, add_right_inj, checksum, checksum, add_left_inj,
    Nat.zero_add]

/-- **Two neighbours swapped.** -/
theorem checksum_swap_iff :
    checksum f (l ++ a :: b :: r) = checksum f (l ++ b :: a :: r) ↔
      f l.length a + f (l.length + 1) b = f l.length b + f (l.length + 1) a := by
  rw [checksum_append, checksum_append, add_right_inj]
  simp only [checksum, ← add_assoc, add_left_inj, Nat.zero_add, Nat.add_comm 1]

/-- **The check symbol**: where position 0 takes every value once, one symbol makes the sum 0. -/
theorem existsUnique_checkSymbol {S : α → Prop} (h : ∀ g, ∃! a, S a ∧ f 0 a = g) (l : List α) :
    ∃! a, S a ∧ checksum f (a :: l) = 0 := by
  have hzero : ∀ a, checksum f (a :: l) = 0 ↔ f 0 a = -checksum (fun i => f (i + 1)) l := fun a =>
    add_eq_zero_iff_eq_neg
  simp only [hzero]
  exact h _

end CardBinData.Library
