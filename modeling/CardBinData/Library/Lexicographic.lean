import Mathlib.Data.List.Lex
import Mathlib.Order.Lattice

/-!
# Prefixes and padding in the lexicographic order

Facts about lists over a linear order, compared lexicographically.

* `isPrefix_of_le_of_le`: every list between `p` and `p ++ x` starts with `p`. A scan over sorted
  keys that forgets `p` at the first key not starting with it has passed all of `p`'s extensions.
* `append_le_append_iff`: two lists that begin with blocks of one length compare block first.
* `le_of_forall₂`: a list that is pointwise below another of the same length is below it.
* `padRight`: a list filled up to a width; `padRight_take_le` and `le_padRight_of_take` compare a
  list with the padding of its first characters.
-/

namespace CardBinData.Library

variable {α : Type} [LinearOrder α]

theorem cons_le_cons_iff_lex {a b : α} {l m : List α} :
    a :: l ≤ b :: m ↔ a < b ∨ (a = b ∧ l ≤ m) := by
  rw [← not_lt, List.cons_lt_cons_iff, not_or, not_and, not_lt, not_lt]
  constructor
  · rintro ⟨hab, h⟩
    rcases lt_or_eq_of_le hab with hlt | rfl
    · exact Or.inl hlt
    · exact Or.inr ⟨rfl, h rfl⟩
  · rintro (hlt | ⟨rfl, h⟩)
    · exact ⟨hlt.le, fun he => absurd he hlt.ne'⟩
    · exact ⟨le_rfl, fun _ => h⟩

/-- **The interval from `p` to `p ++ x` holds only extensions of `p`.** -/
theorem isPrefix_of_le_of_le {p k x : List α} (h₁ : p ≤ k) (h₂ : k ≤ p ++ x) : p <+: k := by
  induction p generalizing k with
  | nil => exact List.nil_prefix
  | cons a p ih =>
    cases k with
    | nil => exact absurd h₁ (not_le.mpr (List.nil_lt_cons a p))
    | cons b k =>
      rw [List.cons_append] at h₂
      rcases cons_le_cons_iff_lex.mp h₁ with hab | ⟨rfl, hpk⟩
      · rcases cons_le_cons_iff_lex.mp h₂ with hba | ⟨rfl, -⟩
        · exact absurd hba hab.asymm
        · exact absurd hab (lt_irrefl _)
      · rcases cons_le_cons_iff_lex.mp h₂ with haa | ⟨-, hkx⟩
        · exact absurd haa (lt_irrefl _)
        · exact List.cons_prefix_cons.mpr ⟨rfl, ih hpk hkx⟩

/-- A list is below its extensions. -/
theorem le_append_right (p x : List α) : p ≤ p ++ x := by
  induction p with
  | nil => exact not_lt.mp (List.not_lt_nil _)
  | cons a p ih => exact cons_le_cons_iff_lex.mpr (Or.inr ⟨rfl, ih⟩)

/-- A list is above its proper prefixes. -/
theorem take_lt {l : List α} {n : Nat} (h : n < l.length) : l.take n < l := by
  refine lt_of_le_of_ne ?_ fun he => ?_
  · calc l.take n ≤ l.take n ++ l.drop n := le_append_right _ _
      _ = l := List.take_append_drop n l
  · have hlen := congrArg List.length he
    rw [List.length_take] at hlen
    omega

/-- Blocks of one length decide the comparison before what follows them. -/
theorem append_le_append_iff {p q : List α} (h : p.length = q.length) (x y : List α) :
    p ++ x ≤ q ++ y ↔ p < q ∨ (p = q ∧ x ≤ y) := by
  induction p generalizing q with
  | nil =>
    obtain rfl := List.length_eq_zero_iff.mp h.symm
    simp
  | cons a p ih =>
    cases q with
    | nil => exact absurd h (Nat.succ_ne_zero _)
    | cons b q =>
      rw [List.cons_append, List.cons_append, cons_le_cons_iff_lex,
        ih (Nat.succ.inj h), List.cons_lt_cons_iff, List.cons.injEq]
      tauto

/-- A list pointwise below another of the same length is lexicographically below it. -/
theorem le_of_forall₂ {l m : List α} (h : List.Forall₂ (· ≤ ·) l m) : l ≤ m := by
  induction h with
  | nil => exact le_rfl
  | cons hab _ ih =>
    rcases lt_or_eq_of_le hab with hlt | rfl
    · exact cons_le_cons_iff_lex.mpr (Or.inl hlt)
    · exact cons_le_cons_iff_lex.mpr (Or.inr ⟨rfl, ih⟩)

/-- Copies of a lower bound are below any list of that length. -/
theorem replicate_le {lo : α} {l : List α} (h : ∀ a ∈ l, lo ≤ a) :
    List.replicate l.length lo ≤ l := by
  apply le_of_forall₂
  induction l with
  | nil => exact List.Forall₂.nil
  | cons a l ih =>
    exact List.Forall₂.cons (h a List.mem_cons_self)
      (ih fun b hb => h b (List.mem_cons_of_mem a hb))

/-- Copies of an upper bound are above any list of that length. -/
theorem le_replicate {hi : α} {l : List α} (h : ∀ a ∈ l, a ≤ hi) :
    l ≤ List.replicate l.length hi := by
  apply le_of_forall₂
  induction l with
  | nil => exact List.Forall₂.nil
  | cons a l ih =>
    exact List.Forall₂.cons (h a List.mem_cons_self)
      (ih fun b hb => h b (List.mem_cons_of_mem a hb))

/-! ## Padding -/

section Padding

omit [LinearOrder α]

/-- `l` filled with `c` on the right up to width `n`; `l` itself when it is that long already. -/
def padRight (n : Nat) (c : α) (l : List α) : List α :=
  l ++ List.replicate (n - l.length) c

@[simp] theorem length_padRight (n : Nat) (c : α) (l : List α) :
    (padRight n c l).length = max l.length n := by
  simp only [padRight, List.length_append, List.length_replicate]
  omega

theorem padRight_of_length_le {n : Nat} {l : List α} (h : n ≤ l.length) (c : α) :
    padRight n c l = l := by
  simp [padRight, Nat.sub_eq_zero_of_le h]

end Padding

/-- Padding lists of one length keeps their order. -/
theorem padRight_le_padRight {p q : List α} (hlen : p.length = q.length) (h : p ≤ q) {lo hi : α}
    (hlohi : lo ≤ hi) (n : Nat) : padRight n lo p ≤ padRight n hi q := by
  unfold padRight
  rw [hlen]
  refine (append_le_append_iff hlen _ _).mpr ((lt_or_eq_of_le h).imp_right fun heq => ⟨heq, ?_⟩)
  have hpad : List.replicate (List.replicate (n - q.length) hi).length lo ≤
      List.replicate (n - q.length) hi := replicate_le fun a ha =>
    (List.eq_of_mem_replicate ha).ge.trans' hlohi
  rwa [List.length_replicate] at hpad

/-- Padding the first characters of `l` with a lower bound stays below `l`. -/
theorem padRight_take_le {lo : α} {l : List α} (h : ∀ a ∈ l, lo ≤ a) (k : Nat) :
    padRight l.length lo (l.take k) ≤ l := by
  have hlen : l.length - (l.take k).length = (l.drop k).length := by
    rw [List.length_take, List.length_drop]
    omega
  calc padRight l.length lo (l.take k)
      = l.take k ++ List.replicate (l.drop k).length lo := by rw [padRight, hlen]
    _ ≤ l.take k ++ l.drop k :=
        (append_le_append_iff rfl _ _).mpr
          (Or.inr ⟨rfl, replicate_le fun a ha => h a (List.mem_of_mem_drop ha)⟩)
    _ = l := List.take_append_drop k l

/-- A list is below a padded one as soon as its first characters, however continued, are: the
padding is an upper bound of what follows them. -/
theorem le_padRight_of_take {hi : α} {l m x : List α} {k : Nat} (hk : k ≤ l.length)
    (hm : m.length ≤ k) (hl : ∀ a ∈ l.drop k, a ≤ hi)
    (h : l.take k ++ x ≤ padRight l.length hi m) : l ≤ padRight l.length hi m := by
  have hsplit : padRight l.length hi m =
      padRight k hi m ++ List.replicate (l.drop k).length hi := by
    rw [padRight, padRight, List.append_assoc, ← List.replicate_add, List.length_drop]
    congr 2
    omega
  have hlen : (l.take k).length = (padRight k hi m).length := by
    rw [List.length_take, length_padRight]
    omega
  rw [hsplit] at h ⊢
  calc l = l.take k ++ l.drop k := (List.take_append_drop k l).symm
    _ ≤ padRight k hi m ++ List.replicate (l.drop k).length hi :=
        (append_le_append_iff hlen _ _).mpr
          (((append_le_append_iff hlen _ _).mp h).imp_right fun he => ⟨he.1, le_replicate hl⟩)

end CardBinData.Library
