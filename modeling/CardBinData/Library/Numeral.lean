import CardBinData.Library.Lexicographic
import Mathlib.Algebra.Group.Nat.Defs
import Mathlib.Data.List.Induction
import Mathlib.Data.Set.Function
import Mathlib.Order.Monotone.Defs

/-!
# Positional numerals

`numeral b digit l` is the number that the digits of `l`, most significant first, write in base
`b`. On words of one length over digits below `b` it is an order isomorphism: the lexicographic
order is the order of the numbers (`numeral_le_numeral`). Filling a word with zeros gives the least
number that begins with it, filling it with the greatest digit the number before the next such
block (`numeral_padRight_zero`, `numeral_padRight_top`), and cutting it is dividing
(`numeral_take`).
-/

namespace CardBinData.Library

/-- The number that `l` writes in base `b`. -/
def numeral {α : Type} (b : Nat) (digit : α → Nat) (l : List α) : Nat :=
  l.foldl (fun n a => b * n + digit a) 0

section Numeral

variable {α : Type} {b : Nat} {digit : α → Nat} {l m : List α} {a : α}

theorem numeral_concat (l : List α) (a : α) :
    numeral b digit (l ++ [a]) = b * numeral b digit l + digit a :=
  List.foldl_concat ..

theorem numeral_append (l m : List α) :
    numeral b digit (l ++ m) = numeral b digit l * b ^ m.length + numeral b digit m := by
  induction m using List.reverseRecOn with
  | nil => simp [numeral]
  | append_singleton m a ih =>
    rw [← List.append_assoc, numeral_concat, ih, numeral_concat, List.length_append,
      List.length_singleton, Nat.pow_succ, Nat.mul_add, Nat.add_assoc, Nat.mul_comm b,
      Nat.mul_assoc]

theorem numeral_cons (a : α) (l : List α) :
    numeral b digit (a :: l) = digit a * b ^ l.length + numeral b digit l := by
  have hone : numeral b digit [a] = digit a := by
    rw [numeral, List.foldl_cons, List.foldl_nil, Nat.mul_zero, Nat.zero_add]
  rw [← List.singleton_append, numeral_append, hone]

theorem numeral_lt (h : ∀ a ∈ l, digit a < b) : numeral b digit l < b ^ l.length := by
  induction l using List.reverseRecOn with
  | nil => exact Nat.one_pos
  | append_singleton l a ih =>
    have hl : numeral b digit l < b ^ l.length := ih fun a' ha' => h a' (List.mem_append_left _ ha')
    have ha : digit a < b := h a (by simp)
    rw [numeral_concat, List.length_append, List.length_singleton, Nat.pow_succ]
    calc b * numeral b digit l + digit a < b * numeral b digit l + b := Nat.add_lt_add_left ha _
      _ = b * (numeral b digit l + 1) := by rw [Nat.mul_add, Nat.mul_one]
      _ ≤ b * b ^ l.length := Nat.mul_le_mul_left b hl
      _ = b ^ l.length * b := Nat.mul_comm _ _

theorem numeral_replicate_zero {zero : α} (hzero : digit zero = 0) (n : Nat) :
    numeral b digit (List.replicate n zero) = 0 := by
  induction n with
  | zero => rfl
  | succ n ih => rw [List.replicate_succ', numeral_concat, ih, hzero, Nat.mul_zero]

theorem numeral_replicate_top {top : α} (htop : digit top + 1 = b) (n : Nat) :
    numeral b digit (List.replicate n top) + 1 = b ^ n := by
  induction n with
  | zero => rfl
  | succ n ih =>
    rw [List.replicate_succ', numeral_concat, Nat.pow_succ, ← ih, Nat.add_mul, Nat.one_mul,
      Nat.mul_comm _ b, Nat.add_assoc, htop]

/-- **The least number of a block.** -/
theorem numeral_padRight_zero {zero : α} (hzero : digit zero = 0) (n : Nat) (l : List α) :
    numeral b digit (padRight n zero l) = numeral b digit l * b ^ (n - l.length) := by
  rw [padRight, numeral_append, numeral_replicate_zero hzero, List.length_replicate, Nat.add_zero]

/-- **The greatest number of a block**, one below the next block. -/
theorem numeral_padRight_top {top : α} (htop : digit top + 1 = b) (n : Nat) (l : List α) :
    numeral b digit (padRight n top l) + 1 = (numeral b digit l + 1) * b ^ (n - l.length) := by
  rw [padRight, numeral_append, Nat.add_assoc, numeral_replicate_top htop, List.length_replicate,
    Nat.add_mul, Nat.one_mul]

/-- **Cutting a word is dividing.** -/
theorem numeral_take (hb : 0 < b) (h : ∀ a ∈ l, digit a < b) (k : Nat) :
    numeral b digit (l.take k) = numeral b digit l / b ^ (l.length - k) := by
  have hsplit : numeral b digit l =
      numeral b digit (l.take k) * b ^ (l.drop k).length + numeral b digit (l.drop k) := by
    rw [← numeral_append, List.take_append_drop]
  have hlow : numeral b digit (l.drop k) < b ^ (l.drop k).length :=
    numeral_lt fun a ha => h a (List.mem_of_mem_drop ha)
  rw [List.length_drop] at hsplit hlow
  rw [hsplit, Nat.mul_comm, Nat.mul_add_div (Nat.pow_pos hb), Nat.div_eq_of_lt hlow, Nat.add_zero]

/-- Blocks of one size compare by their number first. -/
theorem block_le_block_iff {d e x y n : Nat} (hx : x < n) (hy : y < n) :
    d * n + x ≤ e * n + y ↔ d < e ∨ (d = e ∧ x ≤ y) := by
  have hsucc : ∀ {d e : Nat}, d < e → d * n + n ≤ e * n := fun {d e} h => by
    rw [← Nat.succ_mul]
    exact Nat.mul_le_mul_right n h
  rcases Nat.lt_trichotomy d e with h | rfl | h
  · have := hsucc h
    exact ⟨fun _ => Or.inl h, fun _ => by omega⟩
  · simp
  · have := hsucc h
    constructor <;> intro h' <;> omega

variable [LinearOrder α] {S : Set α}

/-- **The lexicographic order of words of one length is the order of their numbers.** -/
theorem numeral_le_numeral (hmono : StrictMonoOn digit S) (hbound : ∀ a ∈ S, digit a < b)
    (hl : ∀ a ∈ l, a ∈ S) (hm : ∀ a ∈ m, a ∈ S) (hlen : l.length = m.length) :
    l ≤ m ↔ numeral b digit l ≤ numeral b digit m := by
  induction l generalizing m with
  | nil =>
    obtain rfl := List.length_eq_zero_iff.mp hlen.symm
    simp
  | cons a l ih =>
    cases m with
    | nil => exact absurd hlen (Nat.succ_ne_zero _)
    | cons c m =>
      obtain ⟨ha, hl⟩ := List.forall_mem_cons.mp hl
      obtain ⟨hc, hm⟩ := List.forall_mem_cons.mp hm
      have hlen := Nat.succ.inj hlen
      have hx : numeral b digit l < b ^ m.length :=
        hlen ▸ numeral_lt fun a ha => hbound a (hl a ha)
      have hy : numeral b digit m < b ^ m.length := numeral_lt fun a ha => hbound a (hm a ha)
      rw [numeral_cons, numeral_cons, hlen, block_le_block_iff hx hy, cons_le_cons_iff_lex,
        ih hl hm hlen, hmono.lt_iff_lt ha hc, hmono.injOn.eq_iff ha hc]

end Numeral

end CardBinData.Library
