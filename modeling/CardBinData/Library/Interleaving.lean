import CardBinData.Library.Grouping
import Mathlib.Data.List.Dedup

/-!
# Interleavings

`Interleaves key l l'`: the elements of each key stand in the same order in both lists. The lists
are then permutations of each other (`Interleaves.perm`), and whatever reads one of them key by key
reads the other alike (`Interleaves.findSome?`, `Interleaves.find?`).

* `interleaves_flatMap`: blocks without a common key may be laid out in any order.
-/

namespace CardBinData.Library

variable {α β κ : Type} [DecidableEq κ]

/-- The elements of each key stand in the same order. -/
def Interleaves (key : α → κ) (l l' : List α) : Prop :=
  ∀ k, l.filter (fun a => decide (key a = k)) = l'.filter fun a => decide (key a = k)

section Rules

variable {key : α → κ} {l l' : List α} (h : Interleaves key l l')
include h

theorem Interleaves.perm : l.Perm l' := by
  let keys := (l.map key ++ l'.map key).dedup
  have hmem : ∀ a ∈ l, key a ∈ keys := fun a ha =>
    List.mem_dedup.mpr (List.mem_append_left _ (List.mem_map_of_mem ha))
  have hmem' : ∀ a ∈ l', key a ∈ keys := fun a ha =>
    List.mem_dedup.mpr (List.mem_append_right _ (List.mem_map_of_mem ha))
  have hgroups := flatMap_filter_perm (List.nodup_dedup _) hmem
  have hgroups' := flatMap_filter_perm (List.nodup_dedup _) hmem'
  simp only [h _] at hgroups
  exact hgroups.symm.trans hgroups'

theorem Interleaves.filter (p : α → Bool) : Interleaves key (l.filter p) (l'.filter p) := by
  intro k
  rw [List.filter_comm, h k, List.filter_comm]

theorem Interleaves.map {φ : α → α} (hφ : ∀ a, key (φ a) = key a) :
    Interleaves key (l.map φ) (l'.map φ) := by
  intro k
  have hcomp : (fun a => decide (key a = k)) ∘ φ = fun a => decide (key a = k) :=
    funext fun a => by rw [Function.comp, hφ]
  rw [List.filter_map, List.filter_map, hcomp, h k]

/-- The first element of a key is the same. -/
theorem Interleaves.find? (k : κ) :
    l.find? (fun a => decide (key a = k)) = l'.find? fun a => decide (key a = k) := by
  rw [← List.head?_filter, ← List.head?_filter, h k]

/-- A scan for the elements of one key finds the same. -/
theorem Interleaves.findSome? (k : κ) (g : α → Option β) :
    (l.findSome? fun a => if key a = k then g a else none) =
      l'.findSome? fun a => if key a = k then g a else none := by
  have hscan : ∀ m : List α, (m.findSome? fun a => if key a = k then g a else none) =
      (m.filter fun a => decide (key a = k)).findSome? g := by
    intro m
    induction m with
    | nil => rfl
    | cons a m ih =>
      rw [List.findSome?_cons, List.filter_cons]
      by_cases ha : key a = k
      · rw [if_pos ha, if_pos (decide_eq_true ha), List.findSome?_cons, ih]
      · rw [if_neg ha, if_neg (by simpa using ha), ih]
  rw [hscan, hscan, h k]

end Rules

/-- Blocks of which at most one is not empty may be laid out in any order. -/
theorem flatMap_eq_of_perm {f : α → List β} {l l' : List α} (h : l.Perm l')
    (hl : l.Pairwise fun a b => f a = [] ∨ f b = []) : l.flatMap f = l'.flatMap f := by
  induction h with
  | nil => rfl
  | cons a _ ih => rw [List.flatMap_cons, List.flatMap_cons, ih (List.pairwise_cons.mp hl).2]
  | swap a b l =>
    have hab := (List.pairwise_cons.mp hl).1 a List.mem_cons_self
    simp only [List.flatMap_cons]
    rcases hab with hab | hab <;> simp [hab]
  | trans h₁ _ ih₁ ih₂ => exact (ih₁ hl).trans (ih₂ (h₁.pairwise hl fun hab => hab.symm))

/-- **Blocks without a common key may be laid out in any order.** -/
theorem interleaves_flatMap {f : α → List β} {key : β → κ} {l l' : List α} (h : l.Perm l')
    (hl : l.Pairwise fun a b => ∀ x ∈ f a, ∀ y ∈ f b, key x ≠ key y) :
    Interleaves key (l.flatMap f) (l'.flatMap f) := by
  intro k
  rw [List.filter_flatMap, List.filter_flatMap]
  refine flatMap_eq_of_perm h (hl.imp fun {a b} hab => ?_)
  by_contra hne
  obtain ⟨hna, hnb⟩ := not_or.mp hne
  obtain ⟨x, hx⟩ := List.exists_mem_of_ne_nil _ hna
  obtain ⟨y, hy⟩ := List.exists_mem_of_ne_nil _ hnb
  obtain ⟨hx, hkx⟩ := List.mem_filter.mp hx
  obtain ⟨hy, hky⟩ := List.mem_filter.mp hy
  exact hab x hx y hy ((of_decide_eq_true hkx).trans (of_decide_eq_true hky).symm)

end CardBinData.Library
