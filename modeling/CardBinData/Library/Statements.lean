import Mathlib.Data.List.Basic

/-!
# Programs of statements

`Program σ ρ` executes statements in `σ` and goes on with their results in `ρ`; it says nothing of
what a statement does, so that the statements of several programs can be interleaved. Loops are
folds over what comes after them.

* `All`: every statement the program may still execute satisfies a predicate. `all_foldr_mem` and
  `of_all_foldr` are its rules for loops.
* `Ensures`: given what one statement may do to a state, the state in which the program commits
  satisfies a predicate. `ensures_foldr` is the rule for loops.
-/

namespace CardBinData.Library

/-- A program that commits, raises, or executes a statement and goes on with its result. -/
inductive Program (σ ρ : Type) where
  | commit
  | raise
  | execute (statement : σ) (next : ρ → Program σ ρ)

namespace Program

variable {σ ρ δ α : Type}

/-- Every statement of the program satisfies `P`, whatever the results before it. -/
def All (P : σ → Prop) : Program σ ρ → Prop
  | commit => True
  | raise => True
  | execute statement next => P statement ∧ ∀ result, (next result).All P

/-- From `d` the program commits in states that satisfy `Q` only. -/
def Ensures (Effect : σ → δ → ρ → δ → Prop) (Q : δ → Prop) : Program σ ρ → δ → Prop
  | commit, d => Q d
  | raise, _ => True
  | execute statement next, d =>
    ∀ result d', Effect statement d result d' → (next result).Ensures Effect Q d'

theorem all_foldr {P : σ → Prop} {body : α → Program σ ρ → Program σ ρ} {next : Program σ ρ}
    (hbody : ∀ a next, next.All P → (body a next).All P) (hnext : next.All P) (l : List α) :
    (l.foldr body next).All P := by
  induction l with
  | nil => exact hnext
  | cons a l ih => exact hbody a _ ih

theorem all_foldr_mem {P : σ → Prop} {body : α → Program σ ρ → Program σ ρ}
    {next : Program σ ρ} {l : List α}
    (hbody : ∀ a ∈ l, ∀ next, next.All P → (body a next).All P) (hnext : next.All P) :
    (l.foldr body next).All P := by
  induction l with
  | nil => exact hnext
  | cons a l ih =>
    exact hbody a List.mem_cons_self _ (ih fun b hb => hbody b (List.mem_cons_of_mem a hb))

/-- What the statements of each round say of its element. -/
theorem of_all_foldr {P : σ → Prop} {Q : α → Prop} {body : α → Program σ ρ → Program σ ρ}
    {next : Program σ ρ} {l : List α}
    (hbody : ∀ a ∈ l, ∀ next, (body a next).All P → Q a ∧ next.All P)
    (h : (l.foldr body next).All P) : (∀ a ∈ l, Q a) ∧ next.All P := by
  induction l with
  | nil => exact ⟨fun a ha => absurd ha List.not_mem_nil, h⟩
  | cons a l ih =>
    obtain ⟨ha, hrest⟩ := hbody a List.mem_cons_self _ h
    obtain ⟨hl, hnext⟩ := ih (fun b hb => hbody b (List.mem_cons_of_mem a hb)) hrest
    exact ⟨List.forall_mem_cons.mpr ⟨ha, hl⟩, hnext⟩

/-- **The loop rule**: each round extends the invariant by its element. -/
theorem ensures_foldr {Effect : σ → δ → ρ → δ → Prop} {Q : δ → Prop}
    {body : α → Program σ ρ → Program σ ρ} {next : Program σ ρ} {l : List α}
    {I : List α → δ → Prop}
    (hbody : ∀ done a rest next d, l = done ++ a :: rest → I done d →
      (∀ d', I (done ++ [a]) d' → next.Ensures Effect Q d') → (body a next).Ensures Effect Q d)
    (hnext : ∀ d, I l d → next.Ensures Effect Q d) {d : δ} (h : I [] d) :
    (l.foldr body next).Ensures Effect Q d := by
  -- what is left of the list, behind what is done
  have hrest : ∀ rest done d, l = done ++ rest → I done d →
      (rest.foldr body next).Ensures Effect Q d := by
    intro rest
    induction rest with
    | nil =>
      intro done d hl hd
      rw [List.append_nil] at hl
      exact hnext d (hl ▸ hd)
    | cons a rest ih =>
      intro done d hl hd
      refine hbody done a rest _ d hl hd fun d' hd' => ih (done ++ [a]) d' ?_ hd'
      rw [hl, List.append_assoc, List.singleton_append]
  exact hrest l [] d rfl h

end Program

end CardBinData.Library
