import Mathlib.Data.List.Basic

/-!
# Generators and stream transducers

A generator that may act on the world before each value it yields is given by its loop:
`Gen.fold f b` runs `for a in g: b = f(b, a)`, with the generator's own effects and those of the
body interleaved as they happen. `Gen.ofList l` yields `l` and does nothing else.

A `Transducer` turns one stream into another, keeping a state and yielding at most one value for
each value it reads and one more at the end. `Gen.transduce` runs it lazily on a generator,
`Transducer.run` on a list; `transduce_ofList` says that the two agree.

* `Transducer.batches n`: lists of `n` consecutive values, the last one possibly shorter.
  `flatten_run_batches`: batching loses, duplicates and reorders nothing.
* `Transducer.mapAccum`: one value out for each value in, with a state carried along.
-/

namespace CardBinData.Library

/-- A generator of `α`s with effects in `m`, given by the loop over it. -/
structure Gen (m : Type → Type) (α : Type) where
  fold : {β : Type} → (β → α → m β) → β → m β

/-- A stream transducer: at most one output for each input, and one at the end. -/
structure Transducer (α β : Type) where
  State : Type
  init : State
  step : State → α → State × Option β
  flush : State → Option β

variable {α β γ : Type}

namespace Transducer

/-- The outputs of a transducer from state `s` on a list. -/
def run (t : Transducer α β) : t.State → List α → List β
  | s, [] => (t.flush s).toList
  | s, a :: l => (t.step s a).2.toList ++ t.run (t.step s a).1 l

/-- Lists of `n` consecutive values, the last one possibly shorter. -/
def batches (α : Type) (n : Nat) : Transducer α (List α) where
  State := List α
  init := []
  step batch a :=
    if (batch ++ [a]).length = n then ([], some (batch ++ [a])) else (batch ++ [a], none)
  flush batch := if batch.isEmpty then none else some batch

/-- One output for each input, with a state carried along. -/
def mapAccum {σ : Type} (f : σ → α → σ × β) (s : σ) : Transducer α β where
  State := σ
  init := s
  step s a := ((f s a).1, some (f s a).2)
  flush _ := none

theorem run_mapAccum_cons {σ : Type} (f : σ → α → σ × β) (s₀ s : σ) (a : α) (l : List α) :
    (mapAccum f s₀).run s (a :: l) = (f s a).2 :: (mapAccum f s₀).run (f s a).1 l := rfl

/-- **The invariant rule of a stateful map**: `Inv done s` holds when `done` has been read and the
state is `s`; every output is related to its input by what the step proves from the invariant. -/
theorem run_mapAccum_forall₂ {σ : Type} {f : σ → α → σ × β} {s₀ : σ} {l : List α}
    {Inv : List α → σ → Prop} {R : α → β → Prop} (h₀ : Inv [] s₀)
    (h : ∀ done a rest s, l = done ++ a :: rest → Inv done s →
      Inv (done ++ [a]) (f s a).1 ∧ R a (f s a).2) :
    List.Forall₂ R l ((mapAccum f s₀).run s₀ l) := by
  suffices H : ∀ rest done s, l = done ++ rest → Inv done s →
      List.Forall₂ R rest ((mapAccum f s₀).run s rest) from H l [] s₀ rfl h₀
  intro rest
  induction rest with
  | nil => exact fun _ _ _ _ => List.Forall₂.nil
  | cons a rest ih =>
    intro done s hl hs
    obtain ⟨hinv, hR⟩ := h done a rest s hl hs
    rw [run_mapAccum_cons]
    exact List.Forall₂.cons hR (ih (done ++ [a]) _ (by simpa using hl) hinv)

theorem run_batches_nil (n : Nat) (batch : List α) :
    (batches α n).run batch [] = if batch.isEmpty then [] else [batch] := by
  change (if batch.isEmpty then none else some batch).toList = _
  split <;> rfl

theorem run_batches_cons (n : Nat) (batch : List α) (a : α) (l : List α) :
    (batches α n).run batch (a :: l) =
      if (batch ++ [a]).length = n then (batch ++ [a]) :: (batches α n).run [] l
      else (batches α n).run (batch ++ [a]) l := by
  change ((batches α n).step batch a).2.toList ++
    (batches α n).run ((batches α n).step batch a).1 l = _
  by_cases h : (batch ++ [a]).length = n
  · simp only [batches, if_pos h, Option.toList_some, List.singleton_append]
  · simp only [batches, if_neg h, Option.toList_none, List.nil_append]

theorem flatten_run_batches (n : Nat) (batch l : List α) :
    ((batches α n).run batch l).flatten = batch ++ l := by
  induction l generalizing batch with
  | nil =>
    rw [run_batches_nil]
    cases batch <;> simp
  | cons a l ih =>
    rw [run_batches_cons]
    split
    · rw [List.flatten_cons, ih, List.nil_append, List.append_assoc, List.singleton_append]
    · rw [ih, List.append_assoc, List.singleton_append]

theorem ne_nil_of_mem_run_batches {n : Nat} {batch l b : List α}
    (h : b ∈ (batches α n).run batch l) : b ≠ [] := by
  induction l generalizing batch with
  | nil =>
    rw [run_batches_nil] at h
    cases batch with
    | nil => exact absurd h List.not_mem_nil
    | cons a batch =>
      rw [List.mem_singleton.mp h]
      exact List.cons_ne_nil a batch
  | cons a l ih =>
    rw [run_batches_cons] at h
    split at h
    · rcases List.mem_cons.mp h with rfl | h
      · simp
      · exact ih h
    · exact ih h

/-- No batch has length 0, so batches of that size are not cut. -/
theorem run_batches_zero {l : List α} (hl : l ≠ []) : (batches α 0).run [] l = [l] := by
  have h : ∀ (l batch : List α), batch ++ l ≠ [] → (batches α 0).run batch l = [batch ++ l] := by
    intro l
    induction l with
    | nil =>
      intro batch hne
      rw [List.append_nil] at hne
      rw [run_batches_nil, if_neg (by simpa using hne), List.append_nil]
    | cons a l ih =>
      intro batch _
      rw [run_batches_cons, if_neg (by simp), ih _ (by simp), List.append_assoc,
        List.singleton_append]
  exact h l [] hl

end Transducer

/-- A loop whose steps only compute, computes. -/
theorem mapM_eq_pure_map {m : Type → Type} [Monad m] [LawfulMonad m] {f : α → m β} {g : α → β}
    {l : List α} (h : ∀ a ∈ l, f a = pure (g a)) : l.mapM f = pure (l.map g) := by
  induction l with
  | nil => rfl
  | cons a l ih =>
    rw [List.mapM_cons, h a List.mem_cons_self, pure_bind,
      ih fun b hb => h b (List.mem_cons_of_mem a hb), pure_bind, List.map_cons]

namespace Gen

variable {m : Type → Type} [Monad m]

/-- The generator of a list. -/
def ofList (l : List α) : Gen m α := ⟨fun f b => l.foldlM f b⟩

/-- Run a transducer on a generator, as the values come. -/
def transduce (t : Transducer α β) (g : Gen m α) : Gen m β :=
  ⟨fun f b => do
    let r ← g.fold (fun (p : t.State × _) a => do
      match (t.step p.1 a).2 with
      | none => pure ((t.step p.1 a).1, p.2)
      | some x => do
        let b ← f p.2 x
        pure ((t.step p.1 a).1, b)) (t.init, b)
    match t.flush r.1 with
    | none => pure r.2
    | some x => f r.2 x⟩

/-- The same values, each after an action of its own. -/
def tap (g : Gen m α) (action : α → m Unit) : Gen m α :=
  ⟨fun f b => g.fold (fun b a => do
    action a
    f b a) b⟩

/-- `for a in g: body(a)`. -/
def forEach (g : Gen m α) (body : α → m Unit) : m Unit := g.fold (fun _ a => body a) ()

/-- Everything an effect-free generator yields. -/
def toList (g : Gen Id α) : List α := g.fold (fun acc a => acc ++ [a]) []

theorem toList_ofList (l : List α) : (ofList l : Gen Id α).toList = l := by
  suffices h : ∀ acc : List α,
      List.foldlM (m := Id) (fun acc a => acc ++ [a]) acc l = acc ++ l from h []
  induction l with
  | nil => simp [pure]
  | cons a l ih =>
    intro acc
    simp only [List.foldlM_cons]
    exact (ih (acc ++ [a])).trans (by simp)

/-- **On a list, the lazy transducer yields what the transducer computes.** -/
theorem transduce_ofList [LawfulMonad m] (t : Transducer α β) (l : List α) :
    (ofList l : Gen m α).transduce t = ofList (t.run t.init l) := by
  have h : ∀ (γ : Type) (f : γ → β → m γ) (l : List α) (s : t.State) (c : γ),
      (do
        let r ← l.foldlM (fun (p : t.State × γ) a => do
          match (t.step p.1 a).2 with
          | none => pure ((t.step p.1 a).1, p.2)
          | some x => do
            let b ← f p.2 x
            pure ((t.step p.1 a).1, b)) (s, c)
        match t.flush r.1 with
        | none => pure r.2
        | some x => f r.2 x) = (t.run s l).foldlM f c := by
    intro γ f l
    induction l with
    | nil =>
      intro s c
      simp only [List.foldlM_nil, pure_bind, Transducer.run]
      cases t.flush s <;> simp
    | cons a l ih =>
      intro s c
      simp only [List.foldlM_cons, Transducer.run]
      cases hstep : (t.step s a).2 with
      | none => simpa using ih (t.step s a).1 c
      | some x =>
        simp only [Option.toList_some, List.singleton_append, List.foldlM_cons, bind_assoc,
          pure_bind]
        exact bind_congr fun b => ih (t.step s a).1 b
  simp only [transduce, ofList]
  congr 1
  funext γ f c
  exact h γ f l t.init c

end Gen

end CardBinData.Library
