import Mathlib.Data.List.Basic

/-!
# Simulation of traces

A machine answers each input and moves on; a specification allows an output for an input and says
what may come after. `explains_trace`: when every step of the machine is one that the specification
allows, along a relation between the states, the specification explains every trace of the machine.
`Explains.forall_outputs`: what the specification ensures of each output, given the trace before it,
holds of every trace it explains.
-/

namespace CardBinData.Library

variable {σ τ ι ο : Type}

/-- The inputs of a run, each with its output. -/
def trace (step : σ → ι → ο × σ) : List ι → σ → List (ι × ο)
  | [], _ => []
  | i :: rest, s => (i, (step s i).1) :: trace step rest (step s i).2

/-- The specification goes through the trace. -/
def Explains (allows : τ → ι → ο → τ → Prop) : τ → List (ι × ο) → Prop
  | _, [] => True
  | t, (i, o) :: rest => ∃ t', allows t i o t' ∧ Explains allows t' rest

/-- **A step lemma gives every trace.** -/
theorem explains_trace {step : σ → ι → ο × σ} {allows : τ → ι → ο → τ → Prop}
    {R : σ → τ → Prop}
    (hstep : ∀ s t i, R s t → ∃ t', allows t i (step s i).1 t' ∧ R (step s i).2 t')
    (inputs : List ι) {s : σ} {t : τ} (h : R s t) :
    Explains allows t (trace step inputs s) := by
  induction inputs generalizing s t with
  | nil => trivial
  | cons i rest ih =>
    obtain ⟨t', hallows, hrest⟩ := hstep s t i h
    exact ⟨t', hallows, ih hrest⟩

/-- **What the specification ensures step by step holds along a trace.** -/
theorem Explains.forall_outputs {allows : τ → ι → ο → τ → Prop} {I : List (ι × ο) → τ → Prop}
    {P : List (ι × ο) → ι × ο → Prop}
    (hstep : ∀ done t i o t', I done t → allows t i o t' →
      P done (i, o) ∧ I (done ++ [(i, o)]) t') {entries : List (ι × ο)} {t : τ} (h₀ : I [] t)
    (h : Explains allows t entries) :
    ∀ before e after, entries = before ++ e :: after → P before e := by
  suffices H : ∀ before done entries t, I done t → Explains allows t entries →
      ∀ e after, entries = before ++ e :: after → P (done ++ before) e from
    fun before => H before [] entries t h₀ h
  intro before
  induction before with
  | nil =>
    rintro done _ t hinv h ⟨i, o⟩ after rfl
    obtain ⟨t', hallows, -⟩ := h
    rw [List.append_nil]
    exact (hstep done t i o t' hinv hallows).1
  | cons first before ih =>
    rintro done _ t hinv h e after rfl
    obtain ⟨t', hallows, hrest⟩ := h
    rw [List.append_cons]
    exact ih (done ++ [first]) _ t' (hstep done t _ _ t' hinv hallows).2 hrest e after rfl

end CardBinData.Library
