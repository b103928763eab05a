import CardBinData.Library.Hoare

/-!
# Programs with assertions

`Asserts e x y`: `x` is `y` with assertions put in, where an assertion that fails raises `e`. So
`x` does what `y` does, whatever the state, or it raises `e`. A program keeps that relation when
its parts do (`Asserts.bind`, `Asserts.foldlM`, `Gen.Asserts.transduce`, …), whatever is asserted;
what has to be proved of the assertions is only that the asserted program never raises `e`
(`Asserts.eq_of_triple`), and then both programs are the same.

`Gen.EqOn π v g g'`: the loops over two generators are the same while the part `π` of the state
is `v` and the body of the loop keeps it so. A generator that asserts something about `π` each
time it yields is the same as the plain one, when it holds at `v`.
-/

namespace CardBinData.Library

variable {ε σ α β : Type}

/-- `x` is `y` with assertions that raise `e` when they fail. -/
def Asserts (e : ε) (x y : EStateM ε σ α) : Prop :=
  ∀ s, x s = y s ∨ ∃ s', x s = .error e s'

/-! ## Assertions in a program -/

section Asserts

variable {e : ε}

theorem Asserts.refl (x : EStateM ε σ α) : Asserts e x x := fun _ => Or.inl rfl

theorem Asserts.bind {x y : EStateM ε σ α} {f g : α → EStateM ε σ β} (h : Asserts e x y)
    (hf : ∀ a, Asserts e (f a) (g a)) : Asserts e (x >>= f) (y >>= g) := by
  intro s
  rw [run_bind, run_bind]
  rcases h s with hx | ⟨s', hx⟩
  · rw [hx]
    cases y s with
    | ok a s' => exact hf a s'
    | error e' s' => exact Or.inl rfl
  · rw [hx]
    exact Or.inr ⟨s', rfl⟩

theorem Asserts.foldlM {f g : β → α → EStateM ε σ β} (h : ∀ b a, Asserts e (f b a) (g b a))
    (l : List α) (b : β) : Asserts e (l.foldlM f b) (l.foldlM g b) := by
  induction l generalizing b with
  | nil => exact Asserts.refl _
  | cons a l ih =>
    rw [List.foldlM_cons, List.foldlM_cons]
    exact (h b a).bind ih

theorem Asserts.mapM {f g : α → EStateM ε σ β} (h : ∀ a, Asserts e (f a) (g a)) (l : List α) :
    Asserts e (l.mapM f) (l.mapM g) := by
  induction l with
  | nil => exact Asserts.refl _
  | cons a l ih =>
    rw [List.mapM_cons, List.mapM_cons]
    exact (h a).bind fun _ => ih.bind fun _ => Asserts.refl _

/-- **Where no assertion fails, the asserted program is the plain one.** -/
theorem Asserts.eq_of_triple {x y : EStateM ε σ α} (h : Asserts e x y) {P : σ → Prop}
    {Q : α → σ → Prop} (hx : Triple P x Q fun e' _ => e' ≠ e) {s : σ} (hs : P s) : x s = y s := by
  rcases h s with heq | ⟨s', herror⟩
  · exact heq
  · have hpost := hx s hs
    rw [herror] at hpost
    exact absurd rfl hpost

/-- A generator with assertions: so is every loop over it, whatever its body asserts. -/
def Gen.Asserts (e : ε) (g g' : Gen (EStateM ε σ) α) : Prop :=
  ∀ ⦃β : Type⦄ (f f' : β → α → EStateM ε σ β) (b : β),
    (∀ b a, Library.Asserts e (f b a) (f' b a)) → Library.Asserts e (g.fold f b) (g'.fold f' b)

theorem Gen.Asserts.tap {g g' : Gen (EStateM ε σ) α} (h : g.Asserts e g')
    (action : α → EStateM ε σ Unit) : (g.tap action).Asserts e (g'.tap action) :=
  fun _ _ _ _ hf => h _ _ _ fun b a => (Asserts.refl _).bind fun _ => hf b a

theorem Gen.Asserts.transduce {g g' : Gen (EStateM ε σ) α} (h : g.Asserts e g')
    (t : Transducer α β) : (g.transduce t).Asserts e (g'.transduce t) := by
  intro γ f f' b hf
  refine (h _ _ _ fun p a => ?_).bind fun r => ?_
  · split
    · exact Asserts.refl _
    · exact (hf _ _).bind fun _ => Asserts.refl _
  · split
    · exact Asserts.refl _
    · exact hf _ _

theorem Gen.Asserts.forEach {g g' : Gen (EStateM ε σ) α} (h : g.Asserts e g')
    {body body' : α → EStateM ε σ Unit} (hbody : ∀ a, Library.Asserts e (body a) (body' a)) :
    Library.Asserts e (g.forEach body) (g'.forEach body') :=
  h _ _ _ fun _ a => hbody a

end Asserts

/-! ## Assertions about a part of the state -/

section EqOn

variable {τ : Type} {π : σ → τ} {v : τ}

/-- Programs that begin alike and then go on alike from where they are. -/
theorem bind_eq_of_triple {x : EStateM ε σ α} {f g : α → EStateM ε σ β} {P : σ → Prop}
    {Q : α → σ → Prop} {E : ε → σ → Prop} (hx : Triple P x Q E)
    (h : ∀ a s, Q a s → f a s = g a s) {s : σ} (hs : P s) : (x >>= f) s = (x >>= g) s := by
  have hpost := hx s hs
  rw [run_bind, run_bind]
  cases hrun : x s with
  | ok a s' =>
    rw [hrun] at hpost
    exact h a s' hpost
  | error e s' => rfl

/-- Loops whose bodies are the same at `v`, and keep it. -/
theorem foldlM_eq_of_keeps {f g : β → α → EStateM ε σ β} {l : List α}
    (hg : ∀ b a, Keeps π (g b a)) (h : ∀ a ∈ l, ∀ b s, π s = v → f b a s = g b a s) (b : β)
    {s : σ} (hs : π s = v) : l.foldlM f b s = l.foldlM g b s := by
  induction l generalizing b s with
  | nil => rfl
  | cons a l ih =>
    rw [List.foldlM_cons, List.foldlM_cons, run_bind, h a List.mem_cons_self b s hs, ← run_bind]
    exact bind_eq_of_triple (hg b a v)
      (fun b' s' hs' => ih (fun a' ha' => h a' (List.mem_cons_of_mem a ha')) b' hs') hs

/-- The loops over `g` and `g'` are the same while `π` is `v`. -/
def Gen.EqOn (π : σ → τ) (v : τ) (g g' : Gen (EStateM ε σ) α) : Prop :=
  ∀ ⦃β : Type⦄ (f : β → α → EStateM ε σ β) (b : β), (∀ b a, Library.Keeps π (f b a)) →
    ∀ s, π s = v → g.fold f b s = g'.fold f b s

theorem Gen.EqOn.transduce {g g' : Gen (EStateM ε σ) α} (h : g.EqOn π v g') (t : Transducer α β) :
    (g.transduce t).EqOn π v (g'.transduce t) := by
  intro γ f b hf s hs
  unfold Gen.transduce
  simp only
  rw [run_bind, run_bind, h _ _ (fun p a => ?_) s hs]
  split
  · exact keeps_pure _
  · exact keeps_bind (hf _ _) fun _ => keeps_pure _

theorem Gen.EqOn.forEach {g g' : Gen (EStateM ε σ) α} (h : g.EqOn π v g')
    {body : α → EStateM ε σ Unit} (hbody : ∀ a, Library.Keeps π (body a)) {s : σ} (hs : π s = v) :
    g.forEach body s = g'.forEach body s :=
  h _ _ (fun _ a => hbody a) s hs

end EqOn

end CardBinData.Library
