import CardBinData.Library.Stream
import Mathlib.Data.List.Induction

/-!
# Triples for programs that may raise

A program of type `EStateM ε σ α` acts on a state `σ` and either returns or raises; the state at
the raise is kept, as an exception keeps what was done before it. `Triple P x Q E`: from a state
satisfying `P`, a return of `x` satisfies `Q` and a raise satisfies `E`. Both outcomes are in one
triple, so what holds when something fails is proved along the same lines as what holds when
nothing does.

* one rule for each way of building a program: `Triple.pure`, `Triple.raise`, `Triple.bind`,
  `Triple.withFinally`, and `Triple.foldlM`, the rule for a loop with an invariant over the
  elements done so far;
* `Keeps π x`: `x` leaves the part `π` of the state alone whatever its outcome (`keeps_bind`,
  `keeps_foldlM`, …);
* `Yields`: the loop rule of a generator. The elements come from a list; the generator's own
  steps in between change the state only by `Quiet` and may raise (`Own`). `Yields.transduce`:
  a transducer on top has the same rule for what it computes, and `Yields.forEach_batches` is the
  rule of a loop over batches;
* `Gen.Moves`: the loop over a generator takes the part `π` of the state from one value to
  another, whatever its body does elsewhere. `Yields.moves_tap`: so does a generator whose
  elements are counted as they pass.
-/

namespace CardBinData.Library

variable {ε σ α β γ : Type}

/-- What an outcome satisfies. -/
def Post (r : EStateM.Result ε σ α) (Q : α → σ → Prop) (E : ε → σ → Prop) : Prop :=
  match r with
  | .ok a s => Q a s
  | .error e s => E e s

/-- From `P`, a return satisfies `Q` and a raise satisfies `E`. -/
def Triple (P : σ → Prop) (x : EStateM ε σ α) (Q : α → σ → Prop) (E : ε → σ → Prop) : Prop :=
  ∀ s, P s → Post (x s) Q E

/-- `try: x finally: fin`. -/
def withFinally (x : EStateM ε σ α) (fin : EStateM ε σ Unit) : EStateM ε σ α := fun s =>
  match x s with
  | .ok a s =>
    match fin s with
    | .ok _ s => .ok a s
    | .error e s => .error e s
  | .error e s =>
    match fin s with
    | .ok _ s => .error e s
    | .error e' s => .error e' s

/-- The state in which a program ends, however it ends. -/
def finalState : EStateM.Result ε σ α → σ
  | .ok _ s => s
  | .error _ s => s

/-- The program returns, and `p` holds of what it returns: a postcondition that can be computed. -/
def returns (r : EStateM.Result ε σ α) (p : α → σ → Bool) : Bool :=
  match r with
  | .ok a s => p a s
  | .error _ _ => false

/-- The program returns. -/
def Completes (r : EStateM.Result ε σ α) : Prop := ∃ a s, r = .ok a s

theorem completes_of_returns {r : EStateM.Result ε σ α} {p : α → σ → Bool}
    (h : returns r p = true) : Completes r := by
  cases r with
  | ok a s => exact ⟨a, s, rfl⟩
  | error e s => exact absurd h (by simp [returns])

/-- When both programs return, `Q` relates what they leave. -/
def PostBoth (r : EStateM.Result ε σ α) (r' : EStateM.Result ε σ β)
    (Q : α → σ → β → σ → Prop) : Prop :=
  match r, r' with
  | .ok a s, .ok b s' => Q a s b s'
  | _, _ => True

/-! ## Evaluation -/

theorem run_bind (x : EStateM ε σ α) (f : α → EStateM ε σ β) (s : σ) :
    (x >>= f) s = match x s with
      | .ok a s => f a s
      | .error e s => .error e s := by
  change EStateM.bind x f s = _
  unfold EStateM.bind
  cases x s <;> rfl

/-- What comes last decides the state in which a `finally` ends. -/
theorem finalState_withFinally (x : EStateM ε σ α) (fin : EStateM ε σ Unit) (s : σ) :
    finalState (withFinally x fin s) = finalState (fin (finalState (x s))) := by
  unfold withFinally
  cases x s with
  | ok a s' => cases h : fin s' <;> simp only [h, finalState]
  | error e s' => cases h : fin s' <;> simp only [h, finalState]

/-! ## Rules -/

section Rules

variable {P P' : σ → Prop} {Q Q' : α → σ → Prop} {E E' : ε → σ → Prop} {x : EStateM ε σ α}

theorem Post.mono {r : EStateM.Result ε σ α} (h : Post r Q E) (hQ : ∀ a s, Q a s → Q' a s)
    (hE : ∀ e s, E e s → E' e s) : Post r Q' E' := by
  cases r with
  | ok a s => exact hQ a s h
  | error e s => exact hE e s h

theorem PostBoth.mono {r : EStateM.Result ε σ α} {r' : EStateM.Result ε σ β}
    {Q Q' : α → σ → β → σ → Prop} (h : PostBoth r r' Q)
    (hQ : ∀ a s b s', Q a s b s' → Q' a s b s') : PostBoth r r' Q' := by
  cases r with
  | error e s => trivial
  | ok a s =>
    cases r' with
    | error e s' => trivial
    | ok b s' => exact hQ a s b s' h

/-- Two runs, each with its own postcondition, are related by both. -/
theorem Post.both {r : EStateM.Result ε σ α} {r' : EStateM.Result ε σ β}
    {S : β → σ → Prop} {F : ε → σ → Prop} {R : α → σ → β → σ → Prop} (h : Post r Q E)
    (h' : Post r' S F) (hR : ∀ a s b s', Q a s → S b s' → R a s b s') : PostBoth r r' R := by
  cases r with
  | error e s => trivial
  | ok a s =>
    cases r' with
    | error e s' => trivial
    | ok b s' => exact hR a s b s' h h'

/-- A program that returns otherwise does not satisfy a postcondition. -/
theorem not_post_of_returns {r : EStateM.Result ε σ α} {p : α → σ → Bool}
    (hr : returns r p = true) (hQ : ∀ a s, p a s = true → ¬ Q a s) : ¬ Post r Q E := by
  cases r with
  | ok a s => exact hQ a s hr
  | error e s => exact absurd hr (by simp [returns])

theorem Triple.conseq (h : Triple P x Q E) (hP : ∀ s, P' s → P s)
    (hQ : ∀ a s, Q a s → Q' a s) (hE : ∀ e s, E e s → E' e s) : Triple P' x Q' E' :=
  fun s hs => (h s (hP s hs)).mono hQ hE

theorem Triple.and (h : Triple P x Q E) (h' : Triple P' x Q' E') :
    Triple (fun s => P s ∧ P' s) x (fun a s => Q a s ∧ Q' a s) fun e s => E e s ∧ E' e s := by
  intro s hs
  have h₁ := h s hs.1
  have h₂ := h' s hs.2
  unfold Post at h₁ h₂ ⊢
  cases hx : x s with
  | ok a s' => rw [hx] at h₁ h₂; exact ⟨h₁, h₂⟩
  | error e s' => rw [hx] at h₁ h₂; exact ⟨h₁, h₂⟩

theorem Triple.pure {a : α} (h : ∀ s, P s → Q a s) :
    Triple P (Pure.pure a : EStateM ε σ α) Q E :=
  h

theorem Triple.raise {e : ε} (h : ∀ s, P s → E e s) :
    Triple P (throw e : EStateM ε σ α) Q E :=
  h

theorem Triple.bind {f : α → EStateM ε σ β} {R : β → σ → Prop} (h : Triple P x Q E)
    (hf : ∀ a, Triple (Q a) (f a) R E) : Triple P (x >>= f) R E := by
  intro s hs
  have h₁ := h s hs
  rw [run_bind]
  unfold Post at h₁
  cases hx : x s with
  | ok a s' => rw [hx] at h₁; exact hf a s' h₁
  | error e s' => rw [hx] at h₁; exact h₁

theorem Triple.withFinally {fin : EStateM ε σ Unit} {Q₀ : α → σ → Prop} {E₀ : ε → σ → Prop}
    (h : Triple P x Q₀ E₀)
    (hok : ∀ a, Triple (Q₀ a) fin (fun _ => Q a) E)
    (herr : ∀ e, Triple (E₀ e) fin (fun _ => E e) E) :
    Triple P (withFinally x fin) Q E := by
  intro s hs
  have h₁ := h s hs
  unfold Library.withFinally
  cases hx : x s with
  | ok a s' =>
    rw [hx] at h₁
    have h₂ := hok a s' h₁
    cases hf : fin s' with
    | ok _ s'' => simp only [hf] at h₂ ⊢; exact h₂
    | error e s'' => simp only [hf] at h₂ ⊢; exact h₂
  | error e s' =>
    rw [hx] at h₁
    have h₂ := herr e s' h₁
    cases hf : fin s' with
    | ok _ s'' => simp only [hf] at h₂ ⊢; exact h₂
    | error e' s'' => simp only [hf] at h₂ ⊢; exact h₂

/-- A program that reads the state first is proved for the state it reads. -/
theorem Triple.getBind {f : σ → EStateM ε σ α}
    (h : ∀ w, P w → Post (f w w) Q E) : Triple P (get >>= f) Q E :=
  fun w hw => h w hw

theorem Triple.modify {f : σ → σ} {Q : Unit → σ → Prop} (h : ∀ w, P w → Q () (f w)) :
    Triple P (modify f : EStateM ε σ Unit) Q E :=
  fun w hw => h w hw

/-- **The loop rule**: `Inv done b` holds when the loop has done `done` and accumulated `b`. -/
theorem Triple.foldlM {f : β → α → EStateM ε σ β} {l : List α} {Inv : List α → β → σ → Prop}
    (h : ∀ done a rest b, l = done ++ a :: rest →
      Triple (Inv done b) (f b a) (fun b' => Inv (done ++ [a]) b') E) (b : β) :
    Triple (Inv [] b) (l.foldlM f b) (fun b' => Inv l b') E := by
  suffices H : ∀ rest done b, l = done ++ rest →
      Triple (Inv done b) (rest.foldlM f b) (fun b' => Inv l b') E from H l [] b rfl
  intro rest
  induction rest with
  | nil =>
    intro done b hl
    rw [List.append_nil] at hl
    rw [List.foldlM_nil]
    exact Triple.pure fun s hs => hl ▸ hs
  | cons a rest ih =>
    intro done b hl
    rw [List.foldlM_cons]
    exact (h done a rest b hl).bind fun b' => ih (done ++ [a]) b' (by simpa using hl)

end Rules

/-! ## Frames -/

section Frames

variable {τ : Type} {π : σ → τ}

/-- `x` leaves the part `π` of the state alone. -/
def Keeps (π : σ → τ) (x : EStateM ε σ α) : Prop :=
  ∀ v, Triple (fun s => π s = v) x (fun _ s => π s = v) fun _ s => π s = v

theorem keeps_pure (a : α) : Keeps π (pure a : EStateM ε σ α) := fun _ => Triple.pure fun _ h => h

theorem Keeps.finalState {x : EStateM ε σ α} (h : Keeps π x) (s : σ) :
    π (finalState (x s)) = π s := by
  have hs := h (π s) s rfl
  unfold Post at hs
  cases hx : x s <;> rw [hx] at hs <;> exact hs

theorem keeps_raise (e : ε) : Keeps π (throw e : EStateM ε σ α) :=
  fun _ => Triple.raise fun _ h => h

theorem keeps_get : Keeps π (get : EStateM ε σ σ) := fun _ _ h => h

theorem keeps_modify {f : σ → σ} (h : ∀ w, π (f w) = π w) :
    Keeps π (modify f : EStateM ε σ Unit) :=
  fun _ => Triple.modify fun w hw => (h w).trans hw

theorem keeps_getBind {f : σ → EStateM ε σ α}
    (h : ∀ w, Post (f w w) (fun _ s => π s = π w) fun _ s => π s = π w) :
    Keeps π (get >>= f) :=
  fun _ => Triple.getBind fun w hw => (h w).mono (fun _ _ hs => hs.trans hw)
    fun _ _ hs => hs.trans hw

/-- **The frame rule**: what `x` keeps may stand beside any triple about it. -/
theorem Triple.frame {P : σ → Prop} {Q : α → σ → Prop} {E : ε → σ → Prop} {x : EStateM ε σ α}
    (h : Triple P x Q E) (hx : Keeps π x) (v : τ) :
    Triple (fun s => P s ∧ π s = v) x (fun a s => Q a s ∧ π s = v) E :=
  (h.and (hx v)).conseq (fun _ hs => hs) (fun _ _ hs => hs) fun _ _ hs => hs.1

theorem keeps_bind {x : EStateM ε σ α} {f : α → EStateM ε σ β} (hx : Keeps π x)
    (hf : ∀ a, Keeps π (f a)) : Keeps π (x >>= f) :=
  fun v => (hx v).bind fun a => hf a v

theorem keeps_foldlM {f : β → α → EStateM ε σ β} (h : ∀ b a, Keeps π (f b a)) (l : List α)
    (b : β) : Keeps π (l.foldlM f b) := by
  intro v
  let Inv : List α → β → σ → Prop := fun _ _ s => π s = v
  have hstep : ∀ done a rest b, l = done ++ a :: rest →
      Triple (Inv done b) (f b a) (fun b' => Inv (done ++ [a]) b') fun _ s => π s = v :=
    fun _ a _ b _ => h b a v
  exact Triple.foldlM hstep b

theorem keeps_withFinally {x : EStateM ε σ α} {fin : EStateM ε σ Unit} (hx : Keeps π x)
    (hfin : Keeps π fin) : Keeps π (withFinally x fin) :=
  fun v => (hx v).withFinally (fun _ => hfin v) fun _ => hfin v

/-- A generator whose own steps leave `π` alone. -/
def Gen.Keeps (π : σ → τ) (g : Gen (EStateM ε σ) α) : Prop :=
  ∀ ⦃β : Type⦄ (f : β → α → EStateM ε σ β) (b : β),
    (∀ b a, Library.Keeps π (f b a)) → Library.Keeps π (g.fold f b)

theorem Gen.Keeps.tap {g : Gen (EStateM ε σ) α} (h : g.Keeps π) {action : α → EStateM ε σ Unit}
    (haction : ∀ a, Library.Keeps π (action a)) : (g.tap action).Keeps π :=
  fun _ _ _ hf => h _ _ fun b a => keeps_bind (haction a) fun _ => hf b a

theorem Gen.Keeps.forEach {g : Gen (EStateM ε σ) α} (h : g.Keeps π) {body : α → EStateM ε σ Unit}
    (hbody : ∀ a, Library.Keeps π (body a)) : Library.Keeps π (g.forEach body) :=
  h _ _ fun _ a => hbody a

theorem Gen.Keeps.transduce {g : Gen (EStateM ε σ) α} (h : g.Keeps π) (t : Transducer α β) :
    (g.transduce t).Keeps π := by
  intro γ f b hf
  refine keeps_bind (h _ _ fun p a => ?_) fun r => ?_
  · split
    · exact keeps_pure _
    · exact keeps_bind (hf _ _) fun _ => keeps_pure _
  · split
    · exact keeps_pure _
    · exact hf _ _

end Frames

/-! ## Generators -/

/-- **The loop rule of a generator.** From a state satisfying `P` the elements of `l` come in
order; in between the generator moves the state by `Quiet` only, and what it raises itself
satisfies `Own`. -/
def Yields (Quiet : σ → σ → Prop) (Own : ε → Prop) (P : σ → Prop)
    (g : Gen (EStateM ε σ) α) (l : List α) : Prop :=
  ∀ ⦃β : Type⦄ (f : β → α → EStateM ε σ β) (Inv : List α → β → σ → Prop) (E : ε → σ → Prop),
    (∀ done b s s', Quiet s s' → Inv done b s → Inv done b s') →
    (∀ done b s e s', Quiet s s' → Inv done b s → Own e → E e s') →
    (∀ done a rest b, l = done ++ a :: rest →
      Triple (Inv done b) (f b a) (fun b' => Inv (done ++ [a]) b') E) →
    ∀ b, Triple (fun s => P s ∧ Inv [] b s) (g.fold f b) (fun b' => Inv l b') E

theorem Yields.conseq {Quiet : σ → σ → Prop} {Own : ε → Prop} {P P' : σ → Prop}
    {g : Gen (EStateM ε σ) α} {l : List α} (h : Yields Quiet Own P g l) (hP : ∀ s, P' s → P s) :
    Yields Quiet Own P' g l := fun _ f Inv E hquiet hown hf b =>
  (h f Inv E hquiet hown hf b).conseq (fun s hs => ⟨hP s hs.1, hs.2⟩) (fun _ _ hs => hs)
    fun _ _ hs => hs

/-- A generator that moves the state less yields the same. -/
theorem Yields.mono {Quiet Quiet' : σ → σ → Prop} {Own : ε → Prop} {P : σ → Prop}
    {g : Gen (EStateM ε σ) α} {l : List α} (h : Yields Quiet Own P g l)
    (hQ : ∀ s s', Quiet s s' → Quiet' s s') : Yields Quiet' Own P g l :=
  fun _ f Inv E hquiet hown hf b =>
    h f Inv E (fun done b s s' hq => hquiet done b s s' (hQ s s' hq))
      (fun done b s e s' hq => hown done b s e s' (hQ s s' hq)) hf b

namespace Transducer

/-- The state after reading `l`. -/
def after (t : Transducer α β) (s : t.State) (l : List α) : t.State :=
  l.foldl (fun s a => (t.step s a).1) s

/-- The outputs while reading `l`, without the last one. -/
def outputs (t : Transducer α β) : t.State → List α → List β
  | _, [] => []
  | s, a :: l => (t.step s a).2.toList ++ t.outputs (t.step s a).1 l

theorem after_snoc (t : Transducer α β) (s : t.State) (l : List α) (a : α) :
    t.after s (l ++ [a]) = (t.step (t.after s l) a).1 := by
  simp [after]

theorem outputs_append (t : Transducer α β) (s : t.State) (l₁ l₂ : List α) :
    t.outputs s (l₁ ++ l₂) = t.outputs s l₁ ++ t.outputs (t.after s l₁) l₂ := by
  induction l₁ generalizing s with
  | nil => rfl
  | cons a l₁ ih =>
    rw [List.cons_append]
    simp only [outputs, ih, List.append_assoc]
    rfl

theorem run_eq_outputs (t : Transducer α β) (s : t.State) (l : List α) :
    t.run s l = t.outputs s l ++ (t.flush (t.after s l)).toList := by
  induction l generalizing s with
  | nil => rfl
  | cons a l ih =>
    simp only [run, outputs, ih, List.append_assoc]
    rfl

/-- What has come out so far is where the outputs begin. -/
theorem outputs_prefix_run (t : Transducer α β) (s : t.State) {l l' : List α} (h : l <+: l') :
    t.outputs s l <+: t.run s l' := by
  obtain ⟨rest, rfl⟩ := h
  rw [run_eq_outputs, outputs_append, List.append_assoc]
  exact List.prefix_append _ _

/-- The batch that is being filled when `l` has been read. -/
def pending (n : Nat) (l : List α) : List α := (batches α n).after (batches α n).init l

theorem pending_snoc (n : Nat) (l : List α) (a : α) :
    pending n (l ++ [a]) =
      if (pending n l ++ [a]).length = n then [] else pending n l ++ [a] := by
  refine (after_snoc (batches α n) (batches α n).init l a).trans ?_
  change (if (pending n l ++ [a]).length = n then ([], some (pending n l ++ [a]))
    else (pending n l ++ [a], none)).1 = _
  split <;> rfl

/-- It ends what has been read. -/
theorem pending_suffix (n : Nat) (l : List α) : pending n l <:+ l := by
  induction l using List.reverseRecOn with
  | nil => exact List.suffix_rfl
  | append_singleton l a ih =>
    rw [pending_snoc]
    split
    · exact List.nil_suffix
    · obtain ⟨before, hbefore⟩ := ih
      exact ⟨before, by rw [← List.append_assoc, hbefore]⟩

theorem length_pending {n : Nat} (hn : 0 < n) (l : List α) : (pending n l).length < n := by
  induction l using List.reverseRecOn with
  | nil => exact hn
  | append_singleton l a ih =>
    rw [pending_snoc]
    split
    · exact hn
    · rename_i hne
      rw [List.length_append, List.length_singleton] at hne ⊢
      omega

end Transducer

/-- **A transducer on a generator yields what it computes.** -/
theorem Yields.transduce {Quiet : σ → σ → Prop} {Own : ε → Prop} {P : σ → Prop}
    {g : Gen (EStateM ε σ) α} {l : List α} (h : Yields Quiet Own P g l) (t : Transducer α β) :
    Yields Quiet Own P (g.transduce t) (t.run t.init l) := by
  intro γ f Inv E hquiet hown hf b
  have hstep : ∀ done a rest, l = done ++ a :: rest → ∀ x,
      (t.step (t.after t.init done) a).2 = some x →
      ∃ tail, t.run t.init l = t.outputs t.init done ++ x :: tail := by
    intro done a rest hl x hx
    refine ⟨t.outputs (t.step (t.after t.init done) a).1 rest ++
      (t.flush (t.after t.init l)).toList, ?_⟩
    rw [Transducer.run_eq_outputs]
    conv_lhs => rw [hl, Transducer.outputs_append, Transducer.outputs, hx]
    rw [← hl]
    simp
  -- the invariant of the inner loop: the transducer's state, and the outputs done so far
  refine (h (fun (p : t.State × γ) a => _)
    (fun done p s => p.1 = t.after t.init done ∧ Inv (t.outputs t.init done) p.2 s) E
    (fun done p s s' hq hi => ⟨hi.1, hquiet _ _ s s' hq hi.2⟩)
    (fun done p s e s' hq hi => hown _ _ s e s' hq hi.2) ?_ (t.init, b)).conseq
    (fun s hs => ⟨hs.1, rfl, hs.2⟩) (fun _ _ hq => hq) (fun _ _ he => he) |>.bind fun r => ?_
  · intro done a rest p hl
    rw [Transducer.after_snoc, Transducer.outputs_append, Transducer.outputs, Transducer.outputs,
      List.append_nil]
    intro s hs
    obtain ⟨hp, hi⟩ := hs
    rw [hp]
    cases hout : (t.step (t.after t.init done) a).2 with
    | none =>
      simp only [Option.toList_none, List.append_nil]
      exact ⟨rfl, hi⟩
    | some x =>
      obtain ⟨tail, htail⟩ := hstep done a rest hl x hout
      simp only [Option.toList_some]
      exact (hf _ x tail p.2 htail).bind (fun b' => Triple.pure fun _ hb => ⟨rfl, hb⟩) s hi
  · intro s hs
    obtain ⟨hr, hi⟩ := hs
    rw [hr, Transducer.run_eq_outputs]
    cases hfl : t.flush (t.after t.init l) with
    | none =>
      simp only [Option.toList_none, List.append_nil]
      exact hi
    | some x =>
      simp only [Option.toList_some]
      refine hf _ x [] r.2 ?_ s hi
      rw [Transducer.run_eq_outputs, hfl, Option.toList_some]

/-- A list yields its elements. -/
theorem yields_ofList (P : σ → Prop) (l : List α) :
    Yields (fun s s' : σ => s = s') (fun _ : ε => False) P (Gen.ofList l) l :=
  fun _ _ _ _ _ _ hf b => (Triple.foldlM hf b).conseq (fun _ hs => hs.2) (fun _ _ hs => hs)
    fun _ _ hs => hs

/-- **The loop rule of a generator read in batches**, whatever their size. -/
theorem Yields.forEach_batches {Quiet : σ → σ → Prop} {Own : ε → Prop} {P : σ → Prop}
    {g : Gen (EStateM ε σ) α} {l : List α} (h : Yields Quiet Own P g l)
    {body : List α → EStateM ε σ Unit} {Inv : List α → σ → Prop} {E : ε → σ → Prop}
    (hquiet : ∀ done s s', Quiet s s' → Inv done s → Inv done s')
    (hown : ∀ done s e s', Quiet s s' → Inv done s → Own e → E e s')
    (hbody : ∀ done batch rest, l = done ++ batch ++ rest →
      Triple (Inv done) (body batch) (fun _ => Inv (done ++ batch)) E) (n : Nat) :
    Triple (fun s => P s ∧ Inv [] s) ((g.transduce (Transducer.batches α n)).forEach body)
      (fun _ => Inv l) E := by
  let batches := (Transducer.batches α n).run [] l
  have hflat : batches.flatten = l := Transducer.flatten_run_batches n [] l
  have hstep : ∀ done batch rest (b : Unit), batches = done ++ batch :: rest →
      Triple (fun s => Inv done.flatten s) (body batch)
        (fun _ s => Inv (done ++ [batch]).flatten s) E := by
    intro done batch rest _ hl
    rw [List.flatten_append, List.flatten_singleton]
    refine hbody done.flatten batch rest.flatten ?_
    rw [← hflat, hl, List.flatten_append, List.flatten_cons, List.append_assoc]
  have hloop := h.transduce (Transducer.batches α n) (fun _ batch => body batch)
    (fun done _ s => Inv done.flatten s) E (fun _ _ s s' => hquiet _ s s')
    (fun _ _ s e s' => hown _ s e s') hstep ()
  have hrun : (Transducer.batches α n).run (Transducer.batches α n).init l = batches := rfl
  rw [hrun, hflat] at hloop
  exact hloop

/-- Actions that are quiet and do not raise leave what is yielded as it is. -/
theorem Yields.tap {Quiet : σ → σ → Prop} {Own : ε → Prop} {P : σ → Prop}
    {g : Gen (EStateM ε σ) α} {l : List α} (h : Yields Quiet Own P g l)
    {action : α → EStateM ε σ Unit}
    (haction : ∀ a s, ∃ s', action a s = .ok () s' ∧ Quiet s s') :
    Yields Quiet Own P (g.tap action) l := by
  intro β f Inv E hquiet hown hf b
  refine h _ Inv E hquiet hown (fun done a rest b hl s hs => ?_) b
  obtain ⟨s', hs', hq⟩ := haction a s
  rw [run_bind, hs']
  exact hf done a rest b hl s' (hquiet done b s s' hq hs)

/-! ## Counting generators -/

section Moves

variable {τ : Type} {π : σ → τ} {P : σ → Prop} {v v' : τ}

/-- A loop over `g` that returns takes the part `π` of the state from `v` to `v'`, when its body
leaves `π` alone. -/
def Gen.Moves (π : σ → τ) (P : σ → Prop) (v v' : τ) (g : Gen (EStateM ε σ) α) : Prop :=
  ∀ ⦃β : Type⦄ (f : β → α → EStateM ε σ β) (b : β), (∀ b a, Library.Keeps π (f b a)) →
    Triple (fun s => P s ∧ π s = v) (g.fold f b) (fun _ s => π s = v') fun _ _ => True

theorem Gen.Moves.transduce {g : Gen (EStateM ε σ) α} (h : g.Moves π P v v')
    (t : Transducer α β) : (g.transduce t).Moves π P v v' := by
  intro γ f b hf
  refine (h _ _ fun p a => ?_).bind fun r => ?_
  · split
    · exact keeps_pure _
    · exact keeps_bind (hf _ _) fun _ => keeps_pure _
  · split
    · exact Triple.pure fun _ hs => hs
    · exact (hf _ _ v').conseq (fun _ hs => hs) (fun _ _ hs => hs) fun _ _ _ => trivial

theorem Gen.Moves.forEach {g : Gen (EStateM ε σ) α} (h : g.Moves π P v v')
    {body : α → EStateM ε σ Unit} (hbody : ∀ a, Library.Keeps π (body a)) :
    Triple (fun s => P s ∧ π s = v) (g.forEach body) (fun _ s => π s = v') fun _ _ => True :=
  h _ _ fun _ a => hbody a

/-- **Counting the elements of a generator counts all of them.** -/
theorem Yields.moves_tap {Quiet : σ → σ → Prop} {Own : ε → Prop} {g : Gen (EStateM ε σ) α}
    {l : List α} (h : Yields Quiet Own P g l) {action : α → EStateM ε σ Unit}
    {count : List α → τ} (hquiet : ∀ s s', Quiet s s' → π s' = π s)
    (haction : ∀ done a, Triple (fun s => π s = count done) (action a)
      (fun _ s => π s = count (done ++ [a])) fun _ _ => True) :
    (g.tap action).Moves π P (count []) (count l) := by
  intro β f b hf
  refine h (fun b a => do action a; f b a) (fun done _ s => π s = count done) (fun _ _ => True)
    (fun _ _ s s' hq hs => (hquiet s s' hq).trans hs) (fun _ _ _ _ _ _ _ _ => trivial)
    (fun done a _ b _ => ?_) b
  exact (haction done a).bind fun _ => (hf b a _).conseq (fun _ hs => hs) (fun _ _ hs => hs)
    fun _ _ _ => trivial

end Moves

end CardBinData.Library
