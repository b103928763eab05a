import Mathlib.Data.List.Induction
import Mathlib.Data.List.Infix

/-!
# The life of a store's engine (`store.py:56-68`, `store.py:121-129`)

`BinDataStore` creates its engine and its session factory when they are first used, and `close()`
disposes the engine and drops both. Tasks of one event loop run it, and change over only where one
awaits: in these methods that is `await self._engine.dispose()`, between the test of `_engine` and
the assignment of `None`. A run is the list of what the tasks do, in order; `after` is the store
they leave.

* `sessionFactory_bound`: a session factory is bound to the engine of the store, in every state.
* `dropsDisposed_iff`: every engine that is dropped has been disposed, exactly in the runs in which
  a `close()` that goes on with an engine in place finds that some `close()` has begun since
  `_engine` was last `None` (`ClosedSinceNone`).
* `close_drops_live_engine`: two overlapping calls of `close()` and an access in between drop an
  engine that no call of `dispose()` has seen.
-/

namespace CardBinData.Store

/-- `BinDataStore`, and the tasks that close it. Engine objects are numbered as they are created. -/
structure BinDataStore where
  /-- `_engine`. -/
  engine : Option Nat := none
  /-- `_session_factory`, by the engine it is bound to. -/
  sessionFactory : Option Nat := none
  /-- How many engines have been created. -/
  created : Nat := 0
  /-- The calls of `close()` that await `dispose()`, by the engine they dispose. -/
  closing : List Nat := []
  /-- The engines whose `dispose()` has been called. -/
  disposed : List Nat := []
  deriving DecidableEq, Repr

/-- What a task does until it awaits or returns. -/
inductive Action where
  /-- `store.engine`. -/
  | engine
  /-- `store.session_factory`. -/
  | sessionFactory
  /-- `store.close()`, up to its `await`. -/
  | close
  /-- `dispose()` returns to the call of `close()` at this place among those waiting. -/
  | resume (i : Nat)
  /-- `dispose()` raises there, or the task is cancelled. -/
  | abort (i : Nat)
  deriving DecidableEq, Repr

/-- The property `engine`: the store after it, and its value. -/
def getEngine (store : BinDataStore) : BinDataStore × Nat :=
  match store.engine with
  | some engine => (store, engine)
  | none =>
    ({ store with engine := some store.created, created := store.created + 1 }, store.created)

/-- The property `session_factory`. -/
def getSessionFactory (store : BinDataStore) : BinDataStore :=
  match store.sessionFactory with
  | some _ => store
  | none => { (getEngine store).1 with sessionFactory := some (getEngine store).2 }

/-- `close()` up to its `await`. -/
def close (store : BinDataStore) : BinDataStore :=
  match store.engine with
  | none => { store with sessionFactory := none }
  | some engine =>
    { store with closing := store.closing ++ [engine], disposed := store.disposed ++ [engine] }

/-- The rest of `close()`, for the call at place `i` among those waiting, if there is one. -/
def resumeClose (store : BinDataStore) (i : Nat) : BinDataStore :=
  if i < store.closing.length then
    { store with engine := none, sessionFactory := none, closing := store.closing.eraseIdx i }
  else store

/-- One action. -/
def step (store : BinDataStore) : Action → BinDataStore
  | .engine => (getEngine store).1
  | .sessionFactory => getSessionFactory store
  | .close => close store
  | .resume i => resumeClose store i
  | .abort i => { store with closing := store.closing.eraseIdx i }

/-- The store after a run. -/
def after (run : List Action) : BinDataStore := run.foldl step {}

theorem after_concat (run : List Action) (a : Action) : after (run ++ [a]) = step (after run) a :=
  List.foldl_concat ..

/-! ## What holds in every state -/

/-- The invariant of the store. -/
structure Inv (store : BinDataStore) : Prop where
  bound : ∀ e ∈ store.sessionFactory, store.engine = some e
  engine_lt : ∀ e ∈ store.engine, e < store.created
  disposed_lt : ∀ e ∈ store.disposed, e < store.created

theorem inv_getEngine {store : BinDataStore} (h : Inv store) :
    Inv (getEngine store).1 ∧ (getEngine store).1.engine = some (getEngine store).2 := by
  unfold getEngine
  cases he : store.engine with
  | some engine => exact ⟨h, he⟩
  | none =>
    have hnone : ∀ e, store.sessionFactory ≠ some e := fun e hf =>
      absurd (he.symm.trans (h.bound e hf)) (by simp)
    exact ⟨⟨fun e hf => absurd hf (hnone e), by simp, fun e hd =>
      Nat.lt_succ_of_lt (h.disposed_lt e hd)⟩, rfl⟩

theorem inv_close {store : BinDataStore} (h : Inv store) : Inv (close store) := by
  unfold close
  split
  · exact ⟨fun _ hf => absurd hf (by simp), h.engine_lt, h.disposed_lt⟩
  · rename_i engine he
    refine ⟨h.bound, h.engine_lt, fun e hd => ?_⟩
    rcases List.mem_append.mp hd with hd | hd
    · exact h.disposed_lt e hd
    · exact List.mem_singleton.mp hd ▸ h.engine_lt engine he

/-- **Every action keeps the invariant.** -/
theorem inv_step {store : BinDataStore} (h : Inv store) (a : Action) : Inv (step store a) := by
  cases a with
  | engine => exact (inv_getEngine h).1
  | sessionFactory =>
    change Inv (getSessionFactory store)
    unfold getSessionFactory
    split
    · exact h
    · obtain ⟨hinv, heng⟩ := inv_getEngine h
      exact ⟨fun e he => heng.trans he, hinv.engine_lt, hinv.disposed_lt⟩
  | close => exact inv_close h
  | resume i =>
    change Inv (resumeClose store i)
    unfold resumeClose
    split
    · exact ⟨fun _ hf => absurd hf (by simp), fun _ he => absurd he (by simp), h.disposed_lt⟩
    · exact h
  | abort i => exact ⟨h.bound, h.engine_lt, h.disposed_lt⟩

theorem inv_after (run : List Action) : Inv (after run) := by
  induction run using List.reverseRecOn with
  | nil => exact ⟨fun _ h => absurd h (by simp [after]), fun _ h => absurd h (by simp [after]),
      fun _ h => absurd h (by simp [after])⟩
  | append_singleton run a ih =>
    rw [after_concat]
    exact inv_step ih a

/-! ## What is dropped has been disposed -/

/-- Since `_engine` was last `None`, a `close()` has begun. -/
def ClosedSinceNone (run : List Action) : Prop :=
  ∃ before rest, run = before ++ .close :: rest ∧
    ∀ rest', rest' <+: rest → (after (before ++ .close :: rest')).engine ≠ none

theorem closedSinceNone_concat (run : List Action) (a : Action) :
    ClosedSinceNone (run ++ [a]) ↔
      (after (run ++ [a])).engine ≠ none ∧ (a = .close ∨ ClosedSinceNone run) := by
  constructor
  · rintro ⟨before, rest, heq, hrest⟩
    refine ⟨heq ▸ hrest rest List.prefix_rfl, ?_⟩
    rcases List.eq_nil_or_concat rest with rfl | ⟨rest, b, rfl⟩
    · exact Or.inl (List.append_inj_right' heq rfl |> List.head_eq_of_cons_eq)
    · rw [List.concat_eq_append] at heq hrest
      rw [← List.cons_append, ← List.append_assoc] at heq
      refine Or.inr ⟨before, rest, List.append_inj_left' heq rfl, fun rest' hp => ?_⟩
      exact hrest rest' (hp.trans (List.prefix_append _ _))
  · rintro ⟨hengine, rfl | ⟨before, rest, rfl, hrest⟩⟩
    · refine ⟨run, [], rfl, fun rest' hp => ?_⟩
      rwa [List.prefix_nil.mp hp]
    · refine ⟨before, rest ++ [a], by simp, fun rest' hp => ?_⟩
      rcases List.prefix_concat_iff.mp hp with rfl | hp
      · simpa using hengine
      · exact hrest rest' hp

theorem engine_ne_none {run : List Action} (h : ClosedSinceNone run) :
    (after run).engine ≠ none := by
  obtain ⟨_, _, rfl, hrest⟩ := h
  exact hrest _ List.prefix_rfl

@[simp] theorem disposed_getEngine (store : BinDataStore) :
    (getEngine store).1.disposed = store.disposed := by
  unfold getEngine
  split <;> rfl

theorem engine_getEngine {store : BinDataStore} {e : Nat}
    (h : (getEngine store).1.engine = some e) :
    store.engine = some e ∨ (store.engine = none ∧ e = store.created) := by
  unfold getEngine at h
  split at h
  · exact Or.inl h
  · rename_i hnone
    exact Or.inr ⟨hnone, (Option.some.inj h).symm⟩

theorem isSome_getEngine (store : BinDataStore) : (getEngine store).1.engine.isSome := by
  unfold getEngine
  split
  · rename_i h
    rw [h]
    rfl
  · rfl

/-- The engine in place after an action was in place before, or has just been created. -/
theorem engine_step {store : BinDataStore} {a : Action} {e : Nat}
    (h : (step store a).engine = some e) :
    store.engine = some e ∨ (store.engine = none ∧ a ≠ .close ∧ e = store.created) := by
  cases a with
  | engine => exact (engine_getEngine h).imp_right fun h => ⟨h.1, by simp, h.2⟩
  | sessionFactory =>
    change (getSessionFactory store).engine = some e at h
    unfold getSessionFactory at h
    split at h
    · exact Or.inl h
    · exact (engine_getEngine h).imp_right fun h => ⟨h.1, by simp, h.2⟩
  | close =>
    change (close store).engine = some e at h
    unfold close at h
    split at h <;> exact Or.inl h
  | resume i =>
    change (resumeClose store i).engine = some e at h
    unfold resumeClose at h
    split at h
    · exact absurd h (by simp)
    · exact Or.inl h
  | abort i => exact Or.inl h

/-- Only the start of a `close()` calls `dispose()`, on the engine in place. -/
theorem mem_disposed_step {store : BinDataStore} {a : Action} {e : Nat} :
    e ∈ (step store a).disposed ↔ e ∈ store.disposed ∨ (a = .close ∧ store.engine = some e) := by
  cases a with
  | engine => simp [step]
  | sessionFactory =>
    change e ∈ (getSessionFactory store).disposed ↔ _
    unfold getSessionFactory
    split <;> simp
  | close =>
    change e ∈ (close store).disposed ↔ _
    unfold close
    split
    · rename_i h
      simp [h]
    · rename_i engine h
      simp [h, eq_comm]
  | resume i =>
    change e ∈ (resumeClose store i).disposed ↔ _
    unfold resumeClose
    split <;> simp
  | abort i => simp [step]

/-- An engine is dropped by a `close()` that goes on. -/
theorem engine_dropped {store : BinDataStore} {a : Action} {e : Nat} (h : store.engine = some e)
    (hdrop : (step store a).engine = none) : ∃ i, a = .resume i ∧ i < store.closing.length := by
  have hkept : ∀ {o : Option Nat}, o.isSome → o ≠ none := fun ho hn => by simp [hn] at ho
  cases a with
  | engine => exact absurd hdrop (hkept (isSome_getEngine store))
  | sessionFactory =>
    change (getSessionFactory store).engine = none at hdrop
    unfold getSessionFactory at hdrop
    split at hdrop
    · exact absurd (h.symm.trans hdrop) (by simp)
    · exact absurd hdrop (hkept (isSome_getEngine store))
  | close =>
    change (close store).engine = none at hdrop
    unfold close at hdrop
    split at hdrop <;> exact absurd (h.symm.trans hdrop) (by simp)
  | resume i =>
    change (resumeClose store i).engine = none at hdrop
    unfold resumeClose at hdrop
    split at hdrop
    · rename_i hi
      exact ⟨i, rfl, hi⟩
    · exact absurd (h.symm.trans hdrop) (by simp)
  | abort i => exact absurd (h.symm.trans hdrop) (by simp)

/-- **The engine in place has been disposed exactly when a `close()` has begun since there was
none.** -/
theorem mem_disposed_iff (run : List Action) {e : Nat} (he : (after run).engine = some e) :
    e ∈ (after run).disposed ↔ ClosedSinceNone run := by
  induction run using List.reverseRecOn generalizing e with
  | nil => exact absurd he (by simp [after])
  | append_singleton run a ih =>
    have hengine : (after (run ++ [a])).engine ≠ none := by simp [he]
    rw [closedSinceNone_concat, and_iff_right hengine]
    rw [after_concat] at he ⊢
    rw [mem_disposed_step]
    rcases engine_step he with hbefore | ⟨hnone, hclose, rfl⟩
    · rw [ih hbefore, and_iff_left hbefore, or_comm]
    · -- a new engine has not been disposed, and no `close()` has begun with it in place
      have hfresh : (after run).created ∉ (after run).disposed := fun hd =>
        absurd ((inv_after run).disposed_lt _ hd) (lt_irrefl _)
      refine ⟨fun h => ?_, fun h => absurd hnone (engine_ne_none (h.resolve_left hclose))⟩
      rcases h with hd | ⟨rfl, -⟩
      · exact absurd hd hfresh
      · exact absurd rfl hclose

/-! ## Runs -/

/-- Whenever an engine is dropped, its `dispose()` has been called. -/
def DropsDisposed (run : List Action) : Prop :=
  ∀ before a rest, run = before ++ a :: rest → ∀ e, (after before).engine = some e →
    (after (before ++ [a])).engine = none → e ∈ (after (before ++ [a])).disposed

/-- In every state of the run, a session factory is bound to the engine in place. -/
def FactoryBound (run : List Action) : Prop :=
  ∀ before, before <+: run → ∀ e, (after before).sessionFactory = some e →
    (after before).engine = some e

/-- A `close()` goes on with an engine in place only when a `close()` has begun since there was
none. -/
def ResumesAfterClose (run : List Action) : Prop :=
  ∀ before i rest, run = before ++ .resume i :: rest → i < (after before).closing.length →
    (after before).engine ≠ none → ClosedSinceNone before

theorem factoryBound (run : List Action) : FactoryBound run := fun before _ e he =>
  (inv_after before).bound e he

/-- **Which runs drop no live engine.** -/
theorem dropsDisposed_iff (run : List Action) :
    DropsDisposed run ∧ FactoryBound run ↔ ResumesAfterClose run := by
  rw [and_iff_left (factoryBound run)]
  constructor
  · intro h before i rest heq hi hengine
    obtain ⟨e, he⟩ := Option.ne_none_iff_exists'.mp hengine
    have hstep : after (before ++ [.resume i]) = resumeClose (after before) i := after_concat ..
    have hdisposed := h before (.resume i) rest heq e he
    rw [hstep, resumeClose, if_pos hi] at hdisposed
    exact (mem_disposed_iff before he).mp (hdisposed rfl)
  · intro h before a rest heq e he hdrop
    rw [after_concat] at hdrop ⊢
    obtain ⟨i, rfl, hi⟩ := engine_dropped he hdrop
    rw [mem_disposed_step, mem_disposed_iff before he]
    exact Or.inl (h before i rest heq hi (by simp [he]))

/-- Two calls of `close()` overlap; the engine made between their ends is dropped alive. -/
theorem close_drops_live_engine :
    ¬ (DropsDisposed [.engine, .close, .close, .resume 0, .engine, .resume 0] ∧
      FactoryBound [.engine, .close, .close, .resume 0, .engine, .resume 0]) := fun h =>
  absurd (h.1 [.engine, .close, .close, .resume 0, .engine] (.resume 0) [] rfl 1 rfl rfl)
    (by decide)

end CardBinData.Store
