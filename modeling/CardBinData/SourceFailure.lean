import CardBinData.ImportSpec

/-!
# A failing source

The merge is lazy and is pulled from inside `replace_all`, but what it reads is the stage, and the
stage is filled before. Neither creating nor filling it touches what belongs to the caller
(`CallerSide`), so the first statement on the session stands after the last record of the last
adapter (`EveryRecordStaged`), and a failure before it leaves the session as it was.

* `session_untouched_until_staged`: an import that raises while it creates or fills the stage has
  executed nothing on the session; an import that has executed a statement has staged every record.
-/

namespace CardBinData

open Library

variable {α β : Type} {env : Environment}

/-! ## Returning without a fault -/

/-- None of the steps from `m` on and before `n` fails. -/
def NoFaultBetween (env : Environment) (m n : Nat) : Prop :=
  m ≤ n ∧ ∀ i, m ≤ i → i < n → env.fault i = none

theorem noFaultBetween_refl (n : Nat) : NoFaultBetween env n n :=
  ⟨le_rfl, fun _ hi hi' => absurd hi' (by omega)⟩

theorem NoFaultBetween.trans {l m n : Nat} (h : NoFaultBetween env l m)
    (h' : NoFaultBetween env m n) : NoFaultBetween env l n := by
  refine ⟨h.1.trans h'.1, fun i hi hi' => ?_⟩
  rcases Nat.lt_or_ge i m with hm | hm
  · exact h.2 i hi hm
  · exact h'.2 i hm hi'

/-- When `x` returns, it has met no fault. -/
def MeetsNoFault (env : Environment) (x : Run α) : Prop :=
  ∀ w, Post (x w) (fun _ w' => NoFaultBetween env w.clock w'.clock) fun _ _ => True

theorem meetsNoFault_pure (a : α) : MeetsNoFault env (pure a : Run α) :=
  fun w => noFaultBetween_refl w.clock

theorem meetsNoFault_bind {x : Run α} {f : α → Run β} (hx : MeetsNoFault env x)
    (hf : ∀ a, MeetsNoFault env (f a)) : MeetsNoFault env (x >>= f) := by
  intro w
  have h := hx w
  rw [run_bind]
  cases hrun : x w with
  | error e w' => trivial
  | ok a w' =>
    rw [hrun] at h
    exact (hf a w').mono (fun _ _ h' => h.trans h') fun _ _ h' => h'

theorem meetsNoFault_foldlM {f : β → α → Run β} (hf : ∀ b a, MeetsNoFault env (f b a))
    (l : List α) (b : β) : MeetsNoFault env (l.foldlM f b) := by
  induction l generalizing b with
  | nil => exact meetsNoFault_pure b
  | cons a l ih =>
    rw [List.foldlM_cons]
    exact meetsNoFault_bind (hf b a) fun b' => ih b'

/-- A step that returns was not the one to fail. -/
theorem meetsNoFault_step {x : Run α} (hx : Keeps World.clock x) :
    MeetsNoFault env (step env x) := by
  intro w
  rw [run_step]
  cases hfault : env.fault w.clock with
  | none =>
    refine (hx (w.clock + 1) { w with clock := w.clock + 1 } rfl).mono (fun _ w' hw' => ?_)
      fun _ _ _ => trivial
    rw [hw']
    refine ⟨Nat.le_succ _, fun i hi hi' => ?_⟩
    rw [show i = w.clock by omega, hfault]
  | some fault =>
    cases fault with
    | before => trivial
    | after | running =>
      change Post ((x >>= fun _ => throw .raised) { w with clock := w.clock + 1 }) _ _
      rw [run_bind]
      cases x { w with clock := w.clock + 1 } <;> trivial

theorem meetsNoFault_stageCall {x : Run α} (hx : Keeps World.clock x) :
    MeetsNoFault env (stageCall env x) := by
  intro w
  rw [run_stageCall]
  have hstep : MeetsNoFault env (step env x) := meetsNoFault_step hx
  split
  · exact hstep { w with callRunning := true }
  · exact hstep w

theorem keeps_clock_executemany (rows : List StagedRow) : Keeps World.clock (executemany rows) := by
  refine keeps_foldlM (fun _ row => ?_) rows ()
  split
  · exact keeps_modify fun _ => rfl
  · exact keeps_raise _

theorem meetsNoFault_insertRecords (records : List NormalizedSourceRecord) :
    MeetsNoFault env (insertRecords env records) := by
  intro w
  have hrest : MeetsNoFault env (do
      stageCall env (executemany (recordRows records w.stage).2)
      stageCall env (pure ())) :=
    meetsNoFault_bind (meetsNoFault_stageCall (keeps_clock_executemany _)) fun _ =>
      meetsNoFault_stageCall (keeps_pure _)
  exact hrest { w with stage := (recordRows records w.stage).1 }

/-- **Staging returns only if no adapter and no insert has failed.** -/
theorem meetsNoFault_stageSourceRecords (adapters : List SourceAdapter) :
    MeetsNoFault env (stageSourceRecords env adapters) := by
  have hrecord : ∀ s record, MeetsNoFault env (stageRecord env s record) := fun s record => by
    unfold stageRecord
    simp only
    split
    · exact meetsNoFault_bind (meetsNoFault_insertRecords _) fun _ => meetsNoFault_pure _
    · exact meetsNoFault_pure _
  have hstep : MeetsNoFault env (step env (pure ())) := meetsNoFault_step (keeps_pure _)
  have hadapter : ∀ s adapter, MeetsNoFault env (stageAdapter env s adapter) := fun s adapter =>
    meetsNoFault_bind (meetsNoFault_bind
      (meetsNoFault_foldlM (fun b record => meetsNoFault_bind hstep fun _ => hrecord b record) _ _)
      fun _ => meetsNoFault_bind hstep fun _ => meetsNoFault_pure _) fun _ => meetsNoFault_pure _
  refine meetsNoFault_bind (meetsNoFault_foldlM hadapter adapters _) fun s => ?_
  simp only
  split
  · exact meetsNoFault_bind (meetsNoFault_pure _) fun _ => meetsNoFault_pure _
  · exact meetsNoFault_bind (meetsNoFault_insertRecords _) fun _ => meetsNoFault_pure _

/-! ## The caller's session -/

/-- What belongs to the caller: the committed tables, the session and the statements on it. -/
def CallerSide (w : World) : Database × Database × List Statement :=
  (w.committed, w.session, w.executed)

theorem stageFrame_callerSide : StageFrame env CallerSide where
  clock _ _ := rfl
  call _ _ _ := rfl
  stage _ _ := rfl

/-- Every adapter is exhausted and every emitted record staged, with no fault on the way, and
nothing has been executed on the session. -/
def EveryRecordStaged (env : Environment) (adapters : List SourceAdapter) (w : World) : Prop :=
  ∃ path w₁ w₂, createStage env w = .ok path w₁ ∧
    stageSourceRecords env adapters w₁ = .ok (emitted adapters).length w₂ ∧
    StageHolds (emitted adapters) w₂.stage ∧ NoFaultBetween env w₁.clock w₂.clock ∧
    CallerSide w₂ = CallerSide w

/-- The import raises, and what belongs to the caller is as it was. -/
def RaisesUntouched (env : Environment) (adapters : List SourceAdapter) (storeRawPayload : Bool)
    (w : World) : Prop :=
  ∃ e w', importSources env adapters storeRawPayload w = .error e w' ∧ CallerSide w' = CallerSide w

/-- The caller's commit. -/
def commit (w : World) : World := { w with committed := w.session }

/-- The caller's side after the creation of the stage, and the stage. -/
theorem createStage_callerSide (w : World) :
    Post (createStage env w) (fun _ w' => w'.stage = {} ∧ CallerSide w' = CallerSide w)
      fun _ w' => CallerSide w' = CallerSide w := by
  have hkeeps : Keeps CallerSide (createStage env) :=
    keeps_createStage (fun _ _ => rfl) fun _ _ => rfl
  have hempty : Triple (fun _ => True) (createStage env) (fun _ w => w.stage = {})
      fun _ _ => True := createStage_triple fun _ _ => trivial
  exact (hempty.and (hkeeps (CallerSide w)) w ⟨trivial, rfl⟩).mono (fun _ _ h => h)
    fun _ _ h => h.2

/-- An import whose body fails raises, after closing the stage. -/
theorem raises_of_importStaged {adapters : List SourceAdapter} {storeRawPayload : Bool} {path : Nat}
    {e : Failure} {w w₁ w₂ : World} (hcreate : createStage env w = .ok path w₁)
    (hbody : importStaged env adapters storeRawPayload w₁ = .error e w₂)
    (hcaller : CallerSide w₂ = CallerSide w) : RaisesUntouched env adapters storeRawPayload w := by
  have hclose : Keeps CallerSide (closeStage env path) := keeps_closeStage (fun _ _ => rfl) path
  have hkept := hclose.finalState w₂
  unfold RaisesUntouched importSources
  rw [run_bind, hcreate]
  simp only [withFinally, hbody]
  cases hrun : closeStage env path w₂ with
  | ok _ w₃ =>
    rw [hrun] at hkept
    exact ⟨e, w₃, rfl, hkept.trans hcaller⟩
  | error e' w₃ =>
    rw [hrun] at hkept
    exact ⟨e', w₃, rfl, hkept.trans hcaller⟩

/-- **Until every record is staged, the session is untouched.** -/
theorem staged_or_untouched (env : Environment) (adapters : List SourceAdapter)
    (storeRawPayload : Bool) (w : World) :
    EveryRecordStaged env adapters w ∨ RaisesUntouched env adapters storeRawPayload w := by
  have hcreated : Post (createStage env w) _ _ := createStage_callerSide w
  cases hcreate : createStage env w with
  | error e w₁ =>
    rw [hcreate] at hcreated
    refine Or.inr ⟨e, w₁, ?_, hcreated⟩
    unfold importSources
    rw [run_bind, hcreate]
  | ok path w₁ =>
    rw [hcreate] at hcreated
    obtain ⟨hempty, hcaller⟩ := hcreated
    have hkeeps : Keeps CallerSide (stageSourceRecords env adapters) :=
      keeps_stageSourceRecords stageFrame_callerSide adapters
    have hkept := hkeeps.finalState w₁
    have hnil : StageHolds [] w₁.stage := by
      rw [hempty]
      exact stageHolds_nil
    have hstaged : Post (stageSourceRecords env adapters w₁) _ _ :=
      stageSourceRecords_triple adapters w₁ hnil
    have hnoFault : MeetsNoFault env (stageSourceRecords env adapters) :=
      meetsNoFault_stageSourceRecords adapters
    have hfaults := hnoFault w₁
    cases hstage : stageSourceRecords env adapters w₁ with
    | ok n w₂ =>
      rw [hstage] at hkept hstaged hfaults
      obtain ⟨rfl, hholds⟩ := hstaged
      exact Or.inl ⟨path, w₁, w₂, hcreate, hstage, hholds, hfaults, hkept.trans hcaller⟩
    | error e w₂ =>
      rw [hstage] at hkept
      have hbody : importStaged env adapters storeRawPayload w₁ = .error e w₂ := by
        unfold importStaged
        rw [run_bind, hstage]
      exact Or.inr (raises_of_importStaged hcreate hbody (hkept.trans hcaller))

/-- **A source failure never touches the caller's session.** If the stage cannot be created, or an
adapter or an insert fails while it is filled, the import raises without having executed anything on
the session, and a commit of the caller keeps what the session held; a statement has been executed
only if every adapter is exhausted and every record staged. -/
theorem session_untouched_until_staged (env : Environment) (adapters : List SourceAdapter)
    (storeRawPayload : Bool) (w : World) :
    (¬ EveryRecordStaged env adapters w → ∃ e w',
      importSources env adapters storeRawPayload w = .error e w' ∧
      w'.executed = w.executed ∧ (commit w').committed = w.session) ∧
    (∀ path w₁ e w₂, createStage env w = .ok path w₁ →
      stageSourceRecords env adapters w₁ = .error e w₂ → ¬ EveryRecordStaged env adapters w) ∧
    ((finalState (importSources env adapters storeRawPayload w)).executed ≠ w.executed →
      EveryRecordStaged env adapters w) := by
  have huntouched : RaisesUntouched env adapters storeRawPayload w → ∃ e w',
      importSources env adapters storeRawPayload w = .error e w' ∧
      w'.executed = w.executed ∧ (commit w').committed = w.session := by
    rintro ⟨e, w', hrun, hcaller⟩
    obtain ⟨-, hsession, hexecuted⟩ : w'.committed = w.committed ∧ w'.session = w.session ∧
      w'.executed = w.executed := by simpa [CallerSide] using hcaller
    exact ⟨e, w', hrun, hexecuted, hsession⟩
  have h := staged_or_untouched env adapters storeRawPayload w
  refine ⟨fun hnot => huntouched (h.resolve_left hnot), ?_, fun hexecuted => ?_⟩
  · rintro path w₁ e w₂ hcreate hstage ⟨path', w₁', w₂', hcreate', hstage', -⟩
    rw [hcreate] at hcreate'
    obtain ⟨-, rfl⟩ := EStateM.Result.ok.inj hcreate'
    rw [hstage] at hstage'
    exact absurd hstage' (by simp)
  · refine h.resolve_right fun hraises => hexecuted ?_
    obtain ⟨e, w', hrun, hexecuted', -⟩ := huntouched hraises
    rw [hrun]
    exact hexecuted'

end CardBinData
