import CardBinData.Importer

/-!
# What each part of the import leaves alone

A part `π` of the world that does not depend on a component is kept by every program that changes
that component only, whether it returns or raises. The three kinds of programs are those of the
stage (`StageFrame`), those of the session (`SessionFrame`; `ProvenanceFrame` for those that only
write provenance rows), and the generator of staged records, which moves nothing but the clock.

* `keeps_importStaged`: the body of the import changes the stage, the session and the counters
  only; in particular no stage file.
* `transaction_spec`: a transaction commits what its body left in the session, or nothing.
-/

namespace CardBinData

open Library

variable {α τ : Type} {π : World → τ} {env : Environment}

/-- `π` does not depend on the clock. -/
def ClockFrame (π : World → τ) : Prop := ∀ w n, π { w with clock := n } = π w

/-- `π` does not depend on a call that goes on in its thread, where a fault of `env` lets one. -/
def CallFrame (env : Environment) (π : World → τ) : Prop :=
  ∀ w n, env.fault n = some .running → π { w with callRunning := true } = π w

/-- `π` does not depend on what the staging of the records changes. -/
structure StageFrame (env : Environment) (π : World → τ) : Prop where
  clock : ClockFrame π
  call : CallFrame env π
  stage : ∀ w s, π { w with stage := s } = π w

/-- `π` does not depend on what statements on the session change. -/
structure SessionFrame (π : World → τ) : Prop where
  clock : ClockFrame π
  session : ∀ w db, π { w with session := db } = π w
  executed : ∀ w l, π { w with executed := l } = π w

/-- `π` does not depend on what the body of the import changes. -/
structure ImportFrame (env : Environment) (π : World → τ) : Prop extends
    StageFrame env π, SessionFrame π where
  counters : ∀ w c, π { w with counters := c } = π w

/-! ## Steps -/

theorem keeps_failing {fault : Option Fault} {x : Run α} (hx : Keeps π x) :
    Keeps π (failing fault x) := by
  unfold failing
  have hafter : Keeps π (do let _ ← x; throw .raised : Run α) :=
    keeps_bind hx fun _ => keeps_raise _
  split
  · exact hx
  · exact keeps_raise _
  · exact hafter
  · exact hafter

theorem run_step (env : Environment) (x : Run α) (w : World) :
    step env x w = failing (env.fault w.clock) x { w with clock := w.clock + 1 } := rfl

theorem keeps_step (hπ : ClockFrame π) {x : Run α} (hx : Keeps π x) : Keeps π (step env x) := by
  intro v w hw
  rw [run_step]
  exact keeps_failing hx v _ ((hπ w _).trans hw)

theorem run_stageCall (env : Environment) (x : Run α) (w : World) :
    stageCall env x w =
      step env x (if env.fault w.clock = some .running then { w with callRunning := true }
        else w) := by
  change (if env.fault w.clock = some .running then
    (do set { w with callRunning := true }; step env x) else step env x : Run α) w = _
  split <;> rfl

theorem keeps_stageCall (hclock : ClockFrame π) (hcall : CallFrame env π) {x : Run α}
    (hx : Keeps π x) : Keeps π (stageCall env x) := by
  intro v w hw
  rw [run_stageCall]
  split
  · rename_i hfault
    exact keeps_step hclock hx v _ ((hcall w _ hfault).trans hw)
  · exact keeps_step hclock hx v w hw

theorem keeps_execute (hclock : ClockFrame π) (hexecuted : ∀ w l, π { w with executed := l } = π w)
    {statement : Statement} {x : Run α} (hx : Keeps π x) : Keeps π (execute env statement x) :=
  keeps_bind (keeps_modify fun w => hexecuted w _) fun _ => keeps_step hclock hx

theorem keeps_getItem {κ ν : Type} [DecidableEq κ] (d : Dict κ ν) (k : κ) :
    Keeps π (getItem d k) := by
  unfold getItem
  split
  · exact keeps_pure _
  · exact keeps_raise _

/-! ## The session -/

/-- What `replace_all` executes before it reads the stream. -/
def replaceSources (env : Environment) (metadataById : Dict Str SourceMetadata) :
    Run (Dict Str Nat) := do
  execute env .deleteBinRecordSources
    (modify fun w => { w with session := { w.session with binRecordSources := [] } })
  execute env .deleteBinRecords
    (modify fun w => { w with session := { w.session with binRecords := [] } })
  execute env .deleteDataSources
    (modify fun w => { w with session := { w.session with dataSources := [] } })
  insertDataSourceMetadata env metadataById

theorem replaceAll_eq (env : Environment) (records : ImportReplacement) :
    replaceAll env records = (do
      let dataSourceIds ← replaceSources env records.sourceMetadata
      insertStreamedRecords env records.records dataSourceIds env.now records.storeRawPayload
      step env (pure ())) := by
  simp only [replaceAll, replaceSources, bind_assoc]

/-- `π` does not depend on what a provenance row changes. -/
structure ProvenanceFrame (π : World → τ) : Prop where
  clock : ClockFrame π
  executed : ∀ w l, π { w with executed := l } = π w
  binRecordSources : ∀ w rows,
    π { w with session := { w.session with binRecordSources := rows } } = π w

theorem SessionFrame.provenance (hπ : SessionFrame π) : ProvenanceFrame π where
  clock := hπ.clock
  executed := hπ.executed
  binRecordSources w _ := hπ.session w _

theorem keeps_insertRecordSources (hπ : ProvenanceFrame π) (rows : List BinRecordSourceValues) :
    Keeps π (insertRecordSources env rows) := by
  refine keeps_execute hπ.clock hπ.executed (keeps_getBind fun w => ?_)
  simp only
  split
  · exact hπ.binRecordSources w _
  · exact rfl

theorem keeps_insertRecordSourceBatch (hπ : ProvenanceFrame π)
    (rows : List BinRecordSourceValues) : Keeps π (insertRecordSourceBatch env rows) := by
  have hifAny : ∀ rows', Keeps π (insertRecordSourcesIfAny env rows') := fun rows' => by
    unfold insertRecordSourcesIfAny
    split
    · exact keeps_pure _
    · exact keeps_insertRecordSources hπ rows'
  exact keeps_bind (hifAny _) fun _ => hifAny _

section Session

variable (hπ : SessionFrame π)
include hπ

theorem keeps_insertDataSourceMetadata (metadataById : Dict Str SourceMetadata) :
    Keeps π (insertDataSourceMetadata env metadataById) := by
  unfold insertDataSourceMetadata
  split
  · exact keeps_pure _
  · refine keeps_execute hπ.clock hπ.executed (keeps_getBind fun w => ?_)
    simp only
    split
    · exact hπ.session w _
    · exact rfl

theorem keeps_insertBinRecordBatch (rows : List BinRecordValues) :
    Keeps π (insertBinRecordBatch env rows) :=
  keeps_execute hπ.clock hπ.executed (keeps_getBind fun w => hπ.session w _)

theorem keeps_insertMergedRecordBatch (records : List MergedSourceRecord)
    (dataSourceIds : Dict Str Nat) (importedAt : Int) (storeRawPayload : Bool) :
    Keeps π (insertMergedRecordBatch env records dataSourceIds importedAt storeRawPayload) := by
  refine keeps_bind (keeps_insertBinRecordBatch hπ _) fun binRecordIds => ?_
  have hrows : (recordSourceRows records binRecordIds dataSourceIds importedAt
      storeRawPayload).Keeps π := fun _ f b hf =>
    keeps_foldlM (fun b m => keeps_foldlM (fun b s => keeps_bind (keeps_getItem _ _) fun _ =>
      keeps_bind (keeps_getItem _ _) fun _ => hf _ _) _ b) _ b
  exact (hrows.transduce _).forEach fun _ => keeps_insertRecordSourceBatch hπ.provenance _

theorem keeps_insertStreamedRecords {records : Gen Run MergedSourceRecord}
    (hrecords : records.Keeps π) (dataSourceIds : Dict Str Nat) (importedAt : Int)
    (storeRawPayload : Bool) :
    Keeps π (insertStreamedRecords env records dataSourceIds importedAt storeRawPayload) :=
  (hrecords.transduce _).forEach fun _ => keeps_insertMergedRecordBatch hπ _ _ _ _

theorem keeps_replaceSources (metadataById : Dict Str SourceMetadata) :
    Keeps π (replaceSources env metadataById) := by
  have hdelete : ∀ (statement : Statement) (f : Database → Database),
      Keeps π (execute env statement (modify fun w => { w with session := f w.session })) :=
    fun _ _ => keeps_execute hπ.clock hπ.executed (keeps_modify fun w => hπ.session w _)
  refine keeps_bind (hdelete _ fun db => { db with binRecordSources := [] }) fun _ => ?_
  refine keeps_bind (hdelete _ fun db => { db with binRecords := [] }) fun _ => ?_
  refine keeps_bind (hdelete _ fun db => { db with dataSources := [] }) fun _ => ?_
  exact keeps_insertDataSourceMetadata hπ _

theorem keeps_replaceAll {records : ImportReplacement} (hrecords : records.records.Keeps π) :
    Keeps π (replaceAll env records) := by
  rw [replaceAll_eq]
  refine keeps_bind (keeps_replaceSources hπ _) fun _ => ?_
  exact keeps_bind (keeps_insertStreamedRecords hπ hrecords _ _ _) fun _ =>
    keeps_step hπ.clock (keeps_pure _)

end Session

/-! ## The stage -/

section Stage

theorem keeps_iterRecords (hclock : ClockFrame π) (hcall : CallFrame env π) :
    (iterRecords env).Keeps π := by
  intro β f b hf
  have hstep : Keeps π (stageCall env (pure ())) := keeps_stageCall hclock hcall (keeps_pure _)
  have hcursor : Keeps π (stageCall env (World.stage <$> get)) :=
    keeps_stageCall hclock hcall (keeps_bind keeps_get fun _ => keeps_pure _)
  refine keeps_bind hcursor fun stage => ?_
  refine keeps_bind (keeps_foldlM (fun b rows => ?_) _ b) fun b => ?_
  · refine keeps_bind hstep fun _ => keeps_foldlM (fun b row => ?_) _ b
    exact keeps_bind (keeps_bind (keeps_getItem _ _) fun _ => keeps_pure _) fun _ => hf _ _
  · exact keeps_bind hstep fun _ => keeps_bind hstep fun _ => keeps_pure _

theorem keeps_adapterRecords (hπ : ClockFrame π) (adapter : SourceAdapter) :
    (adapter.iterRecords env).Keeps π := fun _ _ b hf =>
  keeps_bind (keeps_foldlM (fun _ _ => keeps_bind (keeps_step hπ (keeps_pure _)) fun _ => hf _ _)
    _ b) fun _ => keeps_bind (keeps_step hπ (keeps_pure _)) fun _ => keeps_pure _

variable (hπ : StageFrame env π)
include hπ

theorem keeps_executemany (rows : List StagedRow) : Keeps π (executemany rows) := by
  refine keeps_foldlM (fun _ row => ?_) rows ()
  split
  · exact keeps_modify fun w => hπ.stage w _
  · exact keeps_raise _

theorem keeps_insertRecords (records : List NormalizedSourceRecord) :
    Keeps π (insertRecords env records) := by
  refine keeps_getBind fun w => ?_
  have hrest : Keeps π (do
      stageCall env (executemany (recordRows records w.stage).2)
      stageCall env (pure ())) :=
    keeps_bind (keeps_stageCall hπ.clock hπ.call (keeps_executemany hπ _)) fun _ =>
      keeps_stageCall hπ.clock hπ.call (keeps_pure _)
  exact hrest _ _ (hπ.stage w _)

theorem keeps_stageSourceRecords (adapters : List SourceAdapter) :
    Keeps π (stageSourceRecords env adapters) := by
  refine keeps_bind (keeps_foldlM (fun s adapter => ?_) adapters _) fun s => ?_
  · refine keeps_bind (keeps_adapterRecords hπ.clock adapter _ _ fun s record => ?_) fun _ =>
      keeps_pure _
    unfold stageRecord
    simp only
    split
    · exact keeps_bind (keeps_insertRecords hπ _) fun _ => keeps_pure _
    · exact keeps_pure _
  · simp only
    split
    · exact keeps_bind (keeps_pure _) fun _ => keeps_pure _
    · exact keeps_bind (keeps_insertRecords hπ _) fun _ => keeps_pure _

end Stage

/-! ## The whole import -/

theorem keeps_mergedRecords (hπ : ImportFrame env π) :
    (countMergedRecords (mergeSortedSourceRecords (iterRecords env))).Keeps π :=
  (((keeps_iterRecords hπ.clock hπ.call).transduce _).transduce _).tap fun _ =>
    keeps_modify fun w => hπ.counters w _

theorem keeps_importStaged (hπ : ImportFrame env π) (adapters : List SourceAdapter)
    (storeRawPayload : Bool) : Keeps π (importStaged env adapters storeRawPayload) := by
  refine keeps_bind (keeps_stageSourceRecords hπ.toStageFrame adapters) fun _ => ?_
  refine keeps_bind (keeps_modify fun w => hπ.counters w _) fun _ => ?_
  refine keeps_bind keeps_get fun w => ?_
  exact keeps_bind (keeps_replaceAll hπ.toSessionFrame (keeps_mergedRecords hπ)) fun _ =>
    keeps_bind keeps_get fun _ => keeps_pure _

/-- `π` does not depend on the stage files either. -/
structure RunFrame (env : Environment) (π : World → τ) : Prop extends ImportFrame env π where
  create : ∀ w s, π { w with stage := s, callRunning := false } = π w
  tempFiles : ∀ w l, π { w with tempFiles := l } = π w

theorem keeps_createStage
    (hstage : ∀ w s, π { w with stage := s, callRunning := false } = π w)
    (hfiles : ∀ w l, π { w with tempFiles := l } = π w) : Keeps π (createStage env) := by
  have hstep : ∀ (s : StageStep), Keeps π (stageStep env s (pure ())) := fun _ =>
    keeps_failing (keeps_pure _)
  refine keeps_bind (keeps_bind (keeps_failing (keeps_getBind fun w => hfiles w _))
    fun path => keeps_bind (hstep _) fun _ => keeps_pure _) fun path => ?_
  refine keeps_bind (hstep _) fun _ => keeps_bind (keeps_modify fun w => hstage w _) fun _ => ?_
  exact keeps_bind (hstep _) fun _ => keeps_bind (hstep _) fun _ => keeps_pure _

theorem keeps_closeStage (hπ : ∀ w l, π { w with tempFiles := l } = π w) (path : Nat) :
    Keeps π (closeStage env path) :=
  keeps_bind keeps_get fun _ => keeps_bind (keeps_failing (keeps_pure _)) fun _ =>
    keeps_failing (keeps_modify fun w => hπ w _)

theorem keeps_importSources (hπ : RunFrame env π) (adapters : List SourceAdapter)
    (storeRawPayload : Bool) : Keeps π (importSources env adapters storeRawPayload) :=
  keeps_bind (keeps_createStage hπ.create hπ.tempFiles) fun path =>
    keeps_withFinally (keeps_importStaged hπ.toImportFrame adapters storeRawPayload)
      (keeps_closeStage hπ.tempFiles path)

theorem runFrame_committed : RunFrame env World.committed where
  clock _ _ := rfl
  call _ _ _ := rfl
  stage _ _ := rfl
  session _ _ := rfl
  executed _ _ := rfl
  counters _ _ := rfl
  create _ _ := rfl
  tempFiles _ _ := rfl

/-- A transaction around `x` commits what `x` left in the session, or nothing. `R` is what a raise
of `x` or a fault of the commit implies. -/
theorem transaction_spec (env : Environment) {x : Run α} (hx : Keeps World.committed x)
    {Q : α → World → Prop} {P : World → Prop} {R : Failure → Prop}
    (h : Triple P x Q fun e _ => R e) (hfault : (∃ n, env.fault n ≠ none) → R .raised)
    (hQ : ∀ a w n db, Q a w → Q a { w with clock := n, committed := db }) (w : World)
    (hP : P { w with session := w.committed, executed := [] }) :
    Post (transaction env x w) (fun a w' => w'.committed = w'.session ∧ Q a w')
      fun e w' => w'.committed = w.committed ∧ R e := by
  have hkeep : Keeps World.committed (do let a ← x; step env (pure ()); pure a : Run α) :=
    keeps_bind hx fun _ => keeps_bind (keeps_step (fun _ _ => rfl) (keeps_pure _))
      fun _ => keeps_pure _
  have hret : Triple P (do let a ← x; step env (pure ()); pure a : Run α) Q fun e _ => R e := by
    refine h.bind fun a s hs => ?_
    rw [run_bind, run_step]
    cases hf : env.fault s.clock with
    | none => exact hQ a s _ s.committed hs
    | some fault =>
      have hraised : R .raised := hfault ⟨s.clock, by simp [hf]⟩
      cases fault <;> exact hraised
  have h₁ := hkeep w.committed { w with session := w.committed, executed := [] } rfl
  have h₂ := hret { w with session := w.committed, executed := [] } hP
  unfold transaction
  cases hrun : (do let a ← x; step env (pure ()); pure a : Run α)
      { w with session := w.committed, executed := [] } with
  | ok a w' =>
    rw [hrun] at h₂
    exact ⟨rfl, hQ a w' w'.clock w'.session h₂⟩
  | error e w' =>
    rw [hrun] at h₁ h₂
    exact ⟨h₁, h₂⟩

end CardBinData
