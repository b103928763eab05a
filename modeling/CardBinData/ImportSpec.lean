import CardBinData.Dataset

/-!
# What an import commits

An import that returns has committed tables that represent the dataset of the emitted records
(`datasetOf`) and counted them (`countersOf`), whatever was committed before, whatever the engine's
ids and orders and whatever the batch sizes; an import that raises has committed nothing, and met a
fault of a step, a number beyond 64 bits, or two contributions that the unique constraint cannot
tell apart (`ImportRaises`). The proof runs along the pipeline: the stage holds what the adapters
emitted, its sorted stream merges to the in-memory merge of the staged records, and `replace_all`
writes what that stream yields.

* `storeImportSources_spec`: both outcomes.
* `storeImportSources_returns_iff`: when no step fails, an import returns exactly when its records
  are `Importable`, a condition on the records alone.
-/

namespace CardBinData

open Library

variable {env : Environment}

/-- The records merged by an import. -/
def mergedRecords (records : List NormalizedSourceRecord) : List MergedSourceRecord :=
  mergeSourceRecords (stagedRecords records)

theorem nodup_mergedRecords (records : List NormalizedSourceRecord) :
    ((mergedRecords records).map (·.record.iinStart)).Nodup :=
  (merge_spec (stagedRecords records)).1.imp ne_of_lt

/-- Every contribution to a merged record has its metadata among those first seen. -/
theorem exists_metadata {records : List NormalizedSourceRecord} :
    ∀ m ∈ mergedRecords records, ∀ s ∈ m.sources, ∃ e ∈ (firstSeen records).items,
      e.2.sourceId = s.source.sourceId := by
  intro m hm s hs
  obtain ⟨keys, -, -, heq⟩ := mergeSourceRecords_eq_map (stagedRecords records)
  rw [mergedRecords, heq] at hm
  obtain ⟨k, -, rfl⟩ := List.mem_map.mp hm
  obtain ⟨r, hr, rfl⟩ := List.mem_map.mp (mem_of_mem_sources hs)
  obtain ⟨metadata, hmeta⟩ := exists_firstSeen hr
  refine ⟨(r.source.sourceId, metadata), Dict.mem_items_iff.mpr hmeta, ?_⟩
  rw [sourceId_restored]
  exact (sourceId_of_firstSeen hmeta).1

/-- The counts of an import of the records. -/
def countersOf (records : List NormalizedSourceRecord) : ImportCounters where
  sourceRecordCount := records.length
  normalizedRecordCount := (mergedRecords records).length
  provenanceRecordCount := (contributions (mergedRecords records)).length

/-- The stage and the unique constraint accept the records. -/
structure Importable (records : List NormalizedSourceRecord) : Prop where
  bindable : ∀ r ∈ records, Bindable r
  distinct : (contributions (mergedRecords records)).Nodup

/-- What an import of the records may raise. -/
def ImportRaises (env : Environment) (records : List NormalizedSourceRecord) : Failure → Prop :=
  Raises (Faulty env ∨ ∃ s, env.stageFault s ≠ none) (∃ r ∈ records, ¬ Bindable r)
    (¬ (contributions (mergedRecords records)).Nodup)

/-- The session after an import of the records, and its result. -/
structure Imported (records : List NormalizedSourceRecord) (storeRawPayload : Bool)
    (importedAt : Int) (counters : ImportCounters) (db : Database) : Prop where
  counters : counters = countersOf records
  represents : db.Represents (datasetOf records storeRawPayload importedAt)
  importable : Importable records

/-! ## The merged stream -/

section Merged

variable {records : List NormalizedSourceRecord} {P : World → Prop}
  {staged : Gen Run NormalizedSourceRecord}
  (h : Yields Idle (Faults env) P staged
    (stableSort NormalizedSourceRecord.iinStart (stagedRecords records)))
include h

/-- The merged stream of the stage is the merge of what it holds. -/
theorem mergeSortedSourceRecords_yields :
    Yields Idle (Faults env) P (mergeSortedSourceRecords staged) (mergedRecords records) := by
  have hmerged := (h.transduce (runs NormalizedSourceRecord.iinStart)).transduce mergeSortedGroups
  rwa [run_runs_stableSort] at hmerged

/-- Counting is quiet. -/
theorem countMergedRecords_yields :
    Yields Quiet (Faults env) P (countMergedRecords (mergeSortedSourceRecords staged))
      (mergedRecords records) :=
  ((mergeSortedSourceRecords_yields h).mono fun _ _ => Idle.quiet).tap fun _ w =>
    ⟨_, rfl, w.clock, w.callRunning, _, rfl⟩

end Merged

/-- **The counters count every merged record and every contribution.** -/
theorem countMergedRecords_moves (env : Environment) (records : List NormalizedSourceRecord)
    (n : Nat) :
    (countMergedRecords (mergeSortedSourceRecords (iterRecords env))).Moves World.counters
      (fun w => StageHolds records w.stage) ⟨n, 0, 0⟩
      ⟨n, (mergedRecords records).length, (contributions (mergedRecords records)).length⟩ := by
  let count : List MergedSourceRecord → ImportCounters := fun done =>
    ⟨n, done.length, (contributions done).length⟩
  have hidle : ∀ w w', Idle w w' → w'.counters = w.counters := by
    rintro w w' ⟨_, _, rfl⟩
    rfl
  have hcount : ∀ done (m : MergedSourceRecord), Triple (fun w => w.counters = count done)
      (modify fun w => { w with counters := { w.counters with
        normalizedRecordCount := w.counters.normalizedRecordCount + 1
        provenanceRecordCount := w.counters.provenanceRecordCount + m.sources.length } } : Run Unit)
      (fun _ w => w.counters = count (done ++ [m])) fun _ _ => True := fun done m =>
    Triple.modify fun w hw => by simp [hw, count, contributions]
  exact (mergeSortedSourceRecords_yields (iterRecords_yields env records)).moves_tap hidle hcount

/-! ## The body of the import -/

theorem sessionFrame_stage : SessionFrame World.stage where
  clock _ _ := rfl
  session _ _ := rfl
  executed _ _ := rfl

theorem sessionFrame_counters : SessionFrame World.counters where
  clock _ _ := rfl
  session _ _ := rfl
  executed _ _ := rfl

/-- What `replace_all` leaves of the merged records is the dataset of the records. -/
theorem imported_of_loaded {records : List NormalizedSourceRecord} {storeRawPayload : Bool}
    {importedAt : Int} {dataSourceIds : Dict Str Nat} {dataSources : List DataSourceModel}
    {counters : ImportCounters} {db : Database} (hbindable : ∀ r ∈ records, Bindable r)
    (hsources : SourcesLoaded (firstSeen records) dataSourceIds dataSources)
    (hloaded : Loaded dataSourceIds importedAt storeRawPayload dataSources
      (mergedRecords records) db)
    (hcounters : counters = countersOf records) :
    Imported records storeRawPayload importedAt counters db where
  counters := hcounters
  represents := represents_of_loaded hsources hloaded exists_metadata
  importable := by
    have hdistinct : SourcesDistinct dataSourceIds (mergedRecords records) :=
      hsources.sourcesDistinct exists_metadata
    refine ⟨hbindable, (nodup_linkedSources_iff hloaded.records hloaded.ids
      (nodup_mergedRecords records) hdistinct importedAt storeRawPayload).mp ?_⟩
    have hperm := hloaded.sources.map BinRecordSourceValues.uniqueKey
    rw [List.map_map] at hperm
    exact hperm.nodup_iff.mp hloaded.unique

/-- **From a filled stage, `replace_all` writes the dataset and counts it.** -/
theorem replaceAll_staged_triple {records : List NormalizedSourceRecord} {w : World}
    (hw : StageHolds records w.stage) (storeRawPayload : Bool) :
    Triple (fun w' => w'.stage = w.stage ∧ w'.counters = ⟨records.length, 0, 0⟩)
      (replaceAll env ⟨countMergedRecords (mergeSortedSourceRecords (iterRecords env)),
        w.stage.sourceMetadataById, storeRawPayload⟩)
      (fun _ w' => Imported records storeRawPayload env.now w'.counters w'.session)
      fun e _ => ImportRaises env records e := by
  rw [hw.metadata]
  let replacement : ImportReplacement :=
    ⟨countMergedRecords (mergeSortedSourceRecords (iterRecords env)), firstSeen records,
      storeRawPayload⟩
  have hstays : ∀ w' : World, w'.stage = w.stage → StageHolds records w'.stage :=
    fun w' h => h ▸ hw
  have hreplace : Triple (fun w' => w'.stage = w.stage) (replaceAll env replacement) _
      fun e _ => ImportRaises env records e :=
    replaceAll_triple Or.inl sessionFrame_stage
      ((countMergedRecords_yields (iterRecords_yields env records)).conseq hstays)
      (nodup_mergedRecords records) id (sourceId_of_mem_firstSeen records) exists_metadata
  have hmoves : Triple (fun w' => w'.stage = w.stage ∧ w'.counters = ⟨records.length, 0, 0⟩)
      (replaceAll env replacement) (fun _ w' => w'.counters = countersOf records) Anything :=
    replaceAll_moves sessionFrame_counters sessionFrame_stage fun _ f b hf =>
      (countMergedRecords_moves env records records.length f b hf).conseq
        (fun w' h => ⟨hstays w' h.1, h.2⟩) (fun _ _ h => h) fun _ _ h => h
  refine (hreplace.and hmoves).conseq (fun _ h => ⟨h.1, h⟩) ?_ fun _ _ h => h.1
  rintro _ w' ⟨⟨dataSourceIds, dataSources, hsources, hloaded⟩, hcounted⟩
  exact imported_of_loaded hw.bindable hsources hloaded hcounted

/-- **The body of the import writes the dataset of the emitted records into the session.** -/
theorem importStaged_triple (adapters : List SourceAdapter) (storeRawPayload : Bool) :
    Triple (fun w => w.stage = {}) (importStaged env adapters storeRawPayload)
      (fun counters w => Imported (emitted adapters) storeRawPayload env.now counters w.session)
      fun e _ => ImportRaises env (emitted adapters) e := by
  let records := emitted adapters
  have hstage : Triple (fun w => w.stage = {}) (stageSourceRecords env adapters)
      (fun n w => n = records.length ∧ StageHolds records w.stage)
      fun e _ => ImportRaises env records e :=
    (stageSourceRecords_triple adapters).conseq (fun _ hw => hw ▸ stageHolds_nil)
      (fun _ _ h => h) fun _ _ h => h.mono Or.inl id False.elim
  refine hstage.bind fun n => ?_
  have hcount : Triple (fun w => n = records.length ∧ StageHolds records w.stage)
      (modify fun w => { w with counters := { sourceRecordCount := n } } : Run Unit)
      (fun _ w => StageHolds records w.stage ∧ w.counters = ⟨records.length, 0, 0⟩)
      fun e _ => ImportRaises env records e :=
    Triple.modify fun _ hw => ⟨hw.2, by rw [← hw.1]⟩
  refine hcount.bind fun _ => Triple.getBind fun w hw => ?_
  have hreplace : Triple _ (replaceAll env _) _ fun e _ => ImportRaises env records e :=
    replaceAll_staged_triple hw.1 storeRawPayload
  refine (hreplace.bind fun _ => ?_) w ⟨rfl, hw.2⟩
  exact fun _ h => h

/-! ## The whole import -/

/-- A step on the stage file raises only as a fault. -/
theorem stageStep_triple {α : Type} {s : StageStep} {x : Run α} {P : World → Prop}
    {Q : α → World → Prop} {R : Failure → Prop} (hx : Triple P x Q fun e _ => R e)
    (hfault : env.stageFault s ≠ none → R .raised) :
    Triple P (stageStep env s x) Q fun e _ => R e := by
  unfold stageStep failing
  cases hf : env.stageFault s with
  | none => exact hx
  | some fault =>
    have hraised : R .raised := hfault (by simp [hf])
    cases fault with
    | before => exact Triple.raise fun _ _ => hraised
    | after | running => exact hx.bind fun _ => Triple.raise fun _ _ => hraised

/-- A new stage is empty. -/
theorem createStage_triple {R : Failure → Prop}
    (hfault : ∀ s, env.stageFault s ≠ none → R .raised) :
    Triple (fun _ => True) (createStage env) (fun _ w => w.stage = {}) fun e _ => R e := by
  have hstep : ∀ {P : World → Prop} (s : StageStep),
      Triple P (stageStep env s (pure ())) (fun _ => P) fun e _ => R e := fun s =>
    stageStep_triple (Triple.pure fun _ h => h) (hfault s)
  have hmkstemp : Triple (fun _ => True) (stageStep env .mkstemp do
      let w ← get
      set { w with tempFiles := env.stagePath w.tempFiles :: w.tempFiles }
      return env.stagePath w.tempFiles) (fun _ _ => True) fun e _ => R e :=
    stageStep_triple (fun _ _ => trivial) (hfault .mkstemp)
  have hpath : Triple (fun _ => True) (makeTemporaryStagePath env) (fun _ _ => True)
      fun e _ => R e :=
    hmkstemp.bind fun path => (hstep .closeDescriptor).bind fun _ => Triple.pure fun _ h => h
  have hempty : Triple (fun _ => True)
      (modify fun w => { w with stage := {}, callRunning := false } : Run Unit)
      (fun _ w => w.stage = {}) (fun e _ => R e) := Triple.modify fun _ _ => rfl
  exact hpath.bind fun path => (hstep .connect).bind fun _ => hempty.bind fun _ =>
    (hstep .createTable).bind fun _ => (hstep .commitSchema).bind fun _ =>
      Triple.pure fun _ h => h

/-- What an import leaves in the session. -/
theorem importSources_triple (adapters : List SourceAdapter) (storeRawPayload : Bool) :
    Triple (fun _ => True) (importSources env adapters storeRawPayload)
      (fun counters w => Imported (emitted adapters) storeRawPayload env.now counters w.session)
      fun e _ => ImportRaises env (emitted adapters) e := by
  let R := ImportRaises env (emitted adapters)
  have hfault : ∀ s, env.stageFault s ≠ none → R .raised := fun s hs => Or.inr ⟨s, hs⟩
  have hclose : ∀ (P : Database → Prop) (path : Nat), Triple (fun w => P w.session)
      (closeStage env path) (fun _ w => P w.session) fun e _ => R e := fun P path => by
    have hconnection : ∀ s, Triple (fun w => P w.session)
        (stageStep env s (pure ())) (fun _ w => P w.session) fun e _ => R e := fun s =>
      stageStep_triple (Triple.pure fun _ h => h) (hfault s)
    exact Triple.getBind fun w hw => ((hconnection (closingStep w)).bind fun _ =>
      stageStep_triple (Triple.modify fun _ h => h) (hfault .unlink)) w hw
  refine (createStage_triple hfault).bind fun path =>
    (importStaged_triple adapters storeRawPayload).withFinally
      (fun counters => hclose _ path) fun e w he => ?_
  exact (hclose (fun _ => True) path w trivial).mono (fun _ _ _ => he) fun _ _ h => h

/-- **An import commits the dataset of the emitted records, or nothing**, and raises only for a
cause. -/
theorem storeImportSources_spec (env : Environment) (adapters : List SourceAdapter)
    (storeRawPayload : Bool) (w : World) :
    Post (storeImportSources env adapters storeRawPayload w)
      (fun counters w' =>
        Imported (emitted adapters) storeRawPayload env.now counters w'.committed)
      fun e w' => w'.committed = w.committed ∧ ImportRaises env (emitted adapters) e :=
  (transaction_spec env (keeps_importSources runFrame_committed adapters storeRawPayload)
    (importSources_triple adapters storeRawPayload) Or.inl (fun _ _ _ _ h => h) w trivial).mono
    (fun _ _ h => h.1 ▸ h.2) fun _ _ h => h

theorem storeImportSources_post (env : Environment) (adapters : List SourceAdapter)
    (storeRawPayload : Bool) (w : World) :
    Post (storeImportSources env adapters storeRawPayload w)
      (fun _ w' =>
        w'.committed.Represents (datasetOf (emitted adapters) storeRawPayload env.now))
      fun _ w' => w'.committed = w.committed :=
  (storeImportSources_spec env adapters storeRawPayload w).mono (fun _ _ h => h.represents)
    fun _ _ h => h.1

/-- **When no step fails, an import returns exactly when its records are importable**: neither the
payload flag, nor the batch sizes, nor the tables before matter. -/
theorem storeImportSources_returns_iff (env : Environment) (adapters : List SourceAdapter)
    (storeRawPayload : Bool) (w : World) :
    Completes (storeImportSources env.faultless adapters storeRawPayload w) ↔
      Importable (emitted adapters) := by
  have hspec := storeImportSources_spec env.faultless adapters storeRawPayload w
  cases hrun : storeImportSources env.faultless adapters storeRawPayload w with
  | ok counters w' =>
    rw [hrun] at hspec
    exact ⟨fun _ => hspec.importable, fun _ => ⟨counters, w', rfl⟩⟩
  | error e w' =>
    rw [hrun] at hspec
    refine ⟨fun ⟨_, _, h⟩ => absurd h (by simp), fun himport => ?_⟩
    cases e with
    | raised => rcases hspec.2 with ⟨n, hn⟩ | ⟨s, hs⟩ <;> exact absurd rfl ‹_›
    | overflowError =>
      obtain ⟨r, hr, hbind⟩ := hspec.2
      exact absurd (himport.bindable r hr) hbind
    | keyError => exact absurd hspec.2 id
    | integrityError => exact absurd himport.distinct hspec.2

end CardBinData
