import CardBinData.History
import Mathlib.Data.List.Perm.Subperm

/-!
# What a failed import leaves in the session

`import_sources_with_session` runs in a transaction of the caller's, who may catch what it raises
and commit. Each statement either has its effect or has not, so a failure at any step leaves the
session between two statements of `replace_all`: with the tables before, without their provenance,
without records, or with the first batches of the new records, the last of them with part of its
provenance (`PartlyLoaded`).

* `interrupted_import`: in each of these states every lookup answers, with what the first records of
  the old or of the new dataset answer and no attribution that they do not have.

The result is about sessions that go on answering. A statement that PostgreSQL refuses aborts the
transaction, so that later lookups on the session raise until it is rolled back.
-/

namespace CardBinData

open Library

variable {α : Type} {env : Environment}

/-- A raise leaves `I` in the session. -/
abbrev Leaves (I : Database → Prop) : Failure → World → Prop := fun _ w => I w.session

/-- What does not touch the session leaves there what it held. -/
theorem keeps_leaves {x : Run α} (hx : Keeps World.session x) {I : Database → Prop} :
    Triple (fun w => I w.session) x (fun _ w => I w.session) (Leaves I) := by
  intro w hw
  refine (hx w.session w rfl).mono (fun _ w' h => ?_) fun _ w' h => ?_
  · rwa [h]
  · rwa [Leaves, h]

/-! ## Statements -/

/-- A statement that fails has had its effect, or has not. -/
theorem execute_leaves {statement : Statement} {x : Run α} {db : Database}
    {Q : α → Database → Prop} {I : Database → Prop}
    (h : Triple (fun w => w.session = db) x (fun a w => Q a w.session) (Leaves I))
    (hbefore : I db) (hafter : ∀ a db', Q a db' → I db') :
    Triple (fun w => w.session = db) (execute env statement x) (fun a w => Q a w.session)
      (Leaves I) :=
  have hlog : Triple (fun w => w.session = db)
      (modify fun w => { w with executed := w.executed ++ [statement] } : Run Unit)
      (fun _ w => w.session = db) (Leaves I) := Triple.modify fun _ hw => hw
  hlog.bind fun _ => triple_step env h (fun _ _ hw => hw)
    (fun _ w (hw : w.session = db) => by rwa [Leaves, hw]) fun _ a w hw => hafter a w.session hw

section Statements

variable {I : Database → Prop}

theorem insertBinRecordBatch_leaves {rows : List BinRecordValues}
    (hnd : (rows.map (·.iinStart)).Nodup) {db : Database} (hbefore : I db)
    (hafter : ∀ ids db', BatchInserted rows db ids db' → I db') :
    Triple (fun w => w.session = db) (insertBinRecordBatch env rows)
      (fun ids w => BatchInserted rows db ids w.session) (Leaves I) := by
  refine execute_leaves (Triple.getBind fun w hw => ?_) hbefore hafter
  subst hw
  exact batchInserted_newRows (env.length_newIds _ _ _) (env.nodup_newIds _ _ _)
    (env.newIds_fresh w.clock (w.session.binRecords.map (·.id)) rows.length) hnd
    (env.returned_perm _ _)

theorem insertRecordSources_leaves {rows : List BinRecordSourceValues} {db : Database}
    (hbefore : I db) (hafter : ∀ db', SourcesInserted rows db db' → I db') :
    Triple (fun w => w.session = db) (insertRecordSourcesIfAny env rows)
      (fun _ w => SourcesInserted rows db w.session) (Leaves I) := by
  unfold insertRecordSourcesIfAny
  split
  · rename_i hempty
    rw [List.isEmpty_iff.mp hempty]
    exact Triple.pure fun w hw => hw ▸ sourcesInserted_nil db
  · refine execute_leaves (Triple.getBind fun w hw => ?_) hbefore fun _ => hafter
    subst hw
    simp only
    split
    · rename_i hunique
      exact sourcesInserted_newRows (env.length_newIds _ _ _) hunique
    · exact hbefore

/-- A batch that fails has inserted some of its rows. -/
theorem insertRecordSourceBatch_leaves {rows : List BinRecordSourceValues} {db : Database}
    (hI : ∀ rows' db', rows'.Subperm rows → SourcesInserted rows' db db' → I db') :
    Triple (fun w => w.session = db) (insertRecordSourceBatch env rows)
      (fun _ w => SourcesInserted rows db w.session) (Leaves I) := by
  have hperm : (rows.filter (!·.isJsonText) ++ rows.filter (·.isJsonText)).Perm rows :=
    List.perm_append_comm.trans (List.filter_append_perm _ rows)
  have hmapping : (rows.filter (!·.isJsonText)).Subperm rows := List.filter_sublist.subperm
  refine (insertRecordSources_leaves (hI [] db List.nil_subperm (sourcesInserted_nil db))
    fun db' h => hI _ db' hmapping h).bind fun _ w hw => ?_
  exact (insertRecordSources_leaves (hI _ w.session hmapping hw)
    (fun db' h => hI _ db' hperm.subperm (hw.append h)) w rfl).mono
    (fun _ _ h => (hw.append h).perm hperm) fun _ _ h => h

/-- A list of rows that fails in some batch has inserted some of them. -/
theorem insertRecordSourceRows_leaves {rows : List BinRecordSourceValues} {db : Database}
    (hI : ∀ rows' db', rows'.Subperm rows → SourcesInserted rows' db db' → I db') :
    Triple (fun w => w.session = db) (insertRecordSourceRows env (Gen.ofList rows))
      (fun _ w => SourcesInserted rows db w.session) (Leaves I) := by
  have hstep : ∀ done batch rest, rows = done ++ batch ++ rest →
      Triple (fun w => SourcesInserted done db w.session) (insertRecordSourceBatch env batch)
        (fun _ w => SourcesInserted (done ++ batch) db w.session) (Leaves I) := by
    intro done batch rest hrows w hw
    refine (insertRecordSourceBatch_leaves (fun rows' db' hsub h => ?_) w rfl).mono
      (fun _ _ h => hw.append h) fun _ _ h => h
    refine hI (done ++ rows') db' ?_ (hw.append h)
    rw [hrows]
    exact (List.Subperm.append (List.Subperm.refl done) hsub).trans
      (List.sublist_append_left _ _).subperm
  exact ((yields_ofList (fun _ => True) rows).forEach_batches
    (fun _ _ _ hs h => hs ▸ h) (fun _ _ _ _ _ _ h => h.elim) hstep
    env.recordSourceBatchSize).conseq
    (fun w hw => ⟨trivial, hw ▸ sourcesInserted_nil db⟩) (fun _ _ h => h) fun _ _ h => h

end Statements

/-! ## Batches of records -/

section Batches

variable {dataSourceIds : Dict Str Nat} {importedAt : Int} {storeRawPayload : Bool}
  {dataSources : List DataSourceModel}

/-- The tables in the middle of the streamed insert: all of the records so far, and some of their
provenance. -/
structure PartlyLoaded (dataSourceIds : Dict Str Nat) (importedAt : Int) (storeRawPayload : Bool)
    (dataSources : List DataSourceModel) (done : List MergedSourceRecord) (db : Database) :
    Prop where
  dataSources : db.dataSources = dataSources
  records : db.binRecords.map (·.toBinRecordValues) = done.map fun m => binRecordValues m.record
  ids : (db.binRecords.map (·.id)).Nodup
  sources : (db.binRecordSources.map (·.toBinRecordSourceValues)).Subperm
    (linkedSources dataSourceIds importedAt storeRawPayload (done.zip db.binRecords))

section Loaded

variable {done batch : List MergedSourceRecord} {db : Database}
  (h : Loaded dataSourceIds importedAt storeRawPayload dataSources done db)
include h

theorem Loaded.partly :
    PartlyLoaded dataSourceIds importedAt storeRawPayload dataSources done db :=
  ⟨h.dataSources, h.records, h.ids, h.sources.subperm⟩

/-- The records of a batch, and some of its provenance rows. -/
theorem Loaded.partly_extend {new : List BinRecordModel}
    (hvalues : new.map (·.toBinRecordValues) = batch.map fun m => binRecordValues m.record)
    (hids : (new.map (·.id)).Nodup) (hfresh : ∀ r ∈ new, r.id ∉ db.binRecords.map (·.id))
    {rows : List BinRecordSourceValues} (hrows : rows.Subperm
      (linkedSources dataSourceIds importedAt storeRawPayload (batch.zip new))) {db' : Database}
    (hsources : SourcesInserted rows { db with binRecords := db.binRecords ++ new } db') :
    PartlyLoaded dataSourceIds importedAt storeRawPayload dataSources (done ++ batch) db' := by
  obtain ⟨newSources, rfl, hperm, -⟩ := hsources
  exact
    { dataSources := h.dataSources
      records := h.append_values hvalues
      ids := h.append_ids hids hfresh
      sources := by
        rw [List.map_append, h.linkedSources_append]
        exact List.Subperm.append h.sources.subperm (hperm.subperm.trans hrows) }

end Loaded

/-- The tables in the middle of inserting `merged`. -/
def Loading (dataSourceIds : Dict Str Nat) (importedAt : Int) (storeRawPayload : Bool)
    (dataSources : List DataSourceModel) (merged : List MergedSourceRecord) (db : Database) :
    Prop :=
  ∃ done, done <+: merged ∧
    PartlyLoaded dataSourceIds importedAt storeRawPayload dataSources done db

variable {merged : List MergedSourceRecord}

theorem insertMergedRecordBatch_leaves {done batch rest : List MergedSourceRecord}
    (hmerged : merged = done ++ batch ++ rest) (hnd : (merged.map (·.record.iinStart)).Nodup)
    (hknown : SourcesKnown dataSourceIds merged) :
    Triple (fun w => Loaded dataSourceIds importedAt storeRawPayload dataSources done w.session)
      (insertMergedRecordBatch env batch dataSourceIds importedAt storeRawPayload)
      (fun _ w =>
        Loaded dataSourceIds importedAt storeRawPayload dataSources (done ++ batch) w.session)
      (Leaves (Loading dataSourceIds importedAt storeRawPayload dataSources merged)) := by
  intro w hw
  have hprefix : done ++ batch <+: merged := hmerged ▸ List.prefix_append _ _
  have hbatch : batch.Sublist merged := by
    rw [hmerged]
    exact (List.sublist_append_right _ _).trans (List.sublist_append_left _ _)
  -- a failure in the middle of the batch, with some of its provenance inserted
  have hpartly : ∀ new : List BinRecordModel,
      new.map (·.toBinRecordValues) = batch.map (fun m => binRecordValues m.record) →
      (new.map (·.id)).Nodup → (∀ r ∈ new, r.id ∉ w.session.binRecords.map (·.id)) →
      ∀ rows' db', rows'.Subperm
        (linkedSources dataSourceIds importedAt storeRawPayload (batch.zip new)) →
      SourcesInserted rows' { w.session with binRecords := w.session.binRecords ++ new } db' →
      Loading dataSourceIds importedAt storeRawPayload dataSources merged db' :=
    fun new hvalues hids hfresh rows' db' hsub hsources =>
      ⟨done ++ batch, hprefix, hw.partly_extend hvalues hids hfresh hsub hsources⟩
  refine ((insertBinRecordBatch_leaves (nodup_iinStart_rows (hnd.sublist (hbatch.map _)))
    ⟨done, (List.prefix_append _ _).trans hprefix, hw.partly⟩ ?_).bind fun ids => ?_) w rfl
  · rintro ids db' ⟨new, rfl, hvalues, hids, hfresh, -⟩
    exact hpartly new hvalues hids hfresh [] _ List.nil_subperm (sourcesInserted_nil _)
  · rintro w' ⟨new, hdb, hvalues, hids, hfresh, hget⟩
    rw [recordSourceRows_eq (forall₂_get? hvalues hget) fun m hm => hknown m (hbatch.subset hm)]
    refine (insertRecordSourceRows_leaves (fun rows' db' hsub h => ?_) w' rfl).mono
      (fun _ _ h => hw.extend hvalues hids hfresh (hdb ▸ h)) fun _ _ h => h
    exact hpartly new hvalues hids hfresh rows' db' hsub (hdb ▸ h)

theorem insertStreamedRecords_leaves {P : World → Prop} {records : Gen Run MergedSourceRecord}
    (hyields : Yields Quiet (Faults env) P records merged)
    (hnd : (merged.map (·.record.iinStart)).Nodup) (hknown : SourcesKnown dataSourceIds merged)
    (dataSources : List DataSourceModel) :
    Triple (fun w => P w ∧
        Loaded dataSourceIds importedAt storeRawPayload dataSources [] w.session)
      (insertStreamedRecords env records dataSourceIds importedAt storeRawPayload)
      (fun _ w => Loaded dataSourceIds importedAt storeRawPayload dataSources merged w.session)
      (Leaves (Loading dataSourceIds importedAt storeRawPayload dataSources merged)) := by
  have hbody : ∀ done batch rest, merged = done ++ batch ++ rest →
      Triple (fun w => done <+: merged ∧
          Loaded dataSourceIds importedAt storeRawPayload dataSources done w.session)
        (insertMergedRecordBatch env batch dataSourceIds importedAt storeRawPayload)
        (fun _ w => done ++ batch <+: merged ∧
          Loaded dataSourceIds importedAt storeRawPayload dataSources (done ++ batch) w.session)
        (Leaves (Loading dataSourceIds importedAt storeRawPayload dataSources merged)) :=
    fun done batch rest hmerged => (insertMergedRecordBatch_leaves hmerged hnd hknown).conseq
      (fun _ h => h.2) (fun _ _ h => ⟨hmerged ▸ List.prefix_append _ _, h⟩) fun _ _ h => h
  refine (hyields.forEach_batches ?_ ?_ hbody env.insertBatchSize).conseq
    (fun _ h => ⟨h.1, List.nil_prefix, h.2⟩) (fun _ _ h => h.2) fun _ _ h => h
  · rintro done w _ ⟨n, b, c, rfl⟩ h
    exact h
  -- the stage raises between two batches
  · rintro done w e _ ⟨n, b, c, rfl⟩ h -
    exact ⟨done, h.1, h.2.partly⟩

end Batches

/-! ## The whole import -/

/-- What a failed import leaves in a session that held `old`. -/
inductive Interrupted (importedAt : Int) (storeRawPayload : Bool)
    (metadataById : Dict Str SourceMetadata) (merged : List MergedSourceRecord) (old : Database) :
    Database → Prop
  | untouched : Interrupted importedAt storeRawPayload metadataById merged old old
  | unattributed : Interrupted importedAt storeRawPayload metadataById merged old
      { old with binRecordSources := [] }
  | withoutRecords (dataSources : List DataSourceModel) :
      Interrupted importedAt storeRawPayload metadataById merged old
        { Database.empty with dataSources := dataSources }
  | loading {dataSourceIds : Dict Str Nat} {dataSources : List DataSourceModel} {db : Database}
      (hsources : SourcesLoaded metadataById dataSourceIds dataSources)
      (h : Loading dataSourceIds importedAt storeRawPayload dataSources merged db) :
      Interrupted importedAt storeRawPayload metadataById merged old db

section Import

variable {old : Database} {merged : List MergedSourceRecord} {storeRawPayload : Bool}

theorem insertDataSourceMetadata_leaves {metadataById : Dict Str SourceMetadata}
    (hkeys : ∀ e ∈ metadataById.items, e.2.sourceId = e.1) {db : Database}
    {I : Database → Prop} (hdb : db.dataSources = []) (hbefore : I db)
    (hafter : ∀ ids db', MetadataInserted metadataById db ids db' → I db') :
    Triple (fun w => w.session = db) (insertDataSourceMetadata env metadataById)
      (fun ids w => MetadataInserted metadataById db ids w.session) (Leaves I) := by
  unfold insertDataSourceMetadata
  split
  · rename_i hempty
    refine Triple.pure fun w hw => ⟨[], ?_, sourcesLoaded_nil hempty⟩
    rw [hw, ← hdb]
  · simp only
    refine execute_leaves (Triple.getBind fun w hw => ?_) hbefore hafter
    subst hw
    simp only [hdb, List.nil_append, List.map_nil]
    have hloaded := sourcesLoaded_newRows hkeys
      (env.length_newIds w.clock [] (dataSourceRows metadataById).length)
      (env.nodup_newIds _ _ _) (env.returned_perm w.clock _)
    split
    · exact ⟨_, rfl, hloaded⟩
    · rename_i hclash
      exact absurd hloaded.sourceIds hclash

/-- The deletes and the metadata. -/
theorem replaceSources_leaves {metadataById : Dict Str SourceMetadata}
    (hkeys : ∀ e ∈ metadataById.items, e.2.sourceId = e.1) (importedAt : Int) :
    Triple (fun w => w.session = old) (replaceSources env metadataById)
      (fun dataSourceIds w => ∃ dataSources, SourcesLoaded metadataById dataSourceIds dataSources ∧
        Loaded dataSourceIds importedAt storeRawPayload dataSources [] w.session)
      (Leaves (Interrupted importedAt storeRawPayload metadataById merged old)) := by
  have hdelete : ∀ (statement : Statement) (f : Database → Database) (db : Database),
      Interrupted importedAt storeRawPayload metadataById merged old db →
      Interrupted importedAt storeRawPayload metadataById merged old (f db) →
      Triple (fun w => w.session = db)
        (execute env statement (modify fun w => { w with session := f w.session }))
        (fun _ w => w.session = f db)
        (Leaves (Interrupted importedAt storeRawPayload metadataById merged old)) :=
    fun statement f db hbefore hafter =>
      execute_leaves (Q := fun _ db' => db' = f db) (Triple.modify fun _ hw => congrArg f hw)
        hbefore fun _ _ h => h ▸ hafter
  have hbinRecordSources := hdelete .deleteBinRecordSources
    (fun db => { db with binRecordSources := [] }) old .untouched .unattributed
  have hbinRecords := hdelete .deleteBinRecords (fun db => { db with binRecords := [] })
    { old with binRecordSources := [] } .unattributed (.withoutRecords old.dataSources)
  have hdataSources := hdelete .deleteDataSources (fun db => { db with dataSources := [] })
    { Database.empty with dataSources := old.dataSources } (.withoutRecords old.dataSources)
    (.withoutRecords [])
  refine hbinRecordSources.bind fun _ => hbinRecords.bind fun _ => hdataSources.bind fun _ => ?_
  refine (insertDataSourceMetadata_leaves hkeys rfl (.withoutRecords []) ?_).conseq
    (fun _ h => h) ?_ fun _ _ h => h
  · rintro _ _ ⟨dataSources, rfl, -⟩
    exact .withoutRecords dataSources
  · rintro dataSourceIds w ⟨dataSources, hdb, hsources⟩
    exact ⟨dataSources, hsources, hdb ▸ loaded_nil dataSources⟩

/-- Whatever step of `replace_all` fails, the session is between two of its statements. -/
theorem replaceAll_leaves {records : ImportReplacement} {stage : SourceRecordStage}
    (hyields : Yields Quiet (Faults env) (fun w => w.stage = stage) records.records merged)
    (hnd : (merged.map (·.record.iinStart)).Nodup)
    (hkeys : ∀ e ∈ records.sourceMetadata.items, e.2.sourceId = e.1)
    (hsrc : ∀ m ∈ merged, ∀ s ∈ m.sources, ∃ e ∈ records.sourceMetadata.items,
      e.2.sourceId = s.source.sourceId) :
    Triple (fun w => w.session = old ∧ w.stage = stage) (replaceAll env records)
      (fun _ w => ∃ dataSourceIds dataSources,
        SourcesLoaded records.sourceMetadata dataSourceIds dataSources ∧
        Loaded dataSourceIds env.now records.storeRawPayload dataSources merged w.session)
      (Leaves (Interrupted env.now records.storeRawPayload records.sourceMetadata merged old)) := by
  rw [replaceAll_eq]
  refine ((replaceSources_leaves hkeys env.now).frame
    (keeps_replaceSources sessionFrame_stage _) stage).bind fun dataSourceIds => ?_
  rintro w ⟨⟨dataSources, hsources, hstart⟩, hstage⟩
  have hstream : Triple _ (insertStreamedRecords env records.records dataSourceIds env.now
      records.storeRawPayload) _ _ :=
    insertStreamedRecords_leaves hyields hnd (hsources.sourcesKnown hsrc) dataSources
  refine ((hstream.conseq (fun _ h => h) (fun _ _ h => h) fun _ _ h => .loading hsources h).bind
    fun _ => ?_) w ⟨hstage, hstart⟩
  exact (step_pure_triple env (fun _ _ hq h => by
    obtain ⟨n, b, rfl⟩ := hq
    exact h) fun _ _ h => .loading hsources ⟨merged, List.prefix_rfl, h.partly⟩).conseq
    (fun _ h => h) (fun _ _ h => ⟨dataSourceIds, dataSources, hsources, h⟩) fun _ _ h => h

theorem stageFrame_session : StageFrame env World.session where
  clock _ _ := rfl
  call _ _ _ := rfl
  stage _ _ := rfl

/-- What an import of the records that fails leaves of the tables `old`. -/
abbrev ImportLeaves (env : Environment) (records : List NormalizedSourceRecord)
    (storeRawPayload : Bool) (old : Database) : Database → Prop :=
  Interrupted env.now storeRawPayload (firstSeen records) (mergedRecords records) old

theorem importStaged_leaves (adapters : List SourceAdapter) :
    Triple (fun w => w.stage = {} ∧ w.session = old) (importStaged env adapters storeRawPayload)
      (fun _ w => ImportLeaves env (emitted adapters) storeRawPayload old w.session)
      (Leaves (ImportLeaves env (emitted adapters) storeRawPayload old)) := by
  let records := emitted adapters
  have hstage : Triple (fun w => w.stage = {} ∧ w.session = old) (stageSourceRecords env adapters)
      (fun _ w => StageHolds records w.stage ∧ w.session = old)
      (Leaves (ImportLeaves env records storeRawPayload old)) :=
    ((stageSourceRecords_triple adapters).and
      (keeps_stageSourceRecords stageFrame_session adapters old)).conseq
      (fun _ hw => ⟨hw.1 ▸ stageHolds_nil, hw.2⟩) (fun _ _ hw => ⟨hw.1.2, hw.2⟩)
      fun _ _ hw => hw.2 ▸ .untouched
  refine hstage.bind fun n => ?_
  have hcount : Triple (fun w => StageHolds records w.stage ∧ w.session = old)
      (modify fun w => { w with counters := { sourceRecordCount := n } } : Run Unit)
      (fun _ w => StageHolds records w.stage ∧ w.session = old)
      (Leaves (ImportLeaves env records storeRawPayload old)) := Triple.modify fun _ hw => hw
  refine hcount.bind fun _ => Triple.getBind fun w hw => ?_
  rw [hw.1.metadata]
  have hyields := (countMergedRecords_yields (iterRecords_yields env records)).conseq
    fun (w' : World) (h : w'.stage = w.stage) => h ▸ hw.1
  refine ((replaceAll_leaves hyields (nodup_mergedRecords records)
    (sourceId_of_mem_firstSeen records) exists_metadata).bind fun _ => ?_) w ⟨hw.2, rfl⟩
  rintro w' ⟨dataSourceIds, dataSources, hsources, h⟩
  exact .loading hsources ⟨_, List.prefix_rfl, h.partly⟩

/-- **A failed import leaves the session between two statements of `replace_all`.** -/
theorem importSources_leaves (adapters : List SourceAdapter) :
    Triple (fun w => w.session = old) (importSources env adapters storeRawPayload)
      (fun _ w => ImportLeaves env (emitted adapters) storeRawPayload old w.session)
      (Leaves (ImportLeaves env (emitted adapters) storeRawPayload old)) := by
  have hcreate : Triple (fun w => w.session = old) (createStage env)
      (fun _ w => w.stage = {} ∧ w.session = old)
      (Leaves (ImportLeaves env (emitted adapters) storeRawPayload old)) :=
    ((createStage_triple (R := fun _ => True) fun _ _ => trivial).and
      (@keeps_createStage _ World.session _ (fun _ _ => rfl) (fun _ _ => rfl) old)).conseq
      (fun _ hw => ⟨trivial, hw⟩) (fun _ _ hw => hw) fun _ _ hw => hw.2 ▸ .untouched
  have hclose : ∀ path, Keeps World.session (closeStage env path) := fun path =>
    keeps_closeStage (fun _ _ => rfl) path
  exact hcreate.bind fun path => (importStaged_leaves adapters).withFinally
    (fun _ => keeps_leaves (hclose path)) fun _ => keeps_leaves (hclose path)

end Import

/-! ## Lookups between two statements -/

/-- Every lookup answers what the first `n` merged records of the catalog answer, with attributions
of theirs. -/
def Catalog.PartlyIn (self : Catalog) (n : Nat) (db : Database) : Prop :=
  ∀ backend value validateLuhn, ∃ result,
    lookupWithSession backend db value validateLuhn = some result ∧
    result.Like List.Subperm
      (self.lookupAmong ((mergedRecords self.records).take n) value validateLuhn)

/-- Tables whose rows hold the first merged records, and whose provenance is theirs. -/
theorem partlyIn_of_holds {self : Catalog} {n : Nat} {db : Database}
    (hrows : db.binRecords.map (·.toBinRecordValues) =
      ((mergedRecords self.records).take n).map fun m => binRecordValues m.record)
    (hsources : ∀ backend row m,
      Holds db.binRecords ((mergedRecords self.records).take n) row m →
      ∃ attributions, sourceAttributions backend db row = some attributions ∧
        attributions.Subperm (m.sources.map self.attribution)) : self.PartlyIn n db :=
  fun backend => lookup_among self backend hrows
    ((nodup_mergedRecords self.records).sublist ((List.take_sublist _ _).map _))
    (List.Subperm.refl []) (hsources backend)

/-- A row without provenance has no attributions. -/
theorem sourceAttributions_nil (backend : Backend) {db : Database} (hdb : db.binRecordSources = [])
    (row : BinRecordModel) : sourceAttributions backend db row = some [] := by
  have hnil := backend.collected_perm []
  rw [sourceAttributions, Database.sources, hdb, List.filter_nil, hnil.eq_nil]
  rfl

section Represents

variable {self : Catalog} {db : Database} {storeRawPayload : Bool}
  (h : db.Represents (datasetOf self.records storeRawPayload self.importedAt))
include h

theorem binRecords_take : db.binRecords.map (·.toBinRecordValues) =
    ((mergedRecords self.records).take (mergedRecords self.records).length).map
      fun m => binRecordValues m.record := by
  rw [List.take_length]
  exact h.binRecords

/-- The tables before the import. -/
theorem partlyIn_untouched : self.PartlyIn (mergedRecords self.records).length db := by
  refine partlyIn_of_holds (binRecords_take h) fun backend row m hm => ?_
  obtain ⟨keys, -, -, heq⟩ := mergedRecords_eq_map self.records
  have hmerged := hm.mem_merged
  rw [List.take_length, heq] at hmerged
  obtain ⟨k, -, rfl⟩ := List.mem_map.mp hmerged
  obtain rfl : row.iinStart = k := hm.iinStart
  obtain ⟨attributions, hattr, hperm⟩ := sourceAttributions_staged h hm.mem_rows backend
  exact ⟨attributions, hattr, hperm.subperm⟩

/-- The tables before the import, without their provenance. -/
theorem partlyIn_unattributed :
    self.PartlyIn (mergedRecords self.records).length { db with binRecordSources := [] } := by
  have hrows := binRecords_take h
  exact partlyIn_of_holds hrows fun backend row _ _ =>
    ⟨[], sourceAttributions_nil backend rfl row, List.nil_subperm⟩

end Represents

theorem partlyIn_withoutRecords (self : Catalog) (dataSources : List DataSourceModel) :
    self.PartlyIn 0 { Database.empty with dataSources := dataSources } :=
  partlyIn_of_holds rfl fun _ _ _ hm => absurd hm.mem_rows List.not_mem_nil

section Loading

variable {next : Catalog} {storeRawPayload : Bool} {dataSourceIds : Dict Str Nat}
  {dataSources : List DataSourceModel} {done : List MergedSourceRecord}

section Rows

variable {rows : List BinRecordModel}
  (hrows : rows.map (·.toBinRecordValues) = done.map fun m => binRecordValues m.record)
include hrows

/-- A row stands beside its record. -/
theorem mem_zip_of_holds (hnd : (done.map (·.record.iinStart)).Nodup) {row : BinRecordModel}
    {m : MergedSourceRecord} (hm : Holds rows done row m) : (m, row) ∈ done.zip rows := by
  have hpairs := List.forall₂_iff_zip.mp (forall₂_of_map_eq hrows)
  have hmem := hm.mem_rows
  rw [← List.map_snd_zip hpairs.1.ge] at hmem
  obtain ⟨⟨m', row'⟩, hp, rfl⟩ := List.mem_map.mp hmem
  have hkey : row'.iinStart = m'.record.iinStart :=
    congrArg BinRecordValues.iinStart (hpairs.2 hp)
  obtain rfl : m' = m := List.inj_on_of_nodup_map hnd (List.of_mem_zip hp).1 hm.mem_merged
    (hkey.symm.trans hm.iinStart)
  exact hp

/-- The provenance linked to a row is that of its record. -/
theorem filter_linkedSources (hids : (rows.map (·.id)).Nodup) {importedAt : Int}
    {p : MergedSourceRecord × BinRecordModel} (hp : p ∈ done.zip rows) :
    (linkedSources dataSourceIds importedAt storeRawPayload (done.zip rows)).filter
        (fun v => decide (v.binRecordId = p.2.id)) =
      p.1.sources.map fun s => recordSourceValue p.2.id
        ((dataSourceIds.get? s.source.sourceId).getD 0) s importedAt storeRawPayload := by
  have hpairs := List.forall₂_iff_zip.mp (forall₂_of_map_eq hrows)
  have hsnd : ((done.zip rows).map fun p => p.2.id).Nodup := by
    rw [← List.map_snd_zip hpairs.1.ge, List.map_map] at hids
    exact hids
  refine filter_flatMap_part BinRecordSourceValues.binRecordId (fun p => p.2.id) ?_ hsnd hp
  rintro p - v hv
  obtain ⟨s, -, rfl⟩ := List.mem_map.mp hv
  rfl

end Rows

variable (hsources : SourcesLoaded (firstSeen next.records) dataSourceIds dataSources)
include hsources

/-- A provenance row of a contribution shows it, with the metadata first seen for its source. -/
theorem sourceAttribution_linked {db : Database} (hdb : db.dataSources = dataSources)
    {s : NormalizedSourceRecord}
    (hs : ∃ e ∈ (firstSeen next.records).items, e.2.sourceId = s.source.sourceId)
    {binRecordId : Nat} {row : BinRecordSourceModel}
    (hrow : row.toBinRecordSourceValues = recordSourceValue binRecordId
      ((dataSourceIds.get? s.source.sourceId).getD 0) s next.importedAt storeRawPayload) :
    sourceAttribution db row = some (next.attribution s) := by
  obtain ⟨d, hd, hid, hget⟩ := hsources.exists_row hs
  obtain ⟨metadata, hseen, hvalues⟩ := metadata_of_dataSource hsources.values hd
  have hlink : row.dataSourceId = d.id := by
    rw [hrow, recordSourceValue, hget]
    rfl
  have hfind : db.dataSource row = some d := by
    rw [Database.dataSource, hlink, hdb]
    exact find?_key hsources.ids hd
  have htime : row.importedAt = some next.importedAt :=
    congrArg BinRecordSourceValues.importedAt hrow
  have hkey : row.sourceRowKey = s.rowKey := congrArg BinRecordSourceValues.sourceRowKey hrow
  have hurl : d.upstreamUrl = metadata.upstreamUrl := congrArg DataSourceValues.upstreamUrl hvalues
  have hlicense : d.license = metadata.license := congrArg DataSourceValues.license hvalues
  rw [sourceAttribution, hfind, Option.map_some, Catalog.attribution, ← hid, hseen,
    Option.getD_some, hurl, hlicense, htime, hkey]

variable {db : Database}
  (h : PartlyLoaded dataSourceIds next.importedAt storeRawPayload dataSources done db)
include h

/-- The provenance of a row is that of its record. -/
theorem PartlyLoaded.attributions (hnd : (done.map (·.record.iinStart)).Nodup)
    (hsrc : ∀ m ∈ done, ∀ s ∈ m.sources, ∃ e ∈ (firstSeen next.records).items,
      e.2.sourceId = s.source.sourceId) (backend : Backend) {row : BinRecordModel}
    {m : MergedSourceRecord} (hm : Holds db.binRecords done row m) :
    ∃ attributions, sourceAttributions backend db row = some attributions ∧
      attributions.Subperm (m.sources.map next.attribution) := by
  have hlinked := h.sources.filter fun v => decide (v.binRecordId = row.id)
  rw [filter_linkedSources h.records h.ids (mem_zip_of_holds h.records hnd hm), List.filter_map]
    at hlinked
  have hrows := ((backend.collected_perm _).map _).subperm.trans hlinked
  -- what a row shows, by its values
  let shown : BinRecordSourceValues → Option SourceAttribution := fun values =>
    sourceAttribution db { toBinRecordSourceValues := values, id := 0 }
  have hlinks : (m.sources.map fun s => recordSourceValue row.id
      ((dataSourceIds.get? s.source.sourceId).getD 0) s next.importedAt storeRawPayload).map shown =
      (m.sources.map next.attribution).map some := by
    rw [List.map_map, List.map_map]
    exact List.map_congr_left fun s hs =>
      sourceAttribution_linked hsources h.dataSources (hsrc m hm.mem_merged s hs) rfl
  have hsubperm : ((db.sources backend row).map (sourceAttribution db)).Subperm
      ((m.sources.map next.attribution).map some) := by
    rw [← hlinks]
    obtain ⟨values, hperm, hsublist⟩ := hrows
    have hmap := hperm.map shown
    rw [List.map_map] at hmap
    exact ⟨values.map shown, hmap, hsublist.map shown⟩
  have hread : ∀ x ∈ db.sources backend row, ∃ a, sourceAttribution db x = some a ∧
      sourceAttribution db x = some a := by
    intro x hx
    obtain ⟨a, -, ha⟩ := List.mem_map.mp (hsubperm.subset (List.mem_map_of_mem hx))
    exact ⟨a, ha.symm, ha.symm⟩
  obtain ⟨attributions, hattr, hpairs⟩ := exists_mapM_eq_some hread
  have hsame : attributions.map some = (db.sources backend row).map (sourceAttribution db) := by
    rw [← List.forall₂_eq_eq_eq, List.forall₂_map_left_iff, List.forall₂_map_right_iff]
    exact hpairs.flip.imp fun _ _ h => h.symm
  refine ⟨attributions, hattr, (List.map_subperm_map_iff (Option.some_injective _)).mp ?_⟩
  rwa [hsame]

/-- The tables in the middle of the records. -/
theorem partlyIn_loading {n : Nat} (hdone : done = (mergedRecords next.records).take n) :
    next.PartlyIn n db := by
  subst hdone
  refine partlyIn_of_holds h.records fun backend row m hm =>
    h.attributions hsources ?_ (fun m hm => exists_metadata m (List.mem_of_mem_take hm)) backend hm
  exact (nodup_mergedRecords next.records).sublist ((List.take_sublist _ _).map _)

end Loading

/-- **Between any two statements of an import, every lookup answers what the first records of the
old or of the new dataset answer.** -/
theorem partlyIn_of_interrupted {self : Catalog} {call : ImportCall} {old db : Database}
    (hold : self.In old)
    (h : ImportLeaves call.env (emitted call.adapters) call.storeRawPayload old db) :
    ∃ shown ∈ [self, call.catalog], ∃ n, shown.PartlyIn n db := by
  obtain ⟨_, hold⟩ := hold
  cases h with
  | untouched => exact ⟨self, by simp, _, partlyIn_untouched hold⟩
  | unattributed => exact ⟨self, by simp, _, partlyIn_unattributed hold⟩
  | withoutRecords dataSources => exact ⟨self, by simp, 0, partlyIn_withoutRecords self dataSources⟩
  | loading hsources hloading =>
    obtain ⟨done, hprefix, hpartly⟩ := hloading
    exact ⟨call.catalog, by simp, done.length,
      @partlyIn_loading call.catalog _ _ _ _ hsources _ hpartly _
        (List.prefix_iff_eq_take.mp hprefix)⟩

/-- **A failed import never mixes two datasets.** Where the session of the caller goes on answering
(a statement that PostgreSQL refuses aborts the transaction, and lookups raise), it answers from the
first records of the dataset it held or of the one it was to hold, with no attribution that they do
not have. -/
theorem interrupted_import (call : ImportCall) (w : World) :
    Post (importSources call.env call.adapters call.storeRawPayload w)
      (fun _ w' => call.catalog.In w'.session)
      fun _ w' => ∀ self, Catalog.In self w.session →
        ∃ shown ∈ [self, call.catalog], ∃ n, shown.PartlyIn n w'.session :=
  (((importSources_triple call.adapters call.storeRawPayload).and
    (@importSources_leaves _ _ call.storeRawPayload call.adapters)) w
    ⟨trivial, rfl⟩).mono
    (fun _ _ h => ⟨call.storeRawPayload, h.1.represents⟩) fun _ _ h _ hself =>
      partlyIn_of_interrupted hself h.2

end CardBinData
