import CardBinData.ImportSpec
import CardBinData.Transactions

/-!
# The statements of an import (`db/services.py:144-240`, `store.py:74-90`)

`BinDataStore.import_sources` as a program of statements, for running against another import:
`replace_all` with the merged records of the adapters, and the commit of `session_factory.begin()`.
Each function takes what comes after it. What an import does before its first statement touches its
stage only; it either ends there or gives the records that `mergedRecords` merges.

`ensures_program` is the sequential side: where an import commits, the rows its transaction has
inserted represent the dataset of its records, which is what it commits when it is the only one
(`storeImportSources_dataset`). The proof goes through the invariant of `Replacement.lean`.
-/

namespace CardBinData.ReadCommitted

open Library (Dict Post Program Transducer mapM_eq_pure_map stableSort)

/-! ## The program -/

/-- `_insert_data_source_metadata`. -/
def insertDataSourceMetadata (metadataById : Dict Str SourceMetadata)
    (next : Dict Str Nat → SqlProgram) : SqlProgram :=
  if metadataById.items.isEmpty then next Dict.empty
  else
    let rows := (stableSort Prod.fst metadataById.items).map fun e => dataSourceValues e.2
    .execute (.insert (.dataSources rows)) fun returned => next (Dict.ofPairs returned)

/-- One of the two `if` statements of `_insert_record_source_batch`. -/
def insertRecordSourcesIfAny (rows : List BinRecordSourceValues) (next : SqlProgram) :
    SqlProgram :=
  if rows.isEmpty then next else .execute (.insert (.binRecordSources rows)) fun _ => next

/-- `_insert_record_source_batch`. -/
def insertRecordSourceBatch (rows : List BinRecordSourceValues) (next : SqlProgram) :
    SqlProgram :=
  let jsonTextRows := rows.filter (·.isJsonText)
  let mappingRows := rows.filter (!·.isJsonText)
  insertRecordSourcesIfAny mappingRows (insertRecordSourcesIfAny jsonTextRows next)

/-- `_insert_record_source_rows`, with `INSERT_BATCH_SIZE` as a parameter. -/
def insertRecordSourceRows (insertBatchSize : Nat) (rows : List BinRecordSourceValues)
    (next : SqlProgram) : SqlProgram :=
  ((Transducer.batches _ insertBatchSize).run [] rows).foldr insertRecordSourceBatch next

/-- The generator expression `rows` of `_insert_merged_record_batch`; `none` is its `KeyError`. -/
def recordSourceRows (records : List MergedSourceRecord) (binRecordIds dataSourceIds : Dict Str Nat)
    (importedAt : Int) (storeRawPayload : Bool) : Option (List BinRecordSourceValues) :=
  List.flatten <$> records.mapM fun mergedRecord =>
    mergedRecord.sources.mapM fun sourceRecord => do
      let binRecordId ← binRecordIds.get? mergedRecord.record.iinStart
      let dataSourceId ← dataSourceIds.get? sourceRecord.source.sourceId
      return recordSourceValue binRecordId dataSourceId sourceRecord importedAt storeRawPayload

/-- `BinDataStore.import_sources` with its arguments, its time and its batch size. -/
structure Import where
  adapters : List SourceAdapter
  storeRawPayload : Bool := true
  importedAt : Int
  insertBatchSize : Nat := 1000

namespace Import

variable (self : Import)

/-- `_insert_merged_record_batch`. -/
def insertMergedRecordBatch (dataSourceIds : Dict Str Nat) (records : List MergedSourceRecord)
    (next : SqlProgram) : SqlProgram :=
  .execute (.insert (.binRecords (records.map fun m => binRecordValues m.record))) fun returned =>
    match recordSourceRows records (Dict.ofPairs returned) dataSourceIds self.importedAt
      self.storeRawPayload with
    | none => .raise
    | some rows => insertRecordSourceRows self.insertBatchSize rows next

/-- `_insert_streamed_records`. -/
def insertStreamedRecords (records : List MergedSourceRecord) (dataSourceIds : Dict Str Nat)
    (next : SqlProgram) : SqlProgram :=
  ((Transducer.batches _ self.insertBatchSize).run [] records).foldr
    (self.insertMergedRecordBatch dataSourceIds) next

/-- `replace_all` after its deletes, and the commit. Its `flush` has nothing to write. -/
def load : SqlProgram :=
  insertDataSourceMetadata (firstSeen (emitted self.adapters)) fun dataSourceIds =>
    self.insertStreamedRecords (mergedRecords (emitted self.adapters)) dataSourceIds .commit

/-- `replace_all`, and the commit. -/
def replaceAll : SqlProgram :=
  .execute (.delete .binRecordSources) fun _ =>
    .execute (.delete .binRecords) fun _ =>
      .execute (.delete .dataSources) fun _ => self.load

/-- `BinDataStore.import_sources`: a record that cannot be staged ends it before the first
statement. -/
def program : SqlProgram :=
  if ∀ r ∈ emitted self.adapters, Bindable r then self.replaceAll else .raise

/-- The dataset of the import alone. -/
def dataset : Dataset := datasetOf (emitted self.adapters) self.storeRawPayload self.importedAt

/-- It is what the import commits where it is the only one, if it commits anything. -/
theorem storeImportSources_dataset (env : Environment) (hnow : env.now = self.importedAt)
    (w : World) :
    Post (storeImportSources env self.adapters self.storeRawPayload w)
      (fun _ w' => w'.committed.Represents self.dataset)
      fun _ w' => w'.committed = w.committed := by
  unfold dataset
  rw [← hnow]
  exact storeImportSources_post env self.adapters self.storeRawPayload w

end Import

/-! ## After the deletes -/

def Sql.IsInsert : Sql → Prop
  | .delete _ => False
  | .insert _ => True

section Inserts

variable {next : SqlProgram}

theorem inserts_insertRecordSourcesIfAny (rows : List BinRecordSourceValues)
    (hnext : next.All Sql.IsInsert) :
    (insertRecordSourcesIfAny rows next).All Sql.IsInsert := by
  unfold insertRecordSourcesIfAny
  split
  · exact hnext
  · exact ⟨trivial, fun _ => hnext⟩

theorem inserts_insertMergedRecordBatch (self : Import) (dataSourceIds : Dict Str Nat)
    (records : List MergedSourceRecord) (hnext : next.All Sql.IsInsert) :
    (self.insertMergedRecordBatch dataSourceIds records next).All Sql.IsInsert := by
  refine ⟨trivial, fun returned => ?_⟩
  beta_reduce
  split
  · trivial
  · exact Program.all_foldr (fun _ _ h => inserts_insertRecordSourcesIfAny _
      (inserts_insertRecordSourcesIfAny _ h)) hnext _

/-- Behind its deletes an import only inserts. -/
theorem inserts_load (self : Import) : self.load.All Sql.IsInsert := by
  have hcommit : (Program.commit : SqlProgram).All Sql.IsInsert := trivial
  have hstreamed : ∀ dataSourceIds, (self.insertStreamedRecords
      (mergedRecords (emitted self.adapters)) dataSourceIds .commit).All Sql.IsInsert :=
    fun dataSourceIds => Program.all_foldr
      (fun records _ => inserts_insertMergedRecordBatch self dataSourceIds records) hcommit _
  unfold Import.load insertDataSourceMetadata
  split
  · exact hstreamed Dict.empty
  · exact ⟨trivial, fun _ => hstreamed _⟩

end Inserts

/-! ## What the statements do to the rows of their transaction -/

/-- The program commits only where its transaction has inserted rows that satisfy `Q`. -/
abbrev Ensures (Q : Database → Prop) (program : SqlProgram) (own : Database) : Prop :=
  program.Ensures Effect Q own

theorem insertRecordSources_spec {rows : List BinRecordSourceValues} {own own' : Database}
    {result : List (Str × Nat)}
    (h : Effect (.insert (.binRecordSources rows)) own result own') :
    SourcesInserted rows own own' := by
  obtain ⟨backend, clock, used, -, -, rfl, hunique⟩ := h
  have hinserted : SourcesInserted rows own _ := sourcesInserted_newRows
    (backend.length_newIds clock (ids used .binRecordSources) rows.length) hunique.2
  simpa only [append, inserted, List.append_nil] using hinserted

theorem insertBinRecords_spec {rows : List BinRecordValues} {own own' : Database}
    {result : List (Str × Nat)} (hnd : (rows.map (·.iinStart)).Nodup)
    (h : Effect (.insert (.binRecords rows)) own result own') :
    BatchInserted rows own (Dict.ofPairs result) own' := by
  obtain ⟨backend, clock, used, hused, rfl, rfl, -⟩ := h
  have hfresh := backend.newIds_fresh clock (ids used .binRecords) rows.length
  have hinserted : BatchInserted rows own (Dict.ofPairs _) _ := batchInserted_newRows
    (backend.length_newIds clock (ids used .binRecords) rows.length) (backend.nodup_newIds _ _ _)
    (fun i hi hown => hfresh i hi (hused .binRecords i hown)) hnd (backend.returned_perm clock _)
  simpa only [append, inserted, List.append_nil] using hinserted

theorem insertDataSources_spec {metadataById : Dict Str SourceMetadata} {own own' : Database}
    {result : List (Str × Nat)} (hkeys : ∀ e ∈ metadataById.items, e.2.sourceId = e.1)
    (hown : own.dataSources = [])
    (h : Effect (.insert (.dataSources (dataSourceRows metadataById))) own result own') :
    MetadataInserted metadataById own (Dict.ofPairs result) own' := by
  obtain ⟨backend, clock, used, -, rfl, rfl, -⟩ := h
  have hloaded := sourcesLoaded_newRows hkeys
    (backend.length_newIds clock (ids used .dataSources) _) (backend.nodup_newIds _ _ _)
    (backend.returned_perm clock _)
  refine ⟨_, ?_, hloaded⟩
  simp only [append, inserted, List.append_nil, hown, List.nil_append]

section Ensures

variable {Q : Database → Prop} {own : Database} {next : SqlProgram}

theorem ensures_insertRecordSourcesIfAny {rows : List BinRecordSourceValues}
    (hnext : ∀ own', SourcesInserted rows own own' → Ensures Q next own') :
    Ensures Q (insertRecordSourcesIfAny rows next) own := by
  unfold insertRecordSourcesIfAny
  split
  · rename_i hempty
    refine hnext own ?_
    rw [List.isEmpty_iff.mp hempty]
    exact sourcesInserted_nil own
  · exact fun _ own' heffect => hnext own' (insertRecordSources_spec heffect)

theorem ensures_insertRecordSourceBatch {rows : List BinRecordSourceValues}
    (hnext : ∀ own', SourcesInserted rows own own' → Ensures Q next own') :
    Ensures Q (insertRecordSourceBatch rows next) own := by
  have hperm : (rows.filter (!·.isJsonText) ++ rows.filter (·.isJsonText)).Perm rows :=
    List.perm_append_comm.trans (List.filter_append_perm _ rows)
  refine ensures_insertRecordSourcesIfAny fun own₁ hmapping => ?_
  refine ensures_insertRecordSourcesIfAny fun own₂ hjson => ?_
  exact hnext own₂ ((hmapping.append hjson).perm hperm)

/-- The batches of a list of rows insert all of them. -/
theorem ensures_insertRecordSourceRows (insertBatchSize : Nat) {rows : List BinRecordSourceValues}
    (hnext : ∀ own', SourcesInserted rows own own' → Ensures Q next own') :
    Ensures Q (insertRecordSourceRows insertBatchSize rows next) own := by
  have hflat : ((Transducer.batches _ insertBatchSize).run [] rows).flatten = rows :=
    Transducer.flatten_run_batches insertBatchSize [] rows
  refine Program.ensures_foldr (I := fun done own' => SourcesInserted done.flatten own own')
    (fun done batch _ _ own' _ hdone hrest => ?_) (fun own' h => hnext own' (hflat ▸ h))
    (sourcesInserted_nil own)
  refine ensures_insertRecordSourceBatch fun own'' hbatch => hrest own'' ?_
  rw [List.flatten_append, List.flatten_singleton]
  exact hdone.append hbatch

variable {dataSourceIds : Dict Str Nat} {dataSources : List DataSourceModel}

/-- Where every id is found, no row raises. -/
theorem recordSourceRows_eq_some {records : List MergedSourceRecord} {new : List BinRecordModel}
    {binRecordIds : Dict Str Nat} {importedAt : Int} {storeRawPayload : Bool}
    (hids : List.Forall₂ (fun m r => binRecordIds.get? m.record.iinStart = some r.id) records new)
    (hknown : SourcesKnown dataSourceIds records) :
    recordSourceRows records binRecordIds dataSourceIds importedAt storeRawPayload =
      some (linkedSources dataSourceIds importedAt storeRawPayload (records.zip new)) := by
  have hrows : (records.mapM fun m => m.sources.mapM fun s => do
      let binRecordId ← binRecordIds.get? m.record.iinStart
      let dataSourceId ← dataSourceIds.get? s.source.sourceId
      return recordSourceValue binRecordId dataSourceId s importedAt storeRawPayload) =
      some ((records.zip new).map fun p => p.1.sources.map fun s =>
        recordSourceValue p.2.id ((dataSourceIds.get? s.source.sourceId).getD 0) s importedAt
          storeRawPayload) := by
    induction hids with
    | nil => rfl
    | @cons m r records new hid _ ih =>
      have hrow := mapM_eq_pure_map (m := Option) (f := fun s : NormalizedSourceRecord => do
          let binRecordId ← binRecordIds.get? m.record.iinStart
          let dataSourceId ← dataSourceIds.get? s.source.sourceId
          return recordSourceValue binRecordId dataSourceId s importedAt storeRawPayload)
        (g := fun s => recordSourceValue r.id ((dataSourceIds.get? s.source.sourceId).getD 0) s
          importedAt storeRawPayload) (l := m.sources) fun s hs => by
        obtain ⟨i, hi⟩ := hknown m List.mem_cons_self s hs
        rw [hid, hi]
        rfl
      rw [List.mapM_cons, hrow, ih fun m' hm' => hknown m' (List.mem_cons_of_mem m hm')]
      rfl
  rw [recordSourceRows, hrows]
  rfl

variable {self : Import} {records : List MergedSourceRecord}

/-- **A batch extends the invariant.** -/
theorem ensures_insertMergedRecordBatch {done batch : List MergedSourceRecord}
    (hown : Loaded dataSourceIds self.importedAt self.storeRawPayload dataSources done own)
    (hnd : (batch.map (·.record.iinStart)).Nodup) (hknown : SourcesKnown dataSourceIds batch)
    (hnext : ∀ own', Loaded dataSourceIds self.importedAt self.storeRawPayload dataSources
      (done ++ batch) own' → Ensures Q next own') :
    Ensures Q (self.insertMergedRecordBatch dataSourceIds batch next) own := by
  intro result own₁ heffect
  obtain ⟨new, rfl, hvalues, hids, hfresh, hget⟩ :=
    insertBinRecords_spec (nodup_iinStart_rows hnd) heffect
  simp only [recordSourceRows_eq_some (forall₂_get? hvalues hget) hknown]
  exact ensures_insertRecordSourceRows _ fun own₂ hsources =>
    hnext own₂ (hown.extend hvalues hids hfresh hsources)

theorem ensures_insertStreamedRecords
    (hown : Loaded dataSourceIds self.importedAt self.storeRawPayload dataSources [] own)
    (hnd : (records.map (·.record.iinStart)).Nodup) (hknown : SourcesKnown dataSourceIds records)
    (hnext : ∀ own', Loaded dataSourceIds self.importedAt self.storeRawPayload dataSources
      records own' → Ensures Q next own') :
    Ensures Q (self.insertStreamedRecords records dataSourceIds next) own := by
  have hflat : ((Transducer.batches _ self.insertBatchSize).run [] records).flatten = records :=
    Transducer.flatten_run_batches self.insertBatchSize [] records
  refine Program.ensures_foldr (I := fun done own' =>
      Loaded dataSourceIds self.importedAt self.storeRawPayload dataSources done.flatten own')
    (fun done batch rest _ own' hl hdone hrest => ?_) (fun own' h => hnext own' (hflat ▸ h)) hown
  have hrecords : records = done.flatten ++ batch ++ rest.flatten := by
    rw [← hflat, hl, List.flatten_append, List.flatten_cons, List.append_assoc]
  have hbatch : batch.Sublist records := by
    rw [hrecords]
    exact (List.sublist_append_right _ _).trans (List.sublist_append_left _ _)
  refine ensures_insertMergedRecordBatch hdone (hnd.sublist (hbatch.map _))
    (fun m hm => hknown m (hbatch.subset hm)) fun own'' hown'' => hrest own'' ?_
  rw [List.flatten_append, List.flatten_singleton]
  exact hown''

/-- **Where the transaction commits, its rows represent the dataset of the import.** -/
theorem ensures_load (self : Import) :
    Ensures (fun own => own.Represents self.dataset) self.load Database.empty := by
  let records := emitted self.adapters
  -- from the data sources on
  have hstreamed : ∀ dataSourceIds own,
      MetadataInserted (firstSeen records) Database.empty dataSourceIds own →
      Ensures (fun own => own.Represents self.dataset)
        (self.insertStreamedRecords (mergedRecords records) dataSourceIds .commit) own := by
    rintro dataSourceIds own ⟨dataSources, rfl, hsources⟩
    exact ensures_insertStreamedRecords (loaded_nil dataSources) (nodup_mergedRecords records)
      (hsources.sourcesKnown exists_metadata)
      fun own' hloaded => represents_of_loaded hsources hloaded exists_metadata
  unfold Import.load insertDataSourceMetadata
  split
  · rename_i hempty
    exact hstreamed Dict.empty Database.empty ⟨[], rfl, sourcesLoaded_nil hempty⟩
  · exact fun result own' heffect =>
      hstreamed _ own' (insertDataSources_spec (sourceId_of_mem_firstSeen records) rfl heffect)

/-- The deletes come first, and leave no row of the transaction's own. -/
theorem ensures_program (self : Import) :
    Ensures (fun own => own.Represents self.dataset) self.program Database.empty := by
  unfold Import.program
  split
  · rintro _ _ ⟨gone₁, rfl⟩ _ _ ⟨gone₂, rfl⟩ _ _ ⟨gone₃, rfl⟩
    exact ensures_load self
  · trivial

end Ensures

end CardBinData.ReadCommitted
