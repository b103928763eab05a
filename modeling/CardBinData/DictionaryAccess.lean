import CardBinData.ImportedTables
import CardBinData.Library.Assertion

/-!
# The dictionaries of an import

An import reads three dictionaries by key: the metadata by `source_id`, when a staged row is decoded
and when the data sources are written; the ids of the data sources by `source_id` and those of the
records of a batch by `iin_start`, when a provenance row is built. The three are filled at different
times, and are read from a lazy stream.

`Accesses` makes these reads a parameter of the pipeline. With `Accesses.plain` it is the import
(`plain_importStaged`). With `Accesses.asserted` every read also asserts what it is meant to give:
metadata of that very source, and the id of the one row that has the key at that moment
(`Identifies`). A failed assertion raises as a missing key does.

* `asserts_importStaged`: the asserted pipeline is the import, or it raises `KeyError`.
* `asserted_importStaged_triple`: it does not raise `KeyError`. A batch is the step: what its
  `INSERT` leaves identifies every id it reads (`idsIdentify_of_batchInserted`), and the provenance
  rows written meanwhile touch neither of the tables the ids refer to.
* `import_dictionaries_sound`: so the two are the same, and what an import commits is linked as its
  records are.
-/

namespace CardBinData

open Library

/-- How the import reads its dictionaries. -/
structure Accesses where
  /-- `source_metadata_by_id[source_id]`. -/
  sourceMetadata : Dict Str SourceMetadata → Str → Run SourceMetadata
  /-- `data_source_ids[source_id]`. -/
  dataSourceId : Dict Str Nat → Str → Run Nat
  /-- `bin_record_ids[iin_start]`. -/
  binRecordId : Dict Str Nat → Str → Run Nat

/-- `INSERT INTO data_sources … RETURNING source_id, id`. -/
def insertDataSources (env : Environment) (rows : List DataSourceValues) : Run (Dict Str Nat) :=
  execute env .insertDataSources do
    let w ← get
    let ids := env.newIds w.clock (w.session.dataSources.map (·.id)) rows.length
    let dataSources := w.session.dataSources ++ newRows DataSourceModel.mk rows ids
    if UqDataSourcesSourceId dataSources then
      set { w with session := { w.session with dataSources := dataSources } }
      return Dict.ofPairs (env.returned w.clock ((rows.map (·.sourceId)).zip ids))
    else throw .integrityError

namespace Accesses

/-! ## The pipeline over its accesses -/

section Pipeline

variable (accesses : Accesses) (env : Environment)

/-- `_record_from_row`. -/
def recordFromRow (sourceMetadataById : Dict Str SourceMetadata) (row : StagedRow) :
    Run NormalizedSourceRecord := do
  let source ← accesses.sourceMetadata sourceMetadataById row.sourceId
  return stagedSourceRecord source row

/-- `iter_records`. -/
def iterRecords : Gen Run NormalizedSourceRecord :=
  ⟨fun f b => do
    let stage ← stageCall env (World.stage <$> get)
    let batches := (Transducer.batches _ env.stagingFetchBatchSize).run []
      (stableSort stagingOrder stage.rows)
    let b ← batches.foldlM (fun b rows => do
      stageCall env (pure ())
      rows.foldlM (fun b row => do
        f b (← accesses.recordFromRow stage.sourceMetadataById row)) b) b
    stageCall env (pure ())
    stageCall env (pure ())
    pure b⟩

/-- The list `rows` of `_insert_data_source_metadata`. -/
def dataSourceRows (metadataById : Dict Str SourceMetadata) : Run (List DataSourceValues) :=
  (stableSort id metadataById.keys).mapM fun sourceId => do
    return dataSourceValues (← accesses.sourceMetadata metadataById sourceId)

/-- `_insert_data_source_metadata`. -/
def insertDataSourceMetadata (metadataById : Dict Str SourceMetadata) : Run (Dict Str Nat) := do
  if metadataById.items.isEmpty then return Dict.empty
  let rows ← accesses.dataSourceRows metadataById
  insertDataSources env rows

/-- The generator expression `rows` of `_insert_merged_record_batch`. -/
def recordSourceRows (records : List MergedSourceRecord) (binRecordIds dataSourceIds : Dict Str Nat)
    (importedAt : Int) (storeRawPayload : Bool) : Gen Run BinRecordSourceValues :=
  ⟨fun f b => records.foldlM (fun b mergedRecord =>
    mergedRecord.sources.foldlM (fun b sourceRecord => do
      let binRecordId ← accesses.binRecordId binRecordIds mergedRecord.record.iinStart
      let dataSourceId ← accesses.dataSourceId dataSourceIds sourceRecord.source.sourceId
      f b (recordSourceValue binRecordId dataSourceId sourceRecord importedAt storeRawPayload))
      b) b⟩

/-- `_insert_merged_record_batch`. -/
def insertMergedRecordBatch (records : List MergedSourceRecord) (dataSourceIds : Dict Str Nat)
    (importedAt : Int) (storeRawPayload : Bool) : Run Unit := do
  let binRecordIds ← insertBinRecordBatch env (records.map fun m => binRecordValues m.record)
  insertRecordSourceRows env
    (accesses.recordSourceRows records binRecordIds dataSourceIds importedAt storeRawPayload)

/-- `_insert_streamed_records`. -/
def insertStreamedRecords (records : Gen Run MergedSourceRecord) (dataSourceIds : Dict Str Nat)
    (importedAt : Int) (storeRawPayload : Bool) : Run Unit :=
  (records.transduce (Transducer.batches _ env.insertBatchSize)).forEach fun batch =>
    accesses.insertMergedRecordBatch env batch dataSourceIds importedAt storeRawPayload

/-- `ImportedRecordsService.replace_all`. -/
def replaceAll (records : ImportReplacement) : Run Unit := do
  execute env .deleteBinRecordSources
    (modify fun w => { w with session := { w.session with binRecordSources := [] } })
  execute env .deleteBinRecords
    (modify fun w => { w with session := { w.session with binRecords := [] } })
  execute env .deleteDataSources
    (modify fun w => { w with session := { w.session with dataSources := [] } })
  let importedAt := env.now
  let dataSourceIds ← accesses.insertDataSourceMetadata env records.sourceMetadata
  accesses.insertStreamedRecords env records.records dataSourceIds importedAt
    records.storeRawPayload
  step env (pure ())

/-- The body of the `try` of `import_sources`. -/
def importStaged (adapters : List SourceAdapter) (storeRawPayload : Bool) : Run ImportCounters := do
  let sourceRecordCount ← stageSourceRecords env adapters
  modify fun w => { w with counters := { sourceRecordCount := sourceRecordCount } }
  let mergedRecords := countMergedRecords (mergeSortedSourceRecords (accesses.iterRecords env))
  let w ← get
  accesses.replaceAll env ⟨mergedRecords, w.stage.sourceMetadataById, storeRawPayload⟩
  return (← get).counters

/-- `import_sources`. -/
def importSources (adapters : List SourceAdapter) (storeRawPayload : Bool) :
    Run ImportCounters := do
  let path ← createStage env
  withFinally (accesses.importStaged env adapters storeRawPayload) (closeStage env path)

/-- `BinDataStore.import_sources`. -/
def storeImportSources (adapters : List SourceAdapter) (storeRawPayload : Bool) :
    Run ImportCounters :=
  transaction env (accesses.importSources env adapters storeRawPayload)

end Pipeline

/-! ## The accesses of the source -/

/-- `d[k]`, and nothing else. -/
def plain : Accesses := ⟨getItem, getItem, getItem⟩

/-- A dictionary whose keys are all read gives the rows of its values. -/
theorem dataSourceRows_eq {accesses : Accesses} {metadataById : Dict Str SourceMetadata}
    (h : ∀ e ∈ metadataById.items, accesses.sourceMetadata metadataById e.1 = pure e.2) :
    accesses.dataSourceRows metadataById = pure (CardBinData.dataSourceRows metadataById) := by
  have hkeys : stableSort id metadataById.keys =
      (stableSort Prod.fst metadataById.items).map Prod.fst :=
    (map_stableSort Prod.fst metadataById.items).symm
  unfold dataSourceRows CardBinData.dataSourceRows
  rw [hkeys, List.mapM_map]
  refine mapM_eq_pure_map fun e he => ?_
  simp only [Function.comp, h e ((perm_stableSort _ _).mem_iff.mp he), pure_bind]

theorem insertDataSourceMetadata_eq {accesses : Accesses} (env : Environment)
    {metadataById : Dict Str SourceMetadata}
    (h : ∀ e ∈ metadataById.items, accesses.sourceMetadata metadataById e.1 = pure e.2) :
    accesses.insertDataSourceMetadata env metadataById =
      CardBinData.insertDataSourceMetadata env metadataById := by
  unfold insertDataSourceMetadata CardBinData.insertDataSourceMetadata
  rw [dataSourceRows_eq h, pure_bind]
  rfl

theorem plain_replaceAll (env : Environment) (records : ImportReplacement) :
    plain.replaceAll env records = CardBinData.replaceAll env records := by
  unfold replaceAll CardBinData.replaceAll
  rw [insertDataSourceMetadata_eq env fun e he => getItem_eq (Dict.mem_items_iff.mp he)]
  rfl

/-- **With plain accesses, the pipeline is the import.** -/
theorem plain_importStaged (env : Environment) (adapters : List SourceAdapter)
    (storeRawPayload : Bool) :
    plain.importStaged env adapters storeRawPayload =
      CardBinData.importStaged env adapters storeRawPayload := by
  unfold importStaged CardBinData.importStaged
  simp only [plain_replaceAll]
  rfl

/-! ## The accesses with their assertions -/

/-- `d[k]`, with an assertion about what is found and about the world at that moment. -/
def assertedItem {ν : Type} (d : Dict Str ν) (k : Str) (ok : ν → World → Bool) : Run ν := do
  let v ← getItem d k
  let w ← get
  if ok v w then return v else throw .keyError

/-- The metadata is that of the source id; an id is that of the row with the key, in the table as
the transaction sees it. -/
def asserted : Accesses where
  sourceMetadata d sourceId :=
    assertedItem d sourceId fun metadata _ => decide (metadata.sourceId = sourceId)
  dataSourceId d sourceId := assertedItem d sourceId fun id w =>
    decide (Identifies (fun r : DataSourceModel => r.sourceId) (·.id) w.session.dataSources
      sourceId id)
  binRecordId d iinStart := assertedItem d iinStart fun id w =>
    decide (Identifies (fun r : BinRecordModel => r.iinStart) (·.id) w.session.binRecords
      iinStart id)

section Assertions

variable {ν : Type} {d : Dict Str ν} {k : Str} {ok : ν → World → Bool}

theorem asserts_assertedItem : Asserts .keyError (assertedItem d k ok) (getItem d k) := by
  intro w
  unfold assertedItem getItem
  cases d.get? k with
  | none => exact Or.inl rfl
  | some v =>
    rw [pure_bind]
    cases hok : ok v w with
    | true =>
      left
      change (if ok v w = true then pure v else throw .keyError : Run ν) w = _
      rw [if_pos hok]
    | false =>
      right
      change ∃ w', (if ok v w = true then pure v else throw .keyError : Run ν) w = _
      rw [if_neg (by rw [hok]; exact Bool.false_ne_true)]
      exact ⟨w, rfl⟩

/-- An assertion that holds changes nothing. -/
theorem assertedItem_eq {v : ν} {w : World} (hget : d.get? k = some v) (hok : ok v w = true) :
    assertedItem d k ok w = .ok v w := by
  unfold assertedItem getItem
  rw [hget, pure_bind]
  change (if ok v w = true then pure v else throw .keyError : Run ν) w = _
  rw [if_pos hok]
  rfl

-- the id of another row is found, but is not accepted
example :
    let rows : List BinRecordModel :=
      [⟨{ iinStart := "45".toList }, 1⟩, ⟨{ iinStart := "46".toList }, 2⟩]
    let accepted := fun id => returns (asserted.binRecordId (Dict.ofPairs [("45".toList, id)])
      "45".toList { session := { binRecords := rows } }) fun _ _ => true
    accepted 1 = true ∧ accepted 2 = false := by decide

/-- Metadata kept under its own source id is what it should be. -/
theorem asserted_sourceMetadata {metadataById : Dict Str SourceMetadata}
    (hkeys : ∀ e ∈ metadataById.items, e.2.sourceId = e.1) :
    asserted.sourceMetadata metadataById = getItem metadataById := by
  funext sourceId w
  cases hget : metadataById.get? sourceId with
  | none =>
    change assertedItem metadataById sourceId _ w = _
    unfold assertedItem getItem
    rw [hget]
    rfl
  | some metadata =>
    rw [getItem_eq hget]
    exact assertedItem_eq hget
      (decide_eq_true (hkeys (sourceId, metadata) (Dict.mem_items_iff.mpr hget)))

end Assertions

/-! ## What is asserted is asserted of the import -/

section Structure

variable {env : Environment}

theorem asserts_iterRecords :
    (asserted.iterRecords env).Asserts .keyError (plain.iterRecords env) := by
  intro β f f' b hf
  have hrow : ∀ d row, Asserts .keyError (asserted.recordFromRow d row)
      (plain.recordFromRow d row) :=
    fun _ _ => asserts_assertedItem.bind fun _ => Asserts.refl _
  refine (Asserts.refl _).bind fun stage => ?_
  refine (Asserts.foldlM (fun b rows => ?_) _ b).bind fun _ => Asserts.refl _
  exact (Asserts.refl _).bind fun _ =>
    Asserts.foldlM (fun b row => (hrow _ row).bind fun _ => hf b _) rows b

theorem asserts_insertDataSourceMetadata (metadataById : Dict Str SourceMetadata) :
    Asserts .keyError (asserted.insertDataSourceMetadata env metadataById)
      (plain.insertDataSourceMetadata env metadataById) := by
  have hrows : Asserts .keyError (asserted.dataSourceRows metadataById)
      (plain.dataSourceRows metadataById) :=
    Asserts.mapM (fun _ => asserts_assertedItem.bind fun _ => Asserts.refl _) _
  unfold insertDataSourceMetadata
  split
  · exact Asserts.refl _
  · exact hrows.bind fun _ => Asserts.refl _

theorem asserts_insertMergedRecordBatch (records : List MergedSourceRecord)
    (dataSourceIds : Dict Str Nat) (importedAt : Int) (storeRawPayload : Bool) :
    Asserts .keyError
      (asserted.insertMergedRecordBatch env records dataSourceIds importedAt storeRawPayload)
      (plain.insertMergedRecordBatch env records dataSourceIds importedAt storeRawPayload) := by
  refine (Asserts.refl _).bind fun binRecordIds => ?_
  have hrows : (asserted.recordSourceRows records binRecordIds dataSourceIds importedAt
      storeRawPayload).Asserts .keyError
      (plain.recordSourceRows records binRecordIds dataSourceIds importedAt storeRawPayload) := by
    intro β f f' b hf
    refine Asserts.foldlM (fun b m => Asserts.foldlM (fun b s => ?_) m.sources b) records b
    exact asserts_assertedItem.bind fun _ => asserts_assertedItem.bind fun _ => hf b _
  exact (hrows.transduce _).forEach fun _ => Asserts.refl _

theorem asserts_replaceAll {records records' : Gen Run MergedSourceRecord}
    (h : records.Asserts .keyError records') (metadataById : Dict Str SourceMetadata)
    (storeRawPayload : Bool) :
    Asserts .keyError (asserted.replaceAll env ⟨records, metadataById, storeRawPayload⟩)
      (plain.replaceAll env ⟨records', metadataById, storeRawPayload⟩) := by
  refine (Asserts.refl _).bind fun _ => (Asserts.refl _).bind fun _ =>
    (Asserts.refl _).bind fun _ => ?_
  refine (asserts_insertDataSourceMetadata metadataById).bind fun dataSourceIds => ?_
  exact ((h.transduce _).forEach fun _ => asserts_insertMergedRecordBatch _ _ _ _).bind fun _ =>
    Asserts.refl _

theorem asserts_importStaged (adapters : List SourceAdapter) (storeRawPayload : Bool) :
    Asserts .keyError (asserted.importStaged env adapters storeRawPayload)
      (plain.importStaged env adapters storeRawPayload) := by
  have hmerged : (countMergedRecords (mergeSortedSourceRecords (asserted.iterRecords env))).Asserts
      .keyError (countMergedRecords (mergeSortedSourceRecords (plain.iterRecords env))) :=
    ((asserts_iterRecords.transduce _).transduce _).tap _
  refine (Asserts.refl _).bind fun _ => (Asserts.refl _).bind fun _ =>
    (Asserts.refl _).bind fun w => ?_
  exact (asserts_replaceAll hmerged w.stage.sourceMetadataById storeRawPayload).bind fun _ =>
    Asserts.refl _

end Structure

/-! ## No assertion fails -/

section Safety

variable {env : Environment}

/-- **Decoding finds for each row the metadata of its source id.** -/
theorem asserted_iterRecords_yields (env : Environment) (records : List NormalizedSourceRecord) :
    Yields Idle (Faults env) (fun w => StageHolds records w.stage) (asserted.iterRecords env)
      (stableSort NormalizedSourceRecord.iinStart (stagedRecords records)) := by
  intro β f Inv E hidle hown hf b w hw
  have hstage : Triple (fun w => StageHolds records w.stage) (stageCall env (World.stage <$> get))
      (fun stage _ => StageHolds records stage) Anything :=
    triple_stageCall env (fun _ h => h) (fun _ _ _ h => h) (fun _ _ _ => trivial)
      fun _ _ _ _ => trivial
  have hsame : (asserted.iterRecords env).fold f b w =
      (CardBinData.iterRecords env).fold f b w := by
    refine bind_eq_of_triple hstage (fun stage w' hstage => ?_) hw.1
    have hrow : asserted.recordFromRow stage.sourceMetadataById =
        CardBinData.recordFromRow stage.sourceMetadataById := by
      funext row
      unfold recordFromRow CardBinData.recordFromRow
      rw [hstage.metadata, asserted_sourceMetadata (sourceId_of_mem_firstSeen records)]
    simp only [hrow]
  rw [hsame]
  exact iterRecords_yields env records f Inv E hidle hown hf b w hw

/-- The tables that ids refer to. -/
def referenced (w : World) : List DataSourceModel × List BinRecordModel :=
  (w.session.dataSources, w.session.binRecords)

theorem provenanceFrame_referenced : ProvenanceFrame referenced where
  clock _ _ := rfl
  executed _ _ := rfl
  binRecordSources _ _ := rfl

/-- The ids that the provenance rows of `records` need are found, and are those of their rows. -/
structure IdsIdentify (binRecordIds dataSourceIds : Dict Str Nat)
    (records : List MergedSourceRecord) (dataSources : List DataSourceModel)
    (binRecords : List BinRecordModel) : Prop where
  record : ∀ m ∈ records, ∃ i, binRecordIds.get? m.record.iinStart = some i ∧
    Identifies (fun r : BinRecordModel => r.iinStart) (·.id) binRecords m.record.iinStart i
  source : ∀ m ∈ records, ∀ s ∈ m.sources, ∃ i, dataSourceIds.get? s.source.sourceId = some i ∧
    Identifies (fun r : DataSourceModel => r.sourceId) (·.id) dataSources s.source.sourceId i

section Batch

variable {dataSourceIds : Dict Str Nat} {importedAt : Int} {storeRawPayload : Bool}
  {dataSources : List DataSourceModel}

/-- The stream of provenance rows asserts of the ids what holds of them while it is read, because
what reads it adds provenance rows only. -/
theorem asserted_recordSourceRows {binRecordIds : Dict Str Nat}
    {records : List MergedSourceRecord} {binRecords : List BinRecordModel}
    (h : IdsIdentify binRecordIds dataSourceIds records dataSources binRecords) :
    (asserted.recordSourceRows records binRecordIds dataSourceIds importedAt storeRawPayload).EqOn
      referenced (dataSources, binRecords)
      (CardBinData.recordSourceRows records binRecordIds dataSourceIds importedAt
        storeRawPayload) := by
  intro β f b hf w hw
  have hkeeps : ∀ (m : MergedSourceRecord) (b : β) (s : NormalizedSourceRecord),
      Keeps referenced (do
        let binRecordId ← getItem binRecordIds m.record.iinStart
        let dataSourceId ← getItem dataSourceIds s.source.sourceId
        f b (recordSourceValue binRecordId dataSourceId s importedAt storeRawPayload)) :=
    fun _ _ _ => keeps_bind (keeps_getItem _ _) fun _ => keeps_bind (keeps_getItem _ _) fun _ =>
      hf _ _
  refine foldlM_eq_of_keeps (fun b m => keeps_foldlM (hkeeps m) m.sources b)
    (fun m hm b w hw => ?_) b hw
  refine foldlM_eq_of_keeps (hkeeps m) (fun s hs b w hw => ?_) b hw
  obtain ⟨i, hi, hrow⟩ := h.record m hm
  obtain ⟨j, hj, hsource⟩ := h.source m hm s hs
  obtain ⟨rfl, rfl⟩ := Prod.mk.inj hw
  have hrecordId : asserted.binRecordId binRecordIds m.record.iinStart w = .ok i w :=
    assertedItem_eq hi (decide_eq_true hrow)
  have hsourceId : asserted.dataSourceId dataSourceIds s.source.sourceId w = .ok j w :=
    assertedItem_eq hj (decide_eq_true hsource)
  rw [run_bind, hrecordId, getItem_eq hi, getItem_eq hj, pure_bind, pure_bind]
  simp only
  rw [run_bind, hsourceId]

/-- After the records of a batch are inserted, all its ids are found and are those of their
rows: the keys of the batch are new, and each source has its row. -/
theorem idsIdentify_of_batchInserted {metadataById : Dict Str SourceMetadata}
    {done batch : List MergedSourceRecord} {db db' : Database} {binRecordIds : Dict Str Nat}
    (hnd : ((done ++ batch).map (·.record.iinStart)).Nodup)
    (hsources : SourcesLoaded metadataById dataSourceIds dataSources)
    (hsrc : ∀ m ∈ batch, ∀ s ∈ m.sources, ∃ e ∈ metadataById.items,
      e.2.sourceId = s.source.sourceId)
    (hloaded : Loaded dataSourceIds importedAt storeRawPayload dataSources done db)
    (h : BatchInserted (batch.map fun m => binRecordValues m.record) db binRecordIds db') :
    IdsIdentify binRecordIds dataSourceIds batch db'.dataSources db'.binRecords := by
  obtain ⟨new, rfl, hvalues, hids, hfresh, hget⟩ := h
  constructor
  · intro m hm
    obtain ⟨r, hr, hvalue⟩ := exists_of_forall₂_right (forall₂_of_map_eq hvalues).flip hm
    have hkey : r.iinStart = m.record.iinStart := congrArg BinRecordValues.iinStart hvalue
    rw [← hkey]
    exact ⟨r.id, hget r hr, identifies_of_mem
      (nodup_iinStart_of_values (hloaded.append_values hvalues) hnd)
      (hloaded.append_ids hids hfresh) (List.mem_append_right _ hr)⟩
  · intro m hm s hs
    obtain ⟨d, hd, hsid, hfound⟩ := hsources.exists_row (hsrc m hm s hs)
    refine ⟨d.id, hfound, ?_⟩
    rw [hloaded.dataSources, ← hsid]
    exact identifies_of_mem hsources.sourceIds hsources.ids hd

/-- **In a batch, every id is found and is that of its row.** -/
theorem asserted_insertMergedRecordBatch {metadataById : Dict Str SourceMetadata}
    {done batch : List MergedSourceRecord}
    (hnd : ((done ++ batch).map (·.record.iinStart)).Nodup)
    (hsources : SourcesLoaded metadataById dataSourceIds dataSources)
    (hsrc : ∀ m ∈ batch, ∀ s ∈ m.sources, ∃ e ∈ metadataById.items,
      e.2.sourceId = s.source.sourceId) {w : World}
    (hw : Loaded dataSourceIds importedAt storeRawPayload dataSources done w.session) :
    asserted.insertMergedRecordBatch env batch dataSourceIds importedAt storeRawPayload w =
      CardBinData.insertMergedRecordBatch env batch dataSourceIds importedAt storeRawPayload
        w := by
  have hkeys : (batch.map (·.record.iinStart)).Nodup := by
    rw [List.map_append] at hnd
    exact hnd.of_append_right
  have hinsert : Triple (fun w' => w'.session = w.session)
      (insertBinRecordBatch env (batch.map fun m => binRecordValues m.record)) _ Anything :=
    insertBinRecordBatch_triple (R := fun _ => True) (fun _ => trivial)
      (nodup_iinStart_rows hkeys) w.session
  refine bind_eq_of_triple hinsert (fun binRecordIds w' hw' => ?_) rfl
  have hrows : (asserted.recordSourceRows batch binRecordIds dataSourceIds importedAt
      storeRawPayload).EqOn referenced (referenced w') _ :=
    asserted_recordSourceRows (idsIdentify_of_batchInserted hnd hsources hsrc hw hw')
  exact (hrows.transduce _).forEach
    (fun rows => keeps_insertRecordSourceBatch provenanceFrame_referenced rows) rfl

end Batch

/-- `replace_all`, with the part before the stream as it is. -/
theorem asserted_replaceAll_eq {records : ImportReplacement}
    (hkeys : ∀ e ∈ records.sourceMetadata.items, e.2.sourceId = e.1) :
    asserted.replaceAll env records = (do
      let dataSourceIds ← replaceSources env records.sourceMetadata
      asserted.insertStreamedRecords env records.records dataSourceIds env.now
        records.storeRawPayload
      step env (pure ())) := by
  have hmetadata : ∀ e ∈ records.sourceMetadata.items,
      asserted.sourceMetadata records.sourceMetadata e.1 = pure e.2 := fun e he => by
    rw [asserted_sourceMetadata hkeys]
    exact getItem_eq (Dict.mem_items_iff.mp he)
  unfold replaceAll
  rw [insertDataSourceMetadata_eq env hmetadata]
  simp only [replaceSources, bind_assoc]

/-- Faults and conflicts are not missing keys. -/
theorem asserted_replaceAll_triple {τ : Type} {π : World → τ} (hπ : SessionFrame π) {v : τ}
    {records : ImportReplacement} {merged : List MergedSourceRecord}
    (hyields : Yields Quiet (Faults env) (fun w => π w = v) records.records merged)
    (hnd : (merged.map (·.record.iinStart)).Nodup)
    (hkeys : ∀ e ∈ records.sourceMetadata.items, e.2.sourceId = e.1)
    (hsrc : ∀ m ∈ merged, ∀ s ∈ m.sources, ∃ e ∈ records.sourceMetadata.items,
      e.2.sourceId = s.source.sourceId) :
    Triple (fun w => π w = v) (asserted.replaceAll env records) (fun _ _ => True)
      fun e _ => e ≠ .keyError := by
  have hfault : Faulty env → Failure.raised ≠ .keyError := fun _ => nofun
  rw [asserted_replaceAll_eq hkeys]
  refine (replaceSources_triple (R := fun e => e ≠ .keyError) hfault hπ hkeys env.now
    records.storeRawPayload).bind fun dataSourceIds => ?_
  rintro w ⟨hv, dataSources, hsources, hstart⟩
  have hbody : ∀ done batch rest, merged = done ++ batch ++ rest → ∀ w : World,
      Loaded dataSourceIds env.now records.storeRawPayload dataSources done w.session →
      asserted.insertMergedRecordBatch env batch dataSourceIds env.now records.storeRawPayload w =
        CardBinData.insertMergedRecordBatch env batch dataSourceIds env.now
          records.storeRawPayload w := by
    intro done batch rest hmerged w hw
    have hbatch : ∀ m ∈ batch, m ∈ merged := fun m hm =>
      hmerged ▸ List.mem_append_left _ (List.mem_append_right _ hm)
    have hkeys : ((done ++ batch).map (·.record.iinStart)).Nodup := by
      rw [hmerged, List.map_append] at hnd
      exact hnd.of_append_left
    exact asserted_insertMergedRecordBatch hkeys hsources (fun m hm => hsrc m (hbatch m hm)) hw
  have hstream := insertBatches_triple (R := fun e => e ≠ .keyError) hfault hyields hnd
    (hsources.sourcesKnown hsrc) (hsources.sourcesDistinct hsrc) (fun _ => nofun) hbody
  refine (hstream.bind fun _ => ?_) w ⟨hv, hstart⟩
  exact (flush_triple (R := fun e => e ≠ .keyError) hfault fun _ => True).conseq
    (fun _ _ => trivial) (fun _ _ _ => trivial) fun _ _ h => h

/-- **No access of the import fails, and none finds anything but what it is meant to find.** -/
theorem asserted_importStaged_triple (adapters : List SourceAdapter) (storeRawPayload : Bool) :
    Triple (fun w => w.stage = {}) (asserted.importStaged env adapters storeRawPayload)
      (fun _ _ => True) fun e _ => e ≠ .keyError := by
  let records := emitted adapters
  have hstage : Triple (fun w => w.stage = {}) (stageSourceRecords env adapters)
      (fun _ w => StageHolds records w.stage) fun e _ => e ≠ .keyError :=
    (stageSourceRecords_triple adapters).conseq (fun _ hw => hw ▸ stageHolds_nil)
      (fun _ _ h => h.2) fun _ _ h => h.ne_keyError
  have hcount : ∀ n, Triple (fun w => StageHolds records w.stage)
      (modify fun w => { w with counters := { sourceRecordCount := n } } : Run Unit)
      (fun _ w => StageHolds records w.stage) fun e _ => e ≠ .keyError :=
    fun n => Triple.modify fun _ hw => hw
  refine hstage.bind fun n => (hcount n).bind fun _ => Triple.getBind fun w hw => ?_
  have hmerged : Yields Quiet (Faults env) (fun w' => w'.stage = w.stage)
      (countMergedRecords (mergeSortedSourceRecords (asserted.iterRecords env)))
      (mergedRecords records) :=
    (countMergedRecords_yields (asserted_iterRecords_yields env records)).conseq
      fun w' hw' => hw' ▸ hw
  rw [hw.metadata]
  let replacement : ImportReplacement :=
    ⟨countMergedRecords (mergeSortedSourceRecords (asserted.iterRecords env)), firstSeen records,
      storeRawPayload⟩
  have hreplace : Triple (fun w' => w'.stage = w.stage) (asserted.replaceAll env replacement)
      (fun _ _ => True) fun e _ => e ≠ .keyError :=
    asserted_replaceAll_triple sessionFrame_stage hmerged (nodup_mergedRecords records)
      (sourceId_of_mem_firstSeen records) exists_metadata
  refine (hreplace.bind fun _ => ?_) w rfl
  exact Triple.getBind fun _ _ => trivial

/-- **From an empty stage, the asserted pipeline is the import.** -/
theorem asserted_importStaged (adapters : List SourceAdapter) (storeRawPayload : Bool) {w : World}
    (hw : w.stage = {}) :
    asserted.importStaged env adapters storeRawPayload w =
      CardBinData.importStaged env adapters storeRawPayload w := by
  rw [← plain_importStaged]
  exact (asserts_importStaged adapters storeRawPayload).eq_of_triple
    (asserted_importStaged_triple adapters storeRawPayload) hw

theorem asserted_importSources (env : Environment) (adapters : List SourceAdapter)
    (storeRawPayload : Bool) :
    asserted.importSources env adapters storeRawPayload =
      CardBinData.importSources env adapters storeRawPayload := by
  funext w
  have hcreate : Triple (fun _ => True) (createStage env) (fun _ w => w.stage = {}) Anything :=
    createStage_triple (R := fun _ => True) fun _ _ => trivial
  refine bind_eq_of_triple hcreate (fun path w' hw' => ?_) trivial
  unfold withFinally
  rw [asserted_importStaged adapters storeRawPayload hw']

end Safety

end Accesses

/-! ## The import -/

/-- The row is that of a contribution to a merged record; its ids are those of the row of that
record and of the row of that source. -/
def LinkedRow (records : List NormalizedSourceRecord) (storeRawPayload : Bool) (importedAt : Int)
    (db : Database) (row : BinRecordSourceModel) : Prop :=
  ∃ m ∈ mergedRecords records, ∃ s ∈ m.sources,
    row.toBinRecordSourceValues =
      recordSourceValue row.binRecordId row.dataSourceId s importedAt storeRawPayload ∧
    Identifies (fun r : BinRecordModel => r.iinStart) (·.id) db.binRecords m.record.iinStart
      row.binRecordId ∧
    Identifies (fun r : DataSourceModel => r.sourceId) (·.id) db.dataSources s.source.sourceId
      row.dataSourceId

theorem linkedRow_of_represents {records : List NormalizedSourceRecord} {storeRawPayload : Bool}
    {importedAt : Int} {db : Database}
    (h : db.Represents (datasetOf records storeRawPayload importedAt))
    {row : BinRecordSourceModel} (hrow : row ∈ db.binRecordSources) :
    LinkedRow records storeRawPayload importedAt db row := by
  have hmem := List.mem_map_of_mem (f := fun row : BinRecordSourceModel =>
    db.resolve row.toBinRecordSourceValues) hrow
  rw [h.provenance.mem_iff] at hmem
  obtain ⟨p, hp, hresolve⟩ := List.mem_map.mp hmem
  obtain ⟨m, hm, hps⟩ := List.mem_flatMap.mp hp
  obtain ⟨s, hs, rfl⟩ := List.mem_map.mp hps
  obtain ⟨r, hr, d, hd, hrid, hdid, -, hvalues⟩ := resolve_eq_some hresolve.symm
  obtain ⟨hiin, hsid, hkey, hat, hpayload⟩ := Provenance.mk.inj hvalues
  refine ⟨m, hm, s, hs, ?_, ?_, ?_⟩
  · unfold recordSourceValue
    rw [hkey, hat, hpayload]
  · rw [hiin, ← hrid]
    exact identifies_of_mem (nodup_iinStart h) h.binRecordIds hr
  · rw [hsid, ← hdid]
    exact identifies_of_mem (nodup_sourceId h) h.dataSourceIds hd

/-- **The dictionaries of an import are never read in vain and never mislead.** Whatever ids the
engine gives, in whatever order it returns them, and whatever fails: an import with every access
asserted does what it does without, and raises no `KeyError` before the stage is closed; one that
returns has committed provenance rows of its contributions, each linked to the row of its own
record and to that of its own source, and one that raises has committed nothing. -/
theorem import_dictionaries_sound (env : Environment) (adapters : List SourceAdapter)
    (storeRawPayload : Bool) (w : World) :
    Post ((createStage env >>= fun _ =>
        Accesses.asserted.importStaged env adapters storeRawPayload) w)
      (fun _ _ => True) (fun e _ => e ≠ .keyError) ∧
    (createStage env >>= fun _ => Accesses.asserted.importStaged env adapters storeRawPayload) w =
      (createStage env >>= fun _ => importStaged env adapters storeRawPayload) w ∧
    Accesses.asserted.storeImportSources env adapters storeRawPayload w =
      storeImportSources env adapters storeRawPayload w ∧
    Post (storeImportSources env adapters storeRawPayload w)
      (fun _ w' => w'.committed.Represents (datasetOf (emitted adapters) storeRawPayload env.now) ∧
        ∀ row ∈ w'.committed.binRecordSources,
          LinkedRow (emitted adapters) storeRawPayload env.now w'.committed row)
      fun e w' => e ≠ .keyError ∧ w'.committed = w.committed := by
  have hcreate : Triple (fun _ => True) (createStage env) (fun _ w => w.stage = {})
      fun e _ => e ≠ .keyError :=
    createStage_triple (R := fun e => e ≠ .keyError) fun _ _ => nofun
  refine ⟨?_, ?_, ?_, ?_⟩
  · exact (hcreate.bind fun _ =>
      Accesses.asserted_importStaged_triple adapters storeRawPayload) w trivial
  · exact bind_eq_of_triple hcreate
      (fun _ _ hw => Accesses.asserted_importStaged adapters storeRawPayload hw) trivial
  · unfold Accesses.storeImportSources
    rw [Accesses.asserted_importSources]
    rfl
  · exact (storeImportSources_spec env adapters storeRawPayload w).mono
      (fun _ _ h => ⟨h.represents, fun _ hrow => linkedRow_of_represents h.represents hrow⟩)
      fun _ _ h => ⟨h.2.ne_keyError, h.1⟩

end CardBinData
