import CardBinData.Environment

/-!
# Replacing the imported records (`db/services.py:125-335`)

`replaceAll` deletes the three tables and writes them again from a stream of merged records: the
data sources first, then the records in batches, each with the provenance rows of its records. The
ids that link a provenance row to its record and to its source come from dictionaries made of the
rows that `INSERT … RETURNING` gives.
-/

namespace CardBinData

open Library (Dict Gen Transducer stableSort)

/-- `ImportReplacement`. -/
structure ImportReplacement where
  records : Gen Run MergedSourceRecord
  sourceMetadata : Dict Str SourceMetadata
  storeRawPayload : Bool := true

/-! ## Values -/

/-- `_range_boundaries_8`. -/
def rangeBoundaries8 (record : NormalizedSourceRecord) : Option Str × Option Str :=
  match record.iinEnd with
  | none => (none, none)
  | some iinEnd =>
    (some (ljust record.iinStart eightDigitPrefixLength '0'),
      some (ljust iinEnd eightDigitPrefixLength '9'))

/-- `_data_source_values`. -/
def dataSourceValues (metadata : SourceMetadata) : DataSourceValues where
  sourceId := metadata.sourceId
  displayName := metadata.displayName
  upstreamUrl := metadata.upstreamUrl
  license := metadata.license
  localPath := metadata.localPath

/-- `_bin_record_values`. -/
def binRecordValues (record : NormalizedSourceRecord) : BinRecordValues where
  iinStart := record.iinStart
  iinEnd := record.iinEnd
  rangeStart8 := (rangeBoundaries8 record).1
  rangeEnd8 := (rangeBoundaries8 record).2
  numberLength := record.numberLength
  luhn := record.luhn
  scheme := record.scheme
  productBrand := record.productBrand
  type := record.type
  category := record.category
  prepaid := record.prepaid
  countryAlpha2 := record.countryAlpha2
  countryAlpha3 := record.countryAlpha3
  countryName := record.countryName
  issuerName := record.issuerName
  issuerPhone := record.issuerPhone
  issuerUrl := record.issuerUrl
  issuerCity := record.issuerCity

/-- The payload column of a provenance row. -/
def storedPayload (sourceRecord : NormalizedSourceRecord) (storeRawPayload : Bool) : RawPayload :=
  if storeRawPayload then
    match sourceRecord.rawPayloadJson with
    | some text => .jsonText text
    | none => .mapping sourceRecord.rawPayload
  else .mapping Dict.empty

/-- `_record_source_value`. -/
def recordSourceValue (binRecordId dataSourceId : Nat) (sourceRecord : NormalizedSourceRecord)
    (importedAt : Int) (storeRawPayload : Bool) : BinRecordSourceValues where
  binRecordId := binRecordId
  dataSourceId := dataSourceId
  sourceRowKey := sourceRecord.rowKey
  importedAt := some importedAt
  rawPayload := storedPayload sourceRecord storeRawPayload

/-- `"raw_payload_json" in row`. -/
def BinRecordSourceValues.isJsonText (row : BinRecordSourceValues) : Bool :=
  match row.rawPayload with
  | .jsonText _ => true
  | .mapping _ => false

/-! ## Inserts -/

/-- `_insert_data_source_metadata`. -/
def insertDataSourceMetadata (env : Environment) (metadataById : Dict Str SourceMetadata) :
    Run (Dict Str Nat) := do
  if metadataById.items.isEmpty then return Dict.empty
  let rows := (stableSort Prod.fst metadataById.items).map fun e => dataSourceValues e.2
  execute env .insertDataSources do
    let w ← get
    let ids := env.newIds w.clock (w.session.dataSources.map (·.id)) rows.length
    let dataSources := w.session.dataSources ++ newRows DataSourceModel.mk rows ids
    if UqDataSourcesSourceId dataSources then
      set { w with session := { w.session with dataSources := dataSources } }
      return Dict.ofPairs (env.returned w.clock ((rows.map (·.sourceId)).zip ids))
    else throw .integrityError

/-- `_insert_bin_record_batch`. -/
def insertBinRecordBatch (env : Environment) (rows : List BinRecordValues) :
    Run (Dict Str Nat) :=
  execute env .insertBinRecords do
    let w ← get
    let ids := env.newIds w.clock (w.session.binRecords.map (·.id)) rows.length
    set { w with session := { w.session with
      binRecords := w.session.binRecords ++ newRows BinRecordModel.mk rows ids } }
    return Dict.ofPairs (env.returned w.clock ((rows.map (·.iinStart)).zip ids))

/-- `INSERT INTO bin_record_sources`, of either payload. -/
def insertRecordSources (env : Environment) (rows : List BinRecordSourceValues) : Run Unit :=
  execute env .insertBinRecordSources do
    let w ← get
    let ids := env.newIds w.clock (w.session.binRecordSources.map (·.id)) rows.length
    let binRecordSources :=
      w.session.binRecordSources ++ newRows BinRecordSourceModel.mk rows ids
    if UqBinRecordSources binRecordSources then
      set { w with session := { w.session with binRecordSources := binRecordSources } }
    else throw .integrityError

/-- One of the two `if` statements of `_insert_record_source_batch`. -/
def insertRecordSourcesIfAny (env : Environment) (rows : List BinRecordSourceValues) :
    Run Unit :=
  if rows.isEmpty then pure () else insertRecordSources env rows

/-- `_insert_record_source_batch`: mapping payloads and JSON texts are two statements. -/
def insertRecordSourceBatch (env : Environment) (rows : List BinRecordSourceValues) :
    Run Unit := do
  let jsonTextRows := rows.filter (·.isJsonText)
  let mappingRows := rows.filter (!·.isJsonText)
  insertRecordSourcesIfAny env mappingRows
  insertRecordSourcesIfAny env jsonTextRows

/-- `_insert_record_source_rows`. -/
def insertRecordSourceRows (env : Environment) (rows : Gen Run BinRecordSourceValues) : Run Unit :=
  (rows.transduce (Transducer.batches _ env.recordSourceBatchSize)).forEach
    (insertRecordSourceBatch env)

/-- The generator expression `rows` of `_insert_merged_record_batch`. -/
def recordSourceRows (records : List MergedSourceRecord) (binRecordIds dataSourceIds : Dict Str Nat)
    (importedAt : Int) (storeRawPayload : Bool) : Gen Run BinRecordSourceValues :=
  ⟨fun f b => records.foldlM (fun b mergedRecord =>
    mergedRecord.sources.foldlM (fun b sourceRecord => do
      let binRecordId ← getItem binRecordIds mergedRecord.record.iinStart
      let dataSourceId ← getItem dataSourceIds sourceRecord.source.sourceId
      f b (recordSourceValue binRecordId dataSourceId sourceRecord importedAt storeRawPayload))
      b) b⟩

/-- `_insert_merged_record_batch`. -/
def insertMergedRecordBatch (env : Environment) (records : List MergedSourceRecord)
    (dataSourceIds : Dict Str Nat) (importedAt : Int) (storeRawPayload : Bool) : Run Unit := do
  let binRecordIds ← insertBinRecordBatch env (records.map fun m => binRecordValues m.record)
  insertRecordSourceRows env
    (recordSourceRows records binRecordIds dataSourceIds importedAt storeRawPayload)

/-- `_insert_streamed_records`. -/
def insertStreamedRecords (env : Environment) (records : Gen Run MergedSourceRecord)
    (dataSourceIds : Dict Str Nat) (importedAt : Int) (storeRawPayload : Bool) : Run Unit :=
  (records.transduce (Transducer.batches _ env.insertBatchSize)).forEach fun batch =>
    insertMergedRecordBatch env batch dataSourceIds importedAt storeRawPayload

/-- `ImportedRecordsService.replace_all`. -/
def replaceAll (env : Environment) (records : ImportReplacement) : Run Unit := do
  execute env .deleteBinRecordSources
    (modify fun w => { w with session := { w.session with binRecordSources := [] } })
  execute env .deleteBinRecords
    (modify fun w => { w with session := { w.session with binRecords := [] } })
  execute env .deleteDataSources
    (modify fun w => { w with session := { w.session with dataSources := [] } })
  let importedAt := env.now
  let dataSourceIds ← insertDataSourceMetadata env records.sourceMetadata
  insertStreamedRecords env records.records dataSourceIds importedAt records.storeRawPayload
  step env (pure ())

end CardBinData
