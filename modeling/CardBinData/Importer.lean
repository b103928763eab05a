import CardBinData.ImportedRecords
import Mathlib.Algebra.Group.Int.Defs
import Mathlib.Data.Prod.Lex

/-!
# The import pipeline (`importer.py`) and its transaction (`store.py:74-110`)

`importSources` creates the stage, copies every record of the adapters into it in batches, reads
them back sorted, merges the stream and hands it to `replaceAll`; the stage is closed in a
`finally`. The creation of the stage stands before the `try`.

`storeImportSources` runs it inside a transaction of its own.
-/

namespace CardBinData

open Library (Dict Gen Transducer stableSort withFinally)

/-- A source adapter: its metadata, and the records it emits. Its iteration may raise at every
step. -/
structure SourceAdapter where
  metadata : SourceMetadata
  records : List NormalizedSourceRecord

/-- `iter_records()`: one step for each record, and one for the end. -/
def SourceAdapter.iterRecords (env : Environment) (adapter : SourceAdapter) :
    Gen Run NormalizedSourceRecord :=
  ⟨fun f b => do
    let b ← adapter.records.foldlM (fun b record => do
      step env (pure ())
      f b record) b
    step env (pure ())
    pure b⟩

/-! ## The stage -/

/-- `sqlite3` binds integers of 64 bits. -/
def bindable (n : Int) : Bool := decide (-2 ^ 63 ≤ n ∧ n < 2 ^ 63)

/-- `_record_values`, with the ordinal it takes. -/
def recordValues (ordinal : Nat) (record : NormalizedSourceRecord) : StagedRow where
  ordinal := ordinal
  sourceId := record.source.sourceId
  rowKey := record.rowKey
  iinStart := record.iinStart
  iinEnd := record.iinEnd
  numberLength := record.numberLength
  luhn := record.luhn.map fun b => if b then 1 else 0
  scheme := record.scheme
  productBrand := record.productBrand
  type := record.type
  category := record.category
  prepaid := record.prepaid.map fun b => if b then 1 else 0
  countryAlpha2 := record.countryAlpha2
  countryAlpha3 := record.countryAlpha3
  countryName := record.countryName
  issuerName := record.issuerName
  issuerPhone := record.issuerPhone
  issuerUrl := record.issuerUrl
  issuerCity := record.issuerCity
  rawPayload := dumps record.rawPayload

/-- `executemany(_STAGING_INSERT_SQL, rows)`. Besides `number_length`, the integers bound are the
ordinal, which counts records, and two bits. -/
def executemany (rows : List StagedRow) : Run Unit :=
  rows.foldlM (fun _ row =>
    if row.numberLength.all bindable then
      modify fun w => { w with stage := { w.stage with rows := w.stage.rows ++ [row] } }
    else throw .overflowError) ()

/-- The loop of `insert_records`: the stage's own state, and the rows to insert. -/
def recordRows (records : List NormalizedSourceRecord) (stage : SourceRecordStage) :
    SourceRecordStage × List StagedRow :=
  records.foldl (fun s record =>
    ({ s.1 with
        nextOrdinal := s.1.nextOrdinal + 1
        sourceMetadataById :=
          s.1.sourceMetadataById.setdefault record.source.sourceId record.source },
      s.2 ++ [recordValues s.1.nextOrdinal record])) (stage, [])

/-- `_SourceRecordStage.insert_records`. -/
def insertRecords (env : Environment) (records : List NormalizedSourceRecord) : Run Unit := do
  let w ← get
  let (stage, rows) := recordRows records w.stage
  set { w with stage := stage }
  stageCall env (executemany rows)
  stageCall env (pure ())

/-- The record of a row, given its source. -/
def stagedSourceRecord (source : SourceMetadata) (row : StagedRow) : NormalizedSourceRecord where
  source := source
  rowKey := row.rowKey
  iinStart := row.iinStart
  iinEnd := row.iinEnd
  numberLength := row.numberLength
  luhn := row.luhn.map fun n => decide (n ≠ 0)
  scheme := row.scheme
  productBrand := row.productBrand
  type := row.type
  category := row.category
  prepaid := row.prepaid.map fun n => decide (n ≠ 0)
  countryAlpha2 := row.countryAlpha2
  countryAlpha3 := row.countryAlpha3
  countryName := row.countryName
  issuerName := row.issuerName
  issuerPhone := row.issuerPhone
  issuerUrl := row.issuerUrl
  issuerCity := row.issuerCity
  rawPayloadJson := some row.rawPayload

/-- `_record_from_row`. -/
def recordFromRow (sourceMetadataById : Dict Str SourceMetadata) (row : StagedRow) :
    Run NormalizedSourceRecord := do
  let source ← getItem sourceMetadataById row.sourceId
  return stagedSourceRecord source row

/-- The `ORDER BY` of `_STAGING_SELECT_SQL`. -/
def stagingOrder (row : StagedRow) : Str ×ₗ Nat := toLex (row.iinStart, row.ordinal)

/-- `iter_records`. The cursor is closed after the last batch; when a step or the loop over the
generator raises, it is closed later, which touches nothing that is modelled. -/
def iterRecords (env : Environment) : Gen Run NormalizedSourceRecord :=
  ⟨fun f b => do
    let stage ← stageCall env (World.stage <$> get)
    let batches := (Transducer.batches _ env.stagingFetchBatchSize).run []
      (stableSort stagingOrder stage.rows)
    let b ← batches.foldlM (fun b rows => do
      stageCall env (pure ())
      rows.foldlM (fun b row => do f b (← recordFromRow stage.sourceMetadataById row)) b) b
    stageCall env (pure ())
    stageCall env (pure ())
    pure b⟩

/-- `_make_temporary_stage_path`. -/
def makeTemporaryStagePath (env : Environment) : Run Nat := do
  let path ← stageStep env .mkstemp do
    let w ← get
    set { w with tempFiles := env.stagePath w.tempFiles :: w.tempFiles }
    return env.stagePath w.tempFiles
  stageStep env .closeDescriptor (pure ())
  return path

/-- `_SourceRecordStage.create`, with `_initialize`; the result is the stage's `_path`. -/
def createStage (env : Environment) : Run Nat := do
  let path ← makeTemporaryStagePath env
  stageStep env .connect (pure ())
  modify fun w => { w with stage := {}, callRunning := false }
  stageStep env .createTable (pure ())
  stageStep env .commitSchema (pure ())
  return path

/-- The step that closes the connection. -/
def closingStep (w : World) : StageStep :=
  if w.callRunning then .closeBusyConnection else .closeConnection

/-- `_SourceRecordStage.close`. -/
def closeStage (env : Environment) (path : Nat) : Run Unit := do
  let w ← get
  stageStep env (closingStep w) (pure ())
  stageStep env .unlink
    (modify fun w => { w with tempFiles := w.tempFiles.filter (· ≠ path) })

/-! ## The pipeline -/

/-- One round of the inner loop of `_stage_source_records`: the batch, and a count. -/
def stageRecord (env : Environment) (s : List NormalizedSourceRecord × Nat)
    (record : NormalizedSourceRecord) : Run (List NormalizedSourceRecord × Nat) := do
  let batch := s.1 ++ [record]
  if batch.length = env.stagingInsertBatchSize then
    insertRecords env batch
    return ([], s.2 + 1)
  else return (batch, s.2 + 1)

/-- One round of its outer loop: the batch left over, and the count over all adapters. -/
def stageAdapter (env : Environment) (s : List NormalizedSourceRecord × Nat)
    (adapter : SourceAdapter) : Run (List NormalizedSourceRecord × Nat) := do
  let (batch, adapterRecordCount) ← (adapter.iterRecords env).fold (stageRecord env) (s.1, 0)
  return (batch, s.2 + adapterRecordCount)

/-- `_stage_source_records`: a batch may span adapters. -/
def stageSourceRecords (env : Environment) (adapters : List SourceAdapter) : Run Nat := do
  let (batch, sourceRecordCount) ← adapters.foldlM (stageAdapter env) ([], 0)
  unless batch.isEmpty do insertRecords env batch
  return sourceRecordCount

/-- `_count_merged_records`. -/
def countMergedRecords (records : Gen Run MergedSourceRecord) : Gen Run MergedSourceRecord :=
  records.tap fun record => modify fun w => { w with counters := { w.counters with
    normalizedRecordCount := w.counters.normalizedRecordCount + 1
    provenanceRecordCount := w.counters.provenanceRecordCount + record.sources.length } }

/-- The body of the `try` of `import_sources`. -/
def importStaged (env : Environment) (adapters : List SourceAdapter) (storeRawPayload : Bool) :
    Run ImportCounters := do
  let sourceRecordCount ← stageSourceRecords env adapters
  modify fun w => { w with counters := { sourceRecordCount := sourceRecordCount } }
  let mergedRecords := countMergedRecords (mergeSortedSourceRecords (iterRecords env))
  let w ← get
  replaceAll env ⟨mergedRecords, w.stage.sourceMetadataById, storeRawPayload⟩
  return (← get).counters

/-- `import_sources`. -/
def importSources (env : Environment) (adapters : List SourceAdapter) (storeRawPayload : Bool) :
    Run ImportCounters := do
  let path ← createStage env
  withFinally (importStaged env adapters storeRawPayload) (closeStage env path)

/-! ## The transaction -/

/-- `async with session_factory.begin()`: commit when `x` returns, roll back when it raises. -/
def transaction {α : Type} (env : Environment) (x : Run α) : Run α := fun w =>
  match (do let a ← x; step env (pure ()); pure a : Run α)
      { w with session := w.committed, executed := [] } with
  | .ok a w' => .ok a { w' with committed := w'.session }
  | .error e w' => .error e { w' with session := w'.committed }

/-- `BinDataStore.import_sources`. -/
def storeImportSources (env : Environment) (adapters : List SourceAdapter)
    (storeRawPayload : Bool) : Run ImportCounters :=
  transaction env (importSources env adapters storeRawPayload)

end CardBinData
