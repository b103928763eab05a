import CardBinData.Observation
import CardBinData.Sources

/-!
# The five batch sizes

CSV files are read in batches until one is empty, staged records are inserted when a batch is full
and at the end, staged rows are fetched until a batch is empty, merged records and provenance rows
are inserted in batches of their own. The spec of each loop speaks of all its rows
(`iterCsvRecords_eq`, `stageSourceRecords_triple`, `iterRecords_yields`,
`insertStreamedRecords_triple`, `insertRecordSourceRows_triple`), so no size is left in what is
committed.

* `batchSizes_unobservable`: an import with any positive sizes leaves what an import without
  batches leaves.
-/

namespace CardBinData

open Library

/-- An adapter of an import: a bundled one, which reads its file in batches, or any other. -/
inductive ImportAdapter where
  | bundled (adapter : BundledAdapter)
  | custom (adapter : SourceAdapter)

namespace ImportAdapter

/-- The adapter, with `CSV_RECORD_BATCH_SIZE` as a parameter. -/
def reading (csvRecordBatchSize : Nat) : ImportAdapter → SourceAdapter
  | bundled adapter =>
    { adapter.sourceAdapter with
      records := iterCsvRecords csvRecordBatchSize adapter.sourceAdapter.records }
  | custom adapter => adapter

/-- The adapter, reading its file at once. -/
def readingAtOnce : ImportAdapter → SourceAdapter
  | bundled adapter => adapter.sourceAdapter
  | custom adapter => adapter

theorem reading_eq {csvRecordBatchSize : Nat} (hpos : 0 < csvRecordBatchSize)
    (adapter : ImportAdapter) : adapter.reading csvRecordBatchSize = adapter.readingAtOnce := by
  cases adapter with
  | bundled adapter => rw [reading, iterCsvRecords_eq hpos, readingAtOnce]
  | custom adapter => rfl

end ImportAdapter

/-- Every batch may hold a row. -/
structure PositiveBatchSizes (csvRecordBatchSize : Nat) (env : Environment) : Prop where
  csvRecord : 0 < csvRecordBatchSize
  stagingInsert : 0 < env.stagingInsertBatchSize
  stagingFetch : 0 < env.stagingFetchBatchSize
  insert : 0 < env.insertBatchSize
  recordSource : 0 < env.recordSourceBatchSize

/-- The environment without batches: no batch has length 0, so none is cut before the end
(`stageRecord_unbatched`, `batches_unbatched`). -/
def Environment.unbatched (env : Environment) : Environment :=
  { env with
    stagingInsertBatchSize := 0
    stagingFetchBatchSize := 0
    insertBatchSize := 0
    recordSourceBatchSize := 0 }

/-- Without batches every record waits for the end of the last adapter. -/
theorem stageRecord_unbatched (env : Environment) (s : List NormalizedSourceRecord × Nat)
    (record : NormalizedSourceRecord) :
    stageRecord env.unbatched s record = pure (s.1 ++ [record], s.2 + 1) := by
  have hlen : (s.1 ++ [record]).length ≠ env.unbatched.stagingInsertBatchSize := by
    change (s.1 ++ [record]).length ≠ 0
    simp
  exact if_neg hlen

/-- Without batches the rows are fetched, and inserted, at once. -/
theorem batches_unbatched (env : Environment) {α : Type} {rows : List α} (hrows : rows ≠ []) :
    (Transducer.batches α env.unbatched.stagingFetchBatchSize).run [] rows = [rows] ∧
      (Transducer.batches α env.unbatched.insertBatchSize).run [] rows = [rows] ∧
      (Transducer.batches α env.unbatched.recordSourceBatchSize).run [] rows = [rows] :=
  ⟨Transducer.run_batches_zero hrows, Transducer.run_batches_zero hrows,
    Transducer.run_batches_zero hrows⟩

/-- An import cannot be told from another import of the same records. -/
theorem sameImports_refl (adapters : List SourceAdapter) (storeRawPayload : Bool) :
    SameImports Provenance.contents adapters storeRawPayload adapters storeRawPayload :=
  sameImports_of_agree (fun c => (c.1, c.2.1, c.2.2.1)) (fun _ => rfl) rfl Iff.rfl fun _ _ _ =>
    datasetOf_agree (fun _ => rfl) (fun _ => Iff.rfl) fun _ _ => ⟨fun _ => rfl, List.Perm.refl _⟩

/-- **Batch sizes are unobservable.** An import with positive batch sizes leaves the counts, rows
and lookups of an import that handles all rows at once (`stageRecord_unbatched`,
`batches_unbatched`), and returns exactly when that one does. -/
theorem batchSizes_unobservable (adapters : List ImportAdapter) {csvRecordBatchSize : Nat}
    {env : Environment} (hpos : PositiveBatchSizes csvRecordBatchSize env) (env' : Environment)
    (storeRawPayload : Bool) (w w' : World) :
    PostBoth
      (storeImportSources env (adapters.map (·.reading csvRecordBatchSize)) storeRawPayload w)
      (storeImportSources env'.unbatched (adapters.map (·.readingAtOnce)) storeRawPayload w')
      (fun counters w₁ counters' w₁' =>
        SameImport Provenance.contents counters w₁.committed counters' w₁'.committed) ∧
    (Completes (storeImportSources env.faultless
        (adapters.map (·.reading csvRecordBatchSize)) storeRawPayload w) ↔
      Completes (storeImportSources env'.unbatched.faultless
        (adapters.map (·.readingAtOnce)) storeRawPayload w')) := by
  have hread : adapters.map (·.reading csvRecordBatchSize) =
      adapters.map (·.readingAtOnce) :=
    List.map_congr_left fun adapter _ => adapter.reading_eq hpos.csvRecord
  rw [hread]
  exact sameImports_refl _ storeRawPayload env env'.unbatched w w'

/-- Batches that are cut inside a file, between two adapters and at the last row. -/
def smallBatches : Environment :=
  { Environment.quiet with
    stagingInsertBatchSize := 2
    stagingFetchBatchSize := 3
    insertBatchSize := 1
    recordSourceBatchSize := 2 }

/-- A file of two rows before an adapter with one record. -/
def fileAndRecord : List ImportAdapter :=
  let row : Str → Row := fun iinStart =>
    Dict.ofPairs [(some "iin_start".toList, .text iinStart)]
  [.bundled (.binlistData ⟨"ranges.csv".toList⟩ [row "45717360".toList, row "457173".toList]),
    .custom ⟨⟨enrichmentSourceId, enrichmentSourceId, [], none, none⟩,
      [{ source := ⟨enrichmentSourceId, enrichmentSourceId, [], none, none⟩
         rowKey := "2".toList
         iinStart := "457173".toList
         category := some "classic".toList }]⟩]

theorem batchSizes_unobservable_smallBatches :
    PostBoth (storeImportSources smallBatches (fileAndRecord.map (·.reading 1)) true {})
      (storeImportSources Environment.quiet.unbatched (fileAndRecord.map (·.readingAtOnce)) true {})
      (fun counters w₁ counters' w₁' =>
        SameImport Provenance.contents counters w₁.committed counters' w₁'.committed) ∧
    (Completes (storeImportSources smallBatches.faultless (fileAndRecord.map (·.reading 1))
        true {}) ↔
      Completes (storeImportSources Environment.quiet.unbatched.faultless
        (fileAndRecord.map (·.readingAtOnce)) true {})) :=
  batchSizes_unobservable fileAndRecord
    ⟨by decide, by decide, by decide, by decide, by decide⟩ Environment.quiet true {} {}

end CardBinData
