import CardBinData.Client
import CardBinData.Replacement

/-!
# The dataset of an import

What the tables say, surrogate ids aside, is a `Dataset`: a provenance row names the `iin_start` of
its record and the `source_id` of its source instead of their ids. `Database.Represents` reads the
tables that way. `datasetOf records` is the dataset that an import of `records` is meant to leave;
it is a function of the records, the payload flag and the time, so nothing else can matter.

* `represents_of_loaded`: what `replace_all` leaves represents the dataset of what it was given.
-/

namespace CardBinData

open Library

/-- A provenance row, by what it refers to. -/
structure Provenance where
  iinStart : Str
  sourceId : Str
  sourceRowKey : Str
  importedAt : Option Int
  rawPayload : RawPayload
  deriving DecidableEq

/-- The contents of the tables without their ids. -/
structure Dataset where
  dataSources : List DataSourceValues
  binRecords : List BinRecordValues
  provenance : List Provenance
  deriving DecidableEq

/-- A provenance row read through its two references; `none` when one of them dangles. -/
def Database.resolve (db : Database) (row : BinRecordSourceValues) : Option Provenance := do
  let record ← db.binRecords.find? fun r => decide (r.id = row.binRecordId)
  let source ← db.dataSources.find? fun d => decide (d.id = row.dataSourceId)
  return ⟨record.iinStart, source.sourceId, row.sourceRowKey, row.importedAt, row.rawPayload⟩

/-- The tables hold the dataset: ids and provenance keys are unique, and every reference
resolves. -/
structure Database.Represents (db : Database) (dataset : Dataset) : Prop where
  dataSources : db.dataSources.map (·.toDataSourceValues) = dataset.dataSources
  dataSourceIds : (db.dataSources.map (·.id)).Nodup
  binRecords : db.binRecords.map (·.toBinRecordValues) = dataset.binRecords
  binRecordIds : (db.binRecords.map (·.id)).Nodup
  provenance : (db.binRecordSources.map fun row => db.resolve row.toBinRecordSourceValues).Perm
    (dataset.provenance.map some)
  provenanceUnique : UqBinRecordSources db.binRecordSources

/-- One contribution to a merged record. -/
def provenanceRow (merged : MergedSourceRecord) (source : NormalizedSourceRecord)
    (storeRawPayload : Bool) (importedAt : Int) : Provenance where
  iinStart := merged.record.iinStart
  sourceId := source.source.sourceId
  sourceRowKey := source.rowKey
  importedAt := some importedAt
  rawPayload := storedPayload source storeRawPayload

/-- **The dataset of the records**: their metadata by source id, one merged record for each
`iin_start`, and one provenance row for each contribution. -/
def datasetOf (records : List NormalizedSourceRecord) (storeRawPayload : Bool) (importedAt : Int) :
    Dataset :=
  let merged := mergeSourceRecords (stagedRecords records)
  { dataSources :=
      (stableSort Prod.fst (firstSeen records).items).map fun e => dataSourceValues e.2
    binRecords := merged.map fun m => binRecordValues m.record
    provenance := merged.flatMap fun m =>
      m.sources.map fun s => provenanceRow m s storeRawPayload importedAt }

/-- What `replace_all` leaves, read through its references. -/
theorem represents_of_loaded {metadataById : Dict Str SourceMetadata}
    {dataSourceIds : Dict Str Nat} {importedAt : Int} {storeRawPayload : Bool}
    {dataSources : List DataSourceModel} {merged : List MergedSourceRecord} {db : Database}
    (hsources : SourcesLoaded metadataById dataSourceIds dataSources)
    (h : Loaded dataSourceIds importedAt storeRawPayload dataSources merged db)
    (hsrc : ∀ m ∈ merged, ∀ s ∈ m.sources, ∃ e ∈ metadataById.items,
      e.2.sourceId = s.source.sourceId) :
    db.Represents
      { dataSources := (stableSort Prod.fst metadataById.items).map fun e => dataSourceValues e.2
        binRecords := merged.map fun m => binRecordValues m.record
        provenance := merged.flatMap fun m =>
          m.sources.map fun s => provenanceRow m s storeRawPayload importedAt } where
  dataSources := by rw [h.dataSources, hsources.values]
  dataSourceIds := by rw [h.dataSources]; exact hsources.ids
  binRecords := h.records
  binRecordIds := h.ids
  provenanceUnique := h.unique
  provenance := by
    have hperm := h.sources.map db.resolve
    rw [List.map_map] at hperm
    refine hperm.trans (List.Perm.of_eq ?_)
    -- each linked row resolves to its contribution
    have hrow : ∀ p ∈ merged.zip db.binRecords, ∀ s ∈ p.1.sources,
        db.resolve (recordSourceValue p.2.id ((dataSourceIds.get? s.source.sourceId).getD 0) s
          importedAt storeRawPayload) = some (provenanceRow p.1 s storeRawPayload importedAt) := by
      intro p hp s hs
      obtain ⟨hm, hr⟩ := List.of_mem_zip hp
      obtain ⟨d, hd, hsid, hget⟩ := hsources.exists_row (hsrc p.1 hm s hs)
      have hkey : p.2.iinStart = p.1.record.iinStart := congrArg BinRecordValues.iinStart
        ((List.forall₂_iff_zip.mp (forall₂_of_map_eq h.records)).2 hp)
      have hfindr : db.binRecords.find? (fun r => decide (r.id = p.2.id)) = some p.2 :=
        find?_key h.ids hr
      have hfindd : db.dataSources.find? (fun d' => decide (d'.id = d.id)) = some d := by
        rw [h.dataSources]
        exact find?_key hsources.ids hd
      unfold Database.resolve recordSourceValue provenanceRow
      simp only [hget, Option.getD_some, hfindr, hfindd, Option.bind_eq_bind, Option.bind_some,
        hkey, hsid]
      rfl
    have hzip : (merged.zip db.binRecords).map Prod.fst = merged := List.map_fst_zip h.length.ge
    unfold linkedSources
    conv_rhs => rw [← hzip]
    rw [List.map_flatMap, List.map_flatMap, List.flatMap_map]
    refine List.flatMap_congr fun p hp => ?_
    rw [List.map_map, List.map_map]
    exact List.map_congr_left fun s hs => hrow p hp s hs

end CardBinData
