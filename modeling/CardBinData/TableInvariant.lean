import CardBinData.ImportedTables

/-!
# The tables over a history of imports

`TableInvariant` is what holds of the committed tables at any time: keys are unique, the range
columns go with `iin_end`, and references hold in both directions. The schema enforces little of
it (`db/models.py` has no unique constraint on `iin_start`, and SQLite does not check foreign keys
by default); it holds because every import replaces all rows by the dataset of its records.

* `tableInvariant_of_represents`: tables that represent the dataset of some records satisfy it.
* `tableInvariant_runImport`: an import keeps it, whether it returns or raises.
* `tableInvariant_runImports`: it holds after every history of imports.
-/

namespace CardBinData

open Library

/-- The invariant of the committed tables. -/
structure TableInvariant (db : Database) : Prop where
  iinStart_unique : (db.binRecords.map (·.iinStart)).Nodup
  range_null : ∀ r ∈ db.binRecords,
    (r.rangeStart8 = none ∧ r.rangeEnd8 = none ↔ r.iinEnd = none) ∧
      (r.rangeStart8 = none ↔ r.rangeEnd8 = none)
  range_width : ∀ r ∈ db.binRecords, ∀ iinEnd, r.iinEnd = some iinEnd →
    r.iinStart.length ≤ eightDigitPrefixLength → iinEnd.length ≤ eightDigitPrefixLength →
    ∃ rangeStart rangeEnd, r.rangeStart8 = some rangeStart ∧ r.rangeEnd8 = some rangeEnd ∧
      rangeStart.length = eightDigitPrefixLength ∧ rangeEnd.length = eightDigitPrefixLength
  record_exists : ∀ s ∈ db.binRecordSources, ∃ r ∈ db.binRecords, r.id = s.binRecordId
  source_exists : ∀ s ∈ db.binRecordSources, ∃ d ∈ db.dataSources, d.id = s.dataSourceId
  record_referenced : ∀ r ∈ db.binRecords, ∃ s ∈ db.binRecordSources, s.binRecordId = r.id
  source_referenced : ∀ d ∈ db.dataSources, ∃ s ∈ db.binRecordSources, s.dataSourceId = d.id
  sourceId_unique : (db.dataSources.map (·.sourceId)).Nodup

theorem tableInvariant_empty : TableInvariant Database.empty where
  iinStart_unique := List.nodup_nil
  range_null _ h := absurd h List.not_mem_nil
  range_width _ h := absurd h List.not_mem_nil
  record_exists _ h := absurd h List.not_mem_nil
  source_exists _ h := absurd h List.not_mem_nil
  record_referenced _ h := absurd h List.not_mem_nil
  source_referenced _ h := absurd h List.not_mem_nil
  sourceId_unique := List.nodup_nil

/-! ## Tables that represent a dataset -/

/-- The boundaries of a record with short ends are eight characters wide. -/
theorem length_rangeBoundaries8 {record : NormalizedSourceRecord} {iinEnd : Str}
    (hend : record.iinEnd = some iinEnd) (hstart : record.iinStart.length ≤ eightDigitPrefixLength)
    (hlen : iinEnd.length ≤ eightDigitPrefixLength) :
    ∃ rangeStart rangeEnd, rangeBoundaries8 record = (some rangeStart, some rangeEnd) ∧
      rangeStart.length = eightDigitPrefixLength ∧ rangeEnd.length = eightDigitPrefixLength := by
  unfold rangeBoundaries8
  rw [hend]
  refine ⟨_, _, rfl, ?_, ?_⟩
  · rw [length_ljust, max_eq_right hstart]
  · rw [length_ljust, max_eq_right hlen]

theorem rangeBoundaries8_eq_none_iff (record : NormalizedSourceRecord) :
    ((rangeBoundaries8 record).1 = none ↔ record.iinEnd = none) ∧
      ((rangeBoundaries8 record).2 = none ↔ record.iinEnd = none) := by
  unfold rangeBoundaries8
  cases record.iinEnd <;> simp

section Represents

variable {db : Database} {records : List NormalizedSourceRecord} {storeRawPayload : Bool}
  {importedAt : Int} (h : db.Represents (datasetOf records storeRawPayload importedAt))
include h

/-- Every data source has a record. -/
theorem exists_record_of_dataSource {d : DataSourceModel} (hd : d ∈ db.dataSources) :
    ∃ r ∈ records, r.source.sourceId = d.sourceId := by
  have hmem : d.sourceId ∈ db.dataSources.map (·.sourceId) := List.mem_map_of_mem hd
  rw [map_sourceId h] at hmem
  obtain ⟨e, he, hsid⟩ := List.mem_map.mp hmem
  rw [← hsid]
  exact (sourceId_of_firstSeen (Dict.mem_items_iff.mp ((perm_stableSort _ _).mem_iff.mp he))).2

/-- Every record has a provenance row, which refers to the row of its `iin_start` and to its
source. -/
theorem exists_provenance {r : NormalizedSourceRecord} (hr : r ∈ records) :
    ∃ s ∈ db.binRecordSources,
      (∃ row ∈ db.binRecords, row.id = s.binRecordId ∧ row.iinStart = r.iinStart) ∧
      ∃ d ∈ db.dataSources, d.id = s.dataSourceId ∧ d.sourceId = r.source.sourceId := by
  obtain ⟨row, hrow, hk⟩ := exists_row h ⟨r, hr, rfl⟩
  have hcontrib : restored (firstSeen records) r ∈
      (mergedOf (stagedRecords records) row.iinStart).sources :=
    List.mem_append_left _ (mem_exactGroup.mpr ⟨List.mem_map_of_mem hr, hk.symm⟩)
  have hmem := (sources_of_row h hrow).mem_iff.mpr
    (List.mem_map_of_mem (List.mem_map_of_mem hcontrib))
  obtain ⟨s, hs, hresolve⟩ := List.mem_map.mp hmem
  obtain ⟨row', hrow', d, hd, hrid, hdid, -, hp⟩ := resolve_eq_some hresolve
  refine ⟨s, List.mem_of_mem_filter hs, ⟨row', hrow', hrid, ?_⟩, d, hd, hdid, ?_⟩
  · exact (congrArg Provenance.iinStart hp).symm.trans hk
  · exact (congrArg Provenance.sourceId hp).symm.trans (sourceId_restored records r)

/-- **Tables that represent the dataset of some records satisfy the invariant.** -/
theorem tableInvariant_of_represents : TableInvariant db where
  iinStart_unique := nodup_iinStart h
  range_null row hrow := by
    rw [(row_values h hrow).2]
    obtain ⟨hs, he⟩ := rangeBoundaries8_eq_none_iff
      (mergedOf (stagedRecords records) row.iinStart).record
    exact ⟨⟨fun hn => hs.mp hn.1, fun hn => ⟨hs.mpr hn, he.mpr hn⟩⟩, hs.trans he.symm⟩
  range_width row hrow iinEnd hend hstart hlen := by
    rw [(row_values h hrow).2] at hend hstart ⊢
    obtain ⟨s, e, hbounds, hs, he⟩ := length_rangeBoundaries8 hend hstart hlen
    exact ⟨s, e, congrArg Prod.fst hbounds, congrArg Prod.snd hbounds, hs, he⟩
  record_exists s hs := by
    obtain ⟨p, hp⟩ := exists_resolve h hs
    obtain ⟨row, hrow, d, -, hrid, -⟩ := resolve_eq_some hp
    exact ⟨row, hrow, hrid⟩
  source_exists s hs := by
    obtain ⟨p, hp⟩ := exists_resolve h hs
    obtain ⟨row, -, d, hd, -, hdid, -⟩ := resolve_eq_some hp
    exact ⟨d, hd, hdid⟩
  record_referenced row hrow := by
    obtain ⟨r, hr, hk⟩ := (row_values h hrow).1
    obtain ⟨s, hs, ⟨row', hrow', hrid, hk'⟩, -⟩ := exists_provenance h hr
    rw [List.inj_on_of_nodup_map (nodup_iinStart h) hrow hrow' (hk.symm.trans hk'.symm)]
    exact ⟨s, hs, hrid.symm⟩
  source_referenced d hd := by
    obtain ⟨r, hr, hsid⟩ := exists_record_of_dataSource h hd
    obtain ⟨s, hs, -, d', hd', hdid, hsid'⟩ := exists_provenance h hr
    rw [List.inj_on_of_nodup_map (nodup_sourceId h) hd hd' (hsid.symm.trans hsid'.symm)]
    exact ⟨s, hs, hdid.symm⟩
  sourceId_unique := nodup_sourceId h

end Represents

/-! ## Histories -/

/-- One call of `BinDataStore.import_sources`, in the environment it meets. -/
structure ImportCall where
  env : Environment
  adapters : List SourceAdapter
  storeRawPayload : Bool

/-- The world after one call, whether it returned or raised. -/
def runImport (w : World) (call : ImportCall) : World :=
  finalState (storeImportSources call.env call.adapters call.storeRawPayload w)

/-- The world after a history of calls. -/
def runImports (calls : List ImportCall) (w : World) : World := calls.foldl runImport w

/-- An import keeps the invariant: it commits a dataset, or nothing. -/
theorem tableInvariant_runImport {w : World} (hw : TableInvariant w.committed)
    (call : ImportCall) : TableInvariant (runImport w call).committed := by
  have hpost := storeImportSources_post call.env call.adapters call.storeRawPayload w
  unfold runImport
  cases hrun : storeImportSources call.env call.adapters call.storeRawPayload w with
  | ok counters w' =>
    rw [hrun] at hpost
    exact tableInvariant_of_represents hpost
  | error e w' =>
    rw [hrun] at hpost
    change w'.committed = w.committed at hpost
    change TableInvariant w'.committed
    rwa [hpost]

theorem tableInvariant_foldl_runImport (calls : List ImportCall) {w : World}
    (hw : TableInvariant w.committed) : TableInvariant (runImports calls w).committed := by
  induction calls generalizing w with
  | nil => exact hw
  | cons call calls ih => exact ih (tableInvariant_runImport hw call)

/-- **The invariant holds after every history of imports from empty tables**, each with its own
adapters and its own failures. -/
theorem tableInvariant_runImports (calls : List ImportCall) (w : World) :
    TableInvariant (runImports calls { w with committed := Database.empty }).committed :=
  tableInvariant_foldl_runImport calls tableInvariant_empty

end CardBinData
