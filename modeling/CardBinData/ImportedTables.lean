import CardBinData.ImportSpec
import CardBinData.LookupPriority
import CardBinData.Normalization

/-!
# The tables after an import

Tables that represent `datasetOf records` have one `bin_records` row for each `iin_start` of the
records, with the merged values of it (`exists_row`, `row_values`), and the provenance rows of a
row are the contributions to its merged record (`sources_of_row`). The unique constraint tells
the contributions apart by source and row (`nodup_rowIds`), so the merge picks the same ones from
the staged records as from the emitted ones (`rowIds_mergedOf_staged`). A lookup reads these facts
back:

* `import_then_lookup`: a successful import commits the dataset of the emitted records, in which
  every emitted 6- or 8-digit key is found with its merged values and its sources; a failing one
  changes nothing.
-/

namespace CardBinData

open Library

/-! ## Merged values -/

/-- Staging does not change what the records merge to. -/
theorem getattr_mergedOf_staged (records : List NormalizedSourceRecord) (k : Str) (f : FieldName) :
    (mergedOf (stagedRecords records) k).record.getattr f =
      (mergedOf records k).record.getattr f :=
  getattr_mergedOf_map (relabels_restored records) records k f

theorem exists_stagedRecords_iff {records : List NormalizedSourceRecord} {k : Str} :
    (∃ r ∈ stagedRecords records, r.iinStart = k) ↔ ∃ r ∈ records, r.iinStart = k := by
  simp [stagedRecords]

/-- The merged records of an import, by key. -/
theorem mergedRecords_eq_map (records : List NormalizedSourceRecord) :
    ∃ keys : List Str, keys.Nodup ∧ (∀ k, k ∈ keys ↔ ∃ r ∈ records, r.iinStart = k) ∧
      mergedRecords records = keys.map (mergedOf (stagedRecords records)) := by
  obtain ⟨keys, hsorted, hkeys, heq⟩ := mergeSourceRecords_eq_map (stagedRecords records)
  exact ⟨keys, hsorted.imp ne_of_lt, fun k => (hkeys k).trans exists_stagedRecords_iff, heq⟩

/-- A row with the values of a record shows its fields. -/
theorem field_binInfo {row : BinRecordModel} {record : NormalizedSourceRecord}
    (h : row.toBinRecordValues = binRecordValues record) (f : FieldName) :
    (binInfo row).field f = record.getattr f := by
  cases f <;> simp only [BinInfo.field, binInfo, h] <;> rfl

/-- The row of a merged record shows its key and its fields. -/
theorem binRecordValues_congr {record record' : NormalizedSourceRecord}
    (hk : record.iinStart = record'.iinStart) (h : ∀ f, record.getattr f = record'.getattr f) :
    binRecordValues record = binRecordValues record' := by
  have hend : record.iinEnd = record'.iinEnd := h .iinEnd
  have hbounds : rangeBoundaries8 record = rangeBoundaries8 record' := by
    unfold rangeBoundaries8
    rw [hk, hend]
  unfold binRecordValues
  rw [hbounds, hk]
  congr 1
  · exact h .numberLength
  · exact h .luhn
  · exact h .scheme
  · exact h .productBrand
  · exact h .type
  · exact h .category
  · exact h .prepaid
  · exact h .countryAlpha2
  · exact h .countryAlpha3
  · exact h .countryName
  · exact h .issuerName
  · exact h .issuerPhone
  · exact h .issuerUrl
  · exact h .issuerCity

/-! ## Rows -/

section Rows

variable {db : Database} {records : List NormalizedSourceRecord} {storeRawPayload : Bool}
  {importedAt : Int} (h : db.Represents (datasetOf records storeRawPayload importedAt))
include h

theorem nodup_iinStart : (db.binRecords.map (·.iinStart)).Nodup :=
  nodup_iinStart_of_values h.binRecords (nodup_mergedRecords records)

/-- Every row has the merged values of its `iin_start`, which some record has. -/
theorem row_values {row : BinRecordModel} (hrow : row ∈ db.binRecords) :
    (∃ r ∈ records, r.iinStart = row.iinStart) ∧
      row.toBinRecordValues =
        binRecordValues (mergedOf (stagedRecords records) row.iinStart).record := by
  have hmem := List.mem_map_of_mem (f := BinRecordModel.toBinRecordValues) hrow
  rw [h.binRecords] at hmem
  obtain ⟨m, hm, hvalues⟩ := List.mem_map.mp hmem
  obtain ⟨keys, -, hkeys, heq⟩ := mergedRecords_eq_map records
  change m ∈ mergedRecords records at hm
  rw [heq] at hm
  obtain ⟨k, hk, rfl⟩ := List.mem_map.mp hm
  have hrk : row.iinStart = k := (congrArg BinRecordValues.iinStart hvalues).symm
  rw [hrk]
  exact ⟨(hkeys k).mp hk, hvalues.symm⟩

/-- Every `iin_start` of the records has its row. -/
theorem exists_row {k : Str} (hk : ∃ r ∈ records, r.iinStart = k) :
    ∃ row ∈ db.binRecords, row.iinStart = k := by
  obtain ⟨keys, -, hkeys, heq⟩ := mergedRecords_eq_map records
  have hmem : binRecordValues (mergedOf (stagedRecords records) k).record ∈
      db.binRecords.map (·.toBinRecordValues) := by
    rw [h.binRecords]
    change _ ∈ (mergedRecords records).map fun m => binRecordValues m.record
    rw [heq]
    exact List.mem_map_of_mem (List.mem_map_of_mem ((hkeys k).mpr hk))
  obtain ⟨row, hrow, hvalues⟩ := List.mem_map.mp hmem
  exact ⟨row, hrow, congrArg BinRecordValues.iinStart hvalues⟩

/-- The data sources are those first seen among the records. -/
theorem map_sourceId :
    db.dataSources.map (·.sourceId) =
      (stableSort Prod.fst (firstSeen records).items).map Prod.fst := by
  have hmap := congrArg (List.map DataSourceValues.sourceId) h.dataSources
  rw [List.map_map] at hmap
  change db.dataSources.map (·.sourceId) =
    ((stableSort Prod.fst (firstSeen records).items).map fun e => dataSourceValues e.2).map
      DataSourceValues.sourceId at hmap
  rw [hmap]
  exact map_sourceId_rows (sourceId_of_mem_firstSeen records)

theorem nodup_sourceId : (db.dataSources.map (·.sourceId)).Nodup := by
  rw [map_sourceId h]
  exact (((perm_stableSort Prod.fst _).map Prod.fst).nodup_iff).mpr (firstSeen records).nodup

/-! ## Provenance -/

omit h in
/-- The contributions to the merged record of one key. -/
theorem provenance_filter {k : Str} (hk : ∃ r ∈ records, r.iinStart = k) :
    (datasetOf records storeRawPayload importedAt).provenance.filter
      (fun p => decide (p.iinStart = k)) =
      (mergedOf (stagedRecords records) k).sources.map fun s =>
        provenanceRow (mergedOf (stagedRecords records) k) s storeRawPayload importedAt := by
  obtain ⟨keys, hnd, hkeys, heq⟩ := mergedRecords_eq_map records
  change ((mergedRecords records).flatMap fun m => m.sources.map fun s =>
    provenanceRow m s storeRawPayload importedAt).filter _ = _
  rw [heq, List.flatMap_map]
  exact filter_flatMap_key (fun k' p hp => by
    obtain ⟨s, -, rfl⟩ := List.mem_map.mp hp
    rfl) hnd ((hkeys k).mpr hk)

/-- Every provenance row resolves. -/
theorem exists_resolve {source : BinRecordSourceModel} (hs : source ∈ db.binRecordSources) :
    ∃ p, db.resolve source.toBinRecordSourceValues = some p := by
  have hmem := List.mem_map_of_mem (f := fun row : BinRecordSourceModel =>
    db.resolve row.toBinRecordSourceValues) hs
  rw [h.provenance.mem_iff] at hmem
  obtain ⟨p, -, hp⟩ := List.mem_map.mp hmem
  exact ⟨p, hp.symm⟩

omit h in
/-- What a resolved row refers to. -/
theorem resolve_eq_some {row : BinRecordSourceValues} {p : Provenance}
    (hp : db.resolve row = some p) :
    ∃ r ∈ db.binRecords, ∃ d ∈ db.dataSources, r.id = row.binRecordId ∧ d.id = row.dataSourceId ∧
      db.dataSources.find? (fun d => decide (d.id = row.dataSourceId)) = some d ∧
      p = ⟨r.iinStart, d.sourceId, row.sourceRowKey, row.importedAt, row.rawPayload⟩ := by
  unfold Database.resolve at hp
  simp only [Option.bind_eq_bind, Option.bind_eq_some_iff] at hp
  obtain ⟨r, hr, d, hd, hp⟩ := hp
  have hrid : r.id = row.binRecordId := by simpa using List.find?_some hr
  have hdid : d.id = row.dataSourceId := by simpa using List.find?_some hd
  exact ⟨r, List.mem_of_find?_eq_some hr, d, List.mem_of_find?_eq_some hd, hrid, hdid, hd,
    (Option.some.inj hp).symm⟩

/-- A provenance row belongs to the record whose `iin_start` it resolves to. -/
theorem filter_resolve_iinStart {row : BinRecordModel} (hrow : row ∈ db.binRecords) :
    (db.binRecordSources.filter fun s => (db.resolve s.toBinRecordSourceValues).any fun p =>
        decide (p.iinStart = row.iinStart)) =
      db.binRecordSources.filter fun s => decide (s.binRecordId = row.id) := by
  refine List.filter_congr fun s hs => ?_
  obtain ⟨p, hp⟩ := exists_resolve h hs
  obtain ⟨r, hr, d, -, hrid, -, -, rfl⟩ := resolve_eq_some hp
  rw [hp, Option.any_some]
  refine decide_eq_decide.mpr ⟨fun hk => ?_, fun hid => ?_⟩
  · rw [← hrid, List.inj_on_of_nodup_map (nodup_iinStart h) hr hrow hk]
  · rw [List.inj_on_of_nodup_map h.binRecordIds hr hrow (hrid.trans hid)]

/-- **The provenance rows of a record are the contributions to it.** -/
theorem sources_of_row {row : BinRecordModel} (hrow : row ∈ db.binRecords) :
    ((db.binRecordSources.filter fun s => decide (s.binRecordId = row.id)).map fun s =>
        db.resolve s.toBinRecordSourceValues).Perm
      (((mergedOf (stagedRecords records) row.iinStart).sources.map fun s =>
        provenanceRow (mergedOf (stagedRecords records) row.iinStart) s storeRawPayload
          importedAt).map some) := by
  have hperm := h.provenance.filter fun o => o.any fun p => decide (p.iinStart = row.iinStart)
  rw [List.filter_map, List.filter_map] at hperm
  have hprov : (datasetOf records storeRawPayload importedAt).provenance.filter
      ((fun o : Option Provenance => o.any fun p => decide (p.iinStart = row.iinStart)) ∘ some) =
      (datasetOf records storeRawPayload importedAt).provenance.filter
        (fun p => decide (p.iinStart = row.iinStart)) := rfl
  rw [hprov, provenance_filter (row_values h hrow).1] at hperm
  exact filter_resolve_iinStart h hrow ▸ hperm

/-- The provenance rows of a record name the sources and rows of the contributions to it. -/
theorem rowIds_of_row {row : BinRecordModel} (hrow : row ∈ db.binRecords) :
    ((db.binRecordSources.filter fun s => decide (s.binRecordId = row.id)).map fun s =>
        (db.resolve s.toBinRecordSourceValues).map fun p => (p.sourceId, p.sourceRowKey)).Perm
      (((mergedOf (stagedRecords records) row.iinStart).sources.map rowId).map some) := by
  have hperm := (sources_of_row h hrow).map
    (Option.map fun p : Provenance => (p.sourceId, p.sourceRowKey))
  rw [List.map_map, List.map_map, List.map_map] at hperm
  rw [List.map_map]
  exact hperm

/-- No row of a source contributes twice to a record. -/
theorem nodup_rowIds {row : BinRecordModel} (hrow : row ∈ db.binRecords) :
    ((mergedOf (stagedRecords records) row.iinStart).sources.map rowId).Nodup := by
  have hkeys : ((db.binRecordSources.filter fun s => decide (s.binRecordId = row.id)).map
      fun s => s.uniqueKey).Nodup :=
    h.provenanceUnique.sublist (List.filter_sublist.map _)
  refine List.Nodup.of_map some ((rowIds_of_row h hrow).nodup_iff.mp ?_)
  refine (List.nodup_map_iff_inj_on (List.Nodup.of_map _ hkeys)).mpr fun s hs s' hs' heq => ?_
  refine List.inj_on_of_nodup_map hkeys hs hs' ?_
  obtain ⟨hs, hrid⟩ := List.mem_filter.mp hs
  obtain ⟨hs', hrid'⟩ := List.mem_filter.mp hs'
  have hid : s.binRecordId = s'.binRecordId :=
    (of_decide_eq_true hrid).trans (of_decide_eq_true hrid').symm
  obtain ⟨p, hp⟩ := exists_resolve h hs
  obtain ⟨p', hp'⟩ := exists_resolve h hs'
  rw [hp, hp', Option.map_some, Option.map_some, Option.some.injEq] at heq
  obtain ⟨r, -, d, hd, -, hdid, -, rfl⟩ := resolve_eq_some hp
  obtain ⟨r', -, d', hd', -, hdid', -, rfl⟩ := resolve_eq_some hp'
  have hsid : d.sourceId = d'.sourceId := congrArg Prod.fst heq
  have hrowKey : s.sourceRowKey = s'.sourceRowKey := congrArg Prod.snd heq
  have hdd : d = d' := List.inj_on_of_nodup_map (nodup_sourceId h) hd hd' hsid
  unfold BinRecordSourceValues.uniqueKey
  rw [hid, ← hdid, ← hdid', hdd, hrowKey]

/-- Rows tell the records of a key apart. -/
theorem nodup_rowIds_exactGroup (k : Str) : ((exactGroup records k).map rowId).Nodup := by
  by_cases hk : ∃ r ∈ records, r.iinStart = k
  · obtain ⟨row, hrow, rfl⟩ := exists_row h hk
    have hnd := nodup_rowIds h hrow
    change ((exactGroup (stagedRecords records) row.iinStart ++ _).map rowId).Nodup at hnd
    rw [List.map_append, stagedRecords, exactGroup_map (relabels_restored records),
      List.map_map, rowId_comp_restored] at hnd
    exact hnd.of_append_left
  · rw [exactGroup_eq_nil hk]
    exact List.nodup_nil

/-- Staging does not change which rows contribute. -/
theorem rowIds_mergedOf_staged (k : Str) :
    (mergedOf (stagedRecords records) k).sources.map rowId =
      (mergedOf records k).sources.map rowId := by
  rw [stagedRecords, sources_mergedOf_map (relabels_restored records) records k
    (nodup_rowIds_exactGroup h _), List.map_map, rowId_comp_restored]

/-! ## Lookups -/

/-- The attributions of a row are the contributions to its record. -/
theorem sourceAttributions_of_row {row : BinRecordModel} (hrow : row ∈ db.binRecords)
    (backend : Backend) :
    ∃ attributions, sourceAttributions backend db row = some attributions ∧
      (attributions.map fun a => (a.sourceId, a.sourceRowKey)).Perm
        ((mergedOf records row.iinStart).sources.map fun s =>
          (s.source.sourceId, some s.rowKey)) := by
  have hrows : (db.sources backend row).Perm
      (db.binRecordSources.filter fun s => decide (s.binRecordId = row.id)) :=
    backend.collected_perm _
  let shown : Str × Str → Str × Option Str := fun p => (p.1, some p.2)
  have hread : ∀ s ∈ db.sources backend row, ∃ a, sourceAttribution db s = some a ∧
      some (a.sourceId, a.sourceRowKey) = ((db.resolve s.toBinRecordSourceValues).map fun p =>
        (p.sourceId, p.sourceRowKey)).map shown := by
    intro s hs
    obtain ⟨p, hp⟩ := exists_resolve h (List.mem_of_mem_filter (hrows.mem_iff.mp hs))
    obtain ⟨r, -, d, -, -, -, hd, rfl⟩ := resolve_eq_some hp
    rw [hp]
    exact ⟨_, congrArg (Option.map _) hd, rfl⟩
  obtain ⟨attributions, hattr, hpairs⟩ := exists_mapM_eq_some hread
  refine ⟨attributions, hattr, (List.map_perm_map_iff (Option.some_injective _)).mp ?_⟩
  have heq : attributions.map (fun a => some (a.sourceId, a.sourceRowKey)) =
      ((db.sources backend row).map fun s => (db.resolve s.toBinRecordSourceValues).map fun p =>
        (p.sourceId, p.sourceRowKey)).map (Option.map shown) := by
    rw [List.map_map, ← List.forall₂_eq_eq_eq, List.forall₂_map_left_iff,
      List.forall₂_map_right_iff]
    exact hpairs.flip
  have hperm := ((hrows.map _).trans (rowIds_of_row h hrow)).map (Option.map shown)
  have hsources : (((mergedOf records row.iinStart).sources.map rowId).map some).map
      (Option.map shown) = ((mergedOf records row.iinStart).sources.map fun s =>
        (s.source.sourceId, some s.rowKey)).map some := by
    rw [List.map_map, List.map_map, List.map_map]
    rfl
  rw [rowIds_mergedOf_staged h, hsources, ← heq] at hperm
  rw [List.map_map]
  exact hperm

/-- A lookup whose statement selects a row shows the row, with its contributions. -/
theorem lookup_of_lookupRecord {value : Str} {validateLuhn : Bool} {row : BinRecordModel}
    (hstatus : (normalizeLookupInput value validateLuhn).status ≠ .invalid)
    (hrow : row ∈ db.binRecords)
    (hlookup : lookupRecord db.binRecords (normalizeLookupInput value validateLuhn).query =
      some row) (backend : Backend) :
    ∃ result, lookupWithSession backend db value validateLuhn = some result ∧
      result.status = .found ∧ result.data = some (binInfo row) ∧
      (result.sources.map fun a => (a.sourceId, a.sourceRowKey)).Perm
        ((mergedOf records row.iinStart).sources.map fun s =>
          (s.source.sourceId, some s.rowKey)) := by
  obtain ⟨attributions, hattr, hperm⟩ := sourceAttributions_of_row h hrow backend
  unfold lookupWithSession
  simp only [if_neg hstatus, hlookup, hattr]
  exact ⟨_, rfl, rfl, rfl, hperm⟩

end Rows

/-- A key of 6 or 8 decimal digits selects the row that has it. -/
theorem lookupRecord_of_iinStart {rows : List BinRecordModel}
    (hnd : (rows.map (·.iinStart)).Nodup) {row : BinRecordModel} (hrow : row ∈ rows)
    (hdec : isdecimal row.iinStart = true)
    (hlen : row.iinStart.length = minPrefixLength ∨ row.iinStart.length = extendedPrefixLength)
    (validateLuhn : Bool) :
    lookupRecord rows (normalizeLookupInput row.iinStart validateLuhn).query = some row := by
  have hcand := (normalize_short hdec hlen validateLuhn).2
  refine DocumentedAnswer.unique hnd (documented_lookupRecord rows _) ?_
  rcases hlen with hlen | hlen
  · obtain ⟨h8, h6⟩ := candidateOfLength_sixDigits hlen
    rw [← hcand] at h8 h6
    exact .exact6 (fun c hc => absurd (h8.symm.trans hc) (by simp)) h6 hrow rfl
  · exact .exact8 (candidateOfLength_eightDigits hdec hlen validateLuhn) hrow rfl

/-- The result shows the merged record `m`: its key, its values, and its contributions as a
multiset. -/
structure Shows (m : MergedSourceRecord) (result : LookupResult) : Prop where
  status : result.status = .found
  data : ∃ info, result.data = some info ∧ info.iinStart = m.record.iinStart ∧
    ∀ f, info.field f = m.record.getattr f
  sources : (result.sources.map fun a => (a.sourceId, a.sourceRowKey)).Perm
    (m.sources.map fun s => (s.source.sourceId, some s.rowKey))

/-- The merged record of a key is among those merged. -/
theorem mem_mergeSourceRecords {records : List NormalizedSourceRecord} {k : Str}
    (hk : ∃ r ∈ records, r.iinStart = k) : mergedOf records k ∈ mergeSourceRecords records := by
  obtain ⟨keys, -, hkeys, heq⟩ := mergeSourceRecords_eq_map records
  rw [heq]
  exact List.mem_map_of_mem ((hkeys k).mpr hk)

/-- **In the dataset of the records, every 6- or 8-digit key is found with its merged values.** -/
theorem lookup_key {db : Database} {records : List NormalizedSourceRecord} {storeRawPayload : Bool}
    {importedAt : Int} (h : db.Represents (datasetOf records storeRawPayload importedAt))
    {k : Str} (hk : ∃ r ∈ records, r.iinStart = k) (hdigits : AsciiDigits k)
    (hlen : k.length = minPrefixLength ∨ k.length = extendedPrefixLength) (backend : Backend)
    (validateLuhn : Bool) :
    ∃ result, lookupWithSession backend db k validateLuhn = some result ∧
      ∃ m ∈ mergeSourceRecords records, m.record.iinStart = k ∧ Shows m result := by
  obtain ⟨row, hrow, rfl⟩ := exists_row h hk
  have hdec : isdecimal row.iinStart = true := by
    refine isdecimal_of_asciiDigits hdigits fun hnil => ?_
    rw [hnil] at hlen
    exact absurd hlen (by decide)
  obtain ⟨result, hresult, hfound, hdata, hsources⟩ := lookup_of_lookupRecord h
    (normalize_short hdec hlen validateLuhn).1 hrow
    (lookupRecord_of_iinStart (nodup_iinStart h) hrow hdec hlen validateLuhn) backend
  refine ⟨result, hresult, mergedOf records row.iinStart, mem_mergeSourceRecords hk,
    iinStart_mergedOf records _, hfound, ⟨_, hdata, rfl, fun f => ?_⟩, hsources⟩
  rw [field_binInfo (row_values h hrow).2, getattr_mergedOf_staged]

/-- **Import, then lookup.** A store-managed import either raises, and the committed tables are as
they were, or commits the dataset of the emitted records, whatever was committed before; then the
lookup of every emitted key of 6 or 8 digits finds the merged values of the key and exactly the
contributions to it. -/
theorem import_then_lookup (env : Environment) (adapters : List SourceAdapter)
    (storeRawPayload : Bool) (w : World) (backend : Backend) :
    Post (storeImportSources env adapters storeRawPayload w)
      (fun _ w' =>
        w'.committed.Represents (datasetOf (emitted adapters) storeRawPayload env.now) ∧
        ∀ r ∈ emitted adapters, AsciiDigits r.iinStart →
          r.iinStart.length = minPrefixLength ∨ r.iinStart.length = extendedPrefixLength →
          ∀ validateLuhn, ∃ result,
            lookupWithSession backend w'.committed r.iinStart validateLuhn = some result ∧
            ∃ m ∈ mergeSourceRecords (emitted adapters),
              m.record.iinStart = r.iinStart ∧ Shows m result)
      fun _ w' => w'.committed = w.committed :=
  (storeImportSources_post env adapters storeRawPayload w).mono
    (fun _ _ h => ⟨h, fun _ hr hdigits hlen validateLuhn =>
      lookup_key h ⟨_, hr, rfl⟩ hdigits hlen backend validateLuhn⟩)
    fun _ _ h => h

example : returns (storeImportSources Environment.quiet
    [⟨⟨primarySourceId, primarySourceId, [], none, none⟩,
      [{ source := ⟨primarySourceId, primarySourceId, [], none, none⟩, rowKey := ['2'],
         iinStart := "457173".toList, scheme := some "visa".toList }]⟩] true {})
    (fun counters w => decide (counters = ⟨1, 1, 1⟩ ∧
      ((lookupWithSession Backend.sequential w.committed "457173".toList false).bind
        (·.data)).bind (·.scheme) = some "visa".toList)) = true := by
  decide +kernel

end CardBinData
