import CardBinData.Attribution
import CardBinData.Catalog
import CardBinData.ImportStatements

/-!
# What the columns hold (`db/models.py`)

A `String(n)` column holds `n` characters and an `Integer` column 32 bits. SQLite does not look at
widths; PostgreSQL refuses what is wider, trailing spaces apart, and with it the import. Neither the
adapters nor the stage nor the merge look at them either.

`program_fits_iff`: the statements of an import, whatever they return and none failing, write no
value that is too wide for its column, and no `INSERT` without rows, exactly when the keys, the row
keys, the metadata first seen of each source and the values that prevail in the merge fit. A value
that is dropped may have any length, and so may metadata seen later; the bounds of a range fit when
its ends do.

`Program.All` goes on with every result that a statement may return, also with ids that no engine
gives, and behind an `INSERT` that the unique constraint would refuse. What is written does not
depend on ids beyond their being there.
-/

namespace CardBinData

open Library (Dict Program Transducer exists_of_mapM_eq_some perm_stableSort)

/-! ## The columns -/

/-- The column of a field in `bin_records` holds the value. -/
def FieldName.Fits : (f : FieldName) → f.Value → Prop
  | .iinEnd, v => v.length ≤ 8
  | .numberLength, v => -2 ^ 31 ≤ v ∧ v < 2 ^ 31
  | .luhn, _ => True
  | .scheme, v => v.length ≤ 64
  | .productBrand, v => v.length ≤ 128
  | .type, v => v.length ≤ 64
  | .category, v => v.length ≤ 128
  | .prepaid, _ => True
  | .countryAlpha2, v => v.length ≤ 2
  | .countryAlpha3, v => v.length ≤ 3
  | .countryName, v => v.length ≤ 255
  | .issuerName, v => v.length ≤ 255
  | .issuerPhone, v => v.length ≤ 128
  | .issuerUrl, v => v.length ≤ 512
  | .issuerCity, v => v.length ≤ 255

/-- The columns of `data_sources` hold the row. -/
structure DataSourceValues.Fits (row : DataSourceValues) : Prop where
  sourceId : row.sourceId.length ≤ 128
  displayName : row.displayName.length ≤ 255
  upstreamUrl : row.upstreamUrl.length ≤ 512
  license : ∀ s ∈ row.license, s.length ≤ 128
  localPath : ∀ s ∈ row.localPath, s.length ≤ 1024

/-- The columns of `bin_records` hold the row. -/
structure BinRecordValues.Fits (row : BinRecordValues) : Prop where
  iinStart : row.iinStart.length ≤ 8
  iinEnd : ∀ s ∈ row.iinEnd, s.length ≤ 8
  rangeStart8 : ∀ s ∈ row.rangeStart8, s.length ≤ 8
  rangeEnd8 : ∀ s ∈ row.rangeEnd8, s.length ≤ 8
  numberLength : ∀ n ∈ row.numberLength, -2 ^ 31 ≤ n ∧ n < 2 ^ 31
  scheme : ∀ s ∈ row.scheme, s.length ≤ 64
  productBrand : ∀ s ∈ row.productBrand, s.length ≤ 128
  type : ∀ s ∈ row.type, s.length ≤ 64
  category : ∀ s ∈ row.category, s.length ≤ 128
  countryAlpha2 : ∀ s ∈ row.countryAlpha2, s.length ≤ 2
  countryAlpha3 : ∀ s ∈ row.countryAlpha3, s.length ≤ 3
  countryName : ∀ s ∈ row.countryName, s.length ≤ 255
  issuerName : ∀ s ∈ row.issuerName, s.length ≤ 255
  issuerPhone : ∀ s ∈ row.issuerPhone, s.length ≤ 128
  issuerUrl : ∀ s ∈ row.issuerUrl, s.length ≤ 512
  issuerCity : ∀ s ∈ row.issuerCity, s.length ≤ 255

/-- The columns of `bin_record_sources` hold the row. -/
def BinRecordSourceValues.Fits (row : BinRecordSourceValues) : Prop :=
  row.sourceRowKey.length ≤ 255

/-- A padded bound is as long as the end it pads, or 8. -/
theorem length_rangeBoundaries8_le {record : NormalizedSourceRecord}
    (hkey : record.iinStart.length ≤ 8) (hend : ∀ e ∈ record.iinEnd, e.length ≤ 8) :
    (∀ s ∈ (rangeBoundaries8 record).1, s.length ≤ 8) ∧
      ∀ s ∈ (rangeBoundaries8 record).2, s.length ≤ 8 := by
  unfold rangeBoundaries8
  cases hrange : record.iinEnd with
  | none => exact ⟨by simp, by simp⟩
  | some e =>
    have he : e.length ≤ 8 := hend e hrange
    constructor
    · rintro _ ⟨⟩
      rw [length_ljust]
      exact max_le hkey le_rfl
    · rintro _ ⟨⟩
      rw [length_ljust]
      exact max_le he le_rfl

/-- A record's row fits when its key and its fields do. -/
theorem binRecordValues_fits_iff (record : NormalizedSourceRecord) :
    (binRecordValues record).Fits ↔
      record.iinStart.length ≤ 8 ∧ ∀ f v, record.getattr f = some v → f.Fits v := by
  constructor
  · intro h
    refine ⟨h.iinStart, fun f v hv => ?_⟩
    cases f with
    | iinEnd => exact h.iinEnd v hv
    | numberLength => exact h.numberLength v hv
    | luhn => trivial
    | scheme => exact h.scheme v hv
    | productBrand => exact h.productBrand v hv
    | type => exact h.type v hv
    | category => exact h.category v hv
    | prepaid => trivial
    | countryAlpha2 => exact h.countryAlpha2 v hv
    | countryAlpha3 => exact h.countryAlpha3 v hv
    | countryName => exact h.countryName v hv
    | issuerName => exact h.issuerName v hv
    | issuerPhone => exact h.issuerPhone v hv
    | issuerUrl => exact h.issuerUrl v hv
    | issuerCity => exact h.issuerCity v hv
  · rintro ⟨hkey, h⟩
    have hend : ∀ e ∈ record.iinEnd, e.length ≤ 8 := h .iinEnd
    have hbounds := length_rangeBoundaries8_le hkey hend
    exact {
      iinStart := hkey, iinEnd := hend, rangeStart8 := hbounds.1, rangeEnd8 := hbounds.2
      numberLength := h .numberLength, scheme := h .scheme, productBrand := h .productBrand
      type := h .type, category := h .category, countryAlpha2 := h .countryAlpha2
      countryAlpha3 := h .countryAlpha3, countryName := h .countryName
      issuerName := h .issuerName, issuerPhone := h .issuerPhone, issuerUrl := h .issuerUrl
      issuerCity := h .issuerCity }

/-! ## The records of an import -/

/-- The merge gives the key this value for the field. -/
def Prevails (records : List NormalizedSourceRecord) (k : Str) (f : FieldName) (v : f.Value) :
    Prop :=
  FirstSupplied f (exactGroup records k) v ∨
    ((¬ ∃ u, FirstSupplied f (exactGroup records k) u) ∧ Inherits records k f ∧
      FirstSupplied f (exactGroup records (k.take sixDigitPrefixLength)) v)

/-- The columns hold what an import of the records writes. -/
structure FitsColumns (records : List NormalizedSourceRecord) : Prop where
  keys : ∀ r ∈ records, r.iinStart.length ≤ 8
  rowKeys : ∀ r ∈ records, r.rowKey.length ≤ 255
  metadata : ∀ sourceId, ∀ first ∈ records.find? fun r => decide (r.source.sourceId = sourceId),
    (dataSourceValues first.source).Fits
  values : ∀ r ∈ records, ∀ f v, Prevails records r.iinStart f v → f.Fits v

/-- The columns hold the row of a merged record and those of its sources. -/
structure MergedSourceRecord.Fits (m : MergedSourceRecord) : Prop where
  record : (binRecordValues m.record).Fits
  sources : ∀ s ∈ m.sources, s.rowKey.length ≤ 255

section Records

variable {records : List NormalizedSourceRecord}

theorem fits_firstSeen_iff :
    (∀ e ∈ (firstSeen records).items, (dataSourceValues e.2).Fits) ↔
      ∀ sourceId, ∀ first ∈ records.find? fun r => decide (r.source.sourceId = sourceId),
        (dataSourceValues first.source).Fits := by
  constructor
  · intro h sourceId first hfirst
    refine h (sourceId, first.source) (Dict.mem_items_iff.mpr ?_)
    rw [get?_firstSeen, hfirst, Option.map_some]
  · rintro h ⟨sourceId, metadata⟩ he
    have hget := Dict.mem_items_iff.mp he
    rw [get?_firstSeen, Option.map_eq_some_iff] at hget
    obtain ⟨first, hfirst, rfl⟩ := hget
    exact h sourceId first hfirst

/-- The row of a key is that of its merged values. -/
theorem fits_mergedOf_iff {k : Str} :
    (binRecordValues (mergedOf (stagedRecords records) k).record).Fits ↔
      k.length ≤ 8 ∧ ∀ f v, Prevails records k f v → f.Fits v := by
  rw [binRecordValues_fits_iff, iinStart_mergedOf]
  simp only [getattr_mergedOf_staged, getattr_mergedOf_iff, Prevails]

/-- **What the records of an import say of its rows.** -/
theorem fitsColumns_iff :
    FitsColumns records ↔ (∀ e ∈ (firstSeen records).items, (dataSourceValues e.2).Fits) ∧
      ∀ m ∈ mergedRecords records, m.Fits := by
  obtain ⟨keys, -, hkeys, heq⟩ := mergedRecords_eq_map records
  rw [fits_firstSeen_iff, heq, List.forall_mem_map]
  constructor
  · intro h
    refine ⟨h.metadata, fun k hk => ?_⟩
    obtain ⟨r, hr, rfl⟩ := (hkeys k).mp hk
    refine ⟨fits_mergedOf_iff.mpr ⟨h.keys r hr, h.values r hr⟩, fun s hs => ?_⟩
    obtain ⟨r', hr', rfl⟩ := List.mem_map.mp (mem_of_mem_sources hs)
    exact h.rowKeys r' hr'
  · rintro ⟨hmetadata, hmerged⟩
    have hrow : ∀ r ∈ records, (mergedOf (stagedRecords records) r.iinStart).Fits :=
      fun r hr => hmerged _ ((hkeys r.iinStart).mpr ⟨r, hr, rfl⟩)
    refine ⟨fun r hr => (fits_mergedOf_iff.mp (hrow r hr).record).1, fun r hr => ?_, hmetadata,
      fun r hr => (fits_mergedOf_iff.mp (hrow r hr).record).2⟩
    -- its own row is a source of its key
    have hown : restored (firstSeen records) r ∈
        exactGroup (stagedRecords records) r.iinStart :=
      mem_exactGroup.mpr ⟨List.mem_map_of_mem hr, rfl⟩
    exact (hrow r hr).sources (restored (firstSeen records) r)
      (by rw [sources_mergedOf]; exact List.mem_append_left _ hown)

end Records

namespace ReadCommitted

/-! ## The statements of an import -/

/-- Rows to insert: at least one, and all of them fit. -/
def Rows.Fits : Rows → Prop
  | .dataSources rows => rows ≠ [] ∧ ∀ row ∈ rows, row.Fits
  | .binRecords rows => rows ≠ [] ∧ ∀ row ∈ rows, row.Fits
  | .binRecordSources rows => rows ≠ [] ∧ ∀ row ∈ rows, row.Fits

/-- The statement writes nothing that is too wide for its column. -/
def Sql.Fits : Sql → Prop
  | .delete _ => True
  | .insert rows => rows.Fits

section Sources

variable {next : SqlProgram} {rows : List BinRecordSourceValues}

theorem fits_insertRecordSourcesIfAny_iff :
    (insertRecordSourcesIfAny rows next).All Sql.Fits ↔
      (∀ row ∈ rows, row.Fits) ∧ next.All Sql.Fits := by
  unfold insertRecordSourcesIfAny
  split
  · rename_i hempty
    rw [List.isEmpty_iff.mp hempty]
    simp
  · rename_i hrows
    have hne : rows ≠ [] := fun h => hrows (List.isEmpty_iff.mpr h)
    exact ⟨fun h => ⟨h.1.2, h.2 []⟩, fun h => ⟨⟨hne, h.1⟩, fun _ => h.2⟩⟩

theorem fits_insertRecordSourceBatch_iff :
    (insertRecordSourceBatch rows next).All Sql.Fits ↔
      (∀ row ∈ rows, row.Fits) ∧ next.All Sql.Fits := by
  unfold insertRecordSourceBatch
  rw [fits_insertRecordSourcesIfAny_iff, fits_insertRecordSourcesIfAny_iff, ← and_assoc]
  refine and_congr_left fun _ => ?_
  simp only [List.mem_filter, Bool.not_eq_true', and_imp]
  constructor
  · rintro ⟨hmapping, hjson⟩ row hrow
    cases hkind : row.isJsonText with
    | true => exact hjson row hrow hkind
    | false => exact hmapping row hrow hkind
  · exact fun h => ⟨fun row hrow _ => h row hrow, fun row hrow _ => h row hrow⟩

/-- The batches of the provenance rows write each of them. -/
theorem fits_insertRecordSourceRows_iff (insertBatchSize : Nat) :
    (insertRecordSourceRows insertBatchSize rows next).All Sql.Fits ↔
      (∀ row ∈ rows, row.Fits) ∧ next.All Sql.Fits := by
  have hflat : ((Transducer.batches _ insertBatchSize).run [] rows).flatten = rows :=
    Transducer.flatten_run_batches insertBatchSize [] rows
  have hrows : (∀ row ∈ rows, row.Fits) ↔
      ∀ batch ∈ (Transducer.batches _ insertBatchSize).run [] rows, ∀ row ∈ batch, row.Fits := by
    rw [← List.forall_mem_flatten, hflat]
  rw [hrows]
  constructor
  · exact Program.of_all_foldr fun _ _ _ => fits_insertRecordSourceBatch_iff.mp
  · exact fun h => Program.all_foldr_mem
      (fun batch hbatch _ hnext => fits_insertRecordSourceBatch_iff.mpr ⟨h.1 batch hbatch, hnext⟩)
      h.2

end Sources

section Batches

variable {next : SqlProgram} {dataSourceIds binRecordIds : Dict Str Nat}
  {batch records : List MergedSourceRecord} {importedAt : Int} {storeRawPayload : Bool}

/-- A provenance row has the row key of a source, whatever the ids. -/
theorem exists_of_mem_recordSourceRows {rows : List BinRecordSourceValues}
    (h : recordSourceRows records binRecordIds dataSourceIds importedAt storeRawPayload =
      some rows) :
    ∀ row ∈ rows, ∃ m ∈ records, ∃ s ∈ m.sources, row.sourceRowKey = s.rowKey := by
  unfold recordSourceRows at h
  obtain ⟨rowsOf, hrowsOf, rfl⟩ := Option.map_eq_some_iff.mp h
  intro row hrow
  obtain ⟨l, hl, hrow⟩ := List.mem_flatten.mp hrow
  obtain ⟨m, hm, hml⟩ := exists_of_mapM_eq_some hrowsOf l hl
  obtain ⟨s, hs, hvalue⟩ := exists_of_mapM_eq_some hml row hrow
  simp only [Option.bind_eq_bind, Option.bind_eq_some_iff, Option.pure_def] at hvalue
  obtain ⟨_, -, _, -, hvalue⟩ := hvalue
  exact ⟨m, hm, s, hs, by rw [← Option.some.inj hvalue]; rfl⟩

/-- Whatever an `INSERT` returns, the statements of a batch that fits do. -/
theorem fits_insertMergedRecordBatch {self : Import} (hne : batch ≠ []) (h : ∀ m ∈ batch, m.Fits)
    (hnext : next.All Sql.Fits) :
    (self.insertMergedRecordBatch dataSourceIds batch next).All Sql.Fits := by
  refine ⟨⟨by simpa using hne, List.forall_mem_map.mpr fun m hm => (h m hm).record⟩,
    fun returned => ?_⟩
  beta_reduce
  split
  · trivial
  · rename_i rows hrows
    refine (fits_insertRecordSourceRows_iff _).mpr ⟨fun row hrow => ?_, hnext⟩
    obtain ⟨m, hm, s, hs, hkey⟩ := exists_of_mem_recordSourceRows hrows row hrow
    unfold BinRecordSourceValues.Fits
    rw [hkey]
    exact (h m hm).sources s hs

/-- Where the ids are found, the statements write the row of every record and of every source. -/
theorem fits_of_insertMergedRecordBatch {self : Import}
    (hnd : (batch.map (·.record.iinStart)).Nodup) (hknown : SourcesKnown dataSourceIds batch)
    (h : (self.insertMergedRecordBatch dataSourceIds batch next).All Sql.Fits) :
    (∀ m ∈ batch, m.Fits) ∧ next.All Sql.Fits := by
  obtain ⟨hbatch, hrest⟩ := h
  -- an engine that gives every record the id 0
  let returned := batch.map fun m => (m.record.iinStart, 0)
  let new := batch.map fun m => BinRecordModel.mk (binRecordValues m.record) 0
  have hids : List.Forall₂
      (fun m r => (Dict.ofPairs returned).get? m.record.iinStart = some r.id) batch new := by
    refine List.forall₂_map_right_iff.mpr (List.forall₂_same.mpr fun m hm => ?_)
    refine (Dict.get?_ofPairs ?_).mpr (List.mem_map.mpr ⟨m, hm, rfl⟩)
    rw [List.map_map]
    exact hnd
  have hsources := hrest returned
  simp only [recordSourceRows_eq_some hids hknown] at hsources
  obtain ⟨hrows, hnext⟩ := (fits_insertRecordSourceRows_iff _).mp hsources
  have hzip : batch.zip new =
      batch.map fun m => (m, BinRecordModel.mk (binRecordValues m.record) 0) :=
    calc batch.zip new = (batch.map id).zip new := by rw [List.map_id]
      _ = _ := List.zip_map'
  refine ⟨fun m hm => ⟨hbatch.2 _ (List.mem_map_of_mem hm), fun s hs => ?_⟩, hnext⟩
  have hpair : (m, BinRecordModel.mk (binRecordValues m.record) 0) ∈ batch.zip new :=
    hzip ▸ List.mem_map_of_mem hm
  exact hrows _ (List.mem_flatMap.mpr ⟨_, hpair, List.mem_map_of_mem hs⟩)

theorem fits_insertStreamedRecords {self : Import} (h : ∀ m ∈ records, m.Fits)
    (hnext : next.All Sql.Fits) :
    (self.insertStreamedRecords records dataSourceIds next).All Sql.Fits := by
  have hflat : ((Transducer.batches _ self.insertBatchSize).run [] records).flatten = records :=
    Transducer.flatten_run_batches self.insertBatchSize [] records
  refine Program.all_foldr_mem (fun batch hbatch next hnext => ?_) hnext
  refine fits_insertMergedRecordBatch (Transducer.ne_nil_of_mem_run_batches hbatch)
    (fun m hm => h m ?_) hnext
  rw [← hflat]
  exact List.mem_flatten.mpr ⟨batch, hbatch, hm⟩

theorem fits_of_insertStreamedRecords {self : Import}
    (hnd : (records.map (·.record.iinStart)).Nodup) (hknown : SourcesKnown dataSourceIds records)
    (h : (self.insertStreamedRecords records dataSourceIds next).All Sql.Fits) :
    ∀ m ∈ records, m.Fits := by
  have hflat : ((Transducer.batches _ self.insertBatchSize).run [] records).flatten = records :=
    Transducer.flatten_run_batches self.insertBatchSize [] records
  have hbatches : ∀ batch ∈ (Transducer.batches _ self.insertBatchSize).run [] records,
      batch.Sublist records :=
    fun batch hbatch => hflat ▸ List.sublist_flatten_of_mem hbatch
  have hall := Program.of_all_foldr (Q := fun batch => ∀ m ∈ batch, MergedSourceRecord.Fits m)
    (fun batch hbatch _ => fits_of_insertMergedRecordBatch
      (hnd.sublist ((hbatches batch hbatch).map _))
      fun m hm => hknown m ((hbatches batch hbatch).subset hm)) h
  rw [← hflat]
  exact List.forall_mem_flatten.mpr hall.1

end Batches

/-- Behind the deletes every row of the records is written, where the ids are found. -/
theorem fits_load_iff (self : Import) :
    self.load.All Sql.Fits ↔ FitsColumns (emitted self.adapters) := by
  let records := emitted self.adapters
  have hcommit : (Program.commit : SqlProgram).All Sql.Fits := trivial
  have hrows : (∀ row ∈ dataSourceRows (firstSeen records), row.Fits) ↔
      ∀ e ∈ (firstSeen records).items, (dataSourceValues e.2).Fits := by
    rw [List.forall_mem_map]
    exact forall_congr' fun e => by rw [(perm_stableSort Prod.fst _).mem_iff]
  rw [fitsColumns_iff, ← hrows]
  unfold Import.load insertDataSourceMetadata
  split
  · rename_i hempty
    have hnone : ∀ m ∈ mergedRecords records, ∀ s ∈ m.sources, False := fun m hm s hs => by
      obtain ⟨e, he, -⟩ := exists_metadata m hm s hs
      rw [List.isEmpty_iff.mp hempty] at he
      exact List.not_mem_nil he
    refine ⟨fun h => ⟨?_, fits_of_insertStreamedRecords (nodup_mergedRecords records)
      (fun m hm s hs => (hnone m hm s hs).elim) h⟩, fun h => fits_insertStreamedRecords h.2 hcommit⟩
    rw [hrows, List.isEmpty_iff.mp hempty]
    simp
  · rename_i hitems
    have hne : dataSourceRows (firstSeen records) ≠ [] := fun h => by
      have hperm := perm_stableSort Prod.fst (firstSeen records).items
      rw [List.map_eq_nil_iff.mp h] at hperm
      exact hitems (List.isEmpty_iff.mpr hperm.nil_eq.symm)
    refine ⟨fun h => ⟨h.1.2, ?_⟩, fun h => ⟨⟨hne, h.1⟩, fun _ =>
      fits_insertStreamedRecords h.2 hcommit⟩⟩
    -- an engine that gives every source the id 0
    refine fits_of_insertStreamedRecords (nodup_mergedRecords records) (fun m hm s hs => ?_)
      (h.2 ((dataSourceRows (firstSeen records)).map fun row => (row.sourceId, 0)))
    obtain ⟨e, he, hid⟩ := exists_metadata m hm s hs
    refine ⟨0, (Dict.get?_ofPairs ?_).mpr (List.mem_map.mpr ⟨dataSourceValues e.2, ?_, ?_⟩)⟩
    · rw [List.map_map]
      exact nodup_sourceId_rows (sourceId_of_mem_firstSeen records)
    · exact List.mem_map_of_mem ((perm_stableSort Prod.fst _).mem_iff.mpr he)
    · rw [← hid]
      rfl

/-- **What an import can write.** Its statements, whatever they return and none failing, fit the
columns exactly when it ends before the first of them, or the keys, the row keys, the metadata first
seen and the values that prevail do; how the rows are batched plays no part. -/
theorem program_fits_iff (self : Import) :
    self.program.All Sql.Fits ↔
      ((∀ r ∈ emitted self.adapters, Bindable r) → FitsColumns (emitted self.adapters)) := by
  unfold Import.program
  split
  · rename_i hbindable
    rw [← fits_load_iff]
    exact ⟨fun h _ => (((h.2 []).2 []).2 []),
      fun h => ⟨trivial, fun _ => ⟨trivial, fun _ => ⟨trivial, fun _ => h hbindable⟩⟩⟩⟩
  · rename_i hbindable
    exact ⟨fun _ h => absurd h hbindable, fun _ => trivial⟩

end ReadCommitted

end CardBinData
