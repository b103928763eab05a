import CardBinData.Coverage
import CardBinData.Library.Simulation
import CardBinData.TableInvariant
import Mathlib.Data.List.MinMax

/-!
# The store as a catalog

What a store is for, without its tables: a `Catalog` is the records of the last completed import,
with its time. A lookup merges them in memory, with `merge_source_records`, and takes the three
documented steps on the result (`Catalog.lookup`).

* `chooses_select`: which key the three steps select, read off the records.
* `lookup_among`: a lookup on tables whose rows hold some merged records answers what the three
  steps answer among these.
* `lookup_represents`: on the tables of an import, every lookup answers what the catalog answers,
  whatever the input, the engine and the payload flag.
-/

namespace CardBinData

open Library

/-! ## The catalog -/

/-- The records of the last completed import, and its time. -/
structure Catalog where
  records : List NormalizedSourceRecord := []
  importedAt : Int := 0

/-- What a record shows. -/
def recordInfo (record : NormalizedSourceRecord) : BinInfo where
  iinStart := record.iinStart
  iinEnd := record.iinEnd
  numberLength := record.numberLength
  luhn := record.luhn
  scheme := record.scheme
  productBrand := record.productBrand
  type := record.type
  category := record.category
  prepaid := record.prepaid
  countryAlpha2 := record.countryAlpha2
  countryAlpha3 := record.countryAlpha3
  countryName := record.countryName
  issuerName := record.issuerName
  issuerPhone := record.issuerPhone
  issuerUrl := record.issuerUrl
  issuerCity := record.issuerCity

theorem field_recordInfo (record : NormalizedSourceRecord) (f : FieldName) :
    (recordInfo record).field f = record.getattr f := by
  cases f <;> rfl

/-- The record of a key. -/
def exactRecord (merged : List MergedSourceRecord) (c : Str) : Option MergedSourceRecord :=
  merged.find? fun m => decide (m.record.iinStart = c)

/-- The record has a range, and it contains `c`. -/
def spansRecord (c : Str) (m : MergedSourceRecord) : Bool :=
  m.record.iinEnd.any fun e => decide (Spans m.record.iinStart e c)

/-- How specific the range of a key is: the length of the key, as SQL measures it, then the key. -/
def keySpecificity (k : Str) : ℕ ×ₗ Str := toLex (sqlLength k, k)

/-- The most specific range that contains `c`. -/
def rangeRecord (merged : List MergedSourceRecord) (c : Str) : Option MergedSourceRecord :=
  (merged.filter (spansRecord c)).argmax fun m => keySpecificity m.record.iinStart

/-- The three steps. -/
def selectAmong (merged : List MergedSourceRecord) (query : LookupQuery) :
    Option MergedSourceRecord :=
  let c8 := candidateOfLength eightDigitPrefixLength query
  let c6 := candidateOfLength sixDigitPrefixLength query
  ((c8.bind (exactRecord merged)).or (c8.bind (rangeRecord merged))).or
    (c6.bind (exactRecord merged))

namespace Catalog

variable (self : Catalog)

/-- A contribution, with the metadata first seen for its source. -/
def attribution (source : NormalizedSourceRecord) : SourceAttribution :=
  let metadata := ((firstSeen self.records).get? source.source.sourceId).getD source.source
  { sourceId := source.source.sourceId
    upstreamUrl := metadata.upstreamUrl
    license := metadata.license
    importedAt := some self.importedAt
    sourceRowKey := some source.rowKey }

/-- A lookup among merged records. -/
def lookupAmong (merged : List MergedSourceRecord) (value : Str) (validateLuhn : Bool) :
    LookupResult :=
  let normalized := normalizeLookupInput value validateLuhn
  if normalized.status = .invalid then normalized
  else
    match selectAmong merged normalized.query with
    | none =>
      { status := .notFound
        query := normalized.query
        validationWarnings := normalized.validationWarnings }
    | some m =>
      { status := .found
        query := normalized.query
        data := some (recordInfo m.record)
        validationWarnings := normalized.validationWarnings
        sources := m.sources.map self.attribution }

/-- A lookup in memory. -/
def lookup (value : Str) (validateLuhn : Bool) : LookupResult :=
  self.lookupAmong (mergeSourceRecords self.records) value validateLuhn

end Catalog

/-- The same answer, with `related` sources. -/
structure LookupResult.Like (related : List SourceAttribution → List SourceAttribution → Prop)
    (a b : LookupResult) : Prop where
  status : a.status = b.status
  query : a.query = b.query
  data : a.data = b.data
  validationWarnings : a.validationWarnings = b.validationWarnings
  sources : related a.sources b.sources

theorem data_normalizeLookupInput (value : Str) (validateLuhn : Bool) :
    (normalizeLookupInput value validateLuhn).data = none := by
  unfold normalizeLookupInput
  simp only
  repeat' split
  all_goals rfl

theorem sources_normalizeLookupInput (value : Str) (validateLuhn : Bool) :
    (normalizeLookupInput value validateLuhn).sources = [] := by
  unfold normalizeLookupInput
  simp only
  repeat' split
  all_goals rfl

/-! ## The key selected -/

section Keys

variable {records : List NormalizedSourceRecord}

/-- A record has the key. -/
def HasKey (records : List NormalizedSourceRecord) (k : Str) : Prop := ∃ r ∈ records, r.iinStart = k

/-- The range kept for `k` contains `c`. -/
def RangeKey (records : List NormalizedSourceRecord) (c k : Str) : Prop :=
  ∃ e, keptEnd records k = some e ∧ Spans k e c

/-- Neither the 8-digit candidate nor a range around it is among the keys. -/
def NoEightDigitKey (records : List NormalizedSourceRecord) (query : LookupQuery) : Prop :=
  ∀ c ∈ candidateOfLength eightDigitPrefixLength query,
    ¬ HasKey records c ∧ ∀ k, ¬ RangeKey records c k

/-- The key whose record the three steps select, if any. -/
inductive Chooses (records : List NormalizedSourceRecord) (query : LookupQuery) :
    Option Str → Prop
  | exact8 {c : Str} (hc : candidateOfLength eightDigitPrefixLength query = some c)
      (hk : HasKey records c) : Chooses records query (some c)
  | range {c k : Str} (hc : candidateOfLength eightDigitPrefixLength query = some c)
      (hno : ¬ HasKey records c) (hin : RangeKey records c k)
      (hbest : ∀ k', RangeKey records c k' → keySpecificity k' ≤ keySpecificity k) :
      Chooses records query (some k)
  | exact6 {c : Str} (hno : NoEightDigitKey records query)
      (hc : candidateOfLength sixDigitPrefixLength query = some c) (hk : HasKey records c) :
      Chooses records query (some c)
  | notFound (hno : NoEightDigitKey records query)
      (hno6 : ∀ c ∈ candidateOfLength sixDigitPrefixLength query, ¬ HasKey records c) :
      Chooses records query none

theorem exactRecord_of_hasKey {c : Str} (hc : HasKey records c) :
    exactRecord (mergeSourceRecords records) c = some (mergedOf records c) := by
  obtain ⟨keys, -, hkeys, heq⟩ := mergeSourceRecords_eq_map records
  have hsome : (exactRecord (mergeSourceRecords records) c).isSome := by
    refine List.find?_isSome.mpr ⟨mergedOf records c, mem_mergeSourceRecords hc, ?_⟩
    exact decide_eq_true (iinStart_mergedOf records c)
  obtain ⟨m, hm⟩ := Option.isSome_iff_exists.mp hsome
  have hmem := List.mem_of_find?_eq_some hm
  rw [heq] at hmem
  obtain ⟨k, -, rfl⟩ := List.mem_map.mp hmem
  have hfound := List.find?_some hm
  have hk : k = c := of_decide_eq_true hfound
  rw [hm, hk]

theorem exactRecord_eq_none {c : Str} (hc : ¬ HasKey records c) :
    exactRecord (mergeSourceRecords records) c = none := by
  obtain ⟨keys, -, hkeys, heq⟩ := mergeSourceRecords_eq_map records
  refine List.find?_eq_none.mpr fun m hm => ?_
  rw [heq] at hm
  obtain ⟨k, hk, rfl⟩ := List.mem_map.mp hm
  rw [iinStart_mergedOf, decide_eq_true_eq]
  exact fun hkc => hc (hkc ▸ (hkeys k).mp hk)

theorem spansRecord_mergedOf {c k : Str} :
    spansRecord c (mergedOf records k) = true ↔ RangeKey records c k := by
  rw [spansRecord, Option.any_eq_true, iinEnd_mergedOf]
  exact exists_congr fun e => and_congr_right fun _ => decide_eq_true_iff

/-- A kept range belongs to a key. -/
theorem RangeKey.hasKey {c k : Str} (h : RangeKey records c k) : HasKey records k := by
  obtain ⟨e, he, -⟩ := h
  obtain ⟨r, hr, hend⟩ := List.exists_of_findSome?_eq_some he
  split at hend
  · rename_i hk
    exact ⟨r, hr, hk.1⟩
  · exact absurd hend (by simp)

/-- The answer of the range step, by key. -/
theorem rangeRecord_mergeSourceRecords (records : List NormalizedSourceRecord) (c : Str) :
    (∃ k, rangeRecord (mergeSourceRecords records) c = some (mergedOf records k) ∧
      RangeKey records c k ∧ ∀ k', RangeKey records c k' → keySpecificity k' ≤ keySpecificity k) ∨
    rangeRecord (mergeSourceRecords records) c = none ∧ ∀ k, ¬ RangeKey records c k := by
  obtain ⟨keys, -, hkeys, heq⟩ := mergeSourceRecords_eq_map records
  have hmem : ∀ k, RangeKey records c k →
      mergedOf records k ∈ (mergeSourceRecords records).filter (spansRecord c) := fun k hk =>
    List.mem_filter.mpr ⟨mem_mergeSourceRecords hk.hasKey, spansRecord_mergedOf.mpr hk⟩
  cases hrange : rangeRecord (mergeSourceRecords records) c with
  | some m =>
    obtain ⟨hm, hspans⟩ := List.mem_filter.mp (List.argmax_mem hrange)
    rw [heq] at hm
    obtain ⟨k, -, rfl⟩ := List.mem_map.mp hm
    refine .inl ⟨k, rfl, spansRecord_mergedOf.mp hspans, fun k' hk' => ?_⟩
    have hle := List.le_of_mem_argmax (hmem k' hk') hrange
    exact hle
  | none =>
    refine .inr ⟨rfl, fun k hk => ?_⟩
    have hnil := hmem k hk
    rw [List.argmax_eq_none.mp hrange] at hnil
    exact absurd hnil List.not_mem_nil

/-- **The catalog selects the record of the key chosen.** -/
theorem chooses_select (records : List NormalizedSourceRecord) (query : LookupQuery) :
    ∃ k, Chooses records query k ∧
      selectAmong (mergeSourceRecords records) query = k.map (mergedOf records) := by
  -- the last step, where the first two find nothing
  have hlast : NoEightDigitKey records query →
      ∃ k, Chooses records query k ∧ (candidateOfLength sixDigitPrefixLength query).bind
        (exactRecord (mergeSourceRecords records)) = k.map (mergedOf records) := by
    intro hno
    cases h6 : candidateOfLength sixDigitPrefixLength query with
    | none => exact ⟨none, .notFound hno fun c hc => absurd (h6.symm.trans hc) (by simp), rfl⟩
    | some c =>
      by_cases hk : HasKey records c
      · exact ⟨some c, .exact6 hno h6 hk, exactRecord_of_hasKey hk⟩
      · refine ⟨none, .notFound hno fun c' hc' => ?_, exactRecord_eq_none hk⟩
        rwa [← Option.some.inj (h6.symm.trans hc')]
  unfold selectAmong
  simp only
  cases h8 : candidateOfLength eightDigitPrefixLength query with
  | none => exact hlast fun c hc => absurd (h8.symm.trans hc) (by simp)
  | some c =>
    rw [Option.bind_some, Option.bind_some]
    by_cases hk : HasKey records c
    · rw [exactRecord_of_hasKey hk]
      exact ⟨some c, .exact8 h8 hk, rfl⟩
    rw [exactRecord_eq_none hk, Option.none_or]
    rcases rangeRecord_mergeSourceRecords records c with ⟨k, hrange, hin, hbest⟩ | ⟨hrange, hout⟩
    · rw [hrange]
      exact ⟨some k, .range h8 hk hin hbest, rfl⟩
    rw [hrange, Option.none_or]
    refine hlast fun c' hc' => ?_
    obtain rfl := Option.some.inj (h8.symm.trans hc')
    exact ⟨hk, hout⟩

/-- The catalog shows merged records. -/
theorem data_lookup {self : Catalog} {value : Str} {validateLuhn : Bool} {info : BinInfo}
    (h : info ∈ (self.lookup value validateLuhn).data) :
    info = recordInfo (mergedOf self.records info.iinStart).record := by
  unfold Catalog.lookup Catalog.lookupAmong at h
  simp only at h
  split at h
  · rw [data_normalizeLookupInput] at h
    exact absurd h (by simp)
  obtain ⟨k, -, hselect⟩ :=
    chooses_select self.records (normalizeLookupInput value validateLuhn).query
  rw [hselect] at h
  cases k with
  | none => exact absurd h (by simp)
  | some k =>
    obtain rfl := Option.some.inj h
    rfl

end Keys

/-! ## Rows that hold merged records -/

/-- The row has the values of the merged record. -/
structure Holds (rows : List BinRecordModel) (merged : List MergedSourceRecord)
    (row : BinRecordModel) (m : MergedSourceRecord) : Prop where
  mem_rows : row ∈ rows
  mem_merged : m ∈ merged
  values : row.toBinRecordValues = binRecordValues m.record

section Rows

variable {rows : List BinRecordModel} {merged : List MergedSourceRecord}

theorem Holds.iinStart {row : BinRecordModel} {m : MergedSourceRecord}
    (h : Holds rows merged row m) : row.iinStart = m.record.iinStart :=
  congrArg BinRecordValues.iinStart h.values

/-- The stored bounds of a row are the range of its record. -/
theorem Holds.inRange {row : BinRecordModel} {m : MergedSourceRecord}
    (h : Holds rows merged row m) {c : Str} : InRange row c ↔ spansRecord c m = true := by
  have hstart8 : row.rangeStart8 = _ := congrArg BinRecordValues.rangeStart8 h.values
  have hend8 : row.rangeEnd8 = _ := congrArg BinRecordValues.rangeEnd8 h.values
  unfold InRange spansRecord
  rw [hstart8, hend8]
  unfold binRecordValues rangeBoundaries8
  cases m.record.iinEnd with
  | none => simp
  | some e =>
    rw [Option.any_some, decide_eq_true_iff]
    simp [Spans]

/-- A row shows its record. -/
theorem Holds.binInfo {row : BinRecordModel} {m : MergedSourceRecord}
    (h : Holds rows merged row m) : binInfo row = recordInfo m.record := by
  simp only [CardBinData.binInfo, h.values]
  rfl

variable (hrows : rows.map (·.toBinRecordValues) = merged.map fun m => binRecordValues m.record)
include hrows

theorem exists_holds_of_row {row : BinRecordModel} (hrow : row ∈ rows) :
    ∃ m, Holds rows merged row m := by
  have hmem := List.mem_map_of_mem (f := fun r : BinRecordModel => r.toBinRecordValues) hrow
  rw [hrows] at hmem
  obtain ⟨m, hm, hvalues⟩ := List.mem_map.mp hmem
  exact ⟨m, hrow, hm, hvalues.symm⟩

theorem exists_holds_of_merged {m : MergedSourceRecord} (hm : m ∈ merged) :
    ∃ row, Holds rows merged row m := by
  have hmem := List.mem_map_of_mem (f := fun m : MergedSourceRecord => binRecordValues m.record) hm
  rw [← hrows] at hmem
  obtain ⟨row, hrow, hvalues⟩ := List.mem_map.mp hmem
  exact ⟨row, hrow, hm, hvalues⟩

/-- The answer of an exact step. -/
theorem exactRecord_spec (c : Str) :
    (∃ row m, exactRecord merged c = some m ∧ Holds rows merged row m ∧ row.iinStart = c) ∨
    exactRecord merged c = none ∧ ∀ row ∈ rows, row.iinStart ≠ c := by
  cases hexact : exactRecord merged c with
  | some m =>
    obtain ⟨row, hm⟩ := exists_holds_of_merged hrows (List.mem_of_find?_eq_some hexact)
    have hfound := List.find?_some hexact
    have hk : m.record.iinStart = c := of_decide_eq_true hfound
    exact .inl ⟨row, m, rfl, hm, hm.iinStart.trans hk⟩
  | none =>
    refine .inr ⟨rfl, fun row hrow hk => ?_⟩
    obtain ⟨m, hm⟩ := exists_holds_of_row hrows hrow
    exact List.find?_eq_none.mp hexact m hm.mem_merged (decide_eq_true (hm.iinStart.symm.trans hk))

/-- The answer of the range step. -/
theorem rangeRecord_spec (c : Str) :
    (∃ row m, rangeRecord merged c = some m ∧ Holds rows merged row m ∧ InRange row c ∧
      ∀ r ∈ rows, InRange r c → AsSpecific row r) ∨
    rangeRecord merged c = none ∧ ∀ row ∈ rows, ¬ InRange row c := by
  cases hrange : rangeRecord merged c with
  | some m =>
    obtain ⟨hmem, hspans⟩ := List.mem_filter.mp (List.argmax_mem hrange)
    obtain ⟨row, hm⟩ := exists_holds_of_merged hrows hmem
    refine .inl ⟨row, m, rfl, hm, hm.inRange.mpr hspans, fun r hr hin => ?_⟩
    obtain ⟨m', hm'⟩ := exists_holds_of_row hrows hr
    have hle := List.le_of_mem_argmax
      (List.mem_filter.mpr ⟨hm'.mem_merged, hm'.inRange.mp hin⟩) hrange
    rwa [keySpecificity, keySpecificity, Prod.Lex.toLex_le_toLex, ← hm.iinStart,
      ← hm'.iinStart] at hle
  | none =>
    refine .inr ⟨rfl, fun row hrow hin => ?_⟩
    obtain ⟨m, hm⟩ := exists_holds_of_row hrows hrow
    exact List.filter_eq_nil_iff.mp (List.argmax_eq_none.mp hrange) m hm.mem_merged
      (hm.inRange.mp hin)

/-- The last step, where the first two find nothing. -/
theorem documented_exact6 {query : LookupQuery} (hno : NoEightDigitMatch rows query) :
    ∃ answer, DocumentedAnswer rows query answer ∧ Option.Rel (Holds rows merged) answer
      ((candidateOfLength sixDigitPrefixLength query).bind (exactRecord merged)) := by
  cases h6 : candidateOfLength sixDigitPrefixLength query with
  | none => exact ⟨none, .notFound hno fun c hc => absurd (h6.symm.trans hc) (by simp), .none⟩
  | some c =>
    rw [Option.bind_some]
    rcases exactRecord_spec hrows c with ⟨row, m, hexact, hm, hk⟩ | ⟨hexact, hne⟩
    · rw [hexact]
      exact ⟨some row, .exact6 hno h6 hm.mem_rows hk, .some hm⟩
    · rw [hexact]
      refine ⟨none, .notFound hno fun c' hc' => ?_, .none⟩
      obtain rfl := Option.some.inj (h6.symm.trans hc')
      exact hne

/-- **The three steps select the record of the documented answer.** -/
theorem documented_selectAmong (query : LookupQuery) :
    ∃ answer, DocumentedAnswer rows query answer ∧
      Option.Rel (Holds rows merged) answer (selectAmong merged query) := by
  unfold selectAmong
  simp only
  cases h8 : candidateOfLength eightDigitPrefixLength query with
  | none => exact documented_exact6 hrows fun c hc => absurd (h8.symm.trans hc) (by simp)
  | some c =>
    rw [Option.bind_some, Option.bind_some]
    rcases exactRecord_spec hrows c with ⟨row, m, hexact, hm, hk⟩ | ⟨hexact, hne⟩
    · rw [hexact]
      exact ⟨some row, .exact8 h8 hm.mem_rows hk, .some hm⟩
    rw [hexact, Option.none_or]
    rcases rangeRecord_spec hrows c with ⟨row, m, hrange, hm, hin, hbest⟩ | ⟨hrange, hout⟩
    · rw [hrange]
      exact ⟨some row, .range h8 hne hm.mem_rows hin hbest, .some hm⟩
    rw [hrange, Option.none_or]
    refine documented_exact6 hrows fun c' hc' row hrow => ?_
    obtain rfl := Option.some.inj (h8.symm.trans hc')
    exact ⟨hne row hrow, hout row hrow⟩

variable (hnd : (merged.map (·.record.iinStart)).Nodup)
include hnd

/-- **The ranked statement selects the row that holds the record selected.** -/
theorem lookupRecord_selectAmong (query : LookupQuery) :
    Option.Rel (Holds rows merged) (lookupRecord rows query) (selectAmong merged query) := by
  obtain ⟨answer, hdoc, hrel⟩ := documented_selectAmong hrows query
  rwa [(documented_lookupRecord rows query).unique (nodup_iinStart_of_values hrows hnd) hdoc]

end Rows

/-- **A lookup answers what the merged records answer that its rows hold**, with attributions as
`related` as those of each row are. -/
theorem lookup_among {related : List SourceAttribution → List SourceAttribution → Prop}
    {db : Database} {merged : List MergedSourceRecord} (self : Catalog) (backend : Backend)
    (hrows : db.binRecords.map (·.toBinRecordValues) = merged.map fun m => binRecordValues m.record)
    (hnd : (merged.map (·.record.iinStart)).Nodup) (hnil : related [] [])
    (hsources : ∀ row m, Holds db.binRecords merged row m →
      ∃ attributions, sourceAttributions backend db row = some attributions ∧
        related attributions (m.sources.map self.attribution)) (value : Str)
    (validateLuhn : Bool) :
    ∃ result, lookupWithSession backend db value validateLuhn = some result ∧
      result.Like related (self.lookupAmong merged value validateLuhn) := by
  have hsources₀ := sources_normalizeLookupInput value validateLuhn
  unfold lookupWithSession Catalog.lookupAmong
  simp only
  by_cases hstatus : (normalizeLookupInput value validateLuhn).status = .invalid
  · rw [if_pos hstatus, if_pos hstatus]
    exact ⟨_, rfl, rfl, rfl, rfl, rfl, by rwa [hsources₀]⟩
  rw [if_neg hstatus, if_neg hstatus]
  have hselect :=
    lookupRecord_selectAmong hrows hnd (normalizeLookupInput value validateLuhn).query
  generalize selectAmong merged (normalizeLookupInput value validateLuhn).query = selected
    at hselect ⊢
  generalize lookupRecord db.binRecords (normalizeLookupInput value validateLuhn).query = answer
    at hselect ⊢
  cases hselect with
  | none => exact ⟨_, rfl, rfl, rfl, rfl, rfl, hnil⟩
  | some hm =>
    obtain ⟨attributions, hattr, hrelated⟩ := hsources _ _ hm
    simp only [hattr]
    exact ⟨_, rfl, rfl, rfl, congrArg some hm.binInfo, rfl, hrelated⟩

/-! ## Attributions -/

section Represents

variable {db : Database} {self : Catalog} {storeRawPayload : Bool}
  (h : db.Represents (datasetOf self.records storeRawPayload self.importedAt))

/-- What the catalog shows of a contribution, given its source and its row. -/
def Catalog.shown (self : Catalog) (id : Str × Str) : Option SourceAttribution :=
  ((firstSeen self.records).get? id.1).map fun metadata =>
    { sourceId := id.1
      upstreamUrl := metadata.upstreamUrl
      license := metadata.license
      importedAt := some self.importedAt
      sourceRowKey := some id.2 }

/-- Contributions show their attributions. -/
theorem map_shown_rowId {sources : List NormalizedSourceRecord}
    (hsources : ∀ s ∈ sources, ∃ r ∈ self.records, r.source.sourceId = s.source.sourceId) :
    (sources.map rowId).map self.shown = (sources.map self.attribution).map some := by
  rw [List.map_map, List.map_map]
  refine List.map_congr_left fun s hs => ?_
  obtain ⟨r, hr, hid⟩ := hsources s hs
  obtain ⟨metadata, hget⟩ := exists_firstSeen hr
  simp only [Function.comp_apply, Catalog.shown, Catalog.attribution, rowId]
  rw [← hid, hget]
  rfl

/-- Staging keeps the source of a contribution. -/
theorem exists_record_of_staged (records : List NormalizedSourceRecord) (k : Str) :
    ∀ s ∈ (mergedOf (stagedRecords records) k).sources,
      ∃ r ∈ records, r.source.sourceId = s.source.sourceId := by
  intro s hs
  obtain ⟨r, hr, rfl⟩ := List.mem_map.mp (mem_of_mem_sources hs)
  exact ⟨r, hr, (sourceId_restored _ r).symm⟩

/-- A source row has the metadata first seen for its id. -/
theorem metadata_of_dataSource {records : List NormalizedSourceRecord}
    {dataSources : List DataSourceModel}
    (hsources : dataSources.map (·.toDataSourceValues) = dataSourceRows (firstSeen records))
    {d : DataSourceModel} (hd : d ∈ dataSources) :
    ∃ metadata, (firstSeen records).get? d.sourceId = some metadata ∧
      d.toDataSourceValues = dataSourceValues metadata := by
  have hmem := List.mem_map_of_mem (f := fun d : DataSourceModel => d.toDataSourceValues) hd
  rw [hsources] at hmem
  obtain ⟨e, he, hvalues⟩ := List.mem_map.mp hmem
  have hitem : e ∈ (firstSeen records).items := (perm_stableSort Prod.fst _).mem_iff.mp he
  have hid : e.1 = d.sourceId :=
    calc e.1 = e.2.sourceId := (sourceId_of_mem_firstSeen records e hitem).symm
      _ = d.sourceId := congrArg DataSourceValues.sourceId hvalues
  exact ⟨e.2, hid ▸ Dict.mem_items_iff.mp hitem, hvalues.symm⟩

include h

/-- The attribution of a provenance row is what the catalog shows of its contribution. -/
theorem sourceAttribution_shown {s : BinRecordSourceModel} (hs : s ∈ db.binRecordSources) :
    ∃ a, sourceAttribution db s = some a ∧ some a =
      ((db.resolve s.toBinRecordSourceValues).map fun p => (p.sourceId, p.sourceRowKey)).bind
        self.shown := by
  have hmem := List.mem_map_of_mem (f := fun row : BinRecordSourceModel =>
    db.resolve row.toBinRecordSourceValues) hs
  rw [h.provenance.mem_iff] at hmem
  obtain ⟨p, hp, hresolve⟩ := List.mem_map.mp hmem
  -- every contribution was imported at the time of the catalog
  have htime : p.importedAt = some self.importedAt := by
    obtain ⟨m, -, hp⟩ := List.mem_flatMap.mp hp
    obtain ⟨source, -, rfl⟩ := List.mem_map.mp hp
    rfl
  obtain ⟨r, -, d, hd, -, -, hfind, rfl⟩ := resolve_eq_some hresolve.symm
  obtain ⟨metadata, hget, hvalues⟩ := metadata_of_dataSource h.dataSources hd
  refine ⟨_, congrArg (Option.map _) hfind, ?_⟩
  rw [← hresolve, Option.map_some, Option.bind_some, Catalog.shown, hget, Option.map_some]
  have hurl : d.upstreamUrl = metadata.upstreamUrl := congrArg DataSourceValues.upstreamUrl hvalues
  have hlicense : d.license = metadata.license := congrArg DataSourceValues.license hvalues
  rw [← hurl, ← hlicense, ← htime]

/-- The attributions of a row are the staged contributions to its record. -/
theorem sourceAttributions_staged {row : BinRecordModel} (hrow : row ∈ db.binRecords)
    (backend : Backend) :
    ∃ attributions, sourceAttributions backend db row = some attributions ∧
      attributions.Perm ((mergedOf (stagedRecords self.records) row.iinStart).sources.map
        self.attribution) := by
  have hrows : (db.sources backend row).Perm
      (db.binRecordSources.filter fun s => decide (s.binRecordId = row.id)) :=
    backend.collected_perm _
  obtain ⟨attributions, hattr, hpairs⟩ := exists_mapM_eq_some fun s hs =>
    sourceAttribution_shown h (List.mem_of_mem_filter (hrows.mem_iff.mp hs))
  refine ⟨attributions, hattr, (List.map_perm_map_iff (Option.some_injective _)).mp ?_⟩
  have hread : attributions.map some = (db.sources backend row).map fun s =>
      ((db.resolve s.toBinRecordSourceValues).map fun p => (p.sourceId, p.sourceRowKey)).bind
        self.shown := by
    rw [← List.forall₂_eq_eq_eq, List.forall₂_map_left_iff, List.forall₂_map_right_iff]
    exact hpairs.flip
  have hlinks := ((hrows.map _).trans (rowIds_of_row h hrow)).map (Option.bind · self.shown)
  rw [List.map_map, List.map_map (f := some)] at hlinks
  rw [hread, ← map_shown_rowId (exists_record_of_staged self.records row.iinStart)]
  exact hlinks

/-- **The attributions of a row are the contributions to its record**, with their metadata and the
time of the import. -/
theorem sourceAttributions_eq {row : BinRecordModel} (hrow : row ∈ db.binRecords)
    (backend : Backend) :
    ∃ attributions, sourceAttributions backend db row = some attributions ∧
      attributions.Perm ((mergedOf self.records row.iinStart).sources.map self.attribution) := by
  obtain ⟨attributions, hattr, hperm⟩ := sourceAttributions_staged h hrow backend
  have hsame := map_shown_rowId (exists_record_of_staged self.records row.iinStart)
  rw [rowIds_mergedOf_staged h, map_shown_rowId fun s hs => ⟨s, mem_of_mem_sources hs, rfl⟩]
    at hsame
  exact ⟨attributions, hattr,
    hperm.trans (.of_eq (List.map_injective_iff.mpr (Option.some_injective _) hsame.symm))⟩

omit h in
/-- Staging does not change what the rows are made of. -/
theorem map_values_staged (records : List NormalizedSourceRecord) :
    (mergedRecords records).map (fun m => binRecordValues m.record) =
      (mergeSourceRecords records).map fun m => binRecordValues m.record := by
  obtain ⟨keys, hsorted, hkeys, heq⟩ := mergeSourceRecords_eq_map records
  obtain ⟨keys', hsorted', hkeys', heq'⟩ := mergeSourceRecords_eq_map (stagedRecords records)
  have hperm : keys'.Perm keys :=
    (List.perm_ext_iff_of_nodup (hsorted'.imp ne_of_lt) (hsorted.imp ne_of_lt)).mpr fun k => by
      rw [hkeys, hkeys', exists_stagedRecords_iff]
  obtain rfl := hperm.eq_of_pairwise (fun _ _ _ _ hab hba => absurd hba hab.asymm) hsorted' hsorted
  rw [mergedRecords, heq, heq', List.map_map, List.map_map]
  exact List.map_congr_left fun k _ =>
    binRecordValues_congr rfl (getattr_mergedOf_staged records k)

/-- **On the tables of an import, every lookup answers what the catalog answers.** -/
theorem lookup_represents (backend : Backend) (value : Str) (validateLuhn : Bool) :
    ∃ result, lookupWithSession backend db value validateLuhn = some result ∧
      result.Like List.Perm (self.lookup value validateLuhn) := by
  obtain ⟨keys, -, -, heq⟩ := mergeSourceRecords_eq_map self.records
  refine lookup_among self backend (h.binRecords.trans (map_values_staged self.records)) ?_
    (List.Perm.refl _) (fun row m hm => ?_) value validateLuhn
  · exact (merge_spec self.records).1.imp ne_of_lt
  · have hmerged := hm.mem_merged
    rw [heq] at hmerged
    obtain ⟨k, -, rfl⟩ := List.mem_map.mp hmerged
    obtain rfl : row.iinStart = k := hm.iinStart
    exact sourceAttributions_eq h hm.mem_rows backend

end Represents

end CardBinData
