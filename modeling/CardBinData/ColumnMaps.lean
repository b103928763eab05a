import CardBinData.Conservation
import CardBinData.Sources

/-!
# The column maps and the priority table

Each bundled adapter fills the fields it knows from columns of its own (`BundledAdapter.column`),
and `FIELD_PRIORITY` lists for each field the sources it is taken from. The two agree: an adapter
maps a column to a field exactly when its source is listed for it (`column_isSome_iff`). So a merged
field is missing only when every cell mapped to it is blank.

* `getattr_mergedOf_eq_none_iff`: when a merged field is missing, for records of any sources.
* `bundled_cellByCell`: what the string fields hold after an import of bundled adapters.
-/

namespace CardBinData

open Library

/-! ## The column maps -/

/-- The columns of `binlist/data` that fields are read from. -/
def BinlistDataAdapter.column : FieldName → Option Str
  | .iinEnd => some "iin_end".toList
  | .numberLength => some "number_length".toList
  | .luhn => some "number_luhn".toList
  | .scheme => some "scheme".toList
  | .productBrand => some "brand".toList
  | .type => some "type".toList
  | .prepaid => some "prepaid".toList
  | .countryAlpha2 => some "country".toList
  | .issuerName => some "bank_name".toList
  | .issuerUrl => some "bank_url".toList
  | .issuerPhone => some "bank_phone".toList
  | .issuerCity => some "bank_city".toList
  | .category | .countryAlpha3 | .countryName => none

/-- The columns of `venelinkochev/bin-list-data`. -/
def VenelinkochevBinListDataAdapter.column : FieldName → Option Str
  | .scheme => some "Brand".toList
  | .type => some "Type".toList
  | .category => some "Category".toList
  | .countryAlpha2 => some "isoCode2".toList
  | .countryAlpha3 => some "isoCode3".toList
  | .countryName => some "CountryName".toList
  | .issuerName => some "Issuer".toList
  | .issuerPhone => some "IssuerPhone".toList
  | .issuerUrl => some "IssuerUrl".toList
  | .iinEnd | .numberLength | .luhn | .productBrand | .prepaid | .issuerCity => none

/-- The columns of `marlonlp/binlist-data`. -/
def MarlonlpBinlistDataAdapter.column : FieldName → Option Str
  | .scheme => some "brand".toList
  | .type => some "type".toList
  | .category => some "category".toList
  | .issuerName => some "issuer".toList
  | .iinEnd | .numberLength | .luhn | .productBrand | .prepaid | .countryAlpha2 | .countryAlpha3
  | .countryName | .issuerPhone | .issuerUrl | .issuerCity => none

namespace BundledAdapter

/-- The column that the adapter reads a field from. -/
def column : BundledAdapter → FieldName → Option Str
  | binlistData _ _ => BinlistDataAdapter.column
  | venelinkochev _ _ => VenelinkochevBinListDataAdapter.column
  | marlonlp _ _ => MarlonlpBinlistDataAdapter.column

/-- **An adapter maps a column to the fields its source is listed for, and to no other.** -/
theorem column_isSome_iff (self : BundledAdapter) (f : FieldName) :
    (self.column f).isSome ↔ self.sourceAdapter.metadata.sourceId ∈ fieldPriority f := by
  cases self with
  | binlistData _ _ =>
    change (BinlistDataAdapter.column f).isSome ↔ primarySourceId ∈ fieldPriority f
    cases f <;> decide
  | venelinkochev _ _ =>
    change (VenelinkochevBinListDataAdapter.column f).isSome ↔ enrichmentSourceId ∈ fieldPriority f
    cases f <;> decide
  | marlonlp _ _ =>
    change (MarlonlpBinlistDataAdapter.column f).isSome ↔ fallbackSourceId ∈ fieldPriority f
    cases f <;> decide

end BundledAdapter

/-! ## String fields -/

/-- The string fields other than `iin_start` and `iin_end`. -/
inductive TextField where
  | scheme
  | productBrand
  | type
  | category
  | countryAlpha2
  | countryAlpha3
  | countryName
  | issuerName
  | issuerPhone
  | issuerUrl
  | issuerCity
  deriving DecidableEq

namespace TextField

def name : TextField → FieldName
  | .scheme => .scheme
  | .productBrand => .productBrand
  | .type => .type
  | .category => .category
  | .countryAlpha2 => .countryAlpha2
  | .countryAlpha3 => .countryAlpha3
  | .countryName => .countryName
  | .issuerName => .issuerName
  | .issuerPhone => .issuerPhone
  | .issuerUrl => .issuerUrl
  | .issuerCity => .issuerCity

/-- A value of the field is a string. -/
def str : (f : TextField) → f.name.Value → Str
  | .scheme, v => v
  | .productBrand, v => v
  | .type, v => v
  | .category, v => v
  | .countryAlpha2, v => v
  | .countryAlpha3, v => v
  | .countryName, v => v
  | .issuerName, v => v
  | .issuerPhone, v => v
  | .issuerUrl, v => v
  | .issuerCity, v => v

/-- The field of a source record. -/
def read (f : TextField) (record : NormalizedSourceRecord) : Option Str :=
  (record.getattr f.name).map f.str

/-- The column of `bin_records`, which a lookup shows. -/
def stored (f : TextField) (row : BinRecordModel) : Option Str :=
  ((binInfo row).field f.name).map f.str

/-- The cell that the adapter reads the field from. -/
def cell (f : TextField) (adapter : BundledAdapter) (row : Row) : Option Str :=
  (adapter.column f.name).bind row.get

end TextField

/-- **The adapters read a string field from its column, trimmed, and blank cells as `None`.** -/
theorem read_record (adapter : BundledAdapter) (f : TextField) (k : Str) (line : Nat) (row : Row) :
    f.read (adapter.record k line row) = noneIfEmpty (f.cell adapter row) := by
  have hread : ∀ o : Option Str, o.map (fun v => v) = o := fun _ => Option.map_id'
  cases adapter <;> cases f <;> exact hread _

/-- The cell is absent, or only white space. -/
def Blank (cell : Option Str) : Prop := ∀ s ∈ cell, ∀ c ∈ s, isspace c = true

theorem read_eq_none_iff (adapter : BundledAdapter) (f : TextField) (k : Str) (line : Nat)
    (row : Row) : f.read (adapter.record k line row) = none ↔ Blank (f.cell adapter row) := by
  rw [read_record]
  exact noneIfEmpty_eq_none_iff

/-- A field without a column is left unset. -/
theorem getattr_record_of_column {adapter : BundledAdapter} {f : FieldName}
    (h : adapter.column f = none) (k : Str) (line : Nat) (row : Row) :
    (adapter.record k line row).getattr f = none := by
  cases adapter <;> cases f <;> first | rfl | exact absurd h (Option.some_ne_none _)

/-- **A record with a value for a field is of a source listed for it.** -/
theorem listed_of_getattr {adapter : BundledAdapter} {f : FieldName} {k : Str} {line : Nat}
    {row : Row} (h : (adapter.record k line row).getattr f ≠ none) :
    adapter.sourceAdapter.metadata.sourceId ∈ fieldPriority f := by
  rw [← adapter.column_isSome_iff, Option.isSome_iff_ne_none]
  exact fun hcolumn => h (getattr_record_of_column hcolumn k line row)

/-! ## Missing fields -/

/-- **A merged field is missing** when no listed record of its key has a value, and none of the
prefix either where the key inherits the field. -/
theorem getattr_mergedOf_eq_none_iff {records : List NormalizedSourceRecord} {k : Str}
    {f : FieldName} :
    (mergedOf records k).record.getattr f = none ↔
      mergedValue f (exactGroup records k) = none ∧
        (Inherits records k f →
          mergedValue f (exactGroup records (k.take sixDigitPrefixLength)) = none) := by
  rw [mergedValue_eq_none_iff_not_supplied, mergedValue_eq_none_iff_not_supplied,
    Option.eq_none_iff_forall_ne_some]
  constructor
  · intro h
    have hown : ¬ ∃ u, FirstSupplied f (exactGroup records k) u := fun ⟨u, hu⟩ =>
      h u (getattr_mergedOf_iff.mpr (Or.inl hu))
    exact ⟨hown, fun hinh ⟨v, hv⟩ => h v (getattr_mergedOf_iff.mpr (Or.inr ⟨hown, hinh, hv⟩))⟩
  · rintro ⟨hown, hinherited⟩ v hv
    rcases getattr_mergedOf_iff.mp hv with hv | ⟨-, hinh, hv⟩
    · exact hown ⟨v, hv⟩
    · exact hinherited hinh ⟨v, hv⟩

/-- Every row of the key `k`, in any file, has a blank cell for the field. -/
def AllBlank (adapters : List BundledAdapter) (k : Str) (f : TextField) : Prop :=
  ∀ adapter ∈ adapters, ∀ line row, adapter.Emits k line row → Blank (f.cell adapter row)

/-- The emitted records, by the lines they come from. -/
theorem mem_emitted_iff {adapters : List BundledAdapter} {r : NormalizedSourceRecord} :
    r ∈ emitted (adapters.map (·.sourceAdapter)) ↔
      ∃ adapter ∈ adapters, ∃ k line row, adapter.Emits k line row ∧
        r = adapter.record k line row := by
  unfold emitted
  rw [List.flatMap_map, List.mem_flatMap]
  simp only [BundledAdapter.mem_records_iff]

/-- The records of a key. -/
theorem mem_exactGroup_emitted {adapters : List BundledAdapter} {k : Str}
    {r : NormalizedSourceRecord} :
    r ∈ exactGroup (emitted (adapters.map (·.sourceAdapter))) k ↔
      ∃ adapter ∈ adapters, ∃ line row, adapter.Emits k line row ∧
        r = adapter.record k line row := by
  rw [mem_exactGroup, mem_emitted_iff]
  constructor
  · rintro ⟨⟨adapter, hadapter, k', line, row, hemits, rfl⟩, hk⟩
    obtain rfl : k' = k := (adapter.iinStart_normalize _ _ _).symm.trans hk
    exact ⟨adapter, hadapter, line, row, hemits, rfl⟩
  · rintro ⟨adapter, hadapter, line, row, hemits, rfl⟩
    exact ⟨⟨adapter, hadapter, k, line, row, hemits, rfl⟩, adapter.iinStart_normalize _ _ _⟩

/-- **The listed records of a key have no value exactly when its cells are blank.** -/
theorem mergedValue_eq_none_iff_allBlank {adapters : List BundledAdapter} {k : Str}
    {f : TextField} :
    mergedValue f.name (exactGroup (emitted (adapters.map (·.sourceAdapter))) k) = none ↔
      AllBlank adapters k f := by
  rw [mergedValue_eq_none_iff]
  constructor
  · intro h adapter hadapter line row hemits
    rw [← read_eq_none_iff adapter f k line row, TextField.read, Option.map_eq_none_iff]
    by_contra hvalue
    have hmem := mem_exactGroup_emitted.mpr ⟨adapter, hadapter, line, row, hemits, rfl⟩
    have hsource := congrArg SourceMetadata.sourceId (adapter.source_normalize
      (rowKey (pathName adapter.localPath) line k) k row)
    exact hvalue (h _ hmem (hsource ▸ listed_of_getattr hvalue))
  · intro h r hr _
    obtain ⟨adapter, hadapter, line, row, hemits, rfl⟩ := mem_exactGroup_emitted.mp hr
    have hblank := h adapter hadapter line row hemits
    rw [← read_eq_none_iff adapter f k line row] at hblank
    exact Option.map_eq_none_iff.mp hblank

/-- The key may inherit the field: it has eight characters and a `binlist/data` row, which never
supplies the field. -/
def MayInherit (adapters : List BundledAdapter) (k : Str) (f : TextField) : Prop :=
  k.length = eightDigitPrefixLength ∧
    (∃ adapter ∈ adapters, adapter.sourceAdapter.metadata.sourceId = primarySourceId ∧
      ∃ line row, adapter.Emits k line row) ∧
    (f = .category ∨ f = .countryAlpha3 ∨ f = .countryName)

theorem inherits_emitted_iff {adapters : List BundledAdapter} {k : Str} {f : TextField} :
    Inherits (emitted (adapters.map (·.sourceAdapter))) k f.name ↔ MayInherit adapters k f := by
  have hname : (f.name = .category ∨ f.name = .countryAlpha3 ∨ f.name = .countryName) ↔
      (f = .category ∨ f = .countryAlpha3 ∨ f = .countryName) := by
    cases f <;> decide
  unfold Inherits MayInherit
  rw [hname]
  refine and_congr_right fun _ => and_congr_left fun _ => ?_
  simp only [mem_exactGroup_emitted]
  constructor
  · rintro ⟨_, ⟨adapter, hadapter, line, row, hemits, rfl⟩, hprimary⟩
    rw [BundledAdapter.record, adapter.source_normalize] at hprimary
    exact ⟨adapter, hadapter, hprimary, line, row, hemits⟩
  · rintro ⟨adapter, hadapter, hprimary, line, row, hemits⟩
    refine ⟨_, ⟨adapter, hadapter, line, row, hemits, rfl⟩, ?_⟩
    rw [BundledAdapter.record, adapter.source_normalize, hprimary]

/-! ## After an import -/

/-- No white space at either end. -/
def Trimmed (s : Str) : Prop :=
  (∀ c ∈ s.head?, isspace c = false) ∧ ∀ c ∈ s.getLast?, isspace c = false

/-- **The string fields of the table are the cells of the files.** Every emitted key has its record;
a field is a cell of a contributing row, trimmed; and it is missing only where all cells are
blank. -/
structure CellByCell (adapters : List BundledAdapter) (db : Database) : Prop where
  keys : ∀ k, (∃ record ∈ db.binRecords, record.iinStart = k) ↔
    ∃ adapter ∈ adapters, ∃ line row, adapter.Emits k line row
  cell_of_stored : ∀ record ∈ db.binRecords, ∀ f v, TextField.stored f record = some v →
    v ≠ [] ∧ Trimmed v ∧ ∃ adapter ∈ adapters, ∃ k line row cell,
      adapter.Emits k line row ∧
      (∃ s ∈ db.binRecordSources,
        Attaches db record.iinStart (adapter.record k line row) s) ∧
      f.cell adapter row = some cell ∧ v = strip cell
  stored_eq_none_iff : ∀ record ∈ db.binRecords, ∀ f, TextField.stored f record = none ↔
    AllBlank adapters record.iinStart f ∧
      (MayInherit adapters record.iinStart f →
        AllBlank adapters (record.iinStart.take sixDigitPrefixLength) f)

section Represents

variable {db : Database} {records : List NormalizedSourceRecord} {storeRawPayload : Bool}
  {importedAt : Int} (h : db.Represents (datasetOf records storeRawPayload importedAt))
  {record : BinRecordModel} (hrecord : record ∈ db.binRecords)
include h hrecord

theorem stored_eq (f : TextField) :
    f.stored record = f.read (mergedOf (stagedRecords records) record.iinStart).record :=
  congrArg (Option.map f.str) (field_binInfo (row_values h hrecord).2 f.name)

/-- The sources of a record are attached to it. -/
theorem exists_attaches {r : NormalizedSourceRecord}
    (hr : restored (firstSeen records) r ∈
      (mergedOf (stagedRecords records) record.iinStart).sources) :
    ∃ s ∈ db.binRecordSources, Attaches db record.iinStart r s := by
  have hmem := List.mem_map_of_mem (f := some) (List.mem_map_of_mem
    (f := fun s => provenanceRow (mergedOf (stagedRecords records) record.iinStart) s
      storeRawPayload importedAt) hr)
  rw [← (sources_of_row h hrecord).mem_iff] at hmem
  obtain ⟨s, hs, hresolve⟩ := List.mem_map.mp hmem
  exact ⟨s, List.mem_of_mem_filter hs,
    attaches_of_resolve hresolve (sourceId_restored records r) rfl⟩

end Represents

section CellByCell

variable {adapters : List BundledAdapter} {db : Database} {storeRawPayload : Bool}
  {importedAt : Int}
  (h : db.Represents (datasetOf (emitted (adapters.map (·.sourceAdapter))) storeRawPayload
    importedAt))
include h

theorem keys_of_represents (k : Str) : (∃ record ∈ db.binRecords, record.iinStart = k) ↔
    ∃ adapter ∈ adapters, ∃ line row, adapter.Emits k line row := by
  constructor
  · rintro ⟨record, hrecord, rfl⟩
    obtain ⟨r, hr⟩ := (row_values h hrecord).1
    obtain ⟨adapter, hadapter, line, row, hemits, -⟩ :=
      mem_exactGroup_emitted.mp (mem_exactGroup.mpr hr)
    exact ⟨adapter, hadapter, line, row, hemits⟩
  · rintro ⟨adapter, hadapter, line, row, hemits⟩
    exact exists_row h ⟨_, mem_exactGroup.mp
      (mem_exactGroup_emitted.mpr ⟨adapter, hadapter, line, row, hemits, rfl⟩)⟩

theorem cell_of_stored {record : BinRecordModel} (hrecord : record ∈ db.binRecords)
    {f : TextField} {v : Str} (hv : f.stored record = some v) :
    ∃ adapter ∈ adapters, ∃ k line row cell, adapter.Emits k line row ∧
      (∃ s ∈ db.binRecordSources, Attaches db record.iinStart (adapter.record k line row) s) ∧
      f.cell adapter row = some cell ∧ v = strip cell ∧ v ≠ [] := by
  rw [stored_eq h hrecord] at hv
  obtain ⟨value, hvalue, hstr⟩ := Option.map_eq_some_iff.mp hv
  obtain ⟨s, hs, hsvalue⟩ := exists_source_of_getattr hvalue
  obtain ⟨r, hr, rfl⟩ := List.mem_map.mp (mem_of_mem_sources hs)
  obtain ⟨adapter, hadapter, k, line, row, hemits, rfl⟩ := mem_emitted_iff.mp hr
  rw [getattr_restored] at hsvalue
  have hread : f.read (adapter.record k line row) = some v := by
    rw [TextField.read, hsvalue, Option.map_some, hstr]
  rw [read_record] at hread
  obtain ⟨cell, hcell, hstrip, hne⟩ := noneIfEmpty_eq_some_iff.mp hread
  exact ⟨adapter, hadapter, k, line, row, cell, hemits, exists_attaches h hrecord hs, hcell,
    hstrip.symm, hne⟩

theorem cellByCell_of_represents : CellByCell adapters db where
  keys := keys_of_represents h
  cell_of_stored record hrecord f v hv := by
    obtain ⟨adapter, hadapter, k, line, row, cell, hemits, hattached, hcell, rfl, hne⟩ :=
      cell_of_stored h hrecord hv
    exact ⟨hne, ⟨head?_strip cell, getLast?_strip cell⟩, adapter, hadapter, k, line, row, cell,
      hemits, hattached, hcell, rfl⟩
  stored_eq_none_iff record hrecord f := by
    rw [stored_eq h hrecord, TextField.read, Option.map_eq_none_iff, getattr_mergedOf_staged,
      getattr_mergedOf_eq_none_iff, mergedValue_eq_none_iff_allBlank,
      mergedValue_eq_none_iff_allBlank, inherits_emitted_iff]

end CellByCell

/-- **The column maps and the priority table agree**, so an import of bundled adapters stores the
string fields of their files cell by cell. -/
theorem bundled_cellByCell (adapters : List BundledAdapter) :
    (∀ (adapter : BundledAdapter) f, (adapter.column f).isSome ↔
      adapter.sourceAdapter.metadata.sourceId ∈ fieldPriority f) ∧
    ∀ env storeRawPayload w,
      Post (storeImportSources env (adapters.map (·.sourceAdapter)) storeRawPayload w)
        (fun _ w' => CellByCell adapters w'.committed) fun _ w' => w'.committed = w.committed :=
  ⟨BundledAdapter.column_isSome_iff, fun env storeRawPayload w =>
    (storeImportSources_post env _ storeRawPayload w).mono
      (fun _ _ h => cellByCell_of_represents h) fun _ _ h => h⟩

end CardBinData
