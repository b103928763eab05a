import CardBinData.Importer

/-!
# The bundled source adapters (`sources/`)

The three CSV adapters walk the rows of a file with one loop (`normalizeRows`): a row without a
decimal key is skipped, every other row becomes a record whose `row_key` names the file, the line
and the key. They differ in the columns they read. A file is the list of its `csv.DictReader` rows;
reading and decoding the text is left to the `csv` module.
-/

namespace CardBinData

/-! ## Cells (`sources/_csv.py`) -/

/-- `none_if_empty`. -/
def noneIfEmpty (value : Option Str) : Option Str :=
  match value with
  | none => none
  | some value => if (strip value).isEmpty then none else some (strip value)

/-- `optional_int`. -/
def optionalInt (value : Option Str) : Option Int := (noneIfEmpty value).bind pyInt

/-- `optional_bool`. -/
def optionalBool (value : Option Str) : Option Bool :=
  (noneIfEmpty value).map fun normalized =>
    ["1".toList, "true".toList, "yes".toList, "y".toList].contains (casefold normalized)

/-- `is_numeric_prefix`. -/
def isNumericPrefix (value : Option Str) : Bool := (noneIfEmpty value).any isdecimal

/-- `row_key`. -/
def rowKey (fileName : Str) (lineNumber : Nat) (value : Str) : Str :=
  fileName ++ ':' :: Nat.toDigits 10 lineNumber ++ ':' :: value

/-- `next_record_batch`: the batch, and what is left of the iterator. -/
def nextRecordBatch {α : Type} (records : List α) (batchSize : Nat) : List α × List α :=
  (records.take batchSize, records.drop batchSize)

/-- `iter_csv_records`, with `CSV_RECORD_BATCH_SIZE` as a parameter: batches are read until one is
empty. -/
def iterCsvRecords {α : Type} (batchSize : Nat) (records : List α) : List α :=
  if (nextRecordBatch records batchSize).1.isEmpty then []
  else (nextRecordBatch records batchSize).1 ++
    iterCsvRecords batchSize (nextRecordBatch records batchSize).2
termination_by records.length
decreasing_by
  rename_i hbatch
  simp only [nextRecordBatch, List.isEmpty_iff, List.take_eq_nil_iff, not_or] at hbatch
  have hpos := List.length_pos_iff.mpr hbatch.2
  simp only [nextRecordBatch, List.length_drop]
  omega

/-- `Path.name`: the last component. -/
def pathName (path : Str) : Str :=
  ((path.splitOn '/').filter fun part => part ≠ [] ∧ part ≠ ['.']).getLastD []

/-! ## The loop of `_normalize_rows` -/

/-- The key of a row, when it is a decimal string. -/
def usableKey (column : Str) (row : Row) : Option Str :=
  (noneIfEmpty (row.get column)).filter isdecimal

/-- The loop of `_normalize_rows`; the first row stands on line 2. `normalize` makes the record of a
row from its `row_key` and its key. -/
def normalizeRows (column fileName : Str) (normalize : Str → Str → Row → NormalizedSourceRecord)
    (rows : List Row) : List NormalizedSourceRecord :=
  (rows.zipIdx 2).filterMap fun p =>
    (usableKey column p.1).map fun iinStart =>
      normalize (rowKey fileName p.2 iinStart) iinStart p.1

theorem mem_normalizeRows {column fileName : Str}
    {normalize : Str → Str → Row → NormalizedSourceRecord} {rows : List Row}
    {r : NormalizedSourceRecord} (h : r ∈ normalizeRows column fileName normalize rows) :
    ∃ row ∈ rows, ∃ key iinStart, usableKey column row = some iinStart ∧
      r = normalize key iinStart row := by
  obtain ⟨⟨row, line⟩, hmem, hr⟩ := List.mem_filterMap.mp h
  obtain ⟨iinStart, hkey, rfl⟩ := Option.map_eq_some_iff.mp hr
  exact ⟨row, List.fst_mem_of_mem_zipIdx hmem, _, iinStart, hkey, rfl⟩

theorem exists_mem_normalizeRows {column : Str} (fileName : Str)
    (normalize : Str → Str → Row → NormalizedSourceRecord) {rows : List Row} {row : Row}
    (hrow : row ∈ rows) {iinStart : Str} (hkey : usableKey column row = some iinStart) :
    ∃ key, normalize key iinStart row ∈ normalizeRows column fileName normalize rows := by
  obtain ⟨i, hi, rfl⟩ := List.mem_iff_getElem.mp hrow
  refine ⟨rowKey fileName (2 + i) iinStart, List.mem_filterMap.mpr ⟨(rows[i], 2 + i), ?_, ?_⟩⟩
  · exact List.mk_add_mem_zipIdx_iff_getElem?.mpr (List.getElem?_eq_getElem hi)
  · exact Option.map_eq_some_iff.mpr ⟨iinStart, hkey, rfl⟩

/-- **Reading in batches of a positive size loses nothing.** -/
theorem iterCsvRecords_eq {α : Type} {batchSize : Nat} (hpos : 0 < batchSize) (records : List α) :
    iterCsvRecords batchSize records = records := by
  fun_induction iterCsvRecords batchSize records with
  | case1 records hempty =>
    simp only [nextRecordBatch, List.isEmpty_iff, List.take_eq_nil_iff] at hempty
    exact (hempty.resolve_left hpos.ne').symm
  | case2 records _ ih =>
    rw [ih]
    exact List.take_append_drop batchSize records

/-- The line number can be read back from a row key of a known file. -/
theorem lineNumber_of_rowKey {fileName value value' : Str} {n n' : Nat}
    (h : rowKey fileName n value = rowKey fileName n' value') : n = n' := by
  have hdigits : ∀ (n : Nat) (value : Str),
      (Nat.toDigits 10 n ++ ':' :: value).takeWhile Char.isDigit = Nat.toDigits 10 n :=
    fun n value => by
      rw [List.takeWhile_append_of_pos fun c hc =>
        Nat.isDigit_of_mem_toDigits (by decide) (by decide) hc,
        List.takeWhile_cons_of_neg (by decide), List.append_nil]
  unfold rowKey at h
  rw [List.append_assoc, List.append_assoc, List.append_cancel_left_eq] at h
  have htail := congrArg (List.takeWhile Char.isDigit) (List.cons.inj h).2
  change (Nat.toDigits 10 n ++ ':' :: value).takeWhile Char.isDigit =
    (Nat.toDigits 10 n' ++ ':' :: value').takeWhile Char.isDigit at htail
  rw [hdigits, hdigits] at htail
  rw [← Nat.ofDigitChars_ten_toDigits (n := n), htail, Nat.ofDigitChars_ten_toDigits]

/-- A cell reads as nothing exactly when it is absent or only white space. -/
theorem noneIfEmpty_eq_none_iff {value : Option Str} :
    noneIfEmpty value = none ↔ ∀ s ∈ value, ∀ c ∈ s, isspace c = true := by
  cases value with
  | none => simp [noneIfEmpty]
  | some s =>
    simp only [noneIfEmpty, List.isEmpty_iff, Option.mem_some_iff, forall_eq', ← strip_eq_nil_iff]
    by_cases h : strip s = [] <;> simp [h]

theorem noneIfEmpty_eq_some_iff {value : Option Str} {v : Str} :
    noneIfEmpty value = some v ↔ ∃ s, value = some s ∧ strip s = v ∧ v ≠ [] := by
  cases value with
  | none => simp [noneIfEmpty]
  | some s =>
    simp only [noneIfEmpty, List.isEmpty_iff, Option.some.injEq, exists_eq_left']
    by_cases h : strip s = []
    · simp only [h, if_true, reduceCtorEq, false_iff, not_and, not_not]
      exact Eq.symm
    · simp only [h, if_false, Option.some.injEq]
      exact ⟨fun hv => ⟨hv, hv ▸ h⟩, And.left⟩

example : rowKey (pathName "/data/ranges.csv".toList) 12 "45717360".toList =
    "ranges.csv:12:45717360".toList := by decide +kernel

/-! ## The adapters -/

/-- `BinlistDataAdapter`; the path as its string. -/
structure BinlistDataAdapter where
  localPath : Str

namespace BinlistDataAdapter

def metadata (self : BinlistDataAdapter) : SourceMetadata where
  sourceId := "binlist/data".toList
  displayName := "binlist/data".toList
  upstreamUrl := "https://github.com/binlist/data.git".toList
  localPath := some self.localPath

/-- The record of one row. -/
def normalize (self : BinlistDataAdapter) (key iinStart : Str) (row : Row) :
    NormalizedSourceRecord :=
  let iinEnd := noneIfEmpty (row.get "iin_end".toList)
  { source := self.metadata
    rowKey := key
    iinStart := iinStart
    iinEnd := if isNumericPrefix iinEnd then iinEnd else none
    numberLength := optionalInt (row.get "number_length".toList)
    luhn := optionalBool (row.get "number_luhn".toList)
    scheme := noneIfEmpty (row.get "scheme".toList)
    productBrand := noneIfEmpty (row.get "brand".toList)
    type := noneIfEmpty (row.get "type".toList)
    prepaid := optionalBool (row.get "prepaid".toList)
    countryAlpha2 := noneIfEmpty (row.get "country".toList)
    issuerName := noneIfEmpty (row.get "bank_name".toList)
    issuerUrl := noneIfEmpty (row.get "bank_url".toList)
    issuerPhone := noneIfEmpty (row.get "bank_phone".toList)
    issuerCity := noneIfEmpty (row.get "bank_city".toList)
    rawPayload := row }

/-- `_normalize_rows`. -/
def normalizeRows (self : BinlistDataAdapter) (rows : List Row) : List NormalizedSourceRecord :=
  CardBinData.normalizeRows "iin_start".toList (pathName self.localPath) self.normalize rows

/-- The adapter over a file with the given rows. -/
def sourceAdapter (self : BinlistDataAdapter) (rows : List Row) : SourceAdapter :=
  ⟨self.metadata, self.normalizeRows rows⟩

end BinlistDataAdapter

/-- `VenelinkochevBinListDataAdapter`. -/
structure VenelinkochevBinListDataAdapter where
  localPath : Str

namespace VenelinkochevBinListDataAdapter

def metadata (self : VenelinkochevBinListDataAdapter) : SourceMetadata where
  sourceId := "venelinkochev/bin-list-data".toList
  displayName := "venelinkochev/bin-list-data".toList
  upstreamUrl := "https://github.com/venelinkochev/bin-list-data.git".toList
  license := some "CC BY 4.0".toList
  localPath := some self.localPath

/-- The record of one row. -/
def normalize (self : VenelinkochevBinListDataAdapter) (key iinStart : Str) (row : Row) :
    NormalizedSourceRecord where
  source := self.metadata
  rowKey := key
  iinStart := iinStart
  scheme := noneIfEmpty (row.get "Brand".toList)
  type := noneIfEmpty (row.get "Type".toList)
  category := noneIfEmpty (row.get "Category".toList)
  countryAlpha2 := noneIfEmpty (row.get "isoCode2".toList)
  countryAlpha3 := noneIfEmpty (row.get "isoCode3".toList)
  countryName := noneIfEmpty (row.get "CountryName".toList)
  issuerName := noneIfEmpty (row.get "Issuer".toList)
  issuerPhone := noneIfEmpty (row.get "IssuerPhone".toList)
  issuerUrl := noneIfEmpty (row.get "IssuerUrl".toList)
  rawPayload := row

/-- `_normalize_rows`. -/
def normalizeRows (self : VenelinkochevBinListDataAdapter) (rows : List Row) :
    List NormalizedSourceRecord :=
  CardBinData.normalizeRows "BIN".toList (pathName self.localPath) self.normalize rows

/-- The adapter over a file with the given rows. -/
def sourceAdapter (self : VenelinkochevBinListDataAdapter) (rows : List Row) : SourceAdapter :=
  ⟨self.metadata, self.normalizeRows rows⟩

end VenelinkochevBinListDataAdapter

/-- `MarlonlpBinlistDataAdapter`, for semicolon-delimited files. -/
structure MarlonlpBinlistDataAdapter where
  localPath : Str

namespace MarlonlpBinlistDataAdapter

def metadata (self : MarlonlpBinlistDataAdapter) : SourceMetadata where
  sourceId := "marlonlp/binlist-data".toList
  displayName := "marlonlp/binlist-data".toList
  upstreamUrl := "https://github.com/marlonlp/binlist-data.git".toList
  license := some "CC BY 4.0".toList
  localPath := some self.localPath

/-- The record of one row. -/
def normalize (self : MarlonlpBinlistDataAdapter) (key iinStart : Str) (row : Row) :
    NormalizedSourceRecord where
  source := self.metadata
  rowKey := key
  iinStart := iinStart
  scheme := noneIfEmpty (row.get "brand".toList)
  type := noneIfEmpty (row.get "type".toList)
  category := noneIfEmpty (row.get "category".toList)
  issuerName := noneIfEmpty (row.get "issuer".toList)
  rawPayload := row

/-- `_normalize_rows`. -/
def normalizeRows (self : MarlonlpBinlistDataAdapter) (rows : List Row) :
    List NormalizedSourceRecord :=
  CardBinData.normalizeRows "bin".toList (pathName self.localPath) self.normalize rows

/-- The adapter over a file with the given rows. -/
def sourceAdapter (self : MarlonlpBinlistDataAdapter) (rows : List Row) : SourceAdapter :=
  ⟨self.metadata, self.normalizeRows rows⟩

end MarlonlpBinlistDataAdapter

/-- A bundled adapter with the rows of its file. -/
inductive BundledAdapter where
  | binlistData (adapter : BinlistDataAdapter) (rows : List Row)
  | venelinkochev (adapter : VenelinkochevBinListDataAdapter) (rows : List Row)
  | marlonlp (adapter : MarlonlpBinlistDataAdapter) (rows : List Row)

namespace BundledAdapter

/-- The adapter, whatever its source. -/
def sourceAdapter : BundledAdapter → SourceAdapter
  | binlistData adapter rows => adapter.sourceAdapter rows
  | venelinkochev adapter rows => adapter.sourceAdapter rows
  | marlonlp adapter rows => adapter.sourceAdapter rows

/-- The column of its keys. -/
def keyColumn : BundledAdapter → Str
  | binlistData _ _ => "iin_start".toList
  | venelinkochev _ _ => "BIN".toList
  | marlonlp _ _ => "bin".toList

/-- Its file. -/
def localPath : BundledAdapter → Str
  | binlistData adapter _ => adapter.localPath
  | venelinkochev adapter _ => adapter.localPath
  | marlonlp adapter _ => adapter.localPath

/-- The rows of its file. -/
def rows : BundledAdapter → List Row
  | binlistData _ rows => rows
  | venelinkochev _ rows => rows
  | marlonlp _ rows => rows

/-- The record of one row. -/
def normalize : BundledAdapter → Str → Str → Row → NormalizedSourceRecord
  | binlistData adapter _ => adapter.normalize
  | venelinkochev adapter _ => adapter.normalize
  | marlonlp adapter _ => adapter.normalize

/-- The three adapters share their loop. -/
theorem records_eq (self : BundledAdapter) : self.sourceAdapter.records =
    normalizeRows self.keyColumn (pathName self.localPath) self.normalize self.rows := by
  cases self <;> rfl

section Normalize

variable (self : BundledAdapter) (key iinStart : Str) (row : Row)

theorem source_normalize : (self.normalize key iinStart row).source =
    self.sourceAdapter.metadata := by
  cases self <;> rfl

theorem rowKey_normalize : (self.normalize key iinStart row).rowKey = key := by
  cases self <;> rfl

theorem iinStart_normalize : (self.normalize key iinStart row).iinStart = iinStart := by
  cases self <;> rfl

end Normalize

/-- Line `line` of the file is `row`, and its key is `k`. -/
def Emits (self : BundledAdapter) (k : Str) (line : Nat) (row : Row) : Prop :=
  (row, line) ∈ self.rows.zipIdx 2 ∧ usableKey self.keyColumn row = some k

/-- The record of a line. -/
def record (self : BundledAdapter) (k : Str) (line : Nat) (row : Row) : NormalizedSourceRecord :=
  self.normalize (rowKey (pathName self.localPath) line k) k row

/-- **The records of the file are those of the lines with a decimal key.** -/
theorem mem_records_iff {self : BundledAdapter} {r : NormalizedSourceRecord} :
    r ∈ self.sourceAdapter.records ↔
      ∃ k line row, self.Emits k line row ∧ r = self.record k line row := by
  rw [self.records_eq, normalizeRows, List.mem_filterMap]
  constructor
  · rintro ⟨⟨row, line⟩, hmem, hr⟩
    obtain ⟨k, hk, rfl⟩ := Option.map_eq_some_iff.mp hr
    exact ⟨k, line, row, ⟨hmem, hk⟩, rfl⟩
  · rintro ⟨k, line, row, ⟨hmem, hk⟩, rfl⟩
    exact ⟨(row, line), hmem, Option.map_eq_some_iff.mpr ⟨k, hk, rfl⟩⟩

end BundledAdapter

end CardBinData
