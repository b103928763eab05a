import CardBinData.Staging

/-!
# Staging is a lossless stable sort

The encoder `_record_values` is a tuple, matched by position with the columns of
`_STAGING_INSERT_SQL`; the decoder `_record_from_row` reads the columns of `_STAGING_SELECT_SQL`
by name. `recordFromSqliteRow_selectRow` says that the two lists agree with the encoder and the
decoder in all 20 places, so that a staged row is `recordValues` and decodes as the import model
has it.

`staging_roundTrip` is about whole runs: after any sequence of `insert_records` the stage gives
back each record once, in the stable order by `iin_start`, and as `ReadBack` says.
-/

namespace CardBinData

open Library (Dict Gen Triple stableSort perm_stableSort pairwise_stableSort filter_stableSort
  map_stableSort)

/-! ## Rows by position and by name -/

/-- The columns of `source_records`. -/
inductive StagingColumn where
  | ordinal
  | sourceId
  | rowKey
  | iinStart
  | iinEnd
  | numberLength
  | luhn
  | scheme
  | productBrand
  | type
  | category
  | prepaid
  | countryAlpha2
  | countryAlpha3
  | countryName
  | issuerName
  | issuerPhone
  | issuerUrl
  | issuerCity
  | rawPayload
  deriving DecidableEq, Repr

/-- A value as SQLite stores it. -/
inductive SqliteValue where
  | null
  | integer (n : Int)
  | text (s : Str)
  deriving DecidableEq

/-- `None`, or an integer. -/
def SqliteValue.ofInt : Option Int → SqliteValue
  | none => .null
  | some n => .integer n

/-- `None`, or a string. -/
def SqliteValue.ofText : Option Str → SqliteValue
  | none => .null
  | some s => .text s

/-- The columns of `_STAGING_INSERT_SQL`. -/
def stagingInsertColumns : List StagingColumn :=
  [.ordinal, .sourceId, .rowKey, .iinStart, .iinEnd, .numberLength, .luhn, .scheme, .productBrand,
    .type, .category, .prepaid, .countryAlpha2, .countryAlpha3, .countryName, .issuerName,
    .issuerPhone, .issuerUrl, .issuerCity, .rawPayload]

/-- The columns of `_STAGING_SELECT_SQL`. -/
def stagingSelectColumns : List StagingColumn :=
  [.ordinal, .sourceId, .rowKey, .iinStart, .iinEnd, .numberLength, .luhn, .scheme, .productBrand,
    .type, .category, .prepaid, .countryAlpha2, .countryAlpha3, .countryName, .issuerName,
    .issuerPhone, .issuerUrl, .issuerCity, .rawPayload]

/-- The tuple of `_record_values`. -/
def recordTuple (ordinal : Nat) (record : NormalizedSourceRecord) : List SqliteValue :=
  [.integer ordinal,
    .text record.source.sourceId,
    .text record.rowKey,
    .text record.iinStart,
    .ofText record.iinEnd,
    .ofInt record.numberLength,
    .ofInt (record.luhn.map fun b => if b then 1 else 0),
    .ofText record.scheme,
    .ofText record.productBrand,
    .ofText record.type,
    .ofText record.category,
    .ofInt (record.prepaid.map fun b => if b then 1 else 0),
    .ofText record.countryAlpha2,
    .ofText record.countryAlpha3,
    .ofText record.countryName,
    .ofText record.issuerName,
    .ofText record.issuerPhone,
    .ofText record.issuerUrl,
    .ofText record.issuerCity,
    .text (dumps record.rawPayload)]

/-- The row that `_STAGING_INSERT_SQL` stores for a tuple. -/
def insertRow (tuple : List SqliteValue) (column : StagingColumn) : SqliteValue :=
  ((stagingInsertColumns.zip tuple).lookup column).getD .null

/-- The `sqlite3.Row` that `_STAGING_SELECT_SQL` gives for a stored row. -/
def selectRow (stored : StagingColumn → SqliteValue) : List (StagingColumn × SqliteValue) :=
  stagingSelectColumns.map fun column => (column, stored column)

/-- `row[column]` of a column that holds integers or `NULL`. -/
def intColumn (row : List (StagingColumn × SqliteValue)) (column : StagingColumn) :
    Option (Option Int) :=
  match row.lookup column with
  | some .null => some none
  | some (.integer n) => some (some n)
  | _ => none

/-- `row[column]` of a column that holds texts or `NULL`. -/
def textColumn (row : List (StagingColumn × SqliteValue)) (column : StagingColumn) :
    Option (Option Str) :=
  match row.lookup column with
  | some .null => some none
  | some (.text s) => some (some s)
  | _ => none

/-- `_record_from_row`, reading a row by the names of its columns. -/
def recordFromSqliteRow (sourceMetadataById : Dict Str SourceMetadata)
    (row : List (StagingColumn × SqliteValue)) : Option NormalizedSourceRecord := do
  let sourceId ← (← textColumn row .sourceId)
  let source ← sourceMetadataById.get? sourceId
  return {
    source := source
    rowKey := ← (← textColumn row .rowKey)
    iinStart := ← (← textColumn row .iinStart)
    iinEnd := ← textColumn row .iinEnd
    numberLength := ← intColumn row .numberLength
    luhn := (← intColumn row .luhn).map fun n => decide (n ≠ 0)
    scheme := ← textColumn row .scheme
    productBrand := ← textColumn row .productBrand
    type := ← textColumn row .type
    category := ← textColumn row .category
    prepaid := (← intColumn row .prepaid).map fun n => decide (n ≠ 0)
    countryAlpha2 := ← textColumn row .countryAlpha2
    countryAlpha3 := ← textColumn row .countryAlpha3
    countryName := ← textColumn row .countryName
    issuerName := ← textColumn row .issuerName
    issuerPhone := ← textColumn row .issuerPhone
    issuerUrl := ← textColumn row .issuerUrl
    issuerCity := ← textColumn row .issuerCity
    rawPayloadJson := some (← (← textColumn row .rawPayload)) }

theorem intColumn_ofInt {row : List (StagingColumn × SqliteValue)} {column : StagingColumn}
    {n : Option Int} (h : row.lookup column = some (.ofInt n)) : intColumn row column = some n := by
  unfold intColumn
  rw [h]
  cases n <;> rfl

theorem textColumn_ofText {row : List (StagingColumn × SqliteValue)} {column : StagingColumn}
    {s : Option Str} (h : row.lookup column = some (.ofText s)) :
    textColumn row column = some s := by
  unfold textColumn
  rw [h]
  cases s <;> rfl

/-- **Encoder, columns and decoder agree**: a record written by position and read by name is the
record of its staged row, once the metadata of its source id is known. -/
theorem recordFromSqliteRow_selectRow (sourceMetadataById : Dict Str SourceMetadata)
    (ordinal : Nat) (record : NormalizedSourceRecord) :
    recordFromSqliteRow sourceMetadataById (selectRow (insertRow (recordTuple ordinal record))) =
      (sourceMetadataById.get? record.source.sourceId).map fun source =>
        stagedSourceRecord source (recordValues ordinal record) := by
  have htext : ∀ (column : StagingColumn) (s : Option Str),
      (selectRow (insertRow (recordTuple ordinal record))).lookup column = some (.ofText s) →
      textColumn (selectRow (insertRow (recordTuple ordinal record))) column = some s :=
    fun _ _ h => textColumn_ofText h
  have hint : ∀ (column : StagingColumn) (n : Option Int),
      (selectRow (insertRow (recordTuple ordinal record))).lookup column = some (.ofInt n) →
      intColumn (selectRow (insertRow (recordTuple ordinal record))) column = some n :=
    fun _ _ h => intColumn_ofInt h
  unfold recordFromSqliteRow
  rw [htext .sourceId (some record.source.sourceId) rfl, htext .rowKey (some record.rowKey) rfl,
    htext .iinStart (some record.iinStart) rfl, htext .iinEnd record.iinEnd rfl,
    hint .numberLength record.numberLength rfl,
    hint .luhn (record.luhn.map fun b => if b then 1 else 0) rfl, htext .scheme record.scheme rfl,
    htext .productBrand record.productBrand rfl, htext .type record.type rfl,
    htext .category record.category rfl,
    hint .prepaid (record.prepaid.map fun b => if b then 1 else 0) rfl,
    htext .countryAlpha2 record.countryAlpha2 rfl, htext .countryAlpha3 record.countryAlpha3 rfl,
    htext .countryName record.countryName rfl, htext .issuerName record.issuerName rfl,
    htext .issuerPhone record.issuerPhone rfl, htext .issuerUrl record.issuerUrl rfl,
    htext .issuerCity record.issuerCity rfl,
    htext .rawPayload (some (dumps record.rawPayload)) rfl]
  cases h : sourceMetadataById.get? record.source.sourceId with
  | none => simp [h]
  | some source => simp [h, stagedSourceRecord, recordValues]

/-! ## Whole runs -/

variable {env : Environment}

/-- `insert_records` for each of `batches`, then everything `iter_records` yields. -/
def stageAndRead (env : Environment) (batches : List (List NormalizedSourceRecord)) :
    Run (List NormalizedSourceRecord) := do
  batches.foldlM (fun _ batch => insertRecords env batch) ()
  (iterRecords env).fold (fun out record => pure (out ++ [record])) []

/-- How a record comes back: its key and fields, the metadata first seen for its source id, its
raw payload as text. -/
structure ReadBack (records : List NormalizedSourceRecord)
    (inserted yielded : NormalizedSourceRecord) : Prop where
  rowKey : yielded.rowKey = inserted.rowKey
  iinStart : yielded.iinStart = inserted.iinStart
  getattr : ∀ f, yielded.getattr f = inserted.getattr f
  source : ∃ first, records.find? (fun r => decide (r.source.sourceId = inserted.source.sourceId)) =
    some first ∧ yielded.source = first.source
  rawPayloadJson : yielded.rawPayloadJson = some (dumps inserted.rawPayload)

theorem readBack_restored {records : List NormalizedSourceRecord} {r : NormalizedSourceRecord}
    (hr : r ∈ records) : ReadBack records r (restored (firstSeen records) r) where
  rowKey := rfl
  iinStart := rfl
  getattr := getattr_restored _ r
  source := by
    obtain ⟨m, hm⟩ := exists_firstSeen hr
    have hfind := hm
    rw [get?_firstSeen, Option.map_eq_some_iff] at hfind
    obtain ⟨first, hfirst, rfl⟩ := hfind
    refine ⟨first, hfirst, ?_⟩
    change ((firstSeen records).get? r.source.sourceId).getD r.source = first.source
    rw [hm, Option.getD_some]
  rawPayloadJson := rfl

/-- **Every sequence of calls appends its batches to the stage.** -/
theorem insertAll_triple (batches : List (List NormalizedSourceRecord)) :
    Triple (fun w => w.stage = {}) (batches.foldlM (fun _ batch => insertRecords env batch) ())
      (fun _ w => StageHolds batches.flatten w.stage)
      fun e _ => StagingRaises env batches.flatten e := by
  have hstep : ∀ done batch rest (b : Unit), batches = done ++ batch :: rest →
      Triple (fun w => StageHolds done.flatten w.stage) (insertRecords env batch)
        (fun _ w => StageHolds (done ++ [batch]).flatten w.stage)
        fun e _ => StagingRaises env batches.flatten e := by
    intro done batch rest _ hl
    have hsub : ∀ r ∈ batch, r ∈ batches.flatten := fun r hr =>
      List.mem_flatten.mpr ⟨batch, by simp [hl], hr⟩
    rw [List.flatten_append, List.flatten_singleton]
    exact insertRecords_triple hsub
  exact (Triple.foldlM hstep ()).conseq (fun w hw => hw ▸ stageHolds_nil) (fun _ _ h => h)
    fun _ _ h => h

/-- **Reading the stage collects the staged records, stably sorted.** -/
theorem readAll_triple (env : Environment) (records : List NormalizedSourceRecord) :
    Triple (fun w => StageHolds records w.stage)
      ((iterRecords env).fold (fun out record => pure (out ++ [record])) [])
      (fun out _ => out = stableSort NormalizedSourceRecord.iinStart (stagedRecords records))
      fun e _ => StagingRaises env records e := by
  refine ((iterRecords_yields env records) (fun out record => pure (out ++ [record]))
    (fun done out _ => out = done) (fun e _ => StagingRaises env records e)
    (fun _ _ _ _ _ h => h) (fun _ _ _ _ _ _ _ hown => ?_) (fun done record _ out _ => ?_) []).conseq
    (fun _ hw => ⟨hw, rfl⟩) (fun _ _ h => h) fun _ _ h => h
  · obtain ⟨rfl, hfaulty⟩ := hown
    exact hfaulty
  · exact Triple.pure fun _ h => congrArg (· ++ [record]) h

/-- **Staging is a lossless stable sort.** After any calls of `insert_records`, `iter_records`
yields each record once, ordered by `iin_start` and then by insertion, and as it was inserted. A
run raises only where a fault comes in, or where an integer does not fit into 64 bits. What goes
through SQLite by position comes back by name. -/
theorem staging_roundTrip (env : Environment) (batches : List (List NormalizedSourceRecord)) :
    Triple (fun w => w.stage = {}) (stageAndRead env batches)
      (fun out _ => ∃ sorted : List NormalizedSourceRecord, sorted.Perm batches.flatten ∧
        sorted.Pairwise (fun a b => a.iinStart ≤ b.iinStart) ∧
        (∀ k, sorted.filter (fun r => decide (r.iinStart = k)) =
          batches.flatten.filter fun r => decide (r.iinStart = k)) ∧
        List.Forall₂ (ReadBack batches.flatten) sorted out)
      (fun e _ => StagingRaises env batches.flatten e) ∧
    ∀ (sourceMetadataById : Dict Str SourceMetadata) (ordinal : Nat)
      (record : NormalizedSourceRecord),
      recordFromSqliteRow sourceMetadataById (selectRow (insertRow (recordTuple ordinal record))) =
        (sourceMetadataById.get? record.source.sourceId).map fun source =>
          stagedSourceRecord source (recordValues ordinal record) := by
  refine ⟨?_, recordFromSqliteRow_selectRow⟩
  refine (insertAll_triple batches).bind fun _ =>
    (readAll_triple env batches.flatten).conseq (fun _ h => h) (fun out _ hout => ?_)
      fun _ _ h => h
  refine ⟨stableSort NormalizedSourceRecord.iinStart batches.flatten, perm_stableSort _ _,
    pairwise_stableSort _ _, filter_stableSort _ _, ?_⟩
  have hmap : out = (stableSort NormalizedSourceRecord.iinStart batches.flatten).map
      (restored (firstSeen batches.flatten)) := by
    rw [hout, stagedRecords, ← map_stableSort]
    rfl
  rw [hmap, List.forall₂_map_right_iff, List.forall₂_same]
  exact fun r hr => readBack_restored ((perm_stableSort _ _).mem_iff.mp hr)

end CardBinData
