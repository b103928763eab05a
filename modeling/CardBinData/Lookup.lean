import CardBinData.Library.Sql
import CardBinData.Merge
import CardBinData.Tables
import Mathlib.Data.Prod.Lex

/-!
# The ranked lookup statement (`db/services.py:72-122`)

`lookupRecord` builds one `SELECT`: its `WHERE` is the disjunction of the conditions that the
query's candidates allow, its `ORDER BY` ranks the rows by the first condition they satisfy, then
by the `length` of `iin_start`, by `iin_start` itself and by `id`, and `LIMIT 1` keeps the first.
Conditions on the nullable range columns are three-valued (`Library.Truth`).
-/

namespace CardBinData

open Library (Truth caseWhen limitOne)

/-- `exact_8` and `exact_6`: `iin_start = candidate`. -/
def exactMatch (candidate : Str) (row : BinRecordModel) : Truth :=
  some (decide (row.iinStart = candidate))

/-- `range_8`. -/
def rangeMatch (candidate : Str) (row : BinRecordModel) : Truth :=
  Truth.allOf
    [Truth.isNotNull row.rangeStart8,
      Truth.compare (fun s => decide (s ≤ candidate)) row.rangeStart8,
      Truth.compare (fun e => decide (candidate ≤ e)) row.rangeEnd8]

/-- The `CASE` arms of `_lookup_statement`, in order; their conditions are also the disjuncts of
the `WHERE`. -/
def lookupArms (exact8Candidate exact6Candidate : Option Str) (row : BinRecordModel) :
    List (Truth × Nat) :=
  (match exact8Candidate with
    | some c => [(exactMatch c row, 0), (rangeMatch c row, 1)]
    | none => []) ++
  (match exact6Candidate with
    | some c => [(exactMatch c row, 2)]
    | none => [])

/-- `WHERE c₁ OR c₂ OR …`. -/
def lookupWhere (exact8Candidate exact6Candidate : Option Str) (row : BinRecordModel) : Truth :=
  Truth.anyOf ((lookupArms exact8Candidate exact6Candidate row).map Prod.fst)

/-- The `CASE` of the `ORDER BY`. -/
def lookupRank (exact8Candidate exact6Candidate : Option Str) (row : BinRecordModel) : Nat :=
  caseWhen (lookupArms exact8Candidate exact6Candidate row) 3

/-- `func.length`: SQLite counts the characters before the first U+0000. PostgreSQL counts all of
them, and stores no text with a U+0000. -/
def sqlLength (s : Str) : Nat := (s.takeWhile fun c => c ≠ '\x00').length

theorem sqlLength_eq_length {s : Str} (h : '\x00' ∉ s) : sqlLength s = s.length := by
  have hall : ∀ c ∈ s, decide (c ≠ '\x00') = true := fun c hc =>
    decide_eq_true fun heq => h (heq ▸ hc)
  rw [sqlLength, List.takeWhile_eq_self_iff.mpr hall]

/-- The `ORDER BY` key: rank, longest `iin_start`, greatest `iin_start`, `id`. -/
abbrev LookupKey := ℕ ×ₗ ℕᵒᵈ ×ₗ Strᵒᵈ ×ₗ ℕ

def lookupKey (exact8Candidate exact6Candidate : Option Str) (row : BinRecordModel) : LookupKey :=
  toLex (lookupRank exact8Candidate exact6Candidate row,
    toLex (OrderDual.toDual (sqlLength row.iinStart),
      toLex (OrderDual.toDual row.iinStart, row.id)))

/-- `_lookup_statement`, run on the rows of `bin_records`. -/
def lookupStatement (exact8Candidate exact6Candidate : Option Str) (rows : List BinRecordModel) :
    Option BinRecordModel :=
  limitOne (lookupKey exact8Candidate exact6Candidate)
    (rows.filter fun row => (lookupWhere exact8Candidate exact6Candidate row).holds)

/-- The first candidate of a given length. -/
def candidateOfLength (n : Nat) (query : LookupQuery) : Option Str :=
  query.candidates.find? fun c => decide (c.length = n)

/-- `BinRecordService.lookup_record`. -/
def lookupRecord (rows : List BinRecordModel) (query : LookupQuery) : Option BinRecordModel :=
  let exact8Candidate := candidateOfLength eightDigitPrefixLength query
  let exact6Candidate := candidateOfLength sixDigitPrefixLength query
  if exact8Candidate.isNone && exact6Candidate.isNone then none
  else lookupStatement exact8Candidate exact6Candidate rows

end CardBinData
