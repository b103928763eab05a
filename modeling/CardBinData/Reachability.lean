import CardBinData.Coverage
import CardBinData.Sources

/-!
# Which stored rows a lookup can answer

The bundled adapters accept a decimal key of any length; the statement compares 8-digit candidates
with `iin_start` and with the stored ranges, and 6-digit candidates with `iin_start`. A row without
a range is therefore the answer of some lookup exactly when its key has 6 or 8 digits
(`reachable_of_import`): a key of 6 or 8 digits finds its own row, because a query prefers an exact
match and `iin_start` is unique. `sevenDigits_unreachable` is a row that no lookup answers.
-/

namespace CardBinData

open Library

/-- The row is the answer of a lookup whose input is accepted and begins with its key. -/
def Reachable (backend : Backend) (db : Database) (row : BinRecordModel) : Prop :=
  ∃ value validateLuhn result,
    (normalizeLookupInput value validateLuhn).status ≠ .invalid ∧
    row.iinStart <+: removeSeparators value ∧
    lookupRecord db.binRecords (normalizeLookupInput value validateLuhn).query = some row ∧
    lookupWithSession backend db value validateLuhn = some result ∧ result.status = .found ∧
    result.data = some (binInfo row)

/-- **An answer has a key of 6 or 8 digits, or a range.** -/
theorem length_of_lookupRecord {rows : List BinRecordModel} {query : LookupQuery}
    {row : BinRecordModel} (h : lookupRecord rows query = some row)
    (hrange : row.rangeStart8 = none) :
    row.iinStart.length = minPrefixLength ∨ row.iinStart.length = extendedPrefixLength := by
  have hdoc : DocumentedAnswer rows query (some row) := h ▸ documented_lookupRecord rows query
  cases hdoc with
  | exact8 hc _ hk => exact Or.inr (hk ▸ length_of_candidateOfLength hc)
  | range _ _ _ hin _ =>
    obtain ⟨s, _, hs, -⟩ := hin
    exact absurd (hrange.symm.trans hs) (by simp)
  | exact6 _ hc _ hk => exact Or.inl (hk ▸ length_of_candidateOfLength hc)

section Represents

variable {db : Database} {records : List NormalizedSourceRecord} {storeRawPayload : Bool}
  {importedAt : Int} (h : db.Represents (datasetOf records storeRawPayload importedAt))
include h

/-- Where no record has an end, no row has a range. -/
theorem rangeStart8_eq_none (hends : ∀ r ∈ records, r.iinEnd = none) {row : BinRecordModel}
    (hrow : row ∈ db.binRecords) : row.rangeStart8 = none := by
  have hkept : keptEnd records row.iinStart = none := by
    unfold keptEnd
    rw [List.findSome?_eq_none_iff]
    intro r hr
    split
    · exact hends r hr
    · rfl
  have hend : row.iinEnd = none := (iinEnd_row h hrow).trans hkept
  have hvalues := (row_values h hrow).2
  have hvalue : row.iinEnd = (mergedOf (stagedRecords records) row.iinStart).record.iinEnd :=
    congrArg BinRecordValues.iinEnd hvalues
  have hstart8 : row.rangeStart8 = _ := congrArg BinRecordValues.rangeStart8 hvalues
  rw [hstart8]
  unfold binRecordValues rangeBoundaries8
  rw [← hvalue, hend]

/-- **A key of 6 or 8 ASCII digits reaches its row.** -/
theorem reachable_of_length {row : BinRecordModel} (hrow : row ∈ db.binRecords)
    (hdigits : AsciiDigits row.iinStart)
    (hlen : row.iinStart.length = minPrefixLength ∨ row.iinStart.length = extendedPrefixLength)
    (backend : Backend) : Reachable backend db row := by
  have hdec : isdecimal row.iinStart = true := by
    refine isdecimal_of_asciiDigits hdigits fun hnil => ?_
    rw [hnil] at hlen
    exact absurd hlen (by decide)
  have hstatus := (normalize_short hdec hlen false).1
  have hanswer := lookupRecord_of_iinStart (nodup_iinStart h) hrow hdec hlen false
  obtain ⟨result, hresult, hfound, hdata, -⟩ :=
    lookup_of_lookupRecord h hstatus hrow hanswer backend
  have hsame := removeSeparators_of_isdecimal hdec
  exact ⟨row.iinStart, false, result, hstatus, ⟨[], by rw [List.append_nil, hsame]⟩, hanswer,
    hresult, hfound, hdata⟩

end Represents

/-- **Which rows an import leaves within reach.** Of records with keys of one to eight ASCII digits
and without an end, a stored row is the answer of a lookup that begins with its key exactly when
the key has 6 or 8 digits. -/
theorem reachable_of_import (env : Environment) (adapters : List SourceAdapter)
    (storeRawPayload : Bool) (w : World) (backend : Backend) :
    Post (storeImportSources env adapters storeRawPayload w)
      (fun _ w' =>
        (∀ r ∈ emitted adapters, IsBound r.iinStart ∧ r.iinEnd = none) →
        ∀ row ∈ w'.committed.binRecords, Reachable backend w'.committed row ↔
          row.iinStart.length = minPrefixLength ∨ row.iinStart.length = extendedPrefixLength)
      fun _ w' => w'.committed = w.committed := by
  refine (storeImportSources_post env adapters storeRawPayload w).mono
    (fun _ w' h hrecords row hrow => ⟨fun hreach => ?_, fun hlen => ?_⟩) fun _ _ h => h
  · obtain ⟨_, _, _, -, -, hanswer, -⟩ := hreach
    exact length_of_lookupRecord hanswer
      (rangeStart8_eq_none h (fun r hr => (hrecords r hr).2) hrow)
  · obtain ⟨r, hr, hk⟩ := (row_values h hrow).1
    exact reachable_of_length h hrow (hk ▸ (hrecords r hr).1.1) hlen backend

/-- A file of `marlonlp/binlist-data` with one 7-digit key. -/
def sevenDigitsAdapter : SourceAdapter :=
  (BundledAdapter.marlonlp ⟨"bins.csv".toList⟩
    [Dict.ofPairs [(some "bin".toList, .text "4571736".toList)]]).sourceAdapter

/-- No lookup answers the row of a 7-digit key. -/
theorem sevenDigits_unreachable :
    ¬ Post (storeImportSources Environment.quiet [sevenDigitsAdapter] true {})
      (fun _ w' =>
        (∀ r ∈ emitted [sevenDigitsAdapter], IsBound r.iinStart ∧ r.iinEnd = none) →
        ∀ row ∈ w'.committed.binRecords, Reachable Backend.sequential w'.committed row)
      fun _ _ => True := by
  have hrun : returns (storeImportSources Environment.quiet [sevenDigitsAdapter] true {})
      (fun _ w' => decide ((w'.committed.binRecords.map fun row =>
        (row.iinStart, row.rangeStart8)) = [("4571736".toList, none)])) = true := by
    decide +kernel
  have hrecords : ∀ r ∈ emitted [sevenDigitsAdapter], IsBound r.iinStart ∧ r.iinEnd = none := by
    decide +kernel
  refine not_post_of_returns hrun fun _ w' hshown hreach => ?_
  obtain ⟨row, hrow, hcolumns⟩ : ∃ row ∈ w'.committed.binRecords,
      (row.iinStart, row.rangeStart8) = ("4571736".toList, none) :=
    List.mem_map.mp (of_decide_eq_true hshown ▸ List.mem_singleton_self _)
  obtain ⟨hstart, hrange⟩ := Prod.mk.inj hcolumns
  obtain ⟨_, _, _, -, -, hanswer, -⟩ := hreach hrecords row hrow
  have hlen := length_of_lookupRecord hanswer hrange
  rw [hstart] at hlen
  exact absurd hlen (by decide)

end CardBinData
