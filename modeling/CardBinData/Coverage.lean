import CardBinData.ImportedTables

/-!
# Ranges: what is covered, and what an answer may exclude

A record covers the 8-digit prefixes from its padded `iin_start` to its padded `iin_end` (`Spans`).
The merge keeps one `iin_end` for each `iin_start` (`keptEnd`), and the lookup finds an 8-digit
candidate exactly when some key matches it or some kept range spans it (`lookup_found_iff`).

* `coverage_of_import`: of the range of a source record, exactly the part above the kept end may be
  lost; `coverage_lost_second_end` loses some.
* `lookup_within_range`: an answer starts at or below the candidate, and ends below it only when it
  matched exactly; `exact_answer_excludes_query` is such an answer.
* `sixDigits_of_import`: a 6-digit query is found only as a stored key, although what extends it may
  be found in a range; `sixDigits_inside_range` is a BIN inside a stored range that is not found.
-/

namespace CardBinData

open Library

/-- The padded bounds contain `c`. -/
def Spans (iinStart iinEnd c : Str) : Prop :=
  ljust iinStart eightDigitPrefixLength '0' ≤ c ∧ c ≤ ljust iinEnd eightDigitPrefixLength '9'

instance (iinStart iinEnd c : Str) : Decidable (Spans iinStart iinEnd c) :=
  inferInstanceAs (Decidable (_ ∧ _))

/-- The `iin_end` the merge keeps for a key: that of its first `binlist/data` record with one. -/
def keptEnd (records : List NormalizedSourceRecord) (k : Str) : Option Str :=
  records.findSome? fun r =>
    if r.iinStart = k ∧ r.source.sourceId = primarySourceId then r.iinEnd else none

theorem iinEnd_mergedOf (records : List NormalizedSourceRecord) (k : Str) :
    (mergedOf records k).record.iinEnd = keptEnd records k := by
  change (mergeGroup k _ _).1.getattr .iinEnd = _
  have hcross : FieldName.iinEnd ∉ crossPrefixFieldNames := by decide
  rw [getattr_mergeGroup, mergedValues_fst, if_neg hcross, Option.or_none]
  unfold mergedValue supplier
  have hpriority : fieldPriority .iinEnd = [primarySourceId] := rfl
  rw [hpriority, List.findSome?_cons, List.findSome?_nil]
  unfold exactGroup keptEnd
  induction records with
  | nil => rfl
  | cons r records ih =>
    rw [List.filter_cons, List.findSome?_cons]
    by_cases hk : r.iinStart = k
    · rw [if_pos (decide_eq_true hk), List.findSome?_cons]
      by_cases hs : r.source.sourceId = primarySourceId
      · rw [if_pos hs, if_pos ⟨hk, hs⟩]
        have hget : r.getattr .iinEnd = r.iinEnd := rfl
        rw [hget]
        cases r.iinEnd with
        | none => exact ih
        | some e => rfl
      · rw [if_neg hs, if_neg fun h => hs h.2]
        exact ih
    · rw [if_neg (by simp [hk]), if_neg fun h => hk h.1]
      exact ih

/-! ## Lookups in the dataset of the records -/

/-- `c` matches a key of the records, or the range kept for one. -/
def Covered (records : List NormalizedSourceRecord) (c : Str) : Prop :=
  ∃ r ∈ records, r.iinStart = c ∨ r.iinStart = c.take sixDigitPrefixLength ∨
    ∃ e, keptEnd records r.iinStart = some e ∧ Spans r.iinStart e c

section Represents

variable {db : Database} {records : List NormalizedSourceRecord} {storeRawPayload : Bool}
  {importedAt : Int} (h : db.Represents (datasetOf records storeRawPayload importedAt))
include h

/-- The end of a row is the one kept for its key. -/
theorem iinEnd_row {row : BinRecordModel} (hrow : row ∈ db.binRecords) :
    row.iinEnd = keptEnd records row.iinStart :=
  calc row.iinEnd
      = (mergedOf (stagedRecords records) row.iinStart).record.iinEnd :=
        congrArg BinRecordValues.iinEnd (row_values h hrow).2
    _ = (mergedOf records row.iinStart).record.iinEnd :=
        getattr_mergedOf_staged records row.iinStart .iinEnd
    _ = keptEnd records row.iinStart := iinEnd_mergedOf records row.iinStart

/-- The stored bounds of a row are its key and its end, padded. -/
theorem inRange_iff {row : BinRecordModel} (hrow : row ∈ db.binRecords) {c : Str} :
    InRange row c ↔ ∃ e, row.iinEnd = some e ∧ Spans row.iinStart e c := by
  have hvalues := (row_values h hrow).2
  have hend : row.iinEnd = (mergedOf (stagedRecords records) row.iinStart).record.iinEnd :=
    congrArg BinRecordValues.iinEnd hvalues
  have hstart8 : row.rangeStart8 = _ := congrArg BinRecordValues.rangeStart8 hvalues
  have hend8 : row.rangeEnd8 = _ := congrArg BinRecordValues.rangeEnd8 hvalues
  unfold InRange
  rw [hstart8, hend8, hend]
  unfold binRecordValues rangeBoundaries8
  cases (mergedOf (stagedRecords records) row.iinStart).record.iinEnd with
  | none => simp
  | some e => simp [Spans, iinStart_mergedOf]

/-- An accepted lookup shows the row of the documented answer. -/
theorem lookup_answer {value : Str} {validateLuhn : Bool}
    (hstatus : (normalizeLookupInput value validateLuhn).status ≠ .invalid) (backend : Backend) :
    ∃ answer result,
      DocumentedAnswer db.binRecords (normalizeLookupInput value validateLuhn).query answer ∧
      lookupWithSession backend db value validateLuhn = some result ∧
      (result.status = .found ↔ answer.isSome) ∧ result.data = answer.map binInfo := by
  have hdoc := documented_lookupRecord db.binRecords (normalizeLookupInput value validateLuhn).query
  cases hrec : lookupRecord db.binRecords (normalizeLookupInput value validateLuhn).query with
  | none =>
    rw [hrec] at hdoc
    unfold lookupWithSession
    simp only [if_neg hstatus, hrec]
    exact ⟨none, _, hdoc, rfl, by simp, rfl⟩
  | some row =>
    rw [hrec] at hdoc
    obtain ⟨result, hresult, hfound, hdata, -⟩ :=
      lookup_of_lookupRecord h hstatus hdoc.mem hrec backend
    exact ⟨some row, result, hdoc, hresult, by simp [hfound], hdata⟩

/-- **An 8-digit candidate is found exactly when it is covered.** -/
theorem lookup_found_iff {value c : Str} {validateLuhn : Bool}
    (hc : candidateOfLength eightDigitPrefixLength
      (normalizeLookupInput value validateLuhn).query = some c) (backend : Backend) :
    ∃ result, lookupWithSession backend db value validateLuhn = some result ∧
      (result.status = .found ↔ Covered records c) := by
  obtain ⟨hstatus, -, -, hc6⟩ := candidates_of_eightDigit hc
  obtain ⟨answer, result, hdoc, hresult, hfound, -⟩ := lookup_answer h hstatus backend
  refine ⟨result, hresult, hfound.trans ⟨fun hsome => ?_, fun hcov => ?_⟩⟩
  · obtain ⟨row, rfl⟩ := Option.isSome_iff_exists.mp hsome
    obtain ⟨r, hr, hk⟩ := (row_values h hdoc.mem).1
    refine ⟨r, hr, ?_⟩
    rw [hk]
    cases hdoc with
    | exact8 hc' _ hk' => exact Or.inl (hk'.trans (Option.some.inj (hc'.symm.trans hc)))
    | range hc' _ hrow hin _ =>
      obtain rfl := Option.some.inj (hc'.symm.trans hc)
      rw [inRange_iff h hrow, iinEnd_row h hrow] at hin
      exact Or.inr (Or.inr hin)
    | exact6 _ hc' _ hk' =>
      exact Or.inr (Or.inl (hk'.trans (Option.some.inj (hc'.symm.trans hc6))))
  · obtain ⟨r, hr, hmatch⟩ := hcov
    obtain ⟨row, hrow, hk⟩ := exists_row h ⟨r, hr, rfl⟩
    rw [← hk] at hmatch
    cases hdoc with
    | exact8 => rfl
    | range => rfl
    | exact6 => rfl
    | notFound hno hno6 =>
      rcases hmatch with hmatch | hmatch | hmatch
      · exact absurd hmatch (hno c hc row hrow).1
      · exact absurd hmatch (hno6 _ hc6 row hrow)
      · rw [← iinEnd_row h hrow, ← inRange_iff h hrow] at hmatch
        exact absurd hmatch (hno c hc row hrow).2

/-- A lookup with an 8-digit candidate shows a record that starts at or below it; when the record
ends below it, the match was exact. -/
theorem spans_or_exact {value c : Str} {validateLuhn : Bool}
    (hc : candidateOfLength eightDigitPrefixLength
      (normalizeLookupInput value validateLuhn).query = some c) {row : BinRecordModel}
    (hdoc : DocumentedAnswer db.binRecords (normalizeLookupInput value validateLuhn).query
      (some row)) {e : Str} (hend : row.iinEnd = some e) :
    Spans row.iinStart e c ∨ row.iinStart = c ∨ row.iinStart = c.take sixDigitPrefixLength := by
  cases hdoc with
  | exact8 hc' _ hk => exact Or.inr (Or.inl (hk.trans (Option.some.inj (hc'.symm.trans hc))))
  | range hc' _ hrow hin _ =>
    obtain rfl := Option.some.inj (hc'.symm.trans hc)
    obtain ⟨e', he', hspans⟩ := (inRange_iff h hrow).mp hin
    obtain rfl := Option.some.inj (he'.symm.trans hend)
    exact Or.inl hspans
  | exact6 _ hc' _ hk =>
    have hc6 := (candidates_of_eightDigit hc).2.2.2
    exact Or.inr (Or.inr (hk.trans (Option.some.inj (hc'.symm.trans hc6))))

end Represents

/-! ## Coverage -/

/-- One to eight ASCII digits. -/
def IsBound (s : Str) : Prop :=
  AsciiDigits s ∧ 1 ≤ s.length ∧ s.length ≤ eightDigitPrefixLength

instance (s : Str) : Decidable (IsBound s) := inferInstanceAs (Decidable (_ ∧ _))

/-- Every 8-digit prefix in the range of a `binlist/data` record is found. -/
def KeepsCoverage (backend : Backend) (records : List NormalizedSourceRecord) (db : Database) :
    Prop :=
  ∀ r ∈ records, r.source.sourceId = primarySourceId → ∀ e, r.iinEnd = some e →
    IsBound r.iinStart → IsBound e →
    ∀ c, AsciiDigits c → c.length = eightDigitPrefixLength → Spans r.iinStart e c →
    ∀ validateLuhn, ∃ result, lookupWithSession backend db c validateLuhn = some result ∧
      result.status = .found

/-- **What an import keeps of the range of a source record.** The merge keeps one end for its
`iin_start`, and a prefix in the range of the record is found exactly when it is not above that
end, or is matched exactly, or lies in the range kept for another `iin_start`. -/
theorem coverage_of_import (env : Environment) (adapters : List SourceAdapter)
    (storeRawPayload : Bool) (w : World) (backend : Backend) :
    Post (storeImportSources env adapters storeRawPayload w)
      (fun _ w' =>
        ∀ r ∈ emitted adapters, r.source.sourceId = primarySourceId → ∀ e, r.iinEnd = some e →
        ∃ kept, keptEnd (emitted adapters) r.iinStart = some kept ∧
        ∀ c, AsciiDigits c → c.length = eightDigitPrefixLength → Spans r.iinStart e c →
        ∀ validateLuhn, ∃ result,
          lookupWithSession backend w'.committed c validateLuhn = some result ∧
          (result.status = .found ↔
            c ≤ ljust kept eightDigitPrefixLength '9' ∨
            (∃ r' ∈ emitted adapters,
              r'.iinStart = c ∨ r'.iinStart = c.take sixDigitPrefixLength) ∨
            ∃ r' ∈ emitted adapters, r'.iinStart ≠ r.iinStart ∧
              ∃ e', keptEnd (emitted adapters) r'.iinStart = some e' ∧ Spans r'.iinStart e' c))
      fun _ w' => w'.committed = w.committed := by
  refine (storeImportSources_post env adapters storeRawPayload w).mono (fun _ w' h => ?_)
    fun _ _ h => h
  intro r hr hprimary e hend
  obtain ⟨kept, hkept⟩ : ∃ kept, keptEnd (emitted adapters) r.iinStart = some kept := by
    rw [← Option.isSome_iff_exists, keptEnd, List.findSome?_isSome_iff]
    exact ⟨r, hr, by simp [hprimary, hend]⟩
  refine ⟨kept, hkept, fun c hdigits hlen hspans validateLuhn => ?_⟩
  have hdec : isdecimal c = true := isdecimal_of_asciiDigits hdigits fun hnil => by
    rw [hnil] at hlen
    exact absurd hlen (by decide)
  obtain ⟨result, hresult, hfound⟩ :=
    lookup_found_iff h (candidateOfLength_eightDigits hdec hlen validateLuhn) backend
  refine ⟨result, hresult, hfound.trans ⟨?_, ?_⟩⟩
  · rintro ⟨r', hr', hk | hk | ⟨e', he', hin⟩⟩
    · exact Or.inr (Or.inl ⟨r', hr', Or.inl hk⟩)
    · exact Or.inr (Or.inl ⟨r', hr', Or.inr hk⟩)
    · by_cases hsame : r'.iinStart = r.iinStart
      · rw [hsame, hkept] at he'
        obtain rfl := Option.some.inj he'
        exact Or.inl hin.2
      · exact Or.inr (Or.inr ⟨r', hr', hsame, e', he', hin⟩)
  · rintro (hle | ⟨r', hr', hk⟩ | ⟨r', hr', -, e', he', hin⟩)
    · exact ⟨r, hr, Or.inr (Or.inr ⟨kept, hkept, hspans.1, hle⟩)⟩
    · exact ⟨r', hr', hk.imp_right Or.inl⟩
    · exact ⟨r', hr', Or.inr (Or.inr ⟨e', he', hin⟩)⟩

/-- A `binlist/data` adapter with the given rows: key, `iin_start` and `iin_end`. -/
def primaryAdapter (rows : List (String × String × String)) : SourceAdapter :=
  let metadata : SourceMetadata := ⟨primarySourceId, primarySourceId, [], none, none⟩
  ⟨metadata, rows.map fun row =>
    { source := metadata
      rowKey := row.1.toList
      iinStart := row.2.1.toList
      iinEnd := some row.2.2.toList }⟩

/-- Two rows with one `iin_start`: the end of the second is not kept. -/
theorem coverage_lost_second_end :
    ¬ Post (storeImportSources Environment.quiet
        [primaryAdapter [("2", "123456", "123456"), ("3", "123456", "123457")]] true {})
      (fun _ w' => KeepsCoverage Backend.sequential
        (emitted [primaryAdapter [("2", "123456", "123456"), ("3", "123456", "123457")]])
        w'.committed)
      fun _ _ => True := by
  have hlost : returns (storeImportSources Environment.quiet
      [primaryAdapter [("2", "123456", "123456"), ("3", "123456", "123457")]] true {})
      (fun _ w' => decide ((lookupWithSession Backend.sequential w'.committed
        "12345700".toList false).map (·.status) = some .notFound)) = true := by decide +kernel
  have hbounds : IsBound "123456".toList ∧ IsBound "123457".toList ∧
      AsciiDigits "12345700".toList ∧ Spans "123456".toList "123457".toList "12345700".toList := by
    decide +kernel
  refine not_post_of_returns hlost fun _ w' hstatus hkeeps => ?_
  obtain ⟨result, hresult, hfound⟩ := hkeeps _ (List.mem_cons_of_mem _ List.mem_cons_self) rfl
    "123457".toList rfl hbounds.1 hbounds.2.1 "12345700".toList hbounds.2.2.1 rfl hbounds.2.2.2
    false
  rw [hresult, decide_eq_true_eq, Option.map_some, hfound] at hstatus
  exact absurd hstatus (by decide)

/-! ## Answers that exclude the query -/

/-- A lookup with the 8-digit candidate `c` shows a record from `iinStart` to `iinEnd`. -/
def Answers (backend : Backend) (db : Database) (c iinStart iinEnd : Str) : Prop :=
  ∃ value validateLuhn result info,
    candidateOfLength eightDigitPrefixLength (normalizeLookupInput value validateLuhn).query =
      some c ∧
    lookupWithSession backend db value validateLuhn = some result ∧ result.status = .found ∧
    result.data = some info ∧ info.iinStart = iinStart ∧ info.iinEnd = some iinEnd

/-- Every answer's range contains the candidate. -/
def AnswersWithinRange (backend : Backend) (db : Database) : Prop :=
  ∀ c iinStart iinEnd, Answers backend db c iinStart iinEnd →
    AsciiDigits iinStart → iinStart.length ≤ eightDigitPrefixLength →
    AsciiDigits iinEnd → iinEnd.length ≤ eightDigitPrefixLength → Spans iinStart iinEnd c

/-- A 6-digit record is the answer for a prefix beyond its end. -/
theorem exact_answer_excludes_query :
    ¬ Post (storeImportSources Environment.quiet
        [primaryAdapter [("2", "123456", "12345650")]] true {})
      (fun _ w' => AnswersWithinRange Backend.sequential w'.committed) fun _ _ => True := by
  have hanswer : returns (storeImportSources Environment.quiet
      [primaryAdapter [("2", "123456", "12345650")]] true {})
      (fun _ w' => decide (((lookupWithSession Backend.sequential w'.committed
        "12345699".toList false).bind (·.data)).map (fun info => (info.iinStart, info.iinEnd)) =
          some ("123456".toList, some "12345650".toList) ∧
        (lookupWithSession Backend.sequential w'.committed "12345699".toList false).map
          (·.status) = some .found)) = true := by decide +kernel
  have hbounds : AsciiDigits "123456".toList ∧ AsciiDigits "12345650".toList ∧
      ¬ Spans "123456".toList "12345650".toList "12345699".toList := by decide +kernel
  refine not_post_of_returns hanswer fun _ w' hshown hwithin => ?_
  obtain ⟨hdata, hstatus⟩ := of_decide_eq_true hshown
  obtain ⟨info, hinfo, hends⟩ := Option.map_eq_some_iff.mp hdata
  obtain ⟨result, hresult, hresinfo⟩ := Option.bind_eq_some_iff.mp hinfo
  rw [hresult, Option.map_some, Option.some.injEq] at hstatus
  obtain ⟨hstart, hend⟩ := Prod.mk.inj hends
  have hspans := hwithin "12345699".toList "123456".toList "12345650".toList
    ⟨_, false, result, info, by decide, hresult, hstatus, hresinfo, hstart, hend⟩
    hbounds.1 (by decide) hbounds.2.1 (by decide)
  exact absurd hspans hbounds.2.2

/-- The range ends before it starts. -/
def Reversed (iinStart iinEnd : Str) : Prop :=
  ljust iinEnd eightDigitPrefixLength '9' < ljust iinStart eightDigitPrefixLength '0'

/-- The exact matches that may end below the candidate: those of a reversed range, and 6-digit
matches with a longer end, or of a candidate with a digit beyond `9`. -/
def ExactMatchMayEndBelow (iinStart iinEnd c : Str) : Prop :=
  (iinStart = c ∧ Reversed iinStart iinEnd) ∨
    (iinStart = c.take sixDigitPrefixLength ∧
      (Reversed iinStart iinEnd ∨ sixDigitPrefixLength < iinEnd.length ∨ ¬ AsciiDigits c))

/-- A 6-digit match with a short end spans the candidate. -/
theorem le_end_of_sixDigit {c e : Str} (hlen : c.length = eightDigitPrefixLength)
    (hdigits : AsciiDigits c) (hshort : e.length ≤ sixDigitPrefixLength)
    (hrange : ljust (c.take sixDigitPrefixLength) eightDigitPrefixLength '0' ≤
      ljust e eightDigitPrefixLength '9') : c ≤ ljust e eightDigitPrefixLength '9' := by
  unfold ljust at hrange ⊢
  rw [← hlen] at hrange ⊢
  exact le_padRight_of_take (by rw [hlen]; decide) hshort
    (fun a ha => le_nine_of_isAsciiDigit (hdigits a (List.mem_of_mem_drop ha))) hrange

/-- **An answer starts at or below the candidate, and ends below it only as an exact match** of a
reversed range, of a longer end, or of a candidate with a digit beyond `9`. -/
theorem lookup_within_range (env : Environment) (adapters : List SourceAdapter)
    (storeRawPayload : Bool) (w : World) (backend : Backend) :
    Post (storeImportSources env adapters storeRawPayload w)
      (fun _ w' => ∀ c iinStart iinEnd, Answers backend w'.committed c iinStart iinEnd →
        ljust iinStart eightDigitPrefixLength '0' ≤ c ∧
          (c ≤ ljust iinEnd eightDigitPrefixLength '9' ∨
            ExactMatchMayEndBelow iinStart iinEnd c))
      fun _ w' => w'.committed = w.committed := by
  refine (storeImportSources_post env adapters storeRawPayload w).mono (fun _ w' h => ?_)
    fun _ _ h => h
  rintro c iinStart iinEnd
    ⟨value, validateLuhn, result, info, hc, hresult, -, hdata, rfl, hend⟩
  obtain ⟨hstatus, hdec, hlen, -⟩ := candidates_of_eightDigit hc
  obtain ⟨answer, result', hdoc, hresult', -, hdata'⟩ := lookup_answer h hstatus backend
  obtain rfl := Option.some.inj (hresult'.symm.trans hresult)
  obtain ⟨row, rfl, rfl⟩ := Option.map_eq_some_iff.mp (hdata'.symm.trans hdata)
  change row.iinEnd = some iinEnd at hend
  change ljust row.iinStart _ _ ≤ c ∧ (_ ∨ ExactMatchMayEndBelow row.iinStart iinEnd c)
  rcases spans_or_exact h hc hdoc hend with hspans | hk | hk
  · exact ⟨hspans.1, Or.inl hspans.2⟩
  · -- an exact 8-digit match is its own padded start
    have hstart : ljust row.iinStart eightDigitPrefixLength '0' = c := by
      rw [hk, ljust_of_length_le hlen.ge]
    refine ⟨hstart.le, ?_⟩
    rcases le_or_gt c (ljust iinEnd eightDigitPrefixLength '9') with hle | hlt
    · exact Or.inl hle
    · exact Or.inr (Or.inl ⟨hk, hlt.trans_eq hstart.symm⟩)
  · have hstart : ljust row.iinStart eightDigitPrefixLength '0' ≤ c := by
      rw [hk, ljust, ← hlen]
      exact padRight_take_le (zero_le_of_isdecimal hdec) _
    refine ⟨hstart, ?_⟩
    by_cases hreversed : Reversed row.iinStart iinEnd
    · exact Or.inr (Or.inr ⟨hk, Or.inl hreversed⟩)
    by_cases hlong : sixDigitPrefixLength < iinEnd.length
    · exact Or.inr (Or.inr ⟨hk, Or.inr (Or.inl hlong)⟩)
    by_cases hdigits : AsciiDigits c
    · exact Or.inl (le_end_of_sixDigit hlen hdigits (not_lt.mp hlong) (hk ▸ not_lt.mp hreversed))
    · exact Or.inr (Or.inr ⟨hk, Or.inr (Or.inr hdigits)⟩)

/-! ## Six digits -/

/-- A 6-digit BIN. -/
def IsBin (s : Str) : Prop := AsciiDigits s ∧ s.length = sixDigitPrefixLength

instance (s : Str) : Decidable (IsBin s) := inferInstanceAs (Decidable (_ ∧ _))

/-- The lookup of `value` finds a record. -/
def Finds (backend : Backend) (db : Database) (value : Str) (validateLuhn : Bool) : Prop :=
  ∃ result, lookupWithSession backend db value validateLuhn = some result ∧ result.status = .found

/-- The 8-digit IINs that extend `b` are found. -/
def FindsExtensions (backend : Backend) (db : Database) (b : Str) : Prop :=
  ∀ c, AsciiDigits c → c.length = eightDigitPrefixLength → c.take sixDigitPrefixLength = b →
    ∀ validateLuhn, Finds backend db c validateLuhn

/-- `b` lies in the range of a stored record with 6-digit bounds. -/
def InSixDigitRange (db : Database) (b : Str) : Prop :=
  ∃ row ∈ db.binRecords, ∃ e, row.iinEnd = some e ∧ IsBin row.iinStart ∧ IsBin e ∧
    row.iinStart ≤ b ∧ b ≤ e

/-- Every 6-digit BIN in a 6-digit range is found, as its extensions are. -/
def SixDigitsAgree (backend : Backend) (db : Database) : Prop :=
  ∀ b, IsBin b → InSixDigitRange db b →
    (∀ validateLuhn, Finds backend db b validateLuhn) ∧ FindsExtensions backend db b

/-- A 6-digit BIN inside a range is not found. -/
theorem sixDigits_inside_range :
    ¬ Post (storeImportSources Environment.quiet
        [primaryAdapter [("2", "123456", "123458")]] true {})
      (fun _ w' => SixDigitsAgree Backend.sequential w'.committed) fun _ _ => True := by
  have hmissed : returns (storeImportSources Environment.quiet
      [primaryAdapter [("2", "123456", "123458")]] true {})
      (fun _ w' => decide ((w'.committed.binRecords.map fun row => (row.iinStart, row.iinEnd)) =
          [("123456".toList, some "123458".toList)] ∧
        (lookupWithSession Backend.sequential w'.committed "123457".toList false).map
          (·.status) = some .notFound)) = true := by decide +kernel
  have hbins : IsBin "123456".toList ∧ IsBin "123457".toList ∧ IsBin "123458".toList ∧
      "123456".toList ≤ "123457".toList ∧ "123457".toList ≤ "123458".toList := by decide +kernel
  refine not_post_of_returns hmissed fun _ w' hshown hagree => ?_
  obtain ⟨hrows, hstatus⟩ := of_decide_eq_true hshown
  obtain ⟨row, hrow, hends⟩ : ∃ row ∈ w'.committed.binRecords,
      (row.iinStart, row.iinEnd) = ("123456".toList, some "123458".toList) :=
    List.mem_map.mp (hrows ▸ List.mem_singleton_self _)
  obtain ⟨hstart, hend⟩ := Prod.mk.inj hends
  have hrange : InSixDigitRange w'.committed "123457".toList :=
    ⟨row, hrow, _, hend, hstart ▸ hbins.1, hbins.2.2.1, hstart ▸ hbins.2.2.2.1, hbins.2.2.2.2⟩
  obtain ⟨result, hresult, hfound⟩ := (hagree _ hbins.2.1 hrange).1 false
  rw [hresult, Option.map_some, hfound, Option.some.injEq] at hstatus
  exact absurd hstatus (by decide)

section Represents

variable {db : Database} {records : List NormalizedSourceRecord} {storeRawPayload : Bool}
  {importedAt : Int} (h : db.Represents (datasetOf records storeRawPayload importedAt))
include h

/-- **Six digits are found exactly when they are a stored key.** -/
theorem finds_sixDigits_iff {b : Str} (hdec : isdecimal b = true)
    (hlen : b.length = sixDigitPrefixLength) (backend : Backend) (validateLuhn : Bool) :
    Finds backend db b validateLuhn ↔ ∃ row ∈ db.binRecords, row.iinStart = b := by
  obtain ⟨hstatus, hcand⟩ := normalize_short hdec (Or.inl hlen) validateLuhn
  obtain ⟨h8, h6⟩ := candidateOfLength_sixDigits hlen
  rw [← hcand] at h8 h6
  obtain ⟨answer, result, hdoc, hresult, hfound, -⟩ := lookup_answer h hstatus backend
  have hiff : Finds backend db b validateLuhn ↔ answer.isSome := by
    refine Iff.trans ⟨?_, fun hf => ⟨result, hresult, hf⟩⟩ hfound
    rintro ⟨result', hresult', hf⟩
    rwa [← Option.some.inj (hresult'.symm.trans hresult)]
  rw [hiff]
  cases hdoc with
  | exact8 hc _ _ => exact absurd (h8.symm.trans hc) (by simp)
  | range hc _ _ _ _ => exact absurd (h8.symm.trans hc) (by simp)
  | exact6 _ hc hrow hk =>
    exact iff_of_true rfl ⟨_, hrow, hk.trans (Option.some.inj (hc.symm.trans h6))⟩
  | notFound _ hno6 =>
    refine iff_of_false (by simp) ?_
    rintro ⟨row, hrow, hk⟩
    exact hno6 b h6 row hrow hk

/-- A 6-digit range finds what extends a BIN in it. -/
theorem findsExtensions_of_inRange {b : Str} (hb : IsBin b) (hrange : InSixDigitRange db b)
    (backend : Backend) : FindsExtensions backend db b := by
  intro c hdigits hlen hcb validateLuhn
  obtain ⟨row, hrow, e, hend, hstart, he, hsb, hbe⟩ := hrange
  have hdec : isdecimal c = true := isdecimal_of_asciiDigits hdigits fun hnil => by
    rw [hnil] at hlen
    exact absurd hlen (by decide)
  have hspans : Spans row.iinStart e c := by
    constructor
    · calc ljust row.iinStart eightDigitPrefixLength '0'
          ≤ ljust b eightDigitPrefixLength '0' :=
            padRight_le_padRight (hstart.2.trans hb.2.symm) hsb le_rfl _
        _ ≤ c := by
            rw [← hcb, ← hlen]
            exact padRight_take_le (zero_le_of_isdecimal hdec) _
    · refine le_end_of_sixDigit hlen hdigits he.2.le ?_
      rw [hcb]
      exact padRight_le_padRight (hb.2.trans he.2.symm) hbe (by decide) _
  obtain ⟨result, hresult, hfound⟩ :=
    lookup_found_iff h (candidateOfLength_eightDigits hdec hlen validateLuhn) backend
  refine ⟨result, hresult, hfound.mpr ?_⟩
  obtain ⟨r, hr, hk⟩ := (row_values h hrow).1
  refine ⟨r, hr, Or.inr (Or.inr ⟨e, ?_, hk ▸ hspans⟩)⟩
  rw [hk, ← iinEnd_row h hrow, hend]

end Represents

/-- **A 6-digit query is an exact match, an 8-digit query also a range match.** What extends a BIN
in a stored 6-digit range is found; the BIN itself is found exactly when it is a stored key. -/
theorem sixDigits_of_import (env : Environment) (adapters : List SourceAdapter)
    (storeRawPayload : Bool) (w : World) (backend : Backend) :
    Post (storeImportSources env adapters storeRawPayload w)
      (fun _ w' => ∀ b, IsBin b →
        (InSixDigitRange w'.committed b → FindsExtensions backend w'.committed b) ∧
        ∀ validateLuhn, Finds backend w'.committed b validateLuhn ↔
          ∃ row ∈ w'.committed.binRecords, row.iinStart = b)
      fun _ w' => w'.committed = w.committed := by
  refine (storeImportSources_post env adapters storeRawPayload w).mono (fun _ w' h b hb => ?_)
    fun _ _ h => h
  have hdec : isdecimal b = true := isdecimal_of_asciiDigits hb.1 fun hnil => by
    rw [hnil] at hb
    exact absurd hb.2 (by decide)
  exact ⟨fun hrange => findsExtensions_of_inRange h hb hrange backend,
    finds_sixDigits_iff h hdec hb.2 backend⟩

end CardBinData
