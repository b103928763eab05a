import CardBinData.Coverage
import CardBinData.Library.Numeral
import Mathlib.Data.Set.Card

/-!
# Ranges as intervals of numbers

The stored bounds are texts, padded to eight digits, and SQL compares them as texts. For ASCII
digits that is the order of the numbers (`le_iff_decimalValue_le`), so a range is an interval:
`rangeMatch_iff_interval` gives its ends from the unpadded `iin_start` and `iin_end`, and says that
a candidate is in it exactly when its first digits are not below `iin_start` and not above
`iin_end`.

`iins row` is the range as a set of 8-digit IINs. Of the ranges that hold a candidate the statement
takes the one with the longest and then the greatest `iin_start`. Among ranges with one length of
`iin_start` that is the narrowest, if they are nested (`lookup_narrowest_of_length`); a longer
`iin_start` may come with a wider range (`longer_start_is_wider`).
-/

namespace CardBinData

open Library

/-! ## The order of numbers -/

/-- The number that ASCII digits write. -/
def decimalValue (s : Str) : Nat := numeral 10 asciiDigitValue s

theorem pyInt_eq_decimalValue {s : Str} (h : IsBound s) :
    pyInt s = some (decimalValue s : Int) := by
  obtain ⟨hdigits, hpos, hle⟩ := h
  exact pyInt_of_asciiDigits hdigits (List.length_pos_iff.mp hpos) (hle.trans (by decide))

theorem strictMonoOn_asciiDigitValue :
    StrictMonoOn asciiDigitValue {c | isAsciiDigit c = true} := by
  intro c hc d _ hlt
  have h₁ : 0x30 ≤ c.toNat := zero_le_of_isAsciiDigit hc
  have hlt : c.toNat < d.toNat := hlt
  change c.toNat - 0x30 < d.toNat - 0x30
  omega

/-- **Words of ASCII digits of one length compare as their numbers.** -/
theorem le_iff_decimalValue_le {s t : Str} (hs : AsciiDigits s) (ht : AsciiDigits t)
    (hlen : s.length = t.length) : s ≤ t ↔ decimalValue s ≤ decimalValue t :=
  numeral_le_numeral strictMonoOn_asciiDigitValue (fun _ h => asciiDigitValue_lt h) hs ht hlen

theorem asciiDigits_ljust {s : Str} (hs : AsciiDigits s) (n : Nat) {fill : Char}
    (hfill : isAsciiDigit fill = true) : AsciiDigits (ljust s n fill) := by
  intro c hc
  rcases List.mem_append.mp hc with hc | hc
  · exact hs c hc
  · rw [List.eq_of_mem_replicate hc]
    exact hfill

/-- Eight ASCII digits. -/
def IsIin (c : Str) : Prop := AsciiDigits c ∧ c.length = eightDigitPrefixLength

instance (c : Str) : Decidable (IsIin c) := inferInstanceAs (Decidable (_ ∧ _))

section Bounds

variable {s c : Str} (hs : AsciiDigits s) (hlen : s.length ≤ eightDigitPrefixLength)
  (hc : IsIin c)
include hs hlen hc

/-- `range_start_8 <= c`. -/
theorem padded_start_le_iff :
    ljust s eightDigitPrefixLength '0' ≤ c ↔
      decimalValue s * 10 ^ (eightDigitPrefixLength - s.length) ≤ decimalValue c := by
  rw [le_iff_decimalValue_le (asciiDigits_ljust hs _ rfl) hc.1
    (by rw [length_ljust, hc.2, max_eq_right hlen])]
  have hzero : asciiDigitValue '0' = 0 := rfl
  unfold decimalValue ljust
  rw [numeral_padRight_zero hzero]

/-- `range_end_8 >= c`. -/
theorem le_padded_end_iff :
    c ≤ ljust s eightDigitPrefixLength '9' ↔
      decimalValue c ≤ (decimalValue s + 1) * 10 ^ (eightDigitPrefixLength - s.length) - 1 := by
  rw [le_iff_decimalValue_le hc.1 (asciiDigits_ljust hs _ rfl)
    (by rw [length_ljust, hc.2, max_eq_right hlen])]
  have htop : asciiDigitValue '9' + 1 = 10 := rfl
  unfold decimalValue ljust
  rw [← numeral_padRight_top htop, Nat.add_sub_cancel]

omit hs hlen in
theorem decimalValue_take (k : Nat) :
    decimalValue (c.take k) = decimalValue c / 10 ^ (eightDigitPrefixLength - k) := by
  unfold decimalValue
  rw [numeral_take (by decide) (fun a ha => asciiDigitValue_lt (hc.1 a ha)), hc.2]

/-- The first digits are not below `s`. -/
theorem le_take_iff :
    s ≤ c.take s.length ↔
      decimalValue s * 10 ^ (eightDigitPrefixLength - s.length) ≤ decimalValue c := by
  rw [le_iff_decimalValue_le hs (fun a ha => hc.1 a (List.mem_of_mem_take ha))
      (by rw [List.length_take, hc.2, min_eq_left hlen]),
    decimalValue_take hc, Nat.le_div_iff_mul_le (Nat.pow_pos (by decide))]

/-- The first digits are not above `s`. -/
theorem take_le_iff :
    c.take s.length ≤ s ↔
      decimalValue c ≤ (decimalValue s + 1) * 10 ^ (eightDigitPrefixLength - s.length) - 1 := by
  have hblock : 0 < 10 ^ (eightDigitPrefixLength - s.length) := Nat.pow_pos (by decide)
  have hpos : 0 < (decimalValue s + 1) * 10 ^ (eightDigitPrefixLength - s.length) :=
    Nat.mul_pos (Nat.succ_pos _) hblock
  rw [le_iff_decimalValue_le (fun a ha => hc.1 a (List.mem_of_mem_take ha)) hs
      (by rw [List.length_take, hc.2, min_eq_left hlen]),
    decimalValue_take hc, ← Nat.lt_succ_iff, Nat.div_lt_iff_lt_mul hblock,
    Nat.le_sub_one_iff_lt hpos]

end Bounds

/-- The stored condition, as comparisons of the padded bounds. -/
theorem holds_rangeMatch_binRecordValues (record : NormalizedSourceRecord) (id : Nat) (c : Str) :
    (rangeMatch c ⟨binRecordValues record, id⟩).holds = true ↔
      ∃ e, record.iinEnd = some e ∧ Spans record.iinStart e c := by
  rw [holds_rangeMatch]
  unfold InRange binRecordValues rangeBoundaries8
  cases record.iinEnd with
  | none => simp
  | some e => simp [Spans]

/-- **The text range test is membership in an interval of numbers.** A record without an end is
never in range. One with bounds of one to eight ASCII digits has, of the 8-digit candidates, those
between its start, filled with zeros, and the last number before the block after its end; and these
are the candidates whose first digits compare so with the bounds. -/
theorem rangeMatch_iff_interval (record : NormalizedSourceRecord) (id : Nat) :
    (record.iinEnd = none → ∀ c, (rangeMatch c ⟨binRecordValues record, id⟩).holds = false) ∧
    ∀ e, record.iinEnd = some e → IsBound record.iinStart → IsBound e → ∀ c, IsIin c →
      (pyInt record.iinStart = some (decimalValue record.iinStart : Int) ∧
        pyInt e = some (decimalValue e : Int) ∧ pyInt c = some (decimalValue c : Int)) ∧
      ((rangeMatch c ⟨binRecordValues record, id⟩).holds = true ↔
        decimalValue record.iinStart * 10 ^ (eightDigitPrefixLength - record.iinStart.length) ≤
            decimalValue c ∧
          decimalValue c ≤
            (decimalValue e + 1) * 10 ^ (eightDigitPrefixLength - e.length) - 1) ∧
      ((rangeMatch c ⟨binRecordValues record, id⟩).holds = true ↔
        record.iinStart ≤ c.take record.iinStart.length ∧ c.take e.length ≤ e) := by
  refine ⟨fun hnone c => ?_, fun e he hstart hend c hc => ?_⟩
  · rw [Bool.eq_false_iff, ne_eq, holds_rangeMatch_binRecordValues, hnone]
    simp
  have hspans : (rangeMatch c ⟨binRecordValues record, id⟩).holds = true ↔
      Spans record.iinStart e c := by
    rw [holds_rangeMatch_binRecordValues, he]
    simp
  have hbound : IsBound c := ⟨hc.1, by rw [hc.2]; decide, hc.2.le⟩
  refine ⟨⟨pyInt_eq_decimalValue hstart, pyInt_eq_decimalValue hend,
    pyInt_eq_decimalValue hbound⟩, ?_, ?_⟩
  · rw [hspans, Spans, padded_start_le_iff hstart.1 hstart.2.2 hc,
      le_padded_end_iff hend.1 hend.2.2 hc]
  · rw [hspans, Spans, padded_start_le_iff hstart.1 hstart.2.2 hc,
      le_padded_end_iff hend.1 hend.2.2 hc, le_take_iff hstart.1 hstart.2.2 hc,
      take_le_iff hend.1 hend.2.2 hc]

/-! ## The narrowest range -/

/-- The 8-digit IINs in the range of a row. -/
def iins (row : BinRecordModel) : Set Str := {c | IsIin c ∧ InRange row c}

/-- There are finitely many IINs. -/
theorem finite_iins (row : BinRecordModel) : (iins row).Finite := by
  have hinj : Set.InjOn decimalValue {c | IsIin c} := fun c hc d hd heq =>
    le_antisymm ((le_iff_decimalValue_le hc.1 hd.1 (hc.2.trans hd.2.symm)).mpr heq.le)
      ((le_iff_decimalValue_le hd.1 hc.1 (hd.2.trans hc.2.symm)).mpr heq.ge)
  have hmaps : Set.MapsTo decimalValue {c | IsIin c} {n | n < 10 ^ eightDigitPrefixLength} := by
    intro c hc
    have hlt : decimalValue c < 10 ^ c.length :=
      numeral_lt fun a ha => asciiDigitValue_lt (hc.1 a ha)
    rwa [hc.2] at hlt
  exact ((Set.finite_lt_nat _).of_injOn hmaps hinj).subset fun _ h => h.1

/-- The ranges that contain `c` are pairwise nested, as sets of IINs. -/
def NestedAt (rows : List BinRecordModel) (c : Str) : Prop :=
  ∀ row ∈ rows, ∀ other ∈ rows, InRange row c → InRange other c →
    iins row ⊆ iins other ∨ iins other ⊆ iins row

/-- The row has the narrowest of the ranges that contain `c` and satisfy `p`. -/
def NarrowestAt (rows : List BinRecordModel) (c : Str) (p : BinRecordModel → Prop)
    (row : BinRecordModel) : Prop :=
  ∀ other ∈ rows, InRange other c → p other → (iins row).ncard ≤ (iins other).ncard

/-- An 8-digit candidate without an exact match that lies in nested ranges is answered with a row of
one of them, and `q` relates the candidate to that row. -/
def ResolvesOverlaps (backend : Backend) (db : Database)
    (q : Str → BinRecordModel → Prop) : Prop :=
  ∀ value validateLuhn c,
    candidateOfLength eightDigitPrefixLength (normalizeLookupInput value validateLuhn).query =
      some c →
    (∀ row ∈ db.binRecords, row.iinStart ≠ c) → NestedAt db.binRecords c →
    (∃ row ∈ db.binRecords, InRange row c) →
    ∃ row ∈ db.binRecords, InRange row c ∧ q c row ∧
      ∃ result, lookupWithSession backend db value validateLuhn = some result ∧
        result.status = .found ∧ result.data = some (binInfo row)

/-- Of ASCII digits SQL counts every one. -/
theorem sqlLength_of_asciiDigits {s : Str} (hs : AsciiDigits s) : sqlLength s = s.length :=
  sqlLength_eq_length fun hmem => absurd (hs _ hmem) (by decide)

section Represents

variable {db : Database} {records : List NormalizedSourceRecord} {storeRawPayload : Bool}
  {importedAt : Int} (h : db.Represents (datasetOf records storeRawPayload importedAt))
include h

/-- A range with ASCII digits contains its own start. -/
theorem padded_start_mem_iins {row : BinRecordModel} (hrow : row ∈ db.binRecords)
    (hdigits : AsciiDigits row.iinStart) (hlen : row.iinStart.length ≤ eightDigitPrefixLength)
    {c : Str} (hin : InRange row c) : ljust row.iinStart eightDigitPrefixLength '0' ∈ iins row := by
  obtain ⟨e, he, hspans⟩ := (inRange_iff h hrow).mp hin
  refine ⟨⟨asciiDigits_ljust hdigits _ rfl, by rw [length_ljust, max_eq_right hlen]⟩,
    (inRange_iff h hrow).mpr ⟨e, he, le_rfl, hspans.1.trans hspans.2⟩⟩

/-- **Of two nested ranges whose starts are of one length, the later start is the narrower.** -/
theorem iins_subset_of_start_le {row other : BinRecordModel} (hrow : row ∈ db.binRecords)
    (hother : other ∈ db.binRecords) (hdigits : AsciiDigits other.iinStart)
    (hlen : other.iinStart.length ≤ eightDigitPrefixLength)
    (hsame : other.iinStart.length = row.iinStart.length) (hle : other.iinStart ≤ row.iinStart)
    {c : Str} (hin : InRange other c)
    (hnested : iins row ⊆ iins other ∨ iins other ⊆ iins row) : iins row ⊆ iins other := by
  rcases hnested with hsub | hsub
  · exact hsub
  -- the wider range would start no later, so both start together and are one row
  obtain ⟨e, -, hspans⟩ := (inRange_iff h hrow).mp
    (hsub (padded_start_mem_iins h hother hdigits hlen hin)).2
  have hstart : row.iinStart ≤ other.iinStart := by
    have := hspans.1
    unfold ljust padRight at this
    rw [hsame, append_le_append_iff hsame.symm] at this
    exact this.elim le_of_lt fun heq => heq.1.le
  have heq : row = other := eq_of_iinStart_eq (nodup_iinStart h) hrow hother
    (le_antisymm hstart hle)
  rw [heq]

/-- An overlap is resolved to the longest `iin_start`, and to the narrowest range of that length. -/
theorem resolvesOverlaps_of_represents
    (hrecords : ∀ r ∈ records, AsciiDigits r.iinStart ∧ r.iinStart.length ≤ eightDigitPrefixLength)
    (backend : Backend) :
    ResolvesOverlaps backend db fun c row =>
      (∀ other ∈ db.binRecords, InRange other c →
        other.iinStart.length ≤ row.iinStart.length) ∧
      NarrowestAt db.binRecords c (fun other => other.iinStart.length = row.iinStart.length)
        row := by
  intro value validateLuhn c hc hexact hnested ⟨row₀, hrow₀, hin₀⟩
  have hstarts : ∀ row ∈ db.binRecords,
      AsciiDigits row.iinStart ∧ row.iinStart.length ≤ eightDigitPrefixLength := by
    intro row hrow
    obtain ⟨r, hr, hk⟩ := (row_values h hrow).1
    exact hk ▸ hrecords r hr
  obtain ⟨hstatus, -⟩ := candidates_of_eightDigit hc
  obtain ⟨answer, result, hdoc, hresult, hfound, hdata⟩ := lookup_answer h hstatus backend
  cases hdoc with
  | exact8 hc' hrow hk =>
    obtain rfl := Option.some.inj (hc'.symm.trans hc)
    exact absurd hk (hexact _ hrow)
  | exact6 hno _ _ _ => exact absurd hin₀ (hno c hc row₀ hrow₀).2
  | notFound hno _ => exact absurd hin₀ (hno c hc row₀ hrow₀).2
  | @range c' row hc' _ hrow hin hbest =>
    obtain rfl := Option.some.inj (hc'.symm.trans hc)
    have hlonger : ∀ other ∈ db.binRecords, InRange other c' →
        other.iinStart.length < row.iinStart.length ∨
          other.iinStart.length = row.iinStart.length ∧ other.iinStart ≤ row.iinStart := by
      intro other hother hin'
      have hspecific := hbest other hother hin'
      unfold AsSpecific at hspecific
      rwa [sqlLength_of_asciiDigits (hstarts other hother).1,
        sqlLength_of_asciiDigits (hstarts row hrow).1] at hspecific
    refine ⟨row, hrow, hin, ⟨fun other hother hin' => ?_, fun other hother hin' hsame => ?_⟩,
      result, hresult, hfound.mpr rfl, hdata⟩
    · rcases hlonger other hother hin' with hlt | ⟨heq, -⟩
      · exact hlt.le
      · exact heq.le
    · have hle : other.iinStart ≤ row.iinStart := by
        rcases hlonger other hother hin' with hlt | ⟨-, hle⟩
        · exact absurd hsame hlt.ne
        · exact hle
      obtain ⟨hdigits, hlen⟩ := hstarts other hother
      exact Set.ncard_le_ncard (iins_subset_of_start_le h hrow hother hdigits hlen hsame hle hin'
        (hnested row hrow other hother hin hin')) (finite_iins other)

end Represents

/-- **Overlapping ranges resolve to the longest `iin_start`, and among ranges of that length to the
narrowest.** -/
theorem lookup_narrowest_of_length (env : Environment) (adapters : List SourceAdapter)
    (storeRawPayload : Bool) (w : World) (backend : Backend) :
    Post (storeImportSources env adapters storeRawPayload w)
      (fun _ w' =>
        (∀ r ∈ emitted adapters,
          AsciiDigits r.iinStart ∧ r.iinStart.length ≤ eightDigitPrefixLength) →
        ResolvesOverlaps backend w'.committed fun c row =>
          (∀ other ∈ w'.committed.binRecords, InRange other c →
            other.iinStart.length ≤ row.iinStart.length) ∧
          NarrowestAt w'.committed.binRecords c
            (fun other => other.iinStart.length = row.iinStart.length) row)
      fun _ w' => w'.committed = w.committed :=
  (storeImportSources_post env adapters storeRawPayload w).mono
    (fun _ _ h hrecords => resolvesOverlaps_of_represents h hrecords backend) fun _ _ h => h

/-- The columns that a range is read from. -/
def rangeColumns (row : BinRecordModel) : Str × Option Str × Option Str :=
  (row.iinStart, row.rangeStart8, row.rangeEnd8)

theorem inRange_of_rangeColumns {row : BinRecordModel} {k s e : Str}
    (h : rangeColumns row = (k, some s, some e)) {c : Str} : InRange row c ↔ s ≤ c ∧ c ≤ e := by
  obtain ⟨-, hrange⟩ := Prod.mk.inj h
  obtain ⟨hs, he⟩ := Prod.mk.inj hrange
  simp [InRange, hs, he]

/-- Of two ranges with one start, the one that ends first is inside the other. -/
theorem iins_subset_of_end_le {row other : BinRecordModel} {k k' s e e' : Str}
    (hrow : rangeColumns row = (k, some s, some e))
    (hother : rangeColumns other = (k', some s, some e')) (hle : e ≤ e') :
    iins row ⊆ iins other := by
  intro c hc
  obtain ⟨hstart, hend⟩ := (inRange_of_rangeColumns hrow).mp hc.2
  exact ⟨hc.1, (inRange_of_rangeColumns hother).mpr ⟨hstart, hend.trans hle⟩⟩

/-- A range inside another that holds one IIN more is the narrower one. -/
theorem ncard_iins_lt {row other : BinRecordModel} (hsub : iins row ⊆ iins other) {c : Str}
    (hc : c ∈ iins other) (hnot : c ∉ iins row) : (iins row).ncard < (iins other).ncard :=
  Set.ncard_lt_ncard ⟨hsub, fun h => hnot (h hc)⟩ (finite_iins other)

/-- The columns of `4`–`40`. -/
abbrev oneDigitStart : Str × Option Str × Option Str :=
  ("4".toList, some "40000000".toList, some "40999999".toList)

/-- The columns of `40000000`–`41`. -/
abbrev eightDigitStart : Str × Option Str × Option Str :=
  ("40000000".toList, some "40000000".toList, some "41999999".toList)

/-- `40000000`–`41` is answered although `4`–`40` lies inside it and holds the candidate. -/
theorem longer_start_is_wider :
    ¬ Post (storeImportSources Environment.quiet
        [primaryAdapter [("2", "4", "40"), ("3", "40000000", "41")]] true {})
      (fun _ w' => ResolvesOverlaps Backend.sequential w'.committed fun c row =>
        NarrowestAt w'.committed.binRecords c (fun _ => True) row) fun _ _ => True := by
  have hrun : returns (storeImportSources Environment.quiet
      [primaryAdapter [("2", "4", "40"), ("3", "40000000", "41")]] true {})
      (fun _ w' => decide (
        w'.committed.binRecords.map rangeColumns = [oneDigitStart, eightDigitStart] ∧
        ((lookupWithSession Backend.sequential w'.committed "40500000".toList false).bind
          (·.data)).map (·.iinStart) = some "40000000".toList)) = true := by decide +kernel
  refine not_post_of_returns hrun fun _ w' hshown hresolves => ?_
  obtain ⟨hrows, hanswer⟩ := of_decide_eq_true hshown
  have hcases : ∀ row ∈ w'.committed.binRecords,
      rangeColumns row = oneDigitStart ∨ rangeColumns row = eightDigitStart := by
    intro row hrow
    have hmem := List.mem_map_of_mem (f := rangeColumns) hrow
    rw [hrows] at hmem
    rcases List.mem_cons.mp hmem with h | hmem
    · exact Or.inl h
    · exact Or.inr (List.mem_singleton.mp hmem)
  have hends : "40999999".toList ≤ "41999999".toList := by decide
  have hnested : NestedAt w'.committed.binRecords "40500000".toList := by
    intro row hrow other hother _ _
    rcases hcases row hrow with h | h <;> rcases hcases other hother with h' | h'
    · exact Or.inl (iins_subset_of_end_le h h' le_rfl)
    · exact Or.inl (iins_subset_of_end_le h h' hends)
    · exact Or.inr (iins_subset_of_end_le h' h hends)
    · exact Or.inl (iins_subset_of_end_le h h' le_rfl)
  obtain ⟨narrow, hnarrow, hcolumns⟩ : ∃ row ∈ w'.committed.binRecords,
      rangeColumns row = oneDigitStart := List.mem_map.mp (hrows ▸ List.mem_cons_self)
  have hin : InRange narrow "40500000".toList :=
    (inRange_of_rangeColumns hcolumns).mpr (by decide)
  have hexact : ∀ row ∈ w'.committed.binRecords, row.iinStart ≠ "40500000".toList := by
    intro row hrow
    rcases hcases row hrow with h | h <;> rw [(Prod.mk.inj h).1] <;> decide
  obtain ⟨row, hrow, -, hnarrowest, result, hresult, -, hdata⟩ := hresolves "40500000".toList false
    "40500000".toList (by decide) hexact hnested ⟨narrow, hnarrow, hin⟩
  rw [hresult, Option.bind_some, hdata, Option.map_some, Option.some.injEq] at hanswer
  have hwide : rangeColumns row = eightDigitStart := by
    refine (hcases row hrow).resolve_left fun h => ?_
    have hstart : row.iinStart = "40000000".toList := hanswer
    rw [(Prod.mk.inj h).1] at hstart
    exact absurd hstart (by decide)
  -- `41000000` is in the range answered and not in the other
  have hmem : "41000000".toList ∈ iins row :=
    ⟨by decide, (inRange_of_rangeColumns hwide).mpr (by decide)⟩
  have hnot : "41000000".toList ∉ iins narrow := fun h =>
    absurd ((inRange_of_rangeColumns hcolumns).mp h.2) (by decide)
  have hlt := ncard_iins_lt (iins_subset_of_end_le hcolumns hwide hends) hmem hnot
  exact absurd (hnarrowest narrow hnarrow hin trivial) (not_le.mpr hlt)

end CardBinData
