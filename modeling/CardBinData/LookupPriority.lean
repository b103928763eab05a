import CardBinData.Input
import CardBinData.Lookup

/-!
# The ranked statement is the documented three-step lookup

`docs/performance.md` gives the lookup as three steps: exact 8-digit match, range match, exact
6-digit match. `DocumentedAnswer rows query a` says that `a` is the answer of these steps on
`rows`, with the most specific range first; it speaks of the rows by membership and by their
columns, so neither ids nor the order of the table occur in it. Which range is the most specific is
up to SQL's `length`, which is the number of characters where there is no U+0000
(`sqlLength_eq_length`).

* `documented_lookupRecord`: the one ranked statement answers what the steps answer.
* `DocumentedAnswer.unique`: with distinct `iin_start`s the steps have one answer.
* `lookupRecord_three_steps`: both, with the consequence that the columns of the answer depend
  only on which rows there are.
* `longest_start_passed_over`: on SQLite an `iin_start` with a U+0000 may have more characters than
  the one answered.
-/

namespace CardBinData

open Library (Truth caseWhen limitOne limitOne_least limitOne_eq_none_iff)

/-- The stored bounds of `row` contain `c`. -/
def InRange (row : BinRecordModel) (c : Str) : Prop :=
  ∃ s e, row.rangeStart8 = some s ∧ row.rangeEnd8 = some e ∧ s ≤ c ∧ c ≤ e

/-- `row` is at least as specific as `other`: a longer `iin_start`, as SQL measures it, or one as
long and no smaller. -/
def AsSpecific (row other : BinRecordModel) : Prop :=
  sqlLength other.iinStart < sqlLength row.iinStart ∨
    (sqlLength other.iinStart = sqlLength row.iinStart ∧ other.iinStart ≤ row.iinStart)

/-- Neither of the first two steps finds a row. -/
def NoEightDigitMatch (rows : List BinRecordModel) (query : LookupQuery) : Prop :=
  ∀ c ∈ candidateOfLength eightDigitPrefixLength query,
    ∀ r ∈ rows, r.iinStart ≠ c ∧ ¬ InRange r c

/-- **The documented lookup.** -/
inductive DocumentedAnswer (rows : List BinRecordModel) (query : LookupQuery) :
    Option BinRecordModel → Prop
  | exact8 {c : Str} {row : BinRecordModel}
      (hc : candidateOfLength eightDigitPrefixLength query = some c) (hrow : row ∈ rows)
      (hk : row.iinStart = c) : DocumentedAnswer rows query (some row)
  | range {c : Str} {row : BinRecordModel}
      (hc : candidateOfLength eightDigitPrefixLength query = some c)
      (hno : ∀ r ∈ rows, r.iinStart ≠ c) (hrow : row ∈ rows) (hin : InRange row c)
      (hbest : ∀ r ∈ rows, InRange r c → AsSpecific row r) : DocumentedAnswer rows query (some row)
  | exact6 {c : Str} {row : BinRecordModel} (hno : NoEightDigitMatch rows query)
      (hc : candidateOfLength sixDigitPrefixLength query = some c) (hrow : row ∈ rows)
      (hk : row.iinStart = c) : DocumentedAnswer rows query (some row)
  | notFound (hno : NoEightDigitMatch rows query)
      (hno6 : ∀ c ∈ candidateOfLength sixDigitPrefixLength query, ∀ r ∈ rows, r.iinStart ≠ c) :
      DocumentedAnswer rows query none

/-! ## Reading the statement -/

theorem holds_rangeMatch (c : Str) (row : BinRecordModel) :
    (rangeMatch c row).holds = true ↔ InRange row c := by
  unfold rangeMatch InRange
  cases hs : row.rangeStart8 <;> cases he : row.rangeEnd8 <;> simp

theorem holds_exactMatch (c : Str) (row : BinRecordModel) :
    (exactMatch c row).holds = true ↔ row.iinStart = c := by
  simp [exactMatch]

section Arms

variable {exact8Candidate exact6Candidate : Option Str} {row : BinRecordModel}

/-- The `WHERE` selects the rows that satisfy one of the three conditions. -/
theorem holds_lookupWhere :
    (lookupWhere exact8Candidate exact6Candidate row).holds = true ↔
      (∃ c ∈ exact8Candidate, row.iinStart = c) ∨ (∃ c ∈ exact8Candidate, InRange row c) ∨
        ∃ c ∈ exact6Candidate, row.iinStart = c := by
  unfold lookupWhere lookupArms
  cases exact8Candidate <;> cases exact6Candidate <;>
    simp only [List.nil_append, List.append_nil, List.cons_append, List.map_cons, List.map_nil,
      Truth.holds_anyOf, List.any_cons, List.any_nil, Bool.or_eq_true, holds_exactMatch,
      holds_rangeMatch, Option.mem_def, Option.some.injEq, exists_eq_left', reduceCtorEq,
      false_and, exists_false, or_false, false_or, Bool.false_eq_true]

open Classical in
/-- The `CASE` is the number of the first condition satisfied. -/
theorem lookupRank_eq :
    lookupRank exact8Candidate exact6Candidate row =
      if ∃ c ∈ exact8Candidate, row.iinStart = c then 0
      else if ∃ c ∈ exact8Candidate, InRange row c then 1
      else if ∃ c ∈ exact6Candidate, row.iinStart = c then 2 else 3 := by
  have hite : ∀ (t : Truth) (p : Prop) (v : Nat) (rest : List (Truth × Nat)),
      (t.holds = true ↔ p) →
      caseWhen ((t, v) :: rest) 3 = if p then v else caseWhen rest 3 := by
    intro t p v rest h
    unfold caseWhen
    rw [List.find?_cons]
    by_cases hp : p
    · rw [if_pos hp, h.mpr hp]
    · have hf : t.holds = false := Bool.eq_false_iff.mpr fun ht => hp (h.mp ht)
      rw [if_neg hp, hf]
  have hexact := fun c v rest => hite _ _ v rest (holds_exactMatch c row)
  have hrange := fun c v rest => hite _ _ v rest (holds_rangeMatch c row)
  have hnil : caseWhen ([] : List (Truth × Nat)) 3 = 3 := rfl
  unfold lookupRank lookupArms
  cases exact8Candidate <;> cases exact6Candidate <;>
    simp only [List.nil_append, List.append_nil, List.cons_append, hexact, hrange, hnil,
      Option.mem_def, Option.some.injEq, exists_eq_left', reduceCtorEq, false_and, exists_false,
      if_false]

/-- The first two conditions have the ranks below 2. -/
theorem lookupRank_le_one
    (h : (∃ c ∈ exact8Candidate, row.iinStart = c) ∨ ∃ c ∈ exact8Candidate, InRange row c) :
    lookupRank exact8Candidate exact6Candidate row ≤ 1 := by
  rw [lookupRank_eq]
  split
  · omega
  · rw [if_pos (h.resolve_left ‹_›)]

end Arms

/-- The `ORDER BY`, spelled out. -/
theorem lookupKey_le_iff {exact8Candidate exact6Candidate : Option Str} {a b : BinRecordModel} :
    lookupKey exact8Candidate exact6Candidate a ≤ lookupKey exact8Candidate exact6Candidate b ↔
      lookupRank exact8Candidate exact6Candidate a < lookupRank exact8Candidate exact6Candidate b ∨
      (lookupRank exact8Candidate exact6Candidate a =
          lookupRank exact8Candidate exact6Candidate b ∧
        (sqlLength b.iinStart < sqlLength a.iinStart ∨
          (sqlLength a.iinStart = sqlLength b.iinStart ∧
            (b.iinStart < a.iinStart ∨ (a.iinStart = b.iinStart ∧ a.id ≤ b.id))))) := by
  simp [lookupKey, Prod.Lex.toLex_le_toLex]

theorem asSpecific_of_lookupKey_le {exact8Candidate exact6Candidate : Option Str}
    {a b : BinRecordModel}
    (h : lookupKey exact8Candidate exact6Candidate a ≤ lookupKey exact8Candidate exact6Candidate b)
    (hr : lookupRank exact8Candidate exact6Candidate a =
      lookupRank exact8Candidate exact6Candidate b) : AsSpecific a b := by
  rcases lookupKey_le_iff.mp h with hlt | ⟨-, hlen | ⟨hlen, hk | ⟨hk, -⟩⟩⟩
  · exact absurd hr hlt.ne
  · exact Or.inl hlen
  · exact Or.inr ⟨hlen.symm, hk.le⟩
  · exact Or.inr ⟨hlen.symm, hk.ge⟩

/-! ## The statement answers the documented steps -/

section Least

variable {rows : List BinRecordModel} {c8 c6 : Option Str} {row : BinRecordModel}
  (hleast : ∀ r ∈ rows, (lookupWhere c8 c6 r).holds = true →
    lookupKey c8 c6 row ≤ lookupKey c8 c6 r)
include hleast

/-- A row with a better rank would have come first. -/
theorem lookupRank_le_of_least {r : BinRecordModel} (hr : r ∈ rows)
    (hwhere : (lookupWhere c8 c6 r).holds = true) :
    lookupRank c8 c6 row ≤ lookupRank c8 c6 r := by
  rcases lookupKey_le_iff.mp (hleast r hr hwhere) with hlt | ⟨heq, -⟩
  · exact hlt.le
  · exact heq.le

/-- When the first row matches by its range, no row matches exactly, and it is the most specific
range. -/
theorem range_of_least (he8 : ¬ ∃ c ∈ c8, row.iinStart = c) {c : Str} (hc : c ∈ c8)
    (hin : InRange row c) :
    (∀ r ∈ rows, r.iinStart ≠ c) ∧ ∀ r ∈ rows, InRange r c → AsSpecific row r := by
  have hrank : lookupRank c8 c6 row = 1 := by rw [lookupRank_eq, if_neg he8, if_pos ⟨c, hc, hin⟩]
  have hno : ∀ r ∈ rows, r.iinStart ≠ c := fun r hr hk => by
    have hle := lookupRank_le_of_least hleast hr (holds_lookupWhere.mpr (Or.inl ⟨c, hc, hk⟩))
    rw [hrank, lookupRank_eq, if_pos ⟨c, hc, hk⟩] at hle
    exact absurd hle (by decide)
  refine ⟨hno, fun r hr hrin => ?_⟩
  have hwhere : (lookupWhere c8 c6 r).holds = true :=
    holds_lookupWhere.mpr (Or.inr (Or.inl ⟨c, hc, hrin⟩))
  refine asSpecific_of_lookupKey_le (hleast r hr hwhere) ?_
  rw [hrank, lookupRank_eq, if_neg, if_pos ⟨c, hc, hrin⟩]
  rintro ⟨c', hc', hk⟩
  exact hno r hr (hk.trans (Option.some.inj (hc'.symm.trans hc)))

/-- When the first row matches neither exactly nor by its range, no row does. -/
theorem no_match_of_least (he8 : ¬ ∃ c ∈ c8, row.iinStart = c) (hr8 : ¬ ∃ c ∈ c8, InRange row c)
    {c : Str} (hc : c ∈ c8) : ∀ r ∈ rows, r.iinStart ≠ c ∧ ¬ InRange r c := by
  have hrank : 2 ≤ lookupRank c8 c6 row := by
    rw [lookupRank_eq, if_neg he8, if_neg hr8]
    split <;> omega
  have hno : ∀ r ∈ rows, ¬ ((∃ c ∈ c8, r.iinStart = c) ∨ ∃ c ∈ c8, InRange r c) := by
    intro r hr hmatch
    have hle := lookupRank_le_of_least hleast hr
      (holds_lookupWhere.mpr (hmatch.imp_right Or.inl))
    have hone : lookupRank c8 c6 r ≤ 1 := lookupRank_le_one hmatch
    omega
  exact fun r hr => ⟨fun hk => hno r hr (Or.inl ⟨c, hc, hk⟩),
    fun hin => hno r hr (Or.inr ⟨c, hc, hin⟩)⟩

end Least

/-- **The ranked statement answers what the three steps answer**, on any rows. -/
theorem documented_lookupRecord (rows : List BinRecordModel) (query : LookupQuery) :
    DocumentedAnswer rows query (lookupRecord rows query) := by
  unfold lookupRecord
  simp only
  split
  · rename_i hnone
    simp only [Bool.and_eq_true, Option.isNone_iff_eq_none] at hnone
    exact .notFound (fun c hc => by simp [hnone.1] at hc) fun c hc => by simp [hnone.2] at hc
  unfold lookupStatement
  generalize h8 : candidateOfLength eightDigitPrefixLength query = c8
  generalize h6 : candidateOfLength sixDigitPrefixLength query = c6
  cases h : limitOne (lookupKey c8 c6) (rows.filter fun row => (lookupWhere c8 c6 row).holds) with
  | none =>
    have hnil : ∀ r ∈ rows, ¬ (lookupWhere c8 c6 r).holds = true := by
      simpa [List.filter_eq_nil_iff] using limitOne_eq_none_iff.mp h
    simp only [holds_lookupWhere, not_or, not_exists, not_and] at hnil
    refine .notFound (fun c hc r hr => ?_) fun c hc r hr => ?_
    · exact ⟨(hnil r hr).1 c (h8 ▸ hc), (hnil r hr).2.1 c (h8 ▸ hc)⟩
    · exact (hnil r hr).2.2 c (h6 ▸ hc)
  | some row =>
    obtain ⟨hrow, hfirst⟩ := limitOne_least h
    obtain ⟨hrow, hwhere⟩ := List.mem_filter.mp hrow
    have hleast : ∀ r ∈ rows, (lookupWhere c8 c6 r).holds = true →
        lookupKey c8 c6 row ≤ lookupKey c8 c6 r := fun r hr hw =>
      hfirst r (List.mem_filter.mpr ⟨hr, hw⟩)
    by_cases he8 : ∃ c ∈ c8, row.iinStart = c
    · obtain ⟨c, hc, hk⟩ := he8
      exact .exact8 (h8.trans hc) hrow hk
    by_cases hr8 : ∃ c ∈ c8, InRange row c
    · obtain ⟨c, hc, hin⟩ := hr8
      obtain ⟨hno, hspecific⟩ := range_of_least hleast he8 hc hin
      exact .range (h8.trans hc) hno hrow hin hspecific
    · obtain ⟨c, hc, hk⟩ : ∃ c ∈ c6, row.iinStart = c := by
        rcases holds_lookupWhere.mp hwhere with h | h | h
        · exact absurd h he8
        · exact absurd h hr8
        · exact h
      exact .exact6 (fun c' hc' => no_match_of_least hleast he8 hr8 (h8 ▸ hc')) (h6.trans hc) hrow
        hk

/-! ## The documented answer is unique -/

section Unique

variable {rows rows' : List BinRecordModel} {query : LookupQuery} {a b : Option BinRecordModel}

theorem eq_of_iinStart_eq (hnd : (rows.map (·.iinStart)).Nodup) {r r' : BinRecordModel}
    (hr : r ∈ rows) (hr' : r' ∈ rows) (h : r.iinStart = r'.iinStart) : r = r' :=
  List.inj_on_of_nodup_map hnd hr hr' h

/-- Two most specific ranges have one `iin_start`. -/
theorem AsSpecific.antisymm {r r' : BinRecordModel} (h : AsSpecific r r') (h' : AsSpecific r' r) :
    r.iinStart = r'.iinStart := by
  rcases h with h | ⟨hl, h⟩ <;> rcases h' with h' | ⟨hl', h'⟩
  · omega
  · omega
  · omega
  · exact le_antisymm h' h

theorem DocumentedAnswer.unique (hnd : (rows.map (·.iinStart)).Nodup)
    (ha : DocumentedAnswer rows query a) (hb : DocumentedAnswer rows query b) : a = b := by
  cases ha with
  | exact8 hc hrow hk =>
    cases hb with
    | exact8 hc' hrow' hk' =>
      obtain rfl := Option.some.inj (hc.symm.trans hc')
      rw [eq_of_iinStart_eq hnd hrow hrow' (hk.trans hk'.symm)]
    | range hc' hno' _ _ _ =>
      obtain rfl := Option.some.inj (hc.symm.trans hc')
      exact absurd hk (hno' _ hrow)
    | exact6 hno' _ _ _ => exact absurd hk (hno' _ hc _ hrow).1
    | notFound hno' _ => exact absurd hk (hno' _ hc _ hrow).1
  | range hc hno hrow hin hbest =>
    cases hb with
    | exact8 hc' hrow' hk' =>
      obtain rfl := Option.some.inj (hc.symm.trans hc')
      exact absurd hk' (hno _ hrow')
    | range hc' _ hrow' hin' hbest' =>
      obtain rfl := Option.some.inj (hc.symm.trans hc')
      rw [eq_of_iinStart_eq hnd hrow hrow'
        ((hbest _ hrow' hin').antisymm (hbest' _ hrow hin))]
    | exact6 hno' _ _ _ => exact absurd hin (hno' _ hc _ hrow).2
    | notFound hno' _ => exact absurd hin (hno' _ hc _ hrow).2
  | exact6 hno hc hrow hk =>
    cases hb with
    | exact8 hc' hrow' hk' => exact absurd hk' (hno _ hc' _ hrow').1
    | range hc' _ hrow' hin' _ => exact absurd hin' (hno _ hc' _ hrow').2
    | exact6 _ hc' hrow' hk' =>
      obtain rfl := Option.some.inj (hc.symm.trans hc')
      rw [eq_of_iinStart_eq hnd hrow hrow' (hk.trans hk'.symm)]
    | notFound _ hno6' => exact absurd hk (hno6' _ hc _ hrow)
  | notFound hno hno6 =>
    cases hb with
    | exact8 hc' hrow' hk' => exact absurd hk' (hno _ hc' _ hrow').1
    | range hc' _ hrow' hin' _ => exact absurd hin' (hno _ hc' _ hrow').2
    | exact6 _ hc' hrow' hk' => exact absurd hk' (hno6 _ hc' _ hrow')
    | notFound _ _ => rfl

/-- The answer is a row of the table. -/
theorem DocumentedAnswer.mem {row : BinRecordModel} (h : DocumentedAnswer rows query (some row)) :
    row ∈ rows := by
  cases h <;> assumption

theorem mem_of_lookupRecord {row : BinRecordModel} (h : lookupRecord rows query = some row) :
    row ∈ rows :=
  (h ▸ documented_lookupRecord rows query : DocumentedAnswer rows query (some row)).mem

/-- Tables with the same rows up to ids and order answer with the same columns. -/
theorem DocumentedAnswer.transfer
    (hperm : (rows.map (·.toBinRecordValues)).Perm (rows'.map (·.toBinRecordValues)))
    (ha : DocumentedAnswer rows query a) :
    ∃ a', DocumentedAnswer rows' query a' ∧
      a'.map (·.toBinRecordValues) = a.map (·.toBinRecordValues) := by
  -- each table has a row with the columns of any row of the other
  have hto : ∀ r ∈ rows, ∃ r' ∈ rows', r'.toBinRecordValues = r.toBinRecordValues :=
    fun r hr => List.mem_map.mp (hperm.mem_iff.mp (List.mem_map_of_mem hr))
  have hfrom : ∀ r' ∈ rows', ∃ r ∈ rows, r.toBinRecordValues = r'.toBinRecordValues :=
    fun r' hr' => List.mem_map.mp (hperm.mem_iff.mpr (List.mem_map_of_mem hr'))
  have hin : ∀ {r r' : BinRecordModel} {c : Str}, r.toBinRecordValues = r'.toBinRecordValues →
      InRange r c → InRange r' c := fun h hr => by
    unfold InRange at hr ⊢
    rwa [h] at hr
  have hno : NoEightDigitMatch rows query → NoEightDigitMatch rows' query := by
    intro h c hc r' hr'
    obtain ⟨r, hr, hv⟩ := hfrom r' hr'
    exact ⟨fun hk => (h c hc r hr).1 ((congrArg BinRecordValues.iinStart hv).trans hk),
      fun hi => (h c hc r hr).2 (hin hv.symm hi)⟩
  cases ha with
  | exact8 hc hrow hk =>
    obtain ⟨row', hrow', hv⟩ := hto _ hrow
    exact ⟨some row', .exact8 hc hrow' ((congrArg BinRecordValues.iinStart hv).trans hk),
      congrArg some hv⟩
  | range hc hne hrow hi hbest =>
    obtain ⟨row', hrow', hv⟩ := hto _ hrow
    refine ⟨some row', .range hc (fun r' hr' hk => ?_) hrow' (hin hv.symm hi)
      (fun r' hr' hi' => ?_), congrArg some hv⟩
    · obtain ⟨r, hr, hvr⟩ := hfrom r' hr'
      exact hne r hr ((congrArg BinRecordValues.iinStart hvr).trans hk)
    · obtain ⟨r, hr, hvr⟩ := hfrom r' hr'
      have hs := hbest r hr (hin hvr.symm hi')
      unfold AsSpecific at hs ⊢
      rwa [hv, ← hvr]
  | exact6 hno8 hc hrow hk =>
    obtain ⟨row', hrow', hv⟩ := hto _ hrow
    exact ⟨some row', .exact6 (hno hno8) hc hrow'
      ((congrArg BinRecordValues.iinStart hv).trans hk), congrArg some hv⟩
  | notFound hno8 hno6 =>
    refine ⟨none, .notFound (hno hno8) fun c hc r' hr' hk => ?_, rfl⟩
    obtain ⟨r, hr, hv⟩ := hfrom r' hr'
    exact hno6 c hc r hr ((congrArg BinRecordValues.iinStart hv).trans hk)

/-- A table with the same rows answers with the same columns. -/
theorem map_lookupRecord_perm (hnd : (rows.map (·.iinStart)).Nodup)
    (hperm : (rows.map (·.toBinRecordValues)).Perm (rows'.map (·.toBinRecordValues))) :
    (lookupRecord rows' query).map (·.toBinRecordValues) =
      (lookupRecord rows query).map (·.toBinRecordValues) := by
  obtain ⟨a', ha', hv⟩ := (documented_lookupRecord rows query).transfer hperm
  have hnd' : (rows'.map (·.iinStart)).Nodup := by
    have hp := hperm.map (·.iinStart)
    rw [List.map_map, List.map_map] at hp
    exact hp.nodup_iff.mp hnd
  rw [← hv, (documented_lookupRecord rows' query).unique hnd' ha']

end Unique

/-- **One ranked statement is the documented three-step lookup.** On rows with distinct
`iin_start`s, `lookup_record` returns `a` exactly when `a` is the answer of the three steps, and a
table with the same rows under other ids and in another order answers with the same columns. -/
theorem lookupRecord_three_steps (rows : List BinRecordModel)
    (hnd : (rows.map (·.iinStart)).Nodup) (query : LookupQuery) :
    (∀ a, lookupRecord rows query = a ↔ DocumentedAnswer rows query a) ∧
    ∀ rows' : List BinRecordModel,
      (rows.map (·.toBinRecordValues)).Perm (rows'.map (·.toBinRecordValues)) →
      (lookupRecord rows' query).map (·.toBinRecordValues) =
        (lookupRecord rows query).map (·.toBinRecordValues) :=
  ⟨fun _ => ⟨fun h => h ▸ documented_lookupRecord rows query,
    (documented_lookupRecord rows query).unique hnd⟩, fun _ => map_lookupRecord_perm hnd⟩

/-- Rows that all match one query: the 8-digit key, two ranges around it, and the 6-digit key. -/
def overlappingRows : List BinRecordModel :=
  [⟨{ iinStart := "457173".toList }, 1⟩,
    ⟨{ iinStart := "4571".toList, iinEnd := some "4572".toList,
        rangeStart8 := some "45710000".toList, rangeEnd8 := some "45729999".toList }, 2⟩,
    ⟨{ iinStart := "45717".toList, iinEnd := some "45718".toList,
        rangeStart8 := some "45717000".toList, rangeEnd8 := some "45718999".toList }, 3⟩,
    ⟨{ iinStart := "45717360".toList }, 4⟩]

theorem lookupRecord_three_steps_overlappingRows :
    (∀ a, lookupRecord overlappingRows ⟨"45717361".toList,
        ["45717361".toList, "457173".toList], false⟩ = a ↔
      DocumentedAnswer overlappingRows ⟨"45717361".toList,
        ["45717361".toList, "457173".toList], false⟩ a) ∧
    (lookupRecord overlappingRows ⟨"45717361".toList,
        ["45717361".toList, "457173".toList], false⟩).map (·.id) = some 3 :=
  ⟨(lookupRecord_three_steps overlappingRows (by decide) _).1, by decide⟩

/-- Two ranges around one query. The second start has four characters, of which SQLite's `length`
counts one. -/
def nulRows : List BinRecordModel :=
  [⟨{ iinStart := "45".toList, iinEnd := some "46".toList,
        rangeStart8 := some "45000000".toList, rangeEnd8 := some "46999999".toList }, 1⟩,
    ⟨{ iinStart := "4\x00\x00\x00".toList, iinEnd := some "46".toList,
        rangeStart8 := some "4\x00\x00\x000000".toList, rangeEnd8 := some "46999999".toList }, 2⟩]

/-- The query of `"45717361"`. -/
def nulQuery : LookupQuery := (normalizeLookupInput "45717361".toList false).query

/-- **`"45"` is answered, and the longer start of a range around the query is passed over.** -/
theorem longest_start_passed_over :
    ¬ ∀ (rows : List BinRecordModel) (query : LookupQuery) (c : Str) (row : BinRecordModel),
      (rows.map (·.iinStart)).Nodup →
      (∀ r ∈ rows, r.rangeStart8.isSome = r.rangeEnd8.isSome) →
      candidateOfLength eightDigitPrefixLength query = some c →
      (∀ r ∈ rows, r.iinStart ≠ c) → (∃ r ∈ rows, InRange r c) →
      lookupRecord rows query = some row →
      ∀ r ∈ rows, InRange r c → r.iinStart.length ≤ row.iinStart.length := by
  intro h
  have hanswer : (lookupRecord nulRows nulQuery).map (·.iinStart) = some "45".toList := by decide
  obtain ⟨row, hrow, hstart⟩ := Option.map_eq_some_iff.mp hanswer
  obtain ⟨other, hother, hlength, hin⟩ : ∃ r ∈ nulRows, r.iinStart.length = 4 ∧
      InRange r "45717361".toList :=
    ⟨_, List.mem_cons_of_mem _ List.mem_cons_self, rfl, _, _, rfl, rfl, by decide, by decide⟩
  have hle := h nulRows nulQuery "45717361".toList row (by decide) (by decide) (by decide)
    (by decide) ⟨other, hother, hin⟩ hrow other hother hin
  rw [hlength, hstart] at hle
  exact absurd hle (by decide)

end CardBinData
