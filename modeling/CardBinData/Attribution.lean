import CardBinData.MergeSpec

/-!
# What the merged values come from

The provenance of a merged record is computed beside its values: `_merged_value` notes the
supplying record in an accumulator, and the prefix group is filtered by it afterwards. The two do
not drift apart: `isIn_foldl_crossPrefixStep` says what the accumulator holds after the loop over
the cross-prefix fields, and `InheritedFrom` names the record that supplies an inherited value.

* `attribution_sound_minimal`: the sources of a merged record are the records of its key, in group
  order, and after them the records of the prefix group that equal a supplier of an inherited value;
  every value is that of one of its sources.
* `customSourcesContribute_iff`: a value of a source that `FIELD_PRIORITY` does not list reaches no
  merged record, so records of such sources alone are merged without loss only when they have no
  value at all.
-/

namespace CardBinData

open Library

/-! ## The accumulator -/

theorem isIn_append_single {r a : NormalizedSourceRecord} {acc : List NormalizedSourceRecord} :
    isIn r (acc ++ [a]) = true ↔ isIn r acc = true ∨ (a == r) = true := by
  simp [isIn]

/-- The accumulator after one scan: what it held, and the supplier. -/
theorem isIn_mergedValueWith {f : FieldName} {group acc : List NormalizedSourceRecord}
    {r : NormalizedSourceRecord} :
    isIn r (mergedValueWith f group acc).2 = true ↔
      isIn r acc = true ∨ ∃ p, supplier f group = some p ∧ (p.1 == r) = true := by
  unfold mergedValueWith
  cases hs : supplier f group with
  | none => simp
  | some p =>
    simp only [Option.some.injEq, exists_eq_left']
    split
    · -- the supplier is there already, so whatever equals it is
      rename_i hin
      refine ⟨Or.inl, fun h => h.elim id fun hp => ?_⟩
      obtain ⟨a, ha, hap⟩ := List.any_eq_true.mp hin
      exact List.any_eq_true.mpr ⟨a, ha, NormalizedSourceRecord.beq_trans hap hp⟩
    · exact isIn_append_single

/-- **The accumulator after the loop holds the suppliers of the fields that were missing.** -/
theorem isIn_foldl_crossPrefixStep (prefixGroup : List NormalizedSourceRecord) (l : List FieldName)
    (s : MergedValues × List NormalizedSourceRecord) (hl : l.Nodup) (r : NormalizedSourceRecord) :
    isIn r (l.foldl (crossPrefixStep prefixGroup) s).2 = true ↔
      isIn r s.2 = true ∨
        ∃ f ∈ l, s.1 f = none ∧ ∃ p, supplier f prefixGroup = some p ∧ (p.1 == r) = true := by
  induction l generalizing s with
  | nil => simp
  | cons g l ih =>
    obtain ⟨hg, hl⟩ := List.nodup_cons.mp hl
    rw [List.foldl_cons, ih _ hl]
    -- the later fields are missing after the step exactly when they were before
    have hother : ∀ f ∈ l, (crossPrefixStep prefixGroup s g).1 f = s.1 f := fun f hf => by
      have hne : f ≠ g := ne_of_mem_of_not_mem hf hg
      unfold crossPrefixStep
      split
      · exact Function.update_of_ne hne _ _
      · rfl
    have hrest : (∃ f ∈ l, (crossPrefixStep prefixGroup s g).1 f = none ∧
        ∃ p, supplier f prefixGroup = some p ∧ (p.1 == r) = true) ↔
        ∃ f ∈ l, s.1 f = none ∧ ∃ p, supplier f prefixGroup = some p ∧ (p.1 == r) = true :=
      exists_congr fun f => and_congr_right fun hf => by rw [hother f hf]
    have hstep : isIn r (crossPrefixStep prefixGroup s g).2 = true ↔ isIn r s.2 = true ∨
        (s.1 g = none ∧ ∃ p, supplier g prefixGroup = some p ∧ (p.1 == r) = true) := by
      unfold crossPrefixStep
      split
      · rename_i hnone
        rw [isIn_mergedValueWith]
        simp [Option.isNone_iff_eq_none.mp hnone]
      · rename_i hsome
        rw [Option.isNone_iff_eq_none] at hsome
        simp [hsome]
    rw [hrest, hstep, or_assoc]
    simp only [List.mem_cons, exists_eq_or_imp]

/-! ## Inherited values -/

/-- `record` supplies `f` to the key `k` from the group of its 6-digit prefix, because no record of
`k` itself supplies it. -/
def InheritedFrom (records : List NormalizedSourceRecord) (k : Str) (f : FieldName)
    (record : NormalizedSourceRecord) (v : f.Value) : Prop :=
  Inherits records k f ∧ (¬ ∃ u, FirstSupplied f (exactGroup records k) u) ∧
    SuppliedBy f (exactGroup records (k.take sixDigitPrefixLength)) record v

/-- The sources of a merged record beyond those of its own key. -/
def borrowedSources (records : List NormalizedSourceRecord) (k : Str) :
    List NormalizedSourceRecord :=
  (mergeGroup k (exactGroup records k) (prefixGroupOf records k)).2

theorem sources_mergedOf (records : List NormalizedSourceRecord) (k : Str) :
    (mergedOf records k).sources = exactGroup records k ++ borrowedSources records k := rfl

theorem SuppliedBy.mem {f : FieldName} {group : List NormalizedSourceRecord}
    {record : NormalizedSourceRecord} {v : f.Value} (h : SuppliedBy f group record v) :
    record ∈ group ∧ record.getattr f = some v := by
  obtain ⟨_, _, _, front, back, -, rfl, -, hv, -⟩ := h
  exact ⟨List.mem_append_right _ List.mem_cons_self, hv⟩

theorem borrowedSources_sublist (records : List NormalizedSourceRecord) (k : Str) :
    (borrowedSources records k).Sublist (exactGroup records (k.take sixDigitPrefixLength)) := by
  unfold borrowedSources prefixGroupOf
  split
  · exact List.filter_sublist
  · exact List.nil_sublist _

/-- The borrowed sources of a key that may inherit: the accumulator filters the prefix group, which
may be empty. -/
theorem borrowedSources_eq {records : List NormalizedSourceRecord} {k : Str}
    (hlen : k.length = eightDigitPrefixLength)
    (hprimary : ∃ r ∈ exactGroup records k, r.source.sourceId = primarySourceId) :
    borrowedSources records k =
      (exactGroup records (k.take sixDigitPrefixLength)).filter fun r =>
        isIn r (crossPrefixFieldNames.foldl
          (crossPrefixStep (exactGroup records (k.take sixDigitPrefixLength)))
          (fun f => mergedValue f (exactGroup records k), [])).2 := by
  unfold borrowedSources
  by_cases hne : exactGroup records (k.take sixDigitPrefixLength) = []
  · have hnone : prefixGroupOf records k = none := if_neg fun h => h.2.2 hne
    rw [hnone, hne]
    rfl
  · have hsome : prefixGroupOf records k =
        some (exactGroup records (k.take sixDigitPrefixLength)) := if_pos ⟨hlen, hprimary, hne⟩
    rw [hsome]
    rfl

theorem borrowedSources_eq_nil {records : List NormalizedSourceRecord} {k : Str}
    (h : ¬ (k.length = eightDigitPrefixLength ∧
      ∃ r ∈ exactGroup records k, r.source.sourceId = primarySourceId)) :
    borrowedSources records k = [] := by
  have hnone : prefixGroupOf records k = none := if_neg fun hex => h ⟨hex.1, hex.2.1⟩
  unfold borrowedSources
  rw [hnone]
  rfl

/-- **The borrowed sources are the records that equal a supplier of an inherited value.** -/
theorem mem_borrowedSources_iff {records : List NormalizedSourceRecord} {k : Str}
    {s : NormalizedSourceRecord} :
    s ∈ borrowedSources records k ↔
      s ∈ exactGroup records (k.take sixDigitPrefixLength) ∧
        ∃ f record v, InheritedFrom records k f record v ∧ (record == s) = true := by
  have hnd : crossPrefixFieldNames.Nodup := by decide
  by_cases hpg : k.length = eightDigitPrefixLength ∧
      ∃ r ∈ exactGroup records k, r.source.sourceId = primarySourceId
  · have hnil : isIn s [] = false := rfl
    rw [borrowedSources_eq hpg.1 hpg.2, List.mem_filter, isIn_foldl_crossPrefixStep _ _ _ hnd]
    simp only [hnil, Bool.false_eq_true, false_or, mem_crossPrefixFieldNames,
      mergedValue_eq_none_iff_not_supplied]
    refine and_congr_right fun _ => exists_congr fun f => ?_
    constructor
    · rintro ⟨hf, hmissing, ⟨record, v⟩, hsup, heq⟩
      exact ⟨record, v, ⟨⟨hpg.1, hpg.2, hf⟩, hmissing, supplier_eq_some_iff.mp hsup⟩, heq⟩
    · rintro ⟨record, v, ⟨hinh, hmissing, hsup⟩, heq⟩
      exact ⟨hinh.2.2, hmissing, (record, v), supplier_eq_some_iff.mpr hsup, heq⟩
  · rw [borrowedSources_eq_nil hpg]
    refine iff_of_false List.not_mem_nil ?_
    rintro ⟨-, f, record, v, ⟨hinh, -⟩, -⟩
    exact hpg ⟨hinh.1, hinh.2.1⟩

/-- An inherited value is the merged one, and its supplier is borrowed. -/
theorem InheritedFrom.merged {records : List NormalizedSourceRecord} {k : Str} {f : FieldName}
    {record : NormalizedSourceRecord} {v : f.Value} (h : InheritedFrom records k f record v) :
    (mergedOf records k).record.getattr f = some v ∧ record ∈ borrowedSources records k :=
  ⟨getattr_mergedOf_iff.mpr (Or.inr ⟨h.2.1, h.1, record, h.2.2⟩),
    mem_borrowedSources_iff.mpr
      ⟨h.2.2.mem.1, f, record, v, h, NormalizedSourceRecord.beq_self record⟩⟩

/-- Every merged value is that of a source. -/
theorem exists_source_of_getattr {records : List NormalizedSourceRecord} {k : Str} {f : FieldName}
    {v : f.Value} (h : (mergedOf records k).record.getattr f = some v) :
    ∃ s ∈ (mergedOf records k).sources, s.getattr f = some v := by
  rcases getattr_mergedOf_iff.mp h with ⟨record, hsup⟩ | ⟨hmissing, hinh, record, hsup⟩
  · exact ⟨record, List.mem_append_left _ hsup.mem.1, hsup.mem.2⟩
  · have hfrom : InheritedFrom records k f record v := ⟨hinh, hmissing, hsup⟩
    exact ⟨record, List.mem_append_right _ hfrom.merged.2, hsup.mem.2⟩

/-- **Attribution is sound and minimal.** -/
theorem attribution_sound_minimal (records : List NormalizedSourceRecord) :
    ∀ m ∈ mergeSourceRecords records,
      (∀ f v, m.record.getattr f = some v → ∃ s ∈ m.sources, s.getattr f = some v) ∧
      ∃ borrowed, m.sources = exactGroup records m.record.iinStart ++ borrowed ∧
        borrowed.Sublist
          (exactGroup records (m.record.iinStart.take sixDigitPrefixLength)) ∧
        (∀ s ∈ borrowed, ∃ f record v, InheritedFrom records m.record.iinStart f record v ∧
          m.record.getattr f = some v ∧ (record == s) = true) ∧
        ∀ f record v, InheritedFrom records m.record.iinStart f record v →
          m.record.getattr f = some v ∧ record ∈ borrowed := by
  intro m hm
  obtain ⟨keys, -, -, heq⟩ := mergeSourceRecords_eq_map records
  rw [heq] at hm
  obtain ⟨k, -, rfl⟩ := List.mem_map.mp hm
  rw [iinStart_mergedOf]
  refine ⟨fun f v => exists_source_of_getattr, borrowedSources records k, rfl,
    borrowedSources_sublist records k, fun s hs => ?_, fun f record v h => h.merged⟩
  obtain ⟨-, f, record, v, hfrom, hbeq⟩ := mem_borrowedSources_iff.mp hs
  exact ⟨f, record, v, hfrom, hfrom.merged.1, hbeq⟩

/-- An 8-digit record without a category, and a record of its 6-digit prefix with one. -/
def inheritedCategory : List NormalizedSourceRecord :=
  let source : Str → SourceMetadata := fun sourceId => ⟨sourceId, sourceId, [], none, none⟩
  [{ source := source primarySourceId, rowKey := "1".toList, iinStart := "45717360".toList },
    { source := source enrichmentSourceId
      rowKey := "2".toList
      iinStart := "457173".toList
      category := some "classic".toList }]

theorem attribution_sound_minimal_inheritedCategory :
    ∃ s ∈ (mergedOf inheritedCategory "45717360".toList).sources,
      s.getattr .category = some "classic".toList :=
  (attribution_sound_minimal inheritedCategory _ (by decide +kernel)).1 .category _
    (by decide +kernel)

/-! ## Sources that `FIELD_PRIORITY` does not list -/

/-- The source ids of the bundled adapters, the only ones in `FIELD_PRIORITY`. -/
def listedSourceIds : List Str := [primarySourceId, enrichmentSourceId, fallbackSourceId]

theorem fieldPriority_subset (f : FieldName) : fieldPriority f ⊆ listedSourceIds := by
  cases f <;> decide

/-- Only records of sources that no field lists have the key `k`. -/
def CustomOnly (records : List NormalizedSourceRecord) (k : Str) : Prop :=
  ∀ r ∈ exactGroup records k, r.source.sourceId ∉ listedSourceIds

/-- Every merged record of such sources has a value wherever one of its records has one. -/
def CustomSourcesContribute (records : List NormalizedSourceRecord) : Prop :=
  ∀ m ∈ mergeSourceRecords records, CustomOnly records m.record.iinStart →
    ∀ f, (∃ r ∈ exactGroup records m.record.iinStart, r.getattr f ≠ none) →
      m.record.getattr f ≠ none

/-- A value is supplied by a listed source. -/
theorem SuppliedBy.listed {f : FieldName} {group : List NormalizedSourceRecord}
    {record : NormalizedSourceRecord} {v : f.Value} (h : SuppliedBy f group record v) :
    record.source.sourceId ∈ listedSourceIds := by
  obtain ⟨before, sourceId, after, _, _, hpriority, -, rfl, -⟩ := h
  exact fieldPriority_subset f (hpriority ▸ List.mem_append_right _ List.mem_cons_self)

/-- Records of unlisted sources merge to nothing. -/
theorem getattr_of_customOnly {records : List NormalizedSourceRecord} {k : Str}
    (h : CustomOnly records k) (f : FieldName) : (mergedOf records k).record.getattr f = none := by
  refine Option.eq_none_iff_forall_ne_some.mpr fun v hv => ?_
  rcases getattr_mergedOf_iff.mp hv with ⟨record, hsup⟩ | ⟨-, ⟨-, ⟨r, hr, hprimary⟩, -⟩, -⟩
  · exact h record hsup.mem.1 hsup.listed
  · exact h r hr (hprimary ▸ List.mem_cons_self)

/-- **Records of unlisted sources are merged without loss exactly when they have no value.** -/
theorem customSourcesContribute_iff (records : List NormalizedSourceRecord) :
    CustomSourcesContribute records ↔
      ∀ r ∈ records, CustomOnly records r.iinStart → ∀ f, r.getattr f = none := by
  obtain ⟨keys, -, hkeys, heq⟩ := mergeSourceRecords_eq_map records
  unfold CustomSourcesContribute
  rw [heq]
  constructor
  · intro h r hr hcustom f
    by_contra hvalue
    exact h _ (List.mem_map_of_mem ((hkeys _).mpr ⟨r, hr, rfl⟩)) hcustom f
      ⟨r, mem_exactGroup.mpr ⟨hr, rfl⟩, hvalue⟩ (getattr_of_customOnly hcustom f)
  · rintro h m hm hcustom f ⟨r, hr, hvalue⟩
    obtain ⟨hmem, hk⟩ := mem_exactGroup.mp hr
    exact absurd (h r hmem (hk ▸ hcustom) f) hvalue

/-- The record of `ExampleAdapter` in `docs/sources.md`. -/
def exampleRecord : NormalizedSourceRecord where
  source := ⟨"example/source".toList, "example/source".toList,
    "https://example.invalid/source".toList, none, none⟩
  rowKey := "example:1:12345678".toList
  iinStart := "12345678".toList
  scheme := some "visa".toList

/-- The documented example loses its scheme. -/
theorem exampleRecord_loses_scheme : ¬ CustomSourcesContribute [exampleRecord] := by
  have hmem : exampleRecord ∈ exactGroup [exampleRecord] exampleRecord.iinStart :=
    mem_exactGroup.mpr ⟨List.mem_singleton_self _, rfl⟩
  have hcustom : CustomOnly [exampleRecord] exampleRecord.iinStart := fun r hr => by
    rw [List.mem_singleton.mp (mem_exactGroup.mp hr).1]
    decide
  have hmerged : mergedOf [exampleRecord] exampleRecord.iinStart ∈
      mergeSourceRecords [exampleRecord] := by decide +kernel
  exact fun h => h _ hmerged hcustom .scheme ⟨exampleRecord, hmem, by decide⟩ (by decide +kernel)

end CardBinData
