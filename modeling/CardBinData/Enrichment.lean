import CardBinData.AdapterOrder
import CardBinData.Attribution
import CardBinData.History

/-!
# What a source adds

Leave out every record of some sources other than `binlist/data` (`withoutSources`) and compare the
two imports. Ranges are kept from `binlist/data` only, so the ranges stay; the other sources add
keys and values. A merged value changes only to one that a left-out source supplies
(`getattr_without`).

* `enrichment_adds`: with the sources, what was found is found, under the same key or under the
  8-digit candidate itself, and every value that was there is there, unchanged or supplied by one of
  them; what was not found may be found under a candidate.
* `fallback_fills_gaps`: `marlonlp/binlist-data` changes no value that another source has for the
  key. A value inherited from the 6-digit prefix is not safe from it.
-/

namespace CardBinData

open Library

/-! ## Leaving sources out -/

/-- The records of the other sources. -/
def withoutSources (left : List Str) (records : List NormalizedSourceRecord) :
    List NormalizedSourceRecord :=
  records.filter fun r => !left.contains r.source.sourceId

/-- The adapter without the records of some sources. -/
def SourceAdapter.without (left : List Str) (adapter : SourceAdapter) : SourceAdapter :=
  { adapter with records := withoutSources left adapter.records }

theorem emitted_without (left : List Str) (adapters : List SourceAdapter) :
    emitted (adapters.map (SourceAdapter.without left)) =
      withoutSources left (emitted adapters) := by
  unfold emitted withoutSources
  rw [List.flatMap_map, List.filter_flatMap]
  rfl

section Without

variable {left : List Str} {records : List NormalizedSourceRecord} {k : Str} {f : FieldName}

theorem contains_eq_false_iff {sourceId : Str} :
    (!left.contains sourceId) = true ↔ sourceId ∉ left := by simp

theorem mem_withoutSources {r : NormalizedSourceRecord} :
    r ∈ withoutSources left records ↔ r ∈ records ∧ r.source.sourceId ∉ left := by
  simp [withoutSources, List.mem_filter]

theorem exactGroup_without (left : List Str) (records : List NormalizedSourceRecord) (k : Str) :
    exactGroup (withoutSources left records) k = withoutSources left (exactGroup records k) := by
  unfold exactGroup withoutSources
  rw [List.filter_filter, List.filter_filter]
  exact List.filter_congr fun r _ => Bool.and_comm _ _

/-! ## Values -/

theorem SuppliedBy.mem_fieldPriority {group : List NormalizedSourceRecord}
    {record : NormalizedSourceRecord} {v : f.Value} (h : SuppliedBy f group record v) :
    record.source.sourceId ∈ fieldPriority f := by
  obtain ⟨before, _, after, _, _, hpriority, -, rfl, -⟩ := h
  exact hpriority ▸ List.mem_append_right _ List.mem_cons_self

/-- A supplier that is not left out still supplies. -/
theorem SuppliedBy.without {group : List NormalizedSourceRecord} {record : NormalizedSourceRecord}
    {v : f.Value} (h : SuppliedBy f group record v) (hkept : record.source.sourceId ∉ left) :
    SuppliedBy f (withoutSources left group) record v := by
  obtain ⟨before, sourceId, after, front, back, hpriority, rfl, hsource, hv, hbefore, hfront⟩ := h
  refine ⟨before, sourceId, after, withoutSources left front, withoutSources left back, hpriority,
    ?_, hsource, hv, fun r hr => hbefore r (mem_withoutSources.mp hr).1, fun r hr =>
      hfront r (mem_withoutSources.mp hr).1⟩
  unfold withoutSources
  rw [List.filter_append, List.filter_cons,
    if_pos (contains_eq_false_iff.mpr hkept)]

/-- What is supplied without the sources is supplied with them. -/
theorem exists_firstSupplied {group : List NormalizedSourceRecord} {v : f.Value}
    (h : FirstSupplied f (withoutSources left group) v) : ∃ u, FirstSupplied f group u := by
  by_contra hnone
  rw [← mergedValue_eq_none_iff_not_supplied, mergedValue_eq_none_iff] at hnone
  have hmissing : mergedValue f (withoutSources left group) = none :=
    mergedValue_eq_none_iff.mpr fun r hr => hnone r (mem_withoutSources.mp hr).1
  rw [mergedValue_eq_some_iff.mpr h] at hmissing
  exact absurd hmissing (by simp)

variable (hprimary : primarySourceId ∉ left)
include hprimary

theorem inherits_without :
    Inherits (withoutSources left records) k f ↔ Inherits records k f := by
  have hgroup : (∃ r ∈ exactGroup (withoutSources left records) k,
      r.source.sourceId = primarySourceId) ↔
      ∃ r ∈ exactGroup records k, r.source.sourceId = primarySourceId := by
    simp only [exactGroup_without, mem_withoutSources, and_assoc]
    refine exists_congr fun r => and_congr_right fun _ => and_iff_right_of_imp fun hr => ?_
    rwa [hr]
  unfold Inherits
  rw [hgroup]

/-- A value that was there is there. -/
theorem getattr_with {v' : f.Value}
    (h : (mergedOf (withoutSources left records) k).record.getattr f = some v') :
    ∃ v, (mergedOf records k).record.getattr f = some v := by
  by_cases hown : ∃ u, FirstSupplied f (exactGroup records k) u
  · obtain ⟨u, hu⟩ := hown
    exact ⟨u, getattr_mergedOf_iff.mpr (.inl hu)⟩
  rcases getattr_mergedOf_iff.mp h with hsup | ⟨-, hinh, hsup⟩
  · rw [exactGroup_without] at hsup
    exact absurd (exists_firstSupplied hsup) hown
  · rw [exactGroup_without] at hsup
    obtain ⟨v, hv⟩ := exists_firstSupplied hsup
    exact ⟨v, getattr_mergedOf_iff.mpr (.inr ⟨hown, (inherits_without hprimary).mp hinh, hv⟩)⟩

/-- **A merged value is the one without the sources, or one of theirs.** -/
theorem getattr_without {v : f.Value} (h : (mergedOf records k).record.getattr f = some v) :
    (mergedOf (withoutSources left records) k).record.getattr f = some v ∨
      ∃ r ∈ (mergedOf records k).sources, r.source.sourceId ∈ left ∧ r.getattr f = some v := by
  rcases getattr_mergedOf_iff.mp h with ⟨record, hsup⟩ | ⟨hmissing, hinh, record, hsup⟩
  · by_cases hleft : record.source.sourceId ∈ left
    · exact .inr ⟨record, List.mem_append_left _ hsup.mem.1, hleft, hsup.mem.2⟩
    · refine .inl (getattr_mergedOf_iff.mpr (.inl ⟨record, ?_⟩))
      rw [exactGroup_without]
      exact hsup.without hleft
  · by_cases hleft : record.source.sourceId ∈ left
    · have hfrom : InheritedFrom records k f record v := ⟨hinh, hmissing, hsup⟩
      exact .inr ⟨record, List.mem_append_right _ hfrom.merged.2, hleft, hsup.mem.2⟩
    · refine .inl (getattr_mergedOf_iff.mpr (.inr ⟨?_, (inherits_without hprimary).mpr hinh,
        record, ?_⟩))
      · rw [exactGroup_without]
        rintro ⟨u, hu⟩
        exact hmissing (exists_firstSupplied hu)
      · rw [exactGroup_without]
        exact hsup.without hleft

/-! ## Keys -/

omit hprimary in
theorem HasKey.with (h : HasKey (withoutSources left records) k) : HasKey records k := by
  obtain ⟨r, hr, hk⟩ := h
  exact ⟨r, (mem_withoutSources.mp hr).1, hk⟩

/-- The ends of ranges are taken from `binlist/data` only. -/
theorem keptEnd_without (records : List NormalizedSourceRecord) (k : Str) :
    keptEnd (withoutSources left records) k = keptEnd records k := by
  unfold keptEnd withoutSources
  induction records with
  | nil => rfl
  | cons r records ih =>
    rw [List.filter_cons, List.findSome?_cons]
    by_cases hleft : r.source.sourceId ∈ left
    · have hother : ¬ (r.iinStart = k ∧ r.source.sourceId = primarySourceId) := fun h =>
        hprimary (h.2 ▸ hleft)
      rw [if_neg (by simpa using hleft), if_neg hother]
      exact ih
    · rw [if_pos (contains_eq_false_iff.mpr hleft), List.findSome?_cons, ih]

/-- The ranges stay. -/
theorem rangeKey_without {c : Str} :
    RangeKey (withoutSources left records) c k ↔ RangeKey records c k := by
  unfold RangeKey
  rw [keptEnd_without hprimary]

/-- No key around the 8-digit candidate with the sources, none without them. -/
theorem NoEightDigitKey.without {query : LookupQuery} (hno : NoEightDigitKey records query) :
    NoEightDigitKey (withoutSources left records) query := fun c hc =>
  ⟨fun hk => (hno c hc).1 hk.with, fun k hk => (hno c hc).2 k ((rangeKey_without hprimary).mp hk)⟩

/-- **The key chosen with the sources** is the one chosen without them, or the 8-digit candidate, or
a candidate where none was chosen; and in the last two cases only left-out sources have it. -/
theorem chooses_without {query : LookupQuery} {key key' : Option Str}
    (h : Chooses records query key) (h' : Chooses (withoutSources left records) query key') :
    key = key' ∨ ∃ k, key = some k ∧ k ∈ query.candidates ∧
      ¬ HasKey (withoutSources left records) k ∧
      (key' = none ∨ k.length = eightDigitPrefixLength) := by
  have hcandidate : ∀ {n : Nat} {c : Str}, candidateOfLength n query = some c →
      c ∈ query.candidates ∧ c.length = n := fun hc =>
    ⟨List.mem_of_find?_eq_some hc, by simpa using List.find?_some hc⟩
  have hsame : ∀ {n : Nat} {c c' : Str}, candidateOfLength n query = some c →
      candidateOfLength n query = some c' → c = c' := fun hc hc' =>
    Option.some.inj (hc.symm.trans hc')
  cases h with
  | exact8 hc hk =>
    rename_i c
    by_cases hkept : HasKey (withoutSources left records) c
    · left
      cases h' with
      | exact8 hc' _ => exact congrArg some (hsame hc hc')
      | range hc' hno' _ _ => exact absurd (hsame hc hc' ▸ hkept) hno'
      | exact6 hno' _ _ => exact absurd hkept (hno' c hc).1
      | notFound hno' _ => exact absurd hkept (hno' c hc).1
    · exact .inr ⟨c, rfl, (hcandidate hc).1, hkept, .inr (hcandidate hc).2⟩
  | range hc hno hin hbest =>
    rename_i c k
    have hin' := (rangeKey_without hprimary).mpr hin
    left
    cases h' with
    | exact8 hc' hk' => exact absurd (hsame hc hc' ▸ hk'.with) hno
    | range hc' _ hin₂ hbest' =>
      -- the ranges around the candidate are the same, and one is the most specific
      obtain rfl := hsame hc hc'
      have hle := hbest _ ((rangeKey_without hprimary).mp hin₂)
      have hkeys := congrArg (fun p => (ofLex p).2) (le_antisymm (hbest' k hin') hle)
      exact congrArg some hkeys
    | exact6 hno' _ _ => exact absurd hin' ((hno' c hc).2 k)
    | notFound hno' _ => exact absurd hin' ((hno' c hc).2 k)
  | exact6 hno hc hk =>
    have hno' := hno.without hprimary
    cases h' with
    | exact8 hc' hk' => exact absurd hk' (hno' _ hc').1
    | range hc' _ hin' _ => exact absurd hin' ((hno' _ hc').2 _)
    | exact6 _ hc' _ => exact .inl (congrArg some (hsame hc hc'))
    | notFound _ hno6 => exact .inr ⟨_, rfl, (hcandidate hc).1, hno6 _ hc, .inl rfl⟩
  | notFound hno hno6 =>
    have hno' := hno.without hprimary
    left
    cases h' with
    | exact8 hc' hk' => exact absurd hk' (hno' _ hc').1
    | range hc' _ hin' _ => exact absurd hin' ((hno' _ hc').2 _)
    | exact6 _ hc' hk' => exact absurd hk'.with (hno6 _ hc')
    | notFound _ _ => rfl

end Without

/-! ## Lookups -/

/-- The values shown of a key with the sources, and without them: those that were there are there,
and those that changed are from a row of a left-out source, which is among the attributions. -/
structure AddsValues (records : List NormalizedSourceRecord) (left : List Str)
    (sources : List SourceAttribution) (info info' : BinInfo) : Prop where
  key : info.iinStart = info'.iinStart
  kept : ∀ f, info'.field f ≠ none → info.field f ≠ none
  added : ∀ f, info.field f = info'.field f ∨ ∃ r ∈ records, r.source.sourceId ∈ left ∧
    r.getattr f = info.field f ∧
    ∃ a ∈ sources, a.sourceId = r.source.sourceId ∧ a.sourceRowKey = some r.rowKey

/-- The key is a candidate itself, and only left-out sources have it. -/
def AddsKey (records : List NormalizedSourceRecord) (left : List Str) (kept : LookupResult)
    (k : Str) : Prop :=
  k ∈ kept.query.candidates ∧ (∀ r ∈ records, r.iinStart = k → r.source.sourceId ∈ left) ∧
    (kept.data = none ∨ k.length = eightDigitPrefixLength)

/-- The answer `full`, with the sources, and `kept`, without them. -/
structure Enriches (records : List NormalizedSourceRecord) (left : List Str)
    (full kept : LookupResult) : Prop where
  query : full.query = kept.query
  validationWarnings : full.validationWarnings = kept.validationWarnings
  invalid : full.status = .invalid ↔ kept.status = .invalid
  found : kept.status = .found → full.status = .found
  data : ∀ info ∈ full.data,
    (∃ info' ∈ kept.data, AddsValues records left full.sources info info') ∨
      AddsKey records left kept info.iinStart

/-- Answers up to the order of the sources are compared alike. -/
theorem Enriches.like {records : List NormalizedSourceRecord} {left : List Str}
    {full full' kept kept' : LookupResult} (h : Enriches records left full kept)
    (hfull : full'.Like List.Perm full) (hkept : kept'.Like List.Perm kept) :
    Enriches records left full' kept' where
  query := by rw [hfull.query, h.query, hkept.query]
  validationWarnings := by
    rw [hfull.validationWarnings, h.validationWarnings, hkept.validationWarnings]
  invalid := by rw [hfull.status, hkept.status, h.invalid]
  found := by
    rw [hfull.status, hkept.status]
    exact h.found
  data := by
    unfold AddsKey
    rw [hfull.data, hkept.data, hkept.query]
    refine fun info hinfo => (h.data info hinfo).imp_left ?_
    rintro ⟨info', hinfo', hkey, hthere, hadded⟩
    refine ⟨info', hinfo', hkey, hthere, fun f => (hadded f).imp_right ?_⟩
    rintro ⟨r, hr, hleft, hv, a, ha, hshown⟩
    exact ⟨r, hr, hleft, hv, a, hfull.sources.mem_iff.mpr ha, hshown⟩

section Lookup

variable {left : List Str} (hprimary : primarySourceId ∉ left) (self : Catalog)

/-- The catalog without the sources. -/
def Catalog.without (left : List Str) (self : Catalog) (importedAt : Int) : Catalog :=
  ⟨withoutSources left self.records, importedAt⟩

include hprimary

/-- One key, with the sources and without them. -/
theorem addsValues_mergedOf (k : Str) :
    AddsValues self.records left ((mergedOf self.records k).sources.map self.attribution)
      (recordInfo (mergedOf self.records k).record)
      (recordInfo (mergedOf (withoutSources left self.records) k).record) where
  key := rfl
  kept f := by
    rw [field_recordInfo, field_recordInfo]
    intro hvalue
    obtain ⟨v', hv'⟩ := Option.ne_none_iff_exists'.mp hvalue
    obtain ⟨v, hv⟩ := getattr_with hprimary hv'
    rw [hv]
    exact Option.some_ne_none v
  added f := by
    rw [field_recordInfo, field_recordInfo]
    cases hv : (mergedOf self.records k).record.getattr f with
    | none =>
      refine .inl (Option.eq_none_iff_forall_ne_some.mpr fun v' hv' => ?_).symm
      obtain ⟨v, hv₂⟩ := getattr_with hprimary hv'
      exact absurd (hv.symm.trans hv₂) (by simp)
    | some v =>
      rcases getattr_without hprimary hv with hsame | ⟨r, hr, hleft, hget⟩
      · exact .inl hsame.symm
      · exact .inr ⟨r, mem_of_mem_sources hr, hleft, hget, _, List.mem_map_of_mem hr, rfl, rfl⟩

/-- **A lookup with the sources, and without them.** -/
theorem lookup_without (importedAt : Int) (value : Str) (validateLuhn : Bool) :
    Enriches self.records left (self.lookup value validateLuhn)
      ((self.without left importedAt).lookup value validateLuhn) := by
  unfold Catalog.lookup Catalog.lookupAmong
  simp only
  by_cases hstatus : (normalizeLookupInput value validateLuhn).status = .invalid
  · rw [if_pos hstatus, if_pos hstatus]
    exact ⟨rfl, rfl, Iff.rfl, id, by simp [data_normalizeLookupInput]⟩
  rw [if_neg hstatus, if_neg hstatus]
  obtain ⟨key, hkey, hselect⟩ :=
    chooses_select self.records (normalizeLookupInput value validateLuhn).query
  obtain ⟨key', hkey', hselect'⟩ := chooses_select (withoutSources left self.records)
    (normalizeLookupInput value validateLuhn).query
  rw [hselect, Catalog.without, hselect']
  rcases chooses_without hprimary hkey hkey' with rfl | ⟨k, rfl, hcandidate, hnew, hkind⟩
  · cases key with
    | none => exact ⟨rfl, rfl, by simp, by simp, by simp⟩
    | some k =>
      refine ⟨rfl, rfl, by simp, by simp, fun info hinfo => .inl ⟨_, rfl, ?_⟩⟩
      obtain rfl := Option.some.inj hinfo
      exact addsValues_mergedOf hprimary self k
  · refine ⟨?_, ?_, ?_, fun _ => rfl, fun info hinfo => .inr ?_⟩
    · cases key' <;> rfl
    · cases key' <;> rfl
    · cases key' <;> simp
    · obtain rfl := Option.some.inj hinfo
      refine ⟨by cases key' <;> exact hcandidate, fun r hr hk => ?_, ?_⟩
      · by_contra hother
        exact hnew ⟨r, mem_withoutSources.mpr ⟨hr, hother⟩, hk⟩
      · exact hkind.imp (fun hnone => by rw [hnone]; rfl) id

end Lookup

/-! ## Imports -/

/-- Lookups after an import with the sources and one without them are those of the two catalogs. -/
theorem lookups_without (left : List Str) (adapters : List SourceAdapter) (env env' : Environment)
    (storeRawPayload storeRawPayload' : Bool) (w w' : World) :
    PostBoth (storeImportSources env adapters storeRawPayload w)
      (storeImportSources env' (adapters.map (SourceAdapter.without left)) storeRawPayload' w')
      fun _ w₁ _ w₁' => ∀ backend backend' value validateLuhn, ∃ full kept,
        lookupWithSession backend w₁.committed value validateLuhn = some full ∧
        lookupWithSession backend' w₁'.committed value validateLuhn = some kept ∧
        full.Like List.Perm (Catalog.lookup ⟨emitted adapters, env.now⟩ value validateLuhn) ∧
        kept.Like List.Perm
          ((Catalog.without left ⟨emitted adapters, env.now⟩ env'.now).lookup value
            validateLuhn) := by
  refine (storeImportSources_post env adapters storeRawPayload w).both
    (storeImportSources_post env' (adapters.map (SourceAdapter.without left)) storeRawPayload' w')
    fun _ w₁ _ w₁' h h' backend backend' value validateLuhn => ?_
  rw [emitted_without] at h'
  let self : Catalog := ⟨emitted adapters, env.now⟩
  obtain ⟨full, hfull, hlike⟩ := @lookup_represents _ self _ h backend value validateLuhn
  obtain ⟨kept, hkept, hlike'⟩ :=
    @lookup_represents _ (self.without left env'.now) _ h' backend' value validateLuhn
  exact ⟨full, kept, hfull, hkept, hlike, hlike'⟩

/-- **What imports with the sources add to imports without them**, in any two environments and from
any two worlds. -/
def AddsOnly (left : List Str) (adapters : List SourceAdapter) : Prop :=
  ∀ (env env' : Environment) (storeRawPayload storeRawPayload' : Bool) (w w' : World),
    PostBoth (storeImportSources env adapters storeRawPayload w)
      (storeImportSources env' (adapters.map (SourceAdapter.without left)) storeRawPayload' w')
      fun _ w₁ _ w₁' => ∀ backend backend' value validateLuhn, ∃ full kept,
        lookupWithSession backend w₁.committed value validateLuhn = some full ∧
        lookupWithSession backend' w₁'.committed value validateLuhn = some kept ∧
        Enriches (emitted adapters) left full kept

/-- **Sources other than `binlist/data` only add**: keys that are candidates themselves, and values
of their own. -/
theorem enrichment_adds {left : List Str} (hprimary : primarySourceId ∉ left)
    (adapters : List SourceAdapter) : AddsOnly left adapters := by
  intro env env' storeRawPayload storeRawPayload' w w'
  refine (lookups_without left adapters env env' storeRawPayload storeRawPayload' w w').mono
    fun _ w₁ _ w₁' h backend backend' value validateLuhn => ?_
  obtain ⟨full, kept, hfull, hkept, hlike, hlike'⟩ := h backend backend' value validateLuhn
  exact ⟨full, kept, hfull, hkept, (lookup_without hprimary _ _ _ _).like hlike hlike'⟩

theorem enrichment_adds_three : AddsOnly [enrichmentSourceId, fallbackSourceId] threeAdapters :=
  enrichment_adds (by decide) threeAdapters

/-! ## The fallback source -/

section Fallback

variable {records : List NormalizedSourceRecord} {k : Str} {f : FieldName}

/-- No source is listed behind the fallback. -/
theorem fallback_last (f : FieldName) :
    ∀ a ∈ fieldPriority f, ¬ [fallbackSourceId, a].Sublist (fieldPriority f) := by
  cases f <;> decide

/-- What another source supplies, the fallback does not replace. -/
theorem firstSupplied_fallback {group : List NormalizedSourceRecord} {v : f.Value}
    (h : FirstSupplied f (withoutSources [fallbackSourceId] group) v) :
    FirstSupplied f group v := by
  obtain ⟨other, hother⟩ := h
  obtain ⟨hmem, hkept⟩ := mem_withoutSources.mp hother.mem.1
  obtain ⟨u, record, hsup⟩ := exists_firstSupplied ⟨other, hother⟩
  by_cases hfallback : record.source.sourceId ∈ [fallbackSourceId]
  · -- the other source stands before the fallback, and has a value
    obtain ⟨before, sourceId, after, front, back, hpriority, -, hsource, -, hbefore, -⟩ := hsup
    have hlisted := hother.mem_fieldPriority
    rw [hpriority, List.mem_append, List.mem_cons] at hlisted
    rcases hlisted with hlisted | hlisted | hlisted
    · exact absurd (hbefore other hmem hlisted) (by simp [hother.mem.2])
    · rw [hlisted, ← hsource] at hkept
      exact absurd hfallback hkept
    · refine absurd ?_ (fallback_last f other.source.sourceId hother.mem_fieldPriority)
      rw [hpriority, ← hsource, List.mem_singleton.mp hfallback]
      exact (List.Sublist.cons_cons _ (List.singleton_sublist.mpr hlisted)).trans
        (List.sublist_append_right _ _)
  · have hsame := supplier_eq_some_iff.mpr (hsup.without hfallback)
    rw [supplier_eq_some_iff.mpr hother, Option.some.injEq, Prod.mk.injEq] at hsame
    exact ⟨record, hsame.2 ▸ hsup⟩

/-- No record of the enrichment source has a category for the key. -/
def NoCategory (records : List NormalizedSourceRecord) (k : Str) : Prop :=
  ∀ r ∈ records, r.iinStart = k → r.source.sourceId = enrichmentSourceId → r.category = none

/-- Where the key itself has a value with the fallback and none without it, the field is the
category. -/
theorem category_of_fallback {u : f.Value}
    (hcross : f = .category ∨ f = .countryAlpha3 ∨ f = .countryName)
    (hown : FirstSupplied f (exactGroup records k) u)
    (hmissing : ¬ ∃ u,
      FirstSupplied f (withoutSources [fallbackSourceId] (exactGroup records k)) u) :
    f = .category ∧ NoCategory records k := by
  rw [← mergedValue_eq_none_iff_not_supplied, mergedValue_eq_none_iff] at hmissing
  have henrichment : ∀ r ∈ exactGroup records k, r.source.sourceId = enrichmentSourceId →
      r.source.sourceId ∈ fieldPriority f → r.getattr f = none := fun r hr hid hlisted =>
    hmissing r (mem_withoutSources.mpr ⟨hr, by rw [hid]; decide⟩) hlisted
  obtain ⟨record, hsup⟩ := hown
  -- the enrichment source is the only one listed for the two other fields
  have hvalue : record.source.sourceId ≠ enrichmentSourceId := fun hid => by
    have hnone := henrichment record hsup.mem.1 hid hsup.mem_fieldPriority
    exact absurd (hnone.symm.trans hsup.mem.2) (by simp)
  rcases hcross with rfl | rfl | rfl
  · refine ⟨rfl, fun r hr hk hid => henrichment r (mem_exactGroup.mpr ⟨hr, hk⟩) hid ?_⟩
    rw [hid]
    decide
  · exact absurd (List.mem_singleton.mp hsup.mem_fieldPriority) hvalue
  · exact absurd (List.mem_singleton.mp hsup.mem_fieldPriority) hvalue

/-- **The fallback changes no value but an inherited category.** -/
theorem getattr_fallback {v : f.Value}
    (h : (mergedOf (withoutSources [fallbackSourceId] records) k).record.getattr f = some v) :
    (mergedOf records k).record.getattr f = some v ∨ f = .category ∧ NoCategory records k := by
  rcases getattr_mergedOf_iff.mp h with hsup | ⟨hmissing, hinh, hsup⟩
  · rw [exactGroup_without] at hsup
    exact .inl (getattr_mergedOf_iff.mpr (.inl (firstSupplied_fallback hsup)))
  rw [exactGroup_without] at hsup hmissing
  by_cases hown : ∃ u, FirstSupplied f (exactGroup records k) u
  · obtain ⟨u, hu⟩ := hown
    exact .inr (category_of_fallback hinh.2.2 hu hmissing)
  · exact .inl (getattr_mergedOf_iff.mpr
      (.inr ⟨hown, (inherits_without (by decide)).mp hinh, firstSupplied_fallback hsup⟩))

end Fallback

/-- The answer `full`, with the fallback, repeats every value of `kept`, without it, except a
category that is inherited. -/
def FillsGaps (records : List NormalizedSourceRecord) (full kept : LookupResult) : Prop :=
  ∀ info ∈ full.data, ∀ info' ∈ kept.data, info.iinStart = info'.iinStart →
    ∀ f, info'.field f ≠ none →
      info.field f = info'.field f ∨ f = .category ∧ NoCategory records info.iinStart

/-- **`marlonlp/binlist-data` fills gaps.** -/
theorem fallback_fills_gaps (adapters : List SourceAdapter) (env env' : Environment)
    (storeRawPayload storeRawPayload' : Bool) (w w' : World) :
    PostBoth (storeImportSources env adapters storeRawPayload w)
      (storeImportSources env' (adapters.map (SourceAdapter.without [fallbackSourceId]))
        storeRawPayload' w')
      fun _ w₁ _ w₁' => ∀ backend backend' value validateLuhn, ∃ full kept,
        lookupWithSession backend w₁.committed value validateLuhn = some full ∧
        lookupWithSession backend' w₁'.committed value validateLuhn = some kept ∧
        FillsGaps (emitted adapters) full kept := by
  refine (lookups_without _ adapters env env' storeRawPayload storeRawPayload' w w').mono
    fun _ w₁ _ w₁' h backend backend' value validateLuhn => ?_
  obtain ⟨full, kept, hfull, hkept, hlike, hlike'⟩ := h backend backend' value validateLuhn
  refine ⟨full, kept, hfull, hkept, fun info hinfo info' hinfo' hk f hvalue => ?_⟩
  rw [hlike.data] at hinfo
  rw [hlike'.data] at hinfo'
  rw [data_lookup hinfo, data_lookup hinfo', field_recordInfo, field_recordInfo]
  rw [data_lookup hinfo', field_recordInfo] at hvalue
  obtain ⟨v, hv⟩ := Option.ne_none_iff_exists'.mp hvalue
  rw [hv]
  rw [← hk] at hv
  exact getattr_fallback hv

/-- An 8-digit key that inherits its category, and a fallback record with another. -/
def inheritedAndFallback : Catalog where
  records :=
    let source : Str → SourceMetadata := fun sourceId => ⟨sourceId, sourceId, [], none, none⟩
    inheritedCategory ++
      [{ source := source fallbackSourceId
         rowKey := "3".toList
         iinStart := "45717360".toList
         category := some "gold".toList }]

-- a value inherited from the 6-digit prefix is not safe from the fallback
example :
    ((inheritedAndFallback.without [fallbackSourceId] 0).lookup "45717360".toList false).data.bind
        (·.category) = some "classic".toList ∧
      (inheritedAndFallback.lookup "45717360".toList false).data.bind (·.category) =
        some "gold".toList := by
  decide +kernel

end CardBinData
