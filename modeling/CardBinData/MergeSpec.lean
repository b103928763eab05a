import CardBinData.Merge

/-!
# What the merge computes

`Window done prefixGroups` is the invariant of the walk over the groups: the window holds the
6-digit groups among `done` whose key begins the last key, and no other. An entry is dropped at
the first key that does not start with it. Keys increase, and everything between `p` and an
extension of `p` starts with `p` (`isPrefix_of_le_of_le`), so no key that could still need the
entry comes later. Hence the window gives each 8-digit group the whole group of its 6-digit
prefix, wherever those records stand in the input.

* `mergeSourceRecords_eq_map`: the merge is one `mergedOf` for each distinct `iin_start`, in
  increasing order, and `mergedOf records k` depends on the records of `k` and of its prefix only.
* `mergeSorted_refines`: the streaming merge of the sorted list yields exactly that.
* `merge_spec`: the value of every field, from `FirstSupplied`: the first value by source
  priority and then by input order.
* `getattr_mergedOf_map`, `sources_mergedOf_map`: a relabelling of the source metadata
  (`Relabels`) keeps the merged values, and relabels the contributions where rows tell the
  records of a key apart.
-/

namespace CardBinData

open Library

/-! ## The prefix window -/

/-- The window holds the 6-digit groups of `done` whose key begins the last key. -/
def Window (done : List (Str × List NormalizedSourceRecord)) (prefixGroups : PrefixGroups) : Prop :=
  ∀ p g, prefixGroups.get? p = some g ↔
    (p, g) ∈ done ∧ p.length = sixDigitPrefixLength ∧ ∃ last ∈ done.getLast?, p <+: last.1

theorem window_nil : Window [] Dict.empty := fun p g => by simp

theorem startswith_iff {s p : Str} : startswith s p = true ↔ p <+: s := List.isPrefixOf_iff_prefix

/-- `_drop_expired_prefix_groups` keeps the entries the key starts with. -/
theorem get?_dropExpired (prefixGroups : PrefixGroups) (k p : Str)
    (g : List NormalizedSourceRecord) :
    (dropExpiredPrefixGroups prefixGroups k).get? p = some g ↔
      prefixGroups.get? p = some g ∧ p <+: k := by
  have h : ∀ (l : List Str) (d : PrefixGroups),
      (l.foldl (fun d p => if startswith k p then d else d.erase p) d).get? p = some g ↔
        d.get? p = some g ∧ (p ∈ l → p <+: k) := by
    intro l
    induction l with
    | nil => intro d; simp
    | cons q l ih =>
      intro d
      rw [List.foldl_cons, ih]
      by_cases hq : q <+: k
      · rw [if_pos (startswith_iff.mpr hq), List.mem_cons]
        refine and_congr Iff.rfl ⟨fun hl => ?_, fun hl hp => hl (Or.inr hp)⟩
        rintro (rfl | hp)
        · exact hq
        · exact hl hp
      · rw [if_neg fun hs => hq (startswith_iff.mp hs), Dict.get?_erase, List.mem_cons]
        by_cases hp : p = q
        · subst hp
          simp [hq]
        · simp [hp]
  unfold dropExpiredPrefixGroups
  rw [h]
  refine and_congr_right fun hg => ⟨fun hk => hk ?_, fun hk _ => hk⟩
  exact Dict.mem_keys_iff.mpr ⟨g, hg⟩

section Walk

variable {records : List NormalizedSourceRecord} {gs : List (Str × List NormalizedSourceRecord)}
  {done rest : List (Str × List NormalizedSourceRecord)} {prefixGroups : PrefixGroups}
  {k : Str} {group : List NormalizedSourceRecord}

/-- Keys of groups done earlier are below the current one. -/
theorem lt_of_mem_done (hsorted : ((done ++ (k, group) :: rest).map Prod.fst).Pairwise (· < ·))
    {q : Str × List NormalizedSourceRecord} (hq : q ∈ done) : q.1 < k := by
  rw [List.map_append, List.pairwise_append] at hsorted
  exact hsorted.2.2 q.1 (List.mem_map_of_mem hq) k (by simp)

/-- A group below the current one is among those done. -/
theorem mem_done_iff (hsorted : ((done ++ (k, group) :: rest).map Prod.fst).Pairwise (· < ·))
    {p : Str} {g : List NormalizedSourceRecord} (hp : p < k) :
    (p, g) ∈ done ++ (k, group) :: rest ↔ (p, g) ∈ done := by
  refine ⟨fun h => ?_, fun h => List.mem_append_left _ h⟩
  rw [List.map_append, List.pairwise_append, List.map_cons, List.pairwise_cons] at hsorted
  rcases List.mem_append.mp h with h | h
  · exact h
  · rcases List.mem_cons.mp h with h | h
    · exact absurd (Prod.mk.inj h).1 hp.ne
    · exact absurd (hsorted.2.1.1 p (List.mem_map_of_mem (f := Prod.fst) h)) hp.asymm

/-- **No needed entry is dropped**: after dropping, the window holds every 6-digit group seen
whose key begins the current one. -/
theorem get?_live (hw : Window done prefixGroups)
    (hsorted : ((done ++ (k, group) :: rest).map Prod.fst).Pairwise (· < ·)) {p : Str}
    {g : List NormalizedSourceRecord} :
    (dropExpiredPrefixGroups prefixGroups k).get? p = some g ↔
      (p, g) ∈ done ∧ p.length = sixDigitPrefixLength ∧ p <+: k := by
  rw [get?_dropExpired, hw]
  constructor
  · rintro ⟨⟨hd, hlen, -⟩, hpk⟩
    exact ⟨hd, hlen, hpk⟩
  · rintro ⟨hd, hlen, hpk⟩
    refine ⟨⟨hd, hlen, ?_⟩, hpk⟩
    obtain ⟨last, hlast⟩ : ∃ last, done.getLast? = some last :=
      Option.isSome_iff_exists.mp (by simpa using List.ne_nil_of_mem hd)
    refine ⟨last, hlast, ?_⟩
    have hlast_mem : last ∈ done := List.mem_of_getLast? hlast
    -- `p ≤ last < k`, and `k` extends `p`, so `last` does too
    have hpl : p ≤ last.1 := by
      obtain ⟨front, hfront⟩ := List.getLast?_eq_some_iff.mp hlast
      rw [hfront] at hd hsorted
      rcases List.mem_append.mp hd with hd | hd
      · rw [List.append_assoc, List.map_append, List.pairwise_append] at hsorted
        exact (hsorted.2.2 p (List.mem_map_of_mem (f := Prod.fst) hd) last.1 (by simp)).le
      · rw [← List.mem_singleton.mp hd]
    obtain ⟨x, hx⟩ := hpk
    exact isPrefix_of_le_of_le hpl (x := x) (hx ▸ (lt_of_mem_done hsorted hlast_mem).le)

/-- **The step preserves the window.** -/
theorem window_step (hw : Window done prefixGroups)
    (hsorted : ((done ++ (k, group) :: rest).map Prod.fst).Pairwise (· < ·)) :
    Window (done ++ [(k, group)]) (mergeSortedGroup prefixGroups (k, group)).1 := by
  intro p g
  have hlast : (∃ last ∈ (done ++ [(k, group)]).getLast?, p <+: last.1) ↔ p <+: k := by simp
  rw [hlast, List.mem_append, List.mem_singleton, Prod.mk.injEq]
  have hk : ∀ g', (k, g') ∉ done := fun g' hm => absurd (lt_of_mem_done hsorted hm) (lt_irrefl k)
  change (if k.length = sixDigitPrefixLength then
    (dropExpiredPrefixGroups prefixGroups k).set k group
    else dropExpiredPrefixGroups prefixGroups k).get? p = some g ↔ _
  split
  · rename_i hlen
    rw [Dict.get?_set]
    by_cases hp : p = k
    · subst hp
      rw [if_pos rfl]
      simp [hk, hlen, eq_comm]
    · rw [if_neg hp, get?_live hw hsorted]
      simp [hp]
  · rename_i hlen
    rw [get?_live hw hsorted]
    by_cases hp : p = k
    · subst hp
      simp [hk, hlen]
    · simp [hp]

end Walk

/-! ## The merged record of a key -/

/-- The records with a given `iin_start`, in input order. -/
def exactGroup (records : List NormalizedSourceRecord) (k : Str) : List NormalizedSourceRecord :=
  records.filter fun r => decide (r.iinStart = k)

/-- The group an 8-digit group with a `binlist/data` record may inherit from. -/
def prefixGroupOf (records : List NormalizedSourceRecord) (k : Str) :
    Option (List NormalizedSourceRecord) :=
  if k.length = eightDigitPrefixLength ∧
      (∃ r ∈ exactGroup records k, r.source.sourceId = primarySourceId) ∧
      exactGroup records (k.take sixDigitPrefixLength) ≠ [] then
    some (exactGroup records (k.take sixDigitPrefixLength))
  else none

/-- The merged record of `k`, from the whole input. -/
def mergedOf (records : List NormalizedSourceRecord) (k : Str) : MergedSourceRecord :=
  ⟨(mergeGroup k (exactGroup records k) (prefixGroupOf records k)).1,
    exactGroup records k ++ (mergeGroup k (exactGroup records k) (prefixGroupOf records k)).2⟩

theorem mem_exactGroup {records : List NormalizedSourceRecord} {k : Str}
    {r : NormalizedSourceRecord} : r ∈ exactGroup records k ↔ r ∈ records ∧ r.iinStart = k := by
  simp [exactGroup, List.mem_filter]

theorem exactGroup_eq_nil {records : List NormalizedSourceRecord} {k : Str}
    (h : ¬ ∃ r ∈ records, r.iinStart = k) : exactGroup records k = [] :=
  List.eq_nil_iff_forall_not_mem.mpr fun r hr => h ⟨r, mem_exactGroup.mp hr⟩

theorem iinStart_mergedOf (records : List NormalizedSourceRecord) (k : Str) :
    (mergedOf records k).record.iinStart = k := rfl

/-- The sources of a merged record are records of the input. -/
theorem mem_of_mem_sources {records : List NormalizedSourceRecord} {k : Str}
    {s : NormalizedSourceRecord} (hs : s ∈ (mergedOf records k).sources) : s ∈ records := by
  rcases List.mem_append.mp hs with hs | hs
  · exact (mem_exactGroup.mp hs).1
  · have hp := List.mem_of_mem_filter hs
    unfold prefixGroupOf at hp
    split at hp
    · exact (mem_exactGroup.mp hp).1
    · exact absurd hp List.not_mem_nil

section Walk

variable {records : List NormalizedSourceRecord}
  {done rest : List (Str × List NormalizedSourceRecord)} {prefixGroups : PrefixGroups} {k : Str}
  {group : List NormalizedSourceRecord}

/-- What is left of the window holds the group of the 6-digit prefix, wherever its records stand. -/
theorem get?_live_prefix
    (hg : Grouping NormalizedSourceRecord.iinStart records (done ++ (k, group) :: rest))
    (hw : Window done prefixGroups) (hlen : k.length = eightDigitPrefixLength) :
    (dropExpiredPrefixGroups prefixGroups k).get? (k.take sixDigitPrefixLength) =
      if exactGroup records (k.take sixDigitPrefixLength) ≠ [] then
        some (exactGroup records (k.take sixDigitPrefixLength))
      else none := by
  have hshort : sixDigitPrefixLength < k.length := by
    rw [hlen]
    decide
  have hlen6 : (k.take sixDigitPrefixLength).length = sixDigitPrefixLength :=
    List.length_take_of_le hshort.le
  apply Option.ext
  intro g
  rw [get?_live hw hg.sorted, ← mem_done_iff hg.sorted (take_lt hshort), hg.mem_iff]
  change (g = exactGroup records _ ∧ g ≠ []) ∧ _ ↔ _
  split
  · rename_i hne
    rw [Option.some.injEq]
    constructor
    · rintro ⟨⟨rfl, -⟩, -⟩
      rfl
    · rintro rfl
      exact ⟨⟨rfl, hne⟩, hlen6, List.take_prefix _ _⟩
  · rename_i hnil
    refine ⟨?_, fun h => absurd h (by simp)⟩
    rintro ⟨⟨rfl, hne⟩, -⟩
    exact absurd hne hnil

theorem any_primary_iff {group : List NormalizedSourceRecord} :
    group.any (fun r => decide (r.source.sourceId = primarySourceId)) = true ↔
      ∃ r ∈ group, r.source.sourceId = primarySourceId := by
  simp

/-- The window hands an 8-digit group the group of its prefix. -/
theorem sixDigitPrefixGroup_eq
    (hg : Grouping NormalizedSourceRecord.iinStart records (done ++ (k, group) :: rest))
    (hw : Window done prefixGroups) :
    sixDigitPrefixGroup k group (dropExpiredPrefixGroups prefixGroups k) =
      prefixGroupOf records k := by
  have hgroup : group = exactGroup records k := hg.group (k, group) (by simp)
  unfold sixDigitPrefixGroup prefixGroupOf
  by_cases hlen : k.length = eightDigitPrefixLength
  · rw [if_neg (not_not.mpr hlen), ← hgroup]
    by_cases hprim : ∃ r ∈ group, r.source.sourceId = primarySourceId
    · rw [any_primary_iff.mpr hprim, Bool.not_true, if_neg Bool.false_ne_true,
        get?_live_prefix hg hw hlen]
      simp only [hlen, hprim, true_and]
    · rw [Bool.eq_false_iff.mpr fun h => hprim (any_primary_iff.mp h), Bool.not_false, if_pos rfl,
        if_neg fun h => hprim h.2.1]
  · rw [if_pos hlen, if_neg fun h => hlen h.1]

end Walk

/-- The walk over the grouping merges each key from the whole input. -/
theorem run_mergeSortedGroups {records : List NormalizedSourceRecord}
    {gs : List (Str × List NormalizedSourceRecord)}
    (hg : Grouping NormalizedSourceRecord.iinStart records gs) :
    mergeSortedGroups.run mergeSortedGroups.init gs =
      (gs.map Prod.fst).map (mergedOf records) := by
  have h : List.Forall₂ (fun g m => m = mergedOf records g.1) gs
      (mergeSortedGroups.run mergeSortedGroups.init gs) := by
    refine Transducer.run_mapAccum_forall₂ window_nil fun done g rest s hl hw => ?_
    obtain ⟨k, group⟩ := g
    subst hl
    refine ⟨window_step hw hg.sorted, ?_⟩
    have hgroup : group = exactGroup records k := hg.group (k, group) (by simp)
    simp only [mergeSortedGroup, sixDigitPrefixGroup_eq hg hw]
    rw [hgroup]
    rfl
  rw [List.map_map]
  clear hg
  generalize mergeSortedGroups.run mergeSortedGroups.init gs = out at h
  induction h with
  | nil => rfl
  | cons hm _ ih => rw [List.map_cons, ih, hm, Function.comp]

/-- **The merge is one merged record for each distinct key, in increasing order.** -/
theorem mergeSourceRecords_eq_map (records : List NormalizedSourceRecord) :
    ∃ keys : List Str, keys.Pairwise (· < ·) ∧
      (∀ k, k ∈ keys ↔ ∃ r ∈ records, r.iinStart = k) ∧
      mergeSourceRecords records = keys.map (mergedOf records) :=
  have hg := grouping_sortedItems NormalizedSourceRecord.iinStart records
  ⟨_, hg.sorted, hg.keys, run_mergeSortedGroups hg⟩

/-! ## The streaming merge -/

/-- The walk over the runs of the sorted records is the in-memory merge. -/
theorem run_runs_stableSort (records : List NormalizedSourceRecord) :
    mergeSortedGroups.run mergeSortedGroups.init
      ((runs NormalizedSourceRecord.iinStart).run (runs NormalizedSourceRecord.iinStart).init
        (stableSort NormalizedSourceRecord.iinStart records)) = mergeSourceRecords records := by
  have hruns := grouping_stableSort_iff.mp
    (grouping_runs (pairwise_stableSort NormalizedSourceRecord.iinStart records))
  rw [hruns.unique (grouping_sortedItems NormalizedSourceRecord.iinStart records)]
  rfl

/-- On a list, in any monad, the streaming merge of the sorted list is the in-memory merge. -/
theorem mergeSorted_ofList {m : Type → Type} [Monad m] [LawfulMonad m]
    (records : List NormalizedSourceRecord) :
    mergeSortedSourceRecords
      (Gen.ofList (stableSort NormalizedSourceRecord.iinStart records) : Gen m _) =
      Gen.ofList (mergeSourceRecords records) := by
  unfold mergeSortedSourceRecords iterSortedGroups
  rw [Gen.transduce_ofList, Gen.transduce_ofList, run_runs_stableSort]

/-- **The streaming merge refines the in-memory merge**: fed the records stably sorted by
`iin_start`, it yields the same merged records in the same order. -/
theorem mergeSorted_refines (records : List NormalizedSourceRecord) :
    (mergeSortedSourceRecords
      (Gen.ofList (stableSort NormalizedSourceRecord.iinStart records) :
        Gen Id NormalizedSourceRecord)).toList =
      mergeSourceRecords records := by
  rw [mergeSorted_ofList, Gen.toList_ofList]

/-! ## The value of a field -/

/-- `record` supplies `v` for `f`: it is the first record with a value, by source priority and then
by position. No record of a source listed earlier has a value, and no earlier record of the same
source. -/
def SuppliedBy (f : FieldName) (group : List NormalizedSourceRecord)
    (record : NormalizedSourceRecord) (v : f.Value) : Prop :=
  ∃ (before : List Str) (sourceId : Str) (after : List Str)
    (front back : List NormalizedSourceRecord),
    fieldPriority f = before ++ sourceId :: after ∧ group = front ++ record :: back ∧
    record.source.sourceId = sourceId ∧ record.getattr f = some v ∧
    (∀ r ∈ group, r.source.sourceId ∈ before → r.getattr f = none) ∧
    ∀ r ∈ front, r.source.sourceId = sourceId → r.getattr f = none

/-- `v` is the first value for `f` in `group`. -/
def FirstSupplied (f : FieldName) (group : List NormalizedSourceRecord) (v : f.Value) : Prop :=
  ∃ record, SuppliedBy f group record v

/-- The inner loop finds nothing when no record of the source has a value. -/
theorem scan_eq_none_iff {f : FieldName} {group : List NormalizedSourceRecord} {s : Str} :
    (group.findSome? fun record =>
      if record.source.sourceId = s then (record.getattr f).map fun v => (record, v) else none) =
      none ↔ ∀ r ∈ group, r.source.sourceId = s → r.getattr f = none := by
  rw [List.findSome?_eq_none_iff]
  refine forall_congr' fun r => forall_congr' fun _ => ?_
  by_cases hs : r.source.sourceId = s <;> simp [hs]

theorem scan_eq_some_iff {f : FieldName} {group : List NormalizedSourceRecord} {s : Str}
    {record : NormalizedSourceRecord} {v : f.Value} :
    (group.findSome? fun record =>
      if record.source.sourceId = s then (record.getattr f).map fun v => (record, v) else none) =
      some (record, v) ↔
      ∃ front back, group = front ++ record :: back ∧ record.source.sourceId = s ∧
        record.getattr f = some v ∧
        ∀ r ∈ front, r.source.sourceId = s → r.getattr f = none := by
  rw [List.findSome?_eq_some_iff]
  constructor
  · rintro ⟨front, a, back, hl, ha, hfront⟩
    split at ha
    · rename_i hs
      obtain ⟨u, hu, he⟩ := Option.map_eq_some_iff.mp ha
      obtain ⟨rfl, rfl⟩ := Prod.mk.inj he
      refine ⟨front, back, hl, hs, hu, fun r hr hrs => ?_⟩
      simpa [hrs] using hfront r hr
    · exact absurd ha (by simp)
  · rintro ⟨front, back, hl, hs, hv, hfront⟩
    refine ⟨front, record, back, hl, by simp [hs, hv], fun r hr => ?_⟩
    by_cases hrs : r.source.sourceId = s
    · simp [hrs, hfront r hr hrs]
    · simp [hrs]

/-- **The two loops of `_merged_value` find the supplying record.** -/
theorem supplier_eq_some_iff {f : FieldName} {group : List NormalizedSourceRecord}
    {record : NormalizedSourceRecord} {v : f.Value} :
    supplier f group = some (record, v) ↔ SuppliedBy f group record v := by
  unfold supplier SuppliedBy
  rw [List.findSome?_eq_some_iff]
  simp only [scan_eq_some_iff, scan_eq_none_iff]
  constructor
  · rintro ⟨before, s, after, hp, ⟨front, back, hl, hs, hv, hfront⟩, hbefore⟩
    exact ⟨before, s, after, front, back, hp, hl, hs, hv,
      fun r hr hrs => hbefore _ hrs r hr rfl, hfront⟩
  · rintro ⟨before, s, after, front, back, hp, hl, hs, hv, hbefore, hfront⟩
    exact ⟨before, s, after, hp, ⟨front, back, hl, hs, hv, hfront⟩,
      fun s' hs' r hr hrs => hbefore r hr (hrs ▸ hs')⟩

theorem mergedValue_eq_some_iff {f : FieldName} {group : List NormalizedSourceRecord}
    {v : f.Value} : mergedValue f group = some v ↔ FirstSupplied f group v := by
  unfold mergedValue FirstSupplied
  rw [Option.map_eq_some_iff]
  simp only [Prod.exists, exists_eq_right, supplier_eq_some_iff]

theorem mergedValue_eq_none_iff_not_supplied {f : FieldName}
    {group : List NormalizedSourceRecord} :
    mergedValue f group = none ↔ ¬ ∃ u, FirstSupplied f group u := by
  simp only [Option.eq_none_iff_forall_ne_some, ne_eq, mergedValue_eq_some_iff, not_exists]

/-- A field is missing when no record of a source listed for it has a value. -/
theorem mergedValue_eq_none_iff {f : FieldName} {group : List NormalizedSourceRecord} :
    mergedValue f group = none ↔
      ∀ r ∈ group, r.source.sourceId ∈ fieldPriority f → r.getattr f = none := by
  unfold mergedValue supplier
  rw [Option.map_eq_none_iff, List.findSome?_eq_none_iff]
  simp only [scan_eq_none_iff]
  exact ⟨fun h r hr hlisted => h _ hlisted r hr rfl,
    fun h s hs r hr hsource => h r hr (hsource ▸ hs)⟩

theorem mergedValueWith_fst (f : FieldName) (group acc : List NormalizedSourceRecord) :
    (mergedValueWith f group acc).1 = mergedValue f group := by
  unfold mergedValueWith mergedValue
  cases supplier f group <;> rfl

theorem mem_crossPrefixFieldNames {f : FieldName} :
    f ∈ crossPrefixFieldNames ↔ f = .category ∨ f = .countryAlpha3 ∨ f = .countryName := by
  have h : crossPrefixFieldNames = [.category, .countryAlpha3, .countryName] := by decide
  simp [h]

/-- The loop over the cross-prefix fields fills the missing ones from the prefix group and leaves
every other value alone. -/
theorem foldl_crossPrefixStep (prefixGroup : List NormalizedSourceRecord) (l : List FieldName)
    (s : MergedValues × List NormalizedSourceRecord) (f : FieldName) (hl : l.Nodup) :
    (l.foldl (crossPrefixStep prefixGroup) s).1 f =
      if f ∈ l ∧ s.1 f = none then mergedValue f prefixGroup else s.1 f := by
  induction l generalizing s with
  | nil => simp
  | cons g l ih =>
    obtain ⟨hg, hl⟩ := List.nodup_cons.mp hl
    rw [List.foldl_cons, ih _ hl]
    have hother : f ≠ g → (crossPrefixStep prefixGroup s g).1 f = s.1 f := fun hfg => by
      unfold crossPrefixStep
      split
      · exact Function.update_of_ne hfg _ _
      · rfl
    by_cases hfg : f = g
    · subst hfg
      rw [if_neg fun h => hg h.1]
      unfold crossPrefixStep
      split
      · rename_i hnone
        rw [Option.isNone_iff_eq_none] at hnone
        simp [mergedValueWith_fst, hnone]
      · rename_i hsome
        rw [Option.isNone_iff_eq_none] at hsome
        rw [if_neg fun h => hsome h.2]
    · rw [hother hfg]
      simp [hfg]

theorem mergedValues_fst (group : List NormalizedSourceRecord)
    (prefixGroup : Option (List NormalizedSourceRecord)) (f : FieldName) :
    (mergedValues group prefixGroup).1 f =
      (mergedValue f group).or
        (if f ∈ crossPrefixFieldNames then prefixGroup.bind (mergedValue f) else none) := by
  cases prefixGroup with
  | none => cases h : mergedValue f group <;> simp [mergedValues, h]
  | some pg =>
    have hnd : crossPrefixFieldNames.Nodup := by decide
    change (crossPrefixFieldNames.foldl (crossPrefixStep pg) _).1 f = _
    rw [foldl_crossPrefixStep _ _ _ _ hnd]
    cases hf : mergedValue f group with
    | none => by_cases hm : f ∈ crossPrefixFieldNames <;> simp [hm, hf]
    | some v => simp [hf]

/-- `replace(seed, …)` writes every merged value into its own field. -/
theorem getattr_mergeGroup (k : Str) (group : List NormalizedSourceRecord)
    (prefixGroup : Option (List NormalizedSourceRecord)) (f : FieldName) :
    (mergeGroup k group prefixGroup).1.getattr f = (mergedValues group prefixGroup).1 f := by
  cases f <;> rfl

/-- What the merge inherits across prefixes: the field, for this key. -/
def Inherits (records : List NormalizedSourceRecord) (k : Str) (f : FieldName) : Prop :=
  k.length = eightDigitPrefixLength ∧
    (∃ r ∈ exactGroup records k, r.source.sourceId = primarySourceId) ∧
    (f = .category ∨ f = .countryAlpha3 ∨ f = .countryName)

/-- A merged field, read off the whole input. -/
theorem getattr_mergedOf_iff {records : List NormalizedSourceRecord} {k : Str} {f : FieldName}
    {v : f.Value} :
    (mergedOf records k).record.getattr f = some v ↔
      FirstSupplied f (exactGroup records k) v ∨
        ((¬ ∃ u, FirstSupplied f (exactGroup records k) u) ∧ Inherits records k f ∧
          FirstSupplied f (exactGroup records (k.take sixDigitPrefixLength)) v) := by
  change (mergeGroup k _ _).1.getattr f = some v ↔ _
  rw [getattr_mergeGroup, mergedValues_fst]
  simp only [← mergedValue_eq_some_iff]
  cases hx : mergedValue f (exactGroup records k) with
  | some u => simp
  | none =>
    have hnil : mergedValue f [] = none := by
      unfold mergedValue supplier
      simp
    unfold Inherits prefixGroupOf
    simp only [Option.none_or, reduceCtorEq, false_or, ← mem_crossPrefixFieldNames]
    by_cases hf : f ∈ crossPrefixFieldNames
    · by_cases hlen : k.length = eightDigitPrefixLength
      · by_cases hprim : ∃ r ∈ exactGroup records k, r.source.sourceId = primarySourceId
        · by_cases hne : exactGroup records (k.take sixDigitPrefixLength) = []
          · simp [hf, hlen, hprim, hne, hnil]
          · simp [hf, hlen, hprim, hne]
        · simp [hprim]
      · simp [hlen]
    · simp [hf]

/-! ## Records that the merge cannot tell apart -/

/-- What tells the records of a group apart: the source and the row. -/
def rowId (r : NormalizedSourceRecord) : Str × Str := (r.source.sourceId, r.rowKey)

theorem rowId_of_beq {a b : NormalizedSourceRecord} (h : (a == b) = true) : rowId a = rowId b := by
  have hid := congrArg rowId (NormalizedSourceRecord.eq_of_beq h)
  exact hid

/-- `φ` changes nothing that the merge reads. -/
structure Relabels (φ : NormalizedSourceRecord → NormalizedSourceRecord) : Prop where
  iinStart : ∀ r, (φ r).iinStart = r.iinStart
  rowId : ∀ r, rowId (φ r) = rowId r
  getattr : ∀ r f, (φ r).getattr f = r.getattr f

section Relabels

variable {φ : NormalizedSourceRecord → NormalizedSourceRecord} (h : Relabels φ)
include h

theorem Relabels.sourceId (r : NormalizedSourceRecord) :
    (φ r).source.sourceId = r.source.sourceId := congrArg Prod.fst (h.rowId r)

theorem exactGroup_map (records : List NormalizedSourceRecord) (k : Str) :
    exactGroup (records.map φ) k = (exactGroup records k).map φ := by
  unfold exactGroup
  rw [List.filter_map]
  refine congrArg (List.map φ) (List.filter_congr fun r _ => ?_)
  rw [Function.comp, h.iinStart]

theorem supplier_map (f : FieldName) (group : List NormalizedSourceRecord) :
    supplier f (group.map φ) = (supplier f group).map fun p => (φ p.1, p.2) := by
  unfold supplier
  rw [List.map_findSome?]
  congr 1
  funext sourceId
  rw [Function.comp, List.findSome?_map, List.map_findSome?]
  congr 1
  funext r
  simp only [Function.comp, h.sourceId, h.getattr]
  split
  · rw [Option.map_map]
    rfl
  · rfl

theorem mergedValue_map (f : FieldName) (group : List NormalizedSourceRecord) :
    mergedValue f (group.map φ) = mergedValue f group := by
  unfold mergedValue
  rw [supplier_map h, Option.map_map]
  rfl

theorem prefixGroupOf_map (records : List NormalizedSourceRecord) (k : Str) :
    prefixGroupOf (records.map φ) k = (prefixGroupOf records k).map (List.map φ) := by
  unfold prefixGroupOf
  simp only [exactGroup_map h, List.mem_map, exists_exists_and_eq_and, h.sourceId, ne_eq,
    List.map_eq_nil_iff]
  split <;> rfl

/-- A merged field depends on the records through their keys, source ids and fields only. -/
theorem getattr_mergedOf_map (records : List NormalizedSourceRecord) (k : Str) (f : FieldName) :
    (mergedOf (records.map φ) k).record.getattr f = (mergedOf records k).record.getattr f := by
  change (mergeGroup k _ _).1.getattr f = (mergeGroup k _ _).1.getattr f
  rw [getattr_mergeGroup, getattr_mergeGroup, mergedValues_fst, mergedValues_fst,
    exactGroup_map h, mergedValue_map h, prefixGroupOf_map h]
  cases prefixGroupOf records k with
  | none => rfl
  | some group => simp only [Option.map_some, Option.bind_some, mergedValue_map h]

/-! ## Contributions under a relabelling -/

variable {group : List NormalizedSourceRecord} (hnd : (group.map rowId).Nodup)
include hnd

/-- Where rows tell the records apart, records are equal only when they are the same. -/
theorem isIn_map {r : NormalizedSourceRecord} (hr : r ∈ group)
    {acc : List NormalizedSourceRecord} (hacc : acc ⊆ group) :
    isIn (φ r) (acc.map φ) = isIn r acc := by
  unfold isIn
  rw [Bool.eq_iff_iff, List.any_eq_true, List.any_eq_true]
  simp only [List.mem_map, exists_exists_and_eq_and]
  refine exists_congr fun a => and_congr_right fun ha => ⟨fun heq => ?_, fun heq => ?_⟩
  · have hid : rowId a = rowId r :=
      (h.rowId a).symm.trans ((rowId_of_beq heq).trans (h.rowId r))
    rw [List.inj_on_of_nodup_map hnd (hacc ha) hr hid]
    exact NormalizedSourceRecord.beq_self r
  · rw [List.inj_on_of_nodup_map hnd (hacc ha) hr (rowId_of_beq heq)]
    exact NormalizedSourceRecord.beq_self _

omit h hnd in
theorem mem_of_supplier {f : FieldName} {r : NormalizedSourceRecord} {v : f.Value}
    (hs : supplier f group = some (r, v)) : r ∈ group := by
  obtain ⟨_, _, _, front, back, -, hl, -⟩ := supplier_eq_some_iff.mp hs
  rw [hl]
  exact List.mem_append_right _ List.mem_cons_self

theorem mergedValueWith_map (f : FieldName) {acc : List NormalizedSourceRecord}
    (hacc : acc ⊆ group) :
    mergedValueWith f (group.map φ) (acc.map φ) =
        ((mergedValueWith f group acc).1, (mergedValueWith f group acc).2.map φ) ∧
      (mergedValueWith f group acc).2 ⊆ group := by
  unfold mergedValueWith
  rw [supplier_map h]
  cases hs : supplier f group with
  | none => exact ⟨rfl, hacc⟩
  | some p =>
    have hr : p.1 ∈ group := mem_of_supplier hs
    simp only [Option.map_some, isIn_map h hnd hr hacc]
    split
    · exact ⟨rfl, hacc⟩
    · refine ⟨by rw [List.map_append]; rfl, List.append_subset.mpr ⟨hacc, ?_⟩⟩
      exact List.cons_subset.mpr ⟨hr, List.nil_subset _⟩

/-- The loop over the cross-prefix fields collects the same suppliers. -/
theorem foldl_crossPrefixStep_map (l : List FieldName)
    (s : MergedValues × List NormalizedSourceRecord) (hacc : s.2 ⊆ group) :
    l.foldl (crossPrefixStep (group.map φ)) (s.1, s.2.map φ) =
        ((l.foldl (crossPrefixStep group) s).1, (l.foldl (crossPrefixStep group) s).2.map φ) ∧
      (l.foldl (crossPrefixStep group) s).2 ⊆ group := by
  induction l generalizing s with
  | nil => exact ⟨rfl, hacc⟩
  | cons f l ih =>
    have hstep : crossPrefixStep (group.map φ) (s.1, s.2.map φ) f =
          ((crossPrefixStep group s f).1, (crossPrefixStep group s f).2.map φ) ∧
        (crossPrefixStep group s f).2 ⊆ group := by
      obtain ⟨hmap, hsub⟩ := mergedValueWith_map h hnd f hacc
      unfold crossPrefixStep
      simp only [hmap]
      split
      · exact ⟨rfl, hsub⟩
      · exact ⟨rfl, hacc⟩
    rw [List.foldl_cons, List.foldl_cons, hstep.1]
    exact ih _ hstep.2

theorem prefixSources_map (k : Str) (exact : List NormalizedSourceRecord) :
    (mergeGroup k (exact.map φ) (some (group.map φ))).2 =
      (mergeGroup k exact (some group)).2.map φ := by
  have hvalues : (fun f => mergedValue f (exact.map φ)) = fun f => mergedValue f exact :=
    funext fun f => mergedValue_map h f exact
  obtain ⟨hfold, hsub⟩ := foldl_crossPrefixStep_map h hnd crossPrefixFieldNames
    (fun f => mergedValue f exact, []) (List.nil_subset _)
  change (group.map φ).filter
      (fun r => isIn r (mergedValues (exact.map φ) (some (group.map φ))).2) =
    (group.filter fun r => isIn r (mergedValues exact (some group)).2).map φ
  unfold mergedValues
  simp only [hvalues]
  rw [List.map_nil] at hfold
  rw [hfold, List.filter_map]
  refine congrArg (List.map φ) (List.filter_congr fun r hr => ?_)
  exact isIn_map h hnd hr hsub

omit hnd in
/-- **Where rows tell the records apart, a relabelling relabels the contributions.** -/
theorem sources_mergedOf_map (records : List NormalizedSourceRecord) (k : Str)
    (hnd : ((exactGroup records (k.take sixDigitPrefixLength)).map rowId).Nodup) :
    (mergedOf (records.map φ) k).sources = (mergedOf records k).sources.map φ := by
  change exactGroup (records.map φ) k ++ (mergeGroup k _ _).2 =
    (exactGroup records k ++ (mergeGroup k _ _).2).map φ
  rw [List.map_append, exactGroup_map h, prefixGroupOf_map h]
  congr 1
  unfold prefixGroupOf
  split
  · exact prefixSources_map h hnd k _
  · rfl

end Relabels

/-- **The merge specification.** One merged record for each distinct `iin_start`, in strictly
increasing order; each field is the first value supplied by the records of that `iin_start`; an
8-digit key with a `binlist/data` record inherits the three cross-prefix fields it has no value
for from its 6-digit prefix, wherever those records stand; nothing else is set. -/
theorem merge_spec (records : List NormalizedSourceRecord) :
    ((mergeSourceRecords records).map (·.record.iinStart)).Pairwise (· < ·) ∧
    (∀ k, k ∈ (mergeSourceRecords records).map (·.record.iinStart) ↔
      ∃ r ∈ records, r.iinStart = k) ∧
    ∀ m ∈ mergeSourceRecords records, ∀ (f : FieldName) (v : f.Value),
      m.record.getattr f = some v ↔
        FirstSupplied f (exactGroup records m.record.iinStart) v ∨
          ((¬ ∃ u, FirstSupplied f (exactGroup records m.record.iinStart) u) ∧
            Inherits records m.record.iinStart f ∧
            FirstSupplied f
              (exactGroup records (m.record.iinStart.take sixDigitPrefixLength)) v) := by
  obtain ⟨keys, hsorted, hkeys, heq⟩ := mergeSourceRecords_eq_map records
  have hmap : (mergeSourceRecords records).map (·.record.iinStart) = keys := by
    rw [heq, List.map_map]
    exact List.map_id _
  rw [hmap]
  refine ⟨hsorted, hkeys, fun m hm f v => ?_⟩
  rw [heq] at hm
  obtain ⟨k, -, rfl⟩ := List.mem_map.mp hm
  rw [iinStart_mergedOf]
  exact getattr_mergedOf_iff

end CardBinData
