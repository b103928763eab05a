import CardBinData.Library.Interleaving
import CardBinData.Observation

/-!
# The order of the adapters

Permuting adapters with different source ids interleaves their records anew: the records of one
source id keep their order, and nothing else does (`interleaves_emitted`). Every scan of the merge
is for one source id, and the metadata is that of the first record of a source id, so the merged
values are the same and the contributions are permuted (`mergedOf_interleaves`).

* `adapterOrder_irrelevant`: imports of permuted adapters cannot be told apart.
-/

namespace CardBinData

open Library

/-- Records of two adapters have different source ids. The records of one adapter may carry any
metadata. -/
def OwnSources (adapters : List SourceAdapter) : Prop :=
  adapters.Pairwise fun a b =>
    ∀ r ∈ a.records, ∀ s ∈ b.records, r.source.sourceId ≠ s.source.sourceId

instance (adapters : List SourceAdapter) : Decidable (OwnSources adapters) :=
  inferInstanceAs (Decidable (List.Pairwise _ _))

/-- The records of each source stand in the same order. -/
abbrev SameBySource (records records' : List NormalizedSourceRecord) : Prop :=
  Interleaves (fun r : NormalizedSourceRecord => r.source.sourceId) records records'

theorem interleaves_emitted {adapters adapters' : List SourceAdapter} (h : OwnSources adapters)
    (hperm : adapters.Perm adapters') : SameBySource (emitted adapters) (emitted adapters') :=
  interleaves_flatMap hperm h

section Groups

variable {group group' : List NormalizedSourceRecord} (h : SameBySource group group')
include h

/-- The two loops of `_merged_value` scan the records of one source after the other. -/
theorem supplier_interleaves (f : FieldName) : supplier f group = supplier f group' := by
  unfold supplier
  congr 1
  funext sourceId
  exact h.findSome? sourceId _

theorem mergedValue_interleaves (f : FieldName) : mergedValue f group = mergedValue f group' := by
  unfold mergedValue
  rw [supplier_interleaves h]

theorem crossPrefixStep_interleaves : crossPrefixStep group = crossPrefixStep group' := by
  have hwith : ∀ f acc, mergedValueWith f group acc = mergedValueWith f group' acc :=
    fun f acc => by
      unfold mergedValueWith
      rw [supplier_interleaves h]
  funext s f
  unfold crossPrefixStep
  rw [hwith]

end Groups

section Records

variable {records records' : List NormalizedSourceRecord} (h : SameBySource records records')
include h

theorem exactGroup_interleaves (k : Str) :
    SameBySource (exactGroup records k) (exactGroup records' k) :=
  Interleaves.filter h _

/-- The prefix groups exist together, and are interleaved. -/
theorem prefixGroupOf_interleaves (k : Str) :
    Option.Rel SameBySource (prefixGroupOf records k) (prefixGroupOf records' k) := by
  have hgroup := exactGroup_interleaves h (k.take sixDigitPrefixLength)
  have hprimary : (∃ r ∈ exactGroup records k, r.source.sourceId = primarySourceId) ↔
      ∃ r ∈ exactGroup records' k, r.source.sourceId = primarySourceId := by
    simp only [(exactGroup_interleaves h k).perm.mem_iff]
  have hnil : exactGroup records (k.take sixDigitPrefixLength) ≠ [] ↔
      exactGroup records' (k.take sixDigitPrefixLength) ≠ [] :=
    not_congr ⟨fun hn => (hn ▸ hgroup.perm).symm.eq_nil, fun hn => (hn ▸ hgroup.perm).eq_nil⟩
  unfold prefixGroupOf
  by_cases hex : k.length = eightDigitPrefixLength ∧
      (∃ r ∈ exactGroup records k, r.source.sourceId = primarySourceId) ∧
      exactGroup records (k.take sixDigitPrefixLength) ≠ []
  · rw [if_pos hex, if_pos ⟨hex.1, hprimary.mp hex.2.1, hnil.mp hex.2.2⟩]
    exact Option.Rel.some hgroup
  · rw [if_neg hex, if_neg fun hex' => hex ⟨hex'.1, hprimary.mpr hex'.2.1, hnil.mpr hex'.2.2⟩]
    exact Option.Rel.none

/-- The values and the suppliers noted are the same. -/
theorem mergedValues_interleaves (k : Str) :
    mergedValues (exactGroup records k) (prefixGroupOf records k) =
      mergedValues (exactGroup records' k) (prefixGroupOf records' k) := by
  have hvalues : (fun f => mergedValue f (exactGroup records k)) =
      fun f => mergedValue f (exactGroup records' k) :=
    funext fun f => mergedValue_interleaves (exactGroup_interleaves h k) f
  have hgroups := prefixGroupOf_interleaves h k
  unfold mergedValues
  rw [hvalues]
  generalize prefixGroupOf records k = p, prefixGroupOf records' k = p' at hgroups ⊢
  cases hgroups with
  | none => rfl
  | some hgroup => simp only [crossPrefixStep_interleaves hgroup]

/-- **Only the order within one source is observed by the merge of a key.** -/
theorem mergedOf_interleaves (k : Str) :
    (∀ f, (mergedOf records k).record.getattr f = (mergedOf records' k).record.getattr f) ∧
      (mergedOf records k).sources.Perm (mergedOf records' k).sources := by
  have hvalues := mergedValues_interleaves h k
  constructor
  · intro f
    change (mergeGroup k _ _).1.getattr f = (mergeGroup k _ _).1.getattr f
    rw [getattr_mergeGroup, getattr_mergeGroup, hvalues]
  · refine (exactGroup_interleaves h k).perm.append ?_
    change (((prefixGroupOf records k).getD []).filter fun record =>
        isIn record (mergedValues (exactGroup records k) (prefixGroupOf records k)).2).Perm
      (((prefixGroupOf records' k).getD []).filter fun record =>
        isIn record (mergedValues (exactGroup records' k) (prefixGroupOf records' k)).2)
    rw [hvalues]
    refine List.Perm.filter _ ?_
    have hgroups := prefixGroupOf_interleaves h k
    generalize prefixGroupOf records k = p, prefixGroupOf records' k = p' at hgroups ⊢
    cases hgroups with
    | none => exact List.Perm.refl _
    | some hgroup => exact hgroup.perm

/-- The metadata of a source id is that of its first record. -/
theorem firstSeen_interleaves (k : Str) :
    (firstSeen records).get? k = (firstSeen records').get? k := by
  rw [get?_firstSeen, get?_firstSeen, Interleaves.find? h k]

theorem stagedRecords_interleaves :
    SameBySource (stagedRecords records) (stagedRecords records') := by
  have hrestored : restored (firstSeen records') = restored (firstSeen records) := by
    funext r
    unfold restored
    rw [firstSeen_interleaves h]
  unfold stagedRecords
  rw [hrestored]
  exact Interleaves.map h fun r => (relabels_restored records).sourceId r

end Records

/-- The datasets of interleaved records have the same rows. -/
theorem datasetOf_interleaves {records records' : List NormalizedSourceRecord}
    (h : SameBySource records records') (storeRawPayload : Bool) (importedAt importedAt' : Int) :
    (datasetOf records storeRawPayload importedAt).Agree Provenance.contents
      (datasetOf records' storeRawPayload importedAt') := by
  refine datasetOf_agree (firstSeen_interleaves h) (fun k => ?_) fun k _ => ?_
  · simp only [h.perm.mem_iff]
  · have hmerged := mergedOf_interleaves (stagedRecords_interleaves h) k
    exact ⟨hmerged.1, hmerged.2.map _⟩

/-- **Adapter order does not matter.** Imports of the same adapters in two orders, from sources told
apart, leave the same counts, rows and provenance and answer every lookup alike. -/
theorem adapterOrder_irrelevant {adapters adapters' : List SourceAdapter}
    (hown : OwnSources adapters) (hperm : adapters.Perm adapters') (storeRawPayload : Bool) :
    SameImports Provenance.contents adapters storeRawPayload adapters' storeRawPayload := by
  have h := interleaves_emitted hown hperm
  refine sameImports_of_agree (fun c => (c.1, c.2.1, c.2.2.1)) (fun _ => rfl) h.perm.length_eq ?_
    fun _ => datasetOf_interleaves h storeRawPayload
  simp only [h.perm.mem_iff]

/-- Three adapters of which each supplies something that the others lack: a range, the category of
its 6-digit prefix, and a source of its own. -/
def threeAdapters : List SourceAdapter :=
  let adapter : Str → List NormalizedSourceRecord → SourceAdapter := fun sourceId records =>
    ⟨⟨sourceId, sourceId, [], none, none⟩, records⟩
  let record : Str → Str → NormalizedSourceRecord := fun sourceId iinStart =>
    { source := ⟨sourceId, sourceId, [], none, none⟩, rowKey := iinStart, iinStart := iinStart }
  [adapter primarySourceId [{ record primarySourceId "45717360".toList with
      scheme := some "visa".toList }],
    adapter enrichmentSourceId [{ record enrichmentSourceId "457173".toList with
      category := some "classic".toList }],
    adapter "example/source".toList [record "example/source".toList "457173".toList]]

theorem adapterOrder_irrelevant_reversed :
    SameImports Provenance.contents threeAdapters true threeAdapters.reverse true :=
  adapterOrder_irrelevant (by decide) (List.reverse_perm threeAdapters).symm true

end CardBinData
