import CardBinData.Observation

/-!
# The flag `store_raw_payload`

The flag is read only where a provenance row is made, so the two datasets differ in the payload
column and nowhere else. Without payloads the stored column is `{}` whatever the records carried.
The payload does take part in the comparison of records that filters the borrowed sources, but two
records of a key that it alone tells apart have one source and one row, and then the unique
constraint stops the import, with or without payloads (`datasetOf_withoutPayload`).

* `storeRawPayload_neutral`: what the flag changes, and what a payload changes without it.
-/

namespace CardBinData

open Library

/-! ## The flag -/

/-- The datasets with and without payloads differ in the payload column only. -/
theorem datasetOf_flag (records : List NormalizedSourceRecord)
    (storeRawPayload storeRawPayload' : Bool) (importedAt importedAt' : Int) :
    (datasetOf records storeRawPayload importedAt).Agree Provenance.link
      (datasetOf records storeRawPayload' importedAt') :=
  datasetOf_agree (fun _ => rfl) (fun _ => Iff.rfl) fun _ _ => ⟨fun _ => rfl, List.Perm.refl _⟩

/-- Without payloads every stored payload is `{}`. -/
theorem rawPayload_eq_empty {db : Database} {records : List NormalizedSourceRecord}
    {importedAt : Int} (h : db.Represents (datasetOf records false importedAt)) :
    ∀ s ∈ db.binRecordSources, s.rawPayload = .mapping Dict.empty := by
  intro s hs
  have hmem := List.mem_map_of_mem (f := fun row : BinRecordSourceModel =>
    db.resolve row.toBinRecordSourceValues) hs
  rw [h.provenance.mem_iff] at hmem
  obtain ⟨p, hp, hresolve⟩ := List.mem_map.mp hmem
  obtain ⟨m, -, hp⟩ := List.mem_flatMap.mp hp
  obtain ⟨source, -, rfl⟩ := List.mem_map.mp hp
  obtain ⟨_, -, _, -, -, -, -, heq⟩ := resolve_eq_some hresolve.symm
  exact (congrArg Provenance.rawPayload heq).symm

/-! ## Records without their payloads -/

/-- The record without its payload. -/
def withoutPayload (r : NormalizedSourceRecord) : NormalizedSourceRecord :=
  { r with rawPayload := Dict.empty, rawPayloadJson := none }

/-- The staged record of a record without payload, from that of the record. -/
def emptyText (r : NormalizedSourceRecord) : NormalizedSourceRecord :=
  { r with rawPayloadJson := some (dumps Dict.empty) }

theorem relabels_emptyText : Relabels emptyText where
  iinStart _ := rfl
  rowId _ := rfl
  getattr _ f := by cases f <;> rfl

theorem firstSeen_withoutPayload (records : List NormalizedSourceRecord) :
    firstSeen (records.map withoutPayload) = firstSeen records := by
  unfold firstSeen
  rw [List.foldl_map]
  rfl

theorem stagedRecords_withoutPayload (records : List NormalizedSourceRecord) :
    stagedRecords (records.map withoutPayload) = (stagedRecords records).map emptyText := by
  unfold stagedRecords
  rw [firstSeen_withoutPayload, List.map_map, List.map_map]
  rfl

/-- Where the contributions differ, rows tell the records of a key apart. -/
theorem nodup_rowIds_of_distinct {records : List NormalizedSourceRecord}
    (h : (contributions (mergedRecords records)).Nodup) (k : Str) :
    ((exactGroup (stagedRecords records) k).map rowId).Nodup := by
  by_cases hk : ∃ r ∈ stagedRecords records, r.iinStart = k
  · have hm : mergedOf (stagedRecords records) k ∈ mergedRecords records :=
      mem_mergeSourceRecords hk
    have hsources := (List.nodup_flatMap.mp h).1 _ hm
    change ((exactGroup (stagedRecords records) k ++ _).map fun s => (k, rowId s)).Nodup at hsources
    rw [List.map_append] at hsources
    have hexact := hsources.of_append_left
    rw [show (fun s => (k, rowId s)) = Prod.mk k ∘ rowId from rfl, ← List.map_map] at hexact
    exact hexact.of_map
  · rw [exactGroup_eq_nil hk]
    exact List.nodup_nil

/-- Either way of carrying payloads, rows tell the records of a key apart when the import can
succeed. -/
theorem nodup_rowIds_of_importable {records : List NormalizedSourceRecord}
    (h : Importable records ∨ Importable (records.map withoutPayload)) (k : Str) :
    ((exactGroup (stagedRecords records) k).map rowId).Nodup := by
  rcases h with h | h
  · exact nodup_rowIds_of_distinct h.distinct k
  · have hnd := nodup_rowIds_of_distinct h.distinct k
    rw [stagedRecords_withoutPayload, exactGroup_map relabels_emptyText, List.map_map] at hnd
    exact hnd

/-- **Without payloads in the tables, the payloads of the records do not matter.** -/
theorem datasetOf_withoutPayload {records : List NormalizedSourceRecord}
    (h : Importable records ∨ Importable (records.map withoutPayload))
    (importedAt importedAt' : Int) :
    (datasetOf records false importedAt).Agree Provenance.contents
      (datasetOf (records.map withoutPayload) false importedAt') := by
  refine datasetOf_agree (fun k => by rw [firstSeen_withoutPayload]) (fun k => ?_) fun k _ => ?_
  · simp only [List.mem_map, exists_exists_and_eq_and]
    rfl
  · rw [stagedRecords_withoutPayload]
    refine ⟨fun f => (getattr_mergedOf_map relabels_emptyText _ k f).symm, ?_⟩
    rw [sources_mergedOf_map relabels_emptyText _ k (nodup_rowIds_of_importable h _), List.map_map]
    exact List.Perm.refl _

theorem bindable_withoutPayload_iff (records : List NormalizedSourceRecord) :
    (∀ r ∈ records.map withoutPayload, Bindable r) ↔ ∀ r ∈ records, Bindable r :=
  List.forall_mem_map

theorem importable_withoutPayload_iff (records : List NormalizedSourceRecord) :
    Importable (records.map withoutPayload) ↔ Importable records := by
  let toLink : Str × Str × Str × RawPayload → Str × Str × Str := fun c => (c.1, c.2.1, c.2.2.1)
  constructor
  · intro h
    exact importable_of_agree toLink (fun _ => rfl)
      (datasetOf_withoutPayload (Or.inr h) 0 0).symm (bindable_withoutPayload_iff records).mp h
  · intro h
    exact importable_of_agree toLink (fun _ => rfl) (datasetOf_withoutPayload (Or.inl h) 0 0)
      (bindable_withoutPayload_iff records).mpr h

/-- The runs differ at most in the payloads of the records. -/
def SameButPayloads (adapters adapters' : List SourceAdapter) : Prop :=
  (emitted adapters).map withoutPayload = (emitted adapters').map withoutPayload

/-- Records that differ in their payloads only give the same dataset. -/
theorem datasetOf_sameButPayloads {adapters adapters' : List SourceAdapter}
    (hsame : SameButPayloads adapters adapters')
    (h : Importable (emitted adapters) ∨ Importable (emitted adapters'))
    (importedAt importedAt' : Int) :
    (datasetOf (emitted adapters) false importedAt).Agree Provenance.contents
      (datasetOf (emitted adapters') false importedAt') := by
  have himport : Importable (emitted adapters) ∧ Importable (emitted adapters') := by
    rw [← importable_withoutPayload_iff, ← importable_withoutPayload_iff (emitted adapters'),
      ← hsame, and_self, importable_withoutPayload_iff]
    rcases h with h | h
    · exact h
    · rwa [← importable_withoutPayload_iff, hsame, importable_withoutPayload_iff]
  have hstrip := datasetOf_withoutPayload (Or.inl himport.1) importedAt importedAt'
  rw [hsame] at hstrip
  exact hstrip.trans (datasetOf_withoutPayload (Or.inl himport.2) importedAt' importedAt').symm

/-- **`store_raw_payload` is neutral.** Imports with and without it leave the same counts, records
and sources, the same provenance but for the payload column, and answer every lookup alike; without
it every stored payload is `{}`, and imports of records that differ in their payloads only leave the
same tables. -/
theorem storeRawPayload_neutral (adapters : List SourceAdapter) :
    SameImports Provenance.link adapters true adapters false ∧
    (∀ env w, Post (storeImportSources env adapters false w)
      (fun _ w' => ∀ s ∈ w'.committed.binRecordSources, s.rawPayload = .mapping Dict.empty)
      fun _ w' => w'.committed = w.committed) ∧
    ∀ adapters', SameButPayloads adapters adapters' →
      SameImports Provenance.contents adapters false adapters' false := by
  refine ⟨?_, fun env w => ?_, fun adapters' hsame => ?_⟩
  · exact sameImports_of_agree id (fun _ => rfl) rfl Iff.rfl fun _ =>
      datasetOf_flag (emitted adapters) true false
  · exact (storeImportSources_post env adapters false w).mono (fun _ _ h => rawPayload_eq_empty h)
      fun _ _ h => h
  · have hlen := congrArg List.length hsame
    rw [List.length_map, List.length_map] at hlen
    refine sameImports_of_agree (fun c => (c.1, c.2.1, c.2.2.1)) (fun _ => rfl) hlen ?_
      fun h => datasetOf_sameButPayloads hsame h
    rw [← bindable_withoutPayload_iff, hsame, bindable_withoutPayload_iff]

end CardBinData
