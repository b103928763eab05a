import CardBinData.Conservation
import CardBinData.Sources

/-!
# The provenance of the bundled adapters

A provenance row is told apart by its record, its source and its row. Rows of one file differ in
their line, which `lineNumber_of_rowKey` reads back from the row key; files of different adapters
differ in their source id; and the exact and the borrowed sources of a merged record have different
keys. So the unique constraint cannot stop an import of bundled adapters with different source ids.

* `nodup_contributions`: records that rows tell apart are contributed once to each key.
* `bundled_provenance_unique`: the constraint holds after the import, and never raises.
-/

namespace CardBinData

open Library

/-! ## Contributions -/

/-- The exact and the borrowed sources of a key are different records. -/
theorem disjoint_borrowedSources (records : List NormalizedSourceRecord) (k : Str) :
    (exactGroup records k).Disjoint (borrowedSources records k) := by
  intro s hs hs'
  obtain ⟨hgroup, _, _, _, hfrom, -⟩ := mem_borrowedSources_iff.mp hs'
  have hlen : k.length = eightDigitPrefixLength := hfrom.1.1
  have hk : k.take sixDigitPrefixLength = k :=
    (mem_exactGroup.mp hgroup).2.symm.trans (mem_exactGroup.mp hs).2
  have hshort := congrArg List.length hk
  rw [List.length_take, hlen] at hshort
  exact absurd hshort (by decide)

/-- Where rows tell the records apart, they tell the sources of a merged record apart. -/
theorem nodup_rowIds_sources {records : List NormalizedSourceRecord}
    (h : (records.map rowId).Nodup) (k : Str) :
    ((mergedOf records k).sources.map rowId).Nodup := by
  have hrecords : records.Nodup := h.of_map
  have hexact : ∀ k, (exactGroup records k).Nodup := fun _ => hrecords.filter _
  have hsources : (mergedOf records k).sources.Nodup := by
    rw [sources_mergedOf, List.nodup_append']
    exact ⟨hexact k, (hexact _).sublist (borrowedSources_sublist records k),
      disjoint_borrowedSources records k⟩
  exact hsources.map_on fun s hs s' hs' heq =>
    List.inj_on_of_nodup_map h (mem_of_mem_sources hs) (mem_of_mem_sources hs') heq

/-- **Records that rows tell apart contribute once to each key.** -/
theorem nodup_contributions {records : List NormalizedSourceRecord}
    (h : (records.map rowId).Nodup) : (contributions (mergedRecords records)).Nodup := by
  obtain ⟨keys, hkeys, -, heq⟩ := mergedRecords_eq_map records
  have hstaged : ((stagedRecords records).map rowId).Nodup := by
    rwa [stagedRecords, List.map_map, rowId_comp_restored]
  unfold contributions
  rw [heq, List.flatMap_map]
  refine nodup_flatMap_of_key Prod.fst id (by rwa [List.map_id]) (fun k _ => ?_) fun k _ c hc => ?_
  · have hpairs := (nodup_rowIds_sources hstaged k).map (Prod.mk_right_injective k)
    rwa [List.map_map] at hpairs
  · obtain ⟨s, -, rfl⟩ := List.mem_map.mp hc
    rfl

/-! ## The rows of the bundled adapters -/

/-- The rows of one file have different row keys, whatever they hold. -/
theorem nodup_rowKeys (adapter : BundledAdapter) :
    (adapter.sourceAdapter.records.map (·.rowKey)).Nodup := by
  have hlines : (adapter.rows.zipIdx 2).Pairwise fun p q => p.2 ≠ q.2 := by
    apply List.pairwise_map.mp
    change ((adapter.rows.zipIdx 2).map Prod.snd).Nodup
    rw [List.zipIdx_map_snd]
    exact List.nodup_range'
  rw [adapter.records_eq, List.Nodup, List.pairwise_map]
  refine hlines.filterMap _ fun p q hline r hr r' hr' heq => ?_
  obtain ⟨k, -, rfl⟩ := Option.map_eq_some_iff.mp hr
  obtain ⟨k', -, rfl⟩ := Option.map_eq_some_iff.mp hr'
  rw [adapter.rowKey_normalize, adapter.rowKey_normalize] at heq
  exact hline (lineNumber_of_rowKey heq)

/-- The records of an adapter name its source. -/
theorem sourceId_of_mem_records {adapter : BundledAdapter} {r : NormalizedSourceRecord}
    (hr : r ∈ adapter.sourceAdapter.records) :
    r.source.sourceId = adapter.sourceAdapter.metadata.sourceId := by
  obtain ⟨k, line, row, -, rfl⟩ := BundledAdapter.mem_records_iff.mp hr
  exact congrArg SourceMetadata.sourceId (adapter.source_normalize _ _ _)

/-- **Rows tell apart the records of bundled adapters with different source ids.** -/
theorem nodup_rowIds_emitted {adapters : List BundledAdapter}
    (hdistinct : (adapters.map (·.sourceAdapter.metadata.sourceId)).Nodup) :
    ((emitted (adapters.map (·.sourceAdapter))).map rowId).Nodup := by
  unfold emitted
  rw [List.flatMap_map, List.map_flatMap]
  refine nodup_flatMap_of_key Prod.fst _ hdistinct (fun adapter _ => ?_) fun adapter _ c hc => ?_
  · have hkeys := nodup_rowKeys adapter
    have hsnd : (fun r : NormalizedSourceRecord => r.rowKey) = Prod.snd ∘ rowId := rfl
    rw [hsnd, ← List.map_map] at hkeys
    exact hkeys.of_map
  · obtain ⟨r, hr, rfl⟩ := List.mem_map.mp hc
    exact sourceId_of_mem_records hr

/-- **Bundled adapters never break the provenance constraint.** With at most one adapter for each
source id, whatever their files hold and are called, the contributions differ in their record, their
source or their row; after the import the constraint holds, and it is never what raises. -/
theorem bundled_provenance_unique (adapters : List BundledAdapter)
    (hdistinct : (adapters.map (·.sourceAdapter.metadata.sourceId)).Nodup) :
    (contributions (mergedRecords (emitted (adapters.map (·.sourceAdapter))))).Nodup ∧
    ∀ env storeRawPayload w,
      Post (storeImportSources env (adapters.map (·.sourceAdapter)) storeRawPayload w)
        (fun _ w' => UqBinRecordSources w'.committed.binRecordSources)
        fun e w' => e ≠ .integrityError ∧ w'.committed = w.committed := by
  have hnd := nodup_contributions (nodup_rowIds_emitted hdistinct)
  refine ⟨hnd, fun env storeRawPayload w => ?_⟩
  refine (storeImportSources_spec env _ storeRawPayload w).mono
    (fun _ _ h => h.represents.provenanceUnique) fun e _ h => ⟨?_, h.1⟩
  rintro rfl
  exact h.2 hnd

/-- A file that repeats a 6-digit row, and an 8-digit row that borrows from it. -/
def repeatedRows : List BundledAdapter :=
  let range := Dict.ofPairs [(some "iin_start".toList, .text "45717360".toList)]
  let bin := Dict.ofPairs [(some "BIN".toList, .text "457173".toList),
    (some "Category".toList, .text "GOLD".toList)]
  [.binlistData ⟨"bins.csv".toList⟩ [range], .venelinkochev ⟨"bins.csv".toList⟩ [bin, bin]]

/-- Both equal rows and the borrowed one are contributed. -/
theorem bundled_provenance_unique_repeatedRows :
    contributions (mergedRecords (emitted (repeatedRows.map (·.sourceAdapter)))) =
      [("457173".toList, enrichmentSourceId, "bins.csv:2:457173".toList),
        ("457173".toList, enrichmentSourceId, "bins.csv:3:457173".toList),
        ("45717360".toList, primarySourceId, "bins.csv:2:45717360".toList),
        ("45717360".toList, enrichmentSourceId, "bins.csv:2:457173".toList)] ∧
    (contributions (mergedRecords (emitted (repeatedRows.map (·.sourceAdapter))))).Nodup :=
  ⟨by decide +kernel, (bundled_provenance_unique repeatedRows (by decide)).1⟩

end CardBinData
