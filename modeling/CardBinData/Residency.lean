import CardBinData.Attribution
import CardBinData.PrefixWindow
import Mathlib.Algebra.Order.BigOperators.Group.List
import Mathlib.Data.List.MinMax
import Mathlib.Tactic.Ring

/-!
# What an import holds in memory (`merge.py:68-83`, `services.py:182-207`)

An import streams: `merge_sorted_source_records` keeps the group it reads and a prefix window, so
that memory is "bounded by duplicate rows for one prefix family rather than by the total source row
count", and `_insert_streamed_records` collects a batch of what it yields. `StreamState` is what the
three loops hold between two reads of the sorted stream.

`streamState_bounded`: after any number of reads it is part of the group of one key, the group of at
most one 6-character key, fewer merged records than a batch has, and the one merged last, each with
the sources of its own key and prefix. So it refers to at most `2 * (insertBatchSize + 1)` times as
many records as the most frequent key has, however many there are in all: `docs/performance.md`
has it "bounded by batch size and the active duplicate/prefix group".

The records are any; an import reads those of its stage. Not counted are the rows that `fetchmany`
has read ahead, at most `STAGING_FETCH_BATCH_SIZE`.
-/

namespace CardBinData

open Library

/-- `group` of `_iter_sorted_groups`, `prefix_groups` of `merge_sorted_source_records`, and `batch`
and `record` of `_insert_streamed_records`: the loop variable still names the record merged last
when the batch it ended has been inserted. -/
structure StreamState where
  group : List NormalizedSourceRecord
  prefixGroups : PrefixGroups
  batch : List MergedSourceRecord
  record : Option MergedSourceRecord

/-- The groups that `_iter_sorted_groups` has yielded. -/
def groupsIn (read : List NormalizedSourceRecord) : List (Str × List NormalizedSourceRecord) :=
  (runs NormalizedSourceRecord.iinStart).outputs (runs NormalizedSourceRecord.iinStart).init read

/-- The merged records that `merge_sorted_source_records` has yielded. -/
def mergedIn (read : List NormalizedSourceRecord) : List MergedSourceRecord :=
  mergeSortedGroups.outputs mergeSortedGroups.init (groupsIn read)

/-- The state when `read` has been read. -/
def streamState (insertBatchSize : Nat) (read : List NormalizedSourceRecord) : StreamState where
  group := ((runs NormalizedSourceRecord.iinStart).after
    (runs NormalizedSourceRecord.iinStart).init read).2
  prefixGroups := prefixGroupsAfter (groupsIn read)
  batch := Transducer.pending insertBatchSize (mergedIn read)
  record := (mergedIn read).getLast?

/-- The source records that it refers to. -/
def StreamState.records (s : StreamState) : List NormalizedSourceRecord :=
  s.group ++ s.prefixGroups.items.flatMap (·.2) ++ s.batch.flatMap (·.sources) ++
    s.record.toList.flatMap (·.sources)

/-- The most records that one key has. -/
def mostDuplicates (records : List NormalizedSourceRecord) : Nat :=
  (records.map fun r => (exactGroup records r.iinStart).length).foldr max 0

/-- Part of one group, at most one group of a prefix, less than a batch, and its last record. -/
structure StreamState.Bounded (records : List NormalizedSourceRecord) (insertBatchSize : Nat)
    (s : StreamState) : Prop where
  group : ∃ k, s.group <+: exactGroup records k
  window : s.prefixGroups.items.length ≤ 1
  prefixGroup : ∀ e ∈ s.prefixGroups.items,
    e.1.length = sixDigitPrefixLength ∧ e.2 = exactGroup records e.1
  batch : s.batch.length < insertBatchSize
  merged : ∀ m ∈ s.batch ++ s.record.toList, m ∈ mergeSourceRecords records

section Moments

variable {records read : List NormalizedSourceRecord}
  (hread : read <+: stableSort NormalizedSourceRecord.iinStart records)
include hread

theorem pairwise_read : read.Pairwise fun a b => a.iinStart ≤ b.iinStart :=
  (pairwise_stableSort NormalizedSourceRecord.iinStart records).sublist hread.sublist

/-- The group that is being read is the beginning of a group. -/
theorem exists_prefix_exactGroup :
    ∃ k, ((runs NormalizedSourceRecord.iinStart).after
      (runs NormalizedSourceRecord.iinStart).init read).2 <+: exactGroup records k := by
  rcases read.eq_nil_or_concat with rfl | ⟨l, a, rfl⟩
  · exact ⟨[], List.nil_prefix⟩
  · rw [List.concat_eq_append] at hread ⊢
    have hgroup := (grouping_read (pairwise_read hread)).group (a.iinStart, _)
      (List.mem_append_right _ (List.mem_singleton.mpr rfl))
    have hexact : exactGroup records a.iinStart =
        (stableSort NormalizedSourceRecord.iinStart records).filter fun r =>
          decide (r.iinStart = a.iinStart) := (filter_stableSort _ records _).symm
    refine ⟨a.iinStart, ?_⟩
    rw [hgroup, hexact]
    exact hread.filter _

theorem prefix_groupsIn :
    groupsIn read <+: (runs NormalizedSourceRecord.iinStart).run
      (runs NormalizedSourceRecord.iinStart).init
      (stableSort NormalizedSourceRecord.iinStart records) :=
  Transducer.outputs_prefix_run _ _ hread

theorem mem_groupsIn {e : Str × List NormalizedSourceRecord} (he : e ∈ groupsIn read) :
    e.2 = exactGroup records e.1 := by
  have hgroup := (grouping_runs (pairwise_stableSort NormalizedSourceRecord.iinStart records)).group
    e ((prefix_groupsIn hread).subset he)
  rwa [filter_stableSort] at hgroup

theorem window_read : Window (groupsIn read) (prefixGroupsAfter (groupsIn read)) := by
  have hsorted :=
    (grouping_runs (pairwise_stableSort NormalizedSourceRecord.iinStart records)).sorted
  exact window_prefixGroupsAfter _ (hsorted.sublist ((prefix_groupsIn hread).sublist.map _))

/-- What has been yielded is a beginning of what is merged in all. -/
theorem prefix_mergedIn : mergedIn read <+: mergeSourceRecords records := by
  rw [← run_runs_stableSort records]
  exact Transducer.outputs_prefix_run mergeSortedGroups mergeSortedGroups.init
    (prefix_groupsIn hread)

/-- **At every moment the state is bounded.** -/
theorem bounded_streamState {insertBatchSize : Nat} (hsize : 0 < insertBatchSize) :
    (streamState insertBatchSize read).Bounded records insertBatchSize := by
  have hwindow := window_read hread
  refine ⟨exists_prefix_exactGroup hread, ?_, fun e he => ?_, Transducer.length_pending hsize _,
    fun m hm => ?_⟩
  · change (prefixGroupsAfter (groupsIn read)).items.length ≤ 1
    rcases (groupsIn read).eq_nil_or_concat with hnil | ⟨done, g, hlast⟩
    · rw [hnil]
      exact Nat.zero_le 1
    · rw [hlast, List.concat_eq_append] at hwindow ⊢
      exact hwindow.length_le_one
  · obtain ⟨hmem, hlen, -⟩ := (hwindow e.1 e.2).mp (Dict.mem_items_iff.mp he)
    exact ⟨hlen, mem_groupsIn hread hmem⟩
  · have hout : m ∈ mergedIn read := by
      rcases List.mem_append.mp hm with hbatch | hlast
      · exact (Transducer.pending_suffix insertBatchSize _).subset hbatch
      · exact List.mem_of_getLast? (Option.mem_toList.mp hlast)
    exact (prefix_mergedIn hread).subset hout

end Moments

/-! ## How many records that is -/

theorem length_flatMap_le {α β : Type} {f : α → List β} {l : List α} {c : Nat}
    (h : ∀ a ∈ l, (f a).length ≤ c) : (l.flatMap f).length ≤ l.length * c := by
  have hsum : (l.map fun a => (f a).length).sum ≤ (l.map fun a => (f a).length).length • c :=
    List.sum_le_card_nsmul _ c (by simpa using h)
  rwa [List.length_map, Nat.nsmul_eq_mul, ← List.length_flatMap] at hsum

section Counts

variable {records : List NormalizedSourceRecord} {insertBatchSize : Nat}

theorem length_exactGroup_le (k : Str) :
    (exactGroup records k).length ≤ mostDuplicates records := by
  by_cases hk : ∃ r ∈ records, r.iinStart = k
  · obtain ⟨r, hr, rfl⟩ := hk
    exact List.le_max_of_le' 0 (List.mem_map_of_mem hr) le_rfl
  · rw [exactGroup_eq_nil hk]
    exact Nat.zero_le _

/-- The sources of a merged record are those of its key and of its prefix. -/
theorem length_sources_le {m : MergedSourceRecord} (hm : m ∈ mergeSourceRecords records) :
    m.sources.length ≤ 2 * mostDuplicates records := by
  obtain ⟨keys, -, -, heq⟩ := mergeSourceRecords_eq_map records
  rw [heq] at hm
  obtain ⟨k, -, rfl⟩ := List.mem_map.mp hm
  rw [sources_mergedOf, List.length_append, Nat.two_mul]
  exact Nat.add_le_add (length_exactGroup_le k)
    ((borrowedSources_sublist records k).length_le.trans (length_exactGroup_le _))

theorem StreamState.Bounded.length_records {s : StreamState}
    (h : s.Bounded records insertBatchSize) :
    s.records.length ≤ 2 * (insertBatchSize + 1) * mostDuplicates records := by
  let most := mostDuplicates records
  obtain ⟨k, hk⟩ := h.group
  have hgroup : s.group.length ≤ most := hk.length_le.trans (length_exactGroup_le k)
  have hprefix : (s.prefixGroups.items.flatMap (·.2)).length ≤ 1 * most :=
    (length_flatMap_le fun e he => (h.prefixGroup e he).2 ▸ length_exactGroup_le e.1).trans
      (Nat.mul_le_mul_right most h.window)
  have hsources : ∀ m ∈ s.batch ++ s.record.toList, m.sources.length ≤ 2 * most := fun m hm =>
    length_sources_le (h.merged m hm)
  have hbatch : (s.batch.flatMap (·.sources)).length ≤ (insertBatchSize - 1) * (2 * most) :=
    (length_flatMap_le fun m hm => hsources m (List.mem_append_left _ hm)).trans
      (Nat.mul_le_mul_right (2 * most) (Nat.le_sub_one_of_lt h.batch))
  have hrecord : (s.record.toList.flatMap (·.sources)).length ≤ 1 * (2 * most) :=
    (length_flatMap_le fun m hm => hsources m (List.mem_append_right _ hm)).trans
      (Nat.mul_le_mul_right (2 * most) s.record.length_toList_le)
  have hsize : 0 < insertBatchSize := Nat.zero_lt_of_lt h.batch
  calc s.records.length
      = s.group.length + (s.prefixGroups.items.flatMap (·.2)).length +
          (s.batch.flatMap (·.sources)).length +
          (s.record.toList.flatMap (·.sources)).length := by
        rw [StreamState.records, List.length_append, List.length_append, List.length_append]
    _ ≤ most + 1 * most + (insertBatchSize - 1) * (2 * most) + 1 * (2 * most) :=
        Nat.add_le_add (Nat.add_le_add (Nat.add_le_add hgroup hprefix) hbatch) hrecord
    _ = (1 + (insertBatchSize - 1) + 1) * (2 * most) := by ring
    _ = (insertBatchSize + 1) * (2 * most) := by rw [Nat.add_sub_cancel' hsize]
    _ = 2 * (insertBatchSize + 1) * most := by ring

end Counts

/-- **The memory of an import does not grow with the number of its records.** -/
theorem streamState_bounded (records : List NormalizedSourceRecord) (insertBatchSize : Nat)
    (hsize : 0 < insertBatchSize) (n : Nat) :
    (streamState insertBatchSize
        ((stableSort NormalizedSourceRecord.iinStart records).take n)).Bounded records
      insertBatchSize ∧
    (streamState insertBatchSize
        ((stableSort NormalizedSourceRecord.iinStart records).take n)).records.length ≤
      2 * (insertBatchSize + 1) * mostDuplicates records :=
  have hbounded := bounded_streamState (List.take_prefix n _) hsize
  ⟨hbounded, hbounded.length_records⟩

theorem streamState_bounded_inheritedCategory :
    (streamState 1000
        ((stableSort NormalizedSourceRecord.iinStart inheritedCategory).take 1)).Bounded
      inheritedCategory 1000 ∧
    (streamState 1000
        ((stableSort NormalizedSourceRecord.iinStart inheritedCategory).take 1)).records.length ≤
      2 * (1000 + 1) * mostDuplicates inheritedCategory :=
  streamState_bounded inheritedCategory 1000 (by decide) 1

end CardBinData
