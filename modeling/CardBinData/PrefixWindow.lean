import CardBinData.Library.Hoare
import CardBinData.MergeSpec

/-!
# The prefix window over a whole walk

`prefixGroupsAfter groups` is `prefix_groups` when `_merge_sorted_group` has been called for each
of `groups` in turn. `Window` holds of it whenever the keys increase (`window_prefixGroupsAfter`),
and a window has at most one entry (`Window.length_le_one`): two entries would both be the 6
characters that begin the last key. So the merge keeps one group in memory beside the one it is
merging, and `prefixGroups_window` says that the one it keeps is the one the next key may ask for.
-/

namespace CardBinData

open Library (Dict Transducer)

/-- `prefix_groups` after the calls of `_merge_sorted_group` for `groups`: the state of the
merge. -/
def prefixGroupsAfter (groups : List (Str × List NormalizedSourceRecord)) : PrefixGroups :=
  mergeSortedGroups.after mergeSortedGroups.init groups

theorem prefixGroupsAfter_concat (done : List (Str × List NormalizedSourceRecord))
    (g : Str × List NormalizedSourceRecord) :
    prefixGroupsAfter (done ++ [g]) = (mergeSortedGroup (prefixGroupsAfter done) g).1 :=
  Transducer.after_snoc ..

/-- **Every walk over increasing keys leaves a window.** -/
theorem window_prefixGroupsAfter (groups : List (Str × List NormalizedSourceRecord))
    (hsorted : (groups.map Prod.fst).Pairwise (· < ·)) :
    Window groups (prefixGroupsAfter groups) := by
  induction groups using List.reverseRecOn with
  | nil => exact window_nil
  | append_singleton done g ih =>
    rw [prefixGroupsAfter_concat]
    have hlast : ((done ++ g :: []).map Prod.fst).Pairwise (· < ·) := hsorted
    refine window_step (ih ?_) hlast
    rw [List.map_append, List.pairwise_append] at hsorted
    exact hsorted.1

section Entry

variable {done : List (Str × List NormalizedSourceRecord)} {prefixGroups : PrefixGroups}
  {k : Str} {group : List NormalizedSourceRecord}

/-- An entry is a 6-character key that begins the last one, with the group it came with. -/
theorem Window.entry (hw : Window (done ++ [(k, group)]) prefixGroups)
    {e : Str × List NormalizedSourceRecord} (he : e ∈ prefixGroups.items) :
    e.1.length = sixDigitPrefixLength ∧ e.1 <+: k ∧ e ∈ done ++ [(k, group)] := by
  obtain ⟨hmem, hlen, last, hlast, hp⟩ := (hw e.1 e.2).mp (Dict.mem_items_iff.mp he)
  rw [List.getLast?_concat, Option.mem_some_iff] at hlast
  subst hlast
  exact ⟨hlen, hp, hmem⟩

/-- **A window has at most one entry.** -/
theorem Window.length_le_one (hw : Window (done ++ [(k, group)]) prefixGroups) :
    prefixGroups.items.length ≤ 1 := by
  have hkey : ∀ q ∈ prefixGroups.keys, q = k.take sixDigitPrefixLength := by
    intro q hq
    obtain ⟨e, he, rfl⟩ := List.mem_map.mp hq
    obtain ⟨hlen, hp, -⟩ := hw.entry he
    rw [List.prefix_iff_eq_take.mp hp, hlen]
  have hnd : prefixGroups.keys.Nodup := prefixGroups.nodup
  rw [List.eq_replicate_of_mem hkey, List.nodup_replicate] at hnd
  rwa [Dict.keys, List.length_map] at hnd

end Entry

/-- **The prefix window.** In a walk over groups with strictly increasing keys, after each call
`prefix_groups` holds at most one entry, a 6-character key that begins the current one with its
full group; and where the current key has 6 characters or more, what the drop leaves holds the
group of its first 6 exactly when that key came earlier. -/
theorem prefixGroups_window (groups : List (Str × List NormalizedSourceRecord))
    (hsorted : (groups.map Prod.fst).Pairwise (· < ·))
    (done rest : List (Str × List NormalizedSourceRecord)) (k : Str)
    (group : List NormalizedSourceRecord) (hgroups : groups = done ++ (k, group) :: rest) :
    ((prefixGroupsAfter (done ++ [(k, group)])).items.length ≤ 1 ∧
      ∀ e ∈ (prefixGroupsAfter (done ++ [(k, group)])).items,
        e.1.length = sixDigitPrefixLength ∧ e.1 <+: k ∧ e ∈ done ++ [(k, group)]) ∧
    (sixDigitPrefixLength ≤ k.length → ∀ g,
      (dropExpiredPrefixGroups (prefixGroupsAfter done) k).get? (k.take sixDigitPrefixLength) =
        some g ↔ (k.take sixDigitPrefixLength, g) ∈ done) := by
  subst hgroups
  have hdone : (done.map Prod.fst).Pairwise (· < ·) := by
    rw [List.map_append, List.pairwise_append] at hsorted
    exact hsorted.1
  have hbefore : Window done (prefixGroupsAfter done) := window_prefixGroupsAfter done hdone
  have hafter : Window (done ++ [(k, group)]) (prefixGroupsAfter (done ++ [(k, group)])) := by
    rw [prefixGroupsAfter_concat]
    exact window_step hbefore hsorted
  refine ⟨⟨hafter.length_le_one, fun e he => hafter.entry he⟩, fun hlen g => ?_⟩
  rw [get?_live hbefore hsorted]
  exact ⟨fun h => h.1, fun h => ⟨h, List.length_take_of_le hlen, List.take_prefix _ _⟩⟩

/-- The window over three keys, the second of which begins with the first. -/
theorem prefixGroups_window_three :
    (dropExpiredPrefixGroups (prefixGroupsAfter [("400000".toList, [])]) "40000012".toList).get?
      ("40000012".toList.take sixDigitPrefixLength) = some [] :=
  ((prefixGroups_window
    [("400000".toList, []), ("40000012".toList, []), ("41".toList, [])] (by decide)
    [("400000".toList, [])] [("41".toList, [])] "40000012".toList [] rfl).2 (by decide) []).mpr
    (List.mem_singleton.mpr rfl)

end CardBinData
