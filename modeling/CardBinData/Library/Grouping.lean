import CardBinData.Library.Dict
import CardBinData.Library.Hoare
import Mathlib.Data.List.Sort
import Mathlib.Data.Prod.Lex

/-!
# Grouping a list by a key

`Grouping key l gs` says that `gs` is the grouping of `l` by `key`: one entry for each key that
occurs, in increasing key order, holding the elements with that key in the order of `l`. A list
has one grouping (`Grouping.unique`), so two programs that each compute one agree.

* `stableSort key l` sorts by key and keeps the order of elements with equal keys
  (`filter_stableSort`), hence has the groupings of `l` (`grouping_stableSort_iff`). Sorting by key
  and position is the same (`stableSort_position`).
* `groupInto` collects the elements in a dictionary of lists; its entries sorted by key are the
  grouping of `l` (`grouping_sortedItems`).
* `grouping_runs`: the maximal runs of a list sorted by key are its grouping, and so are, of what
  has been read of it, those that are complete and the one that is being read (`grouping_read`).
-/

namespace CardBinData.Library

variable {α κ : Type} [LinearOrder κ] [DecidableEq κ]

/-- `gs` groups `l` by `key`: increasing keys, each with its elements in the order of `l`. -/
structure Grouping (key : α → κ) (l : List α) (gs : List (κ × List α)) : Prop where
  sorted : (gs.map Prod.fst).Pairwise (· < ·)
  group : ∀ p ∈ gs, p.2 = l.filter fun a => decide (key a = p.1)
  keys : ∀ k, k ∈ gs.map Prod.fst ↔ ∃ a ∈ l, key a = k

variable {key : α → κ} {l : List α} {gs : List (κ × List α)}

/-- The keys of a grouping determine it. -/
theorem Grouping.eq_map (h : Grouping key l gs) :
    gs = (gs.map Prod.fst).map fun k => (k, l.filter fun a => decide (key a = k)) := by
  rw [List.map_map]
  conv_lhs => rw [← List.map_id gs]
  exact List.map_congr_left fun p hp => Prod.ext rfl (h.group p hp)

/-- **A list has one grouping.** -/
theorem Grouping.unique {gs' : List (κ × List α)} (h : Grouping key l gs)
    (h' : Grouping key l gs') : gs = gs' := by
  have hperm : (gs.map Prod.fst).Perm (gs'.map Prod.fst) :=
    (List.perm_ext_iff_of_nodup (h.sorted.imp ne_of_lt) (h'.sorted.imp ne_of_lt)).mpr
      fun k => (h.keys k).trans (h'.keys k).symm
  have hkeys : gs.map Prod.fst = gs'.map Prod.fst :=
    hperm.eq_of_pairwise (fun _ _ _ _ hab hba => absurd hba hab.asymm) h.sorted h'.sorted
  rw [h.eq_map, h'.eq_map, hkeys]

/-- A group is not empty. -/
theorem Grouping.group_ne_nil (h : Grouping key l gs) {p : κ × List α} (hp : p ∈ gs) :
    p.2 ≠ [] := by
  obtain ⟨a, ha, hk⟩ := (h.keys p.1).mp (List.mem_map_of_mem hp)
  rw [h.group p hp]
  exact List.ne_nil_of_mem (List.mem_filter.mpr ⟨ha, decide_eq_true hk⟩)

/-- The entries of a grouping are the non-empty groups. -/
theorem Grouping.mem_iff (h : Grouping key l gs) {k : κ} {g : List α} :
    (k, g) ∈ gs ↔ g = (l.filter fun a => decide (key a = k)) ∧ g ≠ [] := by
  refine ⟨fun hm => ⟨h.group _ hm, h.group_ne_nil hm⟩, ?_⟩
  rintro ⟨rfl, hne⟩
  obtain ⟨a, ha⟩ := List.exists_mem_of_ne_nil _ hne
  obtain ⟨ha, hk⟩ := List.mem_filter.mp ha
  obtain ⟨p, hp, rfl⟩ := List.mem_map.mp ((h.keys k).mpr ⟨a, ha, of_decide_eq_true hk⟩)
  rwa [← h.group p hp]

/-- Only the elements of each key, in order, matter to a grouping. -/
theorem Grouping.congr {l' : List α} (h : Grouping key l gs)
    (hl : ∀ k, l'.filter (fun a => decide (key a = k)) = l.filter fun a => decide (key a = k)) :
    Grouping key l' gs where
  sorted := h.sorted
  group p hp := (h.group p hp).trans (hl p.1).symm
  keys k := by
    rw [h.keys]
    have hmem : ∀ m : List α, (∃ a ∈ m, key a = k) ↔
        m.filter (fun a => decide (key a = k)) ≠ [] := fun m => by
      simp [List.filter_eq_nil_iff]
    rw [hmem, hmem, hl]

omit [LinearOrder κ] in
/-- Parts that distinct keys tell apart are found again by the key. -/
theorem filter_flatMap_part {β γ : Type} {l : List γ} {g : γ → List β} (key : β → κ) (part : γ → κ)
    (hkey : ∀ c ∈ l, ∀ b ∈ g c, key b = part c) (hnd : (l.map part).Nodup) {c : γ} (hc : c ∈ l) :
    (l.flatMap g).filter (fun b => decide (key b = part c)) = g c := by
  have hself : (g c).filter (fun b => decide (key b = part c)) = g c :=
    List.filter_eq_self.mpr fun b hb => decide_eq_true (hkey c hc b hb)
  have hother : ∀ c' ∈ l, part c' ≠ part c →
      (g c').filter (fun b => decide (key b = part c)) = [] := fun c' hc' hne =>
    List.filter_eq_nil_iff.mpr fun b hb => by simpa [hkey c' hc' b hb] using hne
  induction l with
  | nil => exact absurd hc List.not_mem_nil
  | cons c' l ih =>
    rw [List.map_cons, List.nodup_cons] at hnd
    rw [List.flatMap_cons, List.filter_append]
    rcases List.mem_cons.mp hc with rfl | hc
    · have hrest : (l.flatMap g).filter (fun b => decide (key b = part c)) = [] := by
        rw [List.filter_flatMap, List.flatMap_eq_nil_iff]
        exact fun c' hc' => hother c' (List.mem_cons_of_mem _ hc') fun he =>
          hnd.1 (he ▸ List.mem_map_of_mem hc')
      rw [hself, hrest, List.append_nil]
    · rw [hother c' List.mem_cons_self fun he => hnd.1 (he ▸ List.mem_map_of_mem hc),
        List.nil_append]
      exact ih (fun c hc => hkey c (List.mem_cons_of_mem _ hc)) hnd.2 hc
        fun c hc => hother c (List.mem_cons_of_mem _ hc)

omit [LinearOrder κ] in
/-- Lists laid out by distinct keys are taken apart again by the key. -/
theorem filter_flatMap_key {β : Type} {g : κ → List β} {key : β → κ}
    (hkey : ∀ k, ∀ b ∈ g k, key b = k) {keys : List κ} (hnd : keys.Nodup) {k : κ}
    (hk : k ∈ keys) : (keys.flatMap g).filter (fun b => decide (key b = k)) = g k :=
  filter_flatMap_part key id (fun k _ => hkey k) (by rwa [List.map_id]) hk

omit [LinearOrder κ] [DecidableEq κ] in
/-- Parts without repetition, which their keys tell apart, make a list without repetition. -/
theorem nodup_flatMap_of_key {β γ : Type} {l : List γ} {g : γ → List β} (key : β → κ) (part : γ → κ)
    (hnd : (l.map part).Nodup) (hparts : ∀ c ∈ l, (g c).Nodup)
    (hkey : ∀ c ∈ l, ∀ b ∈ g c, key b = part c) : (l.flatMap g).Nodup := by
  refine List.nodup_flatMap.mpr ⟨hparts, ?_⟩
  refine (List.pairwise_map.mp hnd).imp_of_mem fun {c c'} hc hc' hne b hb hb' => hne ?_
  exact (hkey c hc b hb).symm.trans (hkey c' hc' b hb')

omit [LinearOrder κ] in
/-- **The groups of all keys together are the list.** -/
theorem flatMap_filter_perm {keys : List κ} (hnd : keys.Nodup) {l : List α}
    (hl : ∀ a ∈ l, key a ∈ keys) :
    (keys.flatMap fun k => l.filter fun a => decide (key a = k)).Perm l := by
  induction keys generalizing l with
  | nil =>
    rw [List.eq_nil_iff_forall_not_mem.mpr fun a ha => List.not_mem_nil (hl a ha)]
    exact List.Perm.nil
  | cons k keys ih =>
    obtain ⟨hk, hnd⟩ := List.nodup_cons.mp hnd
    let rest := l.filter fun a => !decide (key a = k)
    have hrest : ∀ a ∈ rest, key a ∈ keys := fun a ha => by
      obtain ⟨ha, hne⟩ := List.mem_filter.mp ha
      exact (List.mem_cons.mp (hl a ha)).resolve_left (by simpa using hne)
    have hgroups : (keys.flatMap fun k' => l.filter fun a => decide (key a = k')) =
        keys.flatMap fun k' => rest.filter fun a => decide (key a = k') := by
      refine List.flatMap_congr fun k' hk' => ?_
      rw [List.filter_filter]
      refine List.filter_congr fun a _ => ?_
      have hne : key a = k' → ¬ key a = k := fun he he' => hk (he' ▸ he.symm ▸ hk')
      by_cases he : key a = k'
      · simp [he, he ▸ hne he]
      · simp [he]
    rw [List.flatMap_cons, hgroups]
    exact ((ih hnd hrest).append_left _).trans (List.filter_append_perm _ l)

/-! ## Stable sorting -/

/-- Sort by key, keeping the order of elements with equal keys. -/
def stableSort (key : α → κ) (l : List α) : List α :=
  l.insertionSort fun a b => key a ≤ key b

omit [DecidableEq κ] in
theorem perm_stableSort (key : α → κ) (l : List α) : (stableSort key l).Perm l :=
  List.perm_insertionSort _ l

omit [DecidableEq κ] in
theorem pairwise_stableSort (key : α → κ) (l : List α) :
    (stableSort key l).Pairwise fun a b => key a ≤ key b :=
  have : Std.Total fun a b : α => key a ≤ key b := ⟨fun a b => le_total (key a) (key b)⟩
  have : IsTrans α fun a b => key a ≤ key b := ⟨fun _ _ _ => le_trans⟩
  List.pairwise_insertionSort _ l

/-- **Stability**: sorting keeps the elements of each key in order. -/
theorem filter_stableSort (key : α → κ) (l : List α) (k : κ) :
    (stableSort key l).filter (fun a => decide (key a = k)) =
      l.filter fun a => decide (key a = k) := by
  have hperm := (perm_stableSort key l).filter fun a => decide (key a = k)
  refine (List.Sublist.eq_of_length ?_ hperm.length_eq.symm).symm
  have hpair : (l.filter fun a => decide (key a = k)).Pairwise fun a b => key a ≤ key b :=
    List.pairwise_iff_forall_sublist.mpr fun {a b} hs => by
      have ha := List.mem_filter.mp (hs.subset List.mem_cons_self)
      have hb := List.mem_filter.mp (hs.subset (List.mem_cons_of_mem a List.mem_cons_self))
      rw [of_decide_eq_true ha.2, of_decide_eq_true hb.2]
  have : Std.Total fun a b : α => key a ≤ key b := ⟨fun a b => le_total (key a) (key b)⟩
  have : IsTrans α fun a b => key a ≤ key b := ⟨fun _ _ _ => le_trans⟩
  have hsub := List.sublist_insertionSort hpair List.filter_sublist
  have hfilter := hsub.filter fun a => decide (key a = k)
  rwa [List.filter_filter, funext fun a => Bool.and_self (decide (key a = k))] at hfilter

theorem grouping_stableSort_iff : Grouping key (stableSort key l) gs ↔ Grouping key l gs :=
  ⟨fun h => h.congr fun k => (filter_stableSort key l k).symm,
    fun h => h.congr fun k => filter_stableSort key l k⟩

omit [DecidableEq κ] in
/-- Sorting goes through a map that keeps the keys. -/
theorem map_stableSort {β : Type} (f : α → β) {key : β → κ} (l : List α) :
    (stableSort (fun a => key (f a)) l).map f = stableSort key (l.map f) :=
  List.map_insertionSort _ _ f l fun _ _ _ _ => Iff.rfl

omit [DecidableEq κ] in
/-- Elements with distinct keys are sorted alike, however they came. -/
theorem stableSort_eq_of_perm {l' : List α} (hnd : (l.map key).Nodup) (h : l.Perm l') :
    stableSort key l = stableSort key l' := by
  have hstrict : ∀ m : List α, m.Perm l → (stableSort key m).Pairwise fun a b => key a < key b := by
    intro m hm
    have hnd' : ((stableSort key m).map key).Nodup :=
      (((perm_stableSort key m).trans hm).map key).nodup_iff.mpr hnd
    exact ((pairwise_stableSort key m).and (List.pairwise_map.mp hnd')).imp fun hab =>
      lt_of_le_of_ne hab.1 hab.2
  have hperm := (perm_stableSort key l).trans (h.trans (perm_stableSort key l').symm)
  exact hperm.eq_of_pairwise (fun _ _ _ _ hab hba => absurd hba hab.asymm)
    (hstrict l (List.Perm.refl l)) (hstrict l' h.symm)

/-- **Sorting by key and position is sorting by key, stably.** -/
theorem stableSort_position {ι : Type} [LinearOrder ι] {position : α → ι}
    (h : l.Pairwise fun a b => position a < position b) :
    stableSort (fun a => toLex (key a, position a)) l = stableSort key l := by
  have hperm := perm_stableSort key l
  have hperm' := perm_stableSort (fun a => toLex (key a, position a)) l
  let before : α → α → Prop := fun a b => toLex (key a, position a) < toLex (key b, position b)
  have hasymm : ∀ a b, before a b → before b a → a = b := fun _ _ hab hba =>
    absurd hba hab.asymm
  refine (hperm'.trans hperm.symm).eq_of_pairwise (fun a b _ _ => hasymm a b) ?_ ?_
  · have hne : (stableSort (fun a => toLex (key a, position a)) l).Pairwise
        fun a b => position a ≠ position b := (h.imp ne_of_lt).perm hperm'.symm Ne.symm
    refine ((pairwise_stableSort _ l).and hne).imp fun hab => lt_of_le_of_ne hab.1 fun he => ?_
    exact hab.2 (Prod.mk.inj (congrArg ofLex he)).2
  · refine List.pairwise_iff_forall_sublist.mpr fun {a b} hs => ?_
    refine Prod.Lex.toLex_lt_toLex.mpr ?_
    have hle := List.pairwise_iff_forall_sublist.mp (pairwise_stableSort key l) hs
    refine (lt_or_eq_of_le hle).imp id fun heq => ⟨heq, ?_⟩
    -- elements of one key stand in the order of `l`
    have hfilter := hs.filter fun c => decide (key c = key b)
    rw [filter_stableSort] at hfilter
    have hkey : key a = key b := heq
    have hab : [a, b].filter (fun c => decide (key c = key b)) = [a, b] := by simp [hkey]
    rw [hab] at hfilter
    exact List.pairwise_iff_forall_sublist.mp h (hfilter.trans List.filter_sublist)

/-! ## Grouping into a dictionary -/

/-- Append every element to the list stored under its key. -/
def groupInto (key : α → κ) (l : List α) : Dict κ (List α) :=
  l.foldl (fun d a => d.modify (key a) [] (· ++ [a])) Dict.empty

omit [LinearOrder κ] in
theorem get?_groupInto (key : α → κ) (l : List α) (k : κ) :
    (groupInto key l).get? k =
      if ∃ a ∈ l, key a = k then some (l.filter fun a => decide (key a = k)) else none := by
  suffices h : ∀ (l : List α) (d : Dict κ (List α)),
      (l.foldl (fun d a => d.modify (key a) [] (· ++ [a])) d).get? k =
        if ∃ a ∈ l, key a = k then
          some ((d.get? k).getD [] ++ l.filter fun a => decide (key a = k))
        else d.get? k by
    simpa [groupInto] using h l Dict.empty
  intro l
  induction l with
  | nil => intro d; simp
  | cons a l ih =>
    intro d
    rw [List.foldl_cons, ih, Dict.get?_modify]
    by_cases ha : key a = k
    · subst ha
      simp only [if_true, List.mem_cons, exists_eq_or_imp, true_or, Option.getD_some,
        List.filter_cons, decide_true, List.append_assoc, List.singleton_append]
      split
      · rfl
      · rename_i hno
        have hnil : l.filter (fun b => decide (key b = key a)) = [] := by
          simpa [List.filter_eq_nil_iff] using hno
        rw [hnil]
    · rw [if_neg (Ne.symm ha)]
      simp [ha]

/-- **The dictionary's entries, sorted by key, are the grouping.** -/
theorem grouping_sortedItems (key : α → κ) (l : List α) :
    Grouping key l (stableSort Prod.fst (groupInto key l).items) where
  sorted := by
    have hle := pairwise_stableSort Prod.fst (groupInto key l).items
    have hnd : ((stableSort Prod.fst (groupInto key l).items).map Prod.fst).Nodup :=
      ((perm_stableSort Prod.fst _).map Prod.fst).nodup_iff.mpr (groupInto key l).nodup
    rw [List.pairwise_map]
    exact (hle.and (List.pairwise_map.mp hnd)).imp fun h => lt_of_le_of_ne h.1 h.2
  group p hp := by
    have hget := Dict.mem_items_iff.mp ((perm_stableSort Prod.fst _).mem_iff.mp hp)
    rw [get?_groupInto] at hget
    split at hget
    · exact (Option.some.inj hget).symm
    · exact absurd hget (by simp)
  keys k := by
    rw [((perm_stableSort Prod.fst _).map Prod.fst).mem_iff]
    change k ∈ (groupInto key l).keys ↔ _
    rw [Dict.mem_keys_iff, get?_groupInto]
    split <;> simp_all

/-! ## The runs of a sorted stream -/

/-- The maximal runs of equal keys of a stream: a run is yielded when a value with another key
arrives, and the last one at the end. -/
def runs (key : α → κ) : Transducer α (κ × List α) where
  State := Option κ × List α
  init := (none, [])
  step s a :=
    if key a ≠ s.1.getD (key a) then ((some (key a), [a]), some (s.1.getD (key a), s.2))
    else ((some (s.1.getD (key a)), s.2 ++ [a]), none)
  flush s := s.1.map fun k => (k, s.2)

omit [LinearOrder κ] in
theorem run_runs_nil (key : α → κ) (k : κ) (g : List α) :
    (runs key).run (some k, g) [] = [(k, g)] := rfl

omit [LinearOrder κ] in
theorem run_runs_cons (key : α → κ) (k : κ) (g : List α) (a : α) (l : List α) :
    (runs key).run (some k, g) (a :: l) =
      if key a = k then (runs key).run (some k, g ++ [a]) l
      else (k, g) :: (runs key).run (some (key a), [a]) l := by
  change ((runs key).step (some k, g) a).2.toList ++
    (runs key).run ((runs key).step (some k, g) a).1 l = _
  by_cases h : key a = k <;> simp [runs, h]

/-- A run before larger keys is the first group. -/
theorem Grouping.cons {k : κ} {g : List α} (h : Grouping key l gs) (hg : g ≠ [])
    (hk : ∀ a ∈ g, key a = k) (hl : ∀ a ∈ l, k < key a) :
    Grouping key (g ++ l) ((k, g) :: gs) where
  sorted := by
    refine List.pairwise_cons.mpr ⟨fun k' hk' => ?_, h.sorted⟩
    obtain ⟨a, ha, rfl⟩ := (h.keys k').mp hk'
    exact hl a ha
  group p hp := by
    rw [List.filter_append]
    rcases List.mem_cons.mp hp with rfl | hp
    · have h₁ : g.filter (fun a => decide (key a = k)) = g :=
        List.filter_eq_self.mpr fun a ha => decide_eq_true (hk a ha)
      have h₂ : l.filter (fun a => decide (key a = k)) = [] :=
        List.filter_eq_nil_iff.mpr fun a ha => by simpa using (hl a ha).ne'
      rw [h₁, h₂, List.append_nil]
    · obtain ⟨b, hb, hbk⟩ := (h.keys p.1).mp (List.mem_map_of_mem hp)
      have h₁ : g.filter (fun a => decide (key a = p.1)) = [] :=
        List.filter_eq_nil_iff.mpr fun a ha => by
          simpa [hk a ha, ← hbk] using (hl b hb).ne
      rw [h₁, List.nil_append]
      exact h.group p hp
  keys k' := by
    rw [List.map_cons, List.mem_cons, h.keys]
    simp only [List.mem_append, or_and_right, exists_or]
    refine or_congr ⟨fun he => ?_, fun ⟨a, ha, hka⟩ => hka ▸ hk a ha⟩ Iff.rfl
    obtain ⟨a, ha⟩ := List.exists_mem_of_ne_nil g hg
    exact ⟨a, ha, (hk a ha).trans he.symm⟩

theorem grouping_nil : Grouping key [] [] where
  sorted := List.Pairwise.nil
  group _ hp := absurd hp List.not_mem_nil
  keys _ := by simp

theorem grouping_run_from (key : α → κ) {k : κ} {g : List α} (hg : g ≠ [])
    (hk : ∀ a ∈ g, key a = k) (hs : l.Pairwise fun a b => key a ≤ key b)
    (hl : ∀ a ∈ l, k ≤ key a) : Grouping key (g ++ l) ((runs key).run (some k, g) l) := by
  induction l generalizing k g with
  | nil =>
    rw [run_runs_nil]
    exact grouping_nil.cons hg hk fun _ ha => absurd ha List.not_mem_nil
  | cons a l ih =>
    obtain ⟨has, hs⟩ := List.pairwise_cons.mp hs
    rw [run_runs_cons]
    split
    · rename_i hak
      rw [← List.singleton_append, ← List.append_assoc]
      refine ih (by simp) (fun b hb => ?_) hs fun b hb => hak ▸ has b hb
      rcases List.mem_append.mp hb with hb | hb
      · exact hk b hb
      · exact List.mem_singleton.mp hb ▸ hak
    · rename_i hak
      -- a new key: everything from `a` on is above `k`
      have hlt : k < key a := lt_of_le_of_ne (hl a List.mem_cons_self) (Ne.symm hak)
      refine (ih (List.cons_ne_nil a []) (fun b hb => ?_) hs has).cons hg hk fun b hb => ?_
      · rw [List.mem_singleton.mp hb]
      · rcases List.mem_cons.mp hb with rfl | hb
        · exact hlt
        · exact hlt.trans_le (has b hb)

/-- **The runs of a sorted list are its grouping.** -/
theorem grouping_runs (hs : l.Pairwise fun a b => key a ≤ key b) :
    Grouping key l ((runs key).run (runs key).init l) := by
  cases l with
  | nil => exact grouping_nil
  | cons a l =>
    obtain ⟨has, hs⟩ := List.pairwise_cons.mp hs
    have hinit : (runs key).run (runs key).init (a :: l) =
        (runs key).run (some (key a), [a]) l := by
      change ((runs key).step (none, []) a).2.toList ++
        (runs key).run ((runs key).step (none, []) a).1 l = _
      simp [runs]
    rw [hinit]
    refine grouping_run_from key (List.cons_ne_nil a []) (fun b hb => ?_) hs has
    rw [List.mem_singleton.mp hb]

omit [LinearOrder κ] in
theorem after_runs_snoc (key : α → κ) (l : List α) (a : α) :
    ((runs key).after (runs key).init (l ++ [a])).1 = some (key a) := by
  rw [Transducer.after_snoc]
  generalize (runs key).after (runs key).init l = s
  obtain ⟨k, g⟩ := s
  by_cases h : key a = k.getD (key a)
  · simp [runs, ← h]
  · simp [runs, h]

/-- Of a sorted list that is being read: the complete runs, and the one it is in. -/
theorem grouping_read {a : α} (hs : (l ++ [a]).Pairwise fun a b => key a ≤ key b) :
    Grouping key (l ++ [a]) ((runs key).outputs (runs key).init (l ++ [a]) ++
      [(key a, ((runs key).after (runs key).init (l ++ [a])).2)]) := by
  have hruns := grouping_runs hs
  rw [Transducer.run_eq_outputs] at hruns
  have hkey := after_runs_snoc key l a
  generalize (runs key).after (runs key).init (l ++ [a]) = s at hruns hkey ⊢
  obtain ⟨k, g⟩ := s
  obtain rfl : k = some (key a) := hkey
  exact hruns

end CardBinData.Library
