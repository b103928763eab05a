import Mathlib.Data.List.Basic
import Mathlib.Data.List.Nodup
import Mathlib.Data.List.Perm.Basic

/-!
# Insertion-ordered dictionaries

`Dict κ ν` is an association list whose keys are distinct, kept in the order in which the keys
were first written. The distinctness is a field, so no operation can build a dictionary that
holds a key twice.

* `set`, `setdefault`, `modify`, `erase`, `ofPairs`: each operation is described by what `get?`
  reads after it (`get?_set`, `get?_setdefault`, `get?_modify`, `get?_erase`).
* `mem_items_iff`: the items are exactly what `get?` finds, which is how a fact about every entry
  is turned into a fact about one key.
* `get?_ofPairs`: pairs with distinct keys are read back unchanged, in whatever order they come;
  of pairs with one key the last is read (`get?_ofPairs_eq`).
-/

namespace CardBinData.Library

/-- A dictionary: entries with distinct keys, oldest key first. -/
structure Dict (κ ν : Type) where
  items : List (κ × ν)
  nodup : (items.map Prod.fst).Nodup

namespace Dict

variable {κ ν : Type}

@[ext] theorem ext {a b : Dict κ ν} (h : a.items = b.items) : a = b := by
  cases a; cases b; cases h; rfl

instance [DecidableEq κ] [DecidableEq ν] : DecidableEq (Dict κ ν) := fun a b =>
  decidable_of_iff (a.items = b.items) ⟨ext, fun h => h ▸ rfl⟩

/-- The empty dictionary. -/
def empty : Dict κ ν := ⟨[], List.nodup_nil⟩

/-- The keys, oldest first. -/
def keys (d : Dict κ ν) : List κ := d.items.map Prod.fst

variable [DecidableEq κ]

/-- The value stored for `k`, if any. -/
def get? (d : Dict κ ν) (k : κ) : Option ν := d.items.lookup k

/-- Two dictionaries are equal as mappings when they hold the same entries in some order. -/
instance [DecidableEq ν] : BEq (Dict κ ν) := ⟨fun a b => a.items.isPerm b.items⟩

theorem beq_iff [DecidableEq ν] {a b : Dict κ ν} : (a == b) = true ↔ a.items.Perm b.items :=
  List.isPerm_iff

theorem beq_self [DecidableEq ν] (d : Dict κ ν) : (d == d) = true :=
  beq_iff.mpr (List.Perm.refl d.items)

/-- Write `v` for `k` into an entry list: in place when `k` is there, at the end otherwise. -/
def setItems : List (κ × ν) → κ → ν → List (κ × ν)
  | [], k, v => [(k, v)]
  | (k', v') :: rest, k, v => if k' = k then (k, v) :: rest else (k', v') :: setItems rest k v

theorem mem_keys_setItems {l : List (κ × ν)} {k q : κ} {v : ν} :
    q ∈ (setItems l k v).map Prod.fst ↔ q = k ∨ q ∈ l.map Prod.fst := by
  induction l with
  | nil => simp [setItems]
  | cons e rest ih =>
    obtain ⟨k', v'⟩ := e
    unfold setItems
    split
    · rename_i hk
      subst hk
      simp
    · simp only [List.map_cons, List.mem_cons, ih]
      tauto

theorem nodup_setItems {l : List (κ × ν)} (h : (l.map Prod.fst).Nodup) (k : κ) (v : ν) :
    ((setItems l k v).map Prod.fst).Nodup := by
  induction l with
  | nil => simp [setItems]
  | cons e rest ih =>
    obtain ⟨k', v'⟩ := e
    rw [List.map_cons, List.nodup_cons] at h
    unfold setItems
    split
    · rename_i hk
      subst hk
      exact List.nodup_cons.mpr h
    · rename_i hk
      refine List.nodup_cons.mpr ⟨fun hm => ?_, ih h.2⟩
      rcases mem_keys_setItems.mp hm with he | hm
      · exact hk he
      · exact h.1 hm

theorem lookup_setItems (l : List (κ × ν)) (k : κ) (v : ν) (q : κ) :
    (setItems l k v).lookup q = if q = k then some v else l.lookup q := by
  induction l with
  | nil =>
    by_cases hq : q = k
    · subst hq; simp [setItems]
    · simp [setItems, hq]
  | cons e rest ih =>
    obtain ⟨k', v'⟩ := e
    unfold setItems
    by_cases hk : k' = k
    · subst hk
      by_cases hq : q = k'
      · subst hq; simp
      · have hb : (q == k') = false := beq_eq_false_iff_ne.mpr hq
        simp [List.lookup_cons, hb, hq]
    · rw [if_neg hk, List.lookup_cons, List.lookup_cons, ih]
      by_cases hq : q = k
      · subst hq
        have hb : (q == k') = false := beq_eq_false_iff_ne.mpr (Ne.symm hk)
        simp [hb]
      · simp [hq]

/-- `d[k] = v`. -/
def set (d : Dict κ ν) (k : κ) (v : ν) : Dict κ ν :=
  ⟨setItems d.items k v, nodup_setItems d.nodup k v⟩

/-- `d.setdefault(k, v)`: write `v` unless `k` is there. -/
def setdefault (d : Dict κ ν) (k : κ) (v : ν) : Dict κ ν :=
  if (d.get? k).isSome then d else d.set k v

/-- `d[k] = f(d[k])`, with `f` given the default when `k` is missing. -/
def modify (d : Dict κ ν) (k : κ) (default : ν) (f : ν → ν) : Dict κ ν :=
  d.set k (f ((d.get? k).getD default))

/-- `del d[k]` for a key that is there; nothing for one that is not. -/
def erase (d : Dict κ ν) (k : κ) : Dict κ ν :=
  ⟨d.items.filter fun e => decide (e.1 ≠ k),
    d.nodup.sublist (List.filter_sublist.map Prod.fst)⟩

/-- `dict(pairs)`: later pairs overwrite earlier ones. -/
def ofPairs (l : List (κ × ν)) : Dict κ ν := l.foldl (fun d e => d.set e.1 e.2) empty

/-! ## Reading -/

@[simp] theorem get?_empty (q : κ) : (empty : Dict κ ν).get? q = none := rfl

theorem get?_set (d : Dict κ ν) (k : κ) (v : ν) (q : κ) :
    (d.set k v).get? q = if q = k then some v else d.get? q :=
  lookup_setItems d.items k v q

theorem get?_setdefault (d : Dict κ ν) (k : κ) (v : ν) (q : κ) :
    (d.setdefault k v).get? q = if q = k then some ((d.get? k).getD v) else d.get? q := by
  unfold setdefault
  cases hk : d.get? k with
  | none => simp [get?_set]
  | some u =>
    simp only [Option.isSome_some, if_true, Option.getD_some]
    split
    · rename_i hq
      rw [hq, hk]
    · rfl

theorem get?_modify (d : Dict κ ν) (k : κ) (default : ν) (f : ν → ν) (q : κ) :
    (d.modify k default f).get? q =
      if q = k then some (f ((d.get? k).getD default)) else d.get? q :=
  get?_set d k _ q

theorem get?_eq_none_iff {d : Dict κ ν} {k : κ} : d.get? k = none ↔ k ∉ d.keys := by
  unfold get? keys
  rw [List.lookup_eq_none_iff]
  simp only [List.mem_map, not_exists, not_and, bne_iff_ne, ne_eq]
  exact forall_congr' fun p => forall_congr' fun _ => not_congr eq_comm

/-- **The entries are what `get?` finds.** -/
theorem mem_items_iff {d : Dict κ ν} {k : κ} {v : ν} :
    (k, v) ∈ d.items ↔ d.get? k = some v := by
  obtain ⟨l, hn⟩ := d
  unfold get?
  simp only
  induction l with
  | nil => simp
  | cons e rest ih =>
    obtain ⟨k', v'⟩ := e
    rw [List.map_cons, List.nodup_cons] at hn
    rw [List.mem_cons, List.lookup_cons, ih hn.2, Prod.mk.injEq]
    by_cases hk : k = k'
    · subst hk
      have hnone : rest.lookup k = none := by
        rw [List.lookup_eq_none_iff]
        intro p hp
        simp only [bne_iff_ne, ne_eq]
        exact fun he => hn.1 (List.mem_map.mpr ⟨p, hp, he.symm⟩)
      simp [hnone, eq_comm]
    · have hb : (k == k') = false := beq_eq_false_iff_ne.mpr hk
      simp [hb, hk]

/-- Dictionaries that read alike have the same entries. -/
theorem items_perm {d d' : Dict κ ν} (h : ∀ k, d.get? k = d'.get? k) :
    d.items.Perm d'.items :=
  (List.perm_ext_iff_of_nodup d.nodup.of_map d'.nodup.of_map).mpr fun e => by
    rw [mem_items_iff, mem_items_iff, h]

theorem mem_keys_iff {d : Dict κ ν} {k : κ} : k ∈ d.keys ↔ ∃ v, d.get? k = some v := by
  rw [← Option.isSome_iff_exists, ← not_iff_not, ← get?_eq_none_iff, Option.not_isSome_iff_eq_none]

theorem get?_erase (d : Dict κ ν) (k q : κ) :
    (d.erase k).get? q = if q = k then none else d.get? q := by
  apply Option.ext
  intro v
  rw [← mem_items_iff]
  have hm : (q, v) ∈ (d.erase k).items ↔ (q, v) ∈ d.items ∧ q ≠ k := by
    simp [erase, List.mem_filter]
  rw [hm, mem_items_iff]
  by_cases hq : q = k <;> simp [hq]

/-- Pairs with distinct keys are read back as they were written. -/
theorem get?_ofPairs {l : List (κ × ν)} (h : (l.map Prod.fst).Nodup) {k : κ} {v : ν} :
    (ofPairs l).get? k = some v ↔ (k, v) ∈ l := by
  suffices H : ∀ (l : List (κ × ν)) (d : Dict κ ν), (l.map Prod.fst).Nodup →
      (∀ e ∈ l, d.get? e.1 = none) →
      ((l.foldl (fun d e => d.set e.1 e.2) d).get? k = some v ↔
        (k, v) ∈ l ∨ d.get? k = some v) by
    simpa [ofPairs] using H l empty h fun _ _ => rfl
  clear h
  intro l
  induction l with
  | nil => intro d _ _; simp
  | cons e rest ih =>
    intro d hn hd
    obtain ⟨k', v'⟩ := e
    rw [List.map_cons, List.nodup_cons] at hn
    have hne : ∀ e ∈ rest, e.1 ≠ k' := fun e he heq =>
      hn.1 (List.mem_map.mpr ⟨e, he, heq⟩)
    rw [List.foldl_cons, ih _ hn.2 fun e he => by
      rw [get?_set, if_neg (hne e he)]
      exact hd e (List.mem_cons_of_mem _ he)]
    rw [get?_set, List.mem_cons, Prod.mk.injEq]
    by_cases hk : k = k'
    · subst hk
      have : d.get? k = none := hd (k, v') List.mem_cons_self
      have hnot : (k, v) ∉ rest := fun hm => hne _ hm rfl
      simp [this, hnot, eq_comm]
    · simp [hk]

/-- Of the pairs of one key, the last one is read. -/
theorem get?_ofPairs_eq (l : List (κ × ν)) (k : κ) :
    (ofPairs l).get? k = l.reverse.lookup k := by
  have hwrites : ∀ (l : List (κ × ν)) (d : Dict κ ν),
      (l.foldl (fun d e => d.set e.1 e.2) d).get? k = (l.reverse.lookup k).or (d.get? k) := by
    intro l
    induction l with
    | nil => exact fun _ => rfl
    | cons e l ih =>
      intro d
      rw [List.foldl_cons, ih, get?_set, List.reverse_cons, List.lookup_append, Option.or_assoc]
      congr 1
      rw [List.lookup_cons, List.lookup_nil]
      by_cases hk : k = e.1
      · rw [if_pos hk, beq_iff_eq.mpr hk]
        rfl
      · rw [if_neg hk, beq_eq_false_iff_ne.mpr hk]
        rfl
  exact (hwrites l empty).trans (Option.or_none)

/-- The order of the entries does not matter to reading. -/
theorem lookup_reverse (d : Dict κ ν) (k : κ) : d.items.reverse.lookup k = d.get? k := by
  let reversed : Dict κ ν := ⟨d.items.reverse, by
    rw [List.map_reverse]
    exact List.nodup_reverse.mpr d.nodup⟩
  change reversed.get? k = d.get? k
  refine Option.ext fun v => ?_
  rw [← mem_items_iff, ← mem_items_iff]
  exact List.mem_reverse

/-- **Renamed keys**: a name that only `k` gets is read as `k`, whatever the other keys become. -/
theorem get?_rename {κ' : Type} [DecidableEq κ'] (d : Dict κ ν) {f : κ → κ'} {k : κ} {q : κ'}
    (h : ∀ k', f k' = q ↔ k' = k) :
    (ofPairs (d.items.map fun e => (f e.1, e.2))).get? q = d.get? k := by
  have hlookup : ∀ items : List (κ × ν),
      (items.map fun e => (f e.1, e.2)).lookup q = items.lookup k := by
    intro items
    induction items with
    | nil => rfl
    | cons e items ih =>
      rw [List.map_cons, List.lookup_cons, List.lookup_cons, ih]
      by_cases hk : e.1 = k
      · rw [beq_iff_eq.mpr ((h e.1).mpr hk).symm, beq_iff_eq.mpr hk.symm]
      · rw [beq_eq_false_iff_ne.mpr fun heq => hk ((h e.1).mp heq.symm),
          beq_eq_false_iff_ne.mpr fun heq => hk heq.symm]
  rw [get?_ofPairs_eq, ← List.map_reverse, hlookup, lookup_reverse]

end Dict

end CardBinData.Library
