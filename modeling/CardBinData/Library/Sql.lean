import CardBinData.Library.Grouping

/-!
# Conditions with `NULL`, and the first row of an ordering

A nullable column is an `Option`, and a condition on it is three-valued: `none` is `UNKNOWN`.
`WHERE` and `CASE WHEN` act on a condition only when it is true (`holds`), and `holds` turns the
three-valued connectives into the two-valued ones (`holds_and`, `holds_or`), so a condition
without negation can be read as an ordinary one.

* `caseWhen`: the value of the first arm whose condition holds.
* `limitOne key rows`: `ORDER BY key LIMIT 1`. `limitOne_least`: it is a row whose key is below
  all others, so neither the order of the table nor the sorting method matters where keys are
  distinct; `limitOne_eq_none_iff`: there is no row only when there are none.
* `find?_key`, `filter_key`: a row of a table with distinct keys is the one found by its key.
* `Identifies`: an id is that of the row with a key, and of no other.
-/

namespace CardBinData.Library

/-- A condition's value: true, false or `UNKNOWN`. -/
abbrev Truth := Option Bool

namespace Truth

/-- `AND`: false when either side is. -/
def and : Truth → Truth → Truth
  | some false, _ => some false
  | _, some false => some false
  | some true, some true => some true
  | _, _ => none

/-- `OR`: true when either side is. -/
def or : Truth → Truth → Truth
  | some true, _ => some true
  | _, some true => some true
  | some false, some false => some false
  | _, _ => none

/-- `x IS NOT NULL`, which is never `UNKNOWN`. -/
def isNotNull {α : Type} (x : Option α) : Truth := some x.isSome

/-- A comparison with a nullable column: `UNKNOWN` on `NULL`. -/
def compare {α : Type} (r : α → Bool) (x : Option α) : Truth := x.map r

/-- A condition selects a row when it is true. -/
def holds (t : Truth) : Bool := t == some true

@[simp] theorem holds_and (s t : Truth) : (s.and t).holds = (s.holds && t.holds) := by
  rcases s with - | (- | -) <;> rcases t with - | (- | -) <;> rfl

@[simp] theorem holds_or (s t : Truth) : (s.or t).holds = (s.holds || t.holds) := by
  rcases s with - | (- | -) <;> rcases t with - | (- | -) <;> rfl

@[simp] theorem holds_some (b : Bool) : holds (some b) = b := by
  cases b <;> rfl

@[simp] theorem holds_isNotNull {α : Type} (x : Option α) : (isNotNull x).holds = x.isSome :=
  holds_some _

@[simp] theorem holds_compare {α : Type} (r : α → Bool) (x : Option α) :
    (compare r x).holds = x.any r := by
  cases x with
  | none => rfl
  | some a => exact holds_some (r a)

/-- `c₁ OR c₂ OR …`. -/
def anyOf (ts : List Truth) : Truth := ts.foldr or (some false)

/-- `c₁ AND c₂ AND …`. -/
def allOf (ts : List Truth) : Truth := ts.foldr and (some true)

@[simp] theorem holds_anyOf (ts : List Truth) : (anyOf ts).holds = ts.any holds := by
  induction ts with
  | nil => rfl
  | cons t ts ih =>
    rw [List.any_cons, ← ih]
    exact holds_or t (anyOf ts)

@[simp] theorem holds_allOf (ts : List Truth) : (allOf ts).holds = ts.all holds := by
  induction ts with
  | nil => rfl
  | cons t ts ih =>
    rw [List.all_cons, ← ih]
    exact holds_and t (allOf ts)

end Truth

/-- `CASE WHEN c₁ THEN v₁ … ELSE v END`. -/
def caseWhen {α : Type} (arms : List (Truth × α)) (else_ : α) : α :=
  match arms.find? fun arm => arm.1.holds with
  | some arm => arm.2
  | none => else_

/-- In a table with distinct keys, a row is found by its key. -/
theorem find?_key {ρ κ : Type} [DecidableEq κ] {key : ρ → κ} {rows : List ρ}
    (hnd : (rows.map key).Nodup) {r : ρ} (hr : r ∈ rows) :
    rows.find? (fun r' => decide (key r' = key r)) = some r := by
  cases h : rows.find? fun r' => decide (key r' = key r) with
  | none => exact absurd (List.find?_eq_none.mp h r hr) (by simp)
  | some r' =>
    have hkey : key r' = key r := by simpa using List.find?_some h
    rw [List.inj_on_of_nodup_map hnd (List.mem_of_find?_eq_some h) hr hkey]

/-- In a table with distinct keys, a row is the only one with its key. -/
theorem filter_key {ρ κ : Type} [DecidableEq κ] {key : ρ → κ} {rows : List ρ}
    (hnd : (rows.map key).Nodup) {r : ρ} (hr : r ∈ rows) :
    rows.filter (fun r' => decide (key r' = key r)) = [r] := by
  induction rows with
  | nil => exact absurd hr List.not_mem_nil
  | cons r₀ rows ih =>
    rw [List.map_cons, List.nodup_cons] at hnd
    rw [List.filter_cons]
    rcases List.mem_cons.mp hr with rfl | hr
    · have hrest : rows.filter (fun r' => decide (key r' = key r)) = [] :=
        List.filter_eq_nil_iff.mpr fun r' hr' hkey =>
          hnd.1 (of_decide_eq_true hkey ▸ List.mem_map_of_mem hr')
      rw [if_pos (decide_eq_true rfl), hrest]
    · have hne : ¬ decide (key r₀ = key r) = true := fun hkey =>
        hnd.1 (of_decide_eq_true hkey ▸ List.mem_map_of_mem hr)
      rw [if_neg hne, ih hnd.2 hr]

/-- `i` is the id of the row with the key `k`: one row has the key, one row has the id, and it is
the same. -/
def Identifies {ρ κ ι : Type} [DecidableEq κ] [DecidableEq ι] (key : ρ → κ) (id : ρ → ι)
    (rows : List ρ) (k : κ) (i : ι) : Prop :=
  (rows.filter fun r => decide (key r = k)).map id = [i] ∧
    (rows.filter fun r => decide (id r = i)).map key = [k]

instance {ρ κ ι : Type} [DecidableEq κ] [DecidableEq ι] (key : ρ → κ) (id : ρ → ι)
    (rows : List ρ) (k : κ) (i : ι) : Decidable (Identifies key id rows k i) :=
  inferInstanceAs (Decidable (_ ∧ _))

/-- Where keys and ids are distinct, a row is identified by its id. -/
theorem identifies_of_mem {ρ κ ι : Type} [DecidableEq κ] [DecidableEq ι] {key : ρ → κ}
    {id : ρ → ι} {rows : List ρ} (hkeys : (rows.map key).Nodup) (hids : (rows.map id).Nodup)
    {r : ρ} (hr : r ∈ rows) : Identifies key id rows (key r) (id r) := by
  unfold Identifies
  rw [filter_key hkeys hr, filter_key hids hr]
  exact ⟨rfl, rfl⟩

/-- Rows that can all be read are read together. -/
theorem exists_mapM_eq_some {α β : Type} {f : α → Option β} {R : α → β → Prop} {l : List α}
    (h : ∀ a ∈ l, ∃ b, f a = some b ∧ R a b) : ∃ bs, l.mapM f = some bs ∧ List.Forall₂ R l bs := by
  induction l with
  | nil => exact ⟨[], rfl, List.Forall₂.nil⟩
  | cons a l ih =>
    obtain ⟨b, hb, hR⟩ := h a List.mem_cons_self
    obtain ⟨bs, hbs, hRs⟩ := ih fun a' ha' => h a' (List.mem_cons_of_mem a ha')
    refine ⟨b :: bs, ?_, List.Forall₂.cons hR hRs⟩
    rw [List.mapM_cons, hb, hbs]
    rfl

/-- Rows that have been read together were read from the list. -/
theorem exists_of_mapM_eq_some {α β : Type} {f : α → Option β} {l : List α} {bs : List β}
    (h : l.mapM f = some bs) : ∀ b ∈ bs, ∃ a ∈ l, f a = some b := by
  induction l generalizing bs with
  | nil =>
    obtain rfl : [] = bs := Option.some.inj h
    exact fun b hb => absurd hb List.not_mem_nil
  | cons a l ih =>
    rw [List.mapM_cons] at h
    obtain ⟨b, hb, h⟩ := Option.bind_eq_some_iff.mp h
    obtain ⟨bs', hbs, h⟩ := Option.bind_eq_some_iff.mp h
    obtain rfl : b :: bs' = bs := Option.some.inj h
    refine List.forall_mem_cons.mpr ⟨⟨a, List.mem_cons_self, hb⟩, fun b' hb' => ?_⟩
    obtain ⟨a', ha', hf⟩ := ih hbs b' hb'
    exact ⟨a', List.mem_cons_of_mem a ha', hf⟩

/-- Of two lists related one for one, what is in the second is related to something in the
first. -/
theorem exists_of_forall₂_right {α β : Type} {R : α → β → Prop} {l : List α} {u : List β}
    (h : List.Forall₂ R l u) {b : β} (hb : b ∈ u) : ∃ a ∈ l, R a b := by
  induction h with
  | nil => exact absurd hb List.not_mem_nil
  | cons hR _ ih =>
    rcases List.mem_cons.mp hb with rfl | hb
    · exact ⟨_, List.mem_cons_self, hR⟩
    · obtain ⟨a, ha, hR'⟩ := ih hb
      exact ⟨a, List.mem_cons_of_mem _ ha, hR'⟩

variable {ρ κ : Type} [LinearOrder κ]

/-- `ORDER BY key LIMIT 1`. -/
def limitOne (key : ρ → κ) (rows : List ρ) : Option ρ := (stableSort key rows).head?

theorem limitOne_eq_none_iff {key : ρ → κ} {rows : List ρ} :
    limitOne key rows = none ↔ rows = [] := by
  unfold limitOne
  rw [List.head?_eq_none_iff]
  have h := perm_stableSort key rows
  constructor
  · intro hn
    rw [hn] at h
    exact h.nil_eq.symm
  · rintro rfl
    exact h.eq_nil

/-- The first row is a least one. -/
theorem limitOne_least {key : ρ → κ} {rows : List ρ} {r : ρ} (h : limitOne key rows = some r) :
    r ∈ rows ∧ ∀ r' ∈ rows, key r ≤ key r' := by
  obtain ⟨rest, hr⟩ := List.head?_eq_some_iff.mp h
  have hperm := perm_stableSort key rows
  have hsorted := pairwise_stableSort key rows
  rw [hr] at hperm hsorted
  refine ⟨hperm.mem_iff.mp List.mem_cons_self, fun r' hr' => ?_⟩
  rcases List.mem_cons.mp (hperm.mem_iff.mpr hr') with rfl | hr'
  · exact le_rfl
  · exact (List.pairwise_cons.mp hsorted).1 r' hr'

end CardBinData.Library
