import CardBinData.ImportStatements

/-!
# The deletes of an import (`db/services.py:146-148`)

How far the deletes at the start of `replace_all` have come, and which of the committed rows they
have found (`Phase`). The delete of `bin_records` takes the provenance rows with it, so that after
the third delete every committed row is one that the transaction has deleted (`Phase.delete`), and
what it commits are its own rows (`view_of_covers`). That breaks only when the other import commits
after the delete of `bin_records` has begun (`Phase.overtake`).
-/

namespace CardBinData.ReadCommitted

open Library (Program)

/-- The transaction has begun its delete of `bin_records`. -/
def Transaction.DeletesRecords (t : Transaction) : Prop :=
  match t.program with
  | .raise => False
  | .execute (.delete .binRecordSources) _ => False
  | .execute (.delete .binRecords) _ => t.status ≠ .running
  | _ => True

instance (t : Transaction) : Decidable t.DeletesRecords := by
  unfold Transaction.DeletesRecords
  split <;> infer_instance

theorem deletesRecords_of_commit {t : Transaction} (h : t.program = .commit) :
    t.DeletesRecords := by
  unfold Transaction.DeletesRecords
  rw [h]
  trivial

/-- After the deletes, the delete of `bin_records` has begun. -/
theorem deletesRecords_of_inserts {t : Transaction} (h : t.program.All Sql.IsInsert)
    (hraise : t.program ≠ .raise) : t.DeletesRecords := by
  cases hp : t.program with
  | raise => exact absurd hp hraise
  | commit => exact deletesRecords_of_commit hp
  | execute statement next =>
    unfold Transaction.DeletesRecords
    rw [hp] at h ⊢
    cases statement with
    | delete table => exact absurd h.1 id
    | insert rows => trivial

/-- Every committed row of the table is among those deleted. -/
def Covers (deleted : Deleted) (committed : Database) (table : Table) : Prop :=
  ∀ n ∈ ids committed table, n ∈ deleted table

/-- Every committed row of the table is deleted already, or found. -/
def Finds (deleted : Deleted) (committed : Database) (table : Table) (found : List Nat) : Prop :=
  ∀ n ∈ ids committed table, n ∈ deleted table ∨ n ∈ found

/-- How far the deletes of a transaction have come. -/
inductive Phase (load : SqlProgram) (committed : Database) (overtaken : Prop) (t : Transaction) :
    Prop where
  | raise (hprogram : t.program = .raise)
  | binRecordSources
    (hprogram : t.program = .execute (.delete .binRecordSources) fun _ =>
      .execute (.delete .binRecords) fun _ => .execute (.delete .dataSources) fun _ => load)
    (hdeleted : t.deleted .binRecords = [])
  | binRecords
    (hprogram : t.program = .execute (.delete .binRecords) fun _ =>
      .execute (.delete .dataSources) fun _ => load)
    (hdeleted : t.deleted .binRecords = [])
    (hwaiting : ∀ found, t.status = .waiting found →
      overtaken ∨ Finds t.deleted committed .binRecords found)
  | dataSources
    (hprogram : t.program = .execute (.delete .dataSources) fun _ => load)
    (hcovers : overtaken ∨ Covers t.deleted committed .binRecords ∧
      Covers t.deleted committed .binRecordSources)
    (hwaiting : ∀ found, t.status = .waiting found →
      overtaken ∨ Finds t.deleted committed .dataSources found)
  | load (hprogram : t.program.All Sql.IsInsert)
    (hcovers : overtaken ∨ ∀ table, Covers t.deleted committed table)

section Phase

variable {load : SqlProgram} {committed : Database} {overtaken : Prop} {t : Transaction}

theorem Phase.mono {overtaken' : Prop} (h : Phase load committed overtaken t)
    (hmono : overtaken → overtaken') : Phase load committed overtaken' t := by
  cases h with
  | raise hprogram => exact .raise hprogram
  | binRecordSources hprogram hdeleted => exact .binRecordSources hprogram hdeleted
  | binRecords hprogram hdeleted hwaiting =>
    exact .binRecords hprogram hdeleted fun found h => (hwaiting found h).imp_left hmono
  | dataSources hprogram hcovers hwaiting =>
    exact .dataSources hprogram (hcovers.imp_left hmono) fun found h =>
      (hwaiting found h).imp_left hmono
  | load hprogram hcovers => exact .load hprogram (hcovers.imp_left hmono)

/-- **A transaction is overtaken in its deletes only where they have begun.** -/
theorem Phase.overtake {committed' : Database} (h : Phase load committed overtaken t)
    {overtaken' : Prop} (hovertaken : t.DeletesRecords → overtaken') :
    Phase load committed' overtaken' t := by
  cases h with
  | raise hprogram => exact .raise hprogram
  | binRecordSources hprogram hdeleted => exact .binRecordSources hprogram hdeleted
  | binRecords hprogram hdeleted hwaiting =>
    refine .binRecords hprogram hdeleted fun found hstatus => .inl (hovertaken ?_)
    unfold Transaction.DeletesRecords
    rw [hprogram, hstatus]
    exact Status.noConfusion
  | dataSources hprogram hcovers hwaiting =>
    have hbegun : t.DeletesRecords := by
      unfold Transaction.DeletesRecords
      rw [hprogram]
      trivial
    exact .dataSources hprogram (.inl (hovertaken hbegun)) fun _ _ => .inl (hovertaken hbegun)
  | load hprogram hcovers =>
    by_cases hraise : t.program = .raise
    · exact .raise hraise
    · exact .load hprogram (.inl (hovertaken (deletesRecords_of_inserts hprogram hraise)))

/-- What a statement sees is every committed row that is not deleted. -/
theorem finds_view (t : Transaction) (committed : Database) (table : Table) :
    Finds t.deleted committed table (ids (t.view committed) table) := by
  intro n hn
  by_cases hdeleted : n ∈ t.deleted table
  · exact .inl hdeleted
  · exact .inr (mem_ids_append.mpr (.inl (mem_ids_leave.mpr ⟨hn, hdeleted⟩)))

theorem Phase.wait {table : Table} {next : List (Str × Nat) → SqlProgram}
    (h : Phase load committed overtaken t)
    (hprogram : t.program = .execute (.delete table) next) :
    Phase load committed overtaken
      { t with status := .waiting (ids (t.view committed) table) } := by
  cases h with
  | raise hp => exact nomatch hp.symm.trans hprogram
  | binRecordSources hp hdeleted => exact .binRecordSources hp hdeleted
  | binRecords hp hdeleted _ =>
    obtain ⟨hstatement, -⟩ := Program.execute.inj (hp.symm.trans hprogram)
    cases hstatement
    refine .binRecords hp hdeleted fun found hfound => .inr ?_
    exact Status.waiting.inj hfound ▸ finds_view t committed .binRecords
  | dataSources hp hcovers _ =>
    obtain ⟨hstatement, -⟩ := Program.execute.inj (hp.symm.trans hprogram)
    cases hstatement
    refine .dataSources hp hcovers fun found hfound => .inr ?_
    exact Status.waiting.inj hfound ▸ finds_view t committed .dataSources
  | load hp _ =>
    rw [hprogram] at hp
    exact absurd hp.1 id

/-- The rows that a statement has found by the time it deletes them. -/
theorem finds_of_found {table : Table} {found : List Nat}
    (hfound : found = ids (t.view committed) table ∨ t.status = .waiting found)
    (hwaiting : ∀ found, t.status = .waiting found →
      overtaken ∨ Finds t.deleted committed table found) :
    overtaken ∨ Finds t.deleted committed table found := by
  rcases hfound with rfl | hstatus
  · exact .inr (finds_view t committed table)
  · exact hwaiting found hstatus

/-- A delete of records takes their provenance rows with them. -/
theorem covers_cascade {found : List Nat}
    (hintegrity : ∀ p ∈ committed.binRecordSources, ∃ r ∈ committed.binRecords,
      r.id = p.binRecordId) (hfound : ∀ n ∈ ids committed .binRecords, n ∈ found)
    {n : Nat} (hn : n ∈ ids committed .binRecordSources) :
    n ∈ t.deleted .binRecordSources ++
      cascade (t.view committed) .binRecords found .binRecordSources := by
  obtain ⟨p, hp, rfl⟩ := List.mem_map.mp hn
  by_cases hdeleted : p.id ∈ t.deleted .binRecordSources
  · exact List.mem_append_left _ hdeleted
  · obtain ⟨r, hr, hid⟩ := hintegrity p hp
    have hview : p ∈ (t.view committed).binRecordSources :=
      List.mem_append_left _ (List.mem_filter.mpr ⟨hp, decide_eq_true hdeleted⟩)
    have hmem : p.binRecordId ∈ found := hid ▸ hfound r.id (List.mem_map_of_mem hr)
    exact List.mem_append_right _
      (List.mem_map_of_mem (List.mem_filter.mpr ⟨hview, decide_eq_true hmem⟩))

theorem Phase.delete {table : Table} {next : List (Str × Nat) → SqlProgram} {found : List Nat}
    {t' : Transaction} (h : Phase load committed overtaken t) (hload : load.All Sql.IsInsert)
    (hintegrity : ∀ p ∈ committed.binRecordSources, ∃ r ∈ committed.binRecords,
      r.id = p.binRecordId)
    (hprogram : t.program = .execute (.delete table) next)
    (hfound : found = ids (t.view committed) table ∨ t.status = .waiting found)
    (hprogram' : t'.program = next []) (hstatus' : t'.status = .running)
    (hdeleted' : ∀ tb, t'.deleted tb = t.deleted tb ++
      cascade (t.view committed) table found tb) : Phase load committed overtaken t' := by
  have hrunning : ∀ {P : List Nat → Prop} found, t'.status = .waiting found → P found :=
    fun found hstatus => absurd (hstatus'.symm.trans hstatus) Status.noConfusion
  cases h with
  | raise hp => exact nomatch hp.symm.trans hprogram
  | binRecordSources hp hdeleted =>
    obtain ⟨hstatement, rfl⟩ := Program.execute.inj (hp.symm.trans hprogram)
    cases hstatement
    refine .binRecords hprogram' ?_ hrunning
    rw [hdeleted', hdeleted]
    rfl
  | binRecords hp hdeleted hwaiting =>
    obtain ⟨hstatement, rfl⟩ := Program.execute.inj (hp.symm.trans hprogram)
    cases hstatement
    refine .dataSources hprogram' ((finds_of_found hfound hwaiting).imp_right fun hfinds => ?_)
      hrunning
    have hall : ∀ n ∈ ids committed .binRecords, n ∈ found := fun n hn =>
      (hfinds n hn).resolve_left (by rw [hdeleted]; exact List.not_mem_nil)
    refine ⟨fun n hn => ?_, fun n hn => ?_⟩
    · rw [hdeleted']
      exact List.mem_append_right _ (hall n hn)
    · rw [hdeleted']
      exact covers_cascade hintegrity hall hn
  | dataSources hp hcovers hwaiting =>
    obtain ⟨hstatement, rfl⟩ := Program.execute.inj (hp.symm.trans hprogram)
    cases hstatement
    refine .load (hprogram' ▸ hload) ?_
    rcases hcovers with hover | ⟨hrecords, hprovenance⟩
    · exact .inl hover
    refine (finds_of_found hfound hwaiting).imp_right fun hfinds tb n hn => ?_
    rw [hdeleted']
    cases tb with
    | dataSources => exact List.mem_append.mpr (hfinds n hn)
    | binRecords => exact List.mem_append_left _ (hrecords n hn)
    | binRecordSources => exact List.mem_append_left _ (hprovenance n hn)
  | load hp _ =>
    rw [hprogram] at hp
    exact absurd hp.1 id

theorem Phase.insert {rows : Rows} {next : List (Str × Nat) → SqlProgram}
    {result : List (Str × Nat)} {t' : Transaction} (h : Phase load committed overtaken t)
    (hprogram : t.program = .execute (.insert rows) next)
    (hprogram' : t'.program = next result) (hdeleted' : t'.deleted = t.deleted) :
    Phase load committed overtaken t' := by
  cases h with
  | raise hp => exact nomatch hp.symm.trans hprogram
  | binRecordSources hp _ =>
    exact absurd (Program.execute.inj (hp.symm.trans hprogram)).1 Sql.noConfusion
  | binRecords hp _ _ =>
    exact absurd (Program.execute.inj (hp.symm.trans hprogram)).1 Sql.noConfusion
  | dataSources hp _ _ =>
    exact absurd (Program.execute.inj (hp.symm.trans hprogram)).1 Sql.noConfusion
  | load hp hcovers =>
    rw [hprogram] at hp
    exact .load (hprogram' ▸ hp.2 result) (hdeleted' ▸ hcovers)

theorem Phase.covers_of_commit (h : Phase load committed overtaken t)
    (hprogram : t.program = .commit) :
    overtaken ∨ ∀ table, Covers t.deleted committed table := by
  cases h with
  | raise hp => exact nomatch hp.symm.trans hprogram
  | binRecordSources hp _ => exact nomatch hp.symm.trans hprogram
  | binRecords hp _ _ => exact nomatch hp.symm.trans hprogram
  | dataSources hp _ _ => exact nomatch hp.symm.trans hprogram
  | load _ hcovers => exact hcovers

/-- Where every committed row is deleted, a transaction commits its own rows. -/
theorem view_of_covers (h : ∀ table, Covers t.deleted committed table) :
    t.view committed = t.inserted := by
  have hsources : (leave t.deleted committed).dataSources = [] :=
    List.filter_eq_nil_iff.mpr fun d hd => by
      simpa using h .dataSources d.id (List.mem_map_of_mem hd)
  have hrecords : (leave t.deleted committed).binRecords = [] :=
    List.filter_eq_nil_iff.mpr fun r hr => by
      simpa using h .binRecords r.id (List.mem_map_of_mem hr)
  have hprovenance : (leave t.deleted committed).binRecordSources = [] :=
    List.filter_eq_nil_iff.mpr fun p hp => by
      simpa using h .binRecordSources p.id (List.mem_map_of_mem hp)
  simp only [Transaction.view, append, hsources, hrecords, hprovenance, List.nil_append]

end Phase

end CardBinData.ReadCommitted
