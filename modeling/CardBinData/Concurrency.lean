import CardBinData.ImportPhases
import CardBinData.TableInvariant
import Mathlib.Data.List.Induction
import Mathlib.Data.List.Infix

/-!
# Two imports at once

The store takes no lock (`docs/performance.md`, Concurrency), so the statements of two imports may
interleave in any order. What keeps them apart is the deletes at their start: where there is a row
of `bin_record_sources` to delete, the second import waits at its first statement for the end of the
first one. In empty tables nothing is there to wait for, and both imports may commit their rows.

* `concurrent_imports`: at every moment of a run the committed tables hold the dataset of one of
  the imports that have committed, alone (or what they held before, when neither has), if there were
  records before, or not both imports have committed, or the deletes of `bin_records` were never
  both begun while both imports were open.
* `overlapping_imports`: from empty tables, two imports may leave two rows for one `iin_start`.

The invariant (`Inv`) goes through the deletes (`Phase`): once the deletes of a transaction are
done, every committed row is one it has deleted, unless the other import has committed behind its
back (`overtaken`), for which both must have been open with their deletes of `bin_records` begun
(`State.Overlap`).
-/

namespace CardBinData.ReadCommitted

open Library (Program)

/-! ## Overlap -/

/-- Both imports are open, and have begun their deletes of `bin_records`. -/
def State.Overlap (s : State) : Prop :=
  ∀ i, (s.transactions i).status.Open ∧ (s.transactions i).DeletesRecords

instance (s : State) : Decidable s.Overlap :=
  decidable_of_iff
    (((s.transactions .first).status.Open ∧ (s.transactions .first).DeletesRecords) ∧
      (s.transactions .second).status.Open ∧ (s.transactions .second).DeletesRecords)
    ⟨fun h i => match i with
      | .first => h.1
      | .second => h.2, fun h => ⟨h .first, h .second⟩⟩

/-- No state of the run is an overlap. -/
def State.Apart (backend : Backend) (s : State) (actions : List Action) : Prop :=
  ∀ before, before <+: actions → ∀ s' ∈ s.run backend before, ¬ s'.Overlap

instance (backend : Backend) (s : State) (actions : List Action) :
    Decidable (s.Apart backend actions) :=
  decidable_of_iff (∀ before ∈ actions.inits, ∀ s' ∈ s.run backend before, ¬ s'.Overlap)
    (forall_congr' fun _ => imp_congr (List.mem_inits _ _) Iff.rfl)

/-- What two imports are to leave of the tables `db`: the dataset of one that has committed, or
`db`, when neither has. -/
def State.Replaced (imports : Session → Import) (db : Database) (s : State) : Prop :=
  (s.committed = db ∧ ∀ i, (s.transactions i).status ≠ .committed) ∨
  ∃ i, (s.transactions i).status = .committed ∧ s.committed.Represents (imports i).dataset

/-! ## The invariant -/

/-- The other import has committed, after an overlap. -/
def State.Overtaken (overlapped : Prop) (s : State) (i : Session) : Prop :=
  overlapped ∧ (s.transactions i.other).status = .committed

/-- The invariant of two imports over the tables `db`; `overlapped` says that there has been an
overlap. -/
structure Inv (imports : Session → Import) (db : Database) (overlapped : Prop) (s : State) :
    Prop where
  ensures : ∀ i, (s.transactions i).status.Open →
    Ensures (fun own => own.Represents (imports i).dataset) (s.transactions i).program
      (s.transactions i).inserted
  phase : ∀ i, (s.transactions i).status.Open →
    Phase (imports i).load s.committed (s.Overtaken overlapped i) (s.transactions i)
  committed : s.Replaced imports db ∨
    overlapped ∧ ∀ i, (s.transactions i).status = .committed

section Inv

variable {imports : Session → Import} {db : Database} {overlapped : Prop} {s : State}
  {i : Session}

theorem inv_initial (imports : Session → Import) (db : Database) (overlapped : Prop) :
    Inv imports db overlapped (State.initial db fun i => (imports i).program) where
  ensures i _ := ensures_program (imports i)
  phase i _ := by
    change Phase _ db _ { program := (imports i).program }
    unfold Import.program
    split
    · exact .binRecordSources rfl rfl
    · exact .raise rfl
  committed := .inl (.inl ⟨rfl, fun _ => Status.noConfusion⟩)

theorem Inv.mono {overlapped' : Prop} (h : Inv imports db overlapped s)
    (hmono : overlapped → overlapped') : Inv imports db overlapped' s where
  ensures := h.ensures
  phase i hopen := (h.phase i hopen).mono fun hover => ⟨hmono hover.1, hover.2⟩
  committed := h.committed.imp_right fun hboth => ⟨hmono hboth.1, hboth.2⟩

/-- What is to be left is settled by the committed tables and by who has committed. -/
theorem State.Replaced.congr {s' : State} (h : s.Replaced imports db)
    (hcommitted : s'.committed = s.committed)
    (hstatus : ∀ i, (s'.transactions i).status = .committed ↔
      (s.transactions i).status = .committed) : s'.Replaced imports db := by
  rcases h with ⟨hdb, hnone⟩ | ⟨i, hi, hrepresents⟩
  · exact .inl ⟨hcommitted.trans hdb, fun i h => hnone i ((hstatus i).mp h)⟩
  · exact .inr ⟨i, (hstatus i).mpr hi, hcommitted ▸ hrepresents⟩

/-- A step of an open transaction that commits nothing keeps what is said of the other one. -/
theorem Inv.put (h : Inv imports db overlapped s) (hopen : (s.transactions i).status.Open)
    {t : Transaction} (ht : t.status ≠ .committed)
    (hensures : t.status.Open →
      Ensures (fun own => own.Represents (imports i).dataset) t.program t.inserted)
    (hphase : t.status.Open → Phase (imports i).load s.committed (s.Overtaken overlapped i) t) :
    Inv imports db overlapped (s.put i t) := by
  have hstatus : ∀ j, ((s.put i t).transactions j).status = .committed ↔
      (s.transactions j).status = .committed := by
    intro j
    by_cases hj : j = i
    · subst hj
      rw [put_same]
      exact iff_of_false ht (ne_committed_of_open hopen)
    · rw [put_other s hj]
  have hover : ∀ j, s.Overtaken overlapped j → (s.put i t).Overtaken overlapped j :=
    fun j hj => ⟨hj.1, (hstatus _).mpr hj.2⟩
  constructor
  · intro j hj
    by_cases hji : j = i
    · subst hji
      rw [put_same] at hj ⊢
      exact hensures hj
    · rw [put_other s hji] at hj ⊢
      exact h.ensures j hj
  · intro j hj
    by_cases hji : j = i
    · subst hji
      rw [put_same] at hj ⊢
      exact (hphase hj).mono (hover j)
    · rw [put_other s hji] at hj ⊢
      exact (h.phase j hj).mono (hover j)
  · have hreplaced : s.Replaced imports db → (s.put i t).Replaced imports db :=
      fun hreplaced => hreplaced.congr rfl hstatus
    exact h.committed.imp hreplaced
      fun hboth => ⟨hboth.1, fun j => (hstatus j).mpr (hboth.2 j)⟩

/-- **A commit keeps the invariant**, and overtakes the other import where they overlap. -/
theorem Inv.commit (h : Inv imports db overlapped s) (hopen : (s.transactions i).status.Open)
    (hprogram : (s.transactions i).program = .commit) :
    Inv imports db (overlapped ∨ s.Overlap)
      (s.finish i .committed ((s.transactions i).view s.committed)) := by
  let s' := s.finish i .committed ((s.transactions i).view s.committed)
  have hsame : (s'.transactions i) = (s.transactions i).ended .committed := put_same _ _ _
  have hother : ∀ j, j ≠ i → s'.transactions j = s.transactions j := fun j hj => put_other s hj _
  have hclosed : ∀ j, (s'.transactions j).status.Open → j ≠ i := by
    rintro j hj rfl
    rw [hsame] at hj
    exact hj
  refine ⟨fun j hj => ?_, fun j hj => ?_, ?_⟩
  · have hji := hclosed j hj
    rw [hother j hji] at hj ⊢
    exact h.ensures j hj
  · -- the other import is overtaken, if it has begun to delete records
    have hji := hclosed j hj
    rw [hother j hji] at hj ⊢
    refine (h.phase j hj).overtake fun hbegun => ⟨.inr fun k => ?_, ?_⟩
    · by_cases hk : k = i
      · subst hk
        exact ⟨hopen, deletesRecords_of_commit hprogram⟩
      · have hkj : k = j := (eq_other_of_ne hk).trans (eq_other_of_ne hji).symm
        exact hkj ▸ ⟨hj, hbegun⟩
    · rw [eq_other_of_ne hji, other_other]
      exact congrArg Transaction.status hsame
  · rcases (h.phase i hopen).covers_of_commit hprogram with ⟨hover, hcommitted⟩ | hcovers
    · refine .inr ⟨.inl hover, fun j => ?_⟩
      by_cases hj : j = i
      · subst hj
        exact congrArg Transaction.status hsame
      · change (s'.transactions j).status = .committed
        rw [hother j hj, eq_other_of_ne hj]
        exact hcommitted
    · refine .inl (.inr ⟨i, congrArg Transaction.status hsame, ?_⟩)
      have hrepresents := h.ensures i hopen
      rw [hprogram] at hrepresents
      change ((s.transactions i).view s.committed).Represents _
      rw [view_of_covers hcovers]
      exact hrepresents

/-- Provenance rows refer to records, as long as an import is open. -/
theorem Inv.integrity (hdb : TableInvariant db) (h : Inv imports db overlapped s)
    (hopen : (s.transactions i).status.Open) :
    ∀ p ∈ s.committed.binRecordSources, ∃ r ∈ s.committed.binRecords, r.id = p.binRecordId := by
  rcases h.committed with (⟨hcommitted, -⟩ | ⟨j, -, hrepresents⟩) | ⟨-, hboth⟩
  · rw [hcommitted]
    exact hdb.record_exists
  · exact (tableInvariant_of_represents hrepresents).record_exists
  · exact absurd (hboth i) (ne_committed_of_open hopen)

/-- **A step keeps the invariant.** -/
theorem Inv.move {s' : State} (hdb : TableInvariant db) (h : Inv imports db overlapped s)
    (hopen : (s.transactions i).status.Open) (hmove : Move s i s') :
    Inv imports db (overlapped ∨ s.Overlap) s' := by
  have hensures := h.ensures i hopen
  have hphase := h.phase i hopen
  have hput : ∀ t : Transaction, t.status ≠ .committed →
      (t.status.Open →
        Ensures (fun own => own.Represents (imports i).dataset) t.program t.inserted) →
      (t.status.Open → Phase (imports i).load s.committed (s.Overtaken overlapped i) t) →
      Inv imports db (overlapped ∨ s.Overlap) (s.put i t) :=
    fun _ ht he hp => (h.put hopen ht he hp).mono Or.inl
  cases hmove with
  | rollBack =>
    exact hput _ Status.noConfusion (fun hended => absurd hended id)
      fun hended => absurd hended id
  | commit hprogram => exact h.commit hopen hprogram
  | wait hprogram =>
    exact hput _ Status.noConfusion (fun _ => hensures) fun _ => hphase.wait hprogram
  | delete hprogram hfound _ =>
    rw [hprogram] at hensures
    exact hput _ Status.noConfusion (fun _ => hensures [] _ ⟨_, rfl⟩) fun _ =>
      hphase.delete (inserts_load (imports i)) (h.integrity hdb hopen) hprogram hfound rfl rfl
        fun _ => rfl
  | insert hprogram heffect =>
    rw [hprogram] at hensures
    exact hput _ Status.noConfusion (fun _ => hensures _ _ heffect) fun _ =>
      hphase.insert hprogram rfl rfl

end Inv

/-! ## Tables with records -/

/-- The transaction has not deleted anything yet. -/
def AtStart (db : Database) (t : Transaction) : Prop :=
  t.program = .raise ∨
  (∃ next, t.program = .execute (.delete .binRecordSources) next) ∧ (t.deleted = fun _ => []) ∧
    ∀ found, t.status = .waiting found → ∀ n ∈ ids db .binRecordSources, n ∈ found

/-- While both imports are open, each has deleted nothing, or every provenance row while the other
one has deleted nothing. -/
def Exclusive (db : Database) (s : State) : Prop :=
  (∀ i, (s.transactions i).status.Open) → s.committed = db ∧
    ∀ i, AtStart db (s.transactions i) ∨
      Covers (s.transactions i).deleted db .binRecordSources ∧
        AtStart db (s.transactions i.other)

section Exclusive

variable {imports : Session → Import} {db : Database} {s : State} {i : Session}
  {t : Transaction}

theorem exclusive_initial (imports : Session → Import) (db : Database) :
    Exclusive db (State.initial db fun i => (imports i).program) := by
  refine fun _ => ⟨rfl, fun i => .inl ?_⟩
  change AtStart db { program := (imports i).program }
  unfold Import.program
  split
  · exact .inr ⟨⟨_, rfl⟩, rfl, fun _ => nofun⟩
  · exact .inl rfl

theorem not_deletesRecords_of_atStart (h : AtStart db t) : ¬ t.DeletesRecords := by
  unfold Transaction.DeletesRecords
  rcases h with h | ⟨⟨next, h⟩, -⟩
  · rw [h]
    exact id
  · rw [h]
    exact id

theorem Exclusive.not_overlap (h : Exclusive db s) : ¬ s.Overlap := by
  intro hoverlap
  obtain ⟨-, hsessions⟩ := h fun i => (hoverlap i).1
  rcases hsessions .first with hstart | ⟨-, hstart⟩
  · exact not_deletesRecords_of_atStart hstart (hoverlap .first).2
  · exact not_deletesRecords_of_atStart hstart (hoverlap .second).2

theorem Exclusive.put (hdb : s.committed = db)
    (hi : AtStart db t ∨
      Covers t.deleted db .binRecordSources ∧ AtStart db (s.transactions i.other))
    (hother : AtStart db (s.transactions i.other) ∨
      Covers (s.transactions i.other).deleted db .binRecordSources ∧ AtStart db t) :
    Exclusive db (s.put i t) := by
  refine fun _ => ⟨hdb, fun j => ?_⟩
  by_cases hj : j = i
  · subst hj
    rw [put_same, put_other s (other_ne j)]
    exact hi
  · rw [eq_other_of_ne hj, other_other, put_same, put_other s (other_ne i)]
    exact hother

/-- A transaction that has deleted nothing can only delete provenance rows. -/
theorem AtStart.table (h : AtStart db t) {statement : Sql}
    {next : List (Str × Nat) → SqlProgram} (hprogram : t.program = .execute statement next) :
    statement = .delete .binRecordSources ∧ (t.deleted = fun _ => []) ∧
      ∀ found, t.status = .waiting found → ∀ n ∈ ids db .binRecordSources, n ∈ found := by
  rcases h with h | ⟨⟨next', h⟩, hdeleted, hwaiting⟩
  · exact nomatch h.symm.trans hprogram
  · exact ⟨(Program.execute.inj (hprogram.symm.trans h)).1, hdeleted, hwaiting⟩

/-- The first statement sees every provenance row. -/
theorem AtStart.finds (h : AtStart db t) {table : Table}
    {next : List (Str × Nat) → SqlProgram} (hprogram : t.program = .execute (.delete table) next)
    {found : List Nat}
    (hfound : found = ids (t.view db) table ∨ t.status = .waiting found) :
    table = .binRecordSources ∧ ∀ n ∈ ids db .binRecordSources, n ∈ found := by
  obtain ⟨hstatement, hdeleted, hwaiting⟩ := h.table hprogram
  cases hstatement
  refine ⟨rfl, ?_⟩
  rcases hfound with rfl | hstatus
  · intro n hn
    refine (finds_view t db .binRecordSources n hn).resolve_left ?_
    rw [hdeleted]
    exact List.not_mem_nil
  · exact hwaiting found hstatus

theorem AtStart.wait {table : Table} {next : List (Str × Nat) → SqlProgram}
    (hprogram : t.program = .execute (.delete table) next) (h : AtStart db t) :
    AtStart db { t with status := .waiting (ids (t.view db) table) } := by
  obtain ⟨rfl, hfinds⟩ := h.finds hprogram (.inl rfl)
  exact .inr ⟨⟨_, hprogram⟩, (h.table hprogram).2.1, fun found hfound =>
    Status.waiting.inj hfound ▸ hfinds⟩

/-- **Where there are provenance rows, one import waits for the other at its first statement.** -/
theorem Exclusive.move {s' : State} (hrow : db.binRecordSources ≠ []) (h : Exclusive db s)
    (hopen : (s.transactions i).status.Open) (hmove : Move s i s') : Exclusive db s' := by
  intro hopen'
  have hall : ∀ {t : Transaction}, (∀ j, ((s.put i t).transactions j).status.Open) →
      ∀ j, (s.transactions j).status.Open := by
    intro t ht j
    by_cases hj : j = i
    · exact hj ▸ hopen
    · rw [← put_other s hj t]
      exact ht j
  cases hmove with
  | rollBack =>
    have hended := hopen' i
    rw [put_same] at hended
    exact absurd hended id
  | commit hprogram =>
    have hended : ((s.put i ((s.transactions i).ended .committed)).transactions i).status.Open :=
      hopen' i
    rw [put_same] at hended
    exact absurd hended id
  | wait hprogram =>
    obtain ⟨rfl, hsessions⟩ := h (hall hopen')
    have hother := hsessions i.other
    rw [other_other] at hother
    exact Exclusive.put rfl ((hsessions i).imp_left (AtStart.wait hprogram))
      (hother.imp_right fun hcovers => ⟨hcovers.1, hcovers.2.wait hprogram⟩) hopen'
  | delete hprogram hfound hapart =>
    obtain ⟨rfl, hsessions⟩ := h (hall hopen')
    -- it has waited, unless the other import has deleted nothing
    have hother : AtStart s.committed (s.transactions i.other) := by
      rcases hsessions i with hstart | ⟨-, hother⟩
      · obtain ⟨rfl, hfinds⟩ := hstart.finds hprogram hfound
        refine (hsessions i.other).resolve_right fun hcovers => hapart (.inr (.inr ?_))
        obtain ⟨p, hp⟩ := List.exists_mem_of_ne_nil _ hrow
        have hid : p.id ∈ ids s.committed .binRecordSources := List.mem_map_of_mem hp
        exact ⟨p.id, hfinds p.id hid, hcovers.1 p.id hid⟩
      · exact hother
    refine Exclusive.put rfl (.inr ⟨fun n hn => ?_, hother⟩) (.inl hother) hopen'
    rcases hsessions i with hstart | ⟨hcovers, -⟩
    · obtain ⟨rfl, hfinds⟩ := hstart.finds hprogram hfound
      exact List.mem_append_right _ (hfinds n hn)
    · exact List.mem_append_left _ (hcovers n hn)
  | insert hprogram heffect =>
    obtain ⟨rfl, hsessions⟩ := h (hall hopen')
    have hnot : ¬ AtStart s.committed (s.transactions i) := fun hstart =>
      nomatch (hstart.table hprogram).1
    obtain ⟨hcovers, hother⟩ := (hsessions i).resolve_left hnot
    exact Exclusive.put rfl (.inr ⟨hcovers, hother⟩) (.inl hother) hopen'

end Exclusive

/-! ## Two imports of one record -/

/-- An import of one record from a source of its own. -/
def importOf (sourceId : String) : Import where
  adapters :=
    let source : SourceMetadata :=
      ⟨sourceId.toList, sourceId.toList, "https://example.org".toList, none, none⟩
    [⟨source, [{ source := source, rowKey := "1".toList, iinStart := "457173".toList }]⟩]
  importedAt := 0

/-- Two imports of one `iin_start` from different sources. -/
def twoImports : Session → Import
  | .first => importOf "first"
  | .second => importOf "second"

/-- An import before the two. -/
def importBefore : ImportCall := ⟨Environment.quiet, (importOf "before").adapters, true⟩

/-- Both delete, and then each inserts and commits. -/
def overlapping : List Action :=
  [.advance .first, .advance .second, .advance .first, .advance .second, .advance .first,
    .advance .second] ++ List.replicate 4 (.advance .first) ++
    List.replicate 4 (.advance .second)

/-- The first delete of the second import comes after that of the first one, and waits for it to
commit. -/
def secondWaits : List Action :=
  [.advance .first, .advance .second] ++ List.replicate 6 (.advance .first) ++
    List.replicate 7 (.advance .second)

/-! ## Runs -/

section Run

variable {backend : Backend} {imports : Session → Import} {db : Database} {s s' : State}

/-- What holds at the start and is kept by every step holds after every run. -/
theorem run_induction {P : List Action → State → Prop} (hstart : P [] s)
    (hstep : ∀ actions s₁ s₂ action, s.run backend actions = some s₁ → P actions s₁ →
      s₁.step backend action = some s₂ → P (actions ++ [action]) s₂)
    {actions : List Action} (h : s.run backend actions = some s') : P actions s' := by
  induction actions using List.reverseRecOn generalizing s' with
  | nil => exact Option.some.inj h ▸ hstart
  | append_singleton actions action ih =>
    rw [State.run, List.foldlM_append] at h
    obtain ⟨s₁, hrun, hlast⟩ := Option.bind_eq_some_iff.mp h
    rw [List.foldlM_cons] at hlast
    obtain ⟨s₂, hstep', hnil⟩ := Option.bind_eq_some_iff.mp hlast
    exact Option.some.inj hnil ▸ hstep actions s₁ s₂ action hrun (ih hrun) hstep'

/-- The invariant of the run so far. -/
theorem inv_run (hdb : TableInvariant db) {actions : List Action}
    (h : (State.initial db fun i => (imports i).program).run backend actions = some s') :
    Inv imports db (¬ (State.initial db fun i => (imports i).program).Apart backend actions)
      s' := by
  let s := State.initial db fun i => (imports i).program
  refine run_induction (P := fun actions s' => Inv imports db (¬ s.Apart backend actions) s')
    (inv_initial imports db _) (fun actions s₁ s₂ action hrun hinv hstep => ?_) h
  obtain ⟨i, hopen, hmove⟩ := move_of_step hstep
  refine (hinv.move hdb hopen hmove).mono ?_
  rintro (hoverlapped | hoverlap) hapart
  · exact hoverlapped fun before hbefore =>
      hapart before (hbefore.trans (List.prefix_append actions [action]))
  · exact hapart actions (List.prefix_append actions [action]) s₁ hrun hoverlap

/-- Where there are provenance rows, the imports stay apart. -/
theorem apart_of_binRecordSources (hrow : db.binRecordSources ≠ []) (actions : List Action) :
    (State.initial db fun i => (imports i).program).Apart backend actions := by
  intro before _ s' hs'
  have hexclusive : Exclusive db s' :=
    run_induction (P := fun _ s' => Exclusive db s') (exclusive_initial imports db)
      (fun _ _ _ _ _ hinv hstep => by
        obtain ⟨i, hopen, hmove⟩ := move_of_step hstep
        exact hinv.move hrow hopen hmove) hs'
  exact hexclusive.not_overlap

/-- The tables after a history of imports. -/
def committedBy (calls : List ImportCall) (w : World) : Database :=
  (runImports calls { w with committed := Database.empty }).committed

/-- **Two imports leave the dataset of one**: from the tables of any history of imports, in any
interleaving and at any moment of it, if there were records before, or not both imports have
committed, or their deletes of `bin_records` were never both begun while both were open. -/
theorem concurrent_imports (backend : Backend) (calls : List ImportCall) (w : World)
    (imports : Session → Import) (actions : List Action) (s : State)
    (hrun : (State.initial (committedBy calls w) fun i => (imports i).program).run backend actions =
      some s)
    (happly : (committedBy calls w).binRecords ≠ [] ∨
      (∃ i, (s.transactions i).status ≠ .committed) ∨
      (State.initial (committedBy calls w) fun i => (imports i).program).Apart backend actions) :
    s.Replaced imports (committedBy calls w) ∧ (s.committed.binRecords.map (·.iinStart)).Nodup := by
  have hdb : TableInvariant (committedBy calls w) := tableInvariant_runImports calls w
  have hinv := inv_run hdb hrun
  have hreplaced : s.Replaced imports (committedBy calls w) := by
    refine hinv.committed.resolve_right ?_
    rintro ⟨hoverlapped, hboth⟩
    rcases happly with hrecords | ⟨i, hi⟩ | hapart
    · obtain ⟨r, hr⟩ := List.exists_mem_of_ne_nil _ hrecords
      obtain ⟨p, hp, -⟩ := hdb.record_referenced r hr
      exact hoverlapped (apart_of_binRecordSources (List.ne_nil_of_mem hp) actions)
    · exact hi (hboth i)
    · exact hoverlapped hapart
  refine ⟨hreplaced, ?_⟩
  rcases hreplaced with ⟨hcommitted, -⟩ | ⟨i, -, hrepresents⟩
  · rw [hcommitted]
    exact hdb.iinStart_unique
  · exact nodup_iinStart hrepresents

theorem concurrent_imports_secondWaits :
    ((State.initial (committedBy [importBefore] {}) fun i => (twoImports i).program).run
        Backend.sequential (secondWaits.take 2)).map (fun s => (s.transactions .second).status) =
      some (.waiting [1]) ∧
    ∃ s, (State.initial (committedBy [importBefore] {}) fun i => (twoImports i).program).run
        Backend.sequential secondWaits = some s ∧
      s.Replaced twoImports (committedBy [importBefore] {}) ∧
      (s.committed.binRecords.map (·.iinStart)).Nodup := by
  have hruns : ((State.initial (committedBy [importBefore] {}) fun i =>
      (twoImports i).program).run Backend.sequential secondWaits).isSome = true := by
    decide +kernel
  obtain ⟨s, hrun⟩ := Option.isSome_iff_exists.mp hruns
  have hrecords : (committedBy [importBefore] {}).binRecords ≠ [] := by decide +kernel
  exact ⟨by decide +kernel, s, hrun, concurrent_imports Backend.sequential [importBefore] {}
    twoImports secondWaits s hrun (.inl hrecords)⟩

/-- **From empty tables, overlapping imports leave the rows of both.** -/
theorem overlapping_imports :
    ¬ ∀ (backend : Backend) (calls : List ImportCall) (w : World) (imports : Session → Import)
      (actions : List Action) (s : State),
      (State.initial (committedBy calls w) fun i => (imports i).program).run backend actions =
        some s → s.Ended →
      s.Replaced imports (committedBy calls w) ∧
        (s.committed.binRecords.map (·.iinStart)).Nodup := by
  intro h
  have hresult : ((State.initial (committedBy [] {}) fun i => (twoImports i).program).run
      Backend.sequential overlapping).map (fun s => ((s.transactions .first).status,
        (s.transactions .second).status, s.committed.binRecords.map (·.iinStart))) =
      some (.committed, .committed, ["457173".toList, "457173".toList]) := by decide +kernel
  obtain ⟨s, hrun, hs⟩ := Option.map_eq_some_iff.mp hresult
  obtain ⟨hfirst, hs⟩ := Prod.mk.inj hs
  obtain ⟨hsecond, hstarts⟩ := Prod.mk.inj hs
  have hended : s.Ended := fun i => by
    cases i with
    | first => rw [hfirst]; exact id
    | second => rw [hsecond]; exact id
  have hnodup := (h Backend.sequential [] {} twoImports overlapping s hrun hended).2
  rw [hstarts] at hnodup
  exact absurd hnodup (by decide)

end Run

end CardBinData.ReadCommitted
