import CardBinData.Environment
import CardBinData.Library.Statements

/-!
# Two transactions on the tables

Two sessions execute statements on the tables, interleaved in any order (`State.step`). As
PostgreSQL does at its default isolation level, a statement sees the rows committed before it starts
and what its own transaction has written (`Transaction.view`); a `DELETE` that finds a row deleted
by the other open transaction waits for that transaction to end, and then deletes what is left of
the rows it had found; an `INSERT` raises on a duplicate of a unique key, and waits while only the
other transaction's end can tell. Deletes cascade to `bin_record_sources`. A transaction may be
rolled back at any moment.

Ids are never shared by two rows that exist at one time. They are as the engine (`Backend`) chooses
them.
-/

namespace CardBinData.ReadCommitted

open Library (Program)

/-! ## Statements -/

inductive Table where
  | dataSources
  | binRecords
  | binRecordSources
  deriving DecidableEq, Repr

/-- The rows of an `INSERT`. -/
inductive Rows where
  | dataSources (rows : List DataSourceValues)
  | binRecords (rows : List BinRecordValues)
  | binRecordSources (rows : List BinRecordSourceValues)

inductive Sql where
  | delete (table : Table)
  | insert (rows : Rows)

/-- The result of a statement is what it returns: pairs of a key and an id. -/
abbrev SqlProgram := Program Sql (List (Str × Nat))

/-! ## Tables -/

/-- The rows of both. -/
def append (db db' : Database) : Database where
  dataSources := db.dataSources ++ db'.dataSources
  binRecords := db.binRecords ++ db'.binRecords
  binRecordSources := db.binRecordSources ++ db'.binRecordSources

/-- The ids of a table. -/
def ids (db : Database) : Table → List Nat
  | .dataSources => db.dataSources.map (·.id)
  | .binRecords => db.binRecords.map (·.id)
  | .binRecordSources => db.binRecordSources.map (·.id)

/-- Rows that are deleted, by table and id. -/
abbrev Deleted := Table → List Nat

/-- The rows that are not deleted. -/
def leave (deleted : Deleted) (db : Database) : Database where
  dataSources := db.dataSources.filter (·.id ∉ deleted .dataSources)
  binRecords := db.binRecords.filter (·.id ∉ deleted .binRecords)
  binRecordSources := db.binRecordSources.filter (·.id ∉ deleted .binRecordSources)

/-- The rows of `table` with the ids `found`, and those that `ON DELETE CASCADE` removes with
them. -/
def cascade (view : Database) (table : Table) (found : List Nat) : Deleted
  | .dataSources => if table = .dataSources then found else []
  | .binRecords => if table = .binRecords then found else []
  | .binRecordSources =>
    match table with
    | .dataSources =>
      (view.binRecordSources.filter (·.dataSourceId ∈ found)).map (·.id)
    | .binRecords =>
      (view.binRecordSources.filter (·.binRecordId ∈ found)).map (·.id)
    | .binRecordSources => found

/-- A row is deleted by both. -/
def Meet (deleted deleted' : Deleted) : Prop :=
  (∃ i ∈ deleted .dataSources, i ∈ deleted' .dataSources) ∨
  (∃ i ∈ deleted .binRecords, i ∈ deleted' .binRecords) ∨
  ∃ i ∈ deleted .binRecordSources, i ∈ deleted' .binRecordSources

instance (deleted deleted' : Deleted) : Decidable (Meet deleted deleted') :=
  inferInstanceAs (Decidable (_ ∨ _ ∨ _))

/-- The unique constraints. -/
def Unique (db : Database) : Prop :=
  UqDataSourcesSourceId db.dataSources ∧ UqBinRecordSources db.binRecordSources

instance (db : Database) : Decidable (Unique db) := inferInstanceAs (Decidable (_ ∧ _))

/-- A row of one and a row of the other have one unique key. -/
def Clash (db db' : Database) : Prop :=
  (∃ d ∈ db.dataSources, ∃ d' ∈ db'.dataSources, d.sourceId = d'.sourceId) ∨
  ∃ s ∈ db.binRecordSources, ∃ s' ∈ db'.binRecordSources, s.uniqueKey = s'.uniqueKey

instance (db db' : Database) : Decidable (Clash db db') := inferInstanceAs (Decidable (_ ∨ _))

/-- The rows an `INSERT` makes at a moment of the run, given the rows there are, and what its
`RETURNING` gives. Provenance rows are inserted without one. -/
def inserted (backend : Backend) (clock : Nat) (used : Database) :
    Rows → Database × List (Str × Nat)
  | .dataSources rows =>
    let new := backend.newIds clock (ids used .dataSources) rows.length
    ({ dataSources := newRows DataSourceModel.mk rows new },
      backend.returned clock ((rows.map (·.sourceId)).zip new))
  | .binRecords rows =>
    let new := backend.newIds clock (ids used .binRecords) rows.length
    ({ binRecords := newRows BinRecordModel.mk rows new },
      backend.returned clock ((rows.map (·.iinStart)).zip new))
  | .binRecordSources rows =>
    let new := backend.newIds clock (ids used .binRecordSources) rows.length
    ({ binRecordSources := newRows BinRecordSourceModel.mk rows new }, [])

/-! ## Transactions -/

inductive Status where
  | running
  /-- In a `DELETE` that has found these rows and waits for the other transaction. -/
  | waiting (found : List Nat)
  | committed
  | rolledBack
  deriving DecidableEq, Repr

/-- The transaction has not ended. -/
def Status.Open : Status → Prop
  | running => True
  | waiting _ => True
  | committed => False
  | rolledBack => False

instance (status : Status) : Decidable status.Open := by
  cases status <;> unfold Status.Open <;> infer_instance

/-- What a `DELETE` deletes: the rows it has found and waits for, or those it finds now. -/
def Status.found (status : Status) (visible : List Nat) : List Nat :=
  match status with
  | waiting found => found
  | _ => visible

def Status.isWaiting : Status → Bool
  | waiting _ => true
  | _ => false

theorem Status.found_eq (status : Status) (visible : List Nat) :
    status.found visible = visible ∨ status = .waiting (status.found visible) := by
  cases status with
  | waiting found => exact .inr rfl
  | running => exact .inl rfl
  | committed => exact .inl rfl
  | rolledBack => exact .inl rfl

theorem Status.found_of_not_isWaiting {status : Status} (h : ¬ status.isWaiting = true)
    (visible : List Nat) : status.found visible = visible :=
  (status.found_eq visible).resolve_right fun heq => h (by rw [heq]; rfl)

structure Transaction where
  /-- What is left to execute, from the current statement on. -/
  program : SqlProgram
  status : Status := .running
  /-- Its rows that are not committed. -/
  inserted : Database := Database.empty
  /-- The committed rows it has deleted. -/
  deleted : Deleted := fun _ => []

/-- The tables as a statement of the transaction sees them. -/
def Transaction.view (t : Transaction) (committed : Database) : Database :=
  append (leave t.deleted committed) t.inserted

/-- The transaction without its writes. -/
def Transaction.ended (t : Transaction) (status : Status) : Transaction where
  program := t.program
  status := status

/-- The transaction after a statement that returned `result`. -/
def Transaction.resumed (t : Transaction) (next : List (Str × Nat) → SqlProgram)
    (result : List (Str × Nat)) : Transaction :=
  { t with program := next result, status := .running }

/-! ## Two sessions -/

inductive Session where
  | first
  | second
  deriving DecidableEq, Repr

def Session.other : Session → Session
  | first => second
  | second => first

structure State where
  /-- Steps so far. -/
  clock : Nat := 0
  committed : Database
  transactions : Session → Transaction

namespace State

/-- Two transactions that begin. -/
def initial (committed : Database) (programs : Session → SqlProgram) : State where
  committed := committed
  transactions i := { program := programs i }

/-- The state with another transaction in session `i`. -/
def put (s : State) (i : Session) (t : Transaction) : State :=
  { s with clock := s.clock + 1, transactions := fun j => if j = i then t else s.transactions j }

/-- The state in which session `i` has committed `committed`, or has been rolled back. -/
def finish (s : State) (i : Session) (status : Status) (committed : Database) : State :=
  { s.put i ((s.transactions i).ended status) with committed := committed }

/-- The rows that exist, committed or not. -/
def used (s : State) : Database :=
  append s.committed
    (append (s.transactions .first).inserted (s.transactions .second).inserted)

/-- A `DELETE` of session `i`. A waiting one goes on with the rows it has found. -/
def delete (s : State) (i : Session) (table : Table) (next : List (Str × Nat) → SqlProgram) :
    Option State :=
  let t := s.transactions i
  let found := t.status.found (ids (t.view s.committed) table)
  let gone := cascade (t.view s.committed) table found
  if Meet gone (s.transactions i.other).deleted then
    if t.status.isWaiting then none else some (s.put i { t with status := .waiting found })
  else
    some (s.put i { t.resumed next [] with
      inserted := leave gone t.inserted
      deleted := fun table => t.deleted table ++ gone table })

/-- An `INSERT` of session `i`. -/
def insert (backend : Backend) (s : State) (i : Session) (rows : Rows)
    (next : List (Str × Nat) → SqlProgram) : Option State :=
  let t := s.transactions i
  let rival := s.transactions i.other
  let (new, result) := ReadCommitted.inserted backend s.clock s.used rows
  let visible := leave t.deleted s.committed
  -- the rows that exist however the other transaction ends
  let settled := append (leave rival.deleted visible) t.inserted
  if ¬ Unique (append settled new) then some (s.finish i .rolledBack s.committed)
  else if Clash (append visible rival.inserted) new then none
  else some (s.put i { t.resumed next result with inserted := append t.inserted new })

/-- The next step of session `i`, if it has one now. -/
def advance (backend : Backend) (s : State) (i : Session) : Option State :=
  match (s.transactions i).program with
  | .commit => some (s.finish i .committed ((s.transactions i).view s.committed))
  | .raise => some (s.finish i .rolledBack s.committed)
  | .execute (.delete table) next => s.delete i table next
  | .execute (.insert rows) next => s.insert backend i rows next

end State

/-- What happens next: a session goes on, or its transaction is rolled back, by an exception or a
cancellation. -/
inductive Action where
  | advance (i : Session)
  | abort (i : Session)
  deriving DecidableEq, Repr

namespace State

/-- One step. -/
def step (backend : Backend) (s : State) : Action → Option State
  | .advance i => if (s.transactions i).status.Open then s.advance backend i else none
  | .abort i =>
    if (s.transactions i).status.Open then some (s.finish i .rolledBack s.committed) else none

/-- An interleaving of the statements of both sessions. -/
def run (backend : Backend) (s : State) (actions : List Action) : Option State :=
  actions.foldlM (step backend) s

/-- Both transactions have ended. -/
def Ended (s : State) : Prop := ∀ i, ¬ (s.transactions i).status.Open

end State

theorem ne_committed_of_open {status : Status} (h : status.Open) : status ≠ .committed := by
  rintro rfl
  exact h

theorem put_same (s : State) (i : Session) (t : Transaction) :
    (s.put i t).transactions i = t := if_pos rfl

theorem put_other (s : State) {i j : Session} (h : j ≠ i) (t : Transaction) :
    (s.put i t).transactions j = s.transactions j := if_neg h

theorem other_ne (i : Session) : i.other ≠ i := by cases i <;> decide

theorem eq_other_of_ne {i j : Session} (h : j ≠ i) : j = i.other := by
  cases i <;> cases j <;> first | rfl | exact absurd rfl h

theorem other_other (i : Session) : i.other.other = i := by cases i <;> rfl

/-! ## What a step does -/

/-- What a statement does to the rows its transaction has inserted, whatever the other transaction
does. -/
def Effect : Sql → Database → List (Str × Nat) → Database → Prop
  | .delete _, own, _, own' => ∃ gone, own' = leave gone own
  | .insert rows, own, result, own' => ∃ (backend : Backend) (clock : Nat) (used : Database),
    (∀ table, ∀ i ∈ ids own table, i ∈ ids used table) ∧
    (inserted backend clock used rows).2 = result ∧
    append own (inserted backend clock used rows).1 = own' ∧ Unique own'

/-- The states after one step of session `i`. -/
inductive Move (s : State) (i : Session) : State → Prop where
  | rollBack : Move s i (s.put i ((s.transactions i).ended .rolledBack))
  | commit (hprogram : (s.transactions i).program = .commit) :
    Move s i (s.finish i .committed ((s.transactions i).view s.committed))
  | wait {table : Table} {next : List (Str × Nat) → SqlProgram}
    (hprogram : (s.transactions i).program = .execute (.delete table) next) :
    Move s i (s.put i { s.transactions i with
      status := .waiting (ids ((s.transactions i).view s.committed) table) })
  | delete {table : Table} {next : List (Str × Nat) → SqlProgram} {found : List Nat}
    (hprogram : (s.transactions i).program = .execute (.delete table) next)
    (hfound : found = ids ((s.transactions i).view s.committed) table ∨
      (s.transactions i).status = .waiting found)
    (hapart : ¬ Meet (cascade ((s.transactions i).view s.committed) table found)
      (s.transactions i.other).deleted) :
    Move s i (s.put i { (s.transactions i).resumed next [] with
      inserted := leave (cascade ((s.transactions i).view s.committed) table found)
        (s.transactions i).inserted
      deleted := fun t => (s.transactions i).deleted t ++
        cascade ((s.transactions i).view s.committed) table found t })
  | insert {rows : Rows} {next : List (Str × Nat) → SqlProgram} {result : List (Str × Nat)}
    {own : Database} (hprogram : (s.transactions i).program = .execute (.insert rows) next)
    (heffect : Effect (.insert rows) (s.transactions i).inserted result own) :
    Move s i (s.put i { (s.transactions i).resumed next result with inserted := own })

section Step

variable {backend : Backend} {s s' : State} {i : Session}

theorem mem_ids_append {db db' : Database} {table : Table} {n : Nat} :
    n ∈ ids (append db db') table ↔ n ∈ ids db table ∨ n ∈ ids db' table := by
  cases table <;> simp [ids, append]

theorem mem_map_filter {ρ : Type} {id : ρ → Nat} {rows : List ρ} {deleted : List Nat} {n : Nat} :
    n ∈ (rows.filter (id · ∉ deleted)).map id ↔ n ∈ rows.map id ∧ n ∉ deleted := by
  simp only [List.mem_map, List.mem_filter, decide_eq_true_eq]
  constructor
  · rintro ⟨r, ⟨hr, hnot⟩, rfl⟩
    exact ⟨⟨r, hr, rfl⟩, hnot⟩
  · rintro ⟨⟨r, hr, rfl⟩, hnot⟩
    exact ⟨r, ⟨hr, hnot⟩, rfl⟩

theorem mem_ids_leave {deleted : Deleted} {db : Database} {table : Table} {n : Nat} :
    n ∈ ids (leave deleted db) table ↔ n ∈ ids db table ∧ n ∉ deleted table := by
  cases table <;> exact mem_map_filter

/-- The rows of a transaction are among those that exist. -/
theorem mem_ids_used {table : Table} {n : Nat}
    (h : n ∈ ids (s.transactions i).inserted table) : n ∈ ids s.used table := by
  unfold State.used
  rw [mem_ids_append, mem_ids_append]
  cases i with
  | first => exact .inr (.inl h)
  | second => exact .inr (.inr h)

theorem move_of_delete {table : Table} {next : List (Str × Nat) → SqlProgram}
    (hprogram : (s.transactions i).program = .execute (.delete table) next)
    (h : s.delete i table next = some s') : Move s i s' := by
  simp only [State.delete] at h
  split at h
  · split at h
    · exact absurd h (by simp)
    · rename_i hwaiting
      rw [Status.found_of_not_isWaiting hwaiting] at h
      exact Option.some.inj h ▸ .wait hprogram
  · rename_i hapart
    exact Option.some.inj h ▸ .delete hprogram (Status.found_eq _ _) hapart

theorem append_assoc (db db' db'' : Database) :
    append (append db db') db'' = append db (append db' db'') := by
  simp only [append, List.append_assoc]

theorem Unique.of_append_right {db db' : Database} (h : Unique (append db db')) : Unique db' := by
  obtain ⟨hsources, hprovenance⟩ := h
  unfold append UqDataSourcesSourceId at hsources
  unfold append UqBinRecordSources at hprovenance
  rw [List.map_append] at hsources hprovenance
  exact ⟨hsources.of_append_right, hprovenance.of_append_right⟩

theorem move_of_insert {rows : Rows} {next : List (Str × Nat) → SqlProgram}
    (hprogram : (s.transactions i).program = .execute (.insert rows) next)
    (h : s.insert backend i rows next = some s') : Move s i s' := by
  unfold State.insert at h
  simp only at h
  split at h
  · exact Option.some.inj h ▸ .rollBack
  split at h
  · exact absurd h (by simp)
  · rename_i hunique _
    rw [not_not] at hunique
    refine Option.some.inj h ▸ .insert hprogram
      ⟨backend, s.clock, s.used, fun table n hn => mem_ids_used hn, rfl, rfl, ?_⟩
    rw [append_assoc] at hunique
    exact hunique.of_append_right

/-- **A step is a move of an open session.** -/
theorem move_of_step {action : Action} (h : s.step backend action = some s') :
    ∃ i, (s.transactions i).status.Open ∧ Move s i s' := by
  cases action with
  | advance i =>
    simp only [State.step] at h
    split at h
    · rename_i hopen
      refine ⟨i, hopen, ?_⟩
      unfold State.advance at h
      split at h
      · rename_i hprogram
        exact Option.some.inj h ▸ .commit hprogram
      · exact Option.some.inj h ▸ .rollBack
      · rename_i hprogram
        exact move_of_delete hprogram h
      · rename_i hprogram
        exact move_of_insert hprogram h
    · exact absurd h (by simp)
  | abort i =>
    simp only [State.step] at h
    split at h
    · rename_i hopen
      exact ⟨i, hopen, Option.some.inj h ▸ .rollBack⟩
    · exact absurd h (by simp)

end Step

end CardBinData.ReadCommitted
