import CardBinData.Library.Hoare
import CardBinData.Merge
import CardBinData.Tables

/-!
# Runs of an import

The import is a program over a `World`: the committed tables, the tables as the open transaction
sees them, the stage, and the temporary files on disk. What the program does not decide is in an
`Environment`, over which every result is quantified:

* `fault`: at which awaited steps an exception or a cancellation arrives. A step that is cancelled
  may still have its effect, because the worker thread of `asyncio.to_thread` runs on: it is done
  when the next step begins (`Fault.after`), or still running (`Fault.running`). The second kind
  matters for calls on the connection of the stage (`stageCall`), which is closed next. The steps
  that create and remove the stage file have names (`StageStep`).
* the engine (`Backend`): the ids of new rows, fresh and distinct but otherwise arbitrary, and the
  order in which `RETURNING` and an eager-loaded collection give their rows.
* the path of the temporary file, the time, and the batch sizes.

The session's transaction is isolated, and its commit is atomic: it raises only when nothing has
been committed.
-/

namespace CardBinData

open Library (Dict)

/-! ## The engine -/

/-- What the program may rely on of the database engine. -/
structure Backend where
  /-- The ids of some new rows, at a moment of the run and given the ids in use. -/
  newIds : Nat → List Nat → Nat → List Nat
  length_newIds : ∀ t used n, (newIds t used n).length = n
  nodup_newIds : ∀ t used n, (newIds t used n).Nodup
  newIds_fresh : ∀ t used n, ∀ i ∈ newIds t used n, i ∉ used
  /-- The rows of `INSERT … RETURNING key, id`, in the order in which they come. -/
  returned : Nat → List (Str × Nat) → List (Str × Nat)
  returned_perm : ∀ t rows, (returned t rows).Perm rows
  /-- An eager-loaded collection, in the order in which it comes. -/
  collected : List BinRecordSourceModel → List BinRecordSourceModel
  collected_perm : ∀ rows, (collected rows).Perm rows

/-- A number above all of a list. -/
def above (l : List Nat) : Nat := l.foldr max 0 + 1

theorem lt_above {l : List Nat} {i : Nat} (h : i ∈ l) : i < above l := by
  induction l with
  | nil => exact absurd h List.not_mem_nil
  | cons j l ih =>
    unfold above at ih ⊢
    rw [List.foldr_cons]
    rcases List.mem_cons.mp h with rfl | h
    · omega
    · have := ih h
      omega

/-- An engine that numbers rows in order, from above the ids in use. -/
def Backend.sequential : Backend where
  newIds _ used n := (List.range n).map (above used + ·)
  length_newIds _ _ _ := by rw [List.length_map, List.length_range]
  nodup_newIds _ _ _ := List.nodup_range.map fun _ _ h => Nat.add_left_cancel h
  newIds_fresh _ used n i hi hu := by
    obtain ⟨j, -, rfl⟩ := List.mem_map.mp hi
    exact absurd (lt_above hu) (by omega)
  returned _ rows := rows
  returned_perm _ rows := List.Perm.refl rows
  collected rows := rows
  collected_perm rows := List.Perm.refl rows

/-! ## Faults -/

/-- When a failing step raises: before its effect, or after it, or while its call is running in a
worker thread, which will have its effect later. -/
inductive Fault where
  | before
  | after
  | running
  deriving DecidableEq, Repr

/-- The steps of `_SourceRecordStage.create`, `_initialize` and `close`. -/
inductive StageStep where
  | mkstemp
  | closeDescriptor
  | connect
  | createTable
  | commitSchema
  | closeConnection
  /-- `connection.close()`, and `cursor.close()` where an iteration is cut off, under a call that is
  running on the connection in another thread. CPython makes no promise for it: both may end, or
  raise, or bring the interpreter down. -/
  | closeBusyConnection
  | unlink
  deriving DecidableEq, Repr

/-- What a run raises. -/
inductive Failure where
  /-- The exception or cancellation of a failing step, or the end of the interpreter in it: nothing
  after it is done, and the engine rolls back what is open. -/
  | raised
  /-- An integer that does not fit into 64 bits, bound by `sqlite3`. -/
  | overflowError
  | keyError
  /-- A unique constraint. -/
  | integrityError
  deriving DecidableEq, Repr

/-- Everything a run depends on besides its arguments and the world. -/
structure Environment extends Backend where
  /-- The fault of each awaited step, by the number of steps before it. -/
  fault : Nat → Option Fault := fun _ => none
  /-- The fault of each step on the stage file. -/
  stageFault : StageStep → Option Fault := fun _ => none
  /-- The path `mkstemp` picks, given the files there are. -/
  stagePath : List Nat → Nat
  stagePath_fresh : ∀ files, stagePath files ∉ files
  /-- `datetime.now(tz=UTC)`. -/
  now : Int := 0
  stagingInsertBatchSize : Nat := 1000
  stagingFetchBatchSize : Nat := 1000
  insertBatchSize : Nat := 1000
  recordSourceBatchSize : Nat := 1000

/-- An environment in which nothing fails. -/
def Environment.quiet : Environment where
  toBackend := Backend.sequential
  stagePath := above
  stagePath_fresh _ h := absurd (lt_above h) (lt_irrefl _)

/-- The same environment, with every step succeeding. -/
def Environment.faultless (env : Environment) : Environment :=
  { env with fault := fun _ => none, stageFault := fun _ => none }

/-! ## The world -/

/-- A row of the staging table. -/
structure StagedRow where
  ordinal : Nat
  sourceId : Str
  rowKey : Str
  iinStart : Str
  iinEnd : Option Str
  numberLength : Option Int
  luhn : Option Int
  scheme : Option Str
  productBrand : Option Str
  type : Option Str
  category : Option Str
  prepaid : Option Int
  countryAlpha2 : Option Str
  countryAlpha3 : Option Str
  countryName : Option Str
  issuerName : Option Str
  issuerPhone : Option Str
  issuerUrl : Option Str
  issuerCity : Option Str
  rawPayload : Str
  deriving DecidableEq

/-- `_SourceRecordStage`: the staging table, the next ordinal, the metadata seen. -/
structure SourceRecordStage where
  rows : List StagedRow := []
  nextOrdinal : Nat := 0
  sourceMetadataById : Dict Str SourceMetadata := Dict.empty
  deriving DecidableEq

/-- `_ImportCounters`, and `ImportResult`, which has the same fields. -/
structure ImportCounters where
  sourceRecordCount : Nat
  normalizedRecordCount : Nat := 0
  provenanceRecordCount : Nat := 0
  deriving DecidableEq

/-- The statements executed on the caller's session. -/
inductive Statement where
  | deleteBinRecordSources
  | deleteBinRecords
  | deleteDataSources
  | insertDataSources
  | insertBinRecords
  | insertBinRecordSources
  deriving DecidableEq, Repr

/-- The state of a run. -/
structure World where
  /-- Awaited steps so far. -/
  clock : Nat := 0
  /-- The tables other sessions see. -/
  committed : Database := Database.empty
  /-- The tables as the open transaction sees them. -/
  session : Database := Database.empty
  /-- The statements executed on the session, oldest first. -/
  executed : List Statement := []
  /-- The stage files on disk. -/
  tempFiles : List Nat := []
  stage : SourceRecordStage := {}
  /-- A call on the connection of the stage goes on in its thread, after a cancellation. -/
  callRunning : Bool := false
  counters : ImportCounters := ⟨0, 0, 0⟩
  deriving DecidableEq

/-- A program of the import. -/
abbrev Run := EStateM Failure World

/-! ## Steps -/

/-- `x`, unless a fault comes before it or after it. Of a call that goes on in its thread the effect
is there at once: nothing of what it changes is looked at before it is done. -/
def failing {α : Type} (fault : Option Fault) (x : Run α) : Run α :=
  match fault with
  | none => x
  | some .before => throw .raised
  | some .after | some .running => do
    let _ ← x
    throw .raised

/-- One awaited step. -/
def step {α : Type} (env : Environment) (x : Run α) : Run α := do
  let w ← get
  set { w with clock := w.clock + 1 }
  failing (env.fault w.clock) x

/-- One awaited call on the connection of the stage. -/
def stageCall {α : Type} (env : Environment) (x : Run α) : Run α := do
  let w ← get
  if env.fault w.clock = some .running then set { w with callRunning := true }
  step env x

/-- One awaited step on the stage file. -/
def stageStep {α : Type} (env : Environment) (s : StageStep) (x : Run α) : Run α :=
  failing (env.stageFault s) x

/-- `await session.execute(statement)`. -/
def execute {α : Type} (env : Environment) (statement : Statement) (x : Run α) : Run α := do
  modify fun w => { w with executed := w.executed ++ [statement] }
  step env x

/-- `d[k]`. -/
def getItem {κ ν : Type} [DecidableEq κ] (d : Dict κ ν) (k : κ) : Run ν :=
  match d.get? k with
  | some v => pure v
  | none => throw .keyError

theorem getItem_eq {κ ν : Type} [DecidableEq κ] {d : Dict κ ν} {k : κ} {v : ν}
    (h : d.get? k = some v) : getItem d k = pure v := by
  unfold getItem
  rw [h]

end CardBinData
