import CardBinData.Catalog

/-!
# Histories of a store

Calls come in transactions: the store's own (`import_sources`, `lookup`) or the caller's, which hand
their session to any number of imports and lookups (`import_sources_with_session`,
`lookup_with_session`) and end with a commit, or without one. `async with session_factory.begin()`
rolls back when its body raises, so the calls after a raise are not made.

* `sessionCalls_refine`: on the session of a transaction, what the calls answer is what a catalog of
  its own answers, which starts as the committed one.
* `store_refines_catalog`: every history, from empty tables on and whatever fails, is one of the
  catalog. So a reader of committed tables sees one completed import, whole.
-/

namespace CardBinData

open Library

/-! ## Calls -/

/-- The arguments of a lookup, with the engine that answers it. -/
structure LookupCall where
  backend : Backend
  value : Str
  validateLuhn : Bool

/-- A call on the session of the caller. -/
inductive SessionCall where
  /-- `import_sources_with_session`. -/
  | importSources (call : ImportCall)
  /-- `lookup_with_session`. -/
  | lookup (call : LookupCall)

/-- What the store is asked to do. -/
inductive Call where
  /-- `BinDataStore.import_sources`. -/
  | importSources (call : ImportCall)
  /-- `BinData.lookup`. -/
  | lookup (call : LookupCall)
  /-- A transaction of the caller's. -/
  | transaction (calls : List SessionCall) (commits : Bool)

/-- How a call ends. -/
inductive Outcome where
  | imported (counters : ImportCounters)
  | raised (e : Failure)
  /-- The answer of a lookup; `none` is `AttributeError`. -/
  | answered (answer : Option LookupResult)
  deriving DecidableEq

/-- The outcome of an import, and the world after it. -/
def importOutcome : EStateM.Result Failure World ImportCounters → Outcome × World
  | .ok counters w => (.imported counters, w)
  | .error e w => (.raised e, w)

/-- A call on the session. -/
def SessionCall.run (w : World) : SessionCall → Outcome × World
  | .importSources call =>
    importOutcome (CardBinData.importSources call.env call.adapters call.storeRawPayload w)
  | .lookup call =>
    (.answered (lookupWithSession call.backend w.session call.value call.validateLuhn), w)

/-- The calls of a transaction, up to the first that raises, and whether none did. -/
def runSession : List SessionCall → World → List Outcome × World × Bool
  | [], w => ([], w, true)
  | call :: rest, w =>
    match call.run w with
    | (.raised e, w) => ([.raised e], w, false)
    | (outcome, w) =>
      let (outcomes, w, completes) := runSession rest w
      (outcome :: outcomes, w, completes)

/-- A call on the store: its outcomes, and the world after it. -/
def Call.run (w : World) : Call → List Outcome × World
  | .importSources call =>
    let (outcome, w) :=
      importOutcome (storeImportSources call.env call.adapters call.storeRawPayload w)
    ([outcome], w)
  | .lookup call =>
    ([.answered (lookupWithSession call.backend w.committed call.value call.validateLuhn)], w)
  | .transaction calls commits =>
    let (outcomes, w, completes) :=
      runSession calls { w with session := w.committed, executed := [] }
    (outcomes, if completes && commits then { w with committed := w.session }
      else { w with session := w.committed })

/-! ## What the catalog allows -/

/-- The catalog of a completed import. -/
def ImportCall.catalog (call : ImportCall) : Catalog := ⟨emitted call.adapters, call.env.now⟩

/-- The outcome of an import: the counts of its records, which are importable, or a failure that has
a cause. `after` is the catalog of the import when it returns. -/
inductive ImportCall.Ends (call : ImportCall) : Outcome → Option Catalog → Prop where
  | imported (himport : Importable (emitted call.adapters)) :
    Ends call (.imported (countersOf (emitted call.adapters))) (some call.catalog)
  | raised {e : Failure} (he : ImportRaises call.env (emitted call.adapters) e) :
    Ends call (.raised e) none

/-- The answer of a lookup. -/
def Catalog.Answers (self : Catalog) (call : LookupCall) (outcome : Outcome) : Prop :=
  ∃ result, outcome = .answered (some result) ∧
    result.Like List.Perm (self.lookup call.value call.validateLuhn)

/-- The outcomes of a transaction's calls, and the catalog it would commit; `none` when a call
raises. -/
inductive Catalog.Session : Catalog → List SessionCall → List Outcome → Option Catalog → Prop where
  | done (self : Catalog) : Session self [] [] (some self)
  | imported {self next : Catalog} {call : ImportCall} {outcome : Outcome}
    {rest : List SessionCall} {outcomes : List Outcome} {last : Option Catalog}
    (hcall : call.Ends outcome (some next)) (hrest : Session next rest outcomes last) :
    Session self (.importSources call :: rest) (outcome :: outcomes) last
  | raised {self : Catalog} {call : ImportCall} {outcome : Outcome} (rest : List SessionCall)
    (hcall : call.Ends outcome none) :
    Session self (.importSources call :: rest) [outcome] none
  | lookup {self : Catalog} {call : LookupCall} {outcome : Outcome} {rest : List SessionCall}
    {outcomes : List Outcome} {last : Option Catalog} (hcall : self.Answers call outcome)
    (hrest : Session self rest outcomes last) :
    Session self (.lookup call :: rest) (outcome :: outcomes) last

/-- What the catalog allows a call on the store to answer, and to leave. -/
inductive Catalog.Allows (self : Catalog) : Call → List Outcome → Catalog → Prop where
  | importSources {call : ImportCall} {outcome : Outcome} {next : Option Catalog}
    (hcall : call.Ends outcome next) :
    Allows self (.importSources call) [outcome] (next.getD self)
  | lookup {call : LookupCall} {outcome : Outcome} (hcall : self.Answers call outcome) :
    Allows self (.lookup call) [outcome] self
  | commit {calls : List SessionCall} {outcomes : List Outcome} {last : Option Catalog}
    (hcalls : self.Session calls outcomes last) :
    Allows self (.transaction calls true) outcomes (last.getD self)
  | rollback {calls : List SessionCall} {outcomes : List Outcome} {last : Option Catalog}
    (hcalls : self.Session calls outcomes last) :
    Allows self (.transaction calls false) outcomes self

/-! ## The tables hold the catalog -/

/-- The tables are those of the catalog, with payloads or without. -/
def Catalog.In (self : Catalog) (db : Database) : Prop :=
  ∃ storeRawPayload, db.Represents (datasetOf self.records storeRawPayload self.importedAt)

theorem catalog_in_empty : ({} : Catalog).In Database.empty :=
  ⟨true, { dataSources := rfl
           dataSourceIds := List.nodup_nil
           binRecords := rfl
           binRecordIds := List.nodup_nil
           provenance := List.Perm.nil
           provenanceUnique := List.nodup_nil }⟩

theorem answers_of_in {self : Catalog} {db : Database} (h : self.In db) (call : LookupCall) :
    self.Answers call
      (.answered (lookupWithSession call.backend db call.value call.validateLuhn)) := by
  obtain ⟨_, h⟩ := h
  obtain ⟨result, hresult, hlike⟩ :=
    lookup_represents h call.backend call.value call.validateLuhn
  exact ⟨result, congrArg Outcome.answered hresult, hlike⟩

/-- **On the session of a transaction, the calls answer what the catalog allows**, and leave the
committed tables alone. -/
theorem sessionCalls_refine (calls : List SessionCall) {self : Catalog} {w : World}
    (h : self.In w.session) :
    ∃ last, self.Session calls (runSession calls w).1 last ∧
      (runSession calls w).2.1.committed = w.committed ∧
      (runSession calls w).2.2 = last.isSome ∧
      ∀ next ∈ last, next.In (runSession calls w).2.1.session := by
  induction calls generalizing self w with
  | nil => exact ⟨some self, .done self, rfl, rfl, fun next hnext => Option.some.inj hnext ▸ h⟩
  | cons call rest ih =>
    cases call with
    | lookup call =>
      obtain ⟨last, hsession, hrest⟩ := ih h
      exact ⟨last, .lookup (answers_of_in h call) hsession, hrest⟩
    | importSources call =>
      have hspec := ((importSources_triple call.adapters call.storeRawPayload).and
        (@keeps_importSources _ _ call.env runFrame_committed call.adapters
          call.storeRawPayload w.committed)) w ⟨trivial, rfl⟩
      unfold runSession SessionCall.run
      simp only
      cases hrun : importSources call.env call.adapters call.storeRawPayload w with
      | error e w' =>
        rw [hrun] at hspec
        exact ⟨none, .raised rest (.raised hspec.1), hspec.2, rfl, by simp⟩
      | ok counters w' =>
        rw [hrun] at hspec
        obtain ⟨⟨rfl, hrepresents, himport⟩, hcommitted⟩ := hspec
        obtain ⟨last, hsession, hkept, hrest⟩ :=
          @ih call.catalog _ ⟨call.storeRawPayload, hrepresents⟩
        exact ⟨last, .imported (.imported himport) hsession, hkept.trans hcommitted, hrest⟩

/-! ## Histories -/

/-- Every call on the store is one that the catalog allows. -/
theorem call_refines {self : Catalog} {w : World} (h : self.In w.committed) (call : Call) :
    ∃ next, self.Allows call (call.run w).1 next ∧ next.In (call.run w).2.committed := by
  cases call with
  | lookup call => exact ⟨self, .lookup (answers_of_in h call), h⟩
  | importSources call =>
    have hspec := storeImportSources_spec call.env call.adapters call.storeRawPayload w
    unfold Call.run
    simp only
    cases hrun : storeImportSources call.env call.adapters call.storeRawPayload w with
    | ok counters w' =>
      rw [hrun] at hspec
      obtain ⟨rfl, hrepresents, himport⟩ := hspec
      exact ⟨call.catalog, .importSources (.imported himport), call.storeRawPayload, hrepresents⟩
    | error e w' =>
      rw [hrun] at hspec
      obtain ⟨hcommitted, he⟩ := hspec
      exact ⟨self, .importSources (.raised he), hcommitted ▸ h⟩
  | transaction calls commits =>
    obtain ⟨last, hsession, hcommitted, hcompletes, hlast⟩ :=
      sessionCalls_refine calls (w := { w with session := w.committed, executed := [] }) h
    unfold Call.run
    simp only [hcompletes]
    cases commits with
    | false => exact ⟨self, .rollback hsession, by simpa [hcommitted] using h⟩
    | true =>
      refine ⟨last.getD self, .commit hsession, ?_⟩
      cases last with
      | none => simpa [hcommitted] using h
      | some next => exact hlast next rfl

end CardBinData
