import CardBinData.Concurrency
import CardBinData.History

/-!
# Readers of two imports at once

A lookup is one statement (`docs/performance.md`, Lookup Path), so a reader sees the tables as they
are committed at one moment of a run. `readers_see_last_commit`: while two imports interleave, what
every reader gets is the answer of the catalog of the import that has committed last, or of the
catalog before, when none has. So the imports take effect one after the other, in the order of their
commits.
-/

namespace CardBinData.ReadCommitted

/-! ## Commits -/

/-- The session that a step commits. -/
def State.commitOf (s : State) : Action → Option Session
  | .advance i =>
    match (s.transactions i).program with
    | .commit => some i
    | _ => none
  | .abort _ => none

/-- The sessions that a run commits, in order. -/
def State.commits (backend : Backend) : State → List Action → List Session
  | _, [] => []
  | s, action :: rest =>
    (s.commitOf action).toList ++
      match s.step backend action with
      | some s' => s'.commits backend rest
      | none => []

/-- The catalog of a completed import. -/
def Import.catalog (self : Import) : Catalog := ⟨emitted self.adapters, self.importedAt⟩

/-- The catalog in force after the commits. -/
def inForce (imports : Session → Import) (self : Catalog) (commits : List Session) : Catalog :=
  (commits.getLast?.map fun i => (imports i).catalog).getD self

section Commits

variable {backend : Backend} {s s' s'' : State}

theorem commits_append {actions : List Action} {action : Action}
    (hrun : s.run backend actions = some s') (hstep : s'.step backend action = some s'') :
    s.commits backend (actions ++ [action]) =
      s.commits backend actions ++ (s'.commitOf action).toList := by
  induction actions generalizing s with
  | nil =>
    obtain rfl := Option.some.inj hrun
    simp [State.commits, hstep]
  | cons first rest ih =>
    rw [State.run, List.foldlM_cons] at hrun
    obtain ⟨s₁, hfirst, hrest⟩ := Option.bind_eq_some_iff.mp hrun
    rw [List.cons_append, State.commits, State.commits, hfirst]
    simp only [ih hrest, List.append_assoc]

/-- Only a commit changes the committed tables. -/
theorem committed_of_move {i : Session} (h : Move s i s')
    (hprogram : (s.transactions i).program ≠ .commit) : s'.committed = s.committed := by
  cases h with
  | commit hcommit => exact absurd hcommit hprogram
  | rollBack => rfl
  | wait _ => rfl
  | delete _ _ _ => rfl
  | insert _ _ => rfl

/-- A step commits the tables as its transaction sees them, or leaves them as they are. -/
theorem committed_of_step {action : Action} (h : s.step backend action = some s') :
    (∃ i, s.commitOf action = some i ∧ (s.transactions i).status.Open ∧
      (s.transactions i).program = .commit ∧
      s' = s.finish i .committed ((s.transactions i).view s.committed)) ∨
    s.commitOf action = none ∧ s'.committed = s.committed := by
  cases action with
  | abort i =>
    simp only [State.step] at h
    split at h
    · exact .inr ⟨rfl, Option.some.inj h ▸ rfl⟩
    · exact absurd h (by simp)
  | advance i =>
    simp only [State.step] at h
    split at h
    · rename_i hopen
      unfold State.advance at h
      unfold State.commitOf
      split at h
      · rename_i hprogram
        simp only [hprogram]
        exact .inl ⟨i, rfl, hopen, hprogram, (Option.some.inj h).symm⟩
      · rename_i hprogram
        simp only [hprogram]
        exact .inr ⟨trivial, Option.some.inj h ▸ rfl⟩
      · rename_i hprogram
        simp only [hprogram]
        exact .inr ⟨trivial, committed_of_move (move_of_delete hprogram h) (by simp [hprogram])⟩
      · rename_i hprogram
        simp only [hprogram]
        exact .inr ⟨trivial, committed_of_move (move_of_insert hprogram h) (by simp [hprogram])⟩
    · exact absurd h (by simp)

end Commits

/-! ## What readers see -/

section Readers

variable {backend : Backend} {imports : Session → Import} {db : Database} {self : Catalog}
  {overlapped : Prop} {s s' : State}

theorem inForce_append (commits : List Session) (i : Session) :
    inForce imports self (commits ++ [i]) = (imports i).catalog := by
  simp [inForce]

/-- The committed tables hold the catalog in force, unless both imports have committed after an
overlap. -/
def Serves (imports : Session → Import) (self : Catalog) (overlapped : Prop)
    (commits : List Session) (s : State) : Prop :=
  (inForce imports self commits).In s.committed ∨
    overlapped ∧ ∀ i, (s.transactions i).status = .committed

/-- **A commit puts its catalog in force.** -/
theorem serves_commit {i : Session} (hinv : Inv imports db overlapped s)
    (hopen : (s.transactions i).status.Open) (hprogram : (s.transactions i).program = .commit)
    (commits : List Session) :
    Serves imports self overlapped (commits ++ [i])
      (s.finish i .committed ((s.transactions i).view s.committed)) := by
  have hended : (s.finish i .committed ((s.transactions i).view s.committed)).transactions i =
      (s.transactions i).ended .committed := put_same _ _ _
  unfold Serves
  rw [inForce_append]
  rcases (hinv.phase i hopen).covers_of_commit hprogram with ⟨hover, hcommitted⟩ | hcovers
  · refine .inr ⟨hover, fun j => ?_⟩
    by_cases hj : j = i
    · exact hj ▸ congrArg Transaction.status hended
    · have hother : (s.finish i .committed ((s.transactions i).view s.committed)).transactions j =
          s.transactions j := put_other s hj _
      rw [hother, eq_other_of_ne hj, hcommitted]
  · have hrepresents := hinv.ensures i hopen
    rw [hprogram] at hrepresents
    refine .inl ⟨(imports i).storeRawPayload, ?_⟩
    change ((s.transactions i).view s.committed).Represents _
    rw [view_of_covers hcovers]
    exact hrepresents

/-- **A step keeps the catalog in force.** -/
theorem Serves.step {action : Action} {commits : List Session}
    (h : Serves imports self overlapped commits s) (hinv : Inv imports db overlapped s)
    (hstep : s.step backend action = some s') :
    Serves imports self overlapped (commits ++ (s.commitOf action).toList) s' := by
  rcases committed_of_step hstep with ⟨i, hcommit, hopen, hprogram, rfl⟩ | ⟨hnone, hcommitted⟩
  · rw [hcommit]
    exact serves_commit hinv hopen hprogram commits
  rw [hnone, Option.toList_none, List.append_nil]
  refine h.imp (fun hin => hcommitted ▸ hin) fun ⟨hover, hboth⟩ => ?_
  obtain ⟨i, hopen, -⟩ := move_of_step hstep
  exact absurd (hboth i) (ne_committed_of_open hopen)

theorem Serves.mono {overlapped' : Prop} {commits : List Session}
    (h : Serves imports self overlapped commits s) (hmono : overlapped → overlapped') :
    Serves imports self overlapped' commits s :=
  h.imp_right fun hboth => ⟨hmono hboth.1, hboth.2⟩

/-- Two imports that begin on the tables `db`. -/
abbrev State.begun (db : Database) (imports : Session → Import) : State :=
  State.initial db fun i => (imports i).program

theorem serves_run (hdb : self.In db) {actions : List Action}
    (hrun : (State.begun db imports).run backend actions = some s') :
    Serves imports self (¬ (State.begun db imports).Apart backend actions)
      ((State.begun db imports).commits backend actions) s' := by
  have hstart : Serves imports self (¬ (State.begun db imports).Apart backend [])
      ((State.begun db imports).commits backend []) (State.begun db imports) := .inl hdb
  obtain ⟨_, hrepresents⟩ := hdb
  refine run_induction (P := fun actions s' => Serves imports self
    (¬ (State.begun db imports).Apart backend actions)
    ((State.begun db imports).commits backend actions) s') hstart
    (fun actions s₁ s₂ action hrun hserves hstep => ?_) hrun
  have hinv := inv_run (tableInvariant_of_represents hrepresents) hrun
  rw [commits_append hrun hstep]
  refine (hserves.step hinv hstep).mono fun hoverlapped hapart => hoverlapped fun before hbefore =>
    hapart before (hbefore.trans (List.prefix_append actions [action]))

end Readers

/-- The tables after an import that returns are those of its catalog. -/
theorem catalog_in_committedBy {call : ImportCall} {w : World}
    (h : Library.Completes (storeImportSources call.env call.adapters call.storeRawPayload
      { w with committed := Database.empty })) : call.catalog.In (committedBy [call] w) := by
  have hpost := storeImportSources_post call.env call.adapters call.storeRawPayload
    { w with committed := Database.empty }
  obtain ⟨counters, w', hrun⟩ := h
  change call.catalog.In (runImport { w with committed := Database.empty } call).committed
  unfold runImport
  rw [hrun] at hpost ⊢
  exact ⟨call.storeRawPayload, hpost⟩

/-- **Readers see the imports one after the other, in the order of their commits**: at every moment
of every interleaving, a lookup answers from the whole dataset of the import that has committed
last, or of the catalog before, when none has; if there were records before, or not both imports
have committed, or their deletes of `bin_records` were never both begun while both were open. -/
theorem readers_see_last_commit (backend : Backend) (self : Catalog) (db : Database)
    (imports : Session → Import) (actions : List Action) (s : State) (hdb : self.In db)
    (hrun : (State.begun db imports).run backend actions = some s)
    (happly : db.binRecords ≠ [] ∨ (∃ i, (s.transactions i).status ≠ .committed) ∨
      (State.begun db imports).Apart backend actions) (call : LookupCall) :
    (inForce imports self ((State.begun db imports).commits backend actions)).Answers call
      (.answered (lookupWithSession call.backend s.committed call.value call.validateLuhn)) := by
  refine answers_of_in ((serves_run hdb hrun).resolve_right ?_) call
  rintro ⟨hoverlapped, hboth⟩
  rcases happly with hrecords | ⟨i, hi⟩ | hapart
  · obtain ⟨_, hrepresents⟩ := hdb
    obtain ⟨r, hr⟩ := List.exists_mem_of_ne_nil _ hrecords
    obtain ⟨p, hp, -⟩ := (tableInvariant_of_represents hrepresents).record_referenced r hr
    exact hoverlapped (apart_of_binRecordSources (List.ne_nil_of_mem hp) actions)
  · exact hi (hboth i)
  · exact hoverlapped hapart

theorem readers_see_last_commit_secondWaits :
    ∃ s, (State.begun (committedBy [importBefore] {}) twoImports).run Backend.sequential
        secondWaits = some s ∧
      ∀ call : LookupCall, (twoImports .second).catalog.Answers call
        (.answered (lookupWithSession call.backend s.committed call.value call.validateLuhn)) := by
  have hdb : importBefore.catalog.In (committedBy [importBefore] {}) :=
    catalog_in_committedBy (Library.completes_of_returns (p := fun _ _ => true) (by decide +kernel))
  have hruns : ((State.begun (committedBy [importBefore] {}) twoImports).run Backend.sequential
      secondWaits).isSome = true := by decide +kernel
  obtain ⟨s, hrun⟩ := Option.isSome_iff_exists.mp hruns
  have hcommits : (State.begun (committedBy [importBefore] {}) twoImports).commits
      Backend.sequential secondWaits = [.first, .second] := by decide +kernel
  have hrecords : (committedBy [importBefore] {}).binRecords ≠ [] := by decide +kernel
  have hlast := readers_see_last_commit Backend.sequential importBefore.catalog
    (committedBy [importBefore] {}) twoImports secondWaits s hdb hrun (.inl hrecords)
  rw [hcommits] at hlast
  exact ⟨s, hrun, hlast⟩

end CardBinData.ReadCommitted
