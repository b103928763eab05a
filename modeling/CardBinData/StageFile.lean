import CardBinData.Frames

/-!
# When the stage file is removed

`docs/performance.md` says that the temporary stage "is closed and removed whether the import
succeeds or fails". The body of the import never touches the file (`keeps_importStaged`), and its
`finally` runs `closeStage` on every outcome. Three things are left:

* between `mkstemp` and the end of `_initialize` a fault leaves the file behind, because the stage
  is created before the `try`;
* in `close` a fault of `connection.close` skips the `unlink`;
* a cancellation of the body does not wait for the call that the stage's connection is in, so
  `connection.close` may come while that call is running in its thread (`closingStep`), and may not
  get to its end.

* `removesStageFile_iff`: the file is removed exactly when no fault hits one of these steps
  (`StageStepsSucceed`), whatever else happens in between. Without a call that goes on after its
  cancellation, that is up to the faults of the named steps alone.
* `stageFile_leaks_on_connect`: a task cancelled at `sqlite3.connect` leaves its file.
-/

namespace CardBinData

open Library

/-- After the run, when its worker threads are done, there is no stage file that was not there
before. -/
def RemovesStageFile (env : Environment) (adapters : List SourceAdapter) (storeRawPayload : Bool)
    (w : World) : Prop :=
  ∀ path ∈ (finalState (importSources env adapters storeRawPayload w)).tempFiles,
    path ∈ w.tempFiles

/-- The steps between the creation of the file and the `try`. -/
def creationSteps : List StageStep :=
  [.mkstemp, .closeDescriptor, .connect, .createTable, .commitSchema]

/-- The world at the end of the body, when `close` is to come. -/
def beforeClose (env : Environment) (adapters : List SourceAdapter) (storeRawPayload : Bool)
    (w : World) : World :=
  finalState ((createStage env >>= fun _ => importStaged env adapters storeRawPayload) w)

/-- The file is removed by `closing`, which closes the connection, and `unlink`. A fault of `unlink`
does no harm when the file goes all the same. -/
def Closes (env : Environment) (closing : StageStep) : Prop :=
  env.stageFault closing = none ∧ env.stageFault .unlink ≠ some .before

/-- No file is created, or no fault hits a step that stands between the file and its removal. -/
def StageStepsSucceed (env : Environment) (closing : StageStep) : Prop :=
  env.stageFault .mkstemp = some .before ∨
    ((∀ s ∈ creationSteps, env.stageFault s = none) ∧ Closes env closing)

instance (env : Environment) (closing : StageStep) : Decidable (Closes env closing) :=
  inferInstanceAs (Decidable (_ ∧ _))

instance (env : Environment) (closing : StageStep) : Decidable (StageStepsSucceed env closing) :=
  inferInstanceAs (Decidable (_ ∨ _))

variable {env : Environment} {w : World}

/-- Creating the stage adds its file, unless `mkstemp` fails before it does. On a new connection no
call is running. -/
theorem createStage_post (env : Environment) (w : World) :
    Post (createStage env w)
      (fun path w' => (∀ s ∈ creationSteps, env.stageFault s = none) ∧
        path = env.stagePath w.tempFiles ∧ w'.tempFiles = path :: w.tempFiles ∧
        w'.callRunning = false)
      (fun _ w' => ¬ (∀ s ∈ creationSteps, env.stageFault s = none) ∧
        w'.tempFiles = if env.stageFault .mkstemp = some .before then w.tempFiles
          else env.stagePath w.tempFiles :: w.tempFiles) := by
  unfold createStage makeTemporaryStagePath stageStep
  simp only [creationSteps, List.forall_mem_cons, List.not_mem_nil, false_implies, implies_true,
    and_true]
  -- the first step that fails decides
  rcases h₁ : env.stageFault .mkstemp with _ | _ | _ | _
  · rcases h₂ : env.stageFault .closeDescriptor with _ | _ | _ | _
    · rcases h₃ : env.stageFault .connect with _ | _ | _ | _
      · rcases h₄ : env.stageFault .createTable with _ | _ | _ | _
        · rcases h₅ : env.stageFault .commitSchema with _ | _ | _ | _
          · exact ⟨⟨rfl, rfl, rfl, rfl, rfl⟩, rfl, rfl, rfl⟩
          all_goals exact ⟨by simp, rfl⟩
        all_goals exact ⟨by simp, rfl⟩
      all_goals exact ⟨by simp, rfl⟩
    all_goals exact ⟨by simp, rfl⟩
  all_goals exact ⟨by simp, rfl⟩

/-- Closing the stage removes its file, unless a fault comes first. -/
theorem closeStage_post (env : Environment) (path : Nat) (w : World) :
    Post (closeStage env path w)
      (fun _ w' => Closes env (closingStep w) ∧
        w'.tempFiles = w.tempFiles.filter fun p => p ≠ path)
      (fun _ w' => w'.tempFiles =
        if Closes env (closingStep w) then w.tempFiles.filter fun p => p ≠ path
        else w.tempFiles) := by
  change Post ((do
    stageStep env (closingStep w) (pure ())
    stageStep env .unlink
      (modify fun w => { w with tempFiles := w.tempFiles.filter (· ≠ path) }) : Run Unit) w) _ _
  unfold stageStep
  rcases h₁ : env.stageFault (closingStep w) with _ | fault
  · rcases h₂ : env.stageFault .unlink with _ | _ | _ | _
    · exact ⟨⟨h₁, by simp [h₂]⟩, rfl⟩
    · exact (if_neg fun h => h.2 h₂).symm
    all_goals exact (if_pos ⟨h₁, by simp [h₂]⟩).symm
  · have hnot : ¬ Closes env (closingStep w) := fun h => by simpa [h₁] using h.1
    cases fault <;> exact (if_neg hnot).symm

theorem importFrame_tempFiles : ImportFrame env World.tempFiles where
  clock _ _ := rfl
  call _ _ _ := rfl
  stage _ _ := rfl
  session _ _ := rfl
  executed _ _ := rfl
  counters _ _ := rfl

/-- Where no fault lets a call go on, none does. -/
theorem importFrame_callRunning (hrunning : ∀ n, env.fault n ≠ some .running) :
    ImportFrame env World.callRunning where
  clock _ _ := rfl
  call _ n hn := absurd hn (hrunning n)
  stage _ _ := rfl
  session _ _ := rfl
  executed _ _ := rfl
  counters _ _ := rfl

/-- Once the stage is created, its removal is up to `closeStage`. -/
theorem tempFiles_withFinally (adapters : List SourceAdapter) (storeRawPayload : Bool)
    (path : Nat) (w₁ : World) :
    (finalState (withFinally (importStaged env adapters storeRawPayload)
      (closeStage env path) w₁)).tempFiles =
      if Closes env (closingStep (finalState (importStaged env adapters storeRawPayload w₁))) then
        w₁.tempFiles.filter fun p => p ≠ path
      else w₁.tempFiles := by
  rw [finalState_withFinally]
  have hkeeps : Keeps World.tempFiles (importStaged env adapters storeRawPayload) :=
    keeps_importStaged importFrame_tempFiles adapters storeRawPayload
  rw [← hkeeps.finalState w₁]
  generalize finalState (importStaged env adapters storeRawPayload w₁) = w₂
  have hclose := closeStage_post env path w₂
  cases hrun : closeStage env path w₂ with
  | ok _ w₃ =>
    rw [hrun] at hclose
    obtain ⟨hcloses, hfiles⟩ := hclose
    rw [if_pos hcloses]
    exact hfiles
  | error _ w₃ =>
    rw [hrun] at hclose
    exact hclose

/-- The file is removed exactly when no fault hits a step that stands between it and its removal. -/
theorem removesStageFile_iff_closingStep (env : Environment) (adapters : List SourceAdapter)
    (storeRawPayload : Bool) (w : World) :
    RemovesStageFile env adapters storeRawPayload w ↔
      StageStepsSucceed env (closingStep (beforeClose env adapters storeRawPayload w)) := by
  have hfresh := env.stagePath_fresh w.tempFiles
  have hcreate := createStage_post env w
  unfold RemovesStageFile StageStepsSucceed importSources beforeClose
  rw [run_bind, run_bind]
  cases hrun : createStage env w with
  | error e w₁ =>
    rw [hrun] at hcreate
    obtain ⟨hsteps, hfiles⟩ := hcreate
    simp only [finalState, hfiles]
    split
    · rename_i hbefore
      exact ⟨fun _ => Or.inl hbefore, fun _ path hpath => hpath⟩
    · rename_i hnot
      refine ⟨fun h => absurd (h _ List.mem_cons_self) hfresh, ?_⟩
      rintro (h | h)
      · exact absurd h hnot
      · exact absurd h.1 hsteps
  | ok path w₁ =>
    rw [hrun] at hcreate
    obtain ⟨hsteps, hpath, hfiles, -⟩ := hcreate
    have hmkstemp : env.stageFault .mkstemp ≠ some .before := by
      rw [hsteps .mkstemp (by simp [creationSteps])]
      simp
    simp only [tempFiles_withFinally, hfiles]
    split
    · rename_i hclose
      refine ⟨fun _ => Or.inr ⟨hsteps, hclose⟩, fun _ p hp => ?_⟩
      obtain ⟨hp, hne⟩ := List.mem_filter.mp hp
      exact (List.mem_cons.mp hp).resolve_left (of_decide_eq_true hne)
    · rename_i hclose
      refine ⟨fun h => absurd (h path List.mem_cons_self) (hpath ▸ hfresh), ?_⟩
      rintro (h | h)
      · exact absurd h hmkstemp
      · exact absurd h.2 hclose

/-- Where no fault lets a call go on, the stage that has been created is closed at rest. -/
theorem closingStep_beforeClose (adapters : List SourceAdapter) (storeRawPayload : Bool)
    (hrunning : ∀ n, env.fault n ≠ some .running)
    (hsteps : ∀ s ∈ creationSteps, env.stageFault s = none) :
    closingStep (beforeClose env adapters storeRawPayload w) = .closeConnection := by
  have hcreate := createStage_post env w
  have hkeeps : Keeps World.callRunning (importStaged env adapters storeRawPayload) :=
    keeps_importStaged (importFrame_callRunning hrunning) adapters storeRawPayload
  unfold beforeClose
  rw [run_bind]
  cases hrun : createStage env w with
  | error e w₁ =>
    rw [hrun] at hcreate
    exact absurd hsteps hcreate.1
  | ok path w₁ =>
    rw [hrun] at hcreate
    obtain ⟨-, -, -, hrest⟩ := hcreate
    unfold closingStep
    rw [hkeeps.finalState w₁, hrest]
    rfl

/-- **The stage file is removed exactly when no fault hits the steps around the `try`**, for every
behaviour of the import in between. The connection is closed at rest, or under a call that a
cancellation has left running; where no cancellation leaves one, only the named steps decide. -/
theorem removesStageFile_iff (env : Environment) (adapters : List SourceAdapter)
    (storeRawPayload : Bool) (w : World) :
    (RemovesStageFile env adapters storeRawPayload w ↔
      StageStepsSucceed env (closingStep (beforeClose env adapters storeRawPayload w))) ∧
    ((∀ n, env.fault n ≠ some .running) →
      (RemovesStageFile env adapters storeRawPayload w ↔
        StageStepsSucceed env .closeConnection)) := by
  have hiff := removesStageFile_iff_closingStep env adapters storeRawPayload w
  refine ⟨hiff, fun hrunning => hiff.trans (or_congr_right (and_congr_right fun hsteps => ?_))⟩
  rw [closingStep_beforeClose adapters storeRawPayload hrunning hsteps]

/-- A task cancelled while `executemany` runs, where `close` does not survive the call. -/
example : ¬ RemovesStageFile
    { Environment.quiet with
      fault := fun n => if n = 2 then some .running else none
      stageFault := fun s => if s = .closeBusyConnection then some .before else none }
    [⟨⟨[], [], [], none, none⟩, [{
      source := ⟨[], [], [], none, none⟩
      rowKey := []
      iinStart := "457173".toList }]⟩] true {} := by
  unfold RemovesStageFile
  decide +kernel

/-- **A task cancelled while `sqlite3.connect` runs leaves its stage file**: the `try` whose
`finally` would remove it has not begun. -/
theorem stageFile_leaks_on_connect :
    ¬ RemovesStageFile
      { Environment.quiet with stageFault := fun s => if s = .connect then some .after else none }
      [] true {} := by
  unfold RemovesStageFile
  decide +kernel

end CardBinData
