import CardBinData.Frames
import CardBinData.MergeSpec
import Mathlib.Data.List.Induction

/-!
# What the stage holds and gives back

`StageHolds records stage`: the stage holds `records`, numbered in order, and the metadata first
seen for each source id. Inserting a batch appends it (`insertRecords_triple`), so after
`_stage_source_records` the stage holds what the adapters emitted, however the batches fell
(`stageSourceRecords_triple`). It raises only where a fault comes in or a number does not fit into
64 bits.

Reading it back yields the records with the metadata of their source id and with the payload as
text (`restored`), stably sorted by `iin_start` (`iterRecords_yields`).
-/

namespace CardBinData

open Library

variable {α : Type} {env : Environment}

/-- What the adapters emit, in order. -/
def emitted (adapters : List SourceAdapter) : List NormalizedSourceRecord :=
  adapters.flatMap (·.records)

/-- The metadata first seen for each source id. -/
def firstSeen (records : List NormalizedSourceRecord) : Dict Str SourceMetadata :=
  records.foldl (fun d record => d.setdefault record.source.sourceId record.source) Dict.empty

/-- A record as the stage gives it back. -/
def restored (sourceMetadataById : Dict Str SourceMetadata) (record : NormalizedSourceRecord) :
    NormalizedSourceRecord :=
  { record with
    source := (sourceMetadataById.get? record.source.sourceId).getD record.source
    rawPayload := Dict.empty
    rawPayloadJson := some (dumps record.rawPayload) }

/-- The records of an import as the merge sees them. -/
def stagedRecords (records : List NormalizedSourceRecord) : List NormalizedSourceRecord :=
  records.map (restored (firstSeen records))

/-- The integers of a record fit into the staging table. -/
def Bindable (record : NormalizedSourceRecord) : Prop := record.numberLength.all bindable = true

instance (record : NormalizedSourceRecord) : Decidable (Bindable record) :=
  inferInstanceAs (Decidable (_ = _))

/-- The stage holds `records`. -/
structure StageHolds (records : List NormalizedSourceRecord) (stage : SourceRecordStage) :
    Prop where
  rows : stage.rows = records.mapIdx recordValues
  nextOrdinal : stage.nextOrdinal = records.length
  metadata : stage.sourceMetadataById = firstSeen records
  bindable : ∀ r ∈ records, Bindable r

theorem stageHolds_nil : StageHolds [] {} := ⟨rfl, rfl, rfl, fun _ h => absurd h List.not_mem_nil⟩

/-! ## Steps -/

/-- Some step of the environment fails. -/
def Faulty (env : Environment) : Prop := ∃ n, env.fault n ≠ none

/-- What a generator raises itself: the faults of its own steps. -/
def Faults (env : Environment) (e : Failure) : Prop := e = .raised ∧ Faulty env

/-- What a run raises, and what each needs to happen. -/
def Raises (fault overflow conflict : Prop) : Failure → Prop
  | .raised => fault
  | .overflowError => overflow
  | .keyError => False
  | .integrityError => conflict

theorem Raises.mono {fault fault' overflow overflow' conflict conflict' : Prop} {e : Failure}
    (h : Raises fault overflow conflict e) (hf : fault → fault') (ho : overflow → overflow')
    (hc : conflict → conflict') : Raises fault' overflow' conflict' e := by
  cases e with
  | raised => exact hf h
  | overflowError => exact ho h
  | keyError => exact h
  | integrityError => exact hc h

/-- No run raises `KeyError`. -/
theorem Raises.ne_keyError {fault overflow conflict : Prop} {e : Failure}
    (h : Raises fault overflow conflict e) : e ≠ .keyError := by
  rintro rfl
  exact h

/-- Only the clock moved, and a call may go on in its thread. -/
def Idle (w w' : World) : Prop := ∃ n b, w' = { w with clock := n, callRunning := b }

/-- Only the clock and the counters moved, and a call may go on in its thread. -/
def Quiet (w w' : World) : Prop :=
  ∃ n b c, w' = { w with clock := n, callRunning := b, counters := c }

theorem Idle.quiet {w w' : World} (h : Idle w w') : Quiet w w' := by
  obtain ⟨n, b, rfl⟩ := h
  exact ⟨n, b, w.counters, rfl⟩

theorem idle_refl (w : World) : Idle w w := ⟨w.clock, w.callRunning, rfl⟩

theorem triple_step (env : Environment) {P P' : World → Prop} {x : Run α} {Q : α → World → Prop}
    {E : Failure → World → Prop} (hx : Triple P' x Q E)
    (hP : ∀ w n, P w → P' { w with clock := n })
    (hbefore : Faulty env → ∀ w, P' w → E .raised w)
    (hafter : Faulty env → ∀ a w, Q a w → E .raised w) : Triple P (step env x) Q E := by
  intro w hw
  rw [run_step]
  cases hf : env.fault w.clock with
  | none => exact hx _ (hP w _ hw)
  | some fault =>
    have hfaulty : Faulty env := ⟨w.clock, by simp [hf]⟩
    cases fault with
    | before => exact hbefore hfaulty _ (hP w _ hw)
    | after | running => exact hx.bind (fun a => Triple.raise (hafter hfaulty a)) _ (hP w _ hw)

/-- A call on the connection is a step, which may leave it running. -/
theorem triple_stageCall (env : Environment) {P P' : World → Prop} {x : Run α}
    {Q : α → World → Prop} {E : Failure → World → Prop} (hx : Triple P' x Q E)
    (hP : ∀ w n b, P w → P' { w with clock := n, callRunning := b })
    (hbefore : Faulty env → ∀ w, P' w → E .raised w)
    (hafter : Faulty env → ∀ a w, Q a w → E .raised w) : Triple P (stageCall env x) Q E := by
  let Called : World → Prop := fun w => ∃ w₀ b, P w₀ ∧ w = { w₀ with callRunning := b }
  have hstep : Triple Called (step env x) Q E :=
    triple_step env hx (by
      rintro _ n ⟨w₀, b, hw₀, rfl⟩
      exact hP w₀ n b hw₀) hbefore hafter
  intro w hw
  rw [run_stageCall]
  split
  · exact hstep _ ⟨w, true, hw, rfl⟩
  · exact hstep _ ⟨w, w.callRunning, hw, rfl⟩

/-- A step without effect only moves the clock. -/
theorem step_pure_triple (env : Environment) {P : World → Prop} {E : Failure → World → Prop}
    (hP : ∀ w w', Idle w w' → P w → P w') (hE : Faulty env → ∀ w, P w → E .raised w) :
    Triple P (step env (pure ())) (fun _ => P) E :=
  triple_step env (Triple.pure fun _ h => h)
    (fun w n hw => hP w _ ⟨n, w.callRunning, rfl⟩ hw) hE fun hfaulty _ w hw => hE hfaulty w hw

theorem stageCall_pure_triple (env : Environment) {P : World → Prop} {E : Failure → World → Prop}
    (hP : ∀ w w', Idle w w' → P w → P w') (hE : Faulty env → ∀ w, P w → E .raised w) :
    Triple P (stageCall env (pure ())) (fun _ => P) E :=
  triple_stageCall env (Triple.pure fun _ h => h) (fun w n b hw => hP w _ ⟨n, b, rfl⟩ hw) hE
    fun hfaulty _ w hw => hE hfaulty w hw

/-! ## Staging -/

theorem firstSeen_append (done batch : List NormalizedSourceRecord) :
    firstSeen (done ++ batch) =
      batch.foldl (fun d record => d.setdefault record.source.sourceId record.source)
        (firstSeen done) := by
  unfold firstSeen
  rw [List.foldl_append]

/-- The loop of `insert_records`. -/
theorem recordRows_eq (records : List NormalizedSourceRecord) (stage : SourceRecordStage) :
    recordRows records stage =
      ({ stage with
          nextOrdinal := stage.nextOrdinal + records.length
          sourceMetadataById := records.foldl
            (fun d record => d.setdefault record.source.sourceId record.source)
            stage.sourceMetadataById },
        records.mapIdx fun i => recordValues (i + stage.nextOrdinal)) := by
  suffices h : ∀ (records : List NormalizedSourceRecord) (stage : SourceRecordStage)
      (rows : List StagedRow),
      records.foldl (fun s record =>
        ({ s.1 with
            nextOrdinal := s.1.nextOrdinal + 1
            sourceMetadataById :=
              s.1.sourceMetadataById.setdefault record.source.sourceId record.source },
          s.2 ++ [recordValues s.1.nextOrdinal record])) (stage, rows) =
      ({ stage with
          nextOrdinal := stage.nextOrdinal + records.length
          sourceMetadataById := records.foldl
            (fun d record => d.setdefault record.source.sourceId record.source)
            stage.sourceMetadataById },
        rows ++ records.mapIdx fun i => recordValues (i + stage.nextOrdinal)) from
    h records stage []
  intro records
  induction records with
  | nil => intro stage rows; simp
  | cons r records ih =>
    intro stage rows
    rw [List.foldl_cons, ih, List.mapIdx_cons, List.foldl_cons, List.length_cons]
    have hidx : ∀ i, i + (stage.nextOrdinal + 1) = i + 1 + stage.nextOrdinal := fun i => by omega
    simp only [List.append_assoc, List.singleton_append, hidx, Nat.zero_add]
    congr 2
    omega

/-- What can make staging `records` raise. -/
def StagingRaises (env : Environment) (records : List NormalizedSourceRecord) : Failure → Prop :=
  Raises (Faulty env) (∃ r ∈ records, ¬ Bindable r) False

theorem executemany_triple (rows : List StagedRow) (stage : SourceRecordStage)
    {E : Failure → World → Prop}
    (hE : ∀ row ∈ rows, ¬ row.numberLength.all bindable = true → ∀ w, E .overflowError w) :
    Triple (fun w => w.stage = stage) (executemany rows)
      (fun _ w => w.stage = { stage with rows := stage.rows ++ rows } ∧
        ∀ row ∈ rows, row.numberLength.all bindable = true) E := by
  let Inv : List StagedRow → Unit → World → Prop := fun done _ w =>
    w.stage = { stage with rows := stage.rows ++ done } ∧
      ∀ row ∈ done, row.numberLength.all bindable = true
  have hstep : ∀ done row rest b, rows = done ++ row :: rest →
      Triple (Inv done b)
        (if row.numberLength.all bindable then
          modify fun w => { w with stage := { w.stage with rows := w.stage.rows ++ [row] } }
        else throw .overflowError) (fun b' => Inv (done ++ [row]) b') E := by
    intro done row rest b hl
    split
    · rename_i hrow
      refine Triple.modify fun w hw => ⟨by simp [hw.1], fun row' hrow' => ?_⟩
      rcases List.mem_append.mp hrow' with h | h
      · exact hw.2 row' h
      · exact List.mem_singleton.mp h ▸ hrow
    · rename_i hrow
      exact Triple.raise fun w _ => hE row (by simp [hl]) hrow w
  exact (Triple.foldlM hstep ()).conseq
    (fun w hw => ⟨by simp [hw], fun _ h => absurd h List.not_mem_nil⟩) (fun _ _ h => h)
    fun _ _ h => h

/-- **Inserting a batch appends it to the stage.** -/
theorem insertRecords_triple {done batch all : List NormalizedSourceRecord}
    (hall : ∀ r ∈ batch, r ∈ all) :
    Triple (fun w => StageHolds done w.stage) (insertRecords env batch)
      (fun _ w => StageHolds (done ++ batch) w.stage) fun e _ => StagingRaises env all e := by
  refine Triple.getBind fun w hw => ?_
  let rows := batch.mapIdx fun i => recordValues (i + w.stage.nextOrdinal)
  have hbind : ∀ row ∈ rows, ∃ r ∈ batch, row.numberLength = r.numberLength := by
    intro row hrow
    obtain ⟨i, hi, rfl⟩ := List.mem_mapIdx.mp hrow
    exact ⟨batch[i], List.getElem_mem hi, rfl⟩
  have hexec := executemany_triple rows
    { w.stage with
      nextOrdinal := w.stage.nextOrdinal + batch.length
      sourceMetadataById := batch.foldl
        (fun d record => d.setdefault record.source.sourceId record.source)
        w.stage.sourceMetadataById }
    (E := fun e _ => StagingRaises env all e) fun row hrow hnot _ => by
      obtain ⟨r, hr, heq⟩ := hbind row hrow
      exact ⟨r, hall r hr, fun hb => hnot (heq ▸ hb)⟩
  have hrest := (triple_stageCall env hexec (P := fun w' => w'.stage = _) (fun _ _ _ h => h)
    (fun hf _ _ => hf) fun hf _ _ _ => hf).bind fun _ =>
      stageCall_pure_triple env (fun w₁ w₂ hq h => by
        obtain ⟨n, b, rfl⟩ := hq
        exact h) fun hf _ _ => hf
  rw [recordRows_eq]
  refine (hrest _ rfl).mono (fun _ w' hw' => ?_) fun _ _ h => h
  obtain ⟨hstage, hrows⟩ := hw'
  rw [hstage]
  exact
    { rows := by
        rw [List.mapIdx_append, ← hw.rows, ← hw.nextOrdinal]
      nextOrdinal := by
        rw [List.length_append, ← hw.nextOrdinal]
      metadata := by
        rw [firstSeen_append, ← hw.metadata]
      bindable := fun r hr => by
        rcases List.mem_append.mp hr with hr | hr
        · exact hw.bindable r hr
        · obtain ⟨i, hi, rfl⟩ := List.getElem_of_mem hr
          exact hrows _ (List.mem_mapIdx.mpr ⟨i, hi, rfl⟩) }

/-- An adapter yields its records; its own steps fail where the environment does. -/
theorem yields_adapter (env : Environment) (adapter : SourceAdapter) :
    Yields Idle (Faults env) (fun _ => True) (adapter.iterRecords env) adapter.records := by
  intro β f Inv E hidle hown hf b
  have hstep : ∀ done b, Triple (Inv done b) (step env (pure ())) (fun _ => Inv done b) E :=
    fun done b => step_pure_triple env (fun w w' => hidle done b w w') fun hfaulty w hw =>
      hown done b w .raised w (idle_refl w) hw ⟨rfl, hfaulty⟩
  have hloop := Triple.foldlM (fun done r rest b hl =>
    (hstep done b).bind fun _ => hf done r rest b hl) b
  exact (hloop.bind fun b' => (hstep adapter.records b').bind fun _ => Triple.pure
    fun _ h => h).conseq (fun _ h => h.2) (fun _ _ h => h) fun _ _ h => h

/-- The stage and the open batch hold `records` together. -/
def Batched (records batch : List NormalizedSourceRecord) (w : World) : Prop :=
  ∃ inserted, StageHolds inserted w.stage ∧ inserted ++ batch = records

theorem batched_idle {records batch : List NormalizedSourceRecord} {w w' : World}
    (hq : Idle w w') (h : Batched records batch w) : Batched records batch w' := by
  obtain ⟨n, b, rfl⟩ := hq
  exact h

/-- **One record goes into the batch, and a full batch into the stage.** -/
theorem stageRecord_triple {done all : List NormalizedSourceRecord}
    (s : List NormalizedSourceRecord × Nat) {r : NormalizedSourceRecord}
    (hall : ∀ r' ∈ done ++ [r], r' ∈ all) (n : Nat) :
    Triple (fun w => Batched done s.1 w ∧ s.2 = n) (stageRecord env s r)
      (fun s' w => Batched (done ++ [r]) s'.1 w ∧ s'.2 = n + 1)
      fun e _ => StagingRaises env all e := by
  unfold stageRecord
  simp only
  split
  · rintro w ⟨⟨inserted, hstage, hdone⟩, hn⟩
    have hbatch : ∀ r' ∈ s.1 ++ [r], r' ∈ all := fun r' hr' => hall r' (by
      rw [← hdone, List.append_assoc]
      exact List.mem_append_right _ hr')
    refine ((insertRecords_triple hbatch).bind fun _ => Triple.pure fun w' hw' => ?_) w hstage
    refine ⟨⟨inserted ++ (s.1 ++ [r]), hw', ?_⟩, by omega⟩
    rw [List.append_nil, ← List.append_assoc, hdone]
  · refine Triple.pure fun w hw => ?_
    obtain ⟨⟨inserted, hstage, hdone⟩, hn⟩ := hw
    refine ⟨⟨inserted, hstage, ?_⟩, by omega⟩
    rw [← List.append_assoc, hdone]

/-- One adapter: its records are staged after those done, the last ones in the batch. -/
theorem stageAdapter_triple {done all : List NormalizedSourceRecord} {adapter : SourceAdapter}
    (hsub : ∀ r ∈ done ++ adapter.records, r ∈ all) (s : List NormalizedSourceRecord × Nat) :
    Triple (fun w => Batched done s.1 w ∧ s.2 = done.length) (stageAdapter env s adapter)
      (fun s' w => Batched (done ++ adapter.records) s'.1 w ∧
        s'.2 = (done ++ adapter.records).length)
      fun e _ => StagingRaises env all e := by
  have hloop := yields_adapter env adapter (stageRecord env)
    (fun records s' w => (Batched (done ++ records) s'.1 w ∧ s'.2 = records.length) ∧
      s.2 = done.length) (fun e _ => StagingRaises env all e)
    (fun _ _ _ _ hq h => ⟨⟨batched_idle hq h.1.1, h.1.2⟩, h.2⟩)
    (fun _ _ _ _ _ _ _ h => by
      obtain ⟨rfl, hfaulty⟩ := h
      exact hfaulty)
    (fun records r rest s' hr => by
      have hrec : ∀ r' ∈ done ++ records ++ [r], r' ∈ all := fun r' hr' =>
        hsub r' (by
          rw [hr, ← List.singleton_append, ← List.append_assoc, ← List.append_assoc]
          exact List.mem_append_left _ hr')
      intro w hw
      refine (stageRecord_triple s' hrec records.length w hw.1).mono (fun s'' w' hw' => ?_)
        fun _ _ h => h
      rw [← List.append_assoc, List.length_append, List.length_singleton]
      exact ⟨hw', hw.2⟩) (s.1, 0)
  refine (hloop.conseq (fun w hw => ⟨trivial, ⟨?_, rfl⟩, hw.2⟩) (fun _ _ h => h)
    fun _ _ h => h).bind fun s' => Triple.pure fun w hw => ?_
  · rw [List.append_nil]
    exact hw.1
  · refine ⟨hw.1.1, ?_⟩
    rw [List.length_append, hw.1.2, hw.2]

/-- **After staging, the stage holds what the adapters emitted.** -/
theorem stageSourceRecords_triple (adapters : List SourceAdapter) :
    Triple (fun w => StageHolds [] w.stage) (stageSourceRecords env adapters)
      (fun n w => n = (emitted adapters).length ∧ StageHolds (emitted adapters) w.stage)
      fun e _ => StagingRaises env (emitted adapters) e := by
  have hadapters : ∀ done (adapter : SourceAdapter) rest (s : List NormalizedSourceRecord × Nat),
      adapters = done ++ adapter :: rest →
      Triple (fun w => Batched (emitted done) s.1 w ∧ s.2 = (emitted done).length)
        (stageAdapter env s adapter)
        (fun s' w => Batched (emitted (done ++ [adapter])) s'.1 w ∧
          s'.2 = (emitted (done ++ [adapter])).length)
        fun e _ => StagingRaises env (emitted adapters) e := by
    intro done adapter rest s hl
    have hdone : emitted (done ++ [adapter]) = emitted done ++ adapter.records := by
      simp [emitted]
    rw [hdone]
    refine stageAdapter_triple (fun r hr => ?_) s
    rw [hl, ← List.singleton_append, ← List.append_assoc, emitted, List.flatMap_append]
    have hr' : r ∈ emitted (done ++ [adapter]) := hdone ▸ hr
    exact List.mem_append_left _ hr'
  refine ((Triple.foldlM hadapters ([], 0)).conseq
    (fun w hw => ⟨⟨[], hw, rfl⟩, rfl⟩) (fun _ _ h => h) fun _ _ h => h).bind fun s => ?_
  rintro w ⟨⟨inserted, hstage, hbatch⟩, hn⟩
  simp only
  split
  · rename_i hempty
    rw [List.isEmpty_iff.mp hempty, List.append_nil] at hbatch
    exact ⟨hn, hbatch ▸ hstage⟩
  · have hsub : ∀ r ∈ s.1, r ∈ emitted adapters := fun r hr =>
      hbatch ▸ List.mem_append_right _ hr
    refine ((insertRecords_triple hsub).bind fun _ => Triple.pure fun w' hw' => ?_) w hstage
    exact ⟨hn, hbatch ▸ hw'⟩

/-! ## Reading back -/

section ReadBack

variable {records : List NormalizedSourceRecord}

/-- The metadata of a source id is that of the first record with it. -/
theorem get?_firstSeen (records : List NormalizedSourceRecord) (k : Str) :
    (firstSeen records).get? k =
      (records.find? fun r => decide (r.source.sourceId = k)).map (·.source) := by
  induction records using List.reverseRecOn with
  | nil => rfl
  | append_singleton records r ih =>
    rw [firstSeen_append, List.foldl_cons, List.foldl_nil, Dict.get?_setdefault, List.find?_append]
    by_cases hk : k = r.source.sourceId
    · subst hk
      rw [if_pos rfl, ih]
      cases records.find? fun r' => decide (r'.source.sourceId = r.source.sourceId) <;> simp
    · rw [if_neg hk, ih]
      cases records.find? fun r' => decide (r'.source.sourceId = k) <;> simp [Ne.symm hk]

theorem exists_firstSeen {r : NormalizedSourceRecord} (hr : r ∈ records) :
    ∃ m, (firstSeen records).get? r.source.sourceId = some m := by
  rw [get?_firstSeen]
  have hsome : (records.find? fun r' => decide (r'.source.sourceId = r.source.sourceId)).isSome :=
    List.find?_isSome.mpr ⟨r, hr, decide_eq_true rfl⟩
  obtain ⟨r', hr'⟩ := Option.isSome_iff_exists.mp hsome
  exact ⟨r'.source, by rw [hr', Option.map_some]⟩

theorem sourceId_of_firstSeen {k : Str} {m : SourceMetadata}
    (h : (firstSeen records).get? k = some m) :
    m.sourceId = k ∧ ∃ r ∈ records, r.source.sourceId = k := by
  rw [get?_firstSeen] at h
  obtain ⟨r, hr, rfl⟩ := Option.map_eq_some_iff.mp h
  have hk : r.source.sourceId = k := by simpa using List.find?_some hr
  exact ⟨hk, r, List.mem_of_find?_eq_some hr, hk⟩

/-- The metadata seen stands under its own source id. -/
theorem sourceId_of_mem_firstSeen (records : List NormalizedSourceRecord) :
    ∀ e ∈ (firstSeen records).items, e.2.sourceId = e.1 := fun _ he =>
  (sourceId_of_firstSeen (Dict.mem_items_iff.mp he)).1

@[simp] theorem iinStart_restored (d : Dict Str SourceMetadata) (r : NormalizedSourceRecord) :
    (restored d r).iinStart = r.iinStart := rfl

@[simp] theorem getattr_restored (d : Dict Str SourceMetadata) (r : NormalizedSourceRecord)
    (f : FieldName) : (restored d r).getattr f = r.getattr f := by
  cases f <;> rfl

/-- Staging keeps the source id of a record. -/
theorem sourceId_restored (records : List NormalizedSourceRecord) (r : NormalizedSourceRecord) :
    (restored (firstSeen records) r).source.sourceId = r.source.sourceId := by
  change ((firstSeen records).get? r.source.sourceId |>.getD r.source).sourceId = _
  cases h : (firstSeen records).get? r.source.sourceId with
  | none => rfl
  | some m => exact (sourceId_of_firstSeen h).1

/-- Staging changes nothing that the merge reads. -/
theorem relabels_restored (records : List NormalizedSourceRecord) :
    Relabels (restored (firstSeen records)) where
  iinStart := iinStart_restored _
  rowId r := Prod.ext (sourceId_restored records r) rfl
  getattr := getattr_restored _

/-- Staging keeps what tells records apart. -/
theorem rowId_comp_restored (records : List NormalizedSourceRecord) :
    rowId ∘ restored (firstSeen records) = rowId :=
  funext (relabels_restored records).rowId

/-- **A row decodes to the record it was made of**, with the metadata of its source id. -/
theorem stagedSourceRecord_recordValues {r : NormalizedSourceRecord} {m : SourceMetadata}
    (hm : (firstSeen records).get? r.source.sourceId = some m) (i : Nat) :
    stagedSourceRecord m (recordValues i r) = restored (firstSeen records) r := by
  have hbool : ∀ b : Option Bool,
      ((b.map fun b => if b then (1 : Int) else 0).map fun n => decide (n ≠ 0)) = b := by
    rintro (- | - | -) <;> rfl
  unfold stagedSourceRecord recordValues restored
  rw [hbool, hbool, hm, Option.getD_some]

/-- The rows of the stage, in the order of the `SELECT`, decode to the staged records stably
sorted by `iin_start`. -/
theorem map_sorted_rows {decode : StagedRow → NormalizedSourceRecord}
    (hdecode : ∀ i, ∀ r ∈ records, decode (recordValues i r) = restored (firstSeen records) r)
    (hkey : ∀ row, (decode row).iinStart = row.iinStart) :
    (stableSort stagingOrder (records.mapIdx recordValues)).map decode =
      stableSort NormalizedSourceRecord.iinStart (stagedRecords records) := by
  have hpos : (records.mapIdx recordValues).Pairwise fun a b => a.ordinal < b.ordinal := by
    rw [List.pairwise_iff_getElem]
    intro i j hi hj hij
    simpa [recordValues] using hij
  have hmap : (records.mapIdx recordValues).map decode = stagedRecords records := by
    refine List.ext_getElem (by simp [stagedRecords]) fun i h₁ h₂ => ?_
    simp only [List.getElem_map, List.getElem_mapIdx, stagedRecords]
    exact hdecode i _ (List.getElem_mem _)
  calc (stableSort stagingOrder (records.mapIdx recordValues)).map decode
      = (stableSort StagedRow.iinStart (records.mapIdx recordValues)).map decode :=
        congrArg (List.map decode) (stableSort_position hpos)
    _ = (stableSort (fun row => (decode row).iinStart) (records.mapIdx recordValues)).map
          decode := by simp only [hkey]
    _ = stableSort NormalizedSourceRecord.iinStart (stagedRecords records) := by
        rw [← hmap]
        exact map_stableSort decode _

/-- The loop over the batches that `fetchmany` gives. -/
theorem triple_batches {β : Type} {rows : List StagedRow}
    {decode : StagedRow → NormalizedSourceRecord} {d : Dict Str SourceMetadata}
    {f : β → NormalizedSourceRecord → Run β}
    {Inv : List NormalizedSourceRecord → β → World → Prop} {E : Failure → World → Prop}
    (hstep : ∀ done b, Triple (Inv done b) (stageCall env (pure ())) (fun _ => Inv done b) E)
    (hrow : ∀ row ∈ rows, recordFromRow d row = pure (decode row))
    (hf : ∀ done a rest b, rows.map decode = done ++ a :: rest →
      Triple (Inv done b) (f b a) (fun b' => Inv (done ++ [a]) b') E) (n : Nat) (b : β) :
    Triple (Inv [] b)
      (((Transducer.batches _ n).run [] rows).foldlM (fun b batch => do
        stageCall env (pure ())
        batch.foldlM (fun b row => do f b (← recordFromRow d row)) b) b)
      (fun b' => Inv (rows.map decode) b') E := by
  have hflat : ((Transducer.batches _ n).run [] rows).flatten = rows :=
    Transducer.flatten_run_batches n [] rows
  have hbatch : ∀ done batch rest b, (Transducer.batches _ n).run [] rows = done ++ batch :: rest →
      Triple (Inv (done.flatten.map decode) b)
        (do
          stageCall env (pure ())
          batch.foldlM (fun b row => do f b (← recordFromRow d row)) b)
        (fun b' => Inv ((done ++ [batch]).flatten.map decode) b') E := by
    intro done batch rest b hl
    have hrows : rows = done.flatten ++ (batch ++ rest.flatten) := by
      rw [← hflat, hl, List.flatten_append, List.flatten_cons]
    refine (hstep _ b).bind fun _ => ?_
    have hinner : ∀ done' row rest' b, batch = done' ++ row :: rest' →
        Triple (Inv (done.flatten.map decode ++ done'.map decode) b)
          (do f b (← recordFromRow d row))
          (fun b' => Inv (done.flatten.map decode ++ (done' ++ [row]).map decode) b') E := by
      intro done' row rest' b hl'
      have hmem : row ∈ rows := by
        rw [hrows, hl']
        simp
      rw [hrow row hmem, pure_bind]
      have h := hf (done.flatten.map decode ++ done'.map decode) (decode row)
        ((rest' ++ rest.flatten).map decode) b (by
          rw [hrows, hl']
          simp only [List.map_append, List.map_cons, List.append_assoc, List.cons_append])
      simpa only [List.map_append, List.map_cons, List.map_nil, List.append_assoc] using h
    have h := Triple.foldlM hinner b
    rw [List.map_nil, List.append_nil] at h
    rwa [List.flatten_append, List.flatten_singleton, List.map_append]
  have h := Triple.foldlM hbatch b
  rwa [hflat] at h

/-- **The stage yields the staged records, stably sorted by `iin_start`.** -/
theorem iterRecords_yields (env : Environment) (records : List NormalizedSourceRecord) :
    Yields Idle (Faults env) (fun w => StageHolds records w.stage) (iterRecords env)
      (stableSort NormalizedSourceRecord.iinStart (stagedRecords records)) := by
  intro β f Inv E hidle hown hf b
  have hpure : ∀ done b, Triple (Inv done b) (stageCall env (pure ())) (fun _ => Inv done b) E :=
    fun done b => stageCall_pure_triple env (fun w w' => hidle done b w w') fun hfaulty w hw =>
      hown done b w .raised w (idle_refl w) hw ⟨rfl, hfaulty⟩
  -- the cursor works on the rows it found
  have hcursor : Triple (fun w => StageHolds records w.stage ∧ Inv [] b w)
      (stageCall env (World.stage <$> get))
      (fun stage w => StageHolds records stage ∧ Inv [] b w) E :=
    triple_stageCall env (fun w hw => hw)
      (fun w n running hw => ⟨hw.1, hidle [] b w _ ⟨n, running, rfl⟩ hw.2⟩)
      (fun hfaulty w hw => hown [] b w .raised w (idle_refl w) hw.2 ⟨rfl, hfaulty⟩)
      fun hfaulty _ w hw => hown [] b w .raised w (idle_refl w) hw.2 ⟨rfl, hfaulty⟩
  refine hcursor.bind fun stage => ?_
  rintro w ⟨hstage, hinv⟩
  let decode : StagedRow → NormalizedSourceRecord := fun row =>
    stagedSourceRecord
      (((firstSeen records).get? row.sourceId).getD ⟨row.sourceId, [], [], none, none⟩) row
  have hitem : ∀ r ∈ records, ∀ i, ∃ m,
      (firstSeen records).get? r.source.sourceId = some m ∧
        decode (recordValues i r) = stagedSourceRecord m (recordValues i r) := by
    intro r hr i
    obtain ⟨m, hm⟩ := exists_firstSeen hr
    have hm' : (firstSeen records).get? (recordValues i r).sourceId = some m := hm
    exact ⟨m, hm, by simp only [decode, hm', Option.getD_some]⟩
  have hrow : ∀ row ∈ stableSort stagingOrder stage.rows,
      recordFromRow stage.sourceMetadataById row = pure (decode row) := by
    intro row hrow
    rw [(perm_stableSort _ _).mem_iff, hstage.rows] at hrow
    obtain ⟨i, hi, rfl⟩ := List.mem_mapIdx.mp hrow
    obtain ⟨m, hm, hdec⟩ := hitem _ (List.getElem_mem hi) i
    have hm' : (firstSeen records).get? (recordValues i records[i]).sourceId = some m := hm
    rw [hstage.metadata, hdec]
    unfold recordFromRow
    rw [getItem_eq hm', pure_bind]
  have hl : stableSort NormalizedSourceRecord.iinStart (stagedRecords records) =
      (stableSort stagingOrder stage.rows).map decode := by
    rw [hstage.rows]
    refine (map_sorted_rows (fun i r hr => ?_) fun _ => rfl).symm
    obtain ⟨m, hm, hdec⟩ := hitem r hr i
    rw [hdec, stagedSourceRecord_recordValues hm]
  rw [hl] at hf ⊢
  refine ((triple_batches hpure hrow hf env.stagingFetchBatchSize b).bind fun b' => ?_) w hinv
  exact (hpure _ b').bind fun _ => (hpure _ b').bind fun _ => Triple.pure fun _ h => h

end ReadBack

end CardBinData
