import CardBinData.Staging

/-!
# What `replace_all` writes

`Loaded done db`: the records of `done` are in `bin_records`, one row each and in order, and
`bin_record_sources` holds exactly the rows that link them to their sources, up to the order of the
two statements of a batch. `bin_records` and `done` are read side by side (`done.zip`), so no
lookup by key or id occurs in the invariant.

A batch extends `Loaded` (`insertMergedRecordBatch_triple`): its ids are read back from a
dictionary whose keys are distinct, so each provenance row gets the id of its own record. Over all
batches and whatever their size this gives `insertStreamedRecords_triple`, and with the three
deletes `replaceAll_triple`. A raise is a fault of some step, or a provenance row that repeats the
unique columns of another; `R` is what a caller concludes from it.
-/

namespace CardBinData

open Library

variable {α : Type} {env : Environment}

/-- Nothing is said about a raise. -/
abbrev Anything : Failure → World → Prop := fun _ _ => True

variable {R : Failure → Prop} (hfault : Faulty env → R .raised)

/-! ## Statements -/

include hfault in
/-- A statement does to the session what its effect does. -/
theorem execute_triple {statement : Statement} {x : Run α} {db : Database}
    {Q : α → Database → Prop}
    (h : Triple (fun w => w.session = db) x (fun a w => Q a w.session) fun e _ => R e) :
    Triple (fun w => w.session = db) (execute env statement x) (fun a w => Q a w.session)
      fun e _ => R e :=
  have hlog : Triple (fun w => w.session = db)
      (modify fun w => { w with executed := w.executed ++ [statement] } : Run Unit)
      (fun _ w => w.session = db) (fun e _ => R e) := Triple.modify fun _ hw => hw
  hlog.bind fun _ =>
    triple_step env h (fun _ _ hw => hw) (fun hf _ _ => hfault hf) fun hf _ _ _ => hfault hf

/-- The dictionary made of `RETURNING key, id` finds the id of every new row. -/
theorem get?_returned {ν ρ : Type} {mk : ν → Nat → ρ} {values : List ν} {ids : List Nat}
    (key : ν → Str) (k : ρ → Str) (i : ρ → Nat) {pairs : List (Str × Nat)}
    (hk : ∀ a n, k (mk a n) = key a) (hi : ∀ a n, i (mk a n) = n)
    (hlen : ids.length = values.length) (hnd : (values.map key).Nodup)
    (hperm : pairs.Perm ((values.map key).zip ids)) {r : ρ} (hr : r ∈ newRows mk values ids) :
    (Dict.ofPairs pairs).get? (k r) = some (i r) := by
  have hfst : ((values.map key).zip ids).map Prod.fst = values.map key :=
    List.map_fst_zip (by rw [List.length_map]; exact hlen.ge)
  have hnd' : (pairs.map Prod.fst).Nodup := by
    rw [(hperm.map Prod.fst).nodup_iff, hfst]
    exact hnd
  rw [Dict.get?_ofPairs hnd', hperm.mem_iff, ← map_pair_newRows hk hi]
  exact List.mem_map.mpr ⟨r, hr, rfl⟩

/-- `db'` has new records with the values `rows`, under fresh ids that `ids` finds by
`iin_start`. -/
def BatchInserted (rows : List BinRecordValues) (db : Database) (ids : Dict Str Nat)
    (db' : Database) : Prop :=
  ∃ new : List BinRecordModel, db' = { db with binRecords := db.binRecords ++ new } ∧
    new.map (·.toBinRecordValues) = rows ∧ (new.map (·.id)).Nodup ∧
    (∀ r ∈ new, r.id ∉ db.binRecords.map (·.id)) ∧
    ∀ r ∈ new, ids.get? r.iinStart = some r.id

/-- An `INSERT … RETURNING` of records under fresh ids. -/
theorem batchInserted_newRows {rows : List BinRecordValues} {ids : List Nat}
    {returned : List (Str × Nat)} {db : Database} (hlen : ids.length = rows.length)
    (hids : ids.Nodup) (hfresh : ∀ i ∈ ids, i ∉ db.binRecords.map (·.id))
    (hnd : (rows.map (·.iinStart)).Nodup)
    (hreturned : returned.Perm ((rows.map (·.iinStart)).zip ids)) :
    BatchInserted rows db (Dict.ofPairs returned)
      { db with binRecords := db.binRecords ++ newRows BinRecordModel.mk rows ids } := by
  have hmap : (newRows BinRecordModel.mk rows ids).map (·.id) = ids :=
    map_ids_newRows hlen fun _ _ => rfl
  refine ⟨newRows BinRecordModel.mk rows ids, rfl, map_values_newRows hlen fun _ _ => rfl, ?_,
    fun r hr => ?_, fun r hr => ?_⟩
  · rw [hmap]
    exact hids
  · exact hfresh r.id (hmap ▸ List.mem_map_of_mem (f := BinRecordModel.id) hr)
  · exact get?_returned (·.iinStart) (·.iinStart) (·.id) (fun _ _ => rfl) (fun _ _ => rfl) hlen hnd
      hreturned hr

include hfault in
theorem insertBinRecordBatch_triple {rows : List BinRecordValues}
    (hnd : (rows.map (·.iinStart)).Nodup) (db : Database) :
    Triple (fun w => w.session = db) (insertBinRecordBatch env rows)
      (fun ids w => BatchInserted rows db ids w.session) fun e _ => R e := by
  refine execute_triple hfault (Triple.getBind fun w hw => ?_)
  subst hw
  exact batchInserted_newRows (env.length_newIds _ _ _) (env.nodup_newIds _ _ _)
    (env.newIds_fresh w.clock (w.session.binRecords.map (·.id)) rows.length) hnd
    (env.returned_perm _ _)

/-- `db'` has new provenance rows with the values `rows`, in some order, and breaks no unique
constraint on them. -/
def SourcesInserted (rows : List BinRecordSourceValues) (db db' : Database) : Prop :=
  ∃ new : List BinRecordSourceModel,
    db' = { db with binRecordSources := db.binRecordSources ++ new } ∧
    (new.map (·.toBinRecordSourceValues)).Perm rows ∧
    (UqBinRecordSources db.binRecordSources → UqBinRecordSources db'.binRecordSources)

theorem sourcesInserted_newRows {rows : List BinRecordSourceValues} {ids : List Nat}
    {db : Database} (hlen : ids.length = rows.length)
    (hunique : UqBinRecordSources
      (db.binRecordSources ++ newRows BinRecordSourceModel.mk rows ids)) :
    SourcesInserted rows db
      { db with binRecordSources := db.binRecordSources ++
          newRows BinRecordSourceModel.mk rows ids } :=
  ⟨_, rfl, .of_eq (map_values_newRows hlen fun _ _ => rfl), fun _ => hunique⟩

theorem SourcesInserted.append {rows rows' : List BinRecordSourceValues} {db db' db'' : Database}
    (h : SourcesInserted rows db db') (h' : SourcesInserted rows' db' db'') :
    SourcesInserted (rows ++ rows') db db'' := by
  obtain ⟨new, rfl, hnew, hunique⟩ := h
  obtain ⟨new', rfl, hnew', hunique'⟩ := h'
  refine ⟨new ++ new', by simp only [List.append_assoc], ?_, fun h => hunique' (hunique h)⟩
  rw [List.map_append]
  exact hnew.append hnew'

theorem SourcesInserted.perm {rows rows' : List BinRecordSourceValues} {db db' : Database}
    (h : SourcesInserted rows db db') (hperm : rows.Perm rows') :
    SourcesInserted rows' db db' := by
  obtain ⟨new, hdb, hnew, hunique⟩ := h
  exact ⟨new, hdb, hnew.trans hperm, hunique⟩

theorem sourcesInserted_nil (db : Database) : SourcesInserted [] db db :=
  ⟨[], by rw [List.append_nil], List.Perm.nil, fun h => h⟩

/-- The unique columns of provenance rows. -/
abbrev uniqueKeys (rows : List BinRecordSourceValues) : List (Nat × Nat × Str) :=
  rows.map (·.uniqueKey)

/-- The unique columns of a table. -/
abbrev Database.provenanceKeys (db : Database) : List (Nat × Nat × Str) :=
  db.binRecordSources.map (·.uniqueKey)

/-- Inserted rows occupy their keys. -/
theorem SourcesInserted.keys {rows : List BinRecordSourceValues} {db db' : Database}
    (h : SourcesInserted rows db db') :
    db'.provenanceKeys.Perm (db.provenanceKeys ++ uniqueKeys rows) := by
  obtain ⟨new, rfl, hnew, -⟩ := h
  have hkeys := hnew.map BinRecordSourceValues.uniqueKey
  rw [List.map_map] at hkeys
  rw [Database.provenanceKeys, List.map_append]
  exact hkeys.append_left _

section Provenance

include hfault

theorem insertRecordSources_triple (rows : List BinRecordSourceValues) (db : Database)
    (hconflict : ¬ (db.provenanceKeys ++ uniqueKeys rows).Nodup → R .integrityError) :
    Triple (fun w => w.session = db) (insertRecordSources env rows)
      (fun _ w => SourcesInserted rows db w.session) fun e _ => R e := by
  refine execute_triple hfault (Triple.getBind fun w hw => ?_)
  subst hw
  have hlen := env.length_newIds w.clock (w.session.binRecordSources.map (·.id)) rows.length
  have hvalues : (newRows BinRecordSourceModel.mk rows (env.newIds w.clock
      (w.session.binRecordSources.map (·.id)) rows.length)).map (·.toBinRecordSourceValues) =
      rows := map_values_newRows hlen fun _ _ => rfl
  simp only
  split
  · rename_i hunique
    exact sourcesInserted_newRows hlen hunique
  · rename_i hclash
    refine hconflict fun hnd => hclash ?_
    rw [uniqueKeys, ← hvalues, List.map_map] at hnd
    unfold UqBinRecordSources
    rwa [List.map_append]

/-- Both statements of a batch together insert its rows. -/
theorem insertRecordSourceBatch_triple (rows : List BinRecordSourceValues) (db : Database)
    (hconflict : ¬ (db.provenanceKeys ++ uniqueKeys rows).Nodup → R .integrityError) :
    Triple (fun w => w.session = db) (insertRecordSourceBatch env rows)
      (fun _ w => SourcesInserted rows db w.session) fun e _ => R e := by
  have hifAny : ∀ (rows : List BinRecordSourceValues) (db : Database),
      (¬ (db.provenanceKeys ++ uniqueKeys rows).Nodup → R .integrityError) →
      Triple (fun w => w.session = db) (insertRecordSourcesIfAny env rows)
        (fun _ w => SourcesInserted rows db w.session) fun e _ => R e := by
    intro rows db hconflict
    unfold insertRecordSourcesIfAny
    split
    · rename_i hempty
      rw [List.isEmpty_iff.mp hempty]
      exact Triple.pure fun w hw => hw ▸ sourcesInserted_nil db
    · exact insertRecordSources_triple hfault rows db hconflict
  have hperm : (rows.filter (!·.isJsonText) ++ rows.filter (·.isJsonText)).Perm rows :=
    List.perm_append_comm.trans (List.filter_append_perm _ rows)
  have hkeys : (db.provenanceKeys ++ uniqueKeys (rows.filter (!·.isJsonText)) ++
      uniqueKeys (rows.filter (·.isJsonText))).Perm (db.provenanceKeys ++ uniqueKeys rows) := by
    rw [List.append_assoc, uniqueKeys, uniqueKeys, ← List.map_append]
    exact (hperm.map _).append_left _
  have hmapping : ¬ (db.provenanceKeys ++ uniqueKeys (rows.filter (!·.isJsonText))).Nodup →
      R .integrityError := fun hnot => hconflict fun hnd =>
    hnot (hkeys.nodup_iff.mpr hnd).of_append_left
  refine (hifAny (rows.filter (!·.isJsonText)) db hmapping).bind fun _ => ?_
  intro w hw
  have hjson : ¬ (w.session.provenanceKeys ++ uniqueKeys (rows.filter (·.isJsonText))).Nodup →
      R .integrityError := fun hnot => hconflict fun hnd => hnot
    ((hw.keys.append_right _).nodup_iff.mpr (hkeys.nodup_iff.mpr hnd))
  exact (hifAny (rows.filter (·.isJsonText)) w.session hjson w rfl).mono
    (fun _ _ h => (hw.append h).perm hperm) fun _ _ h => h

/-- The batches of a list of rows insert all of them. -/
theorem insertRecordSourceRows_triple (rows : List BinRecordSourceValues) (db : Database)
    (hconflict : ¬ (db.provenanceKeys ++ uniqueKeys rows).Nodup → R .integrityError) :
    Triple (fun w => w.session = db) (insertRecordSourceRows env (Gen.ofList rows))
      (fun _ w => SourcesInserted rows db w.session) fun e _ => R e := by
  have hstep : ∀ done batch rest, rows = done ++ batch ++ rest →
      Triple (fun w => SourcesInserted done db w.session) (insertRecordSourceBatch env batch)
        (fun _ w => SourcesInserted (done ++ batch) db w.session) fun e _ => R e := by
    intro done batch rest hrows w hw
    have hclash : ¬ (w.session.provenanceKeys ++ uniqueKeys batch).Nodup →
        R .integrityError := fun hnot => hconflict fun hnd => hnot ?_
    · exact (insertRecordSourceBatch_triple hfault batch w.session hclash w rfl).mono
        (fun _ _ h => hw.append h) fun _ _ h => h
    · refine (hw.keys.append_right _).nodup_iff.mpr ?_
      rw [hrows, uniqueKeys, List.map_append, List.map_append, ← List.append_assoc,
        ← List.append_assoc] at hnd
      exact hnd.of_append_left
  exact ((yields_ofList (fun _ => True) rows).forEach_batches
    (fun _ _ _ hs h => hs ▸ h) (fun _ _ _ _ _ _ h => h.elim) hstep
    env.recordSourceBatchSize).conseq
    (fun w hw => ⟨trivial, hw ▸ sourcesInserted_nil db⟩) (fun _ _ h => h) fun _ _ h => h

end Provenance

/-! ## Batches of records -/

section Batches

variable {dataSourceIds : Dict Str Nat} {importedAt : Int} {storeRawPayload : Bool}

/-- The provenance rows of merged records, each linked to the row of its record. -/
def linkedSources (dataSourceIds : Dict Str Nat) (importedAt : Int) (storeRawPayload : Bool)
    (pairs : List (MergedSourceRecord × BinRecordModel)) : List BinRecordSourceValues :=
  pairs.flatMap fun p => p.1.sources.map fun s =>
    recordSourceValue p.2.id ((dataSourceIds.get? s.source.sourceId).getD 0) s importedAt
      storeRawPayload

/-- Every source of `records` is known. -/
def SourcesKnown (dataSourceIds : Dict Str Nat) (records : List MergedSourceRecord) : Prop :=
  ∀ m ∈ records, ∀ s ∈ m.sources, ∃ i, dataSourceIds.get? s.source.sourceId = some i

/-- Where every id is found, the generator of the provenance rows does nothing but yield them. -/
theorem recordSourceRows_eq {records : List MergedSourceRecord} {new : List BinRecordModel}
    {binRecordIds : Dict Str Nat}
    (hids : List.Forall₂ (fun m r => binRecordIds.get? m.record.iinStart = some r.id) records new)
    (hknown : SourcesKnown dataSourceIds records) :
    recordSourceRows records binRecordIds dataSourceIds importedAt storeRawPayload =
      Gen.ofList (linkedSources dataSourceIds importedAt storeRawPayload (records.zip new)) := by
  unfold recordSourceRows Gen.ofList
  congr 1
  funext β f b
  induction hids generalizing b with
  | nil => rfl
  | @cons m r records new hid _ ih =>
    rw [List.foldlM_cons, List.zip_cons_cons, linkedSources, List.flatMap_cons,
      List.foldlM_append, List.foldlM_map]
    have hrow : ∀ (sources : List NormalizedSourceRecord),
        (∀ s ∈ sources, ∃ i, dataSourceIds.get? s.source.sourceId = some i) → ∀ b,
        (sources.foldlM (fun b s => do
          let binRecordId ← getItem binRecordIds m.record.iinStart
          let dataSourceId ← getItem dataSourceIds s.source.sourceId
          f b (recordSourceValue binRecordId dataSourceId s importedAt storeRawPayload)) b) =
        sources.foldlM (fun b s => f b (recordSourceValue r.id
          ((dataSourceIds.get? s.source.sourceId).getD 0) s importedAt storeRawPayload)) b := by
      intro sources
      rw [getItem_eq hid]
      induction sources with
      | nil => exact fun _ _ => rfl
      | cons s sources ihs =>
        intro hsrc b
        obtain ⟨i, hi⟩ := hsrc s List.mem_cons_self
        rw [List.foldlM_cons, List.foldlM_cons, getItem_eq hi, hi]
        simp only [pure_bind, Option.getD_some] at ihs ⊢
        exact bind_congr fun b' => ihs (fun s' hs' => hsrc s' (List.mem_cons_of_mem s hs')) b'
    rw [hrow _ (hknown m List.mem_cons_self)]
    exact bind_congr fun b' => ih (fun m' hm' => hknown m' (List.mem_cons_of_mem m hm')) b'

/-- **The invariant of the streamed insert.** -/
structure Loaded (dataSourceIds : Dict Str Nat) (importedAt : Int) (storeRawPayload : Bool)
    (dataSources : List DataSourceModel) (done : List MergedSourceRecord) (db : Database) :
    Prop where
  dataSources : db.dataSources = dataSources
  records : db.binRecords.map (·.toBinRecordValues) = done.map fun m => binRecordValues m.record
  ids : (db.binRecords.map (·.id)).Nodup
  sources : (db.binRecordSources.map (·.toBinRecordSourceValues)).Perm
    (linkedSources dataSourceIds importedAt storeRawPayload (done.zip db.binRecords))
  unique : UqBinRecordSources db.binRecordSources

/-- Before the first batch there are data sources only. -/
theorem loaded_nil (dataSources : List DataSourceModel) :
    Loaded dataSourceIds importedAt storeRawPayload dataSources []
      { Database.empty with dataSources := dataSources } :=
  ⟨rfl, rfl, List.nodup_nil, List.Perm.nil, List.nodup_nil⟩

theorem Loaded.length {dataSources : List DataSourceModel} {done : List MergedSourceRecord}
    {db : Database} (h : Loaded dataSourceIds importedAt storeRawPayload dataSources done db) :
    db.binRecords.length = done.length := by
  have hlen := congrArg List.length h.records
  rwa [List.length_map, List.length_map] at hlen

/-- Rows and records with the same values stand side by side. -/
theorem forall₂_of_map_eq {records : List MergedSourceRecord} {new : List BinRecordModel}
    (h : new.map (·.toBinRecordValues) = records.map fun m => binRecordValues m.record) :
    List.Forall₂ (fun m r => r.toBinRecordValues = binRecordValues m.record) records new := by
  have heq : List.Forall₂ Eq (records.map fun m => binRecordValues m.record)
      (new.map (·.toBinRecordValues)) := List.forall₂_eq_eq_eq ▸ h.symm
  rw [List.forall₂_map_left_iff, List.forall₂_map_right_iff] at heq
  exact heq.imp fun _ _ h => h.symm

/-- Rows have the keys of the records they were made of. -/
theorem nodup_iinStart_of_values {records : List MergedSourceRecord} {rows : List BinRecordModel}
    (h : rows.map (·.toBinRecordValues) = records.map fun m => binRecordValues m.record)
    (hkeys : (records.map (·.record.iinStart)).Nodup) : (rows.map (·.iinStart)).Nodup := by
  have hmap := congrArg (List.map BinRecordValues.iinStart) h
  rw [List.map_map, List.map_map] at hmap
  exact hmap ▸ hkeys

/-- Records with distinct keys are inserted under distinct keys. -/
theorem nodup_iinStart_rows {batch : List MergedSourceRecord}
    (h : (batch.map (·.record.iinStart)).Nodup) :
    ((batch.map fun m => binRecordValues m.record).map (·.iinStart)).Nodup := by
  rw [List.map_map]
  exact h

/-- The id of each new row is found by the key of its record. -/
theorem forall₂_get? {batch : List MergedSourceRecord} {new : List BinRecordModel}
    {ids : Dict Str Nat}
    (hvalues : new.map (·.toBinRecordValues) = batch.map fun m => binRecordValues m.record)
    (hget : ∀ r ∈ new, ids.get? r.iinStart = some r.id) :
    List.Forall₂ (fun m r => ids.get? m.record.iinStart = some r.id) batch new := by
  have hpairs := forall₂_of_map_eq hvalues
  rw [List.forall₂_iff_zip] at hpairs ⊢
  refine ⟨hpairs.1, fun {m r} hmr => ?_⟩
  have hkey : r.iinStart = m.record.iinStart := congrArg BinRecordValues.iinStart (hpairs.2 hmr)
  rw [← hkey]
  exact hget r (List.of_mem_zip hmr).2

/-- What the unique constraint sees of the contributions to merged records: the record, the source
and the row. -/
def contributions (merged : List MergedSourceRecord) : List (Str × Str × Str) :=
  merged.flatMap fun m => m.sources.map fun s => (m.record.iinStart, rowId s)

/-- Different sources have different ids. -/
def SourcesDistinct (dataSourceIds : Dict Str Nat) (records : List MergedSourceRecord) : Prop :=
  ∀ m ∈ records, ∀ s ∈ m.sources, ∀ m' ∈ records, ∀ s' ∈ m'.sources,
    (dataSourceIds.get? s.source.sourceId).getD 0 =
      (dataSourceIds.get? s'.source.sourceId).getD 0 → s.source.sourceId = s'.source.sourceId

/-- **The unique columns tell the provenance rows apart exactly when the contributions differ.** -/
theorem nodup_linkedSources_iff {merged : List MergedSourceRecord} {rows : List BinRecordModel}
    (hvalues : rows.map (·.toBinRecordValues) = merged.map fun m => binRecordValues m.record)
    (hids : (rows.map (·.id)).Nodup) (hkeys : (merged.map (·.record.iinStart)).Nodup)
    (hdistinct : SourcesDistinct dataSourceIds merged) (importedAt : Int)
    (storeRawPayload : Bool) :
    (uniqueKeys (linkedSources dataSourceIds importedAt storeRawPayload
      (merged.zip rows))).Nodup ↔ (contributions merged).Nodup := by
  have hlen : rows.length = merged.length := by
    have hlen := congrArg List.length hvalues
    rwa [List.length_map, List.length_map] at hlen
  have hrecord : ∀ p ∈ merged.zip rows, p.2.iinStart = p.1.record.iinStart := fun p hp =>
    congrArg BinRecordValues.iinStart
      ((List.forall₂_iff_zip.mp (forall₂_of_map_eq hvalues)).2 hp)
  have hstarts : (rows.map (·.iinStart)).Nodup := nodup_iinStart_of_values hvalues hkeys
  let all := (merged.zip rows).flatMap fun p => p.1.sources.map fun s => (p, s)
  have hmem : ∀ t ∈ all, t.1 ∈ merged.zip rows ∧ t.2 ∈ t.1.1.sources := by
    rintro ⟨p, s⟩ ht
    obtain ⟨p', hp', hs⟩ := List.mem_flatMap.mp ht
    obtain ⟨s', hs', heq⟩ := List.mem_map.mp hs
    obtain ⟨rfl, rfl⟩ := Prod.mk.inj heq
    exact ⟨hp', hs'⟩
  have hcontributions : contributions merged =
      all.map fun t => (t.1.1.record.iinStart, rowId t.2) := by
    have hzip : (merged.zip rows).map Prod.fst = merged := List.map_fst_zip hlen.ge
    unfold contributions
    conv_lhs => rw [← hzip]
    simp only [all, List.flatMap_map, List.map_flatMap, List.map_map]
    rfl
  have hunique : uniqueKeys (linkedSources dataSourceIds importedAt storeRawPayload
      (merged.zip rows)) = all.map fun t => (t.1.2.id,
        (dataSourceIds.get? t.2.source.sourceId).getD 0, t.2.rowKey) := by
    simp only [all, uniqueKeys, linkedSources, List.map_flatMap, List.map_map]
    rfl
  rw [hcontributions, hunique, List.Nodup, List.Nodup, List.pairwise_map, List.pairwise_map]
  refine List.Pairwise.iff_of_mem fun {t t'} ht ht' => not_congr ?_
  obtain ⟨hp, hs⟩ := hmem t ht
  obtain ⟨hp', hs'⟩ := hmem t' ht'
  simp only [Prod.mk.injEq, rowId]
  refine and_congr ⟨fun hid => ?_, fun hkey => ?_⟩ (and_congr_left fun _ =>
    ⟨hdistinct _ (List.of_mem_zip hp).1 _ hs _ (List.of_mem_zip hp').1 _ hs', fun hsid => ?_⟩)
  · rw [← hrecord _ hp, ← hrecord _ hp',
      List.inj_on_of_nodup_map hids (List.of_mem_zip hp).2 (List.of_mem_zip hp').2 hid]
  · rw [← hrecord _ hp, ← hrecord _ hp'] at hkey
    rw [List.inj_on_of_nodup_map hstarts (List.of_mem_zip hp).2 (List.of_mem_zip hp').2 hkey]
  · rw [hsid]

section Batch

variable {dataSources : List DataSourceModel} {done batch : List MergedSourceRecord}
  {new : List BinRecordModel} {db : Database}
  (h : Loaded dataSourceIds importedAt storeRawPayload dataSources done db)
include h

/-- The provenance rows of a batch stand after those before it. -/
theorem Loaded.linkedSources_append :
    linkedSources dataSourceIds importedAt storeRawPayload
        ((done ++ batch).zip (db.binRecords ++ new)) =
      linkedSources dataSourceIds importedAt storeRawPayload (done.zip db.binRecords) ++
        linkedSources dataSourceIds importedAt storeRawPayload (batch.zip new) := by
  rw [List.zip_append h.length.symm, linkedSources, List.flatMap_append]
  rfl

theorem Loaded.append_values
    (hvalues : new.map (·.toBinRecordValues) = batch.map fun m => binRecordValues m.record) :
    (db.binRecords ++ new).map (·.toBinRecordValues) =
      (done ++ batch).map fun m => binRecordValues m.record := by
  rw [List.map_append, List.map_append, h.records, hvalues]

theorem Loaded.append_ids (hids : (new.map (·.id)).Nodup)
    (hfresh : ∀ r ∈ new, r.id ∉ db.binRecords.map (·.id)) :
    ((db.binRecords ++ new).map (·.id)).Nodup := by
  rw [List.map_append]
  refine List.nodup_append.mpr ⟨h.ids, hids, fun a ha b hb => ?_⟩
  obtain ⟨r, hr, rfl⟩ := List.mem_map.mp hb
  exact fun he => hfresh r hr (he ▸ ha)

/-- The records of a batch, and then its provenance rows, extend the invariant. -/
theorem Loaded.extend
    (hvalues : new.map (·.toBinRecordValues) = batch.map fun m => binRecordValues m.record)
    (hids : (new.map (·.id)).Nodup) (hfresh : ∀ r ∈ new, r.id ∉ db.binRecords.map (·.id))
    {db' : Database}
    (hsources : SourcesInserted
      (linkedSources dataSourceIds importedAt storeRawPayload (batch.zip new))
      { db with binRecords := db.binRecords ++ new } db') :
    Loaded dataSourceIds importedAt storeRawPayload dataSources (done ++ batch) db' := by
  obtain ⟨newSources, rfl, hperm, hunique⟩ := hsources
  exact
    { dataSources := h.dataSources
      records := h.append_values hvalues
      ids := h.append_ids hids hfresh
      sources := by
        rw [List.map_append, h.linkedSources_append]
        exact h.sources.append hperm
      unique := hunique h.unique }

/-- A batch is inserted without a clash when the contributions so far differ. -/
theorem Loaded.nodup_provenanceKeys_append
    (hvalues : (db.binRecords ++ new).map (·.toBinRecordValues) =
      (done ++ batch).map fun m => binRecordValues m.record)
    (hids : ((db.binRecords ++ new).map (·.id)).Nodup)
    (hnd : ((done ++ batch).map (·.record.iinStart)).Nodup)
    (hdistinct : SourcesDistinct dataSourceIds (done ++ batch))
    (hcontributions : (contributions (done ++ batch)).Nodup) :
    (db.provenanceKeys ++ uniqueKeys (linkedSources dataSourceIds importedAt storeRawPayload
      (batch.zip new))).Nodup := by
  have hold := h.sources.map BinRecordSourceValues.uniqueKey
  rw [List.map_map] at hold
  have hall := (nodup_linkedSources_iff hvalues hids hnd hdistinct importedAt
    storeRawPayload).mpr hcontributions
  rw [h.linkedSources_append, uniqueKeys, List.map_append] at hall
  exact (hold.append_right _).nodup_iff.mpr hall

end Batch

include hfault in
/-- **A batch extends the invariant.** -/
theorem insertMergedRecordBatch_triple {dataSources : List DataSourceModel}
    {done batch : List MergedSourceRecord}
    (hnd : ((done ++ batch).map (·.record.iinStart)).Nodup)
    (hknown : SourcesKnown dataSourceIds batch)
    (hdistinct : SourcesDistinct dataSourceIds (done ++ batch))
    (hconflict : ¬ (contributions (done ++ batch)).Nodup → R .integrityError) :
    Triple (fun w => Loaded dataSourceIds importedAt storeRawPayload dataSources done w.session)
      (insertMergedRecordBatch env batch dataSourceIds importedAt storeRawPayload)
      (fun _ w =>
        Loaded dataSourceIds importedAt storeRawPayload dataSources (done ++ batch) w.session)
      fun e _ => R e := by
  intro w hw
  have hkeys : (batch.map (·.record.iinStart)).Nodup := by
    rw [List.map_append] at hnd
    exact hnd.of_append_right
  refine ((insertBinRecordBatch_triple hfault (nodup_iinStart_rows hkeys) w.session).bind
    fun ids => ?_) w rfl
  rintro w' ⟨new, hdb, hvalues, hids, hfresh, hget⟩
  have hsame : w'.session.binRecordSources = w.session.binRecordSources := by rw [hdb]
  have hclash : ¬ (w'.session.provenanceKeys ++ uniqueKeys (linkedSources dataSourceIds importedAt
      storeRawPayload (batch.zip new))).Nodup → R .integrityError := fun hnot =>
    hconflict fun hcontributions => hnot (by
      rw [Database.provenanceKeys, hsame]
      exact hw.nodup_provenanceKeys_append (hw.append_values hvalues) (hw.append_ids hids hfresh)
        hnd hdistinct hcontributions)
  rw [recordSourceRows_eq (forall₂_get? hvalues hget) hknown]
  refine (insertRecordSourceRows_triple hfault _ w'.session hclash w' rfl).mono
    (fun _ w'' hw'' => ?_) fun _ _ h => h
  exact hw.extend hvalues hids hfresh (hdb ▸ hw'')

include hfault in
/-- All batches together load what the stream yields, when each is inserted from a state that
satisfies the invariant as `_insert_merged_record_batch` inserts it. -/
theorem insertBatches_triple {P : World → Prop} {records : Gen Run MergedSourceRecord}
    {merged : List MergedSourceRecord}
    (hyields : Yields Quiet (Faults env) P records merged)
    (hnd : (merged.map (·.record.iinStart)).Nodup) (hknown : SourcesKnown dataSourceIds merged)
    (hdistinct : SourcesDistinct dataSourceIds merged)
    (hconflict : ¬ (contributions merged).Nodup → R .integrityError)
    {dataSources : List DataSourceModel} {body : List MergedSourceRecord → Run Unit}
    (hbody : ∀ done batch rest, merged = done ++ batch ++ rest → ∀ w,
      Loaded dataSourceIds importedAt storeRawPayload dataSources done w.session →
      body batch w = insertMergedRecordBatch env batch dataSourceIds importedAt storeRawPayload w) :
    Triple (fun w => P w ∧
        Loaded dataSourceIds importedAt storeRawPayload dataSources [] w.session)
      ((records.transduce (Transducer.batches _ env.insertBatchSize)).forEach body)
      (fun _ w => Loaded dataSourceIds importedAt storeRawPayload dataSources merged w.session)
      fun e _ => R e := by
  have hstep : ∀ done batch rest, merged = done ++ batch ++ rest →
      Triple (fun w => Loaded dataSourceIds importedAt storeRawPayload dataSources done w.session)
        (body batch)
        (fun _ w =>
          Loaded dataSourceIds importedAt storeRawPayload dataSources (done ++ batch) w.session)
        fun e _ => R e := by
    intro done batch rest hmerged w hw
    have hmem : ∀ m ∈ done ++ batch, m ∈ merged := fun m hm =>
      hmerged ▸ List.mem_append_left _ hm
    have hsublist : (done ++ batch).Sublist merged := by
      rw [hmerged]
      exact List.sublist_append_left _ _
    have hclash : ¬ (contributions (done ++ batch)).Nodup → R .integrityError :=
      fun hnot => hconflict fun hall => hnot (by
        rw [hmerged, contributions, List.flatMap_append] at hall
        exact hall.of_append_left)
    rw [hbody done batch rest hmerged w hw]
    exact insertMergedRecordBatch_triple hfault (hnd.sublist (hsublist.map _))
      (fun m hm => hknown m (hmem m (List.mem_append_right _ hm)))
      (fun m hm s hs m' hm' s' hs' => hdistinct m (hmem m hm) s hs m' (hmem m' hm') s' hs')
      hclash w hw
  have hloop := hyields.forEach_batches (fun _ w w' hq h => by
      obtain ⟨n, b, c, rfl⟩ := hq
      exact h) (fun _ _ _ _ _ _ h => by
      obtain ⟨rfl, hf⟩ := h
      exact hfault hf) hstep env.insertBatchSize
  exact hloop

include hfault in
/-- **All batches together load what the stream yields**, whatever the batch size. -/
theorem insertStreamedRecords_triple {P : World → Prop} {records : Gen Run MergedSourceRecord}
    {merged : List MergedSourceRecord}
    (hyields : Yields Quiet (Faults env) P records merged)
    (hnd : (merged.map (·.record.iinStart)).Nodup) (hknown : SourcesKnown dataSourceIds merged)
    (hdistinct : SourcesDistinct dataSourceIds merged)
    (hconflict : ¬ (contributions merged).Nodup → R .integrityError)
    (dataSources : List DataSourceModel) :
    Triple (fun w => P w ∧
        Loaded dataSourceIds importedAt storeRawPayload dataSources [] w.session)
      (insertStreamedRecords env records dataSourceIds importedAt storeRawPayload)
      (fun _ w => Loaded dataSourceIds importedAt storeRawPayload dataSources merged w.session)
      fun e _ => R e :=
  insertBatches_triple hfault hyields hnd hknown hdistinct hconflict fun _ _ _ _ _ _ => rfl

end Batches

/-! ## Replacing everything -/

/-- `data_sources` holds the metadata in the order of the source ids, and `dataSourceIds` finds the
rows. -/
structure SourcesLoaded (metadataById : Dict Str SourceMetadata) (dataSourceIds : Dict Str Nat)
    (dataSources : List DataSourceModel) : Prop where
  values : dataSources.map (·.toDataSourceValues) =
    (stableSort Prod.fst metadataById.items).map fun e => dataSourceValues e.2
  ids : (dataSources.map (·.id)).Nodup
  sourceIds : (dataSources.map (·.sourceId)).Nodup
  found : ∀ d ∈ dataSources, dataSourceIds.get? d.sourceId = some d.id

/-- `db'` has the metadata for its data sources. -/
def MetadataInserted (metadataById : Dict Str SourceMetadata) (db : Database)
    (dataSourceIds : Dict Str Nat) (db' : Database) : Prop :=
  ∃ dataSources, db' = { db with dataSources := dataSources } ∧
    SourcesLoaded metadataById dataSourceIds dataSources

/-- The rows of the metadata have its keys for their source ids. -/
theorem map_sourceId_rows {metadataById : Dict Str SourceMetadata}
    (hkeys : ∀ e ∈ metadataById.items, e.2.sourceId = e.1) :
    ((stableSort Prod.fst metadataById.items).map fun e => dataSourceValues e.2).map
        (·.sourceId) = (stableSort Prod.fst metadataById.items).map Prod.fst := by
  rw [List.map_map]
  exact List.map_congr_left fun e he =>
    hkeys e ((perm_stableSort Prod.fst metadataById.items).mem_iff.mp he)

/-- No metadata, no rows. -/
theorem sourcesLoaded_nil {metadataById : Dict Str SourceMetadata}
    (h : metadataById.items.isEmpty = true) : SourcesLoaded metadataById Dict.empty [] where
  values := by
    have hperm := perm_stableSort Prod.fst metadataById.items
    rw [List.isEmpty_iff.mp h] at hperm ⊢
    rw [hperm.eq_nil]
    rfl
  ids := List.nodup_nil
  sourceIds := List.nodup_nil
  found _ h := absurd h List.not_mem_nil

/-- The rows of the metadata. -/
abbrev dataSourceRows (metadataById : Dict Str SourceMetadata) : List DataSourceValues :=
  (stableSort Prod.fst metadataById.items).map fun e => dataSourceValues e.2

theorem nodup_sourceId_rows {metadataById : Dict Str SourceMetadata}
    (hkeys : ∀ e ∈ metadataById.items, e.2.sourceId = e.1) :
    ((dataSourceRows metadataById).map (·.sourceId)).Nodup := by
  rw [map_sourceId_rows hkeys, ((perm_stableSort Prod.fst _).map Prod.fst).nodup_iff]
  exact metadataById.nodup

/-- An `INSERT … RETURNING` of the metadata. -/
theorem sourcesLoaded_newRows {metadataById : Dict Str SourceMetadata} {ids : List Nat}
    {returned : List (Str × Nat)} (hkeys : ∀ e ∈ metadataById.items, e.2.sourceId = e.1)
    (hlen : ids.length = (dataSourceRows metadataById).length) (hids : ids.Nodup)
    (hreturned : returned.Perm (((dataSourceRows metadataById).map (·.sourceId)).zip ids)) :
    SourcesLoaded metadataById (Dict.ofPairs returned)
      (newRows DataSourceModel.mk (dataSourceRows metadataById) ids) where
  values := map_values_newRows hlen fun _ _ => rfl
  ids := by
    rw [map_ids_newRows hlen fun _ _ => rfl]
    exact hids
  sourceIds := by
    have hvalues : (newRows DataSourceModel.mk (dataSourceRows metadataById) ids).map
        (·.toDataSourceValues) = dataSourceRows metadataById :=
      map_values_newRows hlen fun _ _ => rfl
    have hnd := nodup_sourceId_rows hkeys
    rw [← hvalues, List.map_map] at hnd
    exact hnd
  found d hd := get?_returned (·.sourceId) (·.sourceId) (·.id) (fun _ _ => rfl) (fun _ _ => rfl)
    hlen (nodup_sourceId_rows hkeys) hreturned hd

include hfault in
theorem insertDataSourceMetadata_triple {metadataById : Dict Str SourceMetadata}
    (hkeys : ∀ e ∈ metadataById.items, e.2.sourceId = e.1) {db : Database}
    (hdb : db.dataSources = []) :
    Triple (fun w => w.session = db) (insertDataSourceMetadata env metadataById)
      (fun ids w => MetadataInserted metadataById db ids w.session) fun e _ => R e := by
  unfold insertDataSourceMetadata
  split
  · rename_i hempty
    refine Triple.pure fun w hw => ⟨[], ?_, sourcesLoaded_nil hempty⟩
    rw [hw, ← hdb]
  · simp only
    refine execute_triple hfault (Triple.getBind fun w hw => ?_)
    subst hw
    simp only [hdb, List.nil_append, List.map_nil]
    have hloaded := sourcesLoaded_newRows hkeys
      (env.length_newIds w.clock [] (dataSourceRows metadataById).length)
      (env.nodup_newIds _ _ _) (env.returned_perm w.clock _)
    split
    · exact ⟨_, rfl, hloaded⟩
    · rename_i hclash
      exact absurd hloaded.sourceIds hclash

/-- A source with metadata has its row, and its id is found. -/
theorem SourcesLoaded.exists_row {metadataById : Dict Str SourceMetadata}
    {dataSourceIds : Dict Str Nat} {dataSources : List DataSourceModel}
    (h : SourcesLoaded metadataById dataSourceIds dataSources) {sourceId : Str}
    (hsrc : ∃ e ∈ metadataById.items, e.2.sourceId = sourceId) :
    ∃ d ∈ dataSources, d.sourceId = sourceId ∧ dataSourceIds.get? sourceId = some d.id := by
  obtain ⟨e, he, hid⟩ := hsrc
  have hmem : dataSourceValues e.2 ∈ dataSources.map (·.toDataSourceValues) := by
    rw [h.values]
    exact List.mem_map_of_mem ((perm_stableSort _ _).mem_iff.mpr he)
  obtain ⟨d, hd, hvalues⟩ := List.mem_map.mp hmem
  have hsid : d.sourceId = sourceId := (congrArg DataSourceValues.sourceId hvalues).trans hid
  exact ⟨d, hd, hsid, hsid ▸ h.found d hd⟩

/-- Source ids with rows are told apart by the ids of their rows. -/
theorem SourcesLoaded.sourcesDistinct {metadataById : Dict Str SourceMetadata}
    {dataSourceIds : Dict Str Nat} {dataSources : List DataSourceModel}
    (h : SourcesLoaded metadataById dataSourceIds dataSources) {merged : List MergedSourceRecord}
    (hsrc : ∀ m ∈ merged, ∀ s ∈ m.sources, ∃ e ∈ metadataById.items,
      e.2.sourceId = s.source.sourceId) : SourcesDistinct dataSourceIds merged := by
  intro m hm s hs m' hm' s' hs' heq
  obtain ⟨d, hd, hsid, hget⟩ := h.exists_row (hsrc m hm s hs)
  obtain ⟨d', hd', hsid', hget'⟩ := h.exists_row (hsrc m' hm' s' hs')
  rw [hget, hget', Option.getD_some, Option.getD_some] at heq
  rw [← hsid, ← hsid', List.inj_on_of_nodup_map h.ids hd hd' heq]

/-- Every source with metadata is known. -/
theorem SourcesLoaded.sourcesKnown {metadataById : Dict Str SourceMetadata}
    {dataSourceIds : Dict Str Nat} {dataSources : List DataSourceModel}
    (h : SourcesLoaded metadataById dataSourceIds dataSources) {merged : List MergedSourceRecord}
    (hsrc : ∀ m ∈ merged, ∀ s ∈ m.sources, ∃ e ∈ metadataById.items,
      e.2.sourceId = s.source.sourceId) : SourcesKnown dataSourceIds merged := by
  intro m hm s hs
  obtain ⟨d, -, -, hget⟩ := h.exists_row (hsrc m hm s hs)
  exact ⟨d.id, hget⟩

include hfault in
/-- Before the stream, the tables hold the data sources and nothing else. -/
theorem replaceSources_triple {τ : Type} {π : World → τ} (hπ : SessionFrame π) {v : τ}
    {metadataById : Dict Str SourceMetadata}
    (hkeys : ∀ e ∈ metadataById.items, e.2.sourceId = e.1) (importedAt : Int)
    (storeRawPayload : Bool) :
    Triple (fun w => π w = v) (replaceSources env metadataById)
      (fun dataSourceIds w => π w = v ∧ ∃ dataSources,
        SourcesLoaded metadataById dataSourceIds dataSources ∧
        Loaded dataSourceIds importedAt storeRawPayload dataSources [] w.session)
      fun e _ => R e := by
  have hdelete : ∀ (statement : Statement) (f : Database → Database) (db : Database),
      Triple (fun w => w.session = db ∧ π w = v)
        (execute env statement (modify fun w => { w with session := f w.session }))
        (fun _ w => w.session = f db ∧ π w = v) fun e _ => R e := fun statement f db =>
    (execute_triple hfault (Q := fun _ db' => db' = f db)
      (Triple.modify fun _ hw => congrArg f hw)).frame
      (keeps_execute hπ.clock hπ.executed (keeps_modify fun w => hπ.session w _)) v
  intro w hw
  refine ((hdelete .deleteBinRecordSources (fun db => { db with binRecordSources := [] })
    w.session).bind fun _ => ?_) w ⟨rfl, hw⟩
  refine (hdelete .deleteBinRecords (fun db => { db with binRecords := [] }) _).bind fun _ => ?_
  refine (hdelete .deleteDataSources (fun db => { db with dataSources := [] }) _).bind fun _ => ?_
  refine ((insertDataSourceMetadata_triple hfault hkeys rfl).frame
    (keeps_insertDataSourceMetadata hπ _) v).conseq (fun _ h => h) ?_ fun _ _ h => h
  rintro dataSourceIds w₁ ⟨⟨dataSources, hdb, hsources⟩, hv⟩
  refine ⟨hv, dataSources, hsources, ?_⟩
  rw [hdb]
  exact loaded_nil dataSources

include hfault in
/-- The flush writes nothing. -/
theorem flush_triple (P : Database → Prop) :
    Triple (fun w => P w.session) (step env (pure ())) (fun _ w => P w.session)
      fun e _ => R e :=
  step_pure_triple env (fun w w' hq h => by
    obtain ⟨n, b, rfl⟩ := hq
    exact h) fun hf _ _ => hfault hf

include hfault in
/-- **`replace_all` leaves exactly what the stream yields**, whatever the tables held before. -/
theorem replaceAll_triple {τ : Type} {π : World → τ} (hπ : SessionFrame π) {v : τ}
    {records : ImportReplacement} {merged : List MergedSourceRecord}
    (hyields : Yields Quiet (Faults env) (fun w => π w = v) records.records merged)
    (hnd : (merged.map (·.record.iinStart)).Nodup)
    (hconflict : ¬ (contributions merged).Nodup → R .integrityError)
    (hkeys : ∀ e ∈ records.sourceMetadata.items, e.2.sourceId = e.1)
    (hsrc : ∀ m ∈ merged, ∀ s ∈ m.sources, ∃ e ∈ records.sourceMetadata.items,
      e.2.sourceId = s.source.sourceId) :
    Triple (fun w => π w = v) (replaceAll env records)
      (fun _ w => ∃ dataSourceIds dataSources,
        SourcesLoaded records.sourceMetadata dataSourceIds dataSources ∧
        Loaded dataSourceIds env.now records.storeRawPayload dataSources merged w.session)
      fun e _ => R e := by
  rw [replaceAll_eq]
  refine (replaceSources_triple hfault hπ hkeys env.now records.storeRawPayload).bind
    fun dataSourceIds => ?_
  rintro w ⟨hv, dataSources, hsources, hstart⟩
  refine ((insertStreamedRecords_triple hfault hyields hnd (hsources.sourcesKnown hsrc)
    (hsources.sourcesDistinct hsrc) hconflict dataSources).bind fun _ => ?_) w ⟨hv, hstart⟩
  exact (flush_triple hfault (Loaded dataSourceIds env.now records.storeRawPayload dataSources
    merged)).conseq (fun _ h => h) (fun _ _ h => ⟨dataSourceIds, dataSources, hsources, h⟩)
    fun _ _ h => h

/-! ## Counting what passes -/

theorem SessionFrame.prod {τ υ : Type} {π : World → τ} {ρ : World → υ} (hπ : SessionFrame π)
    (hρ : SessionFrame ρ) : SessionFrame fun w => (π w, ρ w) where
  clock w n := Prod.ext (hπ.clock w n) (hρ.clock w n)
  session w db := Prod.ext (hπ.session w db) (hρ.session w db)
  executed w l := Prod.ext (hπ.executed w l) (hρ.executed w l)

/-- `replace_all` reads the whole stream: what the stream counts is counted in full. -/
theorem replaceAll_moves {τ υ : Type} {π : World → τ} {ρ : World → υ} (hπ : SessionFrame π)
    (hρ : SessionFrame ρ) {u : υ} {v v' : τ} {records : ImportReplacement}
    (h : records.records.Moves π (fun w => ρ w = u) v v') :
    Triple (fun w => ρ w = u ∧ π w = v) (replaceAll env records) (fun _ w => π w = v')
      Anything := by
  have hboth := hρ.prod hπ
  have hkeep : ∀ {β : Type} {x : Run β}, Keeps (fun w => (ρ w, π w)) x →
      Triple (fun w => ρ w = u ∧ π w = v) x (fun _ w => ρ w = u ∧ π w = v) Anything :=
    fun hx => (hx (u, v)).conseq (fun _ hw => Prod.ext hw.1 hw.2)
      (fun _ _ hw => Prod.mk.inj hw) fun _ _ _ => trivial
  rw [replaceAll_eq]
  refine (hkeep (keeps_replaceSources hboth _)).bind fun dataSourceIds => ?_
  refine ((h.transduce _).forEach fun _ => keeps_insertMergedRecordBatch hπ _ _ _ _).bind
    fun _ => ?_
  exact (keeps_step hπ.clock (keeps_pure _) v').conseq (fun _ hw => hw) (fun _ _ hw => hw)
    fun _ _ _ => trivial

end CardBinData
