import CardBinData.ImportedTables

/-!
# What a client can observe of two imports

Two databases are told apart neither by surrogate ids, nor by times, nor by the order of the
provenance rows: `Database.Agree view` compares their rows through the references, and shows of a
provenance row what `view` shows of it. A lookup shows still less (`Provenance.link`).

* `lookups_agree`: databases of imports that agree on the links answer every lookup alike.
* `SameImports`: two imports leave the same counts, tables and lookups, in any two environments and
  after any two prior states. `sameImports_of_agree`: it is enough that their datasets agree.
-/

namespace CardBinData

open Library

/-! ## Tables without their ids -/

/-- The columns of a provenance row apart from its time. -/
def Provenance.contents (p : Provenance) : Str × Str × Str × RawPayload :=
  (p.iinStart, p.sourceId, p.sourceRowKey, p.rawPayload)

/-- What a provenance row links. -/
def Provenance.link (p : Provenance) : Str × Str × Str := (p.iinStart, p.sourceId, p.sourceRowKey)

/-- The databases have the same data sources and records, and of provenance the same `view`. -/
structure Database.Agree {ν : Type} (view : Provenance → ν) (db db' : Database) : Prop where
  dataSources : db.dataSources.map (·.toDataSourceValues) =
    db'.dataSources.map (·.toDataSourceValues)
  binRecords : db.binRecords.map (·.toBinRecordValues) = db'.binRecords.map (·.toBinRecordValues)
  provenance : (db.binRecordSources.map fun s =>
      (db.resolve s.toBinRecordSourceValues).map view).Perm
    (db'.binRecordSources.map fun s => (db'.resolve s.toBinRecordSourceValues).map view)

theorem Database.Agree.mono {ν ν' : Type} {view : Provenance → ν} {view' : Provenance → ν'}
    {db db' : Database} (h : db.Agree view db') (g : ν → ν') (hg : ∀ p, view' p = g (view p)) :
    db.Agree view' db' where
  dataSources := h.dataSources
  binRecords := h.binRecords
  provenance := by
    have hview : ∀ o : Option Provenance, o.map view' = (o.map view).map g := fun o => by
      cases o with
      | none => rfl
      | some p => exact congrArg some (hg p)
    have hperm := h.provenance.map (Option.map g)
    rw [List.map_map, List.map_map] at hperm
    simp only [hview]
    exact hperm

/-- An attribution apart from its time. -/
def SourceAttribution.timeless (a : SourceAttribution) : SourceAttribution :=
  { a with importedAt := none }

/-- The same answer, apart from the times and the order of the sources. -/
structure SameAnswer (a b : LookupResult) : Prop where
  status : a.status = b.status
  query : a.query = b.query
  data : a.data = b.data
  validationWarnings : a.validationWarnings = b.validationWarnings
  sources : (a.sources.map (·.timeless)).Perm (b.sources.map (·.timeless))

theorem sameAnswer_refl (a : LookupResult) : SameAnswer a a :=
  ⟨rfl, rfl, rfl, rfl, List.Perm.refl _⟩

/-- Both lookups answer, and alike. -/
def AnswersAgree (o o' : Option LookupResult) : Prop :=
  ∃ a b, o = some a ∧ o' = some b ∧ SameAnswer a b

/-! ## Lookups -/

/-- What a lookup shows of a link, given the data sources. -/
def shownAttribution (dataSources : List DataSourceValues) (link : Str × Str × Str) :
    Option SourceAttribution :=
  (dataSources.find? fun d => decide (d.sourceId = link.2.1)).map fun d =>
    { sourceId := d.sourceId
      upstreamUrl := d.upstreamUrl
      license := d.license
      sourceRowKey := some link.2.2 }

/-- A lookup shows the columns of a row and not its id. -/
theorem binInfo_congr {row row' : BinRecordModel}
    (h : row.toBinRecordValues = row'.toBinRecordValues) : binInfo row = binInfo row' := by
  simp only [binInfo, h]

section Lookups

variable {db : Database} {records : List NormalizedSourceRecord} {storeRawPayload : Bool}
  {importedAt : Int} (h : db.Represents (datasetOf records storeRawPayload importedAt))
include h

/-- The attribution of a provenance row is what is shown of its link. -/
theorem sourceAttribution_of_resolve {s : BinRecordSourceModel} (hs : s ∈ db.binRecordSources) :
    ∃ a, sourceAttribution db s = some a ∧ some a.timeless =
      ((db.resolve s.toBinRecordSourceValues).map Provenance.link).bind
        (shownAttribution (db.dataSources.map (·.toDataSourceValues))) := by
  obtain ⟨p, hp⟩ := exists_resolve h hs
  obtain ⟨r, -, d, hd, -, -, hfind, rfl⟩ := resolve_eq_some hp
  have hnd : ((db.dataSources.map (·.toDataSourceValues)).map (·.sourceId)).Nodup := by
    rw [List.map_map]
    exact nodup_sourceId h
  have hshown : (db.dataSources.map (·.toDataSourceValues)).find?
      (fun d' => decide (d'.sourceId = d.sourceId)) = some d.toDataSourceValues :=
    find?_key hnd (List.mem_map_of_mem hd)
  refine ⟨_, congrArg (Option.map _) hfind, ?_⟩
  rw [hp, Option.map_some, Option.bind_some]
  have hlink : shownAttribution (db.dataSources.map (·.toDataSourceValues))
      (r.iinStart, d.sourceId, s.sourceRowKey) = _ := congrArg (Option.map _) hshown
  exact hlink.symm

/-- The attributions of a row are what is shown of the links to it. -/
theorem timeless_of_row (row : BinRecordModel) (backend : Backend) :
    ∃ attributions, sourceAttributions backend db row = some attributions ∧
      (attributions.map fun a => some a.timeless).Perm
        ((db.binRecordSources.filter fun s => decide (s.binRecordId = row.id)).map fun s =>
          ((db.resolve s.toBinRecordSourceValues).map Provenance.link).bind
            (shownAttribution (db.dataSources.map (·.toDataSourceValues)))) := by
  have hrows : (db.sources backend row).Perm
      (db.binRecordSources.filter fun s => decide (s.binRecordId = row.id)) :=
    backend.collected_perm _
  obtain ⟨attributions, hattr, hpairs⟩ := exists_mapM_eq_some fun s hs =>
    sourceAttribution_of_resolve h (List.mem_of_mem_filter (hrows.mem_iff.mp hs))
  refine ⟨attributions, hattr, List.Perm.trans (List.Perm.of_eq ?_) (hrows.map _)⟩
  rw [← List.forall₂_eq_eq_eq, List.forall₂_map_left_iff, List.forall₂_map_right_iff]
  exact hpairs.flip

end Lookups

section TwoRuns

variable {db db' : Database} {records records' : List NormalizedSourceRecord}
  {storeRawPayload storeRawPayload' : Bool} {importedAt importedAt' : Int}
  (h : db.Represents (datasetOf records storeRawPayload importedAt))
  (h' : db'.Represents (datasetOf records' storeRawPayload' importedAt'))
include h h'

/-- Rows with the same values have the same links. -/
theorem links_of_row (hagree : db.Agree Provenance.link db') {row row' : BinRecordModel}
    (hrow : row ∈ db.binRecords) (hrow' : row' ∈ db'.binRecords)
    (hk : row.iinStart = row'.iinStart) :
    ((db.binRecordSources.filter fun s => decide (s.binRecordId = row.id)).map fun s =>
        (db.resolve s.toBinRecordSourceValues).map Provenance.link).Perm
      ((db'.binRecordSources.filter fun s => decide (s.binRecordId = row'.id)).map fun s =>
        (db'.resolve s.toBinRecordSourceValues).map Provenance.link) := by
  have hany : ∀ o : Option Provenance, (o.map Provenance.link).any
      (fun l => decide (l.1 = row.iinStart)) = o.any fun p => decide (p.iinStart = row.iinStart) :=
    fun o => by cases o <;> rfl
  have hperm := hagree.provenance.filter fun o => o.any fun l => decide (l.1 = row.iinStart)
  rw [List.filter_map, List.filter_map] at hperm
  simp only [Function.comp_def, hany] at hperm
  rw [filter_resolve_iinStart h hrow, hk, filter_resolve_iinStart h' hrow'] at hperm
  exact hperm

/-- **Databases that agree on the links answer every lookup alike**, on any two engines. -/
theorem lookups_agree (hagree : db.Agree Provenance.link db') (backend backend' : Backend)
    (value : Str) (validateLuhn : Bool) :
    AnswersAgree (lookupWithSession backend db value validateLuhn)
      (lookupWithSession backend' db' value validateLuhn) := by
  unfold lookupWithSession
  simp only
  split
  · exact ⟨_, _, rfl, rfl, sameAnswer_refl _⟩
  have hrecord : (lookupRecord db'.binRecords _).map (·.toBinRecordValues) =
      (lookupRecord db.binRecords (normalizeLookupInput value validateLuhn).query).map
        (·.toBinRecordValues) :=
    map_lookupRecord_perm (nodup_iinStart h) (List.Perm.of_eq hagree.binRecords)
  cases hl : lookupRecord db.binRecords (normalizeLookupInput value validateLuhn).query with
  | none =>
    rw [hl] at hrecord
    rw [Option.map_eq_none_iff.mp hrecord]
    exact ⟨_, _, rfl, rfl, sameAnswer_refl _⟩
  | some row =>
    rw [hl] at hrecord
    obtain ⟨row', hl', hvalues⟩ := Option.map_eq_some_iff.mp hrecord
    have hrow := mem_of_lookupRecord hl
    have hrow' := mem_of_lookupRecord hl'
    obtain ⟨attributions, hattr, hshown⟩ := timeless_of_row h row backend
    obtain ⟨attributions', hattr', hshown'⟩ := timeless_of_row h' row' backend'
    have hlinks := (links_of_row h h' hagree hrow hrow'
      (congrArg BinRecordValues.iinStart hvalues).symm).map
        (Option.bind · (shownAttribution (db.dataSources.map (·.toDataSourceValues))))
    rw [List.map_map, List.map_map] at hlinks
    have hsources := (hshown.trans hlinks).trans (hagree.dataSources ▸ hshown'.symm)
    rw [hl']
    simp only [hattr, hattr']
    refine ⟨_, _, rfl, rfl, rfl, rfl, congrArg some (binInfo_congr hvalues.symm), rfl, ?_⟩
    refine (List.map_perm_map_iff (Option.some_injective _)).mp ?_
    rw [List.map_map, List.map_map]
    exact hsources

end TwoRuns

/-! ## Datasets -/

/-- The datasets have the same data sources and records, and of provenance the same `view`. -/
structure Dataset.Agree {ν : Type} (view : Provenance → ν) (a b : Dataset) : Prop where
  dataSources : a.dataSources = b.dataSources
  binRecords : a.binRecords = b.binRecords
  provenance : (a.provenance.map view).Perm (b.provenance.map view)

section Represents

variable {ν : Type} {view : Provenance → ν} {a b : Dataset} {db db' : Database}

theorem Dataset.Agree.symm (h : a.Agree view b) : b.Agree view a :=
  ⟨h.dataSources.symm, h.binRecords.symm, h.provenance.symm⟩

theorem Dataset.Agree.trans {c : Dataset} (h : a.Agree view b) (h' : b.Agree view c) :
    a.Agree view c :=
  ⟨h.dataSources.trans h'.dataSources, h.binRecords.trans h'.binRecords,
    h.provenance.trans h'.provenance⟩

/-- Tables that hold datasets that agree, agree. -/
theorem Dataset.Agree.databases (h : a.Agree view b) (ha : db.Represents a)
    (hb : db'.Represents b) : db.Agree view db' where
  dataSources := by rw [ha.dataSources, hb.dataSources, h.dataSources]
  binRecords := by rw [ha.binRecords, hb.binRecords, h.binRecords]
  provenance := by
    have hpa := ha.provenance.map (Option.map view)
    have hpb := hb.provenance.map (Option.map view)
    have hab := h.provenance.map some
    rw [List.map_map, List.map_map] at hpa hpb hab
    exact hpa.trans (hab.trans hpb.symm)

end Represents

/-- Records with the same keys are merged key by key, side by side. -/
theorem exists_keys {records records' : List NormalizedSourceRecord}
    (hk : ∀ k, (∃ r ∈ records, r.iinStart = k) ↔ ∃ r ∈ records', r.iinStart = k) :
    ∃ keys : List Str, (∀ k ∈ keys, ∃ r ∈ records, r.iinStart = k) ∧
      mergedRecords records = keys.map (mergedOf (stagedRecords records)) ∧
      mergedRecords records' = keys.map (mergedOf (stagedRecords records')) := by
  obtain ⟨keys, hsorted, hkeys, heq⟩ := mergeSourceRecords_eq_map (stagedRecords records)
  obtain ⟨keys', hsorted', hkeys', heq'⟩ := mergeSourceRecords_eq_map (stagedRecords records')
  have hperm : keys.Perm keys' :=
    (List.perm_ext_iff_of_nodup (hsorted.imp ne_of_lt) (hsorted'.imp ne_of_lt)).mpr fun k => by
      rw [hkeys, hkeys', exists_stagedRecords_iff, exists_stagedRecords_iff, hk]
  obtain rfl := hperm.eq_of_pairwise (fun _ _ _ _ hab hba => absurd hba hab.asymm) hsorted hsorted'
  exact ⟨keys, fun k hmem => exists_stagedRecords_iff.mp ((hkeys k).mp hmem), heq, heq'⟩

/-- **Datasets agree when the records have the same metadata and merge alike key by key.** -/
theorem datasetOf_agree {ν : Type} {view : Provenance → ν}
    {records records' : List NormalizedSourceRecord} {storeRawPayload storeRawPayload' : Bool}
    {importedAt importedAt' : Int}
    (hmetadata : ∀ k, (firstSeen records).get? k = (firstSeen records').get? k)
    (hk : ∀ k, (∃ r ∈ records, r.iinStart = k) ↔ ∃ r ∈ records', r.iinStart = k)
    (hmerged : ∀ k, (∃ r ∈ records, r.iinStart = k) →
      (∀ f, (mergedOf (stagedRecords records) k).record.getattr f =
        (mergedOf (stagedRecords records') k).record.getattr f) ∧
      ((mergedOf (stagedRecords records) k).sources.map fun s =>
          view (provenanceRow (mergedOf (stagedRecords records) k) s storeRawPayload
            importedAt)).Perm
        ((mergedOf (stagedRecords records') k).sources.map fun s =>
          view (provenanceRow (mergedOf (stagedRecords records') k) s storeRawPayload'
            importedAt'))) :
    (datasetOf records storeRawPayload importedAt).Agree view
      (datasetOf records' storeRawPayload' importedAt') := by
  obtain ⟨keys, hkeys, heq, heq'⟩ := exists_keys hk
  refine ⟨?_, ?_, ?_⟩
  · have hitems := stableSort_eq_of_perm (firstSeen records).nodup (Dict.items_perm hmetadata)
    exact congrArg (List.map fun e => dataSourceValues e.2) hitems
  · change (mergedRecords records).map _ = (mergedRecords records').map _
    rw [heq, heq', List.map_map, List.map_map]
    exact List.map_congr_left fun k hmem =>
      binRecordValues_congr rfl (hmerged k (hkeys k hmem)).1
  · change ((mergedRecords records).flatMap _ |>.map view).Perm
      ((mergedRecords records').flatMap _ |>.map view)
    rw [heq, heq', List.flatMap_map, List.flatMap_map, List.map_flatMap, List.map_flatMap]
    refine List.Perm.flatMap_left keys fun k hmem => ?_
    rw [List.map_map, List.map_map]
    exact (hmerged k (hkeys k hmem)).2

/-- What the unique constraint sees of the contributions is what they link. -/
theorem contributions_eq (records : List NormalizedSourceRecord) (storeRawPayload : Bool)
    (importedAt : Int) : contributions (mergedRecords records) =
      (datasetOf records storeRawPayload importedAt).provenance.map Provenance.link := by
  change _ = ((mergedRecords records).flatMap fun m => m.sources.map fun s =>
    provenanceRow m s storeRawPayload importedAt).map Provenance.link
  rw [List.map_flatMap]
  refine List.flatMap_congr fun m _ => ?_
  rw [List.map_map]
  rfl

/-- The counts are those of the dataset. -/
theorem countersOf_eq (records : List NormalizedSourceRecord) (storeRawPayload : Bool)
    (importedAt : Int) : countersOf records =
      ⟨records.length, (datasetOf records storeRawPayload importedAt).binRecords.length,
        (datasetOf records storeRawPayload importedAt).provenance.length⟩ := by
  have hprovenance := congrArg List.length (contributions_eq records storeRawPayload importedAt)
  have hrecords : (mergedRecords records).length =
      ((mergedRecords records).map fun m => binRecordValues m.record).length :=
    (List.length_map _).symm
  rw [List.length_map] at hprovenance
  rw [countersOf, hrecords, hprovenance]
  rfl

/-! ## Two imports -/

/-- Two imports leave the same counts, tables and lookups. -/
structure SameImport {ν : Type} (view : Provenance → ν) (counters : ImportCounters)
    (db : Database) (counters' : ImportCounters) (db' : Database) : Prop where
  counters : counters = counters'
  tables : db.Agree view db'
  lookups : ∀ backend backend' value validateLuhn,
    AnswersAgree (lookupWithSession backend db value validateLuhn)
      (lookupWithSession backend' db' value validateLuhn)

/-- **Neither of two imports can be told from the other**: in any two environments and from any two
worlds, both leave the same if they return, and when no step fails one returns exactly when the
other does. -/
def SameImports {ν : Type} (view : Provenance → ν) (adapters : List SourceAdapter)
    (storeRawPayload : Bool) (adapters' : List SourceAdapter) (storeRawPayload' : Bool) : Prop :=
  ∀ (env env' : Environment) (w w' : World),
    PostBoth (storeImportSources env adapters storeRawPayload w)
      (storeImportSources env' adapters' storeRawPayload' w')
      (fun counters w₁ counters' w₁' =>
        SameImport view counters w₁.committed counters' w₁'.committed) ∧
    (Completes (storeImportSources env.faultless adapters storeRawPayload w) ↔
      Completes (storeImportSources env'.faultless adapters' storeRawPayload' w'))

section SameImports

variable {ν : Type} {view : Provenance → ν} {records records' : List NormalizedSourceRecord}
  {storeRawPayload storeRawPayload' : Bool}

/-- Records whose datasets agree are importable together. -/
theorem importable_of_agree {importedAt importedAt' : Int} (g : ν → Str × Str × Str)
    (hview : ∀ p, p.link = g (view p))
    (hagree : (datasetOf records storeRawPayload importedAt).Agree view
      (datasetOf records' storeRawPayload' importedAt'))
    (hbindable : (∀ r ∈ records, Bindable r) → ∀ r ∈ records', Bindable r)
    (h : Importable records) : Importable records' where
  bindable := hbindable h.bindable
  distinct := by
    have hlink : Provenance.link = g ∘ view := funext hview
    have hlinks := hagree.provenance.map g
    rw [List.map_map, List.map_map, ← hlink, ← contributions_eq, ← contributions_eq] at hlinks
    exact hlinks.nodup_iff.mp h.distinct

/-- Imports of records whose datasets agree leave the same. -/
theorem same_import {importedAt importedAt' : Int} {counters counters' : ImportCounters}
    {db db' : Database} (g : ν → Str × Str × Str) (hview : ∀ p, p.link = g (view p))
    (hlen : records.length = records'.length)
    (hagree : (datasetOf records storeRawPayload importedAt).Agree view
      (datasetOf records' storeRawPayload' importedAt'))
    (h : Imported records storeRawPayload importedAt counters db)
    (h' : Imported records' storeRawPayload' importedAt' counters' db') :
    SameImport view counters db counters' db' where
  counters := by
    have hprovenance := hagree.provenance.length_eq
    rw [List.length_map, List.length_map] at hprovenance
    rw [h.counters, h'.counters, countersOf_eq records storeRawPayload importedAt,
      countersOf_eq records' storeRawPayload' importedAt', hlen, hagree.binRecords, hprovenance]
  tables := hagree.databases h.represents h'.represents
  lookups := lookups_agree h.represents h'.represents
    ((hagree.databases h.represents h'.represents).mono g hview)

/-- **Imports of records whose datasets agree cannot be told apart.** It is enough that the
datasets agree when one of the imports can succeed. -/
theorem sameImports_of_agree {adapters adapters' : List SourceAdapter} (g : ν → Str × Str × Str)
    (hview : ∀ p, p.link = g (view p))
    (hlen : (emitted adapters).length = (emitted adapters').length)
    (hbindable : (∀ r ∈ emitted adapters, Bindable r) ↔ ∀ r ∈ emitted adapters', Bindable r)
    (hagree : Importable (emitted adapters) ∨ Importable (emitted adapters') →
      ∀ importedAt importedAt', (datasetOf (emitted adapters) storeRawPayload importedAt).Agree view
        (datasetOf (emitted adapters') storeRawPayload' importedAt')) :
    SameImports view adapters storeRawPayload adapters' storeRawPayload' := by
  intro env env' w w'
  refine ⟨(storeImportSources_spec env adapters storeRawPayload w).both
    (storeImportSources_spec env' adapters' storeRawPayload' w') fun _ _ _ _ h h' =>
      same_import g hview hlen (hagree (Or.inl h.importable) _ _) h h', ?_⟩
  rw [storeImportSources_returns_iff, storeImportSources_returns_iff]
  exact ⟨fun h => importable_of_agree g hview (hagree (Or.inl h) 0 0) hbindable.mp h,
    fun h => importable_of_agree g hview (hagree (Or.inr h) 0 0).symm hbindable.mpr h⟩

end SameImports

end CardBinData
