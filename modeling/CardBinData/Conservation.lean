import CardBinData.Attribution
import CardBinData.ImportedTables
import Mathlib.Data.List.Dedup

/-!
# Conservation of source rows

The provenance of an import is, up to order, one row for each emitted record, attached to the row
of its own `iin_start`, and one row for each borrowed source (`provenance_perm`): the groups of all
keys together are the emitted records (`flatMap_filter_perm`), whatever the batches. The counters
of the result are the lengths of these lists.

* `importSources_conserves`: counts and attachment after a successful import.
-/

namespace CardBinData

open Library

/-! ## The provenance of a dataset -/

/-- The provenance row of a record, attached to the row of its own `iin_start`. -/
def ownRow (storeRawPayload : Bool) (importedAt : Int) (r : NormalizedSourceRecord) :
    Provenance where
  iinStart := r.iinStart
  sourceId := r.source.sourceId
  sourceRowKey := r.rowKey
  importedAt := some importedAt
  rawPayload := if storeRawPayload then .jsonText (dumps r.rawPayload) else .mapping Dict.empty

/-- The provenance rows of the borrowed sources. -/
def borrowedRows (records : List NormalizedSourceRecord) (storeRawPayload : Bool)
    (importedAt : Int) : List Provenance :=
  (mergedRecords records).flatMap fun m =>
    (borrowedSources (stagedRecords records) m.record.iinStart).map fun s =>
      provenanceRow m s storeRawPayload importedAt

theorem provenanceRow_restored (records : List NormalizedSourceRecord)
    (r : NormalizedSourceRecord) (storeRawPayload : Bool) (importedAt : Int) :
    provenanceRow (mergedOf (stagedRecords records) r.iinStart) (restored (firstSeen records) r)
      storeRawPayload importedAt = ownRow storeRawPayload importedAt r := by
  unfold provenanceRow ownRow
  rw [sourceId_restored]
  cases storeRawPayload <;> rfl

/-- The groups of all keys together are the records, whatever is made of each. -/
theorem flatMap_exactGroup_perm {γ : Type} {records : List NormalizedSourceRecord} {keys : List Str}
    (hnd : keys.Nodup) (hkeys : ∀ r ∈ records, r.iinStart ∈ keys)
    (row : Str → NormalizedSourceRecord → γ) :
    (keys.flatMap fun k => (exactGroup records k).map (row k)).Perm
      (records.map fun r => row r.iinStart r) := by
  have hown : (keys.flatMap fun k => (exactGroup records k).map (row k)) =
      (keys.flatMap fun k => exactGroup records k).map fun r => row r.iinStart r := by
    rw [List.map_flatMap]
    refine List.flatMap_congr fun k _ => List.map_congr_left fun r hr => ?_
    rw [(mem_exactGroup.mp hr).2]
  rw [hown]
  exact (flatMap_filter_perm hnd hkeys).map _

/-- **Every record gives one row of its own; the rest is borrowed.** -/
theorem provenance_perm (records : List NormalizedSourceRecord) (storeRawPayload : Bool)
    (importedAt : Int) :
    (datasetOf records storeRawPayload importedAt).provenance.Perm
      (records.map (ownRow storeRawPayload importedAt) ++
        borrowedRows records storeRawPayload importedAt) := by
  obtain ⟨keys, hnd, hkeys, heq⟩ := mergedRecords_eq_map records
  let staged := stagedRecords records
  let row : Str → NormalizedSourceRecord → Provenance := fun k s =>
    provenanceRow (mergedOf staged k) s storeRawPayload importedAt
  have hprovenance : (datasetOf records storeRawPayload importedAt).provenance =
      keys.flatMap fun k => (exactGroup staged k).map (row k) ++
        (borrowedSources staged k).map (row k) := by
    change ((mergedRecords records).flatMap fun m => m.sources.map fun s =>
      provenanceRow m s storeRawPayload importedAt) = _
    rw [heq, List.flatMap_map]
    refine List.flatMap_congr fun k _ => ?_
    rw [sources_mergedOf, List.map_append]
  have hborrowed : borrowedRows records storeRawPayload importedAt =
      keys.flatMap fun k => (borrowedSources staged k).map (row k) := by
    unfold borrowedRows
    rw [heq, List.flatMap_map]
    rfl
  have hown : (keys.flatMap fun k => (exactGroup staged k).map (row k)).Perm
      (records.map (ownRow storeRawPayload importedAt)) := by
    have hmap : (staged.map fun s => row s.iinStart s) =
        records.map (ownRow storeRawPayload importedAt) := by
      rw [show staged = records.map (restored (firstSeen records)) from rfl, List.map_map]
      exact List.map_congr_left fun r _ => provenanceRow_restored records r _ _
    rw [← hmap]
    exact flatMap_exactGroup_perm hnd (fun s hs => (hkeys _).mpr
      (exists_stagedRecords_iff.mp ⟨s, hs, rfl⟩)) row
  rw [hprovenance, hborrowed]
  exact (List.flatMap_append_perm keys _ _).symm.trans (hown.append_right _)

/-! ## What is borrowed -/

/-- A field is inherited by a key when its own records lack it and those of the prefix have it. -/
theorem exists_inheritedFrom_iff {records : List NormalizedSourceRecord} {k : Str}
    {f : FieldName} :
    (∃ record v, InheritedFrom records k f record v) ↔
      Inherits records k f ∧ mergedValue f (exactGroup records k) = none ∧
        mergedValue f (exactGroup records (k.take sixDigitPrefixLength)) ≠ none := by
  rw [ne_eq, mergedValue_eq_none_iff_not_supplied, mergedValue_eq_none_iff_not_supplied, not_not]
  constructor
  · rintro ⟨record, v, hinh, hmissing, hsup⟩
    exact ⟨hinh, hmissing, v, record, hsup⟩
  · rintro ⟨hinh, hmissing, v, record, hsup⟩
    exact ⟨record, v, hinh, hmissing, hsup⟩

/-- Staging does not change what is inherited. -/
theorem exists_inheritedFrom_staged (records : List NormalizedSourceRecord) (k : Str)
    (f : FieldName) :
    (∃ record v, InheritedFrom (stagedRecords records) k f record v) ↔
      ∃ record v, InheritedFrom records k f record v := by
  have h := relabels_restored records
  have hprimary : (∃ s ∈ exactGroup (stagedRecords records) k,
      s.source.sourceId = primarySourceId) ↔
      ∃ s ∈ exactGroup records k, s.source.sourceId = primarySourceId := by
    unfold stagedRecords
    rw [exactGroup_map h]
    simp only [List.mem_map, exists_exists_and_eq_and, h.sourceId]
  rw [exists_inheritedFrom_iff, exists_inheritedFrom_iff, Inherits, Inherits, hprimary]
  unfold stagedRecords
  rw [exactGroup_map h, exactGroup_map h, mergedValue_map h, mergedValue_map h]

theorem borrowedSources_eq_nil_iff {records : List NormalizedSourceRecord} {k : Str} :
    borrowedSources records k = [] ↔ ¬ ∃ f record v, InheritedFrom records k f record v := by
  rw [List.eq_nil_iff_forall_not_mem]
  constructor
  · rintro h ⟨f, record, v, hfrom⟩
    exact h record hfrom.merged.2
  · intro h s hs
    obtain ⟨-, f, record, v, hfrom, -⟩ := mem_borrowedSources_iff.mp hs
    exact h ⟨f, record, v, hfrom⟩

/-- Nothing is borrowed exactly when nothing is inherited. -/
theorem borrowedRows_eq_nil_iff (records : List NormalizedSourceRecord) (storeRawPayload : Bool)
    (importedAt : Int) :
    borrowedRows records storeRawPayload importedAt = [] ↔
      ∀ k f record v, ¬ InheritedFrom records k f record v := by
  obtain ⟨keys, -, hkeys, heq⟩ := mergedRecords_eq_map records
  have hnil : borrowedRows records storeRawPayload importedAt = [] ↔
      ∀ k ∈ keys, borrowedSources (stagedRecords records) k = [] := by
    unfold borrowedRows
    rw [heq, List.flatMap_map, List.flatMap_eq_nil_iff]
    exact forall_congr' fun k => forall_congr' fun _ => List.map_eq_nil_iff
  rw [hnil]
  constructor
  · intro h k f record v hfrom
    obtain ⟨r, hr, -⟩ := hfrom.1.2.1
    have hk : k ∈ keys := (hkeys k).mpr ⟨r, mem_exactGroup.mp hr⟩
    exact borrowedSources_eq_nil_iff.mp (h k hk)
      ⟨f, (exists_inheritedFrom_staged records k f).mpr ⟨record, v, hfrom⟩⟩
  · intro h k _
    refine borrowedSources_eq_nil_iff.mpr ?_
    rintro ⟨f, hfrom⟩
    obtain ⟨record, v, hfrom⟩ := (exists_inheritedFrom_staged records k f).mp hfrom
    exact h k f record v hfrom

/-! ## Attachment -/

/-- The provenance row `s` attaches the source row of `r` to the record with key `k`. -/
def Attaches (db : Database) (k : Str) (r : NormalizedSourceRecord) (s : BinRecordSourceModel) :
    Prop :=
  ∃ row ∈ db.binRecords, ∃ d ∈ db.dataSources, row.id = s.binRecordId ∧ d.id = s.dataSourceId ∧
    row.iinStart = k ∧ d.sourceId = r.source.sourceId ∧ s.sourceRowKey = r.rowKey

theorem attaches_of_resolve {db : Database} {s : BinRecordSourceModel} {p : Provenance}
    {r : NormalizedSourceRecord} (h : db.resolve s.toBinRecordSourceValues = some p)
    (hsource : p.sourceId = r.source.sourceId) (hrow : p.sourceRowKey = r.rowKey) :
    Attaches db p.iinStart r s := by
  obtain ⟨row, hmem, d, hd, hrid, hdid, -, rfl⟩ := resolve_eq_some h
  exact ⟨row, hmem, d, hd, hrid, hdid, rfl, hsource, hrow⟩

/-- Every borrowed row names a record of the 6-digit prefix of its key. -/
theorem mem_borrowedRows {records : List NormalizedSourceRecord} {storeRawPayload : Bool}
    {importedAt : Int} {p : Provenance}
    (h : p ∈ borrowedRows records storeRawPayload importedAt) :
    p.iinStart.length = eightDigitPrefixLength ∧
      ∃ r ∈ records, r.iinStart = p.iinStart.take sixDigitPrefixLength ∧
        p.sourceId = r.source.sourceId ∧ p.sourceRowKey = r.rowKey := by
  obtain ⟨m, -, hp⟩ := List.mem_flatMap.mp h
  obtain ⟨s, hs, rfl⟩ := List.mem_map.mp hp
  obtain ⟨hgroup, f, record, v, hfrom, -⟩ := mem_borrowedSources_iff.mp hs
  obtain ⟨hstaged, hk⟩ := mem_exactGroup.mp hgroup
  obtain ⟨r, hr, rfl⟩ := List.mem_map.mp hstaged
  exact ⟨hfrom.1.1, r, hr, hk, sourceId_restored records r, rfl⟩

/-- **The counts and the provenance rows of an import of the records.** -/
structure Conserved (records : List NormalizedSourceRecord) (counters : ImportCounters)
    (db : Database) : Prop where
  sourceRecordCount : counters.sourceRecordCount = records.length
  normalizedRecordCount : counters.normalizedRecordCount = db.binRecords.length
  distinctKeys : counters.normalizedRecordCount = (records.map (·.iinStart)).dedup.length
  provenanceRecordCount : counters.provenanceRecordCount = db.binRecordSources.length
  attached : ∃ own borrowed, (own ++ borrowed).Perm db.binRecordSources ∧
    List.Forall₂ (fun r s => Attaches db r.iinStart r s) records own ∧
    ∀ s ∈ borrowed, ∃ k, ∃ r ∈ records, k.length = eightDigitPrefixLength ∧
      r.iinStart = k.take sixDigitPrefixLength ∧ Attaches db k r s
  source_le_provenance : counters.sourceRecordCount ≤ counters.provenanceRecordCount
  eq_iff : counters.provenanceRecordCount = counters.sourceRecordCount ↔
    ∀ k f record v, ¬ InheritedFrom records k f record v

section Imported

variable {records : List NormalizedSourceRecord} {storeRawPayload : Bool} {importedAt : Int}
  {counters : ImportCounters} {db : Database}
  (h : Imported records storeRawPayload importedAt counters db)
include h

/-- The provenance rows, one for one with what they stand for. -/
theorem Imported.exists_rows : ∃ own borrowed, (own ++ borrowed).Perm db.binRecordSources ∧
    List.Forall₂ (fun p s => db.resolve s.toBinRecordSourceValues = some p)
      (records.map (ownRow storeRawPayload importedAt)) own ∧
    List.Forall₂ (fun p s => db.resolve s.toBinRecordSourceValues = some p)
      (borrowedRows records storeRawPayload importedAt) borrowed := by
  let own := records.map (ownRow storeRawPayload importedAt)
  have hperm := ((provenance_perm records storeRawPayload importedAt).map some).symm.trans
    h.represents.provenance.symm
  have hrows : List.Forall₂ (fun o (s : BinRecordSourceModel) =>
      db.resolve s.toBinRecordSourceValues = o)
      (db.binRecordSources.map fun s => db.resolve s.toBinRecordSourceValues)
      db.binRecordSources := by
    rw [List.forall₂_map_left_iff]
    exact List.forall₂_same.mpr fun _ _ => rfl
  obtain ⟨rows, hforall, hrowsPerm⟩ := List.perm_comp_forall₂ hperm hrows
  rw [List.forall₂_map_left_iff] at hforall
  refine ⟨rows.take own.length, rows.drop own.length, ?_,
    (List.forall₂_take_append rows _ _ hforall.flip).flip,
    (List.forall₂_drop_append rows _ _ hforall.flip).flip⟩
  rwa [List.take_append_drop]

theorem Imported.attached : ∃ own borrowed, (own ++ borrowed).Perm db.binRecordSources ∧
    List.Forall₂ (fun r s => Attaches db r.iinStart r s) records own ∧
    ∀ s ∈ borrowed, ∃ k, ∃ r ∈ records, k.length = eightDigitPrefixLength ∧
      r.iinStart = k.take sixDigitPrefixLength ∧ Attaches db k r s := by
  obtain ⟨own, borrowed, hperm, hown, hborrowed⟩ := h.exists_rows
  rw [List.forall₂_map_left_iff] at hown
  refine ⟨own, borrowed, hperm, hown.imp fun r s hs => attaches_of_resolve hs rfl rfl,
    fun s hs => ?_⟩
  obtain ⟨p, hp, hresolve⟩ := exists_of_forall₂_right hborrowed hs
  obtain ⟨hlen, r, hr, hk, hsource, hrow⟩ := mem_borrowedRows hp
  exact ⟨p.iinStart, r, hr, hlen, hk, attaches_of_resolve hresolve hsource hrow⟩

/-- The provenance rows are counted. -/
theorem Imported.provenanceRecordCount :
    counters.provenanceRecordCount = db.binRecordSources.length := by
  have hlen := h.represents.provenance.length_eq
  rw [List.length_map, List.length_map] at hlen
  rw [h.counters, hlen]
  change _ = ((mergedRecords records).flatMap fun m => m.sources.map fun s =>
    provenanceRow m s storeRawPayload importedAt).length
  simp only [countersOf, contributions, List.length_flatMap, List.length_map]

theorem Imported.provenance_eq_add : counters.provenanceRecordCount =
    records.length + (borrowedRows records storeRawPayload importedAt).length := by
  obtain ⟨own, borrowed, hperm, hown, hborrowed⟩ := h.exists_rows
  rw [h.provenanceRecordCount, ← hperm.length_eq, List.length_append, ← hown.length_eq,
    ← hborrowed.length_eq, List.length_map]

theorem Imported.conserved : Conserved records counters db := by
  obtain ⟨keys, hnd, hkeys, heq⟩ := mergedRecords_eq_map records
  have hnormalized : counters.normalizedRecordCount = (mergedRecords records).length := by
    rw [h.counters]
    rfl
  have hsource : counters.sourceRecordCount = records.length := by
    rw [h.counters]
    rfl
  have hadd := h.provenance_eq_add
  exact
    { sourceRecordCount := hsource
      normalizedRecordCount := by
        have hlen := congrArg List.length h.represents.binRecords
        rw [List.length_map] at hlen
        rw [hnormalized, hlen]
        exact (List.length_map _).symm
      distinctKeys := by
        have hperm : keys.Perm (records.map (·.iinStart)).dedup :=
          (List.perm_ext_iff_of_nodup hnd (List.nodup_dedup _)).mpr fun k => by
            rw [hkeys, List.mem_dedup, List.mem_map]
        rw [hnormalized, heq, List.length_map, hperm.length_eq]
      provenanceRecordCount := h.provenanceRecordCount
      attached := h.attached
      source_le_provenance := by omega
      eq_iff := by
        rw [← borrowedRows_eq_nil_iff records storeRawPayload importedAt, ← List.length_eq_zero_iff]
        omega }

end Imported

/-- **Conservation of source rows.** A successful import counts every emitted record, every key and
every provenance row; each emitted record has its own provenance row at its own key, and whatever
else is attached comes from the 6-digit prefix of an 8-digit key. -/
theorem importSources_conserves (env : Environment) (adapters : List SourceAdapter)
    (storeRawPayload : Bool) (w : World) :
    Post (storeImportSources env adapters storeRawPayload w)
      (fun counters w' => Conserved (emitted adapters) counters w'.committed)
      fun _ w' => w'.committed = w.committed :=
  (storeImportSources_spec env adapters storeRawPayload w).mono (fun _ _ h => h.conserved)
    fun _ _ h => h.1

end CardBinData
