import CardBinData.ColumnMaps
import CardBinData.Library.Json
import CardBinData.ProvenanceUnique

/-!
# The raw payload column

A source row goes through an import as text: `dumps` writes it into the stage, the text is bound to
a JSON function of the engine (`_json_text_expression`, `db/services.py:315-327`), and the `JSON`
type of the column loads it. `Row.named` is all that this changes: a row that is too long has the
key `None`, which JSON spells `"null"`.

* `readRawPayload_dumps`: either dialect accepts the text of every row and stores it as it is, and
  it reads back like the payload of the other `INSERT`, which is bound as a mapping.
* `import_keeps_payloads`: after an import, the payload of every provenance row is that of the
  source record it stands for, up to the spelling of the key `None`.
* `import_rebuilds_records`: what the bundled adapters emitted can be made again from the tables.
-/

namespace CardBinData

open Library

/-! ## Escapes -/

theorem hexValue?_hexDigit : ∀ n < 16, Json.hexValue? (hexDigit n) = some n := by decide

/-- The digits of an escape are its number. -/
theorem hex4_unicodeEscape {n : Nat} (h : n < 0x10000) (s : Str) :
    Json.hex4 ((unicodeEscape n).drop 2 ++ s) = some (n, s) := by
  have hdigit : ∀ m, Json.hexValue? (hexDigit (m % 16)) = some (m % 16) := fun m =>
    hexValue?_hexDigit _ (Nat.mod_lt m (by decide))
  have hsum : 4096 * (n / 4096 % 16) + 256 * (n / 256 % 16) + 16 * (n / 16 % 16) + n % 16 = n := by
    omega
  change Json.hex4 (hexDigit (n / 4096 % 16) :: hexDigit (n / 256 % 16) ::
    hexDigit (n / 16 % 16) :: hexDigit (n % 16) :: s) = _
  simp only [Json.hex4, hdigit, Option.bind_eq_bind, Option.bind_some, hsum]
  rfl

theorem readChar_plain {c : Char} (h : 0x20 ≤ c.toNat) (hquote : c ≠ '"') (hescape : c ≠ '\\')
    (s : Str) : Json.readChar (c :: s) = some (c, s) := by
  rw [Json.readChar, if_neg]
  · rintro (hc | hc | hc)
    · exact hquote hc
    · exact hescape hc
    · omega
  · exact fun _ hc => absurd hc hescape
  · exact fun _ _ hc => absurd hc hescape

/-- A character is no surrogate. -/
theorem not_surrogate (c : Char) : ¬ (0xd800 ≤ c.toNat ∧ c.toNat ≤ 0xdfff) := by
  have hvalid : c.toNat < 0xd800 ∨ 0xdfff < c.toNat ∧ c.toNat < 0x110000 := c.valid
  omega

theorem readChar_unicodeEscape {c : Char} (h : c.toNat < 0x10000) (s : Str) :
    Json.readChar (unicodeEscape c.toNat ++ s) = some (c, s) := by
  have hhex := hex4_unicodeEscape h s
  have hvalid := not_surrogate c
  change Json.readChar ('\\' :: 'u' :: ((unicodeEscape c.toNat).drop 2 ++ s)) = _
  rw [Json.readChar, hhex, Option.bind_some, if_neg (by omega), if_neg (by omega),
    Char.ofNat_toNat]

/-- A character above the basic plane is read back from its surrogates. -/
theorem readChar_surrogatePair {c : Char} (h : 0x10000 ≤ c.toNat) (s : Str) :
    Json.readChar (unicodeEscape (0xd800 + (c.toNat - 0x10000) / 0x400) ++
      unicodeEscape (0xdc00 + (c.toNat - 0x10000) % 0x400) ++ s) = some (c, s) := by
  have hvalid : c.toNat < 0xd800 ∨ 0xdfff < c.toNat ∧ c.toNat < 0x110000 := c.valid
  let high := 0xd800 + (c.toNat - 0x10000) / 0x400
  let low := 0xdc00 + (c.toNat - 0x10000) % 0x400
  have hlow : Json.lowSurrogate high (unicodeEscape low ++ s) = some (c, s) := by
    have hhex := hex4_unicodeEscape (n := low) (by omega) s
    have hpair : 0x10000 + 0x400 * (high - 0xd800) + (low - 0xdc00) = c.toNat := by omega
    change Json.lowSurrogate high ('\\' :: 'u' :: ((unicodeEscape low).drop 2 ++ s)) = _
    rw [Json.lowSurrogate, hhex, Option.bind_some, if_pos (by omega), hpair, Char.ofNat_toNat]
  have hhex := hex4_unicodeEscape (n := high) (by omega) (unicodeEscape low ++ s)
  rw [List.append_assoc]
  change Json.readChar
    ('\\' :: 'u' :: ((unicodeEscape high).drop 2 ++ (unicodeEscape low ++ s))) = _
  rw [Json.readChar, hhex, Option.bind_some, if_pos (by omega), hlow]

theorem eq_ofNat {c : Char} {n : Nat} (h : c.toNat = n) : c = Char.ofNat n := by
  rw [← h, Char.ofNat_toNat]

/-- **Every character is read back from its escape.** -/
theorem escapes_jsonChar : Json.Escapes jsonChar := by
  intro c s
  unfold jsonChar
  simp only
  split_ifs with hquote hescape hb hf hn hr ht hplain hbasic
  · rw [hquote]; rfl
  · rw [hescape]; rfl
  · rw [eq_ofNat hb]; rfl
  · rw [eq_ofNat hf]; rfl
  · rw [hn]; rfl
  · rw [hr]; rfl
  · rw [ht]; rfl
  · exact readChar_plain hplain.1 hquote hescape s
  · exact readChar_unicodeEscape hbasic s
  · exact readChar_surrogatePair (by omega) s

/-! ## Rows as JSON -/

/-- The value of a cell. -/
def Cell.json : Cell → Json
  | .text s => .string s
  | .missing => .null
  | .extra cells => .array (cells.map .string)

/-- The name of a column in JSON, where the key `None` is a string, too. -/
def columnName (key : Option Str) : Str := key.getD "null".toList

/-- The object of a row. -/
def Row.json (row : Row) : Json := .object (row.items.map fun e => (columnName e.1, e.2.json))

/-- The row with a name for each key; of two columns with one name the later one stays. -/
def Row.named (row : Row) : Row :=
  Dict.ofPairs (row.items.map fun e => (some (columnName e.1), e.2))

/-- The cell of a value: a payload holds strings, nulls and lists of strings. -/
def cellOf : Json → Option Cell
  | .string s => some (.text s)
  | .null => some .missing
  | .array items => (items.mapM Json.string?).map .extra
  | _ => none

/-- `json.loads` on the text of a payload. -/
def loads (text : Str) : Option Row :=
  match Json.parse text with
  | some (.object members) =>
    (members.mapM fun e => (cellOf e.2).map fun cell => (some e.1, cell)).map Dict.ofPairs
  | _ => none

theorem jsonCell_eq (cell : Cell) : jsonCell cell = Json.render jsonChar [] cell.json := by
  cases cell with
  | text s => rfl
  | missing => rfl
  | extra cells =>
    rw [Cell.json, Json.render, Json.renderItems_eq, List.map_map]
    rfl

/-- `dumps` writes the object of the row, without gaps. -/
theorem dumps_eq (row : Row) : dumps row = Json.render jsonChar [] row.json := by
  rw [Row.json, Json.render, Json.renderMembers_eq, List.map_map]
  unfold dumps
  congr 4
  funext e
  rw [jsonCell_eq]
  simp [columnName, jsonString, Json.quote]

theorem wellFormed_cell (cell : Cell) : cell.json.WellFormed := by
  cases cell with
  | text s => trivial
  | missing => trivial
  | extra cells =>
    induction cells with
    | nil => trivial
    | cons s cells ih => exact ⟨trivial, ih⟩

theorem wellFormed_row (row : Row) : row.json.WellFormed := by
  change Json.WellFormedMembers _
  induction row.items with
  | nil => trivial
  | cons e items ih => exact ⟨wellFormed_cell e.2, ih⟩

theorem cellOf_json (cell : Cell) : cellOf cell.json = some cell := by
  cases cell with
  | text s => rfl
  | missing => rfl
  | extra cells =>
    have hcells : (cells.map Json.string).mapM Json.string? = some cells := by
      rw [List.mapM_map]
      exact (mapM_eq_pure_map fun _ _ => rfl).trans (congrArg some (List.map_id cells))
    rw [Cell.json, cellOf, hcells]
    rfl

/-- **A payload is read back from its text**, with a name for each key. -/
theorem loads_render {gap : Str} (hgap : ∀ c ∈ gap, Json.isWs c = true) (row : Row) :
    loads (Json.render jsonChar gap row.json) = some row.named := by
  have hmembers : ((row.items.map fun e => (columnName e.1, e.2.json)).mapM fun e =>
      (cellOf e.2).map fun cell => (some e.1, cell)) =
      some (row.items.map fun e => (some (columnName e.1), e.2)) := by
    rw [List.mapM_map]
    exact mapM_eq_pure_map fun e _ => by simp [cellOf_json]
  unfold loads
  rw [Json.parse_render escapes_jsonChar hgap (wellFormed_row row)]
  simp only [Row.json, hmembers]
  rfl

/-! ## The column -/

/-- The dialects of `SUPPORTED_DRIVER_NAMES`. -/
inductive Dialect where
  | sqlite
  | postgresql
  deriving DecidableEq, Repr

/-- `_json_text_expression`: the text stored for a bound text; `none` where the engine refuses it.
SQLite's `json()` drops the white space, a cast to PostgreSQL's `JSON` keeps it. -/
def jsonTextExpression (dialect : Dialect) (rawPayloadJson : Str) : Option Str :=
  (Json.parse rawPayloadJson).map fun _ =>
    match dialect with
    | .sqlite => Json.minify rawPayloadJson
    | .postgresql => rawPayloadJson

/-- The text stored for a payload. The `JSON` type writes a mapping with the default separators of
`json.dumps`. -/
def storedText (dialect : Dialect) : RawPayload → Option Str
  | .mapping payload => some (Json.render jsonChar [' '] payload.json)
  | .jsonText text => jsonTextExpression dialect text

/-- The payload that the column reads back as. -/
def readRawPayload (dialect : Dialect) (rawPayload : RawPayload) : Option Row :=
  (storedText dialect rawPayload).bind loads

theorem jsonTextExpression_dumps (dialect : Dialect) (row : Row) :
    jsonTextExpression dialect (dumps row) = some (dumps row) := by
  have hminify :=
    @Json.minify_render _ [] escapes_jsonChar (by simp) row.json (wellFormed_row row) []
  rw [List.append_nil, ← dumps_eq, Json.minify, List.append_nil] at hminify
  have hparse := @Json.parse_render _ [] escapes_jsonChar (by simp) _ (wellFormed_row row)
  rw [← dumps_eq] at hparse
  unfold jsonTextExpression
  rw [hparse]
  cases dialect with
  | sqlite => rw [Option.map_some, hminify]
  | postgresql => rfl

theorem loads_dumps (row : Row) : loads (dumps row) = some row.named := by
  rw [dumps_eq]
  exact loads_render (by simp) row

/-- **Both ways of binding a payload read back alike**, and neither is refused. -/
theorem readRawPayload_dumps (dialect : Dialect) (row : Row) :
    storedText dialect (.jsonText (dumps row)) = some (dumps row) ∧
      readRawPayload dialect (.jsonText (dumps row)) = some row.named ∧
      readRawPayload dialect (.mapping row) = some row.named := by
  have hstored : storedText dialect (.jsonText (dumps row)) = some (dumps row) :=
    jsonTextExpression_dumps dialect row
  have hblank : ∀ c ∈ [' '], Json.isWs c = true := List.forall_mem_singleton.mpr rfl
  refine ⟨hstored, ?_, loads_render hblank row⟩
  unfold readRawPayload
  rw [hstored]
  exact loads_dumps row

/-! ## After an import -/

/-- A borrowed row has the payload of the record it names. -/
theorem rawPayload_of_mem_borrowedRows {records : List NormalizedSourceRecord}
    {storeRawPayload : Bool} {importedAt : Int} {p : Provenance}
    (h : p ∈ borrowedRows records storeRawPayload importedAt) :
    p.iinStart.length = eightDigitPrefixLength ∧ ∃ r ∈ records,
      r.iinStart = p.iinStart.take sixDigitPrefixLength ∧
      p = { ownRow storeRawPayload importedAt r with iinStart := p.iinStart } := by
  obtain ⟨m, -, hp⟩ := List.mem_flatMap.mp h
  obtain ⟨s, hs, rfl⟩ := List.mem_map.mp hp
  obtain ⟨hgroup, f, record, v, hfrom, -⟩ := mem_borrowedSources_iff.mp hs
  obtain ⟨hstaged, hk⟩ := mem_exactGroup.mp hgroup
  obtain ⟨r, hr, rfl⟩ := List.mem_map.mp hstaged
  refine ⟨hfrom.1.1, r, hr, hk, ?_⟩
  rw [← provenanceRow_restored records]
  rfl

/-- Columns with another name than `null` read alike. -/
theorem get_named (row : Row) {column : Str} (h : column ≠ "null".toList) :
    row.named.get column = row.get column := by
  have hname : ∀ key : Option Str, some (columnName key) = some column ↔ key = some column := by
    intro key
    cases key with
    | none => exact iff_of_false (fun heq => h (Option.some.inj heq).symm) (by simp)
    | some name => exact Iff.rfl
  have hget : row.named.get? (some column) = row.get? (some column) := row.get?_rename hname
  unfold Row.get
  rw [hget]

namespace BundledAdapter

/-- The record of a provenance row: its payload, read as a row of the adapter's file. -/
def renormalize (self : BundledAdapter) (sourceRowKey : Str) (payload : Row) :
    Option NormalizedSourceRecord :=
  (usableKey self.keyColumn payload).map fun iinStart =>
    self.normalize sourceRowKey iinStart payload

theorem keyColumn_ne : ∀ self : BundledAdapter, self.keyColumn ≠ "null".toList
  | binlistData _ _ => show "iin_start".toList ≠ "null".toList by decide
  | venelinkochev _ _ => show "BIN".toList ≠ "null".toList by decide
  | marlonlp _ _ => show "bin".toList ≠ "null".toList by decide

theorem normalize_named (self : BundledAdapter) (key iinStart : Str) (row : Row) :
    self.normalize key iinStart row.named =
      { self.normalize key iinStart row with rawPayload := row.named } := by
  have hget := fun column => @get_named row column
  cases self <;>
    simp (disch := decide) only [normalize, BinlistDataAdapter.normalize,
      VenelinkochevBinListDataAdapter.normalize, MarlonlpBinlistDataAdapter.normalize, hget]

/-- **An emitted record is made again from its row key and its payload.** -/
theorem renormalize_record {self : BundledAdapter} {r : NormalizedSourceRecord}
    (hr : r ∈ self.sourceAdapter.records) :
    self.renormalize r.rowKey r.rawPayload.named =
      some { r with rawPayload := r.rawPayload.named } := by
  obtain ⟨k, line, row, ⟨-, hk⟩, rfl⟩ := mem_records_iff.mp hr
  have hpayload : (self.record k line row).rawPayload = row := by cases self <;> rfl
  have hkey : usableKey self.keyColumn row.named = some k := by
    rw [← hk, usableKey, usableKey, get_named row self.keyColumn_ne]
  calc self.renormalize (self.record k line row).rowKey (self.record k line row).rawPayload.named
      = self.renormalize (rowKey (pathName self.localPath) line k) row.named := by
        rw [hpayload, record, rowKey_normalize]
    _ = some { self.record k line row with rawPayload := row.named } := by
        unfold renormalize
        rw [hkey, Option.map_some, normalize_named]
        rfl
    _ = _ := by rw [hpayload]

end BundledAdapter

/-- The record that a provenance row at its own key stands for, made again by the adapter of its
source. -/
def rebuilt (dialect : Dialect) (adapters : List BundledAdapter) (p : Provenance) :
    Option NormalizedSourceRecord := do
  let adapter ← adapters.find? fun adapter =>
    decide (adapter.sourceAdapter.metadata.sourceId = p.sourceId)
  let payload ← readRawPayload dialect p.rawPayload
  let record ← adapter.renormalize p.sourceRowKey payload
  if record.iinStart = p.iinStart then return record else none

section Rebuilt

variable {dialect : Dialect} {adapters : List BundledAdapter}
  (hdistinct : (adapters.map (·.sourceAdapter.metadata.sourceId)).Nodup) (importedAt : Int)
include hdistinct

/-- At the key `k`, the payload of a record makes the record again, if the key is its own. -/
theorem rebuilt_ownRow {r : NormalizedSourceRecord}
    (hr : r ∈ emitted (adapters.map (·.sourceAdapter))) (k : Str) :
    rebuilt dialect adapters { ownRow true importedAt r with iinStart := k } =
      if r.iinStart = k then some { r with rawPayload := r.rawPayload.named } else none := by
  unfold emitted at hr
  rw [List.flatMap_map, List.mem_flatMap] at hr
  obtain ⟨adapter, hadapter, hr⟩ := hr
  have hfind : (adapters.find? fun a =>
      decide (a.sourceAdapter.metadata.sourceId = r.source.sourceId)) = some adapter := by
    rw [sourceId_of_mem_records hr]
    exact find?_key hdistinct hadapter
  have hread : readRawPayload dialect (.jsonText (dumps r.rawPayload)) =
      some r.rawPayload.named := (readRawPayload_dumps dialect r.rawPayload).2.1
  unfold rebuilt ownRow
  simp only [hfind, if_true, hread, BundledAdapter.renormalize_record hr, Option.bind_eq_bind,
    Option.bind_some]
  rfl

/-- A borrowed row makes nothing: its key is not that of the record. -/
theorem rebuilt_borrowed {p : Provenance}
    (hp : p ∈ borrowedRows (emitted (adapters.map (·.sourceAdapter))) true importedAt) :
    rebuilt dialect adapters p = none := by
  obtain ⟨hlen, r, hr, hk, heq⟩ := rawPayload_of_mem_borrowedRows hp
  rw [heq, rebuilt_ownRow hdistinct importedAt hr, if_neg]
  intro hown
  have hshort := congrArg List.length (hk.symm.trans hown)
  rw [List.length_take, hlen] at hshort
  exact absurd hshort (by decide)

end Rebuilt

/-- **The emitted records can be made again from the tables.** An import of bundled adapters with
different source ids and their payloads returns, when no step fails, unless a number does not fit
into the stage. Then the provenance rows, read through the tables and normalized again by the
adapters, are the emitted records, each one once; all that is lost is the spelling of the key `None`
in the payload of a row that is too long. -/
theorem import_rebuilds_records (dialect : Dialect) (env : Environment)
    (adapters : List BundledAdapter)
    (hdistinct : (adapters.map (·.sourceAdapter.metadata.sourceId)).Nodup) (w : World) :
    (Completes (storeImportSources env.faultless (adapters.map (·.sourceAdapter)) true w) ↔
      ∀ r ∈ emitted (adapters.map (·.sourceAdapter)), Bindable r) ∧
    Post (storeImportSources env (adapters.map (·.sourceAdapter)) true w)
      (fun _ w' => (w'.committed.binRecordSources.filterMap fun s =>
          (w'.committed.resolve s.toBinRecordSourceValues).bind (rebuilt dialect adapters)).Perm
        ((emitted (adapters.map (·.sourceAdapter))).map fun r =>
          { r with rawPayload := r.rawPayload.named }))
      fun _ w' => w'.committed = w.committed := by
  let records := emitted (adapters.map (·.sourceAdapter))
  refine ⟨?_, (storeImportSources_post env _ true w).mono (fun _ w' h => ?_) fun _ _ h => h⟩
  · have hdistinct := nodup_contributions (nodup_rowIds_emitted hdistinct)
    exact (storeImportSources_returns_iff env _ true w).trans
      ⟨Importable.bindable, fun hbindable => ⟨hbindable, hdistinct⟩⟩
  have hperm := h.provenance.trans ((provenance_perm records true env.now).map some)
  have hrows := hperm.filterMap fun o => o.bind (rebuilt dialect adapters)
  rw [List.filterMap_map, List.filterMap_map, List.filterMap_append, List.filterMap_map] at hrows
  have hborrowed : (borrowedRows records true env.now).filterMap
      ((fun o => o.bind (rebuilt dialect adapters)) ∘ some) = [] :=
    List.filterMap_eq_nil_iff.mpr fun p hp => rebuilt_borrowed hdistinct env.now hp
  have hown : records.filterMap (((fun o => o.bind (rebuilt dialect adapters)) ∘ some) ∘
      ownRow true env.now) = records.map fun r => { r with rawPayload := r.rawPayload.named } := by
    rw [← List.filterMap_eq_map]
    refine List.filterMap_congr fun r hr => ?_
    exact (rebuilt_ownRow hdistinct env.now hr r.iinStart).trans (if_pos rfl)
  rwa [hborrowed, hown, List.append_nil] at hrows

/-- A file with a row that is too long, and not ASCII. -/
def longRow : List BundledAdapter :=
  [.venelinkochev ⟨"bins.csv".toList⟩
    [Dict.ofPairs [(some "BIN".toList, .text "457173".toList),
      (some "Issuer".toList, .text ['é', '"', '🏦']), (none, .extra ["x".toList, []])]]]

theorem import_rebuilds_records_longRow :
    (Completes (storeImportSources Environment.quiet.faultless (longRow.map (·.sourceAdapter)) true
        {}) ↔ ∀ r ∈ emitted (longRow.map (·.sourceAdapter)), Bindable r) ∧
    Post (storeImportSources Environment.quiet (longRow.map (·.sourceAdapter)) true {})
      (fun _ w' => (w'.committed.binRecordSources.filterMap fun s =>
          (w'.committed.resolve s.toBinRecordSourceValues).bind (rebuilt .sqlite longRow)).Perm
        ((emitted (longRow.map (·.sourceAdapter))).map fun r =>
          { r with rawPayload := r.rawPayload.named }))
      fun _ w' => w'.committed = World.committed {} :=
  import_rebuilds_records .sqlite Environment.quiet longRow (by decide) {}

end CardBinData
