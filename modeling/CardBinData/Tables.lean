import CardBinData.Types

/-!
# The tables (`db/models.py`)

Each table is the list of its rows, oldest first; a row is the inserted values with the surrogate
`id` the engine gave it. The audit timestamps of the base class are left out: nothing reads them.

The constraints the engine enforces are `uq_data_sources_source_id` and
`uq_bin_record_sources_record_source_row`. Nothing makes `iin_start` unique, and foreign keys are
not assumed to be checked.
-/

namespace CardBinData

/-- The columns of `data_sources`. -/
structure DataSourceValues where
  sourceId : Str
  displayName : Str
  upstreamUrl : Str
  license : Option Str
  localPath : Option Str
  deriving DecidableEq

/-- `DataSourceModel`. -/
structure DataSourceModel extends DataSourceValues where
  id : Nat
  deriving DecidableEq

/-- The columns of `bin_records`. -/
structure BinRecordValues where
  iinStart : Str
  iinEnd : Option Str := none
  rangeStart8 : Option Str := none
  rangeEnd8 : Option Str := none
  numberLength : Option Int := none
  luhn : Option Bool := none
  scheme : Option Str := none
  productBrand : Option Str := none
  type : Option Str := none
  category : Option Str := none
  prepaid : Option Bool := none
  countryAlpha2 : Option Str := none
  countryAlpha3 : Option Str := none
  countryName : Option Str := none
  issuerName : Option Str := none
  issuerPhone : Option Str := none
  issuerUrl : Option Str := none
  issuerCity : Option Str := none
  deriving DecidableEq

/-- `BinRecordModel`. -/
structure BinRecordModel extends BinRecordValues where
  id : Nat
  deriving DecidableEq

/-- The value bound to `raw_payload`: a mapping, or JSON text through the dialect's JSON
function. -/
inductive RawPayload where
  | mapping (payload : Row)
  | jsonText (text : Str)
  deriving DecidableEq

/-- The columns of `bin_record_sources`. -/
structure BinRecordSourceValues where
  binRecordId : Nat
  dataSourceId : Nat
  sourceRowKey : Str
  importedAt : Option Int
  rawPayload : RawPayload
  deriving DecidableEq

/-- `BinRecordSourceModel`. -/
structure BinRecordSourceModel extends BinRecordSourceValues where
  id : Nat
  deriving DecidableEq

/-- The three tables. -/
structure Database where
  dataSources : List DataSourceModel := []
  binRecords : List BinRecordModel := []
  binRecordSources : List BinRecordSourceModel := []
  deriving DecidableEq

/-- The tables before any import. -/
def Database.empty : Database := {}

/-- The rows an `INSERT` adds: the values with the ids the engine gives them. -/
def newRows {ν ρ : Type} (mk : ν → Nat → ρ) (values : List ν) (ids : List Nat) : List ρ :=
  (values.zip ids).map fun p => mk p.1 p.2

/-- `uq_data_sources_source_id`. -/
def UqDataSourcesSourceId (rows : List DataSourceModel) : Prop := (rows.map (·.sourceId)).Nodup

instance (rows : List DataSourceModel) : Decidable (UqDataSourcesSourceId rows) :=
  inferInstanceAs (Decidable (List.Nodup _))

/-- The columns of `uq_bin_record_sources_record_source_row`. -/
def BinRecordSourceValues.uniqueKey (row : BinRecordSourceValues) : Nat × Nat × Str :=
  (row.binRecordId, row.dataSourceId, row.sourceRowKey)

/-- `uq_bin_record_sources_record_source_row`. -/
def UqBinRecordSources (rows : List BinRecordSourceModel) : Prop :=
  (rows.map (·.uniqueKey)).Nodup

instance (rows : List BinRecordSourceModel) : Decidable (UqBinRecordSources rows) :=
  inferInstanceAs (Decidable (List.Nodup _))

/-! ## Inserted rows -/

section NewRows

variable {ν ρ : Type} {mk : ν → Nat → ρ} {values : List ν} {ids : List Nat}

theorem map_values_newRows (h : ids.length = values.length) {v : ρ → ν}
    (hv : ∀ a i, v (mk a i) = a) : (newRows mk values ids).map v = values := by
  unfold newRows
  rw [List.map_map]
  have hfst : v ∘ (fun p : ν × Nat => mk p.1 p.2) = Prod.fst := funext fun p => hv p.1 p.2
  rw [hfst]
  exact List.map_fst_zip h.ge

theorem map_ids_newRows (h : ids.length = values.length) {i : ρ → Nat}
    (hi : ∀ a n, i (mk a n) = n) : (newRows mk values ids).map i = ids := by
  unfold newRows
  rw [List.map_map]
  have hsnd : i ∘ (fun p : ν × Nat => mk p.1 p.2) = Prod.snd := funext fun p => hi p.1 p.2
  rw [hsnd]
  exact List.map_snd_zip h.le

/-- What `RETURNING key, id` gives for the new rows. -/
theorem map_pair_newRows {κ : Type} {key : ν → κ} {k : ρ → κ} {i : ρ → Nat}
    (hk : ∀ a n, k (mk a n) = key a) (hi : ∀ a n, i (mk a n) = n) :
    (newRows mk values ids).map (fun r => (k r, i r)) = (values.map key).zip ids := by
  unfold newRows
  rw [List.map_map, List.zip_map_left]
  exact List.map_congr_left fun p _ => Prod.ext (hk p.1 p.2) (hi p.1 p.2)

end NewRows

end CardBinData
