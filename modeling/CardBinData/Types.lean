import CardBinData.Text

/-!
# Source and result types (`types.py`, `results.py`)

The fifteen normalized fields of a record are indexed by `FieldName`, and `FieldName.Value` is the
type of each. `getattr` reads a field of a source record by its name, as the merge does.

`NormalizedSourceRecord` also carries the extra attribute of its subclass `_StagedSourceRecord`
(`importer.py:55-59`): `rawPayloadJson` is `none` on a plain record. Equality of records is
Python's (`BEq`): field by field, the raw payload as a mapping.
-/

namespace CardBinData

open Library (Dict)

/-- `LookupStatus`. -/
inductive LookupStatus where
  | found
  | notFound
  | invalid
  deriving DecidableEq, Repr

/-- `SourceMetadata`; the local path as its string. -/
structure SourceMetadata where
  sourceId : Str
  displayName : Str
  upstreamUrl : Str
  license : Option Str := none
  localPath : Option Str := none
  deriving DecidableEq

/-- `SourceAttribution`. -/
structure SourceAttribution where
  sourceId : Str
  upstreamUrl : Str
  license : Option Str := none
  importedAt : Option Int := none
  sourceRowKey : Option Str := none
  deriving DecidableEq

/-- `LookupQuery`; `queryPrefix` is its field `prefix`. -/
structure LookupQuery where
  queryPrefix : Str
  candidates : List Str := []
  isFullPanInput : Bool := false
  deriving DecidableEq

/-- The normalized fields, in the order of `FIELD_PRIORITY`. -/
inductive FieldName where
  | iinEnd
  | numberLength
  | luhn
  | scheme
  | productBrand
  | type
  | category
  | prepaid
  | countryAlpha2
  | countryAlpha3
  | countryName
  | issuerName
  | issuerPhone
  | issuerUrl
  | issuerCity
  deriving DecidableEq, Repr

/-- The type of a field's values. -/
abbrev FieldName.Value : FieldName → Type
  | .numberLength => Int
  | .luhn => Bool
  | .prepaid => Bool
  | _ => Str

/-- `BinInfo`. -/
structure BinInfo where
  iinStart : Str
  iinEnd : Option Str := none
  numberLength : Option Int := none
  luhn : Option Bool := none
  scheme : Option Str := none
  productBrand : Option Str := none
  type : Option Str := none
  category : Option Str := none
  prepaid : Option Bool := none
  countryAlpha2 : Option Str := none
  countryAlpha3 : Option Str := none
  countryName : Option Str := none
  issuerName : Option Str := none
  issuerPhone : Option Str := none
  issuerUrl : Option Str := none
  issuerCity : Option Str := none
  deriving DecidableEq

/-- `NormalizedSourceRecord`, and `_StagedSourceRecord` when `rawPayloadJson` is set. -/
structure NormalizedSourceRecord where
  source : SourceMetadata
  rowKey : Str
  iinStart : Str
  iinEnd : Option Str := none
  numberLength : Option Int := none
  luhn : Option Bool := none
  scheme : Option Str := none
  productBrand : Option Str := none
  type : Option Str := none
  category : Option Str := none
  prepaid : Option Bool := none
  countryAlpha2 : Option Str := none
  countryAlpha3 : Option Str := none
  countryName : Option Str := none
  issuerName : Option Str := none
  issuerPhone : Option Str := none
  issuerUrl : Option Str := none
  issuerCity : Option Str := none
  rawPayload : Row := Dict.empty
  rawPayloadJson : Option Str := none
  deriving DecidableEq

/-- `BinInfo`'s field of a given name. -/
def BinInfo.field (info : BinInfo) : (f : FieldName) → Option f.Value
  | .iinEnd => info.iinEnd
  | .numberLength => info.numberLength
  | .luhn => info.luhn
  | .scheme => info.scheme
  | .productBrand => info.productBrand
  | .type => info.type
  | .category => info.category
  | .prepaid => info.prepaid
  | .countryAlpha2 => info.countryAlpha2
  | .countryAlpha3 => info.countryAlpha3
  | .countryName => info.countryName
  | .issuerName => info.issuerName
  | .issuerPhone => info.issuerPhone
  | .issuerUrl => info.issuerUrl
  | .issuerCity => info.issuerCity

namespace NormalizedSourceRecord

/-- `getattr(record, field_name)`. -/
def getattr (record : NormalizedSourceRecord) : (f : FieldName) → Option f.Value
  | .iinEnd => record.iinEnd
  | .numberLength => record.numberLength
  | .luhn => record.luhn
  | .scheme => record.scheme
  | .productBrand => record.productBrand
  | .type => record.type
  | .category => record.category
  | .prepaid => record.prepaid
  | .countryAlpha2 => record.countryAlpha2
  | .countryAlpha3 => record.countryAlpha3
  | .countryName => record.countryName
  | .issuerName => record.issuerName
  | .issuerPhone => record.issuerPhone
  | .issuerUrl => record.issuerUrl
  | .issuerCity => record.issuerCity

instance : Inhabited NormalizedSourceRecord :=
  ⟨{ source := ⟨[], [], [], none, none⟩, rowKey := [], iinStart := [] }⟩

/-- `a == b`: the raw payloads are compared as mappings, everything else for equality. -/
instance : BEq NormalizedSourceRecord where
  beq a b :=
    a.rawPayload == b.rawPayload &&
      decide ({ a with rawPayload := Dict.empty } = { b with rawPayload := Dict.empty })

theorem beq_iff {a b : NormalizedSourceRecord} :
    (a == b) = true ↔ a.rawPayload.items.Perm b.rawPayload.items ∧
      { a with rawPayload := Dict.empty } = { b with rawPayload := Dict.empty } := by
  change (a.rawPayload == b.rawPayload && decide _) = true ↔ _
  rw [Bool.and_eq_true_iff, Dict.beq_iff, decide_eq_true_iff]

theorem beq_self (a : NormalizedSourceRecord) : (a == a) = true :=
  beq_iff.mpr ⟨List.Perm.refl _, rfl⟩

theorem beq_trans {a b c : NormalizedSourceRecord} (h : (a == b) = true) (h' : (b == c) = true) :
    (a == c) = true := by
  rw [beq_iff] at h h' ⊢
  exact ⟨h.1.trans h'.1, h.2.trans h'.2⟩

/-- Equal records agree on everything but the order of the raw payload. -/
theorem eq_of_beq {a b : NormalizedSourceRecord} (h : (a == b) = true) :
    { a with rawPayload := Dict.empty } = { b with rawPayload := Dict.empty } :=
  (beq_iff.mp h).2

end NormalizedSourceRecord

/-- `LookupResult`. -/
structure LookupResult where
  status : LookupStatus
  query : LookupQuery
  data : Option BinInfo := none
  validationWarnings : List Str := []
  sources : List SourceAttribution := []
  deriving DecidableEq

end CardBinData
