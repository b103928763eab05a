import CardBinData.Environment
import CardBinData.Input
import CardBinData.Lookup

/-!
# The lookup client (`client.py`)

A lookup reads the tables and changes nothing, so it is a function of the tables its session sees.
It answers `none` where Python raises `AttributeError`: a provenance row of the answer refers to a
data source that does not exist.
-/

namespace CardBinData

/-- `_bin_info`. -/
def binInfo (record : BinRecordModel) : BinInfo where
  iinStart := record.iinStart
  iinEnd := record.iinEnd
  numberLength := record.numberLength
  luhn := record.luhn
  scheme := record.scheme
  productBrand := record.productBrand
  type := record.type
  category := record.category
  prepaid := record.prepaid
  countryAlpha2 := record.countryAlpha2
  countryAlpha3 := record.countryAlpha3
  countryName := record.countryName
  issuerName := record.issuerName
  issuerPhone := record.issuerPhone
  issuerUrl := record.issuerUrl
  issuerCity := record.issuerCity

/-- `source.data_source`. -/
def Database.dataSource (db : Database) (source : BinRecordSourceModel) : Option DataSourceModel :=
  db.dataSources.find? fun d => decide (d.id = source.dataSourceId)

/-- `record.sources`, eager-loaded. -/
def Database.sources (backend : Backend) (db : Database) (record : BinRecordModel) :
    List BinRecordSourceModel :=
  backend.collected (db.binRecordSources.filter fun s => decide (s.binRecordId = record.id))

/-- One `SourceAttribution`. -/
def sourceAttribution (db : Database) (source : BinRecordSourceModel) : Option SourceAttribution :=
  (db.dataSource source).map fun d =>
    { sourceId := d.sourceId
      upstreamUrl := d.upstreamUrl
      license := d.license
      importedAt := source.importedAt
      sourceRowKey := some source.sourceRowKey }

/-- `_source_attributions`. -/
def sourceAttributions (backend : Backend) (db : Database) (record : BinRecordModel) :
    Option (List SourceAttribution) :=
  (db.sources backend record).mapM (sourceAttribution db)

/-- `BinData.lookup_with_session`, and `lookup` on the committed tables. -/
def lookupWithSession (backend : Backend) (db : Database) (value : Str) (validateLuhn : Bool) :
    Option LookupResult :=
  let normalized := normalizeLookupInput value validateLuhn
  if normalized.status = .invalid then some normalized
  else
    match lookupRecord db.binRecords normalized.query with
    | none =>
      some
        { status := .notFound
          query := normalized.query
          validationWarnings := normalized.validationWarnings }
    | some record => do
      let sources ← sourceAttributions backend db record
      return {
        status := .found
        query := normalized.query
        data := some (binInfo record)
        validationWarnings := normalized.validationWarnings
        sources := sources }

end CardBinData
