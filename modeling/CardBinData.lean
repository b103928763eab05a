import CardBinData.MergeSpec
import CardBinData.LookupPriority
import CardBinData.PanSafety
import CardBinData.StageFile
import CardBinData.ImportedTables
import CardBinData.Coverage
import CardBinData.TableInvariant
import CardBinData.CorruptRow
import CardBinData.SourceFailure
import CardBinData.AdapterOrder
import CardBinData.PayloadFlag
import CardBinData.BatchSizes
import CardBinData.ColumnMaps
import CardBinData.ProvenanceUnique
import CardBinData.PrefixWindow
import CardBinData.StageRoundTrip
import CardBinData.Luhn
import CardBinData.RangeNumerals
import CardBinData.Reachability
import CardBinData.StoreLifecycle
import CardBinData.CsvText
import CardBinData.Concurrency
import CardBinData.DictionaryAccess
import CardBinData.RawPayload
import CardBinData.Catalog
import CardBinData.Enrichment
import CardBinData.Interruption
import CardBinData.Readers
import CardBinData.Grounds
import CardBinData.ColumnWidths
import CardBinData.Residency
