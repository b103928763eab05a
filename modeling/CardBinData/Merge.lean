import CardBinData.Library.Grouping
import CardBinData.Types

/-!
# The merge (`merge.py`)

Source records with one `iin_start` are merged into one record, field by field, each field from
the sources listed for it in `FIELD_PRIORITY`. An 8-digit group with a `binlist/data` record also
takes the fields that `binlist/data` never supplies from the group of its 6-digit prefix, when
that group has been seen and is still in the prefix window.

`mergeSourceRecords` groups in memory and sorts the groups; `mergeSortedSourceRecords` reads a
stream sorted by `iin_start` and finds the groups as runs. Both walk the groups with
`mergeSortedGroup`, whose only state is the prefix window `prefixGroups`.
-/

namespace CardBinData

open Library (Dict Gen Transducer stableSort groupInto runs)

def primarySourceId : Str := "binlist/data".toList
def enrichmentSourceId : Str := "venelinkochev/bin-list-data".toList
def fallbackSourceId : Str := "marlonlp/binlist-data".toList
def sixDigitPrefixLength : Nat := 6
def eightDigitPrefixLength : Nat := 8

/-- `FIELD_PRIORITY`. -/
def fieldPriority : FieldName → List Str
  | .iinEnd => [primarySourceId]
  | .numberLength => [primarySourceId]
  | .luhn => [primarySourceId]
  | .scheme => [primarySourceId, enrichmentSourceId, fallbackSourceId]
  | .productBrand => [primarySourceId]
  | .type => [primarySourceId, enrichmentSourceId, fallbackSourceId]
  | .category => [enrichmentSourceId, fallbackSourceId]
  | .prepaid => [primarySourceId]
  | .countryAlpha2 => [enrichmentSourceId, primarySourceId]
  | .countryAlpha3 => [enrichmentSourceId]
  | .countryName => [enrichmentSourceId]
  | .issuerName => [enrichmentSourceId, primarySourceId, fallbackSourceId]
  | .issuerPhone => [enrichmentSourceId, primarySourceId]
  | .issuerUrl => [enrichmentSourceId, primarySourceId]
  | .issuerCity => [primarySourceId]

/-- `MERGED_FIELD_NAMES`, the keys of `FIELD_PRIORITY`. -/
def mergedFieldNames : List FieldName :=
  [.iinEnd, .numberLength, .luhn, .scheme, .productBrand, .type, .category, .prepaid,
    .countryAlpha2, .countryAlpha3, .countryName, .issuerName, .issuerPhone, .issuerUrl,
    .issuerCity]

/-- `CROSS_PREFIX_FIELD_NAMES`: the fields `binlist/data` never supplies. -/
def crossPrefixFieldNames : List FieldName :=
  mergedFieldNames.filter fun f => decide (primarySourceId ∉ fieldPriority f)

/-- `MergedSourceRecord`. -/
structure MergedSourceRecord where
  record : NormalizedSourceRecord
  sources : List NormalizedSourceRecord
  deriving DecidableEq

/-- The two loops of `_merged_value`: by source priority, then in group order, the first record
with a value for the field, and that value. -/
def supplier (f : FieldName) (group : List NormalizedSourceRecord) :
    Option (NormalizedSourceRecord × f.Value) :=
  (fieldPriority f).findSome? fun sourceId =>
    group.findSome? fun record =>
      if record.source.sourceId = sourceId then (record.getattr f).map fun v => (record, v)
      else none

/-- `_merged_value` without an accumulator. -/
def mergedValue (f : FieldName) (group : List NormalizedSourceRecord) : Option f.Value :=
  (supplier f group).map Prod.snd

/-- `record in records`. -/
def isIn (record : NormalizedSourceRecord) (records : List NormalizedSourceRecord) : Bool :=
  records.any (· == record)

/-- `_merged_value` with an accumulator of supplying records. -/
def mergedValueWith (f : FieldName) (group sourceAccumulator : List NormalizedSourceRecord) :
    Option f.Value × List NormalizedSourceRecord :=
  match supplier f group with
  | none => (none, sourceAccumulator)
  | some (record, value) =>
    (some value,
      if isIn record sourceAccumulator then sourceAccumulator else sourceAccumulator ++ [record])

/-- The dictionary `merged_values`, one entry for each field. -/
abbrev MergedValues := (f : FieldName) → Option f.Value

/-- One round of the loop over `CROSS_PREFIX_FIELD_NAMES`. -/
def crossPrefixStep (prefixGroup : List NormalizedSourceRecord)
    (s : MergedValues × List NormalizedSourceRecord) (f : FieldName) :
    MergedValues × List NormalizedSourceRecord :=
  if (s.1 f).isNone then
    (Function.update s.1 f (mergedValueWith f prefixGroup s.2).1,
      (mergedValueWith f prefixGroup s.2).2)
  else s

/-- `merged_values` and `prefix_sources` as `_merge_group` leaves them. -/
def mergedValues (group : List NormalizedSourceRecord)
    (prefixGroup : Option (List NormalizedSourceRecord)) :
    MergedValues × List NormalizedSourceRecord :=
  match prefixGroup with
  | none => (fun f => mergedValue f group, [])
  | some prefixGroup =>
    crossPrefixFieldNames.foldl (crossPrefixStep prefixGroup) (fun f => mergedValue f group, [])

/-- `_merge_group`; a group is never empty. -/
def mergeGroup (iinStart : Str) (group : List NormalizedSourceRecord)
    (prefixGroup : Option (List NormalizedSourceRecord)) :
    NormalizedSourceRecord × List NormalizedSourceRecord :=
  let seed := group.head!
  let (values, prefixSources) := mergedValues group prefixGroup
  ({ seed with
      rowKey := "merged:".toList ++ iinStart
      iinStart := iinStart
      rawPayload := Dict.empty
      iinEnd := values .iinEnd
      numberLength := values .numberLength
      luhn := values .luhn
      scheme := values .scheme
      productBrand := values .productBrand
      type := values .type
      category := values .category
      prepaid := values .prepaid
      countryAlpha2 := values .countryAlpha2
      countryAlpha3 := values .countryAlpha3
      countryName := values .countryName
      issuerName := values .issuerName
      issuerPhone := values .issuerPhone
      issuerUrl := values .issuerUrl
      issuerCity := values .issuerCity },
    (prefixGroup.getD []).filter fun record => isIn record prefixSources)

/-- The prefix window: groups by their 6-digit `iin_start`. -/
abbrev PrefixGroups := Dict Str (List NormalizedSourceRecord)

/-- `_drop_expired_prefix_groups`. -/
def dropExpiredPrefixGroups (prefixGroups : PrefixGroups) (iinStart : Str) : PrefixGroups :=
  prefixGroups.keys.foldl (fun d p => if startswith iinStart p then d else d.erase p) prefixGroups

/-- `_six_digit_prefix_group`. -/
def sixDigitPrefixGroup (iinStart : Str) (group : List NormalizedSourceRecord)
    (prefixGroups : PrefixGroups) : Option (List NormalizedSourceRecord) :=
  if iinStart.length ≠ eightDigitPrefixLength then none
  else if !group.any fun record => decide (record.source.sourceId = primarySourceId) then none
  else prefixGroups.get? (iinStart.take sixDigitPrefixLength)

/-- `_merge_sorted_group`: the window after the group, and the merged record. -/
def mergeSortedGroup (prefixGroups : PrefixGroups) (g : Str × List NormalizedSourceRecord) :
    PrefixGroups × MergedSourceRecord :=
  let live := dropExpiredPrefixGroups prefixGroups g.1
  let (record, prefixSources) := mergeGroup g.1 g.2 (sixDigitPrefixGroup g.1 g.2 live)
  (if g.1.length = sixDigitPrefixLength then live.set g.1 g.2 else live,
    ⟨record, g.2 ++ prefixSources⟩)

/-- The loop over the groups, shared by both merges: the prefix window is its only state. -/
def mergeSortedGroups : Transducer (Str × List NormalizedSourceRecord) MergedSourceRecord :=
  Transducer.mapAccum mergeSortedGroup Dict.empty

/-- `merge_source_records`: group in memory, sort the groups, merge them. -/
def mergeSourceRecords (records : List NormalizedSourceRecord) : List MergedSourceRecord :=
  mergeSortedGroups.run mergeSortedGroups.init
    (stableSort Prod.fst (groupInto NormalizedSourceRecord.iinStart records).items)

/-- `_iter_sorted_groups`: the runs of equal `iin_start`. -/
def iterSortedGroups {m : Type → Type} [Monad m] (records : Gen m NormalizedSourceRecord) :
    Gen m (Str × List NormalizedSourceRecord) :=
  records.transduce (runs NormalizedSourceRecord.iinStart)

/-- `merge_sorted_source_records`. -/
def mergeSortedSourceRecords {m : Type → Type} [Monad m] (records : Gen m NormalizedSourceRecord) :
    Gen m MergedSourceRecord :=
  (iterSortedGroups records).transduce mergeSortedGroups

end CardBinData
