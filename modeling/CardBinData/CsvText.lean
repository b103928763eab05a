import CardBinData.Sources
import CardBinData.Library.Csv

/-!
# From the text of a CSV file to row keys (`sources/_csv.py`, the `_normalize_rows` of the adapters)

`csv.DictReader` takes the first record of `csv.reader` for the header and makes a row of every
other record that is not empty (`dictRows`); the adapters count those rows, from 2 on, and write the
count into `row_key` as the line number. `emitted` keeps beside each emitted record (`emitted_fst`)
the line of the file its row starts on.

The count is the line exactly when, above the rows that are emitted, every line is a record of its
own and no line after the header is blank (`namesLines_iff`); `blank_line_shifts_rowKey` is a file
with a blank line.

The files are those that `csv.reader` reads to the end: it raises at a cell longer than
`csv.field_size_limit()`, 131072 characters by default.
-/

namespace CardBinData

open Library Library.Csv

/-! ## `csv.DictReader` -/

/-- The row of a record: cells beyond the header go under `None`, columns beyond the record get
`None`. -/
def dictRow (fieldnames fields : List Str) : Row :=
  let row := Dict.ofPairs ((fieldnames.map some).zip (fields.map .text))
  if fieldnames.length < fields.length then
    row.set none (.extra (fields.drop fieldnames.length))
  else
    (fieldnames.drop fields.length).foldl (fun row name => row.set (some name) .missing) row

/-- The rows of a file, each with the line it starts on. -/
def dictRows : List Csv.Record → List (Row × Nat)
  | [] => []
  | header :: records =>
    (records.filter fun record => !record.fields.isEmpty).map fun record =>
      (dictRow header.fields record.fields, record.line)

/-- A line with nothing but its end. -/
def BlankLine (line : Str) : Prop := ∀ c ∈ line, isNewline c = true

instance (line : Str) : Decidable (BlankLine line) := inferInstanceAs (Decidable (∀ _ ∈ _, _))

/-- Above line `line` each line is a record of its own, and none after the header is blank. -/
def PlainAbove (delimiter : Char) (text : Str) (line : Nat) : Prop :=
  (∀ above ∈ (universalLines text).take (line - 1), EndsRecord delimiter above) ∧
  ∀ above ∈ ((universalLines text).take (line - 1)).drop 1, ¬ BlankLine above

instance (delimiter : Char) (text : Str) (line : Nat) :
    Decidable (PlainAbove delimiter text line) :=
  inferInstanceAs (Decidable (_ ∧ _))

/-! ## Counts and lines -/

/-- The count of the rows before a row is its place among the records that are not empty. -/
theorem mem_zipIdx_filter_iff {α : Type} {p : α → Bool} {l : List α} {k n : Nat} {x : α} :
    (x, n) ∈ (l.filter p).zipIdx k ↔
      ∃ front back, l = front ++ x :: back ∧ p x = true ∧
        n = k + (front.filter p).length := by
  induction l generalizing k with
  | nil => simp
  | cons y l ih =>
    by_cases hy : p y = true
    · rw [List.filter_cons_of_pos hy, List.zipIdx_cons, List.mem_cons, ih]
      constructor
      · rintro (heq | ⟨front, back, rfl, hx, rfl⟩)
        · obtain ⟨rfl, rfl⟩ := Prod.mk.inj heq
          exact ⟨[], l, rfl, hy, rfl⟩
        · refine ⟨y :: front, back, rfl, hx, ?_⟩
          rw [List.filter_cons_of_pos hy, List.length_cons]
          omega
      · rintro ⟨front, back, heq, hx, rfl⟩
        cases front with
        | nil =>
          obtain ⟨rfl, rfl⟩ := List.cons.inj heq
          exact .inl rfl
        | cons z front =>
          obtain ⟨rfl, rfl⟩ := List.cons.inj heq
          refine .inr ⟨front, back, rfl, hx, ?_⟩
          rw [List.filter_cons_of_pos hy, List.length_cons]
          omega
    · rw [List.filter_cons_of_neg hy, ih]
      constructor
      · rintro ⟨front, back, rfl, hx, rfl⟩
        exact ⟨y :: front, back, rfl, hx, by rw [List.filter_cons_of_neg hy]⟩
      · rintro ⟨front, back, heq, hx, rfl⟩
        cases front with
        | nil =>
          obtain ⟨rfl, rfl⟩ := List.cons.inj heq
          exact absurd hx hy
        | cons z front =>
          obtain ⟨rfl, rfl⟩ := List.cons.inj heq
          exact ⟨front, back, rfl, hx, by rw [List.filter_cons_of_neg hy]⟩

section Lines

variable {delimiter : Char} {text : Str} {header : Csv.Record} {front back : List Csv.Record}
  {record : Csv.Record}

/-- Lines that are records of their own give empty records exactly where they are blank. -/
theorem isEmpty_lineFields_iff {line : Str} (hline : line ∈ universalLines text)
    (hends : EndsRecord delimiter line) :
    (lineFields delimiter line).isEmpty = true ↔ BlankLine line := by
  rw [List.isEmpty_iff]
  exact fields_eq_nil_iff hline hends

/-- Where the records before one are the lines above it, none of them is skipped exactly when none
of those lines is blank. -/
theorem length_filter_eq_iff {lines : List Str}
    (hlines : ∀ line ∈ lines, line ∈ universalLines text)
    (hends : ∀ line ∈ lines, EndsRecord delimiter line)
    (hfields : front.map (·.fields) = lines.map (lineFields delimiter)) :
    (front.filter fun record => !record.fields.isEmpty).length = front.length ↔
      ∀ line ∈ lines, ¬ BlankLine line := by
  have hmap : (∀ record ∈ front, (!record.fields.isEmpty) = true) ↔
      ∀ fields ∈ front.map (·.fields), (!fields.isEmpty) = true := by
    rw [List.forall_mem_map]
  rw [List.length_filter_eq_length_iff, hmap, hfields, List.forall_mem_map]
  refine forall₂_congr fun line hline => ?_
  rw [Bool.not_eq_true', Bool.eq_false_iff, ne_eq,
    isEmpty_lineFields_iff (hlines line hline) (hends line hline)]

/-- **The count of a row is its line exactly when the lines above it are plain.** -/
theorem count_eq_line_iff
    (h : records delimiter text = header :: (front ++ record :: back)) :
    2 + (front.filter fun record => !record.fields.isEmpty).length = record.line ↔
      PlainAbove delimiter text record.line := by
  obtain ⟨hle, hiff, hfields⟩ := records_split
    (show recordsFrom delimiter 1 1 {} (universalLines text) = (header :: front) ++ record :: back
      from h)
  have hfilter := List.length_filter_le (fun record : Csv.Record => !record.fields.isEmpty) front
  rw [List.length_cons] at hle hiff hfields
  -- the header is the first line, and the records before this one are the others above it
  have hskipped : (∀ above ∈ (universalLines text).take (record.line - 1),
      EndsRecord delimiter above) →
      ((front.filter fun record => !record.fields.isEmpty).length = front.length ↔
        ∀ above ∈ ((universalLines text).take (record.line - 1)).drop 1, ¬ BlankLine above) := by
    intro hends
    have htail := congrArg (List.drop 1) (hfields (hiff.mpr hends))
    rw [List.map_cons, List.drop_one, List.tail_cons, ← List.map_drop] at htail
    exact length_filter_eq_iff (fun line hline => List.mem_of_mem_take (List.mem_of_mem_drop hline))
      (fun line hline => hends line (List.mem_of_mem_drop hline)) htail
  constructor
  · intro hcount
    have hends := hiff.mp (by omega)
    exact ⟨hends, (hskipped hends).mp (by omega)⟩
  · rintro ⟨hends, hblank⟩
    have hline := hiff.mpr hends
    have hlength := (hskipped hends).mpr hblank
    omega

end Lines

/-! ## The adapters over a text -/

/-- A bundled adapter. -/
inductive BundledSource where
  | binlistData (adapter : BinlistDataAdapter)
  | venelinkochev (adapter : VenelinkochevBinListDataAdapter)
  | marlonlp (adapter : MarlonlpBinlistDataAdapter)

namespace BundledSource

/-- The delimiter its `iter_records` passes to `iter_csv_records`. -/
def delimiter : BundledSource → Char
  | binlistData _ => ','
  | venelinkochev _ => ','
  | marlonlp _ => ';'

/-- The adapter over a file with the given rows. -/
def withRows : BundledSource → List Row → BundledAdapter
  | binlistData adapter => .binlistData adapter
  | venelinkochev adapter => .venelinkochev adapter
  | marlonlp adapter => .marlonlp adapter

/-- The rows of a text, each with the line it starts on. -/
def rowsOf (self : BundledSource) (text : Str) : List (Row × Nat) :=
  dictRows (records self.delimiter text)

/-- The adapter over a file with the given text. -/
def adapterOf (self : BundledSource) (text : Str) : BundledAdapter :=
  self.withRows ((self.rowsOf text).map Prod.fst)

/-- The loop of `_normalize_rows` over a text: every emitted record, with the line of the file its
row starts on. -/
def emitted (self : BundledSource) (text : Str) : List (NormalizedSourceRecord × Nat) :=
  ((self.rowsOf text).zipIdx 2).filterMap fun p =>
    (usableKey (self.adapterOf text).keyColumn p.1.1).map fun iinStart =>
      ((self.adapterOf text).record iinStart p.2 p.1.1, p.1.2)

/-- The line number in each emitted `row_key` is the line the row starts on. -/
def NamesLines (self : BundledSource) (text : Str) : Prop :=
  ∀ r line, (r, line) ∈ self.emitted text →
    r.rowKey = rowKey (pathName (self.adapterOf text).localPath) line r.iinStart

theorem rows_withRows (self : BundledSource) (rows : List Row) :
    (self.withRows rows).rows = rows := by
  cases self <;> rfl

/-- **`emitted` is what the adapter emits.** -/
theorem emitted_fst (self : BundledSource) (text : Str) :
    (self.emitted text).map Prod.fst = (self.adapterOf text).sourceAdapter.records := by
  rw [BundledAdapter.records_eq, normalizeRows, adapterOf, rows_withRows, List.zipIdx_map,
    List.filterMap_map, emitted, List.map_filterMap]
  refine List.filterMap_congr fun p _ => ?_
  rw [Option.map_map]
  rfl

/-- What an emitted record says of its line, and what is true of it. -/
theorem mem_emitted_iff {self : BundledSource} {text : Str} {r : NormalizedSourceRecord}
    {line : Nat} : (r, line) ∈ self.emitted text ↔
      ∃ row count iinStart, ((row, line), count) ∈ (self.rowsOf text).zipIdx 2 ∧
        usableKey (self.adapterOf text).keyColumn row = some iinStart ∧
        r = (self.adapterOf text).record iinStart count row := by
  rw [emitted, List.mem_filterMap]
  constructor
  · rintro ⟨⟨⟨row, start⟩, count⟩, hmem, hr⟩
    obtain ⟨iinStart, hkey, heq⟩ := Option.map_eq_some_iff.mp hr
    obtain ⟨rfl, rfl⟩ := Prod.mk.inj heq
    exact ⟨row, count, iinStart, hmem, hkey, rfl⟩
  · rintro ⟨row, count, iinStart, hmem, hkey, rfl⟩
    exact ⟨((row, line), count), hmem, Option.map_eq_some_iff.mpr ⟨iinStart, hkey, rfl⟩⟩

theorem count_rowsOf {self : BundledSource} {text : Str} {row : Row} {line count : Nat}
    (h : ((row, line), count) ∈ (self.rowsOf text).zipIdx 2) :
    count = line ↔ PlainAbove self.delimiter text line := by
  unfold rowsOf at h
  cases hrecords : records self.delimiter text with
  | nil =>
    rw [hrecords] at h
    exact absurd h List.not_mem_nil
  | cons header rest =>
    rw [hrecords, dictRows, List.zipIdx_map, List.mem_map] at h
    obtain ⟨⟨record, n⟩, hmem, heq⟩ := h
    obtain ⟨front, back, rfl, -, rfl⟩ := mem_zipIdx_filter_iff.mp hmem
    obtain ⟨hrow, rfl⟩ := Prod.mk.inj heq
    obtain ⟨-, rfl⟩ := Prod.mk.inj hrow
    exact count_eq_line_iff hrecords

/-- **Row keys name the physical line** exactly when every row with a usable key stands below plain
lines only. -/
theorem namesLines_iff (self : BundledSource) (text : Str) : self.NamesLines text ↔
    ∀ row line, (row, line) ∈ self.rowsOf text →
      (usableKey (self.adapterOf text).keyColumn row).isSome →
      PlainAbove self.delimiter text line := by
  have hkey (k : Str) (count line : Nat) (row : Row) :
      ((self.adapterOf text).record k count row).rowKey =
          rowKey (pathName (self.adapterOf text).localPath) line
            ((self.adapterOf text).record k count row).iinStart ↔
        count = line := by
    rw [BundledAdapter.record, BundledAdapter.rowKey_normalize, BundledAdapter.iinStart_normalize]
    exact ⟨lineNumber_of_rowKey, fun h => h ▸ rfl⟩
  constructor
  · intro hnames row line hrow husable
    obtain ⟨k, hk⟩ := Option.isSome_iff_exists.mp husable
    obtain ⟨i, hi, hget⟩ := List.mem_iff_getElem.mp hrow
    have hcount : ((row, line), 2 + i) ∈ (self.rowsOf text).zipIdx 2 :=
      List.mk_add_mem_zipIdx_iff_getElem?.mpr (List.getElem?_eq_some_iff.mpr ⟨hi, hget⟩)
    exact (count_rowsOf hcount).mp
      ((hkey k _ line row).mp (hnames _ line (mem_emitted_iff.mpr ⟨row, _, k, hcount, hk, rfl⟩)))
  · intro hplain r line hr
    obtain ⟨row, count, k, hcount, hk, rfl⟩ := mem_emitted_iff.mp hr
    have hrow : (row, line) ∈ self.rowsOf text := List.fst_mem_of_mem_zipIdx hcount
    exact (hkey k count line row).mpr
      ((count_rowsOf hcount).mpr (hplain row line hrow (Option.isSome_iff_exists.mpr ⟨k, hk⟩)))

/-- A file with a blank line after its header, and its one row. -/
def blankLineText : Str := "iin_start\n\n45717360\n".toList

def rowBelowBlankLine : Row := Dict.ofPairs [(some "iin_start".toList, .text "45717360".toList)]

/-- **A blank line shifts the numbers below it**: the row stands on line 3, and its key says 2. -/
theorem blank_line_shifts_rowKey :
    ¬ ∀ (self : BundledSource) (text : Str), self.NamesLines text := by
  let self := BundledSource.binlistData ⟨"ranges.csv".toList⟩
  let r := (self.adapterOf blankLineText).record "45717360".toList 2 rowBelowBlankLine
  have hrows : self.rowsOf blankLineText = [(rowBelowBlankLine, 3)] := by decide +kernel
  have hmem : (r, 3) ∈ self.emitted blankLineText :=
    mem_emitted_iff.mpr
      ⟨rowBelowBlankLine, 2, _, hrows ▸ List.mem_cons_self, by decide +kernel, rfl⟩
  have hkey : r.rowKey ≠ rowKey (pathName "ranges.csv".toList) 3 r.iinStart := by decide +kernel
  exact fun h => hkey (h self blankLineText r 3 hmem)

end BundledSource

end CardBinData
