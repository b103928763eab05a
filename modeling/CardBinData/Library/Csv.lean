import Mathlib.Data.List.Basic

/-!
# Reading CSV text

A text file opened with `newline=""` gives its lines with their ends, which are `\n`, `\r` or
`\r\n` (`universalLines`). `csv.reader`, with the dialect `excel` and a given delimiter, is an
automaton over the characters of a line and its end (`processChar`, `endLine`); a record is
complete when the automaton is back at the start of a record at the end of a line, so a quoted
field may carry it over several lines. The limit on the length of a field is left out: beyond it
`csv.reader` raises, so the texts meant here have no such field.

`records` gives every record with the number of the line it starts on. `records_split` says where:
a record never starts before the line its place among the records suggests, and it starts on that
line exactly when every line above it is a record of its own (`EndsRecord`).
-/

namespace CardBinData.Library.Csv

/-- The characters that end a line. -/
def isNewline (c : Char) : Bool := c == '\n' || c == '\r'

/-- The lines of a text, with their ends. -/
def universalLines : List Char → List (List Char)
  | [] => []
  | '\r' :: '\n' :: text => ['\r', '\n'] :: universalLines text
  | c :: text =>
    if isNewline c then [c] :: universalLines text
    else
      match universalLines text with
      | [] => [[c]]
      | line :: lines => (c :: line) :: lines

/-- The states of `csv.reader`, without those of an escape character. -/
inductive ReaderState where
  | startRecord
  | startField
  | inField
  | inQuotedField
  | quoteInQuotedField
  | eatNewline
  deriving DecidableEq, Repr

/-- `csv.reader` inside a record: the field being read, and those read before it. -/
structure Reader where
  state : ReaderState := .startRecord
  field : List Char := []
  fields : List (List Char) := []
  deriving DecidableEq, Repr

namespace Reader

/-- `parse_save_field`, and the state after it. -/
def saveField (r : Reader) (state : ReaderState) : Reader :=
  ⟨state, [], r.fields ++ [r.field]⟩

/-- `parse_add_char`, and the state after it. -/
def addChar (r : Reader) (c : Char) (state : ReaderState) : Reader :=
  ⟨state, r.field ++ [c], r.fields⟩

/-- A character where a field may start. -/
def atStartField (delimiter : Char) (r : Reader) (c : Char) : Reader :=
  if isNewline c then r.saveField .eatNewline
  else if c = '"' then { r with state := .inQuotedField }
  else if c = delimiter then r.saveField .startField
  else r.addChar c .inField

/-- `parse_process_char`. -/
def processChar (delimiter : Char) (r : Reader) (c : Char) : Reader :=
  match r.state with
  | .startRecord =>
    if isNewline c then { r with state := .eatNewline } else r.atStartField delimiter c
  | .startField => r.atStartField delimiter c
  | .inField =>
    if isNewline c then r.saveField .eatNewline
    else if c = delimiter then r.saveField .startField
    else r.addChar c .inField
  | .inQuotedField =>
    if c = '"' then { r with state := .quoteInQuotedField } else r.addChar c .inQuotedField
  | .quoteInQuotedField =>
    if c = '"' then r.addChar c .inQuotedField
    else if c = delimiter then r.saveField .startField
    else if isNewline c then r.saveField .eatNewline
    else r.addChar c .inField
  -- anything but a newline raises here; in a line of a file nothing else follows one
  | .eatNewline => r

/-- `parse_process_char` at the end of a line. -/
def endLine (r : Reader) : Reader :=
  match r.state with
  | .startRecord => r
  | .inQuotedField => r
  | .eatNewline => { r with state := .startRecord }
  | .startField => r.saveField .startRecord
  | .inField => r.saveField .startRecord
  | .quoteInQuotedField => r.saveField .startRecord

/-- One line of the file. -/
def readLine (delimiter : Char) (r : Reader) (line : List Char) : Reader :=
  (line.foldl (processChar delimiter) r).endLine

end Reader

/-- A record, and the number of the line it starts on. -/
structure Record where
  line : Nat
  fields : List (List Char)
  deriving DecidableEq, Repr

/-- The records of `csv.reader` on the lines from number `n` on, inside a record that starts on line
`start`. -/
def recordsFrom (delimiter : Char) : Nat → Nat → Reader → List (List Char) → List Record
  | _, start, r, [] =>
    if r.field ≠ [] ∨ r.state = .inQuotedField then [⟨start, r.fields ++ [r.field]⟩] else []
  | n, start, r, line :: lines =>
    if (r.readLine delimiter line).state = .startRecord then
      ⟨start, (r.readLine delimiter line).fields⟩ ::
        recordsFrom delimiter (n + 1) (n + 1) {} lines
    else recordsFrom delimiter (n + 1) start (r.readLine delimiter line) lines

/-- The records of `csv.reader` on a file. -/
def records (delimiter : Char) (text : List Char) : List Record :=
  recordsFrom delimiter 1 1 {} (universalLines text)

/-! ## Lines -/

/-- The ends of a line. -/
def lineEnds : List (List Char) := [[], ['\n'], ['\r'], ['\r', '\n']]

/-- **Newlines stand at the end of a line only.** -/
theorem exists_body {text line : List Char} (h : line ∈ universalLines text) :
    ∃ body, ∃ ending ∈ lineEnds, line = body ++ ending ∧ ∀ c ∈ body, isNewline c = false := by
  fun_induction universalLines text generalizing line with
  | case1 => exact absurd h List.not_mem_nil
  | case2 text ih =>
    rcases List.mem_cons.mp h with rfl | h
    · exact ⟨[], _, by decide, rfl, by simp⟩
    · exact ih h
  | case3 c text _ hc ih =>
    rcases List.mem_cons.mp h with rfl | h
    · refine ⟨[], [c], ?_, rfl, by simp⟩
      simp only [isNewline, Bool.or_eq_true, beq_iff_eq] at hc
      rcases hc with rfl | rfl <;> decide
    · exact ih h
  | case4 c text _ hc hnil ih =>
    rw [List.mem_singleton.mp h]
    exact ⟨[c], [], by decide, rfl, by simpa using hc⟩
  | case5 c text _ hc first lines hlines ih =>
    rcases List.mem_cons.mp h with rfl | h
    · obtain ⟨body, ending, hending, rfl, hbody⟩ := ih (hlines ▸ List.mem_cons_self)
      exact ⟨c :: body, ending, hending, rfl,
        List.forall_mem_cons.mpr ⟨by simpa using hc, hbody⟩⟩
    · exact ih (hlines ▸ List.mem_cons_of_mem first h)

/-- The reader has something of a field: it will not end an empty record. -/
def Busy (r : Reader) : Prop :=
  r.state ≠ .startRecord ∧ (r.state = .eatNewline → r.fields ≠ [])

theorem busy_saveField (r : Reader) {state : ReaderState} (h : state ≠ .startRecord) :
    Busy (r.saveField state) := ⟨h, fun _ => by simp [Reader.saveField]⟩

theorem busy_of_state {r : Reader} (h : r.state ≠ .startRecord) (h' : r.state ≠ .eatNewline) :
    Busy r := ⟨h, fun he => absurd he h'⟩

theorem busy_addChar (r : Reader) (c : Char) {state : ReaderState} (h : state ≠ .startRecord)
    (h' : state ≠ .eatNewline) : Busy (r.addChar c state) := busy_of_state h h'

theorem busy_atStartField (delimiter : Char) (r : Reader) (c : Char) :
    Busy (r.atStartField delimiter c) := by
  unfold Reader.atStartField
  split
  · exact busy_saveField r (by simp)
  split
  · exact busy_of_state (by simp) (by simp)
  split
  · exact busy_saveField r (by simp)
  · exact busy_addChar r c (by simp) (by simp)

theorem busy_processChar {delimiter : Char} {r : Reader} (h : Busy r) (c : Char) :
    Busy (r.processChar delimiter c) := by
  cases hstate : r.state with
  | startRecord => exact absurd hstate h.1
  | startField =>
    simp only [Reader.processChar, hstate]
    exact busy_atStartField delimiter r c
  | inField =>
    simp only [Reader.processChar, hstate]
    split
    · exact busy_saveField r (by simp)
    split
    · exact busy_saveField r (by simp)
    · exact busy_addChar r c (by simp) (by simp)
  | inQuotedField =>
    simp only [Reader.processChar, hstate]
    split
    · exact busy_of_state (by simp) (by simp)
    · exact busy_addChar r c (by simp) (by simp)
  | quoteInQuotedField =>
    simp only [Reader.processChar, hstate]
    split
    · exact busy_addChar r c (by simp) (by simp)
    split
    · exact busy_saveField r (by simp)
    split
    · exact busy_saveField r (by simp)
    · exact busy_addChar r c (by simp) (by simp)
  | eatNewline =>
    simp only [Reader.processChar, hstate]
    exact h

theorem busy_foldl {delimiter : Char} {r : Reader} (h : Busy r) (l : List Char) :
    Busy (l.foldl (Reader.processChar delimiter) r) := by
  induction l generalizing r with
  | nil => exact h
  | cons c l ih => exact ih (busy_processChar h c)

/-- A record that ends has the field that kept the reader busy. -/
theorem fields_endLine {r : Reader} (h : Busy r) (hend : r.endLine.state = .startRecord) :
    r.endLine.fields ≠ [] := by
  cases hstate : r.state with
  | startRecord => exact absurd hstate h.1
  | inQuotedField => simp [Reader.endLine, hstate] at hend
  | eatNewline =>
    simp only [Reader.endLine, hstate]
    exact h.2 hstate
  | startField => simp [Reader.endLine, hstate, Reader.saveField]
  | inField => simp [Reader.endLine, hstate, Reader.saveField]
  | quoteInQuotedField => simp [Reader.endLine, hstate, Reader.saveField]

/-- **A record is empty exactly when its line is**: nothing but a newline. -/
theorem fields_eq_nil_iff {delimiter : Char} {text line : List Char}
    (hline : line ∈ universalLines text)
    (hend : (Reader.readLine delimiter {} line).state = .startRecord) :
    (Reader.readLine delimiter {} line).fields = [] ↔ ∀ c ∈ line, isNewline c = true := by
  obtain ⟨body, ending, hending, rfl, hbody⟩ := exists_body hline
  cases body with
  | nil =>
    simp only [lineEnds, List.mem_cons, List.not_mem_nil, or_false] at hending
    rcases hending with rfl | rfl | rfl | rfl <;> simp [Reader.readLine, Reader.processChar,
      Reader.endLine, isNewline]
  | cons c body =>
    have hc : isNewline c = false := hbody c List.mem_cons_self
    have hfirst : Busy (Reader.processChar delimiter {} c) := by
      have hstart : Reader.processChar delimiter {} c = Reader.atStartField delimiter {} c := by
        simp [Reader.processChar, hc]
      rw [hstart]
      exact busy_atStartField delimiter {} c
    refine ⟨fun hnil => absurd hnil ?_, fun h => absurd (h c (by simp)) (by simp [hc])⟩
    rw [Reader.readLine, List.cons_append, List.foldl_cons] at hend ⊢
    exact fields_endLine (busy_foldl hfirst (body ++ ending)) hend

/-! ## Where records start -/

section Start

variable {delimiter : Char}

/-- The reader ends a record at the end of the line: no quoted field goes on. -/
def EndsRecord (delimiter : Char) (line : List Char) : Prop :=
  (Reader.readLine delimiter {} line).state = .startRecord

instance (delimiter : Char) (line : List Char) : Decidable (EndsRecord delimiter line) :=
  inferInstanceAs (Decidable (_ = _))

/-- The fields of a line that is a record of its own. -/
def lineFields (delimiter : Char) (line : List Char) : List (List Char) :=
  (Reader.readLine delimiter {} line).fields

/-- The first record starts where the reader stands, and each later one on a line of its own. -/
theorem start_le {n start : Nat} {r : Reader} {lines : List (List Char)} {front back : List Record}
    {record : Record}
    (h : recordsFrom delimiter n start r lines = front ++ record :: back) :
    if front = [] then record.line = start else n + front.length ≤ record.line := by
  induction lines generalizing n start r front with
  | nil =>
    unfold recordsFrom at h
    split at h
    · cases front with
      | nil => exact (List.cons.inj h).1 ▸ rfl
      | cons x front => exact absurd (List.cons.inj h).2 (by simp)
    · exact absurd h (by simp)
  | cons line lines ih =>
    unfold recordsFrom at h
    split at h
    · cases front with
      | nil => exact (List.cons.inj h).1 ▸ rfl
      | cons x front =>
        have htail := ih (List.cons.inj h).2
        rw [if_neg (List.cons_ne_nil x front), List.length_cons]
        split at htail
        · rename_i hnil
          subst hnil
          rw [htail]
          exact Nat.le_refl _
        · omega
    · have htail := ih h
      split at htail
      · rename_i hnil
        rw [if_pos hnil]
        exact htail
      · rename_i hne
        rw [if_neg hne]
        omega

/-- **Where a record starts.** It starts on the line that its place suggests, or later; on that
line exactly when every line above it is a record of its own, and then those are the records
before it. -/
theorem records_split {n : Nat} {lines : List (List Char)} {front back : List Record}
    {record : Record} (h : recordsFrom delimiter n n {} lines = front ++ record :: back) :
    n + front.length ≤ record.line ∧
    (record.line = n + front.length ↔
      ∀ line ∈ lines.take (record.line - n), EndsRecord delimiter line) ∧
    (record.line = n + front.length →
      front.map (·.fields) = (lines.take (record.line - n)).map (lineFields delimiter)) := by
  induction lines generalizing n front with
  | nil =>
    simp only [recordsFrom, ne_eq, not_true_eq_false, reduceCtorEq, or_self, if_false] at h
    exact absurd h (by simp)
  | cons line lines ih =>
    cases front with
    | nil =>
      have hstart := start_le h
      rw [if_pos rfl] at hstart
      simp [hstart]
    | cons x front =>
      unfold recordsFrom at h
      split at h
      · rename_i hends
        obtain ⟨hx, htail⟩ := List.cons.inj h
        obtain ⟨hle, hiff, hfields⟩ := ih htail
        have htake : record.line - n = record.line - (n + 1) + 1 := by omega
        rw [htake, List.take_succ_cons, List.forall_mem_cons, List.length_cons]
        refine ⟨by omega, ?_, fun heq => ?_⟩
        · rw [and_iff_right (show EndsRecord delimiter line from hends), ← hiff]
          omega
        · rw [List.map_cons, List.map_cons, hfields (by omega), ← hx]
          rfl
      · rename_i hopen
        have hlow := start_le h
        rw [if_neg (List.cons_ne_nil x front)] at hlow
        have htake : record.line - n = record.line - (n + 1) + 1 := by omega
        rw [htake, List.take_succ_cons, List.forall_mem_cons, List.length_cons]
        rw [List.length_cons] at hlow
        exact ⟨by omega, ⟨fun heq => by omega, fun hall => absurd hall.1 hopen⟩,
          fun heq => by omega⟩

end Start

end CardBinData.Library.Csv
