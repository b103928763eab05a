import CardBinData.Library.Dict
import CardBinData.Library.Lexicographic
import Mathlib.Data.Char
import Mathlib.Data.List.DropRight

/-!
# Python text

A `str` is the list of its code points, compared lexicographically by code point (`Char`), which
is how Python and SQLite's `BINARY` collation compare text. A lone surrogate, which no UTF-8 file
decodes to, is not a `Char`.

* `isspace`, `strip`, `digitValue?`, `isdecimal`: Unicode 15 (Python 3.12). `isdecimal` accepts
  every character of category `Nd`, not only `0`–`9`.
* `pyInt`: `int()` on stripped text, with the 4300-digit limit of the interpreter.
* `Row`: a row of `csv.DictReader`, and `dumps`, its `json.dumps` with the compact separators.
-/

namespace CardBinData

open Library (Dict padRight)

/-- A Python `str`. -/
abbrev Str := List Char

/-- `str.isspace` on one character. -/
def isspace (c : Char) : Bool :=
  let n := c.toNat
  (0x09 ≤ n && n ≤ 0x0d) || (0x1c ≤ n && n ≤ 0x20) || n == 0x85 || n == 0xa0 || n == 0x1680 ||
    (0x2000 ≤ n && n ≤ 0x200a) || n == 0x2028 || n == 0x2029 || n == 0x202f || n == 0x205f ||
    n == 0x3000

/-- `str.strip()`. -/
def strip (s : Str) : Str := ((s.dropWhile isspace).reverse.dropWhile isspace).reverse

/-- The code points of the zeros of category `Nd`; each starts a block of ten digits. -/
def decimalZeros : List Nat :=
  [0x30, 0x660, 0x6f0, 0x7c0, 0x966, 0x9e6, 0xa66, 0xae6, 0xb66, 0xbe6, 0xc66, 0xce6, 0xd66,
    0xde6, 0xe50, 0xed0, 0xf20, 0x1040, 0x1090, 0x17e0, 0x1810, 0x1946, 0x19d0, 0x1a80, 0x1a90,
    0x1b50, 0x1bb0, 0x1c40, 0x1c50, 0xa620, 0xa8d0, 0xa900, 0xa9d0, 0xa9f0, 0xaa50, 0xabf0,
    0xff10, 0x104a0, 0x10d30, 0x11066, 0x110f0, 0x11136, 0x111d0, 0x112f0, 0x11450, 0x114d0,
    0x11650, 0x116c0, 0x11730, 0x118e0, 0x11950, 0x11c50, 0x11d50, 0x11da0, 0x11f50, 0x16a60,
    0x16ac0, 0x16b50, 0x1d7ce, 0x1d7d8, 0x1d7e2, 0x1d7ec, 0x1d7f6, 0x1e140, 0x1e2f0, 0x1e4f0,
    0x1e950, 0x1fbf0]

/-- The decimal value of a character, `int(character)`. -/
def digitValue? (c : Char) : Option Nat :=
  decimalZeros.findSome? fun z =>
    if z ≤ c.toNat ∧ c.toNat < z + 10 then some (c.toNat - z) else none

/-- `str.isdecimal()`: not empty, and decimal digits only. -/
def isdecimal (s : Str) : Bool := !s.isEmpty && s.all fun c => (digitValue? c).isSome

/-- `0` to `9`. -/
def isAsciiDigit (c : Char) : Bool := '0' ≤ c && c ≤ '9'

/-- The value of an ASCII digit. -/
def asciiDigitValue (c : Char) : Nat := c.toNat - '0'.toNat

/-- Only the characters `0` to `9`. -/
def AsciiDigits (s : Str) : Prop := ∀ c ∈ s, isAsciiDigit c = true

instance (s : Str) : Decidable (AsciiDigits s) := List.decidableBAll _ s

/-- `s.ljust(width, fill)`. -/
def ljust (s : Str) (width : Nat) (fill : Char) : Str := padRight width fill s

/-- `s.startswith(p)`. -/
def startswith (s p : Str) : Bool := p.isPrefixOf s

/-- The digits of an integer literal: single underscores may stand between digits. -/
def intDigits : Str → Option (List Nat)
  | [] => none
  | [c] => (digitValue? c).map fun d => [d]
  | c :: '_' :: rest => (digitValue? c).bind fun d => (intDigits rest).map (d :: ·)
  | c :: c' :: rest => (digitValue? c).bind fun d => (intDigits (c' :: rest)).map (d :: ·)

/-- The interpreter's limit on the digits of an integer literal. -/
def intMaxStrDigits : Nat := 4300

/-- The value of an unsigned literal; `none` where `int()` raises `ValueError`. -/
def pyNat (s : Str) : Option Nat :=
  (intDigits s).bind fun ds =>
    if ds.length ≤ intMaxStrDigits then some (ds.foldl (fun n d => 10 * n + d) 0) else none

/-- `int(s)` on stripped text; `none` where it raises `ValueError`. -/
def pyInt : Str → Option Int
  | '-' :: s => (pyNat s).map fun n => -(n : Int)
  | '+' :: s => (pyNat s).map fun n => (n : Int)
  | s => (pyNat s).map fun n => (n : Int)

example : pyInt "-1_0".toList = some (-10) ∧ pyInt "1__0".toList = none := by decide

/-- Simple case folding of the letters that fold into `1`, `true`, `yes` or `y`. A character that
folds to anything else is left alone, so membership in those words is not affected. -/
def casefold (s : Str) : Str :=
  s.map fun c => if c.toNat = 0x17f then 's' else c.toLower

/-! ## JSON -/

def hexDigit (n : Nat) : Char := if n < 10 then Char.ofNat (0x30 + n) else Char.ofNat (0x57 + n)

/-- `\uXXXX`. -/
def unicodeEscape (n : Nat) : Str :=
  ['\\', 'u', hexDigit (n / 4096 % 16), hexDigit (n / 256 % 16), hexDigit (n / 16 % 16),
    hexDigit (n % 16)]

/-- One character of a JSON string, ASCII only; above the basic plane as a surrogate pair. -/
def jsonChar (c : Char) : Str :=
  let n := c.toNat
  if c = '"' then ['\\', '"'] else if c = '\\' then ['\\', '\\']
  else if n = 0x08 then ['\\', 'b'] else if n = 0x0c then ['\\', 'f']
  else if c = '\n' then ['\\', 'n'] else if c = '\r' then ['\\', 'r']
  else if c = '\t' then ['\\', 't']
  else if 0x20 ≤ n ∧ n ≤ 0x7e then [c]
  else if n < 0x10000 then unicodeEscape n
  else unicodeEscape (0xd800 + (n - 0x10000) / 0x400) ++
    unicodeEscape (0xdc00 + (n - 0x10000) % 0x400)

def jsonString (s : Str) : Str := '"' :: s.flatMap jsonChar ++ ['"']

/-- A value of a row: the columns that a short row lacks are `None`, and what a long row has too
much is a list. -/
inductive Cell where
  | text (s : Str)
  | missing
  | extra (cells : List Str)
  deriving DecidableEq

/-- A row of `csv.DictReader`. The key `none` is the reader's `None`, under which it puts `extra`
cells; every other key is a column name. -/
abbrev Row := Dict (Option Str) Cell

/-- `row.get(column)`. -/
def Row.get (row : Row) (column : Str) : Option Str :=
  match row.get? (some column) with
  | some (.text s) => some s
  | _ => none

def jsonCell : Cell → Str
  | .text s => jsonString s
  | .missing => "null".toList
  | .extra cells => '[' :: List.intercalate [','] (cells.map jsonString) ++ [']']

/-- `dumps(row, separators=(",", ":"))`; a key `None` is written `"null"`. -/
def dumps (row : Row) : Str :=
  '{' :: List.intercalate [','] (row.items.map fun e =>
    jsonString (e.1.getD "null".toList) ++ ':' :: jsonCell e.2) ++ ['}']

/-! ## Lemmas -/

theorem strip_eq_nil_iff {s : Str} : strip s = [] ↔ ∀ c ∈ s, isspace c = true := by
  change List.rdropWhile isspace (s.dropWhile isspace) = [] ↔ _
  rw [List.rdropWhile_eq_nil_iff]
  refine ⟨fun h => List.dropWhile_eq_nil_iff.mp ?_, fun h c hc => ?_⟩
  · -- what `dropWhile` leaves would start with a character that is no white space
    cases hd : s.dropWhile isspace with
    | nil => rfl
    | cons c rest =>
      have hhead := List.head?_dropWhile_not isspace s
      rw [hd] at h hhead
      exact absurd (h c List.mem_cons_self) (by simpa using hhead)
  · exact h c (List.dropWhile_sublist _ |>.subset hc)

/-- What `strip` leaves starts with no white space. -/
theorem head?_strip (s : Str) : ∀ c ∈ (strip s).head?, isspace c = false := by
  intro c hc
  have hleft : strip s <+: s.dropWhile isspace := List.rdropWhile_prefix isspace _
  obtain ⟨rest, hrest⟩ := List.head?_eq_some_iff.mp hc
  obtain ⟨back, hback⟩ := hleft
  have hhead := List.head?_dropWhile_not isspace s
  rw [← hback, hrest] at hhead
  simpa using hhead

/-- What `strip` leaves ends with no white space. -/
theorem getLast?_strip (s : Str) : ∀ c ∈ (strip s).getLast?, isspace c = false := by
  intro c hc
  have hne : strip s ≠ [] := fun h => by
    rw [h] at hc
    exact absurd hc (by simp)
  rw [List.getLast?_eq_some_getLast hne, Option.mem_some_iff] at hc
  rw [← hc, Bool.eq_false_iff]
  exact List.rdropWhile_last_not _ _ hne

@[simp] theorem length_ljust (s : Str) (width : Nat) (fill : Char) :
    (ljust s width fill).length = max s.length width :=
  Library.length_padRight width fill s

theorem ljust_of_length_le {s : Str} {width : Nat} (h : width ≤ s.length) (fill : Char) :
    ljust s width fill = s :=
  Library.padRight_of_length_le h fill

theorem zero_le_of_isAsciiDigit {c : Char} (h : isAsciiDigit c = true) : '0' ≤ c := by
  simp only [isAsciiDigit, Bool.and_eq_true, decide_eq_true_eq] at h
  exact h.1

theorem le_nine_of_isAsciiDigit {c : Char} (h : isAsciiDigit c = true) : c ≤ '9' := by
  simp only [isAsciiDigit, Bool.and_eq_true, decide_eq_true_eq] at h
  exact h.2

/-- Every decimal digit is at or above `0`, which starts the first block. -/
theorem zero_le_of_digitValue {c : Char} {d : Nat} (h : digitValue? c = some d) : '0' ≤ c := by
  obtain ⟨z, hz, hc⟩ := List.exists_of_findSome?_eq_some h
  split at hc
  · rename_i hzc
    have h30 : ∀ z ∈ decimalZeros, 0x30 ≤ z := by decide
    exact (h30 z hz).trans hzc.1
  · exact absurd hc (by simp)

theorem zero_le_of_isdecimal {s : Str} (h : isdecimal s = true) : ∀ c ∈ s, '0' ≤ c := by
  intro c hc
  simp only [isdecimal, Bool.and_eq_true, List.all_eq_true] at h
  obtain ⟨d, hd⟩ := Option.isSome_iff_exists.mp (h.2 c hc)
  exact zero_le_of_digitValue hd

theorem asciiDigitValue_lt {c : Char} (h : isAsciiDigit c = true) : asciiDigitValue c < 10 := by
  have h₁ : 0x30 ≤ c.toNat := zero_le_of_isAsciiDigit h
  have h₂ : c.toNat ≤ 0x39 := le_nine_of_isAsciiDigit h
  change c.toNat - 0x30 < 10
  omega

theorem asciiDigitValue_inj {c c' : Char} (h : isAsciiDigit c = true) (h' : isAsciiDigit c' = true)
    (heq : asciiDigitValue c = asciiDigitValue c') : c = c' := by
  have h₁ : 0x30 ≤ c.toNat := zero_le_of_isAsciiDigit h
  have h₂ : 0x30 ≤ c'.toNat := zero_le_of_isAsciiDigit h'
  have heq : c.toNat - 0x30 = c'.toNat - 0x30 := heq
  exact Char.toNat_inj.mp (by omega)

theorem digitValue_of_isAsciiDigit {c : Char} (h : isAsciiDigit c = true) :
    digitValue? c = some (c.toNat - 0x30) := by
  have h₁ : 0x30 ≤ c.toNat := zero_le_of_isAsciiDigit h
  have h₂ : c.toNat ≤ 0x39 := le_nine_of_isAsciiDigit h
  unfold digitValue? decimalZeros
  rw [List.findSome?_cons, if_pos ⟨h₁, by omega⟩]

/-- A non-empty string of ASCII digits is decimal. -/
theorem isdecimal_of_asciiDigits {s : Str} (h : AsciiDigits s) (hne : s ≠ []) :
    isdecimal s = true := by
  simp only [isdecimal, Bool.and_eq_true, List.all_eq_true]
  refine ⟨by simpa using hne, fun c hc => ?_⟩
  rw [digitValue_of_isAsciiDigit (h c hc)]
  rfl

theorem ne_of_isAsciiDigit {c d : Char} (h : isAsciiDigit c = true) (hd : isAsciiDigit d = false) :
    c ≠ d := fun heq => Bool.false_ne_true (hd.symm.trans (heq ▸ h))

/-- ASCII digits are a literal without underscores. -/
theorem intDigits_of_asciiDigits {s : Str} (h : AsciiDigits s) (hne : s ≠ []) :
    intDigits s = some (s.map asciiDigitValue) := by
  have hvalue : ∀ c ∈ s, digitValue? c = some (asciiDigitValue c) := fun c hc =>
    digitValue_of_isAsciiDigit (h c hc)
  induction s with
  | nil => exact absurd rfl hne
  | cons c s ih =>
    cases s with
    | nil => simp [intDigits, hvalue]
    | cons c' s =>
      have hunderscore : c' ≠ '_' := ne_of_isAsciiDigit (h c' (by simp)) rfl
      rw [intDigits, hvalue c List.mem_cons_self, Option.bind_some,
        ih (fun d hd => h d (List.mem_cons_of_mem c hd)) (List.cons_ne_nil _ _)
          fun d hd => hvalue d (List.mem_cons_of_mem c hd)]
      · rfl
      · exact fun heq => hunderscore heq

/-- **`int` of ASCII digits** is their numeral. -/
theorem pyInt_of_asciiDigits {s : Str} (h : AsciiDigits s) (hne : s ≠ [])
    (hlen : s.length ≤ intMaxStrDigits) :
    pyInt s = some (s.foldl (fun n c => 10 * n + asciiDigitValue c) 0 : Nat) := by
  have hnat : pyNat s = some (s.foldl (fun n c => 10 * n + asciiDigitValue c) 0) := by
    unfold pyNat
    rw [intDigits_of_asciiDigits h hne, Option.bind_some, List.length_map, if_pos hlen,
      List.foldl_map]
  unfold pyInt
  split
  · exact absurd rfl (ne_of_isAsciiDigit (h '-' List.mem_cons_self) rfl)
  · exact absurd rfl (ne_of_isAsciiDigit (h '+' List.mem_cons_self) rfl)
  · rw [hnat]
    rfl

end CardBinData
