import Mathlib.Data.Char
import Mathlib.Data.List.Basic
import Mathlib.Data.List.TakeWhile

/-!
# JSON texts

A JSON value (`Json`), the text of one (`render`), the reader of a text (`parse`), and the removal
of the white space between its tokens (`minify`). A number is its literal, an object its members in
the order of the text, a name that occurs twice included. Strings are lists of characters, so an
escaped lone surrogate is not read.

What a writer is free to choose are parameters: `enc` is what it writes for a character of a string,
which `Escapes enc` says is read back as this character, and `gap` the white space it writes behind
commas and colons.

* `parse_render`: a value is read back from its text.
* `minify_render`: without its white space it is the text without gaps.
-/

namespace CardBinData.Library

/-- A JSON value. -/
inductive Json where
  | null
  | bool (b : Bool)
  | number (literal : List Char)
  | string (s : List Char)
  | array (items : List Json)
  | object (members : List (List Char × Json))

namespace Json

/-- The characters of a string. -/
def string? : Json → Option (List Char)
  | .string s => some s
  | _ => none

/-! ## Writing -/

/-- A string between its quotes. -/
def quote (enc : Char → List Char) (s : List Char) : List Char := '"' :: s.flatMap enc ++ ['"']

mutual

/-- The text of a value. -/
def render (enc : Char → List Char) (gap : List Char) : Json → List Char
  | .null => ['n', 'u', 'l', 'l']
  | .bool true => ['t', 'r', 'u', 'e']
  | .bool false => ['f', 'a', 'l', 's', 'e']
  | .number literal => literal
  | .string s => quote enc s
  | .array items => '[' :: renderItems enc gap items ++ [']']
  | .object members => '{' :: renderMembers enc gap members ++ ['}']

def renderItems (enc : Char → List Char) (gap : List Char) : List Json → List Char
  | [] => []
  | [v] => render enc gap v
  | v :: v' :: vs => render enc gap v ++ ',' :: gap ++ renderItems enc gap (v' :: vs)

def renderMembers (enc : Char → List Char) (gap : List Char) :
    List (List Char × Json) → List Char
  | [] => []
  | [(k, v)] => quote enc k ++ ':' :: gap ++ render enc gap v
  | (k, v) :: m :: ms =>
    quote enc k ++ ':' :: gap ++ render enc gap v ++ ',' :: gap ++ renderMembers enc gap (m :: ms)

end

/-- The items are joined by commas. -/
theorem renderItems_eq (enc : Char → List Char) (gap : List Char) (vs : List Json) :
    renderItems enc gap vs = List.intercalate (',' :: gap) (vs.map (render enc gap)) := by
  induction vs with
  | nil => rfl
  | cons v vs ih =>
    cases vs with
    | nil => exact (List.intercalate_singleton).symm
    | cons v' vs =>
      rw [List.map_cons, List.map_cons, List.intercalate_cons_cons, renderItems, ih, List.map_cons]

/-- The members are joined by commas. -/
theorem renderMembers_eq (enc : Char → List Char) (gap : List Char)
    (ms : List (List Char × Json)) : renderMembers enc gap ms =
      List.intercalate (',' :: gap)
        (ms.map fun m => quote enc m.1 ++ ':' :: gap ++ render enc gap m.2) := by
  induction ms with
  | nil => rfl
  | cons m ms ih =>
    cases ms with
    | nil => exact (List.intercalate_singleton).symm
    | cons m' ms =>
      rw [List.map_cons, List.map_cons, List.intercalate_cons_cons, renderMembers, ih,
        List.map_cons]

/-! ## Reading -/

/-- White space. -/
def isWs (c : Char) : Bool := c == ' ' || c == '\t' || c == '\n' || c == '\r'

def skipWs (s : List Char) : List Char := s.dropWhile isWs

/-- The value of a hexadecimal digit. -/
def hexValue? (c : Char) : Option Nat :=
  if '0' ≤ c ∧ c ≤ '9' then some (c.toNat - 0x30)
  else if 'a' ≤ c ∧ c ≤ 'f' then some (c.toNat - 0x57)
  else if 'A' ≤ c ∧ c ≤ 'F' then some (c.toNat - 0x37)
  else none

/-- The four digits behind `\u`. -/
def hex4 : List Char → Option (Nat × List Char)
  | a :: b :: c :: d :: s => do
    let a ← hexValue? a
    let b ← hexValue? b
    let c ← hexValue? c
    let d ← hexValue? d
    return (4096 * a + 256 * b + 16 * c + d, s)
  | _ => none

/-- The escapes of two characters. -/
def shortEscape? : Char → Option Char
  | '"' => some '"'
  | '\\' => some '\\'
  | '/' => some '/'
  | 'b' => some (Char.ofNat 0x08)
  | 'f' => some (Char.ofNat 0x0c)
  | 'n' => some '\n'
  | 'r' => some '\r'
  | 't' => some '\t'
  | _ => none

/-- Behind the high surrogate `high`: the low one, and the character of the pair. -/
def lowSurrogate (high : Nat) : List Char → Option (Char × List Char)
  | '\\' :: 'u' :: s => (hex4 s).bind fun p =>
    if 0xdc00 ≤ p.1 ∧ p.1 ≤ 0xdfff then
      some (Char.ofNat (0x10000 + 0x400 * (high - 0xd800) + (p.1 - 0xdc00)), p.2)
    else none
  | _ => none

/-- One character of a string; `none` at its end, too. -/
def readChar : List Char → Option (Char × List Char)
  | '\\' :: 'u' :: s => (hex4 s).bind fun p =>
    if 0xd800 ≤ p.1 ∧ p.1 ≤ 0xdbff then lowSurrogate p.1 p.2
    else if 0xdc00 ≤ p.1 ∧ p.1 ≤ 0xdfff then none
    else some (Char.ofNat p.1, p.2)
  | '\\' :: c :: s => (shortEscape? c).map fun c => (c, s)
  | c :: s => if c = '"' ∨ c = '\\' ∨ c.toNat < 0x20 then none else some (c, s)
  | [] => none

/-- The characters up to the closing quote. -/
def readString : Nat → List Char → Option (List Char × List Char)
  | _, '"' :: s => some ([], s)
  | 0, _ => none
  | fuel + 1, s => (readChar s).bind fun p =>
    (readString fuel p.2).map fun q => (p.1 :: q.1, q.2)

/-- A string behind its opening quote. -/
def parseString (s : List Char) : Option (List Char × List Char) := readString s.length s

def isNumberChar (c : Char) : Bool :=
  c.isDigit || c == '-' || c == '+' || c == '.' || c == 'e' || c == 'E'

/-- At least one digit. -/
def digits : List Char → Option (List Char)
  | c :: s => if c.isDigit then some (s.dropWhile Char.isDigit) else none
  | [] => none

def sign : List Char → List Char
  | '+' :: s => s
  | '-' :: s => s
  | s => s

def integerPart : List Char → Option (List Char)
  | '-' :: '0' :: s => some s
  | '-' :: s => digits s
  | '0' :: s => some s
  | s => digits s

def fractionPart : List Char → Option (List Char)
  | '.' :: s => digits s
  | s => some s

def exponentPart : List Char → Option (List Char)
  | 'e' :: s => digits (sign s)
  | 'E' :: s => digits (sign s)
  | s => some s

/-- The grammar of numbers. -/
def isNumber (literal : List Char) : Bool :=
  literal.all isNumberChar &&
    (((integerPart literal).bind fractionPart).bind exponentPart == some [])

def parseNumber (s : List Char) : Option (Json × List Char) :=
  if isNumber (s.takeWhile isNumberChar) then
    some (.number (s.takeWhile isNumberChar), s.dropWhile isNumberChar)
  else none

mutual

/-- A value at the start of a text, and what is behind it. -/
def parseValue : Nat → List Char → Option (Json × List Char)
  | 0, _ => none
  | fuel + 1, s =>
    match s with
    | 'n' :: 'u' :: 'l' :: 'l' :: s => some (.null, s)
    | 't' :: 'r' :: 'u' :: 'e' :: s => some (.bool true, s)
    | 'f' :: 'a' :: 'l' :: 's' :: 'e' :: s => some (.bool false, s)
    | '"' :: s => (parseString s).map fun p => (.string p.1, p.2)
    | '[' :: s =>
      match skipWs s with
      | ']' :: s => some (.array [], s)
      | s => (parseItems fuel s).map fun p => (.array p.1, p.2)
    | '{' :: s =>
      match skipWs s with
      | '}' :: s => some (.object [], s)
      | s => (parseMembers fuel s).map fun p => (.object p.1, p.2)
    | s => parseNumber s

/-- The items of an array, up to its closing bracket. -/
def parseItems : Nat → List Char → Option (List Json × List Char)
  | 0, _ => none
  | fuel + 1, s => (parseValue fuel s).bind fun p =>
    match skipWs p.2 with
    | ',' :: s => (parseItems fuel (skipWs s)).map fun q => (p.1 :: q.1, q.2)
    | ']' :: s => some ([p.1], s)
    | _ => none

/-- The members of an object, up to its closing brace. -/
def parseMembers : Nat → List Char → Option (List (List Char × Json) × List Char)
  | fuel + 1, '"' :: s => (parseString s).bind fun k =>
    match skipWs k.2 with
    | ':' :: s => (parseValue fuel (skipWs s)).bind fun p =>
      match skipWs p.2 with
      | ',' :: s => (parseMembers fuel (skipWs s)).map fun q => ((k.1, p.1) :: q.1, q.2)
      | '}' :: s => some ([(k.1, p.1)], s)
      | _ => none
    | _ => none
  | _, _ => none

end

/-- The value of a text. -/
def parse (s : List Char) : Option Json :=
  (parseValue (2 * s.length + 1) (skipWs s)).bind fun p =>
    if (skipWs p.2).isEmpty then some p.1 else none

/-! ## White space -/

mutual

/-- A text without the white space outside its strings. -/
def minify : List Char → List Char
  | [] => []
  | '"' :: s => '"' :: minifyString s
  | c :: s => if isWs c then minify s else c :: minify s

/-- The same, inside a string. -/
def minifyString : List Char → List Char
  | [] => []
  | '"' :: s => '"' :: minify s
  | '\\' :: c :: s => '\\' :: c :: minifyString s
  | c :: s => c :: minifyString s

end


/-! ## Strings -/

/-- What `enc` writes for a character is read back as this character. -/
def Escapes (enc : Char → List Char) : Prop := ∀ c s, readChar (enc c ++ s) = some (c, s)

section Strings

variable {enc : Char → List Char} (henc : Escapes enc)
include henc

/-- An escaped character is not the end of the string. -/
theorem Escapes.exists_cons (c : Char) : ∃ d s, enc c = d :: s ∧ d ≠ '"' := by
  have hread := henc c []
  rw [List.append_nil] at hread
  cases hc : enc c with
  | nil =>
    rw [hc] at hread
    exact absurd hread (by simp [readChar])
  | cons d s =>
    refine ⟨d, s, rfl, ?_⟩
    rintro rfl
    rw [hc] at hread
    exact absurd hread (by simp [readChar])

theorem readString_flatMap (cs rest : List Char) {fuel : Nat} (hfuel : cs.length ≤ fuel) :
    readString fuel (cs.flatMap enc ++ '"' :: rest) = some (cs, rest) := by
  induction cs generalizing fuel with
  | nil => cases fuel <;> rfl
  | cons c cs ih =>
    obtain ⟨fuel, rfl⟩ := Nat.exists_eq_add_one.mpr (Nat.zero_lt_of_lt hfuel)
    obtain ⟨d, s, hd, hquote⟩ := henc.exists_cons c
    have hread := henc c (cs.flatMap enc ++ '"' :: rest)
    rw [List.flatMap_cons, List.append_assoc]
    rw [hd, List.cons_append] at hread ⊢
    rw [readString, hread, Option.bind_some, ih (Nat.le_of_succ_le_succ hfuel)]
    · rfl
    · exact fun _ heq => hquote (List.cons.inj heq).1

theorem length_le_flatMap (cs : List Char) : cs.length ≤ (cs.flatMap enc).length := by
  induction cs with
  | nil => exact Nat.le_refl 0
  | cons c cs ih =>
    obtain ⟨d, s, hd, -⟩ := henc.exists_cons c
    rw [List.flatMap_cons, List.length_append, hd, List.length_cons, List.length_cons]
    omega

/-- **A string is read back.** -/
theorem parseString_quote (cs rest : List Char) :
    parseString (cs.flatMap enc ++ '"' :: rest) = some (cs, rest) := by
  refine readString_flatMap henc cs rest ((length_le_flatMap henc cs).trans ?_)
  rw [List.length_append]
  omega

end Strings


/-! ## Values -/

mutual

/-- Every literal is a number. -/
def WellFormed : Json → Prop
  | .number literal => isNumber literal = true
  | .array items => WellFormedItems items
  | .object members => WellFormedMembers members
  | _ => True

def WellFormedItems : List Json → Prop
  | [] => True
  | v :: vs => v.WellFormed ∧ WellFormedItems vs

def WellFormedMembers : List (List Char × Json) → Prop
  | [] => True
  | (_, v) :: ms => v.WellFormed ∧ WellFormedMembers ms

end

/-- No number goes on here. -/
def Stops (s : List Char) : Prop := ∀ c ∈ s.head?, isNumberChar c = false

theorem all_isNumberChar {literal : List Char} (h : isNumber literal = true) :
    ∀ c ∈ literal, isNumberChar c = true := by
  rw [isNumber, Bool.and_eq_true, List.all_eq_true] at h
  exact h.1

/-- A number character is no white space, and starts no other value. -/
theorem plain_of_isNumberChar {c : Char} (h : isNumberChar c = true) :
    isWs c = false ∧ c ≠ '"' ∧ c ≠ ']' := by
  refine ⟨Bool.eq_false_iff.mpr fun hws => ?_, ?_, ?_⟩
  · simp only [isWs, Bool.or_eq_true, beq_iff_eq] at hws
    rcases hws with ((rfl | rfl) | rfl) | rfl <;> exact absurd h (by decide)
  · rintro rfl
    exact absurd h (by decide)
  · rintro rfl
    exact absurd h (by decide)

theorem number_ne_nil {literal : List Char} (h : isNumber literal = true) : literal ≠ [] := by
  rintro rfl
  exact absurd h (by decide)

theorem parseNumber_append {literal s : List Char} (h : isNumber literal = true) (hs : Stops s) :
    parseNumber (literal ++ s) = some (.number literal, s) := by
  have htake : (literal ++ s).takeWhile isNumberChar = literal := by
    rw [List.takeWhile_append_of_pos (all_isNumberChar h)]
    cases s with
    | nil => exact List.append_nil literal
    | cons c s => rw [List.takeWhile_cons_of_neg (by rw [hs c rfl]; exact Bool.false_ne_true),
        List.append_nil]
  have hdrop : (literal ++ s).dropWhile isNumberChar = s := by
    rw [List.dropWhile_append_of_pos (all_isNumberChar h)]
    cases s with
    | nil => rfl
    | cons c s => rw [List.dropWhile_cons_of_neg (by rw [hs c rfl]; exact Bool.false_ne_true)]
  unfold parseNumber
  rw [htake, hdrop, if_pos h]

/-- A text that starts with a number character starts with no other value. -/
theorem parseValue_number {c : Char} {s : List Char} (h : isNumberChar c = true) (fuel : Nat) :
    parseValue (fuel + 1) (c :: s) = parseNumber (c :: s) := by
  unfold parseValue
  split <;> first | rfl | skip
  all_goals
    rename_i heq
    obtain ⟨rfl, -⟩ := List.cons.inj heq
    exact absurd h (by decide)

/-- A value starts with no white space, and with no closing bracket. -/
theorem head_render (enc : Char → List Char) (gap : List Char) {v : Json} (h : v.WellFormed) :
    ∃ c s, render enc gap v = c :: s ∧ isWs c = false ∧ c ≠ ']' := by
  cases v with
  | null => exact ⟨_, _, rfl, rfl, by decide⟩
  | bool b => cases b <;> exact ⟨_, _, rfl, rfl, by decide⟩
  | number literal =>
    obtain ⟨c, s, rfl⟩ := List.exists_cons_of_ne_nil (number_ne_nil h)
    have hplain := plain_of_isNumberChar (all_isNumberChar h c List.mem_cons_self)
    exact ⟨c, s, rfl, hplain.1, hplain.2.2⟩
  | string s => exact ⟨_, _, rfl, rfl, by decide⟩
  | array items => exact ⟨_, _, rfl, rfl, by decide⟩
  | object members => exact ⟨_, _, rfl, rfl, by decide⟩

theorem head_renderItems (enc : Char → List Char) (gap : List Char) {v : Json}
    (h : v.WellFormed) (vs : List Json) :
    ∃ c s, renderItems enc gap (v :: vs) = c :: s ∧ isWs c = false ∧ c ≠ ']' := by
  obtain ⟨c, s, hc, hws, hne⟩ := head_render enc gap h
  cases vs with
  | nil => exact ⟨c, s, hc, hws, hne⟩
  | cons v' vs => exact ⟨c, _, by rw [renderItems, hc]; rfl, hws, hne⟩

theorem head_renderMembers (enc : Char → List Char) (gap : List Char) (m : List Char × Json)
    (ms : List (List Char × Json)) : ∃ s, renderMembers enc gap (m :: ms) = '"' :: s := by
  cases ms <;> exact ⟨_, rfl⟩

theorem skipWs_cons {c : Char} {s : List Char} (h : isWs c = false) : skipWs (c :: s) = c :: s :=
  List.dropWhile_cons_of_neg (by rw [h]; exact Bool.false_ne_true)

/-- A gap is skipped, up to what starts with no white space. -/
theorem skipWs_gap {gap : List Char} (hgap : ∀ c ∈ gap, isWs c = true) {c : Char} {s t : List Char}
    (hs : s = c :: t) (hws : isWs c = false) (rest : List Char) :
    skipWs (gap ++ (s ++ rest)) = s ++ rest := by
  rw [skipWs, List.dropWhile_append_of_pos hgap, hs]
  exact skipWs_cons hws

/-- The items of an array start where they stand. -/
theorem parseValue_array {c : Char} {s : List Char} (hws : isWs c = false) (hne : c ≠ ']')
    (fuel : Nat) : parseValue (fuel + 1) ('[' :: c :: s) =
      (parseItems fuel (c :: s)).map fun p => (.array p.1, p.2) := by
  rw [parseValue, skipWs_cons hws]
  split
  · rename_i heq
    exact absurd (List.cons.inj heq).1 hne
  · rfl

theorem stops_cons {c : Char} (h : isNumberChar c = false) (s : List Char) : Stops (c :: s) :=
  fun _ hd => Option.some.inj hd ▸ h

section Render

variable {enc : Char → List Char} {gap : List Char}

/-- A member is its name, a colon and its value. -/
theorem parseMembers_quote (henc : Escapes enc) (k : List Char) {v : Json} {s t rest : List Char}
    {fuel : Nat} (hws : skipWs s = t) (hv : parseValue (fuel + 1) t = some (v, rest)) :
    parseMembers (fuel + 2) (quote enc k ++ ':' :: s) =
      match skipWs rest with
      | ',' :: s => (parseMembers (fuel + 1) (skipWs s)).map fun q => ((k, v) :: q.1, q.2)
      | '}' :: s => some ([(k, v)], s)
      | _ => none := by
  have hcolon : skipWs (':' :: s) = ':' :: s := skipWs_cons rfl
  rw [quote, List.cons_append, List.cons_append, List.append_assoc, List.singleton_append,
    parseMembers, parseString_quote henc, Option.bind_some]
  simp only [hcolon, hws, hv, Option.bind_some]

mutual

/-- **A value is read back, whatever is behind it.** -/
theorem parseValue_render (henc : Escapes enc) (hgap : ∀ c ∈ gap, isWs c = true) :
    ∀ (v : Json) (_ : v.WellFormed) (fuel : Nat) (rest : List Char),
    2 * (render enc gap v).length ≤ fuel → Stops rest →
    parseValue (fuel + 1) (render enc gap v ++ rest) = some (v, rest)
  | .null, _, _, _, _, _ => rfl
  | .bool true, _, _, _, _, _ => rfl
  | .bool false, _, _, _, _, _ => rfl
  | .number literal, h, fuel, rest, _, hrest => by
    obtain ⟨c, s, rfl⟩ := List.exists_cons_of_ne_nil (number_ne_nil h)
    have hc := all_isNumberChar h c List.mem_cons_self
    rw [render, List.cons_append, parseValue_number hc, ← List.cons_append,
      parseNumber_append h hrest]
  | .string s, _, fuel, rest, _, _ => by
    rw [render, quote, List.cons_append, List.cons_append, List.append_assoc,
      List.singleton_append, parseValue, parseString_quote henc]
    rfl
  | .array [], _, _, _, _, _ => rfl
  | .array (v :: vs), h, fuel, rest, hfuel, _ => by
    rw [render, List.length_append, List.length_cons, List.length_singleton] at hfuel
    have hitems := parseItems_render henc hgap v vs h fuel rest (by omega)
    obtain ⟨c, s, hc, hws, hne⟩ := head_renderItems enc gap h.1 vs
    rw [render, List.cons_append, List.cons_append, List.append_assoc, List.singleton_append]
    rw [hc, List.cons_append] at hitems ⊢
    rw [parseValue_array hws hne, hitems]
    rfl
  | .object [], _, _, _, _, _ => rfl
  | .object (m :: ms), h, fuel, rest, hfuel, _ => by
    rw [render, List.length_append, List.length_cons, List.length_singleton] at hfuel
    have hmembers := parseMembers_render henc hgap m ms h fuel rest (by omega)
    obtain ⟨s, hs⟩ := head_renderMembers enc gap m ms
    rw [render, List.cons_append, List.cons_append, List.append_assoc, List.singleton_append]
    rw [hs, List.cons_append] at hmembers ⊢
    change (parseMembers fuel _).map _ = _
    rw [hmembers]
    rfl

theorem parseItems_render (henc : Escapes enc) (hgap : ∀ c ∈ gap, isWs c = true) :
    ∀ (v : Json) (vs : List Json) (_ : WellFormedItems (v :: vs)) (fuel : Nat) (rest : List Char),
    2 * (renderItems enc gap (v :: vs)).length + 2 ≤ fuel →
    parseItems fuel (renderItems enc gap (v :: vs) ++ ']' :: rest) = some (v :: vs, rest)
  | v, [], h, fuel, rest, hfuel => by
    obtain ⟨fuel, rfl⟩ := Nat.exists_eq_add_of_le' (Nat.le_of_add_left_le hfuel)
    rw [renderItems] at hfuel ⊢
    have hv := parseValue_render henc hgap v h.1 fuel (']' :: rest) (by omega) (stops_cons rfl rest)
    rw [parseItems, hv]
    rfl
  | v, v' :: vs, h, fuel, rest, hfuel => by
    obtain ⟨fuel, rfl⟩ := Nat.exists_eq_add_of_le' (Nat.le_of_add_left_le hfuel)
    rw [renderItems, List.length_append, List.length_append, List.length_cons] at hfuel
    let tail := renderItems enc gap (v' :: vs) ++ ']' :: rest
    have hv := parseValue_render henc hgap v h.1 fuel (',' :: (gap ++ tail)) (by omega)
      (stops_cons rfl _)
    have hvs := parseItems_render henc hgap v' vs h.2 (fuel + 1) rest (by omega)
    obtain ⟨c, s, hc, hws, -⟩ := head_renderItems enc gap h.2.1 vs
    have hskip : skipWs (gap ++ tail) = tail := skipWs_gap hgap hc hws _
    rw [renderItems, List.append_assoc, List.append_assoc, List.cons_append, parseItems, hv,
      Option.bind_some]
    change (parseItems (fuel + 1) (skipWs (gap ++ tail))).map _ = _
    rw [hskip, hvs]
    rfl

theorem parseMembers_render (henc : Escapes enc) (hgap : ∀ c ∈ gap, isWs c = true) :
    ∀ (m : List Char × Json) (ms : List (List Char × Json)) (_ : WellFormedMembers (m :: ms))
    (fuel : Nat) (rest : List Char), 2 * (renderMembers enc gap (m :: ms)).length + 2 ≤ fuel →
    parseMembers fuel (renderMembers enc gap (m :: ms) ++ '}' :: rest) = some (m :: ms, rest)
  | (k, v), [], h, fuel, rest, hfuel => by
    obtain ⟨fuel, rfl⟩ := Nat.exists_eq_add_of_le' (Nat.le_of_add_left_le hfuel)
    simp only [renderMembers, List.length_append, List.length_cons] at hfuel
    have hv := parseValue_render henc hgap v h.1 fuel ('}' :: rest) (by omega)
      (stops_cons rfl rest)
    obtain ⟨c, s, hc, hws, -⟩ := head_render enc gap h.1
    rw [renderMembers, List.append_assoc, List.append_assoc, List.cons_append,
      parseMembers_quote henc k (skipWs_gap hgap hc hws _) hv]
    rfl
  | (k, v), m :: ms, h, fuel, rest, hfuel => by
    obtain ⟨fuel, rfl⟩ := Nat.exists_eq_add_of_le' (Nat.le_of_add_left_le hfuel)
    simp only [renderMembers, List.length_append, List.length_cons] at hfuel
    let tail := renderMembers enc gap (m :: ms) ++ '}' :: rest
    have hv := parseValue_render henc hgap v h.1 fuel (',' :: (gap ++ tail)) (by omega)
      (stops_cons rfl _)
    have hms := parseMembers_render henc hgap m ms h.2 (fuel + 1) rest (by omega)
    obtain ⟨c, s, hc, hws, -⟩ := head_render enc gap h.1
    obtain ⟨t, ht⟩ := head_renderMembers enc gap m ms
    have hskip : skipWs (gap ++ tail) = tail := skipWs_gap hgap ht rfl _
    simp only [renderMembers, List.append_assoc, List.cons_append]
    rw [parseMembers_quote henc k (skipWs_gap hgap hc hws _) hv]
    change (parseMembers (fuel + 1) (skipWs (gap ++ tail))).map _ = _
    rw [hskip, hms]
    rfl

end

/-- **A text reads back as its value.** -/
theorem parse_render (henc : Escapes enc) (hgap : ∀ c ∈ gap, isWs c = true) {v : Json}
    (h : v.WellFormed) : parse (render enc gap v) = some v := by
  obtain ⟨c, s, hc, hws, -⟩ := head_render enc gap h
  have hskip : skipWs (render enc gap v) = render enc gap v := by rw [hc, skipWs_cons hws]
  have hparse := parseValue_render henc hgap v h (2 * (render enc gap v).length) []
    (Nat.le_refl _) fun _ hc => absurd hc (by simp)
  rw [List.append_nil] at hparse
  rw [parse, hskip, hparse]
  rfl

example : (parse "[ \"\\ud83d\\ude00\", -1.5e+3]".toList).map (render (fun c => [c]) []) =
    some ("[\"".toList ++ '😀' :: "\",-1.5e+3]".toList) := by decide +kernel

end Render

/-! ## White space between tokens -/

theorem minify_cons {c : Char} (hws : isWs c = false) (hquote : c ≠ '"') (s : List Char) :
    minify (c :: s) = c :: minify s := by
  rw [minify, hws]
  · rfl
  · exact fun heq => hquote heq

theorem minifyString_cons {c : Char} (hquote : c ≠ '"') (hescape : c ≠ '\\') (s : List Char) :
    minifyString (c :: s) = c :: minifyString s := by
  rw [minifyString]
  · exact fun heq => hquote heq
  · exact fun _ _ heq => absurd heq hescape

theorem hexValue?_eq_some {c : Char} {n : Nat} (h : hexValue? c = some n) :
    c ≠ '"' ∧ c ≠ '\\' := by
  have hquote : hexValue? '"' = none := by decide
  have hescape : hexValue? '\\' = none := by decide
  constructor
  · rintro rfl
    exact absurd (hquote.symm.trans h) (by simp)
  · rintro rfl
    exact absurd (hescape.symm.trans h) (by simp)

/-- Four digits are no end of the string, and no escape. -/
theorem minifyString_hex4 {s t : List Char} {n : Nat} (h : hex4 s = some (n, t)) :
    ∃ e, s = e ++ t ∧ ∀ t', minifyString (e ++ t') = e ++ minifyString t' := by
  unfold hex4 at h
  split at h
  · rename_i a b c d s
    simp only [Option.bind_eq_bind, Option.bind_eq_some_iff] at h
    obtain ⟨_, ha, _, hb, _, hc, _, hd, heq⟩ := h
    obtain ⟨-, rfl⟩ := Prod.mk.inj (Option.some.inj heq)
    refine ⟨[a, b, c, d], rfl, fun t' => ?_⟩
    have hcons : ∀ {c n}, hexValue? c = some n → ∀ s,
        minifyString (c :: s) = c :: minifyString s := fun h =>
      minifyString_cons (hexValue?_eq_some h).1 (hexValue?_eq_some h).2
    change minifyString (a :: b :: c :: d :: t') = a :: b :: c :: d :: minifyString t'
    rw [hcons ha, hcons hb, hcons hc, hcons hd]
  · exact absurd h (by simp)

theorem minifyString_lowSurrogate {high : Nat} {s t : List Char} {c : Char}
    (h : lowSurrogate high s = some (c, t)) :
    ∃ e, s = e ++ t ∧ ∀ t', minifyString (e ++ t') = e ++ minifyString t' := by
  unfold lowSurrogate at h
  split at h
  · obtain ⟨⟨n, u⟩, hhex, h⟩ := Option.bind_eq_some_iff.mp h
    split at h
    · obtain ⟨-, rfl⟩ := Prod.mk.inj (Option.some.inj h)
      obtain ⟨e, rfl, he⟩ := minifyString_hex4 hhex
      exact ⟨'\\' :: 'u' :: e, rfl, fun t' => congrArg (fun s => '\\' :: 'u' :: s) (he t')⟩
    · exact absurd h (by simp)
  · exact absurd h (by simp)

/-- What is read as one character is kept. -/
theorem minifyString_readChar {s t : List Char} {c : Char} (h : readChar s = some (c, t)) :
    ∃ e, s = e ++ t ∧ ∀ t', minifyString (e ++ t') = e ++ minifyString t' := by
  unfold readChar at h
  split at h
  · obtain ⟨⟨n, u⟩, hhex, hpair⟩ := Option.bind_eq_some_iff.mp h
    obtain ⟨e, rfl, he⟩ := minifyString_hex4 hhex
    split at hpair
    · obtain ⟨e', rfl, he'⟩ := minifyString_lowSurrogate hpair
      refine ⟨'\\' :: 'u' :: e ++ e', by simp, fun t' => ?_⟩
      have happend := (he (e' ++ t')).trans (congrArg (e ++ ·) (he' t'))
      rw [List.append_assoc, List.append_assoc]
      exact congrArg (fun s => '\\' :: 'u' :: s) happend
    · split at hpair
      · exact absurd hpair (by simp)
      · obtain ⟨-, rfl⟩ := Prod.mk.inj (Option.some.inj hpair)
        exact ⟨'\\' :: 'u' :: e, rfl, fun t' => congrArg (fun s => '\\' :: 'u' :: s) (he t')⟩
  · rename_i d s _
    obtain ⟨d', -, h⟩ := Option.map_eq_some_iff.mp h
    obtain ⟨-, rfl⟩ := Prod.mk.inj h
    exact ⟨['\\', d], rfl, fun _ => rfl⟩
  · rename_i d s _ _
    split at h
    · exact absurd h (by simp)
    · rename_i hplain
      rw [not_or, not_or] at hplain
      obtain ⟨-, rfl⟩ := Prod.mk.inj (Option.some.inj h)
      exact ⟨[d], rfl, minifyString_cons hplain.1 hplain.2.1⟩
  · exact absurd h (by simp)

section Minify

variable {enc : Char → List Char} (henc : Escapes enc)
include henc

theorem minifyString_flatMap (cs rest : List Char) :
    minifyString (cs.flatMap enc ++ '"' :: rest) = cs.flatMap enc ++ '"' :: minify rest := by
  induction cs with
  | nil => rfl
  | cons c cs ih =>
    have hread := henc c []
    rw [List.append_nil] at hread
    obtain ⟨e, he, hkept⟩ := minifyString_readChar hread
    rw [List.append_nil] at he
    rw [List.flatMap_cons, List.append_assoc, he, hkept, ih, List.append_assoc]

theorem minify_quote (s rest : List Char) :
    minify (quote enc s ++ rest) = quote enc s ++ minify rest := by
  rw [quote, List.cons_append, List.cons_append, List.append_assoc, List.singleton_append, minify,
    minifyString_flatMap henc]
  simp only [List.cons_append, List.append_assoc, List.nil_append]

omit henc in
theorem minify_number {literal : List Char} (h : ∀ c ∈ literal, isNumberChar c = true)
    (rest : List Char) : minify (literal ++ rest) = literal ++ minify rest := by
  induction literal with
  | nil => rfl
  | cons c s ih =>
    have hplain := plain_of_isNumberChar (h c List.mem_cons_self)
    rw [List.cons_append, minify_cons hplain.1 hplain.2.1,
      ih fun d hd => h d (List.mem_cons_of_mem c hd), List.cons_append]

omit henc in
theorem minify_gap {gap : List Char} (hgap : ∀ c ∈ gap, isWs c = true) (rest : List Char) :
    minify (gap ++ rest) = minify rest := by
  induction gap with
  | nil => rfl
  | cons c gap ih =>
    have hws := hgap c List.mem_cons_self
    rw [List.cons_append, minify, hws]
    · exact ih fun d hd => hgap d (List.mem_cons_of_mem c hd)
    · rintro rfl
      exact absurd hws (by decide)

end Minify

section Compact

variable {enc : Char → List Char} {gap : List Char}

mutual

/-- **Minifying a text removes its gaps.** -/
theorem minify_render (henc : Escapes enc) (hgap : ∀ c ∈ gap, isWs c = true) :
    ∀ (v : Json) (_ : v.WellFormed) (rest : List Char),
    minify (render enc gap v ++ rest) = render enc [] v ++ minify rest
  | .null, _, _ => rfl
  | .bool true, _, _ => rfl
  | .bool false, _, _ => rfl
  | .number _, h, rest => minify_number (all_isNumberChar h) rest
  | .string s, _, rest => minify_quote henc s rest
  | .array items, h, rest => by
    simp only [render, List.append_assoc, List.cons_append, List.nil_append]
    rw [minify_cons rfl (by decide), minify_renderItems henc hgap items h,
      minify_cons rfl (by decide)]
  | .object members, h, rest => by
    simp only [render, List.append_assoc, List.cons_append, List.nil_append]
    rw [minify_cons rfl (by decide), minify_renderMembers henc hgap members h,
      minify_cons rfl (by decide)]

theorem minify_renderItems (henc : Escapes enc) (hgap : ∀ c ∈ gap, isWs c = true) :
    ∀ (vs : List Json) (_ : WellFormedItems vs) (rest : List Char),
    minify (renderItems enc gap vs ++ rest) = renderItems enc [] vs ++ minify rest
  | [], _, _ => rfl
  | [v], h, rest => minify_render henc hgap v h.1 rest
  | v :: v' :: vs, h, rest => by
    have htail := minify_renderItems henc hgap (v' :: vs) h.2 rest
    simp only [renderItems, List.append_assoc, List.cons_append, List.nil_append]
    rw [minify_render henc hgap v h.1, minify_cons rfl (by decide), minify_gap hgap, htail]

theorem minify_renderMembers (henc : Escapes enc) (hgap : ∀ c ∈ gap, isWs c = true) :
    ∀ (ms : List (List Char × Json)) (_ : WellFormedMembers ms) (rest : List Char),
    minify (renderMembers enc gap ms ++ rest) = renderMembers enc [] ms ++ minify rest
  | [], _, _ => rfl
  | [(k, v)], h, rest => by
    simp only [renderMembers, List.append_assoc, List.cons_append, List.nil_append]
    rw [minify_quote henc, minify_cons rfl (by decide), minify_gap hgap,
      minify_render henc hgap v h.1]
  | (k, v) :: m :: ms, h, rest => by
    have htail := minify_renderMembers henc hgap (m :: ms) h.2 rest
    simp only [renderMembers, List.append_assoc, List.cons_append, List.nil_append]
    rw [minify_quote henc, minify_cons rfl (by decide), minify_gap hgap,
      minify_render henc hgap v h.1, minify_cons rfl (by decide), minify_gap hgap, htail]

end

end Compact

end Json

end CardBinData.Library
