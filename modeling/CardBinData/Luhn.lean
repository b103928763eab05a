import CardBinData.Input
import CardBinData.Library.Checksum
import Mathlib.Data.Nat.Digits.Defs
import Mathlib.Data.ZMod.Basic

/-!
# The Luhn check

`_passes_luhn` goes from left to right and tells by the parity of the length which digits to
double. The standard goes from the rightmost digit and doubles at the odd offsets.
`luhnTotal_eq` says that both compute one sum.

Modulo 10 the sum is a positional checksum (`checksum_luhnValue`): at each offset the ten digits
have ten different values (`luhnValue_inj`), so every digit is checked, and one digit at the right
end completes any prefix. Two neighbours may be swapped only where doubling either gives one sum,
which is the case of 0 and 9 (`luhnDigit_swap`). `passesLuhn_standard` puts this together.
-/

namespace CardBinData

open Library (checksum checksum_append checksum_replace_iff checksum_swap_iff
  existsUnique_checkSymbol)

/-! ## The standard -/

/-- The sum of the decimal digits of a number. -/
def decimalDigitSum (n : Nat) : Nat := (Nat.digits 10 n).foldr (· + ·) 0

/-- What a digit adds at an offset from the right. -/
def luhnDigit (offset digit : Nat) : Nat :=
  if offset % 2 = 0 then digit else decimalDigitSum (2 * digit)

/-- The sum of the standard, from the rightmost digit. -/
def standardLuhnSum (digits : Str) : Nat :=
  digits.reverse.zipIdx.foldr (fun p total => luhnDigit p.2 (asciiDigitValue p.1) + total) 0

/-! ## The digits -/

theorem asciiDigitValue_digitChar {d : Nat} (h : d < 10) :
    isAsciiDigit (Nat.digitChar d) = true ∧ asciiDigitValue (Nat.digitChar d) = d := by
  revert d
  decide

/-- The digit sum of a doubled digit, as the code finds it. -/
theorem decimalDigitSum_double {d : Nat} (h : d < 10) :
    decimalDigitSum (2 * d) =
      if 2 * d > luhnDoubledDigitThreshold then 2 * d - luhnDoubledDigitThreshold else 2 * d := by
  revert d
  decide

theorem luhnDigit_lt (offset : Nat) {d : Nat} (h : d < 10) : luhnDigit offset d < 10 := by
  have hdouble : ∀ d < 10, decimalDigitSum (2 * d) < 10 := by decide
  unfold luhnDigit
  split
  · exact h
  · exact hdouble d h

/-- Doubling permutes the digits. -/
theorem luhnDigit_inj (offset : Nat) {d e : Nat} (hd : d < 10) (he : e < 10)
    (h : luhnDigit offset d = luhnDigit offset e) : d = e := by
  have hdouble : ∀ d < 10, ∀ e < 10, decimalDigitSum (2 * d) = decimalDigitSum (2 * e) → d = e := by
    decide
  unfold luhnDigit at h
  split at h
  · exact h
  · exact hdouble d hd e he h

/-- **Neighbours add up alike both ways only when they are equal, or 0 and 9.** -/
theorem luhnDigit_swap (offset : Nat) {d e : Nat} (hd : d < 10) (he : e < 10) :
    (luhnDigit offset d + luhnDigit (offset + 1) e) % 10 =
        (luhnDigit offset e + luhnDigit (offset + 1) d) % 10 ↔
      d = e ∨ (d = 0 ∧ e = 9) ∨ (d = 9 ∧ e = 0) := by
  have hswap : ∀ d < 10, ∀ e < 10,
      ((d + decimalDigitSum (2 * e)) % 10 = (e + decimalDigitSum (2 * d)) % 10 ↔
        d = e ∨ (d = 0 ∧ e = 9) ∨ (d = 9 ∧ e = 0)) := by decide
  unfold luhnDigit
  by_cases h : offset % 2 = 0
  · have hnext : ¬ (offset + 1) % 2 = 0 := by omega
    simp only [if_pos h, if_neg hnext]
    exact hswap d hd e he
  · have hnext : (offset + 1) % 2 = 0 := by omega
    simp only [if_neg h, if_pos hnext]
    rw [Nat.add_comm, Nat.add_comm (decimalDigitSum (2 * e)), hswap e he d hd]
    omega

/-! ## One sum -/

theorem standardLuhnSum_cons (digits : Str) (c : Char) :
    standardLuhnSum (c :: digits) =
      standardLuhnSum digits + luhnDigit digits.length (asciiDigitValue c) := by
  have hfold : ∀ (l : List (Char × Nat)) (n : Nat),
      l.foldr (fun p total => luhnDigit p.2 (asciiDigitValue p.1) + total) n =
        l.foldr (fun p total => luhnDigit p.2 (asciiDigitValue p.1) + total) 0 + n := by
    intro l n
    induction l with
    | nil => simp
    | cons p l ih => rw [List.foldr_cons, List.foldr_cons, ih, Nat.add_assoc]
  unfold standardLuhnSum
  rw [List.reverse_cons, List.zipIdx_append, List.foldr_append, hfold]
  simp

/-- What the code adds for a digit is what the standard adds at its offset from the right. -/
theorem luhnTerm_eq {c : Char} (hc : isAsciiDigit c = true) (index offset : Nat) :
    luhnTerm ((index + offset + 1) % 2) index c = luhnDigit offset (asciiDigitValue c) := by
  unfold luhnTerm luhnDigit
  rw [digitValue_of_isAsciiDigit hc, Option.getD_some]
  change (if _ then if 2 * asciiDigitValue c > _ then _ else _ else _) = _
  rw [decimalDigitSum_double (asciiDigitValue_lt hc)]
  by_cases h : offset % 2 = 0
  · rw [if_neg (by omega), if_pos h]
    rfl
  · rw [if_pos (by omega), if_neg h]
    rfl

/-- **The code's sum is the standard's.** -/
theorem luhnTotal_eq {digits : Str} (h : AsciiDigits digits) :
    digits.zipIdx.foldl (fun total p => total + luhnTerm (digits.length % 2) p.2 p.1) 0 =
      standardLuhnSum digits := by
  suffices H : ∀ (digits : Str) (index total : Nat), AsciiDigits digits →
      (digits.zipIdx index).foldl
        (fun total p => total + luhnTerm ((index + digits.length) % 2) p.2 p.1) total =
      total + standardLuhnSum digits by
    simpa using H digits 0 0 h
  intro digits
  induction digits with
  | nil => intro index total _; simp [standardLuhnSum]
  | cons c digits ih =>
    intro index total h
    have hparity : index + (c :: digits).length = index + 1 + digits.length := by
      rw [List.length_cons]
      omega
    rw [List.zipIdx_cons, List.foldl_cons, hparity,
      ih (index + 1) _ fun d hd => h d (List.mem_cons_of_mem c hd), standardLuhnSum_cons,
      show index + 1 + digits.length = index + digits.length + 1 by omega,
      luhnTerm_eq (h c List.mem_cons_self)]
    omega

/-! ## The checksum -/

/-- What a digit adds modulo 10. -/
def luhnValue (offset : Nat) (c : Char) : ZMod 10 := (luhnDigit offset (asciiDigitValue c) : Nat)

theorem luhnValue_inj (offset : Nat) {c c' : Char} (h : isAsciiDigit c = true)
    (h' : isAsciiDigit c' = true) : luhnValue offset c = luhnValue offset c' ↔ c = c' := by
  refine ⟨fun heq => ?_, fun heq => heq ▸ rfl⟩
  have hc := asciiDigitValue_lt h
  have hc' := asciiDigitValue_lt h'
  unfold luhnValue at heq
  rw [ZMod.natCast_eq_natCast_iff'] at heq
  rw [Nat.mod_eq_of_lt (luhnDigit_lt offset hc), Nat.mod_eq_of_lt (luhnDigit_lt offset hc')] at heq
  exact asciiDigitValue_inj h h' (luhnDigit_inj offset hc hc' heq)

theorem eq_iff_asciiDigitValue {c d : Char} (h : isAsciiDigit c = true)
    (hd : isAsciiDigit d = true) :
    c = d ↔ asciiDigitValue c = asciiDigitValue d :=
  ⟨fun heq => heq ▸ rfl, asciiDigitValue_inj h hd⟩

theorem luhnValue_swap (offset : Nat) {a b : Char} (ha : isAsciiDigit a = true)
    (hb : isAsciiDigit b = true) :
    luhnValue offset a + luhnValue (offset + 1) b =
        luhnValue offset b + luhnValue (offset + 1) a ↔
      a = b ∨ (a = '0' ∧ b = '9') ∨ (a = '9' ∧ b = '0') := by
  have h0 : isAsciiDigit '0' = true := rfl
  have h9 : isAsciiDigit '9' = true := rfl
  unfold luhnValue
  rw [← Nat.cast_add, ← Nat.cast_add, ZMod.natCast_eq_natCast_iff',
    luhnDigit_swap offset (asciiDigitValue_lt ha) (asciiDigitValue_lt hb),
    eq_iff_asciiDigitValue ha hb, eq_iff_asciiDigitValue ha h0, eq_iff_asciiDigitValue hb h9,
    eq_iff_asciiDigitValue ha h9, eq_iff_asciiDigitValue hb h0]
  rfl

/-- Modulo 10, the standard is a positional checksum from the right. -/
theorem checksum_luhnValue (digits : Str) :
    checksum luhnValue digits.reverse = (standardLuhnSum digits : ZMod 10) := by
  induction digits with
  | nil => rfl
  | cons c digits ih =>
    rw [List.reverse_cons, checksum_append, ih, standardLuhnSum_cons, Nat.cast_add,
      List.length_reverse]
    simp [checksum, luhnValue]

/-- **The check passes exactly when the checksum is 0.** -/
theorem passesLuhn_iff {digits : Str} (h : AsciiDigits digits) :
    passesLuhn digits = true ↔ checksum luhnValue digits.reverse = 0 := by
  unfold passesLuhn
  simp only [decide_eq_true_eq]
  rw [luhnTotal_eq h, checksum_luhnValue, ZMod.natCast_eq_zero_iff, Nat.dvd_iff_mod_eq_zero]

/-- Every value modulo 10 is that of one digit at the right end. -/
theorem existsUnique_luhnValue (g : ZMod 10) :
    ∃! c, isAsciiDigit c = true ∧ luhnValue 0 c = g := by
  have hval : g.val < 10 := ZMod.val_lt g
  obtain ⟨hdigit, hvalue⟩ := asciiDigitValue_digitChar hval
  have hg : luhnValue 0 (Nat.digitChar g.val) = g := by
    unfold luhnValue luhnDigit
    rw [if_pos rfl, hvalue, ZMod.natCast_zmod_val]
  refine ⟨Nat.digitChar g.val, ⟨hdigit, hg⟩, fun c hc => ?_⟩
  exact (luhnValue_inj 0 hc.1 hdigit).mp (hc.2.trans hg.symm)

theorem asciiDigits_append_cons {p q : Str} {c : Char} :
    AsciiDigits (p ++ c :: q) ↔ AsciiDigits p ∧ isAsciiDigit c = true ∧ AsciiDigits q := by
  simp [AsciiDigits, or_imp, forall_and]

/-- **Luhn is the standard check, and detects errors.** -/
theorem passesLuhn_standard :
    (∀ digits, AsciiDigits digits →
      (passesLuhn digits = true ↔ standardLuhnSum digits % 10 = 0)) ∧
    (∀ p, AsciiDigits p → ∃! c, isAsciiDigit c = true ∧ passesLuhn (p ++ [c]) = true) ∧
    (∀ p c c' q, AsciiDigits (p ++ c :: q) → isAsciiDigit c' = true → c' ≠ c →
      passesLuhn (p ++ c :: q) = true → passesLuhn (p ++ c' :: q) = false) ∧
    (∀ p a b q, AsciiDigits (p ++ a :: b :: q) → a ≠ b → passesLuhn (p ++ a :: b :: q) = true →
      (passesLuhn (p ++ b :: a :: q) = true ↔ (a = '0' ∧ b = '9') ∨ (a = '9' ∧ b = '0'))) := by
  refine ⟨fun digits h => ?_, fun p hp => ?_, fun p c c' q h hc' hne hpass => ?_,
    fun p a b q h hne hpass => ?_⟩
  · rw [passesLuhn_iff h, checksum_luhnValue, ZMod.natCast_eq_zero_iff, Nat.dvd_iff_mod_eq_zero]
  · have hiff : ∀ c, (isAsciiDigit c = true ∧ passesLuhn (p ++ [c]) = true) ↔
        isAsciiDigit c = true ∧ checksum luhnValue (c :: p.reverse) = 0 := by
      refine fun c => and_congr_right fun hc => ?_
      have hdigits : AsciiDigits (p ++ [c]) :=
        asciiDigits_append_cons.mpr ⟨hp, hc, fun _ h => absurd h List.not_mem_nil⟩
      rw [passesLuhn_iff hdigits, List.reverse_append, List.reverse_singleton,
        List.singleton_append]
    simp only [hiff]
    exact existsUnique_checkSymbol existsUnique_luhnValue p.reverse
  · obtain ⟨hp, hc, hq⟩ := asciiDigits_append_cons.mp h
    have h' : AsciiDigits (p ++ c' :: q) := asciiDigits_append_cons.mpr ⟨hp, hc', hq⟩
    rw [passesLuhn_iff h] at hpass
    rw [Bool.eq_false_iff, ne_eq, passesLuhn_iff h', ← hpass]
    simp only [List.reverse_append, List.reverse_cons, List.append_assoc, List.singleton_append]
    rw [checksum_replace_iff, luhnValue_inj _ hc' hc]
    exact hne
  · obtain ⟨hp, ha, hbq⟩ := asciiDigits_append_cons.mp h
    obtain ⟨hb, hq⟩ := List.forall_mem_cons.mp hbq
    have h' : AsciiDigits (p ++ b :: a :: q) :=
      asciiDigits_append_cons.mpr ⟨hp, hb, List.forall_mem_cons.mpr ⟨ha, hq⟩⟩
    rw [passesLuhn_iff h] at hpass
    rw [passesLuhn_iff h', ← hpass]
    simp only [List.reverse_append, List.reverse_cons, List.append_assoc, List.cons_append,
      List.nil_append]
    rw [checksum_swap_iff, luhnValue_swap _ ha hb, or_iff_right hne]

end CardBinData
