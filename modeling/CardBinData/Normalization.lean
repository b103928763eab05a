import CardBinData.Input
import CardBinData.Lookup
import Mathlib.Logic.Relation

/-!
# What the accepted inputs normalize to

* `normalize_accepted`: an accepted input has 6 digits or at least 8, and its candidates are cut
  from its digits.
* `normalize_short`: 6 or 8 decimal digits are accepted as they are.
* `candidates_of_eightDigit`: an 8-digit candidate comes with its first six digits.
* `normalizeLookupInput_grammar`: which inputs are accepted, and that separators do not matter.
-/

namespace CardBinData

variable {value : Str}

theorem removeSeparators_of_isdecimal {s : Str} (h : isdecimal s = true) :
    removeSeparators s = s := by
  have hne : ∀ c ∈ s, c ≠ ' ' ∧ c ≠ '-' := fun c hc => by
    have h0 := zero_le_of_isdecimal h c hc
    constructor <;> rintro rfl <;> exact absurd h0 (by decide)
  unfold removeSeparators
  have h₁ : (s.filter fun c => decide (c ≠ ' ')) = s :=
    List.filter_eq_self.mpr fun c hc => decide_eq_true (hne c hc).1
  rw [h₁]
  exact List.filter_eq_self.mpr fun c hc => decide_eq_true (hne c hc).2

theorem isdecimal_take {s : Str} (h : isdecimal s = true) {n : Nat} (hn : 0 < n) :
    isdecimal (s.take n) = true := by
  simp only [isdecimal, Bool.and_eq_true, List.all_eq_true] at h ⊢
  refine ⟨?_, fun c hc => h.2 c (List.mem_of_mem_take hc)⟩
  cases s with
  | nil => exact absurd h.1 (by decide)
  | cons c s =>
    obtain ⟨m, rfl⟩ := Nat.exists_eq_succ_of_ne_zero hn.ne'
    rfl

/-- The accepted inputs, and what they normalize to. -/
theorem normalize_accepted {validateLuhn : Bool}
    (h : (normalizeLookupInput value validateLuhn).status ≠ .invalid) :
    isdecimal (removeSeparators value) = true ∧
    minPrefixLength ≤ (removeSeparators value).length ∧
    ((removeSeparators value).length = minPrefixLength ∨
      extendedPrefixLength ≤ (removeSeparators value).length) ∧
    (normalizeLookupInput value validateLuhn).query.candidates =
      lookupCandidates (removeSeparators value) ∧
    (normalizeLookupInput value validateLuhn).query.queryPrefix =
      (lookupCandidates (removeSeparators value)).headD [] := by
  unfold normalizeLookupInput at h ⊢
  simp only at h ⊢
  split at h
  · exact absurd rfl h
  rename_i hdec
  rw [if_neg hdec]
  split at h
  · exact absurd rfl h
  rename_i hshort
  rw [if_neg hshort]
  split at h
  · exact absurd rfl h
  rename_i hlen
  rw [if_neg hlen]
  split at h
  · exact absurd rfl h
  rename_i hluhn
  rw [if_neg hluhn]
  refine ⟨by simpa using hdec, not_lt.mp hshort, ?_, rfl, rfl⟩
  simp only [minPrefixLength, extendedPrefixLength, minPanLength, List.mem_cons, List.not_mem_nil,
    or_false, not_and] at hlen ⊢
  by_cases h6 : (removeSeparators value).length = 6
  · exact Or.inl h6
  · by_cases h8 : (removeSeparators value).length = 8
    · exact Or.inr h8.ge
    · have h12 : 12 ≤ (removeSeparators value).length :=
        by_contra fun hlt => hlen (by simp [h6, h8]) fun h => absurd h hlt
      exact Or.inr (by omega)

/-- A rejected input has no candidates. -/
theorem candidates_of_invalid {validateLuhn : Bool}
    (h : (normalizeLookupInput value validateLuhn).status = .invalid) :
    (normalizeLookupInput value validateLuhn).query.candidates = [] := by
  unfold normalizeLookupInput at h ⊢
  simp only at h ⊢
  split
  · rfl
  split
  · rfl
  split
  · rfl
  split
  · rfl
  · rename_i hdec hshort hlen hluhn
    rw [if_neg hdec, if_neg hshort, if_neg hlen, if_neg hluhn] at h
    exact absurd h (by simp)

/-- **6 or 8 decimal digits are accepted**, with or without the Luhn check. -/
theorem normalize_short {p : Str} (hp : isdecimal p = true)
    (hlen : p.length = minPrefixLength ∨ p.length = extendedPrefixLength) (validateLuhn : Bool) :
    (normalizeLookupInput p validateLuhn).status ≠ .invalid ∧
      (normalizeLookupInput p validateLuhn).query.candidates = lookupCandidates p := by
  unfold normalizeLookupInput
  rw [removeSeparators_of_isdecimal hp]
  rcases hlen with hlen | hlen <;>
    simp [hp, hlen, minPrefixLength, extendedPrefixLength, minPanLength]

/-! ## Candidates by length -/

section Candidates

variable {value c : Str} {validateLuhn : Bool}

theorem length_of_candidateOfLength {n : Nat} {query : LookupQuery}
    (h : candidateOfLength n query = some c) : c.length = n := by
  simpa using List.find?_some h

/-- The candidate of a decimal string of eight digits or more. -/
theorem candidateOfLength_lookupCandidates {s : Str} (hlen : extendedPrefixLength ≤ s.length) :
    (lookupCandidates s).find? (fun c => decide (c.length = eightDigitPrefixLength)) =
        some (s.take extendedPrefixLength) ∧
      (lookupCandidates s).find? (fun c => decide (c.length = sixDigitPrefixLength)) =
        some ((s.take extendedPrefixLength).take sixDigitPrefixLength) := by
  have h8 : (s.take extendedPrefixLength).length = eightDigitPrefixLength := by
    rw [List.length_take, min_eq_left hlen]
    rfl
  have h6 : (s.take minPrefixLength).length = sixDigitPrefixLength := by
    rw [List.length_take, min_eq_left (le_trans (by decide) hlen)]
    rfl
  have htake : (s.take extendedPrefixLength).take sixDigitPrefixLength = s.take minPrefixLength :=
    List.take_take
  unfold lookupCandidates
  rw [if_pos hlen, htake]
  constructor
  · simp [h8]
  · rw [List.find?_cons_of_neg (by rw [h8]; decide), List.find?_cons_of_pos (by rw [h6]; decide)]

/-- Six digits have one candidate, themselves. -/
theorem candidateOfLength_sixDigits {s : Str} (hlen : s.length = minPrefixLength) :
    (lookupCandidates s).find? (fun c => decide (c.length = eightDigitPrefixLength)) = none ∧
      (lookupCandidates s).find? (fun c => decide (c.length = sixDigitPrefixLength)) = some s := by
  have hcand : lookupCandidates s = [s] := by
    unfold lookupCandidates
    rw [if_neg (by rw [hlen]; decide), List.take_of_length_le hlen.le]
  rw [hcand]
  constructor
  · rw [List.find?_cons_of_neg (by rw [hlen]; decide), List.find?_nil]
  · rw [List.find?_cons_of_pos (by rw [hlen]; decide)]

/-- An 8-digit candidate is decimal, and its first six digits are the other candidate. -/
theorem candidates_of_eightDigit
    (hc : candidateOfLength eightDigitPrefixLength
      (normalizeLookupInput value validateLuhn).query = some c) :
    (normalizeLookupInput value validateLuhn).status ≠ .invalid ∧ isdecimal c = true ∧
      c.length = eightDigitPrefixLength ∧
      candidateOfLength sixDigitPrefixLength (normalizeLookupInput value validateLuhn).query =
        some (c.take sixDigitPrefixLength) := by
  have hlen : c.length = eightDigitPrefixLength := length_of_candidateOfLength hc
  unfold candidateOfLength at hc ⊢
  have hstatus : (normalizeLookupInput value validateLuhn).status ≠ .invalid := fun h => by
    rw [candidates_of_invalid h] at hc
    exact absurd hc (by simp)
  obtain ⟨hdec, -, hshort | hlong, hcand, -⟩ := normalize_accepted hstatus
  · -- six digits have no candidate of eight
    rw [hcand, (candidateOfLength_sixDigits hshort).1] at hc
    exact absurd hc (by simp)
  · obtain ⟨h8, h6⟩ := candidateOfLength_lookupCandidates hlong
    rw [hcand] at hc ⊢
    obtain rfl := Option.some.inj (h8.symm.trans hc)
    exact ⟨hstatus, isdecimal_take hdec (by decide), hlen, h6⟩

/-- Eight decimal digits are their own candidate. -/
theorem candidateOfLength_eightDigits (hdec : isdecimal c = true)
    (hlen : c.length = eightDigitPrefixLength) (validateLuhn : Bool) :
    candidateOfLength eightDigitPrefixLength (normalizeLookupInput c validateLuhn).query =
      some c := by
  unfold candidateOfLength
  rw [(normalize_short hdec (Or.inr hlen) validateLuhn).2,
    (candidateOfLength_lookupCandidates hlen.ge).1]
  exact congrArg some (List.take_of_length_le hlen.le)

end Candidates

/-! ## The input grammar -/

section Grammar

variable {rawInput rawInput' : Str} {validateLuhn : Bool}

/-- **The accepted language**: decimal digits after stripping, of a supported length, and with a
valid checksum where it is asked for and the input is long enough. -/
theorem normalize_status_iff :
    (normalizeLookupInput rawInput validateLuhn).status ≠ .invalid ↔
      isdecimal (removeSeparators rawInput) = true ∧
      ((removeSeparators rawInput).length = minPrefixLength ∨
        (removeSeparators rawInput).length = extendedPrefixLength ∨
        (minPanLength ≤ (removeSeparators rawInput).length ∧
          (removeSeparators rawInput).length ≤ maxPanLength)) ∧
      (validateLuhn = true → minPanLength ≤ (removeSeparators rawInput).length →
        passesLuhn (removeSeparators rawInput) = true) := by
  unfold normalizeLookupInput
  simp only
  generalize removeSeparators rawInput = digits
  by_cases hdec : isdecimal digits = true
  swap
  · simp [hdec, invalidResult]
  rw [if_neg (by simp [hdec])]
  by_cases hshort : digits.length < minPrefixLength
  · rw [if_pos hshort]
    simp only [invalidResult, ne_eq, not_true_eq_false, false_iff]
    simp only [minPrefixLength, extendedPrefixLength, minPanLength] at hshort ⊢
    rintro ⟨-, hlen, -⟩
    omega
  rw [if_neg hshort]
  by_cases hlen : digits.length = minPrefixLength ∨ digits.length = extendedPrefixLength ∨
      (minPanLength ≤ digits.length ∧ digits.length ≤ maxPanLength)
  swap
  · simp only [not_or] at hlen
    rw [if_pos ⟨by simp [hlen.1, hlen.2.1], hlen.2.2⟩]
    simp [invalidResult, hlen]
  rw [if_neg (by simpa [or_assoc, imp_iff_not_or] using hlen)]
  by_cases hluhn : validateLuhn = true → minPanLength ≤ digits.length → passesLuhn digits = true
  · rw [if_neg (by simpa using hluhn)]
    simp only [ne_eq, reduceCtorEq, not_false_eq_true, true_iff]
    exact ⟨hdec, hlen, hluhn⟩
  · rw [if_pos (by simpa [and_assoc] using hluhn)]
    simp only [invalidResult, ne_eq, not_true_eq_false, false_iff]
    exact fun h => hluhn h.2.2

theorem mem_lookupCandidates {digits c : Str} (hc : c ∈ lookupCandidates digits) :
    ∃ n, 0 < n ∧ c = digits.take n := by
  unfold lookupCandidates at hc
  split at hc
  · rcases List.mem_cons.mp hc with rfl | hc
    · exact ⟨extendedPrefixLength, by decide, rfl⟩
    · exact ⟨minPrefixLength, by decide, List.mem_singleton.mp hc⟩
  · exact ⟨minPrefixLength, by decide, List.mem_singleton.mp hc⟩

/-- A space or a hyphen is inserted somewhere. -/
def InsertsSeparator (rawInput rawInput' : Str) : Prop :=
  ∃ before after separator, (separator = ' ' ∨ separator = '-') ∧ rawInput = before ++ after ∧
    rawInput' = before ++ separator :: after

theorem removeSeparators_of_inserts (h : InsertsSeparator rawInput rawInput') :
    removeSeparators rawInput' = removeSeparators rawInput := by
  obtain ⟨before, after, separator, rfl | rfl, rfl, rfl⟩ := h <;>
    simp [removeSeparators]

/-- Insertions and removals of separators leave the digits as they are. -/
theorem removeSeparators_of_eqvGen (h : Relation.EqvGen InsertsSeparator rawInput rawInput') :
    removeSeparators rawInput' = removeSeparators rawInput := by
  induction h with
  | rel _ _ h => exact removeSeparators_of_inserts h
  | refl _ => rfl
  | symm _ _ _ ih => exact ih.symm
  | trans _ _ _ _ _ ih ih' => exact ih'.trans ih

/-- **The input grammar.** An input is accepted exactly when its digits are decimal, of a supported
length and pass the checksum where it is due. Its candidates are then the 8-digit prefix, where
there is one, and the 6-digit prefix; they are decimal, and ASCII when the digits are; the prefix
is the first of them. Separators inserted or removed anywhere change nothing. -/
theorem normalizeLookupInput_grammar (rawInput : Str) (validateLuhn : Bool) :
    ((normalizeLookupInput rawInput validateLuhn).status ≠ .invalid ↔
      isdecimal (removeSeparators rawInput) = true ∧
      ((removeSeparators rawInput).length = minPrefixLength ∨
        (removeSeparators rawInput).length = extendedPrefixLength ∨
        (minPanLength ≤ (removeSeparators rawInput).length ∧
          (removeSeparators rawInput).length ≤ maxPanLength)) ∧
      (validateLuhn = true → minPanLength ≤ (removeSeparators rawInput).length →
        passesLuhn (removeSeparators rawInput) = true)) ∧
    ((normalizeLookupInput rawInput validateLuhn).status ≠ .invalid →
      (normalizeLookupInput rawInput validateLuhn).query.candidates =
        (if extendedPrefixLength ≤ (removeSeparators rawInput).length then
          [(removeSeparators rawInput).take extendedPrefixLength,
            (removeSeparators rawInput).take minPrefixLength]
        else [(removeSeparators rawInput).take minPrefixLength]) ∧
      (∀ c ∈ (normalizeLookupInput rawInput validateLuhn).query.candidates,
        isdecimal c = true ∧ (AsciiDigits (removeSeparators rawInput) → AsciiDigits c)) ∧
      (normalizeLookupInput rawInput validateLuhn).query.candidates.head? =
        some (normalizeLookupInput rawInput validateLuhn).query.queryPrefix) ∧
    ∀ rawInput', Relation.EqvGen InsertsSeparator rawInput rawInput' →
      normalizeLookupInput rawInput' validateLuhn = normalizeLookupInput rawInput validateLuhn := by
  refine ⟨normalize_status_iff, fun hstatus => ?_, fun rawInput' h => ?_⟩
  · obtain ⟨hdec, -, -, hcandidates, hprefix⟩ := normalize_accepted hstatus
    rw [hcandidates, hprefix]
    refine ⟨rfl, fun c hc => ?_, ?_⟩
    · obtain ⟨n, hn, rfl⟩ := mem_lookupCandidates hc
      exact ⟨isdecimal_take hdec hn, fun hascii d hd => hascii d (List.mem_of_mem_take hd)⟩
    · unfold lookupCandidates
      split <;> rfl
  · unfold normalizeLookupInput
    rw [removeSeparators_of_eqvGen h]

/-- Six Arabic-Indic digits are accepted. -/
theorem normalizeLookupInput_arabicIndic :
    ¬ ((normalizeLookupInput "٤٥٧١٧٣".toList false).status ≠ .invalid ↔
      AsciiDigits (removeSeparators "٤٥٧١٧٣".toList) ∧
      ((removeSeparators "٤٥٧١٧٣".toList).length = minPrefixLength ∨
        (removeSeparators "٤٥٧١٧٣".toList).length = extendedPrefixLength ∨
        (minPanLength ≤ (removeSeparators "٤٥٧١٧٣".toList).length ∧
          (removeSeparators "٤٥٧١٧٣".toList).length ≤ maxPanLength)) ∧
      (false = true → minPanLength ≤ (removeSeparators "٤٥٧١٧٣".toList).length →
        passesLuhn (removeSeparators "٤٥٧١٧٣".toList) = true)) := by
  decide

end Grammar

end CardBinData
