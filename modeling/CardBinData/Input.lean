import CardBinData.Types

/-!
# Lookup input (`input.py`)

`normalizeLookupInput` turns what a user typed into the prefix candidates of a query, or into an
invalid result with a warning. A result never holds more of the input than its first eight digits.
-/

namespace CardBinData

def minPrefixLength : Nat := 6
def extendedPrefixLength : Nat := 8
def minPanLength : Nat := 12
def maxPanLength : Nat := 19
def luhnDoubledDigitThreshold : Nat := 9

def shortLuhnWarning : Str := "luhn validation requires full PAN input".toList
def nonNumericWarning : Str := "lookup input must contain only digits, spaces, or hyphens".toList
def tooShortWarning : Str := "lookup input must contain at least 6 digits".toList
def unsupportedLengthWarning : Str :=
  "lookup input must be a 6-digit BIN, 8-digit IIN, or full PAN".toList
def failedLuhnWarning : Str := "lookup input failed luhn validation".toList

/-- `raw_input.replace(" ", "").replace("-", "")`. -/
def removeSeparators (rawInput : Str) : Str :=
  (rawInput.filter fun c => c ≠ ' ').filter fun c => c ≠ '-'

/-- What one character adds to the checksum. -/
def luhnTerm (parity index : Nat) (character : Char) : Nat :=
  let digit := (digitValue? character).getD 0
  if index % 2 = parity then
    if 2 * digit > luhnDoubledDigitThreshold then 2 * digit - luhnDoubledDigitThreshold
    else 2 * digit
  else digit

/-- `_passes_luhn`, on decimal digits. -/
def passesLuhn (normalizedDigits : Str) : Bool :=
  let parity := normalizedDigits.length % 2
  let total := normalizedDigits.zipIdx.foldl (fun total p => total + luhnTerm parity p.2 p.1) 0
  decide (total % 10 = 0)

/-- `_lookup_candidates`. -/
def lookupCandidates (normalizedDigits : Str) : List Str :=
  if extendedPrefixLength ≤ normalizedDigits.length then
    [normalizedDigits.take extendedPrefixLength, normalizedDigits.take minPrefixLength]
  else [normalizedDigits.take minPrefixLength]

/-- `_invalid_result`. -/
def invalidResult (warning : Str) : LookupResult where
  status := .invalid
  query := { queryPrefix := [] }
  validationWarnings := [warning]

/-- `normalize_lookup_input`. -/
def normalizeLookupInput (rawInput : Str) (validateLuhn : Bool) : LookupResult :=
  let normalized := removeSeparators rawInput
  if !isdecimal normalized then invalidResult nonNumericWarning
  else
    let digitCount := normalized.length
    if digitCount < minPrefixLength then invalidResult tooShortWarning
    else if digitCount ∉ [minPrefixLength, extendedPrefixLength] ∧
        ¬ (minPanLength ≤ digitCount ∧ digitCount ≤ maxPanLength) then
      invalidResult unsupportedLengthWarning
    else
      let isFullPanInput := decide (minPanLength ≤ digitCount)
      if validateLuhn && isFullPanInput && !passesLuhn normalized then
        invalidResult failedLuhnWarning
      else
        let candidates := lookupCandidates normalized
        { status := .notFound
          query := ⟨candidates.headD [], candidates, isFullPanInput⟩
          validationWarnings := if validateLuhn && !isFullPanInput then [shortLuhnWarning] else [] }

example : (normalizeLookupInput "4111 1111-1111 1111".toList true).query =
    ⟨"41111111".toList, ["41111111".toList, "411111".toList], true⟩ := by decide

end CardBinData
