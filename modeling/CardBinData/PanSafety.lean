import CardBinData.Client
import CardBinData.Normalization

/-!
# A lookup does not depend on the digits it must not keep

Everything a lookup does with its input goes through `normalizeLookupInput`, and the result of that
holds at most the first eight digits (`normalize_pan`). So two card numbers with the same first
eight digits cannot be told apart by their results, up to the outcome of the Luhn check where it is
asked for; and the prefix in a result stands for the whole input (`lookup_prefix`).

* `lookup_noninterference`: both, and what the Luhn check can change.
-/

namespace CardBinData

/-- A full card number: 12 to 19 decimal digits among spaces and hyphens. -/
def IsPan (value : Str) : Prop :=
  isdecimal (removeSeparators value) = true ∧ minPanLength ≤ (removeSeparators value).length ∧
    (removeSeparators value).length ≤ maxPanLength

instance (value : Str) : Decidable (IsPan value) := inferInstanceAs (Decidable (_ ∧ _))

/-- The first eight digits of an input. -/
def firstEight (value : Str) : Str := (removeSeparators value).take extendedPrefixLength

/-- What a result says, apart from the form of the input: candidates, status, data, sources. -/
def LookupResult.answer (r : LookupResult) :
    List Str × LookupStatus × Option BinInfo × List SourceAttribution :=
  (r.query.candidates, r.status, r.data, r.sources)

/-! ## Normalization -/

variable {value : Str}

/-- What a card number normalizes to depends on its first eight digits and the Luhn check. -/
theorem normalize_pan (h : IsPan value) (validateLuhn : Bool) :
    normalizeLookupInput value validateLuhn =
      if validateLuhn && !passesLuhn (removeSeparators value) then invalidResult failedLuhnWarning
      else
        { status := .notFound
          query := ⟨firstEight value, [firstEight value, (firstEight value).take minPrefixLength],
            true⟩ } := by
  obtain ⟨hdec, hmin, hmax⟩ := h
  unfold minPanLength at hmin
  unfold maxPanLength at hmax
  have h₁ : ¬ (removeSeparators value).length < 6 := by omega
  have h₂ : extendedPrefixLength ≤ (removeSeparators value).length := by
    unfold extendedPrefixLength
    omega
  have htake : (removeSeparators value).take minPrefixLength =
      (firstEight value).take minPrefixLength := by
    unfold firstEight
    rw [List.take_take]
    rfl
  unfold normalizeLookupInput
  simp only [hdec, Bool.not_true, Bool.false_eq_true, if_false, minPrefixLength, h₁, minPanLength,
    maxPanLength, hmin, hmax, and_self, not_true, and_false, decide_true, Bool.and_true,
    Bool.and_false, lookupCandidates, if_pos h₂]
  split
  · rfl
  · unfold minPrefixLength at htake
    rw [List.headD_cons, htake]
    rfl

/-- Without a full card number the Luhn check adds a warning and nothing else. -/
theorem normalize_not_pan (h : ¬ IsPan value) :
    { normalizeLookupInput value true with validationWarnings := [] } =
      { normalizeLookupInput value false with validationWarnings := [] } := by
  unfold normalizeLookupInput
  simp only
  split
  · rfl
  rename_i hdec
  split
  · rfl
  split
  · rfl
  have hnot : ¬ (minPanLength ≤ (removeSeparators value).length) := fun hmin => by
    rename_i hlen
    simp only [minPrefixLength, extendedPrefixLength, List.mem_cons, List.not_mem_nil, or_false,
      not_and] at hlen
    have hmin' := hmin
    unfold minPanLength at hmin'
    have hmax : (removeSeparators value).length ≤ maxPanLength :=
      by_contra fun hmax => hlen (by omega) fun _ => hmax
    exact h ⟨by simpa using hdec, hmin, hmax⟩
  simp [hnot]

/-- Accepted candidates are looked up again under the same candidates. -/
theorem normalize_prefix {validateLuhn : Bool}
    (h : (normalizeLookupInput value validateLuhn).status ≠ .invalid) (validateLuhn' : Bool) :
    (normalizeLookupInput (normalizeLookupInput value validateLuhn).query.queryPrefix
      validateLuhn').status ≠ .invalid ∧
    (normalizeLookupInput (normalizeLookupInput value validateLuhn).query.queryPrefix
      validateLuhn').query.candidates =
      (normalizeLookupInput value validateLuhn).query.candidates := by
  obtain ⟨hdec, hmin, hlen, hcand, hprefix⟩ := normalize_accepted h
  rw [hcand, hprefix]
  generalize removeSeparators value = n at hdec hmin hlen
  unfold minPrefixLength at hmin
  rcases hlen with hlen | hlen
  · have hnot : ¬ extendedPrefixLength ≤ n.length := by
      rw [hlen]
      decide
    have htake : n.take minPrefixLength = n := List.take_of_length_le hlen.le
    obtain ⟨h₁, h₂⟩ := normalize_short hdec (Or.inl hlen) validateLuhn'
    simp only [lookupCandidates, if_neg hnot, List.headD_cons, htake] at h₂ ⊢
    exact ⟨h₁, h₂⟩
  · have h8 : (n.take extendedPrefixLength).length = extendedPrefixLength :=
      List.length_take_of_le hlen
    have htake8 : (n.take extendedPrefixLength).take extendedPrefixLength =
        n.take extendedPrefixLength := List.take_of_length_le h8.le
    have htake6 : (n.take extendedPrefixLength).take minPrefixLength = n.take minPrefixLength := by
      rw [List.take_take]
      rfl
    obtain ⟨h₁, h₂⟩ := normalize_short (isdecimal_take hdec (by decide)) (Or.inr h8) validateLuhn'
    simp only [lookupCandidates, if_pos hlen, if_pos h8.ge, List.headD_cons, htake8, htake6]
      at h₂ ⊢
    exact ⟨h₁, h₂⟩

/-! ## Lookup -/

variable {backend : Backend} {db : Database}

/-- The input reaches the lookup through its normalization only. -/
theorem lookup_congr {value' : Str} {validateLuhn validateLuhn' : Bool}
    (h : normalizeLookupInput value validateLuhn = normalizeLookupInput value' validateLuhn') :
    lookupWithSession backend db value validateLuhn =
      lookupWithSession backend db value' validateLuhn' := by
  unfold lookupWithSession
  rw [h]

/-- Accepted inputs with the same candidates have the same answer. -/
theorem answer_congr {value' : Str} {validateLuhn validateLuhn' : Bool}
    (h : (normalizeLookupInput value validateLuhn).status ≠ .invalid)
    (h' : (normalizeLookupInput value' validateLuhn').status ≠ .invalid)
    (hcand : (normalizeLookupInput value validateLuhn).query.candidates =
      (normalizeLookupInput value' validateLuhn').query.candidates) :
    (lookupWithSession backend db value validateLuhn).map (·.answer) =
      (lookupWithSession backend db value' validateLuhn').map (·.answer) := by
  unfold lookupWithSession
  simp only [if_neg h, if_neg h']
  have hrec : ∀ q q' : LookupQuery, q.candidates = q'.candidates →
      lookupRecord db.binRecords q = lookupRecord db.binRecords q' := fun q q' hq => by
    unfold lookupRecord candidateOfLength
    rw [hq]
  rw [hrec _ _ hcand]
  cases lookupRecord db.binRecords (normalizeLookupInput value' validateLuhn').query with
  | none => simp only [Option.map_some, LookupResult.answer, hcand]
  | some record =>
    cases hsrc : sourceAttributions backend db record with
    | none => simp [hsrc]
    | some sources => simp [hsrc, LookupResult.answer, hcand]

/-- The prefix in a result answers as the input did. -/
theorem lookup_prefix {validateLuhn : Bool} {r : LookupResult}
    (h : lookupWithSession backend db value validateLuhn = some r) (hr : r.status ≠ .invalid)
    (validateLuhn' : Bool) :
    (lookupWithSession backend db r.query.queryPrefix validateLuhn').map (·.answer) =
      some r.answer := by
  have hacc : (normalizeLookupInput value validateLuhn).status ≠ .invalid := by
    intro hinv
    unfold lookupWithSession at h
    simp only [if_pos hinv, Option.some.injEq] at h
    exact hr (h ▸ hinv)
  have hquery : r.query = (normalizeLookupInput value validateLuhn).query := by
    unfold lookupWithSession at h
    simp only [if_neg hacc] at h
    split at h
    · rw [← Option.some.inj h]
    · rename_i record _
      cases hsrc : sourceAttributions backend db record with
      | none => simp [hsrc] at h
      | some sources =>
        simp only [hsrc] at h
        rw [← Option.some.inj h]
  obtain ⟨hacc', hcand⟩ := normalize_prefix hacc validateLuhn'
  rw [hquery, answer_congr hacc' hacc hcand, h, Option.map_some]

/-- Turning the Luhn check on rejects card numbers that fail it and changes nothing else. -/
theorem answer_validateLuhn (value : Str) :
    (lookupWithSession backend db value true).map (·.answer) =
        (lookupWithSession backend db value false).map (·.answer) ∨
      (IsPan value ∧ passesLuhn (removeSeparators value) = false ∧
        lookupWithSession backend db value true = some (invalidResult failedLuhnWarning)) := by
  by_cases hpan : IsPan value
  · cases hluhn : passesLuhn (removeSeparators value) with
    | false =>
      refine Or.inr ⟨hpan, rfl, ?_⟩
      unfold lookupWithSession
      simp [normalize_pan hpan, hluhn, invalidResult]
    | true =>
      refine Or.inl (congrArg _ (lookup_congr ?_))
      simp [normalize_pan hpan, hluhn]
  · left
    have heq := normalize_not_pan hpan
    have hstatus := congrArg LookupResult.status heq
    have hquery := congrArg LookupResult.query heq
    by_cases h : (normalizeLookupInput value false).status = .invalid
    · unfold lookupWithSession
      simp only [if_pos h, if_pos (hstatus.trans h), Option.map_some]
      have hanswer : ∀ r : LookupResult, r.answer = { r with validationWarnings := [] }.answer :=
        fun _ => rfl
      rw [hanswer, heq]
      rfl
    · exact answer_congr (fun hinv => h (hstatus.symm.trans hinv)) h
        (congrArg LookupQuery.candidates hquery)

/-- **PAN noninterference.** For every state of the tables: card numbers that share their first
eight digits have the same result, when the Luhn check is not asked for or has the same outcome;
the prefix in a result answers as the input did; and asking for the Luhn check only turns card
numbers that fail it into invalid input. -/
theorem lookup_noninterference (backend : Backend) (db : Database) :
    (∀ v v', IsPan v → IsPan v' → firstEight v = firstEight v' →
      lookupWithSession backend db v false = lookupWithSession backend db v' false) ∧
    (∀ v v', IsPan v → IsPan v' → firstEight v = firstEight v' →
      passesLuhn (removeSeparators v) = passesLuhn (removeSeparators v') →
      lookupWithSession backend db v true = lookupWithSession backend db v' true) ∧
    (∀ v validateLuhn r, lookupWithSession backend db v validateLuhn = some r →
      r.status ≠ .invalid → ∀ validateLuhn',
      (lookupWithSession backend db r.query.queryPrefix validateLuhn').map (·.answer) =
        some r.answer) ∧
    ∀ v, (lookupWithSession backend db v true).map (·.answer) =
        (lookupWithSession backend db v false).map (·.answer) ∨
      (IsPan v ∧ passesLuhn (removeSeparators v) = false ∧
        lookupWithSession backend db v true = some (invalidResult failedLuhnWarning)) := by
  refine ⟨fun v v' hv hv' h8 => lookup_congr ?_, fun v v' hv hv' h8 hluhn => lookup_congr ?_,
    fun v validateLuhn r h hr => lookup_prefix h hr, fun v => answer_validateLuhn v⟩
  · rw [normalize_pan hv, normalize_pan hv', h8]
    rfl
  · rw [normalize_pan hv, normalize_pan hv', h8, hluhn]

/-- One record, from two sources. -/
def oneRecord : Database where
  dataSources :=
    let source : String → DataSourceValues := fun sourceId =>
      ⟨sourceId.toList, sourceId.toList, "https://example.org".toList, none, none⟩
    [⟨source "first", 1⟩, ⟨source "second", 2⟩]
  binRecords := [⟨{ iinStart := "41111111".toList, scheme := some "visa".toList }, 1⟩]
  binRecordSources :=
    [⟨⟨1, 1, "2".toList, some 0, .mapping Library.Dict.empty⟩, 1⟩,
      ⟨⟨1, 2, "3".toList, some 0, .mapping Library.Dict.empty⟩, 2⟩]

theorem lookup_noninterference_two_pans :
    lookupWithSession Backend.sequential oneRecord "4111 1111 1111 1111".toList false =
      lookupWithSession Backend.sequential oneRecord "411111119-999".toList false ∧
    (lookupWithSession Backend.sequential oneRecord "4111 1111 1111 1111".toList false).map
      (fun r => (r.status, r.data.map (·.iinStart), r.sources.map (·.sourceId))) =
      some (.found, some "41111111".toList, ["first".toList, "second".toList]) :=
  ⟨(lookup_noninterference Backend.sequential oneRecord).1 _ _ (by decide) (by decide)
    (by decide), by decide⟩

end CardBinData
