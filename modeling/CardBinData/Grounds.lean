import CardBinData.Attribution
import CardBinData.History

/-!
# What an answer stands on

An answer shows a record and names source rows (`docs/sources.md`). `answers_stand`: in every
history of a store, whatever is called and whatever fails, each answer stands on the rows of one of
its imports (`StandsOn`): its key matches the query, each value it shows is that of a row it names,
and it names the rows of its key, all of them, and rows of its 6-digit prefix that lend it a value.
An answer that shows nothing names nothing.

It is proved of the catalog (`stands_lookup`, `Catalog.Session.stands`, `Catalog.Allows.stands`),
and holds of the store because its histories are those of the catalog.
-/

namespace CardBinData

open Library

/-! ## One answer -/

/-- The attribution names the row of the record. -/
def SourceAttribution.Names (a : SourceAttribution) (r : NormalizedSourceRecord) : Prop :=
  a.sourceId = r.source.sourceId ∧ a.sourceRowKey = some r.rowKey

/-- The key is a candidate, or the range shown contains the 8-digit one. -/
def BinInfo.Matches (info : BinInfo) (query : LookupQuery) : Prop :=
  info.iinStart ∈ query.candidates ∨
    ∃ e ∈ info.iinEnd, ∃ c ∈ candidateOfLength eightDigitPrefixLength query,
      Spans info.iinStart e c

/-- The row lends the key a value that no row of the key itself supplies. -/
def Lends (records : List NormalizedSourceRecord) (info : BinInfo) (r : NormalizedSourceRecord) :
    Prop :=
  r.iinStart = info.iinStart.take sixDigitPrefixLength ∧
    ∃ f v, info.field f = some v ∧ r.getattr f = some v ∧
      ¬ ∃ u, FirstSupplied f (exactGroup records info.iinStart) u

/-- What is shown, and the rows named for it. -/
structure StandsOn (records : List NormalizedSourceRecord) (query : LookupQuery) (info : BinInfo)
    (sources : List SourceAttribution) : Prop where
  answers : info.Matches query
  values : ∀ f v, info.field f = some v →
    ∃ r ∈ records, r.getattr f = some v ∧ ∃ a ∈ sources, a.Names r
  sound : ∀ a ∈ sources, ∃ r ∈ records, a.Names r ∧
    (r.iinStart = info.iinStart ∨ Lends records info r)
  complete : ∀ r ∈ records, r.iinStart = info.iinStart → ∃ a ∈ sources, a.Names r
  nonempty : sources ≠ []

/-- An answer stands on the records of one of the imports, or shows nothing. -/
structure LookupResult.Stands (imports : List (List NormalizedSourceRecord))
    (result : LookupResult) : Prop where
  found : result.status = .found ↔ result.data.isSome
  shown : ∀ info ∈ result.data, ∃ records ∈ imports,
    StandsOn records result.query info result.sources
  nothing : result.data = none → result.sources = []

section Catalog

variable (self : Catalog)

theorem names_attribution (s : NormalizedSourceRecord) : (self.attribution s).Names s := ⟨rfl, rfl⟩

/-- The key chosen matches the query. -/
theorem Chooses.matches {records : List NormalizedSourceRecord} {query : LookupQuery} {k : Str}
    (h : Chooses records query (some k)) :
    (recordInfo (mergedOf records k).record).Matches query := by
  cases h with
  | exact8 hc _ => exact .inl (List.mem_of_find?_eq_some hc)
  | exact6 _ hc _ => exact .inl (List.mem_of_find?_eq_some hc)
  | range hc _ hin _ =>
    obtain ⟨e, he, hspans⟩ := hin
    exact .inr ⟨e, (iinEnd_mergedOf records k).trans he, _, hc, hspans⟩

/-- The key chosen is that of a record. -/
theorem Chooses.hasKey {records : List NormalizedSourceRecord} {query : LookupQuery} {k : Str}
    (h : Chooses records query (some k)) : HasKey records k := by
  cases h with
  | exact8 _ hk => exact hk
  | exact6 _ _ hk => exact hk
  | range _ _ hin _ => exact hin.hasKey

/-- A borrowed row lends a value. -/
theorem lends_of_borrowed {records : List NormalizedSourceRecord} {k : Str}
    {s : NormalizedSourceRecord} (hs : s ∈ borrowedSources records k) :
    Lends records (recordInfo (mergedOf records k).record) s := by
  obtain ⟨hgroup, f, record, v, hfrom, hbeq⟩ := mem_borrowedSources_iff.mp hs
  have hvalue : s.getattr f = some v := by
    have hsame := congrArg (·.getattr f) (NormalizedSourceRecord.eq_of_beq hbeq)
    refine Eq.trans ?_ hfrom.2.2.mem.2
    cases f <;> exact hsame.symm
  refine ⟨(mem_exactGroup.mp hgroup).2, f, v, ?_, hvalue, hfrom.2.1⟩
  rw [field_recordInfo]
  exact hfrom.merged.1

/-- **The record of a chosen key stands on its contributions.** -/
theorem standsOn_mergedOf {query : LookupQuery} {k : Str}
    (hkey : Chooses self.records query (some k)) :
    StandsOn self.records query (recordInfo (mergedOf self.records k).record)
      ((mergedOf self.records k).sources.map self.attribution) where
  answers := hkey.matches
  values f v hv := by
    rw [field_recordInfo] at hv
    obtain ⟨s, hs, hvalue⟩ := exists_source_of_getattr hv
    exact ⟨s, mem_of_mem_sources hs, hvalue, _, List.mem_map_of_mem hs, names_attribution self s⟩
  sound a ha := by
    obtain ⟨s, hs, rfl⟩ := List.mem_map.mp ha
    refine ⟨s, mem_of_mem_sources hs, names_attribution self s, ?_⟩
    rw [sources_mergedOf] at hs
    exact (List.mem_append.mp hs).imp (fun hown => (mem_exactGroup.mp hown).2) lends_of_borrowed
  complete r hr hk := by
    have hs : r ∈ (mergedOf self.records k).sources :=
      List.mem_append_left _ (mem_exactGroup.mpr ⟨hr, hk⟩)
    exact ⟨_, List.mem_map_of_mem hs, names_attribution self r⟩
  nonempty := by
    obtain ⟨r, hr, hk⟩ := hkey.hasKey
    have hs : r ∈ (mergedOf self.records k).sources :=
      List.mem_append_left _ (mem_exactGroup.mpr ⟨hr, hk⟩)
    exact List.ne_nil_of_mem (List.mem_map_of_mem hs)

/-- What the catalog answers stands on its records. -/
theorem stands_lookup (value : Str) (validateLuhn : Bool) :
    (self.lookup value validateLuhn).Stands [self.records] := by
  unfold Catalog.lookup Catalog.lookupAmong
  simp only
  by_cases hstatus : (normalizeLookupInput value validateLuhn).status = .invalid
  · rw [if_pos hstatus]
    have hdata := data_normalizeLookupInput value validateLuhn
    exact ⟨by simp [hstatus, hdata], by simp [hdata],
      fun _ => sources_normalizeLookupInput value validateLuhn⟩
  rw [if_neg hstatus]
  obtain ⟨key, hkey, hselect⟩ :=
    chooses_select self.records (normalizeLookupInput value validateLuhn).query
  rw [hselect]
  cases key with
  | none => exact ⟨by simp, by simp, fun _ => rfl⟩
  | some k =>
    refine ⟨by simp, fun info hinfo => ⟨_, List.mem_singleton_self _, ?_⟩, by simp⟩
    obtain rfl := Option.some.inj hinfo
    exact standsOn_mergedOf self hkey

end Catalog

/-! ## Histories -/

/-- The records that a call on the session imports, if any. -/
def SessionCall.imported : SessionCall → List (List NormalizedSourceRecord)
  | .importSources call => [emitted call.adapters]
  | .lookup _ => []

/-- The records that a call on the store imports, import by import. -/
def Call.imported : Call → List (List NormalizedSourceRecord)
  | .importSources call => [emitted call.adapters]
  | .lookup _ => []
  | .transaction calls _ => calls.flatMap SessionCall.imported

/-- An answer is given, and stands on one of the imports. -/
def Outcome.Stands (imports : List (List NormalizedSourceRecord)) : Outcome → Prop
  | .answered answer => ∃ result ∈ answer, result.Stands imports
  | .imported _ => True
  | .raised _ => True

/-- Each answer of a history stands on an import that it or a call before it has made. -/
def AnswersStand (history : List (Call × List Outcome)) : Prop :=
  ∀ before e after, history = before ++ e :: after →
    ∀ outcome ∈ e.2, outcome.Stands ((before ++ [e]).flatMap (·.1.imported))

/-- The records of the catalog are those of one of the imports, if it has any. -/
def Catalog.Known (imports : List (List NormalizedSourceRecord)) (self : Catalog) : Prop :=
  self.records = [] ∨ self.records ∈ imports

section Histories

variable {imports : List (List NormalizedSourceRecord)} {self : Catalog}

theorem Catalog.Known.mono {imports' : List (List NormalizedSourceRecord)}
    (h : self.Known imports) (hsubset : imports ⊆ imports') : self.Known imports' :=
  h.imp_right fun hmem => hsubset hmem

theorem stands_of_answers (h : self.Known imports) {call : LookupCall} {outcome : Outcome}
    (hanswers : self.Answers call outcome) : outcome.Stands imports := by
  obtain ⟨result, rfl, hlike⟩ := hanswers
  have hstands := stands_lookup self call.value call.validateLuhn
  refine ⟨result, rfl, ?_, fun info hinfo => ?_, fun hdata => ?_⟩
  · rw [hlike.status, hlike.data]
    exact hstands.found
  · rw [hlike.data] at hinfo
    obtain ⟨records, hrecords, hshown⟩ := hstands.shown info hinfo
    obtain rfl := List.mem_singleton.mp hrecords
    -- the sources of the answer are those of the catalog, in another order
    have hmem : ∀ a, a ∈ result.sources ↔ a ∈ (self.lookup call.value call.validateLuhn).sources :=
      fun a => hlike.sources.mem_iff
    have hmine : StandsOn self.records result.query info result.sources :=
      { answers := hlike.query ▸ hshown.answers
        values := by simpa only [hmem] using hshown.values
        sound := by simpa only [hmem] using hshown.sound
        complete := by simpa only [hmem] using hshown.complete
        nonempty := fun hnil => hshown.nonempty (hlike.sources.symm.trans (.of_eq hnil)).eq_nil }
    refine ⟨self.records, h.resolve_left fun hnil => ?_, hmine⟩
    obtain ⟨a, ha⟩ := List.exists_mem_of_ne_nil _ hmine.nonempty
    obtain ⟨r, hr, -⟩ := hmine.sound a ha
    rw [hnil] at hr
    exact absurd hr List.not_mem_nil
  · rw [hlike.data] at hdata
    have hnil := hstands.nothing hdata
    exact (hlike.sources.trans (.of_eq hnil)).eq_nil

/-- What an import leaves is known. -/
theorem ImportCall.Ends.stands {call : ImportCall} {outcome : Outcome} {next : Option Catalog}
    (h : call.Ends outcome next) (hcall : emitted call.adapters ∈ imports) :
    outcome.Stands imports ∧ ∀ last ∈ next, last.Known imports := by
  cases h with
  | raised _ => exact ⟨trivial, by simp⟩
  | imported _ =>
    refine ⟨trivial, fun last hlast => .inr ?_⟩
    obtain rfl := Option.some.inj hlast
    exact hcall

/-- **Within a transaction.** -/
theorem Catalog.Session.stands {calls : List SessionCall} {outcomes : List Outcome}
    {last : Option Catalog} (h : self.Session calls outcomes last) (hknown : self.Known imports)
    (hcalls : calls.flatMap SessionCall.imported ⊆ imports) :
    (∀ outcome ∈ outcomes, outcome.Stands imports) ∧ ∀ next ∈ last, next.Known imports := by
  induction h with
  | done self => exact ⟨by simp, fun next hnext => Option.some.inj hnext ▸ hknown⟩
  | raised rest hcall =>
    have hends := hcall.stands (hcalls List.mem_cons_self)
    exact ⟨by simpa using hends.1, by simp⟩
  | imported hcall _ ih =>
    have hends := hcall.stands (hcalls List.mem_cons_self)
    have hrest := ih (hends.2 _ rfl) fun records h => hcalls (List.mem_cons_of_mem _ h)
    exact ⟨List.forall_mem_cons.mpr ⟨hends.1, hrest.1⟩, hrest.2⟩
  | lookup hcall _ ih =>
    have hrest := ih hknown hcalls
    exact ⟨List.forall_mem_cons.mpr ⟨stands_of_answers hknown hcall, hrest.1⟩, hrest.2⟩

/-- **A call that the catalog allows answers what stands.** -/
theorem Catalog.Allows.stands {call : Call} {outcomes : List Outcome} {next : Catalog}
    (h : self.Allows call outcomes next) (hknown : self.Known imports)
    (hcall : call.imported ⊆ imports) :
    (∀ outcome ∈ outcomes, outcome.Stands imports) ∧ next.Known imports := by
  have hgetD : ∀ {last : Option Catalog}, (∀ next ∈ last, next.Known imports) →
      (last.getD self).Known imports := by
    rintro (_ | last) hlast
    · exact hknown
    · exact hlast last rfl
  cases h with
  | importSources hends =>
    have hstands := hends.stands (hcall List.mem_cons_self)
    exact ⟨by simpa using hstands.1, hgetD hstands.2⟩
  | lookup hanswers => exact ⟨by simpa using stands_of_answers hknown hanswers, hknown⟩
  | commit hcalls =>
    have hstands := hcalls.stands hknown hcall
    exact ⟨hstands.1, hgetD hstands.2⟩
  | rollback hcalls => exact ⟨(hcalls.stands hknown hcall).1, hknown⟩

end Histories

/-- **Every answer in every history stands on the rows of one import made by then**: it shows no
value that no row it names has, and names no row but those of its key and those that lend it a
value. -/
theorem answers_stand (calls : List Call) (w : World) :
    AnswersStand (trace Call.run calls { w with committed := Database.empty }) := by
  have hexplains := explains_trace (R := fun (w : World) self => Catalog.In self w.committed)
    (fun _ _ call h => call_refines h call) calls
    (s := { w with committed := Database.empty }) catalog_in_empty
  refine hexplains.forall_outputs
    (I := fun done self => self.Known (done.flatMap (·.1.imported))) ?_ (.inl rfl)
  intro done self call outcomes next hknown hallows
  have hnow : self.Known ((done ++ [(call, outcomes)]).flatMap (·.1.imported)) :=
    hknown.mono (by simp [List.flatMap_append])
  exact hallows.stands hnow (by simp [List.flatMap_append])

end CardBinData
