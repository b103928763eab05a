import CardBinData.Sources
import CardBinData.Staging

/-!
# What one corrupt row does to an import

`optional_int` reads a cell as an integer of any size, and the staging table takes 64 bits. Every
other cell is bound as text, as a bit or not at all, so a file can be staged exactly when its
`number_length` cells fit: `staging_returns_iff`. `oversized_number_length` is a cell that does not.

The rows are those that `csv.DictReader` has made of the file. A cell longer than
`csv.field_size_limit()`, 131072 characters by default, never gets into one: the read ends there
with `_csv.Error`, which is a fault of the adapter's step (`Environment.fault`).
-/

namespace CardBinData

open Library

/-- The `number_length` cell of the row is not an integer beyond 64 bits. -/
def NumberLengthFits (row : Row) : Prop :=
  ∀ n, optionalInt (row.get "number_length".toList) = some n → -2 ^ 63 ≤ n ∧ n < 2 ^ 63

/-- The row has a decimal key, so the adapter emits it. -/
def Usable (row : Row) : Prop := (usableKey "iin_start".toList row).isSome

theorem bindable_normalize_iff (adapter : BinlistDataAdapter) (key iinStart : Str) (row : Row) :
    Bindable (adapter.normalize key iinStart row) ↔ NumberLengthFits row := by
  unfold Bindable NumberLengthFits
  change (optionalInt (row.get "number_length".toList)).all bindable = true ↔ _
  rw [Option.all_eq_true]
  exact forall_congr' fun n => imp_congr_right fun _ => decide_eq_true_iff

/-- The emitted records can be bound exactly when the cells they come from fit. -/
theorem bindable_normalizeRows_iff (adapter : BinlistDataAdapter) (rows : List Row) :
    (∀ r ∈ adapter.normalizeRows rows, Bindable r) ↔
      ∀ row ∈ rows, Usable row → NumberLengthFits row := by
  constructor
  · intro h row hrow husable
    obtain ⟨iinStart, hkey⟩ := Option.isSome_iff_exists.mp husable
    obtain ⟨key, hmem⟩ := exists_mem_normalizeRows (pathName adapter.localPath) adapter.normalize
      hrow hkey
    exact (bindable_normalize_iff adapter key iinStart row).mp (h _ hmem)
  · intro h r hr
    obtain ⟨row, hrow, key, iinStart, hkey, rfl⟩ := mem_normalizeRows hr
    exact (bindable_normalize_iff adapter key iinStart row).mpr
      (h row hrow (Option.isSome_iff_exists.mpr ⟨iinStart, hkey⟩))

/-- When nothing else fails, staging returns exactly when every emitted record can be bound. -/
theorem stageSourceRecords_returns_iff (env : Environment) (adapters : List SourceAdapter)
    (w : World) :
    (∃ n w', stageSourceRecords env.faultless adapters { w with stage := {} } = .ok n w') ↔
      ∀ r ∈ emitted adapters, Bindable r := by
  have htriple : Triple _ (stageSourceRecords env.faultless adapters) _ _ :=
    stageSourceRecords_triple adapters
  have hpost := htriple { w with stage := {} } stageHolds_nil
  cases hrun : stageSourceRecords env.faultless adapters { w with stage := {} } with
  | ok n w' =>
    rw [hrun] at hpost
    exact ⟨fun _ => hpost.2.bindable, fun _ => ⟨n, w', rfl⟩⟩
  | error e w' =>
    rw [hrun] at hpost
    cases e with
    | raised =>
      obtain ⟨n, hn⟩ := hpost
      exact absurd rfl hn
    | overflowError =>
      obtain ⟨r, hr, hbind⟩ := hpost
      exact ⟨fun ⟨_, _, h⟩ => absurd h (by simp), fun h => absurd (h r hr) hbind⟩
    | keyError => exact absurd hpost id
    | integrityError => exact absurd hpost id

theorem emitted_singleton (adapter : SourceAdapter) : emitted [adapter] = adapter.records :=
  List.flatMap_singleton _ _

/-- **When nothing else fails, a file is staged exactly when its number cells fit into 64 bits**,
whatever the batch size. What else may fail includes the reading of a cell beyond the field size
limit. -/
theorem staging_returns_iff (env : Environment) (adapter : BinlistDataAdapter) (rows : List Row)
    (w : World) :
    (∃ n w', stageSourceRecords env.faultless [adapter.sourceAdapter rows] { w with stage := {} } =
        .ok n w') ↔
      ∀ row ∈ rows, Usable row → NumberLengthFits row := by
  rw [stageSourceRecords_returns_iff, emitted_singleton]
  exact bindable_normalizeRows_iff adapter rows

/-- The other two adapters read no number, so their files are always staged. -/
theorem staging_returns_venelinkochev (env : Environment)
    (adapter : VenelinkochevBinListDataAdapter) (rows : List Row) (w : World) :
    ∃ n w', stageSourceRecords env.faultless [adapter.sourceAdapter rows] { w with stage := {} } =
      .ok n w' := by
  rw [stageSourceRecords_returns_iff, emitted_singleton]
  intro r hr
  obtain ⟨row, -, key, iinStart, -, rfl⟩ := mem_normalizeRows hr
  rfl

theorem staging_returns_marlonlp (env : Environment) (adapter : MarlonlpBinlistDataAdapter)
    (rows : List Row) (w : World) :
    ∃ n w', stageSourceRecords env.faultless [adapter.sourceAdapter rows] { w with stage := {} } =
      .ok n w' := by
  rw [stageSourceRecords_returns_iff, emitted_singleton]
  intro r hr
  obtain ⟨row, -, key, iinStart, -, rfl⟩ := mem_normalizeRows hr
  rfl

/-- A row whose `number_length` is 2⁶³. -/
def oversizedRow : Row :=
  Dict.ofPairs [(some "iin_start".toList, .text "457173".toList),
    (some "number_length".toList, .text "9223372036854775808".toList)]

/-- One oversized number stops the staging of a file. -/
theorem oversized_number_length :
    ¬ ∀ (adapter : BinlistDataAdapter) (rows : List Row), ∃ n w',
      stageSourceRecords Environment.quiet [adapter.sourceAdapter rows] {} = .ok n w' := by
  intro hstages
  obtain ⟨n, w', hrun⟩ := hstages ⟨"ranges.csv".toList⟩ [oversizedRow]
  have hraises : returns (stageSourceRecords Environment.quiet
      [(⟨"ranges.csv".toList⟩ : BinlistDataAdapter).sourceAdapter [oversizedRow]] {})
      (fun _ _ => true) = false := by decide +kernel
  rw [hrun] at hraises
  exact absurd hraises (by simp [returns])

end CardBinData
