import ContractDoc.Model.Cache
import Mathlib.Data.List.Forall2

/-!
# Outcomes of computations

The computations of this library pass a state along and may fail; a failure keeps
the state in which it occurred.  The outcome of such a computation is its result
together with the state that it leaves.
-/

namespace ContractDoc

variable {ε σ α β : Type}

/-- A composed result succeeds exactly if both parts do. -/
theorem bind_eq_ok
    {first : Except ε α}
    {second : α → Except ε β}
    {value : β} :
    first >>= second = .ok value ↔
      ∃ middle, first = .ok middle ∧ second middle = .ok value := by
  cases first with
  | error failure =>
      constructor
      · exact nofun
      · rintro ⟨middle, succeeds, _⟩
        cases succeeds
  | ok middle =>
      constructor
      · exact fun succeeds => ⟨middle, rfl, succeeds⟩
      · rintro ⟨_, ⟨⟩, succeeds⟩
        exact succeeds

/-- Renaming the errors of a result does not change when it succeeds. -/
theorem mapError_eq_ok
    {ε' : Type}
    {result : Except ε α}
    {rename : ε → ε'}
    {value : α} :
    result.mapError rename = .ok value ↔ result = .ok value := by
  cases result with
  | error failure => exact ⟨nofun, nofun⟩
  | ok found =>
      constructor
      · rintro ⟨⟩
        rfl
      · rintro ⟨⟩
        rfl

/-- A result that is passed on succeeds exactly if it did before. -/
theorem map_eq_ok
    {result : Except ε α}
    {convert : α → β}
    {value : β} :
    result.map convert = .ok value ↔ ∃ found, result = .ok found ∧ convert found = value := by
  cases result with
  | error failure => exact ⟨nofun, nofun⟩
  | ok found =>
      constructor
      · rintro ⟨⟩
        exact ⟨found, rfl, rfl⟩
      · rintro ⟨_, ⟨⟩, rfl⟩
        rfl

/-- A list of results succeeds exactly if each of them does. -/
theorem mapM_eq_ok_iff
    {read : α → Except ε β}
    {values : List α}
    {found : List β} :
    values.mapM read = .ok found ↔
      List.Forall₂ (fun value result => read value = .ok result) values found := by
  induction values generalizing found with
  | nil =>
      rw [List.mapM_nil, List.forall₂_nil_left_iff]
      exact ⟨fun same => (Except.ok.inj same).symm, fun same => congrArg Except.ok same.symm⟩
  | cons value values ih =>
      rw [List.mapM_cons, bind_eq_ok, List.forall₂_cons_left_iff]
      simp only [bind_eq_ok, ih]
      constructor
      · rintro ⟨result, first, results, rest, ⟨⟩⟩
        exact ⟨result, results, first, rest, rfl⟩
      · rintro ⟨result, results, first, rest, rfl⟩
        exact ⟨result, first, results, rest, rfl⟩

theorem exists_mapM_eq_ok_iff
    {read : α → Except ε β}
    {values : List α} :
    (∃ found, values.mapM read = .ok found) ↔
      ∀ value ∈ values, ∃ result, read value = .ok result := by
  simp only [mapM_eq_ok_iff]
  induction values with
  | nil => exact ⟨fun _ => nofun, fun _ => ⟨[], .nil⟩⟩
  | cons value values ih =>
      rw [List.forall_mem_cons, ← ih]
      constructor
      · rintro ⟨found, each⟩
        obtain ⟨result, results, first, rest, rfl⟩ := List.forall₂_cons_left_iff.mp each
        exact ⟨⟨result, first⟩, results, rest⟩
      · rintro ⟨⟨result, first⟩, results, rest⟩
        exact ⟨result :: results, .cons first rest⟩

/-- The result of a computation that starts in a state, and the state that it
leaves. -/
def outcome
    (computation : ExceptT ε (StateM σ) α)
    (state : σ) : Except ε α × σ :=
  computation.run.run state

@[simp] theorem outcome_get (state : σ) :
    outcome (MonadState.get : ExceptT ε (StateM σ) σ) state = (.ok state, state) := rfl

@[simp] theorem outcome_modify (change : σ → σ) (state : σ) :
    outcome (modify change : ExceptT ε (StateM σ) PUnit) state =
      (.ok ⟨⟩, change state) := rfl

/-- A second computation starts where the first one has succeeded. -/
theorem outcome_bind
    (first : ExceptT ε (StateM σ) α)
    (second : α → ExceptT ε (StateM σ) β)
    (state : σ) :
    outcome (first >>= second) state =
      match outcome first state with
      | (.ok value, middle) => outcome (second value) middle
      | (.error error, middle) => (.error error, middle) := by
  unfold outcome
  rw [ExceptT.run_bind, StateT.run_bind]
  rcases first.run.run state with ⟨result, middle⟩
  cases result <;> rfl

theorem outcome_bind_of_ok
    {first : ExceptT ε (StateM σ) α}
    {second : α → ExceptT ε (StateM σ) β}
    {state middle : σ}
    {value : α}
    (succeeds : outcome first state = (.ok value, middle)) :
    outcome (first >>= second) state = outcome (second value) middle := by
  rw [outcome_bind, succeeds]

theorem outcome_bind_of_error
    {first : ExceptT ε (StateM σ) α}
    {second : α → ExceptT ε (StateM σ) β}
    {state middle : σ}
    {error : ε}
    (fails : outcome first state = (.error error, middle)) :
    outcome (first >>= second) state = (.error error, middle) := by
  rw [outcome_bind, fails]

end ContractDoc
