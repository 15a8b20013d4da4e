import ContractDoc.Notice

/-!
# Computing each value once

A cache holds the derived values that are known.  `Memo.get` computes a value
only if it is not known yet, and reports the computation.  A computation that
fails leaves no value, so it is tried again the next time.
-/

namespace ContractDoc

/-- Known values, one for each derivation at most. -/
structure Cache (β : Derivation → Type) where
  /-- The known value of a derivation. -/
  value? : (derivation : Derivation) → Option (β derivation)

namespace Cache

variable {β : Derivation → Type}

/-- The cache that knows nothing. -/
def empty : Cache β :=
  ⟨fun _ => none⟩

/-- Whether the value of a derivation is known. -/
def has (cache : Cache β) (derivation : Derivation) : Bool :=
  (cache.value? derivation).isSome

/-- The cache that also knows the given value. -/
def insert (cache : Cache β) (derivation : Derivation) (value : β derivation) :
    Cache β :=
  ⟨fun other => if same : derivation = other then some (same ▸ value)
    else cache.value? other⟩

/-- The derivations whose values are known, in their fixed order. -/
def known (cache : Cache β) : List Derivation :=
  Derivation.all.filter cache.has

@[simp] theorem value?_empty (derivation : Derivation) :
    (empty : Cache β).value? derivation = none := rfl

@[simp] theorem value?_insert_self (cache : Cache β) (derivation : Derivation)
    (value : β derivation) :
    (cache.insert derivation value).value? derivation = some value := by
  simp [insert]

theorem value?_insert_of_ne (cache : Cache β) {derivation other : Derivation}
    (different : derivation ≠ other) (value : β derivation) :
    (cache.insert derivation value).value? other = cache.value? other := by
  simp [insert, different]

end Cache

/-- What is known so far, and what has been reported. -/
structure Progress (β : Derivation → Type) where
  cache : Cache β
  notices : List Notice

/-- A computation that may fail, remembers derived values and reports notices.
What it remembered and reported before a failure stays. -/
abbrev Memo (β : Derivation → Type) (ε : Type) (α : Type) : Type :=
  ExceptT ε (StateM (Progress β)) α

namespace Memo

variable {β : Derivation → Type} {ε : Type}

/-- Reports notices. -/
def report (notices : List Notice) : Memo β ε Unit :=
  modify fun progress => { progress with notices := progress.notices ++ notices }

/-- Remembers the value of a derivation. -/
def store (derivation : Derivation) (value : β derivation) : Memo β ε Unit :=
  modify fun progress =>
    { progress with cache := progress.cache.insert derivation value }

/-- The value of a derivation, computed if it is not known. -/
def get (derivation : Derivation) (compute : Memo β ε (β derivation)) :
    Memo β ε (β derivation) := do
  let progress ← MonadState.get
  match progress.cache.value? derivation with
  | some value => return value
  | none =>
      report [.computing derivation]
      let value ← compute
      store derivation value
      return value

end Memo
end ContractDoc
