import ContractDoc.Import.Memory
import ContractDoc.Model.Traversal
import ContractDoc.Proofs.Entries

/-!
# Canonical resolvers

A traversal asks for an import once in each directory and keeps one model for each
canonical path and name.  Nothing is lost by this if the resolver is canonical.  A
table of sources is a canonical resolver if no two of its entries have the same path
and different sources.
-/

namespace ContractDoc

/-- A resolver is canonical if it finds the same for an import from everywhere in one
directory, and if a canonical path always comes with the same source. -/
structure ImportResolver.Canonical (resolver : ImportResolver) : Prop where
  byDirectory : ∀ {importPath first second},
    ImportKey.ofImport importPath first = .ofImport importPath second →
      (resolver importPath first).result.toOption =
        (resolver importPath second).result.toOption
  oneSource : ∀ {importPath importer otherPath otherImporter resolved other},
    (resolver importPath importer).result = .ok resolved →
      (resolver otherPath otherImporter).result = .ok other →
        resolved.path = other.path → resolved = other

/-- The canonical paths that a resolver answers are among given ones, and none of them
is empty. -/
structure ImportResolver.Within (resolver : ImportResolver) (paths : List String) : Prop where
  path_ne : ∀ {importPath importer resolved},
    (resolver importPath importer).result = .ok resolved → resolved.path ≠ ""
  path_mem : ∀ {importPath importer resolved},
    (resolver importPath importer).result = .ok resolved → resolved.path ∈ paths

namespace Import

open Text

/-- What is found at an entry of a table of sources. -/
def flatAnswer (entry : String × StoredSource) : ResolvedImport where
  source := entry.2.source
  path := entry.2.path.getD ("/virtual/" ++ String.ofList (afterLast '/' entry.1.toList))

variable
  {sources : Entries String StoredSource}
  {importPath : String}
  {importer : Option String}

/-- A table of sources answers from its entries only. -/
theorem mem_of_flat_eq_ok
    {resolved : ResolvedImport}
    (answer : (flat sources importPath importer).result = .ok resolved) :
    ∃ entry ∈ sources, flatAnswer entry = resolved := by
  unfold flat lookUp at answer
  cases found : Entries.get? importPath sources with
  | none =>
      rw [found] at answer
      cases answer
  | some stored =>
      rw [found] at answer
      exact ⟨(importPath, stored), Entries.mem_of_get? found, Except.ok.inj answer⟩

/-- A table of sources is canonical if a path always has the same source in it. -/
theorem canonical_flat
    (distinct : ∀ first ∈ sources, ∀ second ∈ sources,
      (flatAnswer first).path = (flatAnswer second).path →
        flatAnswer first = flatAnswer second) :
    (flat sources).Canonical where
  byDirectory := by
    intro importPath first second _
    unfold flat lookUp
    cases Entries.get? importPath sources <;> rfl
  oneSource := by
    intro importPath importer otherPath otherImporter resolved other answer otherAnswer same
    obtain ⟨entry, member, rfl⟩ := mem_of_flat_eq_ok answer
    obtain ⟨otherEntry, otherMember, rfl⟩ := mem_of_flat_eq_ok otherAnswer
    exact distinct entry member otherEntry otherMember same

/-- A table of sources answers the paths of its entries. -/
theorem within_flat (nonempty : ∀ entry ∈ sources, (flatAnswer entry).path ≠ "") :
    (flat sources).Within (sources.map fun entry => (flatAnswer entry).path) where
  path_ne := by
    intro importPath importer resolved answer
    obtain ⟨entry, member, rfl⟩ := mem_of_flat_eq_ok answer
    exact nonempty entry member
  path_mem := by
    intro importPath importer resolved answer
    obtain ⟨entry, member, rfl⟩ := mem_of_flat_eq_ok answer
    exact List.mem_map_of_mem member

end Import
end ContractDoc
