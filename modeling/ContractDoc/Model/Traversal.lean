import ContractDoc.File.Path
import ContractDoc.Import.Resolver
import ContractDoc.Model.Subject

/-!
# Traversing the parents of a contract

The models of a contract and of its ancestors are built on demand and shared: in
one traversal each import is resolved once, and each ancestor is built once, by
its canonical path and its name.

A model knows the lineage of files that led to it.  A parent whose file occurs
in the lineage of its child is refused, since the contracts would then inherit
from each other in a circle.
-/

namespace ContractDoc

/-- The key of an ancestor: its canonical path and its name. -/
structure AncestorKey where
  path : String
  name : String
  deriving DecidableEq, Repr

/-- The way a parent is named by its child: the path of the import and the name
of the parent. -/
structure ParentKey where
  importPath : String
  name : String
  deriving DecidableEq, Repr

/-- The key of a resolved import.  A path means the same everywhere in one
directory. -/
structure ImportKey where
  importPath : String
  /-- The directory of the importing file, if it has a path. -/
  directory : Option String
  deriving DecidableEq, Repr

/-- The key of an import in a file. -/
def ImportKey.ofImport (importPath : String) (importer : Option String) : ImportKey :=
  ⟨importPath, (nonempty? importer).map directoryOf⟩

/-- The model of one contract. -/
structure Model where
  subject : Subject
  /-- Whether the members of parents are merged in unless one asks otherwise.
  They are not if this is left open. -/
  mergesParents : Option Bool
  /-- The files that led here, the own file last. -/
  lineage : List String
  cache : Cache Derivation.Result
  /-- The parents that have been looked up. -/
  parents : Entries ParentKey AncestorKey

namespace Model

/-- The lineage of a file behind the one of its descendants. -/
def extendLineage (lineage : List String) (filePath : Option String) : List String :=
  match nonempty? filePath with
  | none => lineage
  | some path => if lineage.contains path then lineage else lineage ++ [path]

/-- The model of a contract about which nothing is known yet. -/
def fresh (subject : Subject) (mergesParents : Option Bool) (lineage : List String) :
    Model where
  subject := subject
  mergesParents := mergesParents
  lineage := extendLineage lineage subject.filePath
  cache := .empty
  parents := []

/-- The model of the parent `name` of another model, which has been resolved. -/
def ofParent (child : Model) (name : String) (resolved : ResolvedImport) : Model :=
  fresh ⟨resolved.source, some resolved.path, some name, true⟩ (some true) child.lineage

end Model

/-- A model of a traversal: the one it starts at, or one of its ancestors. -/
inductive ModelRef where
  | root
  | ancestor (key : AncestorKey)
  deriving DecidableEq, Repr

/-- The state of a traversal. -/
structure Traversal where
  root : Model
  /-- The ancestors that have been built. -/
  ancestors : Entries AncestorKey Model
  /-- The imports that have been resolved. -/
  resolved : Entries ImportKey ResolvedImport
  /-- The imports that the resolver has been asked for, with the importing file. -/
  calls : List (String × Option String)
  notices : List Notice

namespace Traversal

/-- The start of a traversal at a contract. -/
def start (subject : Subject) (mergesParents : Option Bool) : Traversal where
  root := .fresh subject mergesParents []
  ancestors := []
  resolved := []
  calls := []
  notices := []

/-- A model of the traversal.  A key that is not known stands for the root. -/
def model (traversal : Traversal) : ModelRef → Model
  | .root => traversal.root
  | .ancestor key => (Entries.get? key traversal.ancestors).getD traversal.root

/-- Replaces a model. -/
def setModel (traversal : Traversal) (ref : ModelRef) (model : Model) : Traversal :=
  match ref with
  | .root => { traversal with root := model }
  | .ancestor key =>
      { traversal with ancestors := Entries.insert key model traversal.ancestors }

/-- A step of a traversal.  What was built and reported before a failure stays. -/
abbrev Step (α : Type) : Type := ExceptT Failure (StateM Traversal) α

/-- Reports notices. -/
def report (notices : List Notice) : Step Unit :=
  modify fun traversal => { traversal with notices := traversal.notices ++ notices }

/-- A model of the traversal. -/
def getModel (ref : ModelRef) : Step Model :=
  return (← get).model ref

/-- Derives a value from the source of a model, which remembers it. -/
def derive {α : Type} (ref : ModelRef) (value : Subject → Derive α) : Step α :=
  ExceptT.mk fun traversal =>
    let model := traversal.model ref
    let (result, progress) := (value model.subject).run.run ⟨model.cache, []⟩
    let traversal := traversal.setModel ref { model with cache := progress.cache }
    (result, { traversal with notices := traversal.notices ++ progress.notices })

/-- Resolves an import, asking the resolver only for what is not known. -/
def resolveImport (resolver : ImportResolver) (importPath : String)
    (importer : Option String) : Step ResolvedImport := do
  let key := ImportKey.ofImport importPath importer
  match Entries.get? key (← get).resolved with
  | some resolved => return resolved
  | none =>
      let resolution := resolver importPath importer
      modify fun traversal =>
        { traversal with calls := traversal.calls ++ [(importPath, importer)] }
      report resolution.notices
      let resolved ← resolution.result
      modify fun traversal =>
        { traversal with resolved := Entries.insert key resolved traversal.resolved }
      return resolved

/-- Builds the model of a parent unless there is one. -/
def register (ref : ModelRef) (name : String) (resolved : ResolvedImport) :
    Step AncestorKey := do
  let key : AncestorKey := ⟨resolved.path, name⟩
  if (Entries.get? key (← get).ancestors).isNone then
    let child ← derive ref Subject.name
    report [.loadingParent child name resolved.path]
    let parent := (← getModel ref).ofParent name resolved
    modify fun traversal =>
      { traversal with ancestors := Entries.insert key parent traversal.ancestors }
  return key

/-- The model of a parent, by the path of its import and its name. -/
def parent (resolver : ImportResolver) (ref : ModelRef) (importPath name : String) :
    Step ModelRef := do
  let key : ParentKey := ⟨importPath, name⟩
  let child ← getModel ref
  match Entries.get? key child.parents with
  | some ancestor => return .ancestor ancestor
  | none =>
      let resolved ← resolveImport resolver importPath child.subject.filePath
      if child.lineage.contains resolved.path then
        throw (.circularInheritance (child.lineage ++ [resolved.path]))
      let ancestor ← register ref name resolved
      modify fun traversal =>
        let child := traversal.model ref
        traversal.setModel ref
          { child with parents := Entries.insert key ancestor child.parents }
      return .ancestor ancestor

end Traversal
end ContractDoc
