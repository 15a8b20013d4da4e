import ContractDoc.Proofs.Traversal.Sound

/-!
# How a document is made

A document is made from the own document of a contract and, if parents are merged
in, from the documents of its parents one after the other.  The ways in which this
can end are listed here; each of them determines the outcome.
-/

namespace ContractDoc
namespace Traversal

/-- Merges the members of one parent into those inherited so far. -/
def inherit
    (resolver : ImportResolver)
    (documentOf : ModelRef → Step Document)
    (ref : ModelRef)
    (inherited : Sections)
    (entry : String × Option String) : Step Sections :=
  match entry.2 with
  | none => return inherited
  | some path => do
      let parentRef ← parent resolver ref path entry.1
      let parentDocument ← documentOf parentRef
      return inherited.overlay parentDocument.sections

/-- Makes a document from the documents of parents. -/
def documentFrom
    (resolver : ImportResolver)
    (documentOf : ModelRef → Step Document)
    (ref : ModelRef)
    (merge : Option Bool) : Step Document := do
  let own ← derive ref Subject.document
  let model ← getModel ref
  if (merge <|> model.mergesParents).getD false then
    let parents ← derive ref Subject.parents
    let inherited ← parents.foldlM (inherit resolver documentOf ref) Sections.empty
    return { own with sections := inherited.overlay own.sections }
  else
    return own

/-- A document is made from documents with one level less. -/
theorem document_succ
    (resolver : ImportResolver)
    (depth : Nat)
    (ref : ModelRef)
    (merge : Option Bool) :
    document resolver (depth + 1) ref merge =
      documentFrom resolver (fun parentRef => document resolver depth parentRef none) ref
        merge := rfl

/-! ## Inheriting from the parents in order -/

/-- The ways of inheriting from parents in order: there is none left, the next one
is not imported, it is refused, its own document fails, or its members are merged
in before those of the rest. -/
inductive Inheriting
    (resolver : ImportResolver)
    (documentOf : ModelRef → Step Document)
    (ref : ModelRef) :
    Entries String (Option String) → Sections → Traversal →
      Except Failure Sections → Traversal → Prop
  | done {inherited : Sections} {state : Traversal} :
      Inheriting resolver documentOf ref [] inherited state (.ok inherited) state
  | skipped {name : String} {rest : Entries String (Option String)} {inherited : Sections}
      {before after : Traversal} {result : Except Failure Sections}
      (more : Inheriting resolver documentOf ref rest inherited before result after) :
      Inheriting resolver documentOf ref ((name, none) :: rest) inherited before result after
  | refused {name path : String} {rest : Entries String (Option String)}
      {inherited : Sections} {before after : Traversal} {failure : Failure}
      (refuses : outcome (parent resolver ref path name) before = (.error failure, after)) :
      Inheriting resolver documentOf ref ((name, some path) :: rest) inherited before
        (.error failure) after
  | broken {name path : String} {rest : Entries String (Option String)}
      {inherited : Sections} {before middle after : Traversal} {parentRef : ModelRef}
      {failure : Failure}
      (asks : outcome (parent resolver ref path name) before = (.ok parentRef, middle))
      (breaks : outcome (documentOf parentRef) middle = (.error failure, after)) :
      Inheriting resolver documentOf ref ((name, some path) :: rest) inherited before
        (.error failure) after
  | merged {name path : String} {rest : Entries String (Option String)}
      {inherited : Sections} {before middle late after : Traversal} {parentRef : ModelRef}
      {parentDocument : Document} {result : Except Failure Sections}
      (asks : outcome (parent resolver ref path name) before = (.ok parentRef, middle))
      (documents : outcome (documentOf parentRef) middle = (.ok parentDocument, late))
      (more : Inheriting resolver documentOf ref rest
        (inherited.overlay parentDocument.sections) late result after) :
      Inheriting resolver documentOf ref ((name, some path) :: rest) inherited before
        result after

section Inheriting

variable
  {resolver : ImportResolver}
  {documentOf : ModelRef → Step Document}
  {ref : ModelRef}

variable (resolver documentOf ref) in
/-- Inheriting is one of its ways. -/
theorem inheriting_foldlM
    (entries : Entries String (Option String))
    (inherited : Sections)
    (before : Traversal) :
    Inheriting resolver documentOf ref entries inherited before
      (outcome (entries.foldlM (inherit resolver documentOf ref) inherited) before).1
      (outcome (entries.foldlM (inherit resolver documentOf ref) inherited) before).2 := by
  induction entries generalizing inherited before with
  | nil => exact .done
  | cons entry rest ih =>
      obtain ⟨name, path⟩ := entry
      rw [List.foldlM_cons]
      cases path with
      | none => exact .skipped (ih inherited before)
      | some path =>
          rcases asks : outcome (parent resolver ref path name) before with ⟨asked, middle⟩
          cases asked with
          | error failure =>
              have refuses : outcome (inherit resolver documentOf ref inherited
                  (name, some path)) before = (.error failure, middle) :=
                outcome_bind_of_error asks
              rw [outcome_bind_of_error refuses]
              exact .refused asks
          | ok parentRef =>
              rcases documents : outcome (documentOf parentRef) middle with ⟨made, late⟩
              cases made with
              | error failure =>
                  have breaks : outcome (inherit resolver documentOf ref inherited
                      (name, some path)) before = (.error failure, late) :=
                    (outcome_bind_of_ok asks).trans (outcome_bind_of_error documents)
                  rw [outcome_bind_of_error breaks]
                  exact .broken asks documents
              | ok parentDocument =>
                  have merges : outcome (inherit resolver documentOf ref inherited
                      (name, some path)) before =
                      (.ok (inherited.overlay parentDocument.sections), late) :=
                    (outcome_bind_of_ok asks).trans (outcome_bind_of_ok documents)
                  rw [outcome_bind_of_ok merges]
                  exact .merged asks documents (ih _ late)

/-- Each way of inheriting determines the outcome. -/
theorem Inheriting.outcome_eq
    {entries : Entries String (Option String)}
    {inherited : Sections}
    {before after : Traversal}
    {result : Except Failure Sections}
    (inheriting : Inheriting resolver documentOf ref entries inherited before result after) :
    outcome (entries.foldlM (inherit resolver documentOf ref) inherited) before =
      (result, after) := by
  induction inheriting with
  | done => rfl
  | skipped more ih => exact ih
  | refused refuses =>
      rw [List.foldlM_cons]
      exact outcome_bind_of_error (outcome_bind_of_error refuses)
  | broken asks breaks =>
      rw [List.foldlM_cons]
      exact outcome_bind_of_error
        ((outcome_bind_of_ok asks).trans (outcome_bind_of_error breaks))
  | merged asks documents more ih =>
      rw [List.foldlM_cons]
      exact (outcome_bind_of_ok
        ((outcome_bind_of_ok asks).trans (outcome_bind_of_ok documents))).trans ih

end Inheriting

/-! ## Making the document -/

/-- The ways of making a document: the own document fails or is all that is wanted,
or the parents cannot be listed, or the contract inherits from them. -/
inductive Documenting
    (resolver : ImportResolver)
    (documentOf : ModelRef → Step Document)
    (ref : ModelRef)
    (merge : Option Bool)
    (before : Traversal) : Except Failure Document → Traversal → Prop
  | underived {failure : Failure} {after : Traversal}
      (fails : outcome (derive ref Subject.document) before = (.error failure, after)) :
      Documenting resolver documentOf ref merge before (.error failure) after
  | alone {own : Document} {after : Traversal}
      (derives : outcome (derive ref Subject.document) before = (.ok own, after))
      (unmerged : (merge <|> (after.model ref).mergesParents).getD false = false) :
      Documenting resolver documentOf ref merge before (.ok own) after
  | unparented {own : Document} {failure : Failure} {middle after : Traversal}
      (derives : outcome (derive ref Subject.document) before = (.ok own, middle))
      (merging : (merge <|> (middle.model ref).mergesParents).getD false = true)
      (fails : outcome (derive ref Subject.parents) middle = (.error failure, after)) :
      Documenting resolver documentOf ref merge before (.error failure) after
  | inherited {own : Document} {middle ready after : Traversal}
      {parents : Entries String (Option String)} {result : Except Failure Sections}
      (derives : outcome (derive ref Subject.document) before = (.ok own, middle))
      (merging : (merge <|> (middle.model ref).mergesParents).getD false = true)
      (lists : outcome (derive ref Subject.parents) middle = (.ok parents, ready))
      (inheriting : Inheriting resolver documentOf ref parents Sections.empty ready result
        after) :
      Documenting resolver documentOf ref merge before
        (result.map fun sections => { own with sections := sections.overlay own.sections })
        after

section Documenting

variable
  {resolver : ImportResolver}
  {documentOf : ModelRef → Step Document}
  {ref : ModelRef}
  {merge : Option Bool}

variable (resolver documentOf ref merge) in
/-- Making a document is one of its ways. -/
theorem documenting_documentFrom (before : Traversal) :
    Documenting resolver documentOf ref merge before
      (outcome (documentFrom resolver documentOf ref merge) before).1
      (outcome (documentFrom resolver documentOf ref merge) before).2 := by
  unfold documentFrom
  rcases derives : outcome (derive ref Subject.document) before with ⟨derived, middle⟩
  cases derived with
  | error failure =>
      rw [outcome_bind_of_error derives]
      exact .underived derives
  | ok own =>
      rw [outcome_bind_of_ok derives]
      have looked : outcome (getModel ref) middle = (.ok (middle.model ref), middle) := rfl
      rw [outcome_bind_of_ok looked]
      cases merging : (merge <|> (middle.model ref).mergesParents).getD false with
      | false => exact .alone derives merging
      | true =>
          rw [if_pos rfl]
          rcases lists : outcome (derive ref Subject.parents) middle with ⟨listed, ready⟩
          cases listed with
          | error failure =>
              rw [outcome_bind_of_error lists]
              exact .unparented derives merging lists
          | ok parents =>
              rw [outcome_bind_of_ok lists]
              have inheriting := inheriting_foldlM resolver documentOf ref parents
                Sections.empty ready
              rcases folds : outcome (parents.foldlM (inherit resolver documentOf ref)
                Sections.empty) ready with ⟨result, after⟩
              rw [folds] at inheriting
              have documenting : Documenting resolver documentOf ref merge before _ after :=
                .inherited derives merging lists inheriting
              cases result with
              | error failure =>
                  rw [outcome_bind_of_error folds]
                  exact documenting
              | ok sections =>
                  rw [outcome_bind_of_ok folds]
                  exact documenting

variable (resolver ref merge) in
/-- Making a document with a limit is one of the ways of making a document. -/
theorem documenting_document (depth : Nat) (before : Traversal) :
    Documenting resolver (fun parentRef => document resolver depth parentRef none) ref merge
      before
      (outcome (document resolver (depth + 1) ref merge) before).1
      (outcome (document resolver (depth + 1) ref merge) before).2 := by
  rw [document_succ]
  exact documenting_documentFrom ..

/-- Each way of making a document determines the outcome. -/
theorem Documenting.outcome_eq
    {before after : Traversal}
    {result : Except Failure Document}
    (documenting : Documenting resolver documentOf ref merge before result after) :
    outcome (documentFrom resolver documentOf ref merge) before = (result, after) := by
  unfold documentFrom
  cases documenting with
  | underived fails => exact outcome_bind_of_error fails
  | alone derives unmerged =>
      rw [outcome_bind_of_ok derives]
      refine (outcome_bind_of_ok rfl).trans ?_
      rw [unmerged]
      rfl
  | unparented derives merging fails =>
      rw [outcome_bind_of_ok derives]
      refine (outcome_bind_of_ok rfl).trans ?_
      rw [if_pos merging]
      exact outcome_bind_of_error fails
  | @inherited own middle ready after parents result derives merging lists inheriting =>
      rw [outcome_bind_of_ok derives]
      refine (outcome_bind_of_ok rfl).trans ?_
      rw [if_pos merging, outcome_bind_of_ok lists]
      cases result with
      | error failure => exact outcome_bind_of_error inheriting.outcome_eq
      | ok sections => exact outcome_bind_of_ok inheriting.outcome_eq

end Documenting

end Traversal
end ContractDoc
