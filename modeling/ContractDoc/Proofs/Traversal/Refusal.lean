import ContractDoc.Proofs.Traversal.Lineage
import ContractDoc.Proofs.Traversal.Result

/-!
# Parents that are refused

The lineage of a model is fixed when the model is built and is used by every chain of
parents that shares the model later.  It is an invariant of all models, whatever is asked
and however the resolver answers, that no file occurs twice in a lineage and that each file
is linked to the next one.  A parent that is refused for its lineage therefore ends a chain
of imports that have been resolved.
-/

namespace ContractDoc

/-- No canonical path that a resolver answers is empty. -/
def ImportResolver.NonemptyPaths (resolver : ImportResolver) : Prop :=
  ∀ {importPath importer resolved},
    (resolver importPath importer).result = .ok resolved → resolved.path ≠ ""

/-- Whatever a model is asked about its own contract fails for its source only. -/
theorem Getter.failsBySource (getter : Getter) (subject : Subject) :
    FailsBySource (getter.plain subject) := by
  cases getter with
  | tree => exact subject.failsBySource_plainTree
  | contract => exact subject.failsBySource_plainContract
  | name => exact subject.failsBySource_plainName
  | pragma => exact subject.failsBySource_plainPragma
  | imports => exact subject.failsBySource_plainImports
  | parents => exact subject.failsBySource_plainParents
  | constructor => exact subject.failsBySource_plainContract.bind fun _ => .ok _
  | contractTags => exact subject.failsBySource_plainContract.bind fun _ => .comment _
  | contractInfo => exact subject.failsBySource_plainContractInfo
  | sourceInfo =>
      exact subject.failsBySource_plainPragma.bind fun _ =>
        subject.failsBySource_plainImports.bind fun _ => .ok _
  | events => exact subject.failsBySource_plainBlocks .event
  | functions => exact subject.failsBySource_plainBlocks .function
  | constantFunctions => exact subject.failsBySource_plainBlocks .constantFunction

namespace Traversal

/-- A call that fails has an origin of its failure. -/
theorem Call.origin
    {resolver : ImportResolver}
    {before after : Traversal}
    {call : Call}
    {failure : Failure}
    (sound : before.Sound)
    (present : before.Has call.ref)
    (fails : outcome (call.step resolver) before = (.error failure, after)) :
    Origin resolver before after failure := by
  cases call with
  | own ref getter =>
      have plain := sound.derive_result present getter.yields fails
      exact .source (getter.failsBySource _ _ plain.symm)
  | document depth ref merge => exact sound.origin_of_document present fails
  | parent ref importPath name =>
      exact .question ⟨before, ref, importPath, name⟩ .start present fails

/-! ## Files that follow one another -/

/-- A model of the file `child` is linked to a parent in the file `parent`. -/
def LinksFiles (state : Traversal) (child parent : String) : Prop :=
  ∃ ref ancestor, state.Linked ref (.ancestor ancestor) ∧
    (state.model ref).subject.filePath = some child ∧ ancestor.path = parent

/-- There is a model of the file `child`, and one of the imports of this file has been
resolved to the file `parent`. -/
def ResolvesFile (state : Traversal) (child parent : String) : Prop :=
  ∃ ref importPath resolved, state.Has ref ∧
    (state.model ref).subject.filePath = some child ∧
    Entries.get? (.ofImport importPath (some child)) state.resolved = some resolved ∧
    resolved.path = parent

section Files

variable {before after : Traversal} {child parent : String}

theorem LinksFiles.of_grows
    (links : before.LinksFiles child parent)
    (grows : Grows before after) :
    after.LinksFiles child parent := by
  obtain ⟨ref, ancestor, linked, filePath_eq, path_eq⟩ := links
  refine ⟨ref, ancestor, linked.of_grows grows, ?_, path_eq⟩
  rw [grows.subject_eq linked.1, filePath_eq]

/-- The import by which a model has found a parent has been resolved. -/
theorem LinksFiles.resolvesFile
    (links : before.LinksFiles child parent)
    (sound : before.Sound) :
    before.ResolvesFile child parent := by
  obtain ⟨ref, ancestor, ⟨present, key, _, known, ⟨⟩⟩, filePath_eq, rfl⟩ := links
  obtain ⟨resolved, path_eq, recorded⟩ := (sound.leads ref present key ancestor known).recorded
  rw [filePath_eq] at recorded
  exact ⟨ref, key.importPath, resolved, present, filePath_eq, recorded, path_eq⟩

end Files

/-! ## Lineages of linked files -/

/-- The lineage of a model: no file occurs twice in it, each one is linked to the next one,
and the own file, if it has a path, is the last one. -/
structure Lineal (state : Traversal) (model : Model) : Prop where
  nodup : model.lineage.Nodup
  isChain : model.lineage.IsChain state.LinksFiles
  last : model.lineage.getLast? = nonempty? model.subject.filePath

namespace Lineal

variable {before after : Traversal} {model : Model}

/-- Models that keep their contract and their lineage stay lineal while a traversal grows. -/
theorem of_grows
    {grown : Model}
    (lineal : before.Lineal model)
    (grows : Grows before after)
    (modelGrows : model.Grows grown) :
    after.Lineal grown := by
  refine ⟨?_, ?_, ?_⟩
  · rw [modelGrows.lineage_eq]
    exact lineal.nodup
  · rw [modelGrows.lineage_eq]
    exact lineal.isChain.imp fun _ _ links => links.of_grows grows
  · rw [modelGrows.lineage_eq, modelGrows.subject_eq]
    exact lineal.last

/-- The file of a parent follows the lineage of its child. -/
theorem isChain_concat
    {follows : String → String → Prop}
    {path : String}
    (lineal : before.Lineal model)
    (isChain : model.lineage.IsChain follows)
    (added : ∀ child, model.subject.filePath = some child → follows child path) :
    (model.lineage ++ [path]).IsChain follows := by
  refine isChain.append (List.isChain_singleton path) ?_
  rintro child isLast _ ⟨⟩
  rw [lineal.last] at isLast
  exact added child (Option.filter_eq_some_iff.mp isLast).1

/-- A model without a child is lineal. -/
theorem fresh (subject : Subject) (mergesParents : Option Bool) :
    before.Lineal (.fresh subject mergesParents []) := by
  have lineage_eq : (Model.fresh subject mergesParents []).lineage =
      (nonempty? subject.filePath).toList := by
    rw [← Subject.files_singleton]
    exact Model.extendLineage_of_notMem fun _ _ => List.not_mem_nil
  refine ⟨?_, ?_, ?_⟩
  · rw [lineage_eq]
    cases nonempty? subject.filePath <;> simp
  · rw [lineage_eq]
    cases nonempty? subject.filePath <;> simp
  · rw [lineage_eq]
    change _ = nonempty? subject.filePath
    cases nonempty? subject.filePath <;> rfl

/-- The model of a parent that is linked to a lineal child, and not refused, is lineal. -/
theorem ofParent
    {name : String}
    {resolved : ResolvedImport}
    (lineal : after.Lineal model)
    (notInLineage : resolved.path ∉ model.lineage)
    (path_ne : resolved.path ≠ "")
    (linked : ∀ child, model.subject.filePath = some child →
      after.LinksFiles child resolved.path) :
    after.Lineal (model.ofParent name resolved) := by
  have lineage_eq : (model.ofParent name resolved).lineage = model.lineage ++ [resolved.path] := by
    change Model.extendLineage model.lineage (some resolved.path) = _
    rw [Model.extendLineage_some path_ne, if_neg notInLineage]
  refine ⟨?_, ?_, ?_⟩
  · rw [lineage_eq]
    simpa using lineal.nodup.concat notInLineage
  · rw [lineage_eq]
    exact lineal.isChain_concat lineal.isChain linked
  · rw [lineage_eq, List.getLast?_concat]
    exact (Option.filter_eq_some_iff.mpr ⟨rfl, by simpa using path_ne⟩).symm

end Lineal

/-- All models are lineal, and no import has been resolved to an empty path. -/
structure AllLineal (state : Traversal) : Prop where
  lineal : ∀ ref, state.Has ref → state.Lineal (state.model ref)
  path_ne : ∀ key resolved, Entries.get? key state.resolved = some resolved → resolved.path ≠ ""

namespace AllLineal

variable {resolver : ImportResolver} {before after : Traversal}

/-- At the start the root is the only model. -/
theorem start (subject : Subject) (mergesParents : Option Bool) :
    (Traversal.start subject mergesParents).AllLineal := by
  refine ⟨?_, nofun⟩
  intro ref present
  cases ref with
  | ancestor key => cases present
  | root => exact .fresh subject mergesParents

/-- A derivation changes no lineage. -/
theorem derive
    {α : Type}
    {ref : ModelRef}
    (allLineal : before.AllLineal)
    (present : before.Has ref)
    (value : Subject → Derive α) :
    (outcome (Traversal.derive ref value) before).2.AllLineal := by
  have grows := grows_derive present value
  refine ⟨?_, ?_⟩
  · intro other otherPresent
    have was := ((sameModels_derive present value).has_iff other).mp otherPresent
    exact (allLineal.lineal other was).of_grows grows (grows.model_grows other was)
  · rw [resolved_derive]
    exact allLineal.path_ne

/-- Resolving an import adds no empty path to the record. -/
theorem path_ne_of_resolving
    {importPath : String}
    {importer : Option String}
    {result : Except Failure ResolvedImport}
    (allLineal : before.AllLineal)
    (nonempty : resolver.NonemptyPaths)
    (resolving : Resolving resolver importPath importer before result after) :
    ∀ key resolved, Entries.get? key after.resolved = some resolved → resolved.path ≠ "" := by
  cases resolving with
  | known found => exact allLineal.path_ne
  | failed unknown answer => exact allLineal.path_ne
  | @answered found unknown answer =>
      intro key resolved recorded
      change Entries.get? key (Entries.insert _ found before.resolved) = some resolved at recorded
      rw [Entries.get?_insert] at recorded
      split at recorded
      · obtain rfl := Option.some.inj recorded
        exact nonempty answer
      · exact allLineal.path_ne key resolved recorded

/-- A question for a parent builds lineal models only.  The only new model is the parent, to
which the model that was asked is linked. -/
theorem ask
    {question : Question}
    (allLineal : question.state.AllLineal)
    (nonempty : resolver.NonemptyPaths)
    (present : question.Present) :
    (question.after resolver).AllLineal := by
  have grows := grows_parent resolver question.importPath question.name present
  have asking := asking_parent resolver question.ref question.importPath question.name
    question.state
  have path_ne : ∀ key resolved,
      Entries.get? key (question.after resolver).resolved = some resolved → resolved.path ≠ "" := by
    obtain ⟨middle, resolves, resolved_eq, -⟩ := asking.records
    unfold Question.after
    rw [resolved_eq]
    rcases resolves with rfl | ⟨resolution, resolving⟩
    · exact allLineal.path_ne
    · exact allLineal.path_ne_of_resolving nonempty resolving
  refine ⟨?_, path_ne⟩
  intro ref refPresent
  by_cases was : question.state.Has ref
  · exact (allLineal.lineal ref was).of_grows grows (grows.model_grows ref was)
  · rcases asking.kept_or_attached present with ⟨same, -⟩ | ⟨resolved, -, attached⟩
    · exact absurd ((same.has_iff ref).mp refPresent) was
    · obtain rfl := ((attached.has_iff ref).mp refPresent).resolve_left was
      have childLineal := (allLineal.lineal question.ref present).of_grows grows
        ⟨rfl, rfl, rfl, List.prefix_rfl⟩
      have linked := (attached.linked_iff present question.ref _).mpr (.inr ⟨rfl, rfl⟩)
      unfold Question.after
      rw [attached.model_new was]
      refine childLineal.ofParent attached.notInLineage (path_ne _ _ attached.recorded) ?_
      intro child filePath_eq
      refine ⟨question.ref, _, linked, ?_, rfl⟩
      rw [grows.subject_eq present, filePath_eq]

/-- All models stay lineal along a passage. -/
theorem passage
    {questions : List Question}
    (allLineal : before.AllLineal)
    (nonempty : resolver.NonemptyPaths)
    (passage : Passage resolver before questions after) :
    after.AllLineal := by
  induction passage with
  | start => exact allLineal
  | derive _ present _ ih => exact ih.derive present _
  | ask question _ present ih => exact ih.ask nonempty present

end AllLineal

/-- A history may be cut in two. -/
theorem history_append
    {start : Traversal}
    {early late : List Turn} :
    History start (early ++ late) ↔
      History start early ∧ History (afterTurns start early) late := by
  induction early generalizing start with
  | nil => simp [History, afterTurns]
  | cons turn early ih =>
      rw [List.cons_append, History, History, ih, and_assoc]
      rfl

/-- All models are lineal after every history. -/
theorem History.allLineal
    {start : Traversal}
    {turns : List Turn}
    (history : History start turns)
    (sound : start.Sound)
    (allLineal : start.AllLineal)
    (nonempty : ∀ turn ∈ turns, turn.resolver.NonemptyPaths) :
    (afterTurns start turns).AllLineal := by
  refine (history.invariant (fun state => state.Sound ∧ state.AllLineal) ⟨sound, allLineal⟩ ?_).2
  intro turn state member present holds
  obtain ⟨questions, passage, -⟩ := turn.call.passage turn.resolver holds.1 present
  exact ⟨passage.sound holds.1, holds.2.passage (nonempty turn member) passage⟩

/-! ## What a refusal reports -/

/-- A lineage that ends a chain.  No file occurs twice before the last place and each one
is linked to the next; the last file has occurred before, and an import was resolved to it. -/
def EndsChain (state : Traversal) (lineage : List String) : Prop :=
  ∃ front path, lineage = front ++ [path] ∧ front.Nodup ∧ path ∈ front ∧
    front.IsChain state.LinksFiles ∧ lineage.IsChain state.ResolvesFile

/-- The resolver itself has failed when it was asked last. -/
def ResolverFailed (state : Traversal) (resolver : ImportResolver) (failure : Failure) : Prop :=
  ∃ importPath importer, state.calls.getLast? = some (importPath, importer) ∧
    (resolver importPath importer).result = .error failure

/-- A question that is refused for a lineage ends a chain, unless the resolver has failed. -/
theorem Question.endsChain
    {resolver : ImportResolver}
    {question : Question}
    {lineage : List String}
    {after : Traversal}
    (allLineal : question.state.AllLineal)
    (sound : question.state.Sound)
    (present : question.Present)
    (refuses : outcome (parent resolver question.ref question.importPath question.name)
      question.state = (.error (.circularInheritance lineage), after)) :
    after.ResolverFailed resolver (.circularInheritance lineage) ∨ after.EndsChain lineage := by
  have grows := grows_parent resolver question.importPath question.name present
  have afterSound := sound.parent present resolver question.importPath question.name
  have asking := asking_parent resolver question.ref question.importPath question.name
    question.state
  rw [refuses] at grows afterSound asking
  generalize result_eq : Except.error (Failure.circularInheritance lineage) = result at asking
  cases asking with
  | linked known => cases result_eq
  | shared unknown resolving notInLineage shared => cases result_eq
  | built unknown resolving notInLineage absent derives => cases result_eq
  | unnamed unknown resolving notInLineage absent fails =>
      obtain rfl := Except.error.inj result_eq
      have named := (resolving.sound sound).derive_result
        ((resolving.sameModels.has_iff question.ref).mpr present) Subject.yields_name fails
      cases Subject.failsBySource_plainName _ _ named.symm
  | unresolved unknown resolving =>
      obtain rfl := Except.error.inj result_eq
      cases resolving with
      | failed _ answer => exact .inl ⟨_, _, List.getLast?_concat, answer⟩
  | @circular resolved _ unknown resolving inLineage =>
      obtain rfl := Failure.circularInheritance.inj (Except.error.inj result_eq)
      have lineal := (allLineal.lineal question.ref present).of_grows grows
        ⟨rfl, rfl, rfl, List.prefix_rfl⟩
      refine .inr ⟨_, resolved.path, rfl, lineal.nodup, inLineage, lineal.isChain, ?_⟩
      refine lineal.isChain_concat
        (lineal.isChain.imp fun _ _ links => links.resolvesFile afterSound) ?_
      intro child filePath_eq
      have recorded := resolving.get?_resolved
      rw [filePath_eq] at recorded
      refine ⟨question.ref, question.importPath, resolved, grows.has present, ?_, recorded, rfl⟩
      rw [grows.subject_eq present, filePath_eq]

/-- **Reported circles are real chains.**  Whatever is called on a root and its ancestors, and
however the answers change from one call to the next, a call that fails for a circle reports
the files of a chain: none of them occurs twice before the last, which has occurred before,
and for each of them there is a model with an import that was resolved to the next one.  The
only exception is a resolver that answers with such a failure itself. -/
theorem reported_circle_after_history
    (subject : Subject)
    (mergesParents : Option Bool)
    (turns : List Turn)
    (turn : Turn)
    (history : History (start subject mergesParents) (turns ++ [turn]))
    (nonempty : ∀ other ∈ turns ++ [turn], other.resolver.NonemptyPaths)
    (lineage : List String)
    (fails : (outcome (turn.call.step turn.resolver)
      (afterTurns (start subject mergesParents) turns)).1 =
        .error (.circularInheritance lineage)) :
    let state := afterTurns (start subject mergesParents) (turns ++ [turn])
    state.ResolverFailed turn.resolver (.circularInheritance lineage) ∨
      state.EndsChain lineage := by
  intro state
  have startSound : (start subject mergesParents).Sound := .start subject mergesParents
  obtain ⟨earlier, present, -⟩ := history_append.mp history
  obtain ⟨nonemptyEarlier, nonemptyLast⟩ := List.forall_mem_append.mp nonempty
  have sound := (earlier.sound_and_grows startSound).1
  have allLineal := earlier.allLineal startSound (.start subject mergesParents) nonemptyEarlier
  have state_eq : state = turn.after (afterTurns (start subject mergesParents) turns) :=
    List.foldl_append
  have origin := turn.call.origin sound present (Prod.ext fails state_eq.symm)
  cases origin with
  | source ofSource => cases ofSource
  | question question passage asked refuses =>
      exact question.endsChain
        (allLineal.passage (nonemptyLast turn List.mem_cons_self) passage)
        (passage.sound sound) asked refuses

/-- The sources of two contracts each of which names the other one as its parent. -/
def facingSources : Entries String Import.StoredSource := [
  ("a", ⟨"pragma solidity 1;import 'b' as B;contract A is B {}", some "/a"⟩),
  ("b", ⟨"pragma solidity 1;import 'a' as A;contract B is A {}", some "/b"⟩)]

/-- A contract without a path that inherits from one of them. -/
def facingBottom : Subject :=
  ⟨"pragma solidity 1;import 'a' as A;contract R is A {}", none, none, false⟩

/-- After the parent has been asked for, making the document reports the chain from the one
file through the other one and back. -/
theorem facing_parents_reported :
    let asks : Turn := ⟨Import.flat facingSources, .parent .root "a" "A"⟩
    let documents : Turn := ⟨Import.flat facingSources, .document 3 .root (some true)⟩
    (afterTurns (start facingBottom none) ([asks] ++ [documents])).EndsChain
      ["/a", "/b", "/a"] := by
  intro asks documents
  have facts :
      (∀ entry ∈ facingSources, (Import.flatAnswer entry).path ≠ "") ∧
      History (start facingBottom none) ([asks] ++ [documents]) ∧
      (outcome (documents.call.step documents.resolver)
        (afterTurns (start facingBottom none) [asks])).1 =
          .error (.circularInheritance ["/a", "/b", "/a"]) := by
    decide +kernel
  obtain ⟨nonempty, history, fails⟩ := facts
  have answers : ∀ turn ∈ [asks] ++ [documents], turn.resolver.NonemptyPaths := by
    have paths : (Import.flat facingSources).NonemptyPaths := (Import.within_flat nonempty).path_ne
    rintro turn (_ | ⟨_, _ | ⟨_, ⟨⟩⟩⟩)
    · exact paths
    · exact paths
  rcases reported_circle_after_history facingBottom none [asks] documents history answers _ fails
    with ⟨importPath, importer, -, answer⟩ | endsChain
  · change (Import.flat facingSources importPath importer).result = _ at answer
    unfold Import.flat Import.lookUp at answer
    split at answer <;> cases answer
  · exact endsChain

end Traversal
end ContractDoc
