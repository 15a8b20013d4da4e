import ContractDoc.Import.Memory
import ContractDoc.Proofs.Traversal.Call

/-!
# Sharing in a traversal

The models of a traversal share one registry of ancestors and one record of
imports.  The links of all models, the registry and the record agree with each other
after every history; nothing in them is ever changed or removed; and the resolver is
asked again for an import only as long as it has not answered.
-/

namespace ContractDoc
namespace Traversal

/-- The directory in which the imports of a file are looked up, if the file has a path. -/
def importDirectory? : Option String → Option String
  | none => none
  | some file => if file = "" then none else some (directoryOf file)

theorem ofImport_eq (importPath : String) (importer : Option String) :
    ImportKey.ofImport importPath importer = ⟨importPath, importDirectory? importer⟩ := by
  cases importer with
  | none => rfl
  | some file =>
      by_cases empty : file = ""
      · simp [ImportKey.ofImport, nonempty?, importDirectory?, empty]
      · simp [ImportKey.ofImport, nonempty?, importDirectory?, empty]

/-- What the resolver has been asked for, and what it has answered. -/
structure Inquiry where
  importPath : String
  importer : Option String
  answer : Except Failure ResolvedImport

namespace Inquiry

/-- The path of the import and the directory of the importing file. -/
def key (inquiry : Inquiry) : ImportKey :=
  ⟨inquiry.importPath, importDirectory? inquiry.importer⟩

/-- The answer for an import, if the inquiry is about it and has been answered. -/
def answerFor? (inquiry : Inquiry) (key : ImportKey) : Option ResolvedImport :=
  if inquiry.key = key then inquiry.answer.toOption else none

/-- The inquiry that a call of the resolver is. -/
def ofCall (resolver : ImportResolver) (call : String × Option String) : Inquiry :=
  ⟨call.1, call.2, (resolver call.1 call.2).result⟩

end Inquiry

/-- The inquiries between two states. -/
def inquiriesBetween
    (resolver : ImportResolver)
    (before after : Traversal) : List Inquiry :=
  (after.calls.drop before.calls.length).map (.ofCall resolver)

/-- All inquiries of a history. -/
def inquiries (start : Traversal) : List Turn → List Inquiry
  | [] => []
  | turn :: turns =>
      inquiriesBetween turn.resolver start (turn.after start) ++
        inquiries (turn.after start) turns

/-- A log of inquiries explains the record of imports.  What is on record is the only
answer that has been given for the key, and nothing is asked for again once it has
been answered. -/
structure Explains (log : List Inquiry) (state : Traversal) : Prop where
  answers : ∀ key, log.filterMap (·.answerFor? key) =
    (Entries.get? key state.resolved).toList
  retries : log.Pairwise fun earlier later =>
    earlier.key = later.key → ∃ failure, earlier.answer = .error failure
  calls_eq : state.calls = log.map fun inquiry => (inquiry.importPath, inquiry.importer)

namespace Explains

variable
  {log : List Inquiry}
  {before middle after : Traversal}
  {resolver : ImportResolver}

/-- An import that is not on record has not been answered yet. -/
theorem failed_of_unknown
    (explains : Explains log before)
    {key : ImportKey}
    (unknown : Entries.get? key before.resolved = none)
    {inquiry : Inquiry}
    (member : inquiry ∈ log)
    (key_eq : inquiry.key = key) :
    ∃ failure, inquiry.answer = .error failure := by
  have noAnswers := explains.answers key
  rw [unknown, Option.toList_none, List.filterMap_eq_nil_iff] at noAnswers
  have noAnswer := noAnswers inquiry member
  rw [Inquiry.answerFor?, if_pos key_eq] at noAnswer
  cases answer : inquiry.answer with
  | error failure => exact ⟨failure, rfl⟩
  | ok resolved =>
      rw [answer] at noAnswer
      cases noAnswer

/-- A new inquiry is for an import that has not been answered yet. -/
theorem retries_append
    (explains : Explains log before)
    {inquiry : Inquiry}
    (unknown : Entries.get? inquiry.key before.resolved = none) :
    (log ++ [inquiry]).Pairwise fun earlier later =>
      earlier.key = later.key → ∃ failure, earlier.answer = .error failure := by
  rw [List.pairwise_append]
  refine ⟨explains.retries, List.pairwise_singleton .., ?_⟩
  intro earlier member later laterMember same
  rw [List.mem_singleton.mp laterMember] at same
  exact explains.failed_of_unknown unknown member same

/-- The log stays as it is while neither calls nor imports are recorded. -/
theorem of_eq
    (explains : Explains log before)
    (resolved_eq : after.resolved = before.resolved)
    (calls_eq : after.calls = before.calls) :
    Explains log after :=
  ⟨by rw [resolved_eq]; exact explains.answers, explains.retries,
    by rw [calls_eq]; exact explains.calls_eq⟩

/-- Resolving an import adds at most one inquiry. -/
theorem resolving
    {importPath : String}
    {importer : Option String}
    {result : Except Failure ResolvedImport}
    (explains : Explains log before)
    (resolving : Resolving resolver importPath importer before result after) :
    Explains (log ++ inquiriesBetween resolver before after) after := by
  cases resolving with
  | known found =>
      rw [inquiriesBetween, List.drop_length, List.map_nil, List.append_nil]
      exact explains
  | @answered resolved unknown answer =>
      rw [ofImport_eq] at unknown ⊢
      let inquiry : Inquiry := ⟨importPath, importer, (resolver importPath importer).result⟩
      have added : inquiriesBetween resolver before ((before.afterCall resolver importPath
          importer).record ⟨importPath, importDirectory? importer⟩ resolved) = [inquiry] := by
        simp [inquiriesBetween, afterCall, record, inquiry, Inquiry.ofCall]
      rw [added]
      refine ⟨?_, explains.retries_append unknown, ?_⟩
      · intro key
        rw [List.filterMap_append, explains.answers key]
        change _ = (Entries.get? key (Entries.insert _ resolved before.resolved)).toList
        rw [Entries.get?_insert]
        by_cases same : key = ⟨importPath, importDirectory? importer⟩
        · subst same
          rw [if_pos rfl, unknown]
          simp [Inquiry.answerFor?, Inquiry.key, inquiry, answer, Except.toOption]
        · have different : inquiry.key ≠ key := fun equal => same equal.symm
          rw [if_neg same]
          simp [Inquiry.answerFor?, different]
      · change before.calls ++ [(importPath, importer)] = _
        rw [explains.calls_eq, List.map_append]
        rfl
  | @failed failure unknown answer =>
      rw [ofImport_eq] at unknown
      let inquiry : Inquiry := ⟨importPath, importer, (resolver importPath importer).result⟩
      have added : inquiriesBetween resolver before
          (before.afterCall resolver importPath importer) = [inquiry] := by
        simp [inquiriesBetween, afterCall, inquiry, Inquiry.ofCall]
      rw [added]
      refine ⟨?_, explains.retries_append unknown, ?_⟩
      · intro key
        rw [List.filterMap_append, explains.answers key]
        change _ = (Entries.get? key before.resolved).toList
        simp [Inquiry.answerFor?, inquiry, answer, Except.toOption]
      · change before.calls ++ [(importPath, importer)] = _
        rw [explains.calls_eq, List.map_append]
        rfl

end Explains

/-- The inquiries of two parts of a traversal follow each other. -/
theorem inquiriesBetween_append
    (resolver : ImportResolver)
    {before middle after : Traversal}
    (first : before.calls <+: middle.calls)
    (second : middle.calls <+: after.calls) :
    inquiriesBetween resolver before after =
      inquiriesBetween resolver before middle ++ inquiriesBetween resolver middle after := by
  obtain ⟨early, middle_eq⟩ := first
  obtain ⟨late, after_eq⟩ := second
  simp [inquiriesBetween, ← after_eq, ← middle_eq]

theorem inquiriesBetween_of_calls_eq
    (resolver : ImportResolver)
    {before after : Traversal}
    (calls_eq : after.calls = before.calls) :
    inquiriesBetween resolver before after = [] := by
  simp [inquiriesBetween, calls_eq]

/-- A question for a parent adds at most one inquiry. -/
theorem Explains.asking
    {log : List Inquiry}
    {resolver : ImportResolver}
    {ref : ModelRef}
    {importPath name : String}
    {before after : Traversal}
    {result : Except Failure ModelRef}
    (explains : Explains log before)
    (asking : Asking resolver ref importPath name before result after) :
    Explains (log ++ inquiriesBetween resolver before after) after := by
  obtain ⟨middle, resolves, resolved_eq, calls_eq⟩ := asking.records
  have added : inquiriesBetween resolver before after =
      inquiriesBetween resolver before middle := by
    unfold inquiriesBetween
    rw [calls_eq]
  rw [added]
  refine Explains.of_eq ?_ resolved_eq calls_eq
  rcases resolves with rfl | ⟨resolution, resolving⟩
  · rw [inquiriesBetween_of_calls_eq resolver rfl, List.append_nil]
    exact explains
  · exact explains.resolving resolving

/-- The log is continued along every passage. -/
theorem Explains.passage
    {log : List Inquiry}
    {resolver : ImportResolver}
    {start state : Traversal}
    {questions : List Question}
    (explains : Explains log start)
    (passage : Passage resolver start questions state) :
    Explains (log ++ inquiriesBetween resolver start state) state := by
  induction passage with
  | start =>
      rw [inquiriesBetween_of_calls_eq resolver rfl, List.append_nil]
      exact explains
  | @derive questions state ref α value plain passage present yields ih =>
      have calls_eq := calls_derive ref value state
      have added : inquiriesBetween resolver start
          (outcome (Traversal.derive ref value) state).2 =
          inquiriesBetween resolver start state := by
        unfold inquiriesBetween
        rw [calls_eq]
      rw [added]
      exact ih.of_eq (resolved_derive ref value state) calls_eq
  | @ask questions question passage present ih =>
      have grows := grows_parent resolver question.importPath question.name present
      have continued : inquiriesBetween resolver start (question.after resolver) =
          inquiriesBetween resolver start question.state ++
            inquiriesBetween resolver question.state (question.after resolver) :=
        inquiriesBetween_append resolver passage.grows.calls_grow grows.calls_grow
      rw [continued, ← List.append_assoc]
      exact ih.asking (asking_parent resolver question.ref question.importPath
        question.name question.state)

/-- The inquiries of a history explain the record of imports. -/
theorem Explains.history
    {log : List Inquiry}
    {start : Traversal}
    {turns : List Turn}
    (explains : Explains log start)
    (sound : start.Sound)
    (history : History start turns) :
    Explains (log ++ inquiries start turns) (afterTurns start turns) := by
  induction turns generalizing log start with
  | nil =>
      rw [inquiries, List.append_nil]
      exact explains
  | cons turn turns ih =>
      obtain ⟨present, rest⟩ := history
      obtain ⟨questions, passage, _⟩ := turn.call.passage turn.resolver sound present
      rw [inquiries, ← List.append_assoc]
      exact ih (explains.passage passage) (passage.sound sound) rest

/-! ## The invariant of the registry -/

/-- A link leads to the registered model of the file that its import is resolved to in the
directory of the own file, under the name of the parent. -/
def SharesLink
    (state : Traversal)
    (ref : ModelRef)
    (key : ParentKey)
    (ancestor : AncestorKey) : Prop :=
  ∃ resolved model,
    Entries.get? ⟨key.importPath, importDirectory? (state.model ref).subject.filePath⟩
      state.resolved = some resolved ∧
    ancestor = ⟨resolved.path, key.name⟩ ∧
    Entries.get? ancestor state.ancestors = some model ∧
    model.subject.filePath = some resolved.path ∧
    model.subject.contractName = some key.name

/-- In a sound traversal every link is shared. -/
theorem Sound.sharesLink
    {state : Traversal}
    (sound : state.Sound)
    {ref : ModelRef}
    (present : state.Has ref)
    {key : ParentKey}
    {ancestor : AncestorKey}
    (linked : Entries.get? key (state.model ref).parents = some ancestor) :
    state.SharesLink ref key ancestor := by
  have leads := sound.leads ref present key ancestor linked
  obtain ⟨resolved, path_eq, recorded⟩ := leads.recorded
  rw [ofImport_eq] at recorded
  obtain ⟨model, registered⟩ := Option.isSome_iff_exists.mp leads.present
  have matching := sound.matches_key ancestor leads.present
  have model_eq : state.model (.ancestor ancestor) = model := by
    simp [Traversal.model, registered]
  rw [model_eq] at matching
  have ancestor_eq : ancestor = ⟨resolved.path, key.name⟩ := by
    rw [path_eq, ← leads.name_eq]
  refine ⟨resolved, model, recorded, ancestor_eq, registered, ?_, ?_⟩
  · rw [matching.filePath_eq, path_eq]
  · rw [matching.contractName_eq, leads.name_eq]

/-- In a sound traversal distinct keys have distinct models. -/
theorem Sound.model_injective
    {state : Traversal}
    (sound : state.Sound)
    {first second : AncestorKey}
    (firstPresent : state.Has (.ancestor first))
    (secondPresent : state.Has (.ancestor second))
    (same : state.model (.ancestor first) = state.model (.ancestor second)) :
    first = second := by
  have matchesFirst := sound.matches_key first firstPresent
  have matchesSecond := sound.matches_key second secondPresent
  rw [same] at matchesFirst
  have path_eq := matchesFirst.filePath_eq.symm.trans matchesSecond.filePath_eq
  have name_eq := matchesFirst.contractName_eq.symm.trans matchesSecond.contractName_eq
  cases first
  cases second
  rw [AncestorKey.mk.injEq]
  exact ⟨Option.some.inj path_eq, Option.some.inj name_eq⟩

/-- What is derived for one model changes no other model. -/
theorem model_derive_of_ne
    {α : Type}
    {state : Traversal}
    {ref other : ModelRef}
    (present : state.Has other)
    (different : other ≠ ref)
    (value : Subject → Derive α) :
    (outcome (derive ref value) state).2.model other = state.model other := by
  rw [outcome_derive]
  have unchanged := model_setModel present ref
    { state.model ref with
      cache := (outcome (value (state.model ref).subject)
        ⟨(state.model ref).cache, []⟩).2.cache }
  rw [if_neg different] at unchanged
  rw [← unchanged]
  cases other <;> rfl

/-- After every history the links of all models, the registry and the record of
imports agree: every link leads to the registered model that the record names, and
distinct keys have distinct models, which are derived from apart.  Later calls only
add to them.  The inquiries made so far explain the record of imports, and a question
for a parent that fails changes no registered model and no link. -/
theorem registry_shared_after_history
    (subject : Subject)
    (mergesParents : Option Bool)
    (turns : List Turn)
    (history : History (start subject mergesParents) turns) :
    let state := afterTurns (start subject mergesParents) turns
    (∀ ref, state.Has ref → ∀ key ancestor,
      Entries.get? key (state.model ref).parents = some ancestor →
        state.SharesLink ref key ancestor) ∧
    ((Entries.keys state.ancestors).Nodup ∧
      ∀ first second, state.Has (.ancestor first) → state.Has (.ancestor second) →
        state.model (.ancestor first) = state.model (.ancestor second) → first = second) ∧
    (∀ ref other getter, state.Has other → other ≠ ref →
      (outcome (derive ref (Getter.derive getter)) state).2.model other =
        state.model other) ∧
    (∀ later, History state later → Grows state (afterTurns state later)) ∧
    Explains (inquiries (start subject mergesParents) turns) state ∧
    (∀ resolver ref importPath name failure after, state.Has ref →
      outcome (parent resolver ref importPath name) state = (.error failure, after) →
        SameModels state after) := by
  intro state
  have sound := (history.sound_and_grows (.start subject mergesParents)).1
  refine ⟨?_, ⟨sound.keys_nodup, ?_⟩, ?_, ?_, ?_, ?_⟩
  · intro ref present key ancestor linked
    exact sound.sharesLink present linked
  · intro first second firstPresent secondPresent same
    exact sound.model_injective firstPresent secondPresent same
  · intro ref other getter present different
    exact model_derive_of_ne present different getter.derive
  · intro later laterHistory
    exact (laterHistory.sound_and_grows sound).2
  · have explains : Explains [] (start subject mergesParents) :=
      ⟨fun _ => rfl, List.Pairwise.nil, rfl⟩
    exact explains.history (.start subject mergesParents) history
  · intro resolver ref importPath name failure after present fails
    exact sameModels_of_parent_error present fails

/-- The sources of a diamond in two directories.  `B` and `C` have the parent `A` in one file,
and each of them has a parent `Base` in its own directory. -/
def diamondSources : Entries String Import.StoredSource := [
  ("/left/b.sol", ⟨"pragma solidity 1;import './base.sol' as Base;import '/a.sol' as A;" ++
    "contract B is A, Base {}", none⟩),
  ("/right/c.sol", ⟨"pragma solidity 1;import './base.sol' as Base;import '/a.sol' as A;" ++
    "contract C is A, Base {}", none⟩),
  ("/left/base.sol", ⟨"pragma solidity 1;contract Base {event L();}", none⟩),
  ("/right/base.sol", ⟨"pragma solidity 1;contract Base {event R();}", none⟩),
  ("/a.sol", ⟨"pragma solidity 1;contract A {event E();}", none⟩)]

/-- The contract at the bottom of the diamond. -/
def diamondBottom : Subject :=
  ⟨"pragma solidity 1;import 'left/b.sol' as B;import 'right/c.sol' as C;contract D is B, C {}",
    some "/d.sol", none, false⟩

/-- A history of the diamond: a document, a question that fails, and a question. -/
def diamondTurns : List Turn :=
  [⟨Import.relative diamondSources, .document 9 .root (some true)⟩,
    ⟨Import.relative diamondSources, .parent (.ancestor ⟨"/a.sol", "A"⟩) "gone" "Gone"⟩,
    ⟨Import.relative diamondSources, .parent .root "right/c.sol" "C"⟩]

/-- Both sides of the diamond share the ancestor in one file, but not those that are named by the
same path in their own directories. -/
theorem diamond_registry_shared :
    let state := afterTurns (start diamondBottom none) diamondTurns
    (state.SharesLink (.ancestor ⟨"/left/b.sol", "B"⟩) ⟨"/a.sol", "A"⟩ ⟨"/a.sol", "A"⟩ ∧
      state.SharesLink (.ancestor ⟨"/right/c.sol", "C"⟩) ⟨"/a.sol", "A"⟩ ⟨"/a.sol", "A"⟩) ∧
    (state.SharesLink (.ancestor ⟨"/left/b.sol", "B"⟩) ⟨"./base.sol", "Base"⟩
        ⟨"/left/base.sol", "Base"⟩ ∧
      state.SharesLink (.ancestor ⟨"/right/c.sol", "C"⟩) ⟨"./base.sol", "Base"⟩
        ⟨"/right/base.sol", "Base"⟩) := by
  have ran : History (start diamondBottom none) diamondTurns ∧
      ∀ link ∈ [
        ((⟨"/left/b.sol", "B"⟩, ⟨"/a.sol", "A"⟩, ⟨"/a.sol", "A"⟩) :
          AncestorKey × ParentKey × AncestorKey),
        (⟨"/right/c.sol", "C"⟩, ⟨"/a.sol", "A"⟩, ⟨"/a.sol", "A"⟩),
        (⟨"/left/b.sol", "B"⟩, ⟨"./base.sol", "Base"⟩, ⟨"/left/base.sol", "Base"⟩),
        (⟨"/right/c.sol", "C"⟩, ⟨"./base.sol", "Base"⟩, ⟨"/right/base.sol", "Base"⟩)],
        let state := afterTurns (start diamondBottom none) diamondTurns
        state.Has (.ancestor link.1) ∧
          Entries.get? link.2.1 (state.model (.ancestor link.1)).parents = some link.2.2 := by
    decide +kernel
  have shared := (registry_shared_after_history diamondBottom none diamondTurns ran.1).1
  have shares := fun link member => shared _ (ran.2 link member).1 _ _ (ran.2 link member).2
  obtain ⟨left, shares⟩ := List.forall_mem_cons.mp shares
  obtain ⟨right, shares⟩ := List.forall_mem_cons.mp shares
  obtain ⟨leftBase, shares⟩ := List.forall_mem_cons.mp shares
  obtain ⟨rightBase, -⟩ := List.forall_mem_cons.mp shares
  exact ⟨⟨left, right⟩, leftBase, rightBase⟩

end Traversal
end ContractDoc
