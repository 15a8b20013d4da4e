import ContractDoc.Proofs.Traversal.Passage

/-!
# Calls on the models of a traversal

A model can be asked for what is said about its own contract, for a document, and
for the model of a parent.  A history is a sequence of such calls on models that are
there, whether the calls succeed or fail.  Every call comes with the resolver that
answers while it runs, so the answers may change from one call to the next; within
one call no import is asked for twice.
-/

namespace ContractDoc

/-- What a model can be asked about its own contract. -/
inductive Getter where
  | tree
  | contract
  | name
  | pragma
  | imports
  | parents
  | constructor
  | contractTags
  | contractInfo
  | sourceInfo
  | events
  | functions
  | constantFunctions
  deriving DecidableEq, Repr

namespace Getter

/-- The type of the answers. -/
abbrev Result : Getter → Type
  | tree => SourceUnit
  | contract => ContractDecl
  | name => String
  | pragma => String
  | imports => List ImportEntry
  | parents => Entries String (Option String)
  | constructor => Option Block
  | contractTags => NatSpec
  | contractInfo => ContractInfo
  | sourceInfo => SourceInfo
  | events => Entries String Block
  | functions => Entries String Block
  | constantFunctions => Entries String Block

/-- Derives the answer from the source of a contract. -/
def derive : (getter : Getter) → Subject → Derive getter.Result
  | tree => Subject.tree
  | contract => Subject.contract
  | name => Subject.name
  | pragma => Subject.pragma
  | imports => Subject.imports
  | parents => Subject.parents
  | constructor => Subject.constructor
  | contractTags => Subject.contractTags
  | contractInfo => Subject.contractInfo
  | sourceInfo => Subject.sourceInfo
  | events => Subject.events
  | functions => Subject.functions
  | constantFunctions => Subject.constantFunctions

/-- The answer, computed from the source alone. -/
def plain : (getter : Getter) → Subject → Except Failure getter.Result
  | tree => Subject.plainTree
  | contract => Subject.plainContract
  | name => Subject.plainName
  | pragma => Subject.plainPragma
  | imports => Subject.plainImports
  | parents => Subject.plainParents
  | constructor => Subject.plainConstructor
  | contractTags => Subject.plainTags
  | contractInfo => Subject.plainContractInfo
  | sourceInfo => Subject.plainSourceInfo
  | events => fun subject => subject.plainBlocks .event
  | functions => fun subject => subject.plainBlocks .function
  | constantFunctions => fun subject => subject.plainBlocks .constantFunction

/-- Every answer is the plain one on a truthful cache. -/
theorem yields (getter : Getter) (subject : Subject) :
    subject.Yields (getter.derive subject) (getter.plain subject) := by
  cases getter with
  | tree => exact subject.yields_tree
  | contract => exact subject.yields_contract
  | name => exact subject.yields_name
  | pragma => exact subject.yields_pragma
  | imports => exact subject.yields_imports
  | parents => exact subject.yields_parents
  | constructor => exact subject.yields_constructor
  | contractTags => exact subject.yields_contractTags
  | contractInfo => exact subject.yields_contractInfo
  | sourceInfo => exact subject.yields_sourceInfo
  | events => exact subject.yields_events
  | functions => exact subject.yields_functions
  | constantFunctions => exact subject.yields_constantFunctions

end Getter

namespace Traversal

/-- A call on a model.  A document is made with a limit to the levels of parents. -/
inductive Call where
  | own (ref : ModelRef) (getter : Getter)
  | document (depth : Nat) (ref : ModelRef) (merge : Option Bool)
  | parent (ref : ModelRef) (importPath name : String)
  deriving DecidableEq, Repr

namespace Call

/-- The model on which a call is made. -/
def ref : Call → ModelRef
  | own ref _ => ref
  | document _ ref _ => ref
  | parent ref _ _ => ref

/-- The type of what a call returns. -/
abbrev Answer : Call → Type
  | own _ getter => getter.Result
  | document .. => Document
  | parent .. => ModelRef

/-- What a call does. -/
def step (resolver : ImportResolver) : (call : Call) → Step call.Answer
  | own ref getter => derive ref getter.derive
  | document depth ref merge => Traversal.document resolver depth ref merge
  | parent ref importPath name => Traversal.parent resolver ref importPath name

/-- A call asks for no parents but declared ones. -/
def AsksDeclared (state : Traversal) : Call → Prop
  | own .. => True
  | document .. => True
  | parent ref importPath name => (state.model ref).subject.Declares name importPath

instance (state : Traversal) : DecidablePred (AsksDeclared state)
  | own .. => inferInstanceAs (Decidable True)
  | document .. => inferInstanceAs (Decidable True)
  | parent .. => inferInstanceAs (Decidable (Subject.Declares ..))

/-- Every call is a passage.  Its questions are for declared parents if the call
itself does not ask for another one. -/
theorem passage
    (call : Call)
    (resolver : ImportResolver)
    {before : Traversal}
    (sound : before.Sound)
    (present : before.Has call.ref) :
    ∃ questions,
      Passage resolver before questions (outcome (call.step resolver) before).2 ∧
        (call.AsksDeclared before → ∀ question ∈ questions, question.Declared) := by
  cases call with
  | own ref getter =>
      exact ⟨[], .of_derive present getter.yields rfl, fun _ => List.forall_mem_nil _⟩
  | document depth ref merge =>
      obtain ⟨questions, passage, declared⟩ :=
        sound.passage_document resolver depth merge present
      exact ⟨questions, passage, fun _ => declared⟩
  | parent ref importPath name =>
      refine ⟨_, .of_parent present rfl, ?_⟩
      intro declared question member
      rw [List.mem_singleton.mp member]
      exact declared

end Call

/-- A call together with the resolver that answers while it runs. -/
structure Turn where
  resolver : ImportResolver
  call : Call

/-- The state that a call leaves. -/
def Turn.after (turn : Turn) (before : Traversal) : Traversal :=
  (outcome (turn.call.step turn.resolver) before).2

/-- The state after a sequence of calls. -/
def afterTurns (start : Traversal) (turns : List Turn) : Traversal :=
  turns.foldl (fun state turn => turn.after state) start

/-- A history is a sequence of calls each of which is made on a model that is there
at its time. -/
def History (start : Traversal) : List Turn → Prop
  | [] => True
  | turn :: turns => start.Has turn.call.ref ∧ History (turn.after start) turns

/-- The calls of a sequence ask for no parents but those declared at their time. -/
def AsksDeclared (start : Traversal) : List Turn → Prop
  | [] => True
  | turn :: turns => turn.call.AsksDeclared start ∧ AsksDeclared (turn.after start) turns

instance AsksDeclared.decidable (start : Traversal) :
    (turns : List Turn) → Decidable (AsksDeclared start turns)
  | [] => inferInstanceAs (Decidable True)
  | turn :: turns =>
      have := decidable (turn.after start) turns
      inferInstanceAs (Decidable (turn.call.AsksDeclared start ∧ AsksDeclared _ turns))

namespace History

variable {start : Traversal} {turns : List Turn}

/-- What every call keeps holds after every history. -/
theorem invariant
    (history : History start turns)
    (holds : Traversal → Prop)
    (first : holds start)
    (keeps : ∀ turn state, turn ∈ turns → state.Has turn.call.ref → holds state →
      holds (turn.after state)) :
    holds (afterTurns start turns) := by
  induction turns generalizing start with
  | nil => exact first
  | cons turn turns ih =>
      obtain ⟨present, rest⟩ := history
      refine ih rest (keeps turn start List.mem_cons_self present first) ?_
      intro other state member
      exact keeps other state (List.mem_cons_of_mem _ member)

instance decidable (start : Traversal) :
    (turns : List Turn) → Decidable (History start turns)
  | [] => inferInstanceAs (Decidable True)
  | turn :: turns =>
      have := decidable (turn.after start) turns
      inferInstanceAs (Decidable (start.Has turn.call.ref ∧ History _ turns))

/-- A traversal stays sound and grows through every history. -/
theorem sound_and_grows
    (history : History start turns)
    (sound : start.Sound) :
    (afterTurns start turns).Sound ∧ Grows start (afterTurns start turns) := by
  refine history.invariant (fun state => state.Sound ∧ Grows start state)
    ⟨sound, .refl start⟩ ?_
  intro turn state _ present holds
  obtain ⟨questions, passage, _⟩ := turn.call.passage turn.resolver holds.1 present
  exact ⟨passage.sound holds.1, holds.2.trans passage.grows⟩

/-- A history with one resolver is a passage. -/
theorem passage
    {resolver : ImportResolver}
    {calls : List Call}
    (history : History start (calls.map (Turn.mk resolver)))
    (sound : start.Sound) :
    ∃ questions,
      Passage resolver start questions (afterTurns start (calls.map (Turn.mk resolver))) ∧
        (AsksDeclared start (calls.map (Turn.mk resolver)) →
          ∀ question ∈ questions, question.Declared) := by
  induction calls generalizing start with
  | nil => exact ⟨[], .start, fun _ => List.forall_mem_nil _⟩
  | cons call calls ih =>
      obtain ⟨present, rest⟩ := history
      obtain ⟨questions, passage, declared⟩ := call.passage resolver sound present
      obtain ⟨later, laterPassage, laterDeclared⟩ := ih rest (passage.sound sound)
      refine ⟨questions ++ later, passage.trans laterPassage, ?_⟩
      rintro ⟨callDeclared, restDeclared⟩ question member
      rcases List.mem_append.mp member with early | late
      · exact declared callDeclared question early
      · exact laterDeclared restDeclared question late

end History

end Traversal
end ContractDoc
