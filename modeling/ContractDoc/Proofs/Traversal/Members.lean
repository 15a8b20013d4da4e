import ContractDoc.Import.Memory
import ContractDoc.Proofs.Sections
import ContractDoc.Proofs.Traversal.Call

/-!
# The members of a contract

Every member of a contract is selected for one kind or left out.  The constructor is the first
member of its kind.  In each section there is one block for every name, in the order in which
the names are declared first, and it is the block of the last member of its name.
-/

namespace ContractDoc

namespace Member

/-- The members that are left out of the documentation of a contract: internal and private
functions that are no constructors, and variables that are not public. -/
inductive IsLeftOut (contract : String) : Member → Prop
  | function {decl : FunctionDecl} {modifier : Modifier}
      (notConstructor : decl.isConstructor = false)
      (otherName : decl.name ≠ contract)
      (modifies : modifier ∈ decl.modifiers)
      (hides : modifier.name = "internal" ∨ modifier.name = "private") :
      IsLeftOut contract (.function decl)
  | stateVariable {decl : VariableDecl}
      (notPublic : decl.visibility ≠ "public") :
      IsLeftOut contract (.stateVariable decl)

theorem isHidden_iff {decl : FunctionDecl} :
    decl.isHidden = true ↔
      ∃ modifier ∈ decl.modifiers, modifier.name = "internal" ∨ modifier.name = "private" := by
  simp [FunctionDecl.isHidden, FunctionDecl.hasModifier]

/-- The members without a kind are those that are left out. -/
theorem kind?_eq_none_iff
    {contract : String}
    {member : Member} :
    member.kind? contract = none ↔ IsLeftOut contract member := by
  constructor
  · intro unkind
    cases member with
    | event decl => cases unkind
    | function decl =>
        simp only [kind?] at unkind
        split at unkind
        · cases unkind
        · next other =>
          rw [Bool.or_eq_true, not_or, beq_iff_eq, Bool.not_eq_true] at other
          split at unkind
          · next hidden =>
            obtain ⟨modifier, modifies, hides⟩ := isHidden_iff.mp hidden
            exact .function other.1 other.2 modifies hides
          · split at unkind <;> cases unkind
    | stateVariable decl =>
        simp only [kind?] at unkind
        split at unkind
        · cases unkind
        · next notPublic => exact .stateVariable fun isPublic => notPublic (beq_iff_eq.mpr isPublic)
  · rintro (⟨notConstructor, otherName, modifies, hides⟩ | notPublic)
    · have hidden := isHidden_iff.mpr ⟨_, modifies, hides⟩
      simp [kind?, notConstructor, otherName, hidden]
    · simp [kind?, VariableDecl.isPublic, notPublic]

instance (contract : String) : DecidablePred (IsLeftOut contract) :=
  fun _ => decidable_of_iff _ kind?_eq_none_iff

/-- A member is selected for its kind only. -/
theorem mem_select_iff
    {contract : String}
    {body : List Member}
    {kind : MemberKind}
    {member : Member} :
    member ∈ select contract body kind ↔
      member ∈ body ∧ member.kind? contract = some kind := by
  simp [select]

/-- Every member of a body is selected for one kind, or is left out. -/
theorem select_perm
    (contract : String)
    (body : List Member) :
    (MemberKind.all.flatMap (select contract body) ++
      body.filter (IsLeftOut contract ·)).Perm body := by
  have leftOut_iff (member : Member) := @kind?_eq_none_iff contract member
  induction body with
  | nil => exact .nil
  | cons member body ih =>
      rw [List.perm_iff_count] at ih ⊢
      intro other
      have before := ih other
      simp only [MemberKind.all, List.flatMap_cons, List.flatMap_nil, List.append_nil,
        List.count_append, select, List.filter_cons, ← leftOut_iff] at before ⊢
      cases known : member.kind? contract with
      | none =>
          simp [List.count_cons]
          omega
      | some kind => cases kind <;> simp [List.count_cons] <;> omega

end Member

namespace Block

variable (source kind : String) (members : List Member)

/-- Members have blocks in the order in which their names are declared first. -/
theorem keys_table :
    Entries.keys (table source kind members) = (members.map Member.name).eraseDups := by
  rw [table, Entries.keys_ofList, List.map_map]
  rfl

/-- The last member of a name has the block of this name. -/
theorem get?_table (name : String) :
    Entries.get? name (table source kind members) =
      ((members.filter (·.name = name)).getLast?).map (ofMember source kind) := by
  rw [table, Entries.get?_ofList, List.filter_map, List.getLast?_map, Option.map_map]
  rfl

end Block

/-- Derives the blocks of the members in a section. -/
def Sections.Part.blocks : Part → Subject → Derive (Entries String Block)
  | events => Subject.events
  | functions => Subject.functions
  | constantFunctions => Subject.constantFunctions

/-- The blocks in a section are those of the members of its kind. -/
theorem Sections.Part.yields_blocks
    (part : Part)
    (subject : Subject) :
    subject.Yields (part.blocks subject) (subject.plainBlocks part.kind) := by
  cases part with
  | events => exact subject.yields_events
  | functions => exact subject.yields_functions
  | constantFunctions => exact subject.yields_constantFunctions

namespace Traversal

/-- Every model of a sound traversal answers with plain values. -/
theorem Sound.answers
    {α : Type}
    {state : Traversal}
    {ref : ModelRef}
    {value : Subject → Derive α}
    {plain : Subject → Except Failure α}
    (sound : state.Sound)
    (present : state.Has ref)
    (yields : ∀ subject : Subject, subject.Yields (value subject) (plain subject)) :
    (outcome (Traversal.derive ref value) state).1 = plain (state.model ref).subject :=
  sound.derive_result present yields rfl

/-- A contract with two constructors, two functions of one name, and a member that is left out. -/
def mixedSubject : Subject :=
  ⟨"pragma p 1; contract C \x7b function f(uint a); function C() internal; " ++
      "constructor(); uint x; uint public y; function g();\n/// last\nfunction f(); event E(); \x7d",
    none, none, false⟩

end Traversal
end ContractDoc
