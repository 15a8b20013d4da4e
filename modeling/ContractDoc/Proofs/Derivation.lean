import ContractDoc.Model.Document
import ContractDoc.Proofs.Outcome

/-!
# Derived values without a cache

Every derived value of a contract has a plain definition, which computes it from
the source each time it is asked for.  A cache is truthful if it holds plain
values only.  The derivations of a contract give the plain values on every
truthful cache, whatever it holds already, and leave a truthful cache behind,
whether they succeed or fail.
-/

namespace ContractDoc
namespace Subject

variable {α β : Type}

/-- The syntax tree of the file. -/
def plainTree (subject : Subject) : Except Failure SourceUnit :=
  (parse subject.source).mapError Failure.parse

/-- The documented contract. -/
def plainContract (subject : Subject) : Except Failure ContractDecl := do
  let tree ← subject.plainTree
  subject.choose tree.contracts

/-- The name of the documented contract. -/
def plainName (subject : Subject) : Except Failure String := do
  let contract ← subject.plainContract
  return contract.name

/-- The version constraint of the file. -/
def plainPragma (subject : Subject) : Except Failure String := do
  let tree ← subject.plainTree
  subject.constraintOf tree.pragmas

/-- The import table of the file. -/
def plainImports (subject : Subject) : Except Failure (List ImportEntry) := do
  let tree ← subject.plainTree
  return importTable tree.imports

/-- The parents of the contract with the paths of their imports. -/
def plainParents (subject : Subject) :
    Except Failure (Entries String (Option String)) := do
  let contract ← subject.plainContract
  let table ← subject.plainImports
  return resolveParents contract.parents table

/-- The tags of the contract. -/
def plainTags (subject : Subject) : Except Failure NatSpec := do
  let contract ← subject.plainContract
  (subject.tagsOf contract).mapError Failure.comment

/-- The first constructor of the contract. -/
def plainConstructor (subject : Subject) : Except Failure (Option Block) := do
  let contract ← subject.plainContract
  let members := Member.select contract.name contract.body .constructor
  return members.head?.map (Block.ofMember subject.source MemberKind.constructor.label)

/-- The blocks of the members of a kind. -/
def plainBlocks (subject : Subject) (kind : MemberKind) :
    Except Failure (Entries String Block) := do
  let contract ← subject.plainContract
  let members := Member.select contract.name contract.body kind
  return Block.table subject.source kind.label members

/-- The value of a derivation, computed from the source alone. -/
def plain (subject : Subject) :
    (derivation : Derivation) → Except Failure derivation.Result
  | .tree => subject.plainTree
  | .contract => subject.plainContract
  | .pragma => subject.plainPragma
  | .imports => subject.plainImports
  | .parents => subject.plainParents
  | .constructor => subject.plainConstructor
  | .contractTags => subject.plainTags
  | .events => subject.plainBlocks .event
  | .functions => subject.plainBlocks .function
  | .constantFunctions => subject.plainBlocks .constantFunction

/-- What is said about the contract itself. -/
def plainContractInfo (subject : Subject) : Except Failure ContractInfo := do
  let constructor ← subject.plainConstructor
  let name ← subject.plainName
  let tagged ← (constructor.mapM Block.tagged).mapError Failure.comment
  let tags ← subject.plainTags
  return ⟨name, tagged, tags⟩

/-- What is said about the file. -/
def plainSourceInfo (subject : Subject) : Except Failure SourceInfo := do
  let pragma ← subject.plainPragma
  let imports ← subject.plainImports
  return ⟨pragma, imports⟩

/-- The document of the contract without inherited members. -/
def plainDocument (subject : Subject) : Except Failure Document := do
  let contract ← subject.plainContractInfo
  let source ← subject.plainSourceInfo
  let parents ← subject.plainParents
  let events ← tagBlocks (← subject.plainBlocks .event)
  let functions ← tagBlocks (← subject.plainBlocks .function)
  let constantFunctions ← tagBlocks (← subject.plainBlocks .constantFunction)
  return ⟨contract, source, parents, ⟨events, functions, constantFunctions⟩⟩

/-- A cache is truthful if every value that it knows is the plain one. -/
def Truthful (subject : Subject) (cache : Cache Derivation.Result) : Prop :=
  ∀ derivation value, cache.value? derivation = some value →
    subject.plain derivation = .ok value

theorem truthful_empty (subject : Subject) : subject.Truthful .empty := by
  intro derivation value known
  simp at known

/-- A truthful cache may learn a plain value. -/
theorem Truthful.insert
    {subject : Subject}
    {cache : Cache Derivation.Result}
    (truthful : subject.Truthful cache)
    {derivation : Derivation}
    {value : derivation.Result}
    (computed : subject.plain derivation = .ok value) :
    subject.Truthful (cache.insert derivation value) := by
  intro other found known
  by_cases same : derivation = other
  · subst same
    rw [Cache.value?_insert_self] at known
    rw [computed, Option.some.inj known]
  · rw [Cache.value?_insert_of_ne cache same] at known
    exact truthful other found known

/-- A derivation yields a result if it gives that result on every truthful cache,
and leaves the cache truthful. -/
def Yields
    (subject : Subject)
    (computation : Derive α)
    (result : Except Failure α) : Prop :=
  ∀ progress, subject.Truthful progress.cache →
    (outcome computation progress).1 = result ∧
      subject.Truthful (outcome computation progress).2.cache

namespace Yields

variable {subject : Subject}

theorem pure (value : α) : subject.Yields (Pure.pure value) (.ok value) :=
  fun _ truthful => ⟨rfl, truthful⟩

theorem report (notices : List Notice) :
    subject.Yields (Memo.report notices) (.ok ⟨⟩) :=
  fun _ truthful => ⟨rfl, truthful⟩

theorem lift (result : Except Failure α) : subject.Yields (liftM result) result :=
  fun _ truthful => ⟨rfl, truthful⟩

/-- Derivations are composed as their results are. -/
theorem bind
    {first : Derive α}
    {second : α → Derive β}
    {firstResult : Except Failure α}
    {secondResult : α → Except Failure β}
    (yieldsFirst : subject.Yields first firstResult)
    (yieldsSecond : ∀ value, subject.Yields (second value) (secondResult value)) :
    subject.Yields (first >>= second) (firstResult >>= secondResult) := by
  intro progress truthful
  obtain ⟨result_eq, stillTruthful⟩ := yieldsFirst progress truthful
  rw [outcome_bind]
  rcases ran : outcome first progress with ⟨result, middle⟩
  rw [ran] at result_eq stillTruthful
  subst result_eq
  cases result with
  | error failure => exact ⟨rfl, stillTruthful⟩
  | ok value => exact yieldsSecond value middle stillTruthful

/-- A value is remembered only after it has been computed. -/
theorem get
    {derivation : Derivation}
    {compute : Derive derivation.Result}
    (yields : subject.Yields compute (subject.plain derivation)) :
    subject.Yields (Memo.get derivation compute) (subject.plain derivation) := by
  intro progress truthful
  unfold Memo.get
  rw [outcome_bind_of_ok (outcome_get progress)]
  cases known : progress.cache.value? derivation with
  | some value => exact ⟨(truthful derivation value known).symm, truthful⟩
  | none =>
      let reported : Progress Derivation.Result :=
        { progress with notices := progress.notices ++ [.computing derivation] }
      have reports : outcome (Memo.report [.computing derivation] :
          Memo Derivation.Result Failure Unit) progress = (.ok ⟨⟩, reported) := rfl
      rw [outcome_bind_of_ok reports]
      obtain ⟨result_eq, stillTruthful⟩ := yields reported truthful
      rcases ran : outcome compute reported with ⟨result, after⟩
      rw [ran] at result_eq stillTruthful
      cases result with
      | error failure =>
          rw [outcome_bind_of_error ran]
          exact ⟨result_eq, stillTruthful⟩
      | ok value =>
          rw [outcome_bind_of_ok ran]
          exact ⟨result_eq, stillTruthful.insert result_eq.symm⟩

end Yields

theorem yields_tree (subject : Subject) :
    subject.Yields subject.tree subject.plainTree :=
  Yields.get (Yields.bind (Yields.report _) fun _ => Yields.lift _)

theorem yields_contract (subject : Subject) :
    subject.Yields subject.contract subject.plainContract := by
  refine Yields.get (Yields.bind subject.yields_tree fun tree => ?_)
  exact Yields.bind (Yields.report _) fun _ => Yields.lift _

theorem yields_name (subject : Subject) :
    subject.Yields subject.name subject.plainName :=
  Yields.bind subject.yields_contract fun _ => Yields.pure _

theorem yields_pragma (subject : Subject) :
    subject.Yields subject.pragma subject.plainPragma :=
  Yields.get (Yields.bind subject.yields_tree fun _ => Yields.lift _)

theorem yields_imports (subject : Subject) :
    subject.Yields subject.imports subject.plainImports :=
  Yields.get (Yields.bind subject.yields_tree fun _ => Yields.pure _)

theorem yields_parents (subject : Subject) :
    subject.Yields subject.parents subject.plainParents := by
  refine Yields.get (Yields.bind subject.yields_contract fun contract => ?_)
  refine Yields.bind subject.yields_imports fun table => ?_
  exact Yields.bind (Yields.report _) fun _ => Yields.pure _

theorem yields_contractTags (subject : Subject) :
    subject.Yields subject.contractTags subject.plainTags :=
  Yields.get (Yields.bind subject.yields_contract fun _ => Yields.lift _)

theorem yields_constructor (subject : Subject) :
    subject.Yields subject.constructor subject.plainConstructor :=
  Yields.get (Yields.bind subject.yields_contract fun _ => Yields.pure _)

theorem yields_blocks (subject : Subject) (kind : MemberKind) :
    subject.Yields (subject.blocks kind) (subject.plainBlocks kind) := by
  refine Yields.bind subject.yields_contract fun contract => ?_
  exact Yields.bind (Yields.report _) fun _ => Yields.pure _

theorem yields_events (subject : Subject) :
    subject.Yields subject.events (subject.plainBlocks .event) :=
  Yields.get (subject.yields_blocks .event)

theorem yields_functions (subject : Subject) :
    subject.Yields subject.functions (subject.plainBlocks .function) :=
  Yields.get (subject.yields_blocks .function)

theorem yields_constantFunctions (subject : Subject) :
    subject.Yields subject.constantFunctions (subject.plainBlocks .constantFunction) :=
  Yields.get (subject.yields_blocks .constantFunction)

theorem yields_contractInfo (subject : Subject) :
    subject.Yields subject.contractInfo subject.plainContractInfo := by
  refine Yields.bind subject.yields_constructor fun constructor => ?_
  refine Yields.bind subject.yields_name fun name => ?_
  refine Yields.bind (Yields.lift _) fun tagged => ?_
  exact Yields.bind subject.yields_contractTags fun _ => Yields.pure _

theorem yields_sourceInfo (subject : Subject) :
    subject.Yields subject.sourceInfo subject.plainSourceInfo := by
  refine Yields.bind subject.yields_pragma fun pragma => ?_
  exact Yields.bind subject.yields_imports fun _ => Yields.pure _

/-- The document of a contract alone is the plain one. -/
theorem yields_document (subject : Subject) :
    subject.Yields subject.document subject.plainDocument := by
  refine Yields.bind subject.yields_contractInfo fun contract => ?_
  refine Yields.bind subject.yields_sourceInfo fun source => ?_
  refine Yields.bind subject.yields_parents fun parents => ?_
  refine Yields.bind subject.yields_events fun eventBlocks => ?_
  refine Yields.bind (Yields.lift _) fun events => ?_
  refine Yields.bind subject.yields_functions fun functionBlocks => ?_
  refine Yields.bind (Yields.lift _) fun functions => ?_
  refine Yields.bind subject.yields_constantFunctions fun constantBlocks => ?_
  exact Yields.bind (Yields.lift _) fun _ => Yields.pure _

end Subject

/-! ## Declared parents -/

/-- The parents that an import names, with the paths of their imports. -/
def importedParents (parents : Entries String (Option String)) : List (String × String) :=
  parents.filterMap fun (name, path) => path.map fun path => (name, path)

theorem mem_importedParents
    {parents : Entries String (Option String)}
    {name path : String} :
    (name, path) ∈ importedParents parents ↔ (name, some path) ∈ parents := by
  unfold importedParents
  rw [List.mem_filterMap]
  constructor
  · rintro ⟨⟨other, _⟩, member, found⟩
    obtain ⟨otherPath, rfl, pair_eq⟩ := Option.map_eq_some_iff.mp found
    obtain ⟨rfl, rfl⟩ := Prod.mk.inj pair_eq
    exact member
  · intro member
    exact ⟨(name, some path), member, rfl⟩

namespace Subject

/-- The contract that a parent stands for, once its import has been resolved. -/
def ofParent (name : String) (resolved : ResolvedImport) : Subject :=
  ⟨resolved.source, some resolved.path, some name, true⟩

/-- The parents that a contract declares and that an import names.  There are none if
the parents cannot be listed. -/
def declaredParents (subject : Subject) : List (String × String) :=
  importedParents (subject.plainParents.toOption.getD [])

/-- A contract declares a parent, and an import names the parent. -/
def Declares (subject : Subject) (name importPath : String) : Prop :=
  (name, importPath) ∈ subject.declaredParents

instance (subject : Subject) (name importPath : String) :
    Decidable (subject.Declares name importPath) :=
  inferInstanceAs (Decidable (_ ∈ _))

/-- The declared parents are among those that are listed. -/
theorem declares_iff
    {subject : Subject}
    {parents : Entries String (Option String)}
    (listed : subject.plainParents = .ok parents)
    (name importPath : String) :
    subject.Declares name importPath ↔ (name, some importPath) ∈ parents := by
  unfold Declares declaredParents
  rw [listed]
  exact mem_importedParents

/-- The parts of a document are derived one by one. -/
theorem plainDocument_eq_ok_iff
    {subject : Subject}
    {own : Document} :
    subject.plainDocument = .ok own ↔
      subject.plainContractInfo = .ok own.contract ∧
        subject.plainSourceInfo = .ok own.source ∧
        subject.plainParents = .ok own.parents ∧
        (subject.plainBlocks .event >>= tagBlocks) = .ok own.sections.events ∧
        (subject.plainBlocks .function >>= tagBlocks) = .ok own.sections.functions ∧
        (subject.plainBlocks .constantFunction >>= tagBlocks) =
          .ok own.sections.constantFunctions := by
  unfold plainDocument
  simp only [bind_eq_ok]
  constructor
  · rintro ⟨contract, contract_eq, source, source_eq, parents, parents_eq, eventBlocks,
      eventBlocks_eq, events, events_eq, functionBlocks, functionBlocks_eq, functions,
      functions_eq, constantBlocks, constantBlocks_eq, constants, constants_eq, ⟨⟩⟩
    exact ⟨contract_eq, source_eq, parents_eq, ⟨_, eventBlocks_eq, events_eq⟩,
      ⟨_, functionBlocks_eq, functions_eq⟩, ⟨_, constantBlocks_eq, constants_eq⟩⟩
  · rintro ⟨contract_eq, source_eq, parents_eq, ⟨eventBlocks, eventBlocks_eq, events_eq⟩,
      ⟨functionBlocks, functionBlocks_eq, functions_eq⟩,
      ⟨constantBlocks, constantBlocks_eq, constants_eq⟩⟩
    exact ⟨_, contract_eq, _, source_eq, _, parents_eq, _, eventBlocks_eq, _, events_eq, _,
      functionBlocks_eq, _, functions_eq, _, constantBlocks_eq, _, constants_eq, rfl⟩

/-- What is said about a contract: its declared name, its first constructor and its tags. -/
theorem plainContractInfo_eq_ok_iff
    {subject : Subject}
    {info : ContractInfo} :
    subject.plainContractInfo = .ok info ↔
      ∃ contract, subject.plainContract = .ok contract ∧ info.name = contract.name ∧
        ((Member.select contract.name contract.body .constructor).head?.map
          (Block.ofMember subject.source MemberKind.constructor.label)).mapM Block.tagged =
            .ok info.constructor ∧
        subject.tagsOf contract = .ok info.tags := by
  unfold plainContractInfo plainConstructor plainName plainTags
  simp only [bind_eq_ok, mapError_eq_ok]
  constructor
  · rintro ⟨_, ⟨contract, chosen, ⟨⟩⟩, _, ⟨_, again, ⟨⟩⟩, constructor, tagged, tags,
      ⟨_, lastly, divided⟩, ⟨⟩⟩
    obtain rfl := Except.ok.inj (again.symm.trans chosen)
    obtain rfl := Except.ok.inj (lastly.symm.trans again)
    exact ⟨_, chosen, rfl, tagged, divided⟩
  · rintro ⟨contract, chosen, name_eq, tagged, divided⟩
    exact ⟨_, ⟨contract, chosen, rfl⟩, _, ⟨contract, chosen, rfl⟩, _, tagged, _,
      ⟨contract, chosen, divided⟩, by rw [← name_eq]; rfl⟩

/-- The name of a contract is part of its document. -/
theorem plainName_of_plainDocument
    {subject : Subject}
    {own : Document}
    (documents : subject.plainDocument = .ok own) :
    subject.plainName = .ok own.contract.name := by
  obtain ⟨contract, chosen, name_eq, -⟩ :=
    plainContractInfo_eq_ok_iff.mp (plainDocument_eq_ok_iff.mp documents).1
  exact bind_eq_ok.mpr ⟨contract, chosen, congrArg _ name_eq.symm⟩

/-- The parents of a contract are part of its document. -/
theorem plainParents_of_plainDocument
    {subject : Subject}
    {own : Document}
    (documents : subject.plainDocument = .ok own) :
    subject.plainParents = .ok own.parents :=
  (plainDocument_eq_ok_iff.mp documents).2.2.1

end Subject
end ContractDoc
