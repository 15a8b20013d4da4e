import ContractDoc.Proofs.Derivation

/-!
# How often a value is computed

A derivation that computes a value reports it, whether the computation succeeds or
fails.  So the notices of a model tell how often each of its values was computed.  A
value that is known was computed once and is never computed again; a value that was
computed and is not known cannot be computed at all.

The values depend on each other in a fixed order, from the syntax tree upwards, so no
computation of a value asks for that value itself.
-/

namespace ContractDoc

/-- How often notices report the computation of a value. -/
def computations (derivation : Derivation) (notices : List Notice) : Nat :=
  notices.count (.computing derivation)

@[simp] theorem computations_append
    (derivation : Derivation)
    (early late : List Notice) :
    computations derivation (early ++ late) =
      computations derivation early + computations derivation late :=
  List.count_append

/-- The rank of a value: its computation needs values of smaller ranks only. -/
def Derivation.rank : Derivation → Nat
  | tree => 0
  | contract | pragma | imports => 1
  | parents | constructor | contractTags | events | functions | constantFunctions => 2

/-! ## Notices that report no computation -/

/-- Notices are quiet if they report no computation. -/
def Quiet (notices : List Notice) : Prop :=
  ∀ derivation, .computing derivation ∉ notices

namespace Quiet

theorem computations_eq
    {notices : List Notice}
    (quiet : Quiet notices)
    (derivation : Derivation) :
    computations derivation notices = 0 :=
  List.count_eq_zero_of_not_mem (quiet derivation)

theorem nil : Quiet [] := fun _ => List.not_mem_nil

theorem append
    {early late : List Notice}
    (earlyQuiet : Quiet early)
    (lateQuiet : Quiet late) :
    Quiet (early ++ late) := by
  intro derivation member
  rcases List.mem_append.mp member with member | member
  · exact earlyQuiet derivation member
  · exact lateQuiet derivation member

/-- Reading items one after the other is quiet if reading each of them is. -/
theorem noticesUntilError
    {α : Type}
    {notices : Item → List Notice}
    (quiet : ∀ item, Quiet (notices item))
    (read : Item → Except ParseError α)
    (items : List Item) :
    Quiet (ContractDoc.noticesUntilError read notices items) := by
  induction items with
  | nil => exact nil
  | cons item items ih =>
      unfold ContractDoc.noticesUntilError
      refine (quiet item).append ?_
      split
      · exact nil
      · exact ih

theorem memberNotices (item : Item) : Quiet (Member.notices item) := by
  intro derivation
  unfold Member.notices
  split <;> simp

theorem contractNotices (item : Item) : Quiet (ContractDecl.notices item) := by
  unfold ContractDecl.notices
  split
  · exact nil
  · exact noticesUntilError memberNotices Member.read _

theorem declarationNotices (item : Item) : Quiet (Declaration.notices item) := by
  unfold Declaration.notices
  split
  · intro derivation
    simp
  · exact contractNotices item
  · exact nil
  · split
    · exact contractNotices item
    · exact nil

theorem parseNotices (source : String) : Quiet (ContractDoc.parseNotices source) := by
  unfold ContractDoc.parseNotices
  split
  · exact nil
  · exact noticesUntilError declarationNotices Declaration.read _

theorem choiceNotices (subject : Subject) (contracts : List ContractDecl) :
    Quiet (subject.choiceNotices contracts) := by
  unfold Subject.choiceNotices
  split
  · split
    · intro derivation
      simp
    · exact nil
  · exact nil

theorem unmatchedParents (names : List String) (table : List ImportEntry) :
    Quiet (ContractDoc.unmatchedParents names table) := by
  intro derivation
  simp [ContractDoc.unmatchedParents]

theorem repetitions
    (contract kind : String)
    (seen : List String)
    (members : List Member) :
    Quiet (Block.repetitions contract kind seen members) := by
  induction members generalizing seen with
  | nil => exact nil
  | cons member members ih =>
      intro derivation
      unfold Block.repetitions
      split
      · simpa using ih (member.name :: seen) derivation
      · exact ih (member.name :: seen) derivation

end Quiet

namespace Subject

variable {α β : Type} {subject : Subject}

/-! ## Accounts of one value -/

/-- The account of a value: what was known of it before, how often it was computed, and
what is known of it then. -/
inductive Account (subject : Subject) (derivation : Derivation) :
    Option derivation.Result → Nat → Option derivation.Result → Prop
  /-- What is known is not computed again. -/
  | kept (value : derivation.Result) :
      Account subject derivation (some value) 0 (some value)
  | idle : Account subject derivation none 0 none
  | computed {value : derivation.Result}
      (succeeds : subject.plain derivation = .ok value) :
      Account subject derivation none 1 (some value)
  /-- A computation that fails leaves nothing. -/
  | failed (count : Nat) {failure : Failure}
      (fails : subject.plain derivation = .error failure) :
      Account subject derivation none count none

/-- Accounts are continued. -/
theorem Account.trans
    {derivation : Derivation}
    {before middle after : Option derivation.Result}
    {early late : Nat}
    (first : subject.Account derivation before early middle)
    (second : subject.Account derivation middle late after) :
    subject.Account derivation before (early + late) after := by
  cases first with
  | kept value =>
      cases second with
      | kept value => exact .kept value
  | idle =>
      rw [Nat.zero_add]
      exact second
  | computed succeeds =>
      cases second with
      | kept value => exact .computed succeeds
  | failed count fails =>
      cases second with
      | idle => exact .failed _ fails
      | computed succeeds => cases fails.symm.trans succeeds
      | failed more _ => exact .failed _ fails

/-- Nothing happens to a value that is not computed. -/
theorem Account.refl {derivation : Derivation} (known : Option derivation.Result) :
    subject.Account derivation known 0 known := by
  cases known with
  | none => exact .idle
  | some value => exact .kept value

/-- What is known was known before or has been computed. -/
theorem Account.known_or_computed
    {derivation : Derivation}
    {before : Option derivation.Result}
    {count : Nat}
    {value : derivation.Result}
    (account : subject.Account derivation before count (some value)) :
    before = some value ∨ subject.plain derivation = .ok value := by
  cases account with
  | kept value => exact .inl rfl
  | computed succeeds => exact .inr succeeds

/-- A value that cannot be computed is not known, however often it is tried. -/
theorem Account.of_fails
    {derivation : Derivation}
    {after : Option derivation.Result}
    {count : Nat}
    {failure : Failure}
    (account : subject.Account derivation none count after)
    (fails : subject.plain derivation = .error failure)
    (more : Nat) :
    subject.Account derivation none more after := by
  cases account with
  | idle => exact .failed more fails
  | computed succeeds => cases fails.symm.trans succeeds
  | failed count _ => exact .failed more fails

/-! ## Thrifty derivations -/

/-- A derivation below a rank is thrifty if it computes only values of smaller ranks,
none of which is known, and none again that it has computed. -/
def Thrifty (subject : Subject) (rank : Nat) (computation : Derive α) : Prop :=
  ∀ progress, subject.Truthful progress.cache →
    ∃ reported,
      (outcome computation progress).2.notices = progress.notices ++ reported ∧
      ∀ derivation,
        (rank ≤ derivation.rank → computations derivation reported = 0) ∧
        subject.Account derivation (progress.cache.value? derivation)
          (computations derivation reported)
          ((outcome computation progress).2.cache.value? derivation)

namespace Thrifty

variable {rank : Nat}

/-- A thrifty derivation stays thrifty below a higher rank. -/
theorem mono
    {higher : Nat}
    {computation : Derive α}
    (thrifty : subject.Thrifty rank computation)
    (rank_le : rank ≤ higher) :
    subject.Thrifty higher computation := by
  intro progress truthful
  obtain ⟨reported, notices_eq, accounts⟩ := thrifty progress truthful
  refine ⟨reported, notices_eq, fun derivation => ?_⟩
  obtain ⟨unneeded, account⟩ := accounts derivation
  exact ⟨fun higher_le => unneeded (Nat.le_trans rank_le higher_le), account⟩

theorem pure (value : α) : subject.Thrifty rank (Pure.pure value) := by
  intro progress truthful
  exact ⟨[], (List.append_nil _).symm, fun derivation => ⟨fun _ => rfl, .refl _⟩⟩

theorem lift (result : Except Failure α) : subject.Thrifty rank (liftM result) := by
  intro progress truthful
  exact ⟨[], (List.append_nil _).symm, fun derivation => ⟨fun _ => rfl, .refl _⟩⟩

theorem report
    {notices : List Notice}
    (quiet : Quiet notices) :
    subject.Thrifty rank (Memo.report notices) := by
  intro progress truthful
  refine ⟨notices, rfl, fun derivation => ?_⟩
  rw [quiet.computations_eq]
  exact ⟨fun _ => rfl, .refl _⟩

/-- A cache stays truthful under a thrifty derivation. -/
theorem truthful
    {computation : Derive α}
    (thrifty : subject.Thrifty rank computation)
    {progress : Progress Derivation.Result}
    (truthful : subject.Truthful progress.cache) :
    subject.Truthful (outcome computation progress).2.cache := by
  obtain ⟨reported, _, accounts⟩ := thrifty progress truthful
  intro derivation value known
  have account := (accounts derivation).2
  rw [known] at account
  exact account.known_or_computed.elim (truthful derivation value) id

/-- Thrifty derivations may follow each other. -/
theorem bind
    {first : Derive α}
    {second : α → Derive β}
    (firstThrifty : subject.Thrifty rank first)
    (secondThrifty : ∀ value, subject.Thrifty rank (second value)) :
    subject.Thrifty rank (first >>= second) := by
  intro progress truthful
  have middleTruthful := firstThrifty.truthful truthful
  obtain ⟨early, early_eq, earlyAccounts⟩ := firstThrifty progress truthful
  rcases ran : outcome first progress with ⟨result, middle⟩
  rw [ran] at early_eq earlyAccounts middleTruthful
  cases result with
  | error failure =>
      rw [outcome_bind_of_error ran]
      exact ⟨early, early_eq, earlyAccounts⟩
  | ok value =>
      rw [outcome_bind_of_ok ran]
      obtain ⟨late, late_eq, lateAccounts⟩ := secondThrifty value middle middleTruthful
      refine ⟨early ++ late, ?_, fun derivation => ?_⟩
      · rw [late_eq, early_eq, List.append_assoc]
      · obtain ⟨earlyUnneeded, earlyAccount⟩ := earlyAccounts derivation
        obtain ⟨lateUnneeded, lateAccount⟩ := lateAccounts derivation
        rw [computations_append]
        refine ⟨fun rank_le => ?_, earlyAccount.trans lateAccount⟩
        rw [earlyUnneeded rank_le, lateUnneeded rank_le]

/-- Remembering a value is thrifty if computing it is, from values of smaller ranks.  Its first
notice counts for the value itself and for no other one. -/
theorem get
    {derivation : Derivation}
    {compute : Derive derivation.Result}
    (thrifty : subject.Thrifty derivation.rank compute)
    (yields : subject.Yields (Memo.get derivation compute) (subject.plain derivation)) :
    subject.Thrifty (derivation.rank + 1) (Memo.get derivation compute) := by
  intro progress truthful
  have result_eq := (yields progress truthful).1
  unfold Memo.get at result_eq ⊢
  rw [outcome_bind_of_ok (outcome_get progress)] at result_eq ⊢
  cases known : progress.cache.value? derivation with
  | some value =>
      have kept : subject.Thrifty (derivation.rank + 1) (Pure.pure value) := .pure value
      exact kept progress truthful
  | none =>
      let begun : Progress Derivation.Result :=
        { progress with notices := progress.notices ++ [.computing derivation] }
      have begins : outcome (Memo.report [.computing derivation] :
          Memo Derivation.Result Failure Unit) progress = (.ok ⟨⟩, begun) := rfl
      rw [known] at result_eq
      dsimp only at result_eq ⊢
      rw [outcome_bind_of_ok begins] at result_eq ⊢
      obtain ⟨reported, notices_eq, accounts⟩ := thrifty begun truthful
      have ownCount : computations derivation (.computing derivation :: reported) = 1 := by
        have reported_eq : reported.count (.computing derivation) = 0 :=
          (accounts derivation).1 (Nat.le_refl _)
        simp [computations, reported_eq]
      have otherCount {other : Derivation} (different : derivation ≠ other) :
          computations other (.computing derivation :: reported) =
            computations other reported := by
        simp [computations, different]
      have unneeded (other : Derivation) (rank_le : derivation.rank + 1 ≤ other.rank) :
          computations other (.computing derivation :: reported) = 0 := by
        have different : derivation ≠ other := by
          rintro rfl
          omega
        rw [otherCount different]
        exact (accounts other).1 (by omega)
      rcases ran : outcome compute begun with ⟨result, after⟩
      rw [ran] at notices_eq accounts
      have extended : after.notices =
          progress.notices ++ .computing derivation :: reported := by
        rw [notices_eq, List.append_assoc, List.singleton_append]
      cases result with
      | error failure =>
          rw [outcome_bind_of_error ran] at result_eq ⊢
          refine ⟨_, extended, fun other => ⟨unneeded other, ?_⟩⟩
          by_cases same : derivation = other
          · subst same
            have account := (accounts derivation).2
            change subject.Account _ (progress.cache.value? derivation) _ _ at account
            rw [known] at account ⊢
            exact account.of_fails result_eq.symm _
          · rw [otherCount same]
            exact (accounts other).2
      | ok value =>
          rw [outcome_bind_of_ok ran] at result_eq ⊢
          refine ⟨_, extended, fun other => ⟨unneeded other, ?_⟩⟩
          change subject.Account _ _ _ ((after.cache.insert derivation value).value? other)
          by_cases same : derivation = other
          · subst same
            rw [known, ownCount, Cache.value?_insert_self]
            exact .computed result_eq.symm
          · rw [otherCount same, Cache.value?_insert_of_ne _ same]
            exact (accounts other).2

end Thrifty

/-! ## The values of a contract -/

theorem thrifty_tree (subject : Subject) : subject.Thrifty 1 subject.tree := by
  refine Thrifty.get ?_ subject.yields_tree
  exact Thrifty.bind (Thrifty.report (Quiet.parseNotices _)) fun _ => Thrifty.lift _

theorem thrifty_contract (subject : Subject) : subject.Thrifty 2 subject.contract := by
  refine Thrifty.get (Thrifty.bind subject.thrifty_tree fun tree => ?_) subject.yields_contract
  exact Thrifty.bind (Thrifty.report (Quiet.choiceNotices _ _)) fun _ => Thrifty.lift _

theorem thrifty_pragma (subject : Subject) : subject.Thrifty 2 subject.pragma :=
  Thrifty.get (Thrifty.bind subject.thrifty_tree fun _ => Thrifty.lift _) subject.yields_pragma

theorem thrifty_imports (subject : Subject) : subject.Thrifty 2 subject.imports :=
  Thrifty.get (Thrifty.bind subject.thrifty_tree fun _ => Thrifty.pure _) subject.yields_imports

theorem thrifty_parents (subject : Subject) : subject.Thrifty 3 subject.parents := by
  refine Thrifty.get (Thrifty.bind subject.thrifty_contract fun contract => ?_)
    subject.yields_parents
  refine Thrifty.bind subject.thrifty_imports fun table => ?_
  exact Thrifty.bind (Thrifty.report (Quiet.unmatchedParents _ _)) fun _ => Thrifty.pure _

theorem thrifty_contractTags (subject : Subject) : subject.Thrifty 3 subject.contractTags :=
  Thrifty.get (Thrifty.bind subject.thrifty_contract fun _ => Thrifty.lift _)
    subject.yields_contractTags

theorem thrifty_constructor (subject : Subject) : subject.Thrifty 3 subject.constructor :=
  Thrifty.get (Thrifty.bind subject.thrifty_contract fun _ => Thrifty.pure _)
    subject.yields_constructor

theorem thrifty_blocks (subject : Subject) (kind : MemberKind) :
    subject.Thrifty 2 (subject.blocks kind) := by
  refine Thrifty.bind subject.thrifty_contract fun contract => ?_
  exact Thrifty.bind (Thrifty.report (Quiet.repetitions _ _ _ _)) fun _ => Thrifty.pure _

theorem thrifty_events (subject : Subject) : subject.Thrifty 3 subject.events :=
  Thrifty.get (subject.thrifty_blocks .event) subject.yields_events

theorem thrifty_functions (subject : Subject) : subject.Thrifty 3 subject.functions :=
  Thrifty.get (subject.thrifty_blocks .function) subject.yields_functions

theorem thrifty_constantFunctions (subject : Subject) :
    subject.Thrifty 3 subject.constantFunctions :=
  Thrifty.get (subject.thrifty_blocks .constantFunction) subject.yields_constantFunctions

theorem thrifty_name (subject : Subject) : subject.Thrifty 2 subject.name :=
  Thrifty.bind subject.thrifty_contract fun _ => Thrifty.pure _

theorem thrifty_contractInfo (subject : Subject) : subject.Thrifty 3 subject.contractInfo := by
  refine Thrifty.bind subject.thrifty_constructor fun constructor => ?_
  refine Thrifty.bind (subject.thrifty_name.mono (Nat.le_succ 2)) fun name => ?_
  refine Thrifty.bind (Thrifty.lift _) fun tagged => ?_
  exact Thrifty.bind subject.thrifty_contractTags fun _ => Thrifty.pure _

theorem thrifty_sourceInfo (subject : Subject) : subject.Thrifty 2 subject.sourceInfo := by
  refine Thrifty.bind subject.thrifty_pragma fun pragma => ?_
  exact Thrifty.bind subject.thrifty_imports fun _ => Thrifty.pure _

/-- The document of a contract alone is made from values each of which is computed at
most once. -/
theorem thrifty_document (subject : Subject) : subject.Thrifty 3 subject.document := by
  refine Thrifty.bind subject.thrifty_contractInfo fun contract => ?_
  refine Thrifty.bind (subject.thrifty_sourceInfo.mono (Nat.le_succ 2)) fun source => ?_
  refine Thrifty.bind subject.thrifty_parents fun parents => ?_
  refine Thrifty.bind subject.thrifty_events fun eventBlocks => ?_
  refine Thrifty.bind (Thrifty.lift _) fun events => ?_
  refine Thrifty.bind subject.thrifty_functions fun functionBlocks => ?_
  refine Thrifty.bind (Thrifty.lift _) fun functions => ?_
  refine Thrifty.bind subject.thrifty_constantFunctions fun constantBlocks => ?_
  exact Thrifty.bind (Thrifty.lift _) fun _ => Thrifty.pure _

end Subject
end ContractDoc
