import ContractDoc.Proofs.Tree.Head
import ContractDoc.Tree.Parse

/-!
# Reading items

What each reader takes from an item when it succeeds: the place of the item, the
way its text begins and, for a contract, the items of its body.  A list of nodes
that is read from a list of items keeps their order.
-/

namespace ContractDoc

open Text

theorem EventDecl.place_of_ofItem
    {item : Item} {decl : EventDecl}
    (read : ofItem item = .ok decl) :
    decl.start = item.start.offset ∧ decl.line = item.line := by
  unfold ofItem at read
  dsimp only at read
  split at read
  · split at read
    · cases read
    · cases read
      exact ⟨rfl, rfl⟩
  · cases read

theorem FunctionDecl.place_of_ofItem
    {item : Item} {decl : FunctionDecl}
    (read : ofItem item = .ok decl) :
    decl.start = item.start.offset ∧ decl.line = item.line := by
  unfold ofItem at read
  dsimp only at read
  split at read
  · split at read
    · cases read
    · split at read
      · cases read
      · cases read
        exact ⟨rfl, rfl⟩
  · cases read

theorem VariableDecl.place_of_ofItem?
    {item : Item} {decl : VariableDecl}
    (read : ofItem? item = some decl) :
    decl.start = item.start.offset ∧ decl.line = item.line := by
  unfold ofItem? at read
  dsimp only at read
  split at read
  · split at read
    · cases read
      exact ⟨rfl, rfl⟩
    · cases read
  · cases read

theorem PragmaDecl.place_of_ofItem
    {item : Item} {decl : PragmaDecl}
    (read : ofItem item = .ok decl) :
    decl.start = item.start.offset ∧ decl.line = item.line := by
  unfold ofItem at read
  split at read
  · cases read
  · cases read
    exact ⟨rfl, rfl⟩

theorem ImportDecl.place_of_ofItem
    {item : Item} {decl : ImportDecl}
    (read : ofItem item = .ok decl) :
    decl.start = item.start.offset ∧ decl.line = item.line := by
  unfold ofItem at read
  split at read
  · cases read
  · cases read
    exact ⟨rfl, rfl⟩

namespace Member

/-- How the text of an item begins that is read as a member. -/
def Opens (text : List Char) : Member → Prop
  | .event _ => "event".toList <+: text
  | .function _ => ∃ word ∈ FunctionDecl.keywords, word.toList <+: text
  | .stateVariable _ => True

theorem Reading.eq_of_toMember?
    {reading : Reading} {member : Member}
    (declares : reading.toMember? = some member) :
    reading = .member member := by
  cases reading with
  | member decl => exact congrArg Reading.member (Option.some.inj declares)
  | ignored => cases declares
  | unrecognised => cases declares

theorem place_of_readVariable
    {item : Item} {member : Member}
    (read : readVariable item = .member member) :
    member.start = item.start.offset ∧ member.line = item.line ∧ member.Opens item.shown := by
  unfold readVariable at read
  split at read
  · next decl found =>
    cases read
    obtain ⟨start, line⟩ := VariableDecl.place_of_ofItem? found
    exact ⟨start, line, trivial⟩
  · cases read

/-- A member has the place of its item and begins like it. -/
theorem place_of_read
    {item : Item} {member : Member}
    (read : Member.read item = .ok (.member member)) :
    member.start = item.start.offset ∧ member.line = item.line ∧ member.Opens item.shown := by
  have word : leadingWord item.shown <+: item.shown := List.takeWhile_prefix _
  unfold Member.read at read
  dsimp only at read
  split at read
  · next keyword =>
    obtain ⟨decl, event, ⟨⟩⟩ := bind_eq_ok.1 read
    obtain ⟨start, line⟩ := EventDecl.place_of_ofItem event
    rw [keyword] at word
    exact ⟨start, line, word⟩
  · split at read
    · exact place_of_readVariable (Except.ok.inj read)
    · split at read
      · next keyword =>
        obtain ⟨decl, function, ⟨⟩⟩ := bind_eq_ok.1 read
        obtain ⟨start, line⟩ := FunctionDecl.place_of_ofItem function
        obtain ⟨found, listed, same⟩ := List.any_eq_true.1 keyword
        rw [← beq_iff_eq.1 same] at word
        exact ⟨start, line, found, listed, word⟩
      · split at read
        · cases read
        · exact place_of_readVariable (Except.ok.inj read)

end Member

/-- A contract has the place of its item, and its members are read from the items
of its body. -/
theorem ContractDecl.ofItem_eq_ok
    {item : Item} {decl : ContractDecl}
    (read : ContractDecl.ofItem item = .ok decl) :
    decl.start = item.start.offset ∧ decl.stop = item.stop ∧ decl.line = item.line ∧
      ∃ head items readings, open? item = .ok (head, items) ∧
        items.mapM Member.read = .ok readings ∧
          decl.body = readings.filterMap Member.Reading.toMember? := by
  obtain ⟨⟨head, items⟩, opened, read⟩ := bind_eq_ok.1 read
  obtain ⟨readings, members, ⟨⟩⟩ := bind_eq_ok.1 read
  exact ⟨rfl, rfl, rfl, head, items, readings, opened, members, rfl⟩

namespace Declaration

/-- The offset at which a declaration starts. -/
def start : Declaration → Nat
  | .pragma decl => decl.start
  | .importing decl => decl.start
  | .contract decl => decl.start

/-- How the text of an item begins that is read as a declaration. -/
def Opens (text : List Char) : Declaration → Prop
  | .pragma _ => "pragma".toList <+: text
  | .importing _ => "import".toList <+: text
  | .contract _ => ∃ word ∈ ContractDecl.openingWords, word.toList <+: text

/-- What is read as a declaration, by the first word of its item. -/
theorem read_eq_some
    {item : Item} {declaration : Declaration}
    (read : Declaration.read item = .ok (some declaration)) :
    declaration.Opens item.shown ∧
      match declaration with
      | .pragma decl => PragmaDecl.ofItem item = .ok decl
      | .importing decl => ImportDecl.ofItem item = .ok decl
      | .contract decl => ContractDecl.ofItem item = .ok decl := by
  unfold Declaration.read at read
  dsimp only at read
  split at read
  · next keyword =>
    obtain ⟨decl, pragma, ⟨⟩⟩ := bind_eq_ok.1 read
    exact ⟨prefix_of_startsWithWord keyword, pragma⟩
  · split at read
    · next keyword =>
      obtain ⟨decl, importing, ⟨⟩⟩ := bind_eq_ok.1 read
      exact ⟨prefix_of_startsWithWord keyword, importing⟩
    · split at read
      · next opens =>
        obtain ⟨decl, contract, ⟨⟩⟩ := bind_eq_ok.1 read
        obtain ⟨⟨isAbstract, kind, rest⟩, opened⟩ := Option.isSome_iff_exists.1 opens
        exact ⟨(ContractDecl.fromBrace_of_opening? opened).1, contract⟩
      · cases read

/-- A declaration starts where its item does, and a contract ends where it does. -/
theorem place_of_read
    {item : Item} {declaration : Declaration}
    (declarationRead : Declaration.read item = .ok (some declaration)) :
    declaration.start = item.start.offset ∧
      ∀ decl, declaration = .contract decl → decl.stop = item.stop := by
  obtain ⟨-, read⟩ := read_eq_some declarationRead
  cases declaration with
  | pragma decl => exact ⟨(PragmaDecl.place_of_ofItem read).1, nofun⟩
  | importing decl => exact ⟨(ImportDecl.place_of_ofItem read).1, nofun⟩
  | contract decl =>
    obtain ⟨start, stop, -⟩ := ContractDecl.ofItem_eq_ok read
    refine ⟨start, ?_⟩
    rintro _ ⟨⟩
    exact stop

end Declaration

/-- A file is read item by item. -/
theorem parse_eq_ok_iff
    {source : String} {tree : SourceUnit} :
    parse source = .ok tree ↔
      ∃ items, topLevelItems source.toList = .ok items ∧
        ∃ found, items.mapM Declaration.read = .ok found ∧ ⟨found.filterMap id⟩ = tree := by
  rw [parse, bind_eq_ok]
  simp only [bind_eq_ok, pure, Except.pure, Except.ok.injEq]

section Nodes

variable {β γ : Type} {read : Item → Except ParseError β} {declared : β → Option γ}
variable {items : List Item} {readings : List β}

/-- A declared node comes from one of the items that are read. -/
theorem exists_item_of_mem
    {node : γ}
    (each : List.Forall₂ (fun item reading => read item = .ok reading) items readings)
    (member : node ∈ readings.filterMap declared) :
    ∃ item ∈ items, ∃ reading, read item = .ok reading ∧ declared reading = some node := by
  obtain ⟨reading, listed, declares⟩ := List.mem_filterMap.1 member
  clear member
  induction each with
  | nil => cases listed
  | @cons item first items readings firstRead _ ih =>
    rcases List.mem_cons.1 listed with rfl | listed
    · exact ⟨item, List.mem_cons_self, reading, firstRead, declares⟩
    · obtain ⟨other, otherMember, found⟩ := ih listed
      exact ⟨other, List.mem_cons_of_mem item otherMember, found⟩

/-- Declared nodes are ordered like the items that they come from. -/
theorem pairwise_declared
    {before : Item → Item → Prop} {ordered : γ → γ → Prop}
    (each : List.Forall₂ (fun item reading => read item = .ok reading) items readings)
    (pairwise : items.Pairwise before)
    (carries : ∀ {first second : Item} {firstReading secondReading : β} {firstNode secondNode : γ},
      before first second →
      read first = .ok firstReading → declared firstReading = some firstNode →
      read second = .ok secondReading → declared secondReading = some secondNode →
      ordered firstNode secondNode) :
    (readings.filterMap declared).Pairwise ordered := by
  induction each with
  | nil => exact .nil
  | @cons item reading items readings itemRead rest ih =>
    obtain ⟨earlier, pairwise⟩ := List.pairwise_cons.1 pairwise
    rw [List.filterMap_cons]
    cases declares : declared reading with
    | none => exact ih pairwise
    | some node =>
      refine .cons ?_ (ih pairwise)
      intro later member
      obtain ⟨other, otherMember, otherReading, otherRead, otherDeclares⟩ :=
        exists_item_of_mem rest member
      exact carries (earlier other otherMember) itemRead declares otherRead otherDeclares

end Nodes
end ContractDoc
