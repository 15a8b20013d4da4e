import ContractDoc.Proofs.Source.Transfer
import ContractDoc.Proofs.Tree.Read

/-!
# Moved declarations

A declaration is read from a transferred item as from the original one, and
then moved.  Members and contracts are read from the skeleton alone, so this
holds for every transfer; pragmas and imports are read from the source, so it
holds for texts that are only moved.  Two files with a line feed between them
are therefore read like two files.
-/

namespace ContractDoc

namespace Shift

/-- A moved event. -/
def event (shift : Shift) (decl : EventDecl) : EventDecl :=
  { decl with start := decl.start + shift.offset, line := decl.line + shift.lines }

/-- A moved function. -/
def function (shift : Shift) (decl : FunctionDecl) : FunctionDecl :=
  { decl with start := decl.start + shift.offset, line := decl.line + shift.lines }

/-- A moved state variable. -/
def stateVariable (shift : Shift) (decl : VariableDecl) : VariableDecl :=
  { decl with start := decl.start + shift.offset, line := decl.line + shift.lines }

/-- A moved member. -/
def member (shift : Shift) : Member → Member
  | .event decl => .event (shift.event decl)
  | .function decl => .function (shift.function decl)
  | .stateVariable decl => .stateVariable (shift.stateVariable decl)

/-- A moved reading of a member. -/
def reading (shift : Shift) : Member.Reading → Member.Reading
  | .member decl => .member (shift.member decl)
  | .ignored => .ignored
  | .unrecognised => .unrecognised

/-- A moved contract.  Its members move with it. -/
def contract (shift : Shift) (decl : ContractDecl) : ContractDecl :=
  { decl with
    body := decl.body.map shift.member
    start := decl.start + shift.offset
    stop := decl.stop + shift.offset
    line := decl.line + shift.lines }

/-- A moved pragma. -/
def pragma (shift : Shift) (decl : PragmaDecl) : PragmaDecl :=
  { decl with start := decl.start + shift.offset, line := decl.line + shift.lines }

/-- A moved import. -/
def importing (shift : Shift) (decl : ImportDecl) : ImportDecl :=
  { decl with start := decl.start + shift.offset, line := decl.line + shift.lines }

/-- A moved declaration. -/
def declaration (shift : Shift) : Declaration → Declaration
  | .pragma decl => .pragma (shift.pragma decl)
  | .importing decl => .importing (shift.importing decl)
  | .contract decl => .contract (shift.contract decl)

theorem toMember?_reading (shift : Shift) (reading : Member.Reading) :
    (shift.reading reading).toMember? = reading.toMember?.map shift.member := by
  cases reading <;> rfl

theorem member_zero : zero.member = id := by
  funext member
  cases member <;> rfl

@[simp] theorem contract_zero (decl : ContractDecl) : zero.contract decl = decl := by
  rw [contract, member_zero, List.map_id]
  rfl

end Shift

namespace Transfer

variable (transfer : Transfer)

theorem event_ofItem (item : Item) :
    EventDecl.ofItem (transfer.item item) =
      transfer.shift.result transfer.shift.event (EventDecl.ofItem item) := by
  unfold EventDecl.ofItem
  rw [shown_item]
  dsimp only
  split
  · split
    · rfl
    · rfl
  · rfl

theorem function_ofItem (item : Item) :
    FunctionDecl.ofItem (transfer.item item) =
      transfer.shift.result transfer.shift.function (FunctionDecl.ofItem item) := by
  unfold FunctionDecl.ofItem
  rw [shown_item]
  dsimp only
  split
  · split
    · rfl
    · split
      · rfl
      · rfl
  · rfl

theorem variable_ofItem? (item : Item) :
    VariableDecl.ofItem? (transfer.item item) =
      (VariableDecl.ofItem? item).map transfer.shift.stateVariable := by
  unfold VariableDecl.ofItem?
  rw [shown_item]
  dsimp only
  split
  · split
    · rfl
    · rfl
  · rfl

theorem readVariable_item (item : Item) :
    Member.readVariable (transfer.item item) =
      transfer.shift.reading (Member.readVariable item) := by
  rw [Member.readVariable, Member.readVariable, variable_ofItem?]
  cases VariableDecl.ofItem? item <;> rfl

/-- A member is read from a transferred item as from the original one. -/
theorem member_read (item : Item) :
    Member.read (transfer.item item) =
      transfer.shift.result transfer.shift.reading (Member.read item) := by
  unfold Member.read
  rw [shown_item, event_ofItem, function_ofItem, readVariable_item]
  dsimp only
  split
  · exact Shift.result_bind _ fun _ => rfl
  · split
    · rfl
    · split
      · exact Shift.result_bind _ fun _ => rfl
      · split
        · rfl
        · rfl

theorem bodyItems_item (item : Item) (head : ContractDecl.Head) :
    ContractDecl.bodyItems (transfer.item item) head =
      transfer.shift.result (List.map transfer.item) (ContractDecl.bodyItems item head) := by
  have start : (transfer.item item).start.advanceBy ((transfer.item item).raw.take head.length) =
      transfer.shift.position (item.start.advanceBy (item.raw.take head.length)) := by
    simp only [Item.raw, Transfer.item, ← List.map_take]
    exact transfer.position_advanceBy item.start (item.glyphs.take head.length)
  have inside : ((transfer.item item).glyphs.drop head.length).dropLast =
      (item.glyphs.drop head.length).dropLast.map transfer.glyph := by
    simp only [Transfer.item, ← List.map_drop, List.map_dropLast]
  rw [ContractDecl.bodyItems, ContractDecl.bodyItems, start, inside]
  exact transfer.splitItems_transfer _ _

theorem open?_item (item : Item) :
    ContractDecl.open? (transfer.item item) =
      transfer.shift.result (fun (head, items) => (head, items.map transfer.item))
        (ContractDecl.open? item) := by
  unfold ContractDecl.open?
  rw [shown_item]
  split
  · rw [bodyItems_item]
    exact Shift.result_bind _ fun _ => rfl
  · rfl

/-- A contract is read from a transferred item as from the original one. -/
theorem contract_ofItem (item : Item) :
    ContractDecl.ofItem (transfer.item item) =
      transfer.shift.result transfer.shift.contract (ContractDecl.ofItem item) := by
  unfold ContractDecl.ofItem
  rw [open?_item]
  refine Shift.result_bind _ ?_
  rintro ⟨head, items⟩
  dsimp only
  rw [Shift.result_mapM transfer.member_read]
  refine Shift.result_bind _ ?_
  intro readings
  have body : (readings.map transfer.shift.reading).filterMap Member.Reading.toMember? =
      (readings.filterMap Member.Reading.toMember?).map transfer.shift.member := by
    rw [List.filterMap_map, List.map_filterMap]
    congr 1
    funext reading
    exact transfer.shift.toMember?_reading reading
  have stop : (transfer.item item).stop = item.stop + transfer.shift.offset := by
    simp only [Item.stop, Transfer.item, Shift.position, List.length_map]
    omega
  rw [body, stop]
  rfl

theorem raw_item_move (shift : Shift) (item : Item) :
    ((move shift).item item).raw = item.raw :=
  congrArg (List.map Glyph.raw) (List.map_id item.glyphs)

theorem pragma_ofItem (shift : Shift) (item : Item) :
    PragmaDecl.ofItem ((move shift).item item) =
      shift.result shift.pragma (PragmaDecl.ofItem item) := by
  unfold PragmaDecl.ofItem
  rw [raw_item_move]
  split
  · rfl
  · rfl

theorem import_ofItem (shift : Shift) (item : Item) :
    ImportDecl.ofItem ((move shift).item item) =
      shift.result shift.importing (ImportDecl.ofItem item) := by
  unfold ImportDecl.ofItem
  rw [raw_item_move]
  split
  · rfl
  · rfl

/-- Any declaration is read from a moved item as from the original one. -/
theorem declaration_read (shift : Shift) (item : Item) :
    Declaration.read ((move shift).item item) =
      shift.result (Option.map shift.declaration) (Declaration.read item) := by
  unfold Declaration.read
  rw [shown_item, pragma_ofItem, import_ofItem, contract_ofItem]
  dsimp only
  split
  · exact Shift.result_bind _ fun _ => rfl
  · split
    · exact Shift.result_bind _ fun _ => rfl
    · split
      · exact Shift.result_bind _ fun _ => rfl
      · rfl

end Transfer

/-- Behind a complete file and a line feed, a file has the items that it has by
itself. -/
theorem topLevelItems_append_lineFeed
    {first second : List Char} {items : List Item}
    (found : topLevelItems first = .ok items) :
    topLevelItems (first ++ '\n' :: second) =
      (Shift.behind (first ++ ['\n'])).result
        (fun later => items ++ later.map (Transfer.move (.behind (first ++ ['\n']))).item)
        (topLevelItems second) := by
  obtain ⟨front, shown, split⟩ := bind_eq_ok.1 found
  have raw : (front ++ [Glyph.kept '\n']).map Glyph.raw = first ++ ['\n'] := by
    rw [List.map_append, map_raw_of_glyphs shown]
    rfl
  rw [topLevelItems, glyphs_append_lineFeed shown]
  refine Shift.result_bind _ fun back => ?_
  rw [← raw]
  exact splitItems_append split rfl

/-- Parsing composes: behind a complete file and a line feed, a file has the
declarations that it has by itself, moved, or fails as it does by itself. -/
theorem parse_append_lineFeed
    (first second : String)
    (tree : SourceUnit)
    (parsed : parse first = .ok tree) :
    let shift : Shift := ⟨first.length + 1, 1 + first.toList.count '\n'⟩
    (∀ other, parse second = .ok other →
      parse (first ++ "\n" ++ second) =
        .ok ⟨tree.body ++ other.body.map shift.declaration⟩) ∧
    ∀ error, parse second = .error error →
      parse (first ++ "\n" ++ second) = .error ⟨error.fault, error.line + shift.lines⟩ := by
  intro shift
  obtain ⟨items, split, found, readings, rfl⟩ := parse_eq_ok_iff.1 parsed
  have whole : (first ++ "\n" ++ second).toList = first.toList ++ '\n' :: second.toList := by
    simp
  have behind : shift = .behind (first.toList ++ ['\n']) := by
    simp [shift, Shift.behind, String.length_toList, Nat.add_comm]
  have moved : parse (first ++ "\n" ++ second) =
      shift.result (fun other => ⟨found.filterMap id ++ other.body.map shift.declaration⟩)
        (parse second) := by
    rw [parse, parse, whole, topLevelItems_append_lineFeed split, ← behind]
    refine Shift.result_bind _ fun later => ?_
    rw [List.mapM_append, readings, Shift.result_mapM (Transfer.declaration_read shift)]
    have body (later : List (Option Declaration)) :
        (found ++ later.map (Option.map shift.declaration)).filterMap id =
          found.filterMap id ++ (later.filterMap id).map shift.declaration := by
      rw [List.filterMap_append, List.filterMap_map, List.map_filterMap]
      rfl
    cases later.mapM Declaration.read with
    | error error => rfl
    | ok later => exact congrArg (fun body => Except.ok (SourceUnit.mk body)) (body later)
  rw [moved]
  constructor
  · intro other parsed
    rw [parsed]
    rfl
  · intro error failed
    rw [failed]
    rfl

/-- A file that ends inside a comment, before one that has a contract and before
one that cannot be read. -/
theorem parse_pragma_append_lineFeed :
    parse ("pragma p 1;\n// end" ++ "\n" ++ "contract C \x7b uint x; \x7d") =
      .ok ⟨[
        .pragma ⟨"p", "1", "", some "1", 0, 1⟩,
        .contract ⟨"C", .contract, [], [.stateVariable ⟨"x", "uint", "internal", false, 32, 3⟩],
          false, 19, 41, 3⟩]⟩ ∧
    parse ("pragma p 1;\n// end" ++ "\n" ++ "\n\x7d") = .error ⟨.unexpected '}', 4⟩ := by
  have parsed : parse "pragma p 1;\n// end" =
      .ok ⟨[.pragma ⟨"p", "1", "", some "1", 0, 1⟩]⟩ := by
    decide +kernel
  have contract : parse "contract C \x7b uint x; \x7d" =
      .ok ⟨[.contract ⟨"C", .contract, [],
        [.stateVariable ⟨"x", "uint", "internal", false, 13, 1⟩], false, 0, 22, 1⟩]⟩ := by
    decide +kernel
  have failed : parse "\n\x7d" = .error ⟨.unexpected '}', 2⟩ := by
    decide +kernel
  exact ⟨(parse_append_lineFeed _ _ _ parsed).1 _ contract,
    (parse_append_lineFeed _ _ _ parsed).2 _ failed⟩

end ContractDoc
