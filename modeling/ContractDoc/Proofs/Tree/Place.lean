import ContractDoc.Proofs.Source.Lexeme
import ContractDoc.Proofs.Tree.Read

/-!
# The places of declarations

The offsets and the lines that declarations name are true.  Declarations follow
one another, a contract reaches from its keyword to the partner of its opening
brace, its members stand between the two, and the text at each offset begins as
the kind of the declaration says.
-/

namespace ContractDoc

open Text

/-! ## What the places are to be -/

/-- The line of an offset is one more than the number of lines that end before
it. -/
def OnLine (source : List Char) (start line : Nat) : Prop :=
  line = 1 + (source.take start).count '\n'

/-- The text at an offset begins with one of the given words. -/
def BeginsWith (source : List Char) (start : Nat) (words : List String) : Prop :=
  ∃ word ∈ words, word.toList <+: source.drop start

/-- The lexeme at an offset is no comment. -/
def OutsideComments (source : List Char) (index : Nat) : Prop :=
  ∃ before lexeme after,
    Lexeme.read source = .ok (before ++ lexeme :: after) ∧
      (before.flatMap Lexeme.raw).length ≤ index ∧
        index < (before.flatMap Lexeme.raw).length + lexeme.raw.length ∧
          ¬ lexeme.IsComment

/-- A pair of braces: the brackets between them are nested. -/
structure Encloses (shown : List Char) (opened closed : Nat) : Prop where
  before : opened < closed
  opens : shown[opened]? = some '{'
  closes : shown[closed]? = some '}'
  nested : ((shown.take closed).drop (opened + 1)).foldlM Bracket.track [] = some []

/-- How the text at the start of a member begins.  A state variable has no word of
its own, but does not start in a comment. -/
def Member.Begins (source : List Char) (start : Nat) : Member → Prop
  | .event _ => BeginsWith source start ["event"]
  | .function _ => BeginsWith source start ["function", "constructor", "fallback", "receive"]
  | .stateVariable _ =>
      (∃ c, source[start]? = some c ∧ isSpace c = false) ∧ OutsideComments source start

/-- The place of a member is true. -/
structure Member.Placed (source : List Char) (member : Member) : Prop where
  line : OnLine source member.start member.line
  begins : member.Begins source member.start

/-- The place of a contract in a source and its skeleton is true. -/
structure ContractDecl.Placed (source shown : List Char) (decl : ContractDecl) : Prop where
  line : OnLine source decl.start decl.line
  begins : BeginsWith source decl.start ["abstract", "contract", "library", "interface"]
  nonempty : decl.start < decl.stop
  inside : decl.stop ≤ source.length
  closes : source[decl.stop - 1]? = some '}'
  increasing : (decl.body.map Member.start).Pairwise (· < ·)
  members : ∀ member ∈ decl.body, member.Placed source
  /-- The first opening brace of the contract is the partner of its last character,
  and the members stand between the two. -/
  braces : ∃ brace,
    decl.start ≤ brace ∧ '{' ∉ (shown.take brace).drop decl.start ∧
      Encloses shown brace (decl.stop - 1) ∧
        ∀ member ∈ decl.body, brace < member.start ∧ member.start < decl.stop - 1

namespace Declaration

/-- The place of a declaration in a source and its skeleton is true. -/
def Placed (source shown : List Char) : Declaration → Prop
  | .pragma decl =>
      OnLine source decl.start decl.line ∧ BeginsWith source decl.start ["pragma"]
  | .importing decl =>
      OnLine source decl.start decl.line ∧ BeginsWith source decl.start ["import"]
  | .contract decl => decl.Placed source shown

end Declaration

/-- The places of the declarations of a file are true. -/
structure SourceUnit.Placed (source shown : List Char) (tree : SourceUnit) : Prop where
  increasing : (tree.body.map Declaration.start).Pairwise (· < ·)
  /-- No other declaration starts inside a contract. -/
  apart : ∀ decl, .contract decl ∈ tree.body → ∀ other ∈ tree.body,
    other ≠ .contract decl → ¬ (decl.start ≤ other.start ∧ other.start < decl.stop)
  placed : ∀ declaration ∈ tree.body, declaration.Placed source shown

/-! ## Items in a file -/

section File

variable {source : List Char} {found : List Glyph} {start : Position} {part : List Glyph}

/-- A part of a file is on the line that its start names. -/
theorem PartOf.onLine
    (read : glyphs source = .ok found)
    (partOf : PartOf .origin found start part) :
    OnLine source start.offset start.line := by
  rw [OnLine, partOf.line_eq, map_raw_of_glyphs read]

/-- A word that the skeleton shows at the start of a part stands in the file. -/
theorem PartOf.beginsWith
    (read : glyphs source = .ok found)
    (partOf : PartOf .origin found start part)
    {words : List String}
    (visible : words.all (fun word => word.toList.all fun c => !isSpace c) = true)
    (opens : ∃ word ∈ words, word.toList <+: part.map Glyph.shown) :
    BeginsWith source start.offset words := by
  obtain ⟨word, listed, rest, whole⟩ := opens
  refine ⟨word, listed, ?_⟩
  obtain ⟨front, back, rfl, front_eq, -⟩ := List.map_eq_append_iff.1 whole.symm
  have raw : front.map Glyph.raw = word.toList := by
    rw [← front_eq]
    apply List.map_congr_left
    intro glyph member
    apply raw_eq_shown_of_glyphs read (partOf.mem (List.mem_append_left _ member))
    have shown : glyph.shown ∈ word.toList := front_eq ▸ List.mem_map_of_mem member
    have clear := List.all_eq_true.1 (List.all_eq_true.1 visible word listed) _ shown
    simpa using clear
  have here := partOf.prefix_drop Glyph.raw
  rw [map_raw_of_glyphs read, List.map_append, raw] at here
  exact (List.prefix_append _ _).trans here

/-- A part of a file that the skeleton shows to start with another character than
white space starts outside of comments. -/
theorem PartOf.standsInCode
    (read : glyphs source = .ok found)
    (partOf : PartOf .origin found start part)
    {glyph : Glyph}
    (head : part.head? = some glyph)
    (visible : isSpace glyph.shown = false) :
    (∃ c, source[start.offset]? = some c ∧ isSpace c = false) ∧
      OutsideComments source start.offset := by
  obtain ⟨rest, rfl⟩ := List.head?_eq_some_iff.1 head
  have here : found[start.offset]? = some glyph := by
    obtain ⟨after, whole⟩ := partOf.prefix_drop id
    rw [List.map_id, List.map_id] at whole
    rw [← List.head?_drop, ← whole]
    rfl
  constructor
  · refine ⟨glyph.shown, getElem?_of_shown read ?_ visible, visible⟩
    rw [List.getElem?_map, here, Option.map_some]
  · obtain ⟨lexemes, reading, rfl⟩ := glyphs_eq_ok_iff.1 read
    obtain ⟨before, lexeme, after, rfl, member, lower, upper⟩ := Lexeme.exists_at here
    exact ⟨before, lexeme, after, reading, lower, upper,
      (Lexeme.raw_eq_shown_of_not_isSpace member visible).2⟩

/-- The place of a member that is read from an item of the file is true. -/
theorem Member.placed_of_read
    (read : glyphs source = .ok found)
    {item : Item} {member : Member}
    (partOf : PartOf .origin found item.start item.glyphs)
    (complete : item.Complete)
    (memberRead : Member.read item = .ok (.member member)) :
    member.Placed source := by
  obtain ⟨start, line, opens⟩ := Member.place_of_read memberRead
  refine ⟨?_, ?_⟩
  · rw [start, line]
    exact partOf.onLine read
  · rw [start]
    cases member with
    | event decl =>
      exact partOf.beginsWith read rfl ⟨_, List.mem_singleton_self _, opens⟩
    | function decl => exact partOf.beginsWith read rfl opens
    | stateVariable decl =>
      obtain ⟨glyph, rest, glyphs_eq⟩ := List.exists_cons_of_ne_nil complete.completes.ne_nil
      have head : item.glyphs.head? = some glyph := by
        rw [glyphs_eq]
        rfl
      exact partOf.standsInCode read head (complete.starts glyph head)

/-- Members that are read from the items of a part of the file stand in that part. -/
theorem Member.placed_of_cut
    {items : List Item} {readings : List Member.Reading} {member : Member}
    (read : glyphs source = .ok found)
    (partOf : PartOf .origin found start part)
    (cut : Cut start part items)
    (each : List.Forall₂ (fun item reading => Member.read item = .ok reading) items readings)
    (listed : member ∈ readings.filterMap Member.Reading.toMember?) :
    member.Placed source ∧ start.offset ≤ member.start ∧
      member.start < start.offset + part.length := by
  obtain ⟨item, itemListed, reading, itemRead, declares⟩ := exists_item_of_mem each listed
  obtain rfl := Member.Reading.eq_of_toMember? declares
  obtain ⟨complete, within⟩ := cut.complete_partOf item itemListed
  have nonempty := List.length_pos_iff.2 complete.completes.ne_nil
  have bounds := within.offset_le
  rw [(Member.place_of_read itemRead).1]
  exact ⟨Member.placed_of_read read (partOf.trans within) complete itemRead, bounds.1, by omega⟩

/-- Members that are read from the items of a text follow one another. -/
theorem Member.pairwise_of_cut
    {items : List Item} {readings : List Member.Reading}
    (cut : Cut start part items)
    (each : List.Forall₂ (fun item reading => Member.read item = .ok reading) items readings) :
    (readings.filterMap Member.Reading.toMember?).Pairwise fun first second =>
      first.start < second.start := by
  refine pairwise_declared each cut.pairwise ?_
  intro first second _ _ _ _ before firstRead firstNode secondRead secondNode
  obtain rfl := Member.Reading.eq_of_toMember? firstNode
  obtain rfl := Member.Reading.eq_of_toMember? secondNode
  rw [(Member.place_of_read firstRead).1, (Member.place_of_read secondRead).1]
  omega

/-! ## Contracts in a file -/

theorem Encloses.of_append
    {left inside right : List Char}
    (nested : inside.foldlM Bracket.track [] = some []) :
    Encloses (left ++ '{' :: inside ++ '}' :: right) left.length
      (left ++ '{' :: inside).length where
  before := by simp
  opens := by simp
  closes := by simp
  nested := by
    rw [List.take_left, ← List.singleton_append, ← List.append_assoc,
      show left.length + 1 = (left ++ ['{']).length by simp, List.drop_left]
    exact nested

/-- A part of a file with a nested text between two braces at its end, the first of
which is the first one of the part. -/
theorem PartOf.encloses
    {front inner : List Glyph} {brace closing : Glyph}
    (partOf : PartOf .origin found start (front ++ brace :: inner ++ [closing]))
    (clear : '{' ∉ front.map Glyph.shown)
    (opens : brace.shown = '{')
    (closes : closing.shown = '}')
    (nested : (inner.map Glyph.shown).foldlM Bracket.track [] = some []) :
    '{' ∉ ((found.map Glyph.shown).take (start.offset + front.length)).drop start.offset ∧
      Encloses (found.map Glyph.shown) (start.offset + front.length)
        (start.offset + (front ++ brace :: inner).length) := by
  obtain ⟨before, after, rfl, offset, -⟩ := partOf.exists_before
  have shown : (before ++ (front ++ brace :: inner ++ [closing] ++ after)).map Glyph.shown =
      before.map Glyph.shown ++ front.map Glyph.shown ++ '{' :: inner.map Glyph.shown ++
        '}' :: after.map Glyph.shown := by
    simp [opens, closes]
  have encloses : Encloses
      (before.map Glyph.shown ++ front.map Glyph.shown ++ '{' :: inner.map Glyph.shown ++
        '}' :: after.map Glyph.shown) _ _ :=
    .of_append nested
  have front_length : start.offset + front.length =
      (before.map Glyph.shown ++ front.map Glyph.shown).length := by
    rw [offset, List.length_append, List.length_map, List.length_map]
  have whole_length : start.offset + (front ++ brace :: inner).length =
      (before.map Glyph.shown ++ front.map Glyph.shown ++ '{' :: inner.map Glyph.shown).length := by
    simp only [offset, List.length_append, List.length_cons, List.length_map]
    omega
  rw [shown, front_length, whole_length]
  refine ⟨?_, encloses⟩
  rw [List.append_assoc (before.map Glyph.shown ++ front.map Glyph.shown), List.take_left,
    offset, ← List.length_map Glyph.shown, List.drop_left]
  exact clear

/-- The place of a contract that is read from an item of the file is true. -/
theorem ContractDecl.placed_of_ofItem
    (read : glyphs source = .ok found)
    {item : Item} {decl : ContractDecl}
    (partOf : PartOf .origin found item.start item.glyphs)
    (opens : ∃ word ∈ ContractDecl.openingWords, word.toList <+: item.shown)
    (contractRead : ContractDecl.ofItem item = .ok decl) :
    decl.Placed source (found.map Glyph.shown) := by
  obtain ⟨start, stop, line, head, items, readings, opened, members, body⟩ :=
    ContractDecl.ofItem_eq_ok contractRead
  obtain ⟨front, brace, inner, closing, glyphs_eq, clear, brace_eq, closing_eq, split⟩ :=
    ContractDecl.exists_braces_of_open? opened
  have cut := cut_of_splitItems split
  have each := mapM_eq_ok_iff.1 members
  have shape : PartOf .origin found item.start (front ++ brace :: inner ++ [closing]) := by
    rw [List.append_assoc, List.cons_append, ← glyphs_eq]
    exact partOf
  obtain ⟨first, encloses⟩ := shape.encloses clear brace_eq closing_eq cut.nested
  have stop_eq : item.stop - 1 = item.start.offset + (front ++ brace :: inner).length := by
    simp only [Item.stop, glyphs_eq, List.length_append, List.length_cons, List.length_nil]
    omega
  rw [← stop_eq] at encloses
  have bodyPart : PartOf .origin found
      (item.start.advanceBy ((front ++ [brace]).map Glyph.raw)) inner :=
    shape.trans ⟨front ++ [brace], [closing], by simp, rfl⟩
  have inside : ∀ member ∈ decl.body, member.Placed source ∧
      item.start.offset + front.length < member.start ∧ member.start < item.stop - 1 := by
    intro member listed
    rw [body] at listed
    obtain ⟨placed, lower, upper⟩ := Member.placed_of_cut read bodyPart cut each listed
    rw [Position.offset_advanceBy, List.length_map, List.length_append, List.length_singleton]
      at lower upper
    rw [stop_eq, List.length_append, List.length_cons]
    exact ⟨placed, by omega, by omega⟩
  exact {
    line := by
      rw [start, line]
      exact partOf.onLine read
    begins := by
      rw [start]
      exact partOf.beginsWith read rfl opens
    nonempty := by
      rw [start, stop, Item.stop, glyphs_eq, List.length_append, List.length_cons]
      omega
    inside := by
      rw [stop, ← map_raw_of_glyphs read, List.length_map]
      exact partOf.offset_le.2.trans_eq (Nat.zero_add _)
    closes := by
      rw [stop]
      exact getElem?_of_shown read encloses.closes rfl
    increasing := by
      rw [body]
      exact List.pairwise_map.2 (Member.pairwise_of_cut cut each)
    members := fun member listed => (inside member listed).1
    braces := by
      rw [start, stop]
      exact ⟨_, Nat.le_add_right _ _, first, encloses,
        fun member listed => (inside member listed).2⟩ }

/-! ## Declarations in a file -/

namespace Declaration

/-- A declaration stands before another one, which starts behind it and, if it is a
contract, behind its end. -/
def Precedes (first second : Declaration) : Prop :=
  first.start < second.start ∧ ∀ decl, first = .contract decl → decl.stop ≤ second.start

/-- When declarations follow one another, none starts inside a contract. -/
theorem not_inside_of_pairwise
    {body : List Declaration} {decl : ContractDecl} {other : Declaration}
    (ordered : body.Pairwise Precedes)
    (listed : .contract decl ∈ body)
    (otherListed : other ∈ body)
    (different : other ≠ .contract decl) :
    ¬ (decl.start ≤ other.start ∧ other.start < decl.stop) := by
  obtain ⟨front, back, rfl⟩ := List.append_of_mem listed
  obtain ⟨-, behind, across⟩ := List.pairwise_append.1 ordered
  rcases List.mem_append.1 otherListed with inFront | inBack
  · have earlier : other.start < decl.start := (across other inFront _ List.mem_cons_self).1
    omega
  · have inBack := (List.mem_cons.1 inBack).resolve_left different
    have later := ((List.pairwise_cons.1 behind).1 other inBack).2 decl rfl
    omega

/-- The place of a declaration that is read from an item of the file is true. -/
theorem placed_of_read
    (read : glyphs source = .ok found)
    {item : Item} {declaration : Declaration}
    (partOf : PartOf .origin found item.start item.glyphs)
    (declarationRead : Declaration.read item = .ok (some declaration)) :
    declaration.Placed source (found.map Glyph.shown) := by
  obtain ⟨opens, itemRead⟩ := read_eq_some declarationRead
  cases declaration with
  | pragma decl =>
    obtain ⟨start, line⟩ := PragmaDecl.place_of_ofItem itemRead
    rw [Placed, start, line]
    exact ⟨partOf.onLine read,
      partOf.beginsWith read rfl ⟨_, List.mem_singleton_self _, opens⟩⟩
  | importing decl =>
    obtain ⟨start, line⟩ := ImportDecl.place_of_ofItem itemRead
    rw [Placed, start, line]
    exact ⟨partOf.onLine read,
      partOf.beginsWith read rfl ⟨_, List.mem_singleton_self _, opens⟩⟩
  | contract decl => exact ContractDecl.placed_of_ofItem read partOf opens itemRead

end Declaration

end File

/-- Offsets and lines are faithful: the places of the declarations of every file
that can be read are true. -/
theorem parse_placed
    (source : String)
    (tree : SourceUnit)
    (parsed : parse source = .ok tree) :
    ∃ shown, skeleton source.toList = .ok shown ∧ tree.Placed source.toList shown := by
  obtain ⟨items, topLevel, readings, members, rfl⟩ := parse_eq_ok_iff.1 parsed
  obtain ⟨found, read, split⟩ := bind_eq_ok.1 topLevel
  have cut := cut_of_splitItems split
  have each := mapM_eq_ok_iff.1 members
  have ordered : (readings.filterMap id).Pairwise Declaration.Precedes := by
    refine pairwise_declared each cut.pairwise ?_
    rintro first second _ _ firstNode secondNode ⟨nonempty, before⟩ firstRead rfl secondRead rfl
    obtain ⟨firstStart, firstStop⟩ := Declaration.place_of_read firstRead
    rw [Declaration.Precedes, firstStart, (Declaration.place_of_read secondRead).1]
    refine ⟨by omega, fun decl isContract => ?_⟩
    rw [firstStop decl isContract]
    exact before
  refine ⟨_, skeleton_eq_ok_iff.2 ⟨found, read, rfl⟩, ?_, ?_, ?_⟩
  · exact List.pairwise_map.2 (ordered.imp And.left)
  · intro decl listed other otherListed different
    exact Declaration.not_inside_of_pairwise ordered listed otherListed different
  · intro declaration listed
    obtain ⟨item, itemListed, reading, itemRead, rfl⟩ := exists_item_of_mem each listed
    exact Declaration.placed_of_read read (cut.complete_partOf item itemListed).2 itemRead

/-- A file with a brace in a comment.  The contract ends at the brace behind it. -/
theorem parse_contract_placed :
    let source := "pragma p 1;\ncontract C \x7b uint x; // \x7d\n event E(); \x7d"
    let tree : SourceUnit := ⟨[
      .pragma ⟨"p", "1", "", some "1", 0, 1⟩,
      .contract ⟨"C", .contract, [],
        [.stateVariable ⟨"x", "uint", "internal", false, 25, 2⟩, .event ⟨"E", [], false, 39, 3⟩],
        false, 12, 51, 2⟩]⟩
    parse source = .ok tree ∧
      ∃ shown, skeleton source.toList = .ok shown ∧ tree.Placed source.toList shown := by
  intro source tree
  have parsed : parse source = .ok tree := by
    decide +kernel
  exact ⟨parsed, parse_placed source tree parsed⟩

end ContractDoc
