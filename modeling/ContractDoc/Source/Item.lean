import ContractDoc.Source.Bracket
import ContractDoc.Source.Lexeme

/-!
# Items

A file, and the body of a contract, is a sequence of items.  An item starts at a
character other than white space.  It ends behind a semicolon outside of
brackets or behind the brace that closes its first block; an import runs on
behind its braces to the semicolon.

The characters are read one after the other by `Splitter.step`.
-/

namespace ContractDoc

open Text

/-- A stretch of source text that holds one declaration. -/
structure Item where
  start : Position
  glyphs : List Glyph
  deriving DecidableEq, Repr

namespace Item

/-- The text of an item in the source. -/
def raw (item : Item) : List Char :=
  item.glyphs.map Glyph.raw

/-- The text of an item in the skeleton. -/
def shown (item : Item) : List Char :=
  item.glyphs.map Glyph.shown

/-- The line on which an item starts. -/
def line (item : Item) : Nat :=
  item.start.line

/-- The offset behind the last character of an item. -/
def stop (item : Item) : Nat :=
  item.start.offset + item.glyphs.length

/-- A parse error on the line of an item. -/
def fail {α : Type} (item : Item) (fault : ParseFault) : Except ParseError α :=
  .error ⟨fault, item.line⟩

end Item

/-- An item whose end has not been seen yet. -/
structure Draft where
  start : Position
  /-- The characters read so far, last first. -/
  taken : List Glyph
  /-- The brackets that are still open, innermost first. -/
  unclosed : List Bracket
  deriving DecidableEq, Repr

namespace Draft

/-- The draft with one more character. -/
def push (draft : Draft) (glyph : Glyph) : Draft :=
  { draft with taken := glyph :: draft.taken }

/-- The item that consists of what has been read. -/
def toItem (draft : Draft) : Item :=
  ⟨draft.start, draft.taken.reverse⟩

/-- Whether the text of the draft begins like an import. -/
def isImport (draft : Draft) : Bool :=
  "import".toList.isPrefixOf draft.toItem.shown

end Draft

/-- What is known in the middle of splitting a text into items. -/
structure Splitter where
  position : Position
  /-- The item being read, unless only white space followed the last one. -/
  draft : Option Draft
  /-- The complete items, last first. -/
  items : List Item
  deriving DecidableEq, Repr

namespace Splitter

/-- Before the first character of a text that starts at `position`. -/
def start (position : Position) : Splitter :=
  ⟨position, none, []⟩

/-- Goes on with an item behind a character. -/
def goOn (splitter : Splitter) (glyph : Glyph) (draft : Draft) : Splitter :=
  { splitter with
    position := splitter.position.advance glyph.raw
    draft := some draft }

/-- Ends an item behind a character. -/
def close (splitter : Splitter) (glyph : Glyph) (draft : Draft) : Splitter where
  position := splitter.position.advance glyph.raw
  draft := none
  items := draft.toItem :: splitter.items

/-- A parse error at a character. -/
def refuse (splitter : Splitter) (glyph : Glyph) : Except ParseError Splitter :=
  .error ⟨.unexpected glyph.shown, splitter.position.line⟩

/-- Adds a character to an item, which may end there. -/
def extend (splitter : Splitter) (draft : Draft) (glyph : Glyph) :
    Except ParseError Splitter :=
  let draft := draft.push glyph
  match Bracket.ofOpening? glyph.shown, Bracket.ofClosing? glyph.shown with
  | some bracket, _ =>
      .ok (splitter.goOn glyph { draft with unclosed := bracket :: draft.unclosed })
  | none, some bracket =>
      match draft.unclosed with
      | [] => splitter.refuse glyph
      | innermost :: outer =>
          if innermost ≠ bracket then splitter.refuse glyph
          else if outer.isEmpty && bracket == .curly && !draft.isImport then
            .ok (splitter.close glyph draft)
          else .ok (splitter.goOn glyph { draft with unclosed := outer })
  | none, none =>
      if glyph.shown == ';' && draft.unclosed.isEmpty then
        .ok (splitter.close glyph draft)
      else .ok (splitter.goOn glyph draft)

/-- Reads one character. -/
def step (splitter : Splitter) (glyph : Glyph) : Except ParseError Splitter :=
  match splitter.draft with
  | some draft => splitter.extend draft glyph
  | none =>
      if isSpace glyph.shown then
        .ok { splitter with position := splitter.position.advance glyph.raw }
      else splitter.extend ⟨splitter.position, [], []⟩ glyph

/-- The items at the end of the text. -/
def finish (splitter : Splitter) : Except ParseError (List Item) :=
  match splitter.draft with
  | none => .ok splitter.items.reverse
  | some draft =>
      match draft.unclosed with
      | [] => .error ⟨.unterminatedDeclaration, draft.start.line⟩
      | bracket :: _ => .error ⟨.unclosed bracket.opening, draft.start.line⟩

end Splitter

/-- The items of a text that starts at `position`. -/
def splitItems (position : Position) (glyphs : List Glyph) :
    Except ParseError (List Item) := do
  (← glyphs.foldlM Splitter.step (Splitter.start position)).finish

end ContractDoc
