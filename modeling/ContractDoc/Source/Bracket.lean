import ContractDoc.Text.Space

/-!
# Brackets and nesting depth

The three kinds of brackets, and the operations on a fragment of code that only
look outside of brackets: splitting it, finding the partner of a parenthesis,
and finding the sign of an initializer.

A fragment need not be balanced.  Its depth is the number of opening brackets
less the number of closing ones, whatever their kinds, and may be negative.
-/

namespace ContractDoc

/-- A kind of bracket. -/
inductive Bracket where
  | round
  | square
  | curly
  deriving DecidableEq, Repr

namespace Bracket

/-- The character that opens a bracket. -/
def opening : Bracket → Char
  | round => '('
  | square => '['
  | curly => '{'

/-- The kind of bracket that a character opens. -/
def ofOpening? : Char → Option Bracket
  | '(' => some round
  | '[' => some square
  | '{' => some curly
  | _ => none

/-- The kind of bracket that a character closes. -/
def ofClosing? : Char → Option Bracket
  | ')' => some round
  | ']' => some square
  | '}' => some curly
  | _ => none

end Bracket

namespace Nesting

open Text

/-- The depth behind a character. -/
def step (depth : Int) (c : Char) : Int :=
  if (Bracket.ofOpening? c).isSome then depth + 1
  else if (Bracket.ofClosing? c).isSome then depth - 1
  else depth

/-- The pieces of a fragment between the characters that `isCut` accepts and
that leave the depth at zero.  The fragment starts at depth `depth`. -/
def piecesFrom (isCut : Char → Bool) : Int → List Char → List (List Char)
  | _, [] => [[]]
  | depth, c :: rest =>
      let pieces := piecesFrom isCut (step depth c) rest
      if isCut c && step depth c == 0 then [] :: pieces
      else (c :: pieces.headD []) :: pieces.tail

/-- The pieces of a fragment between the cuts outside of brackets, trimmed and
without empty ones. -/
def splitBy (isCut : Char → Bool) (text : List Char) : List (List Char) :=
  ((piecesFrom isCut 0 text).map strip).filter (!·.isEmpty)

/-- The parts of a fragment between the occurrences of a character outside of
brackets. -/
def splitOn (separator : Char) (text : List Char) : List (List Char) :=
  splitBy (· == separator) text

/-- The tokens of a fragment: its parts between white space outside of brackets. -/
def tokens (text : List Char) : List (List Char) :=
  splitBy isSpace text

/-- The number of characters before the parenthesis that brings the depth, which
counts round brackets only, from above down to zero. -/
def closingFrom : Int → List Char → Option Nat
  | _, [] => none
  | depth, c :: rest =>
      if c = '(' then (closingFrom (depth + 1) rest).map (· + 1)
      else if c = ')' then
        if depth - 1 = 0 then some 0
        else (closingFrom (depth - 1) rest).map (· + 1)
      else (closingFrom depth rest).map (· + 1)

/-- What is found when the partner of a parenthesis is looked for. -/
inductive Partner where
  | found (index : Int)
  | missing
  /-- The index lies before the fragment. -/
  | outside
  deriving DecidableEq, Repr

/-- The text in which the partner of the parenthesis at `index` is looked for.  A
negative index counts from the end; the whole fragment then follows once more. -/
def searchedFrom (text : List Char) (index : Int) : List Char :=
  if 0 ≤ index then text.drop index.toNat
  else text.drop (text.length - index.natAbs) ++ text

/-- The index of the parenthesis that closes the one at `index`. -/
def partner (text : List Char) (index : Int) : Partner :=
  if index + text.length < 0 then .outside
  else
    match closingFrom 0 (searchedFrom text index) with
    | some close => .found (index + close)
    | none => .missing

/-- The text between a parenthesis at the start of a fragment and its partner,
and the text from the partner on. -/
def enclosed? (text : List Char) : Option (List Char × List Char) :=
  (closingFrom 0 text).map fun close => ((text.take close).drop 1, text.drop close)

/-- Characters that make a following equals sign part of a comparison. -/
def comparesWithNext (c : Char) : Bool :=
  c == '=' || c == '!' || c == '<' || c == '>'

/-- Whether the equals sign between two neighbours assigns: it is not part of a
comparison or of an arrow. -/
def isAssignment (previous : Option Char) (following : Option Char) : Bool :=
  !(following == some '>' || following == some '=') &&
    !(previous.any comparesWithNext)

/-- The number of characters before the first assignment outside of brackets,
or before the end.  The fragment starts at depth `depth` behind `previous`. -/
def beforeAssignmentFrom (previous : Option Char) : Int → List Char → Nat
  | _, [] => 0
  | depth, c :: rest =>
      if c = '=' ∧ depth = 0 ∧ isAssignment previous rest.head? then 0
      else beforeAssignmentFrom (some c) (step depth c) rest + 1

/-- The index of the initializing equals sign outside of brackets, or the length
of the fragment. -/
def assignmentIndex (text : List Char) : Nat :=
  beforeAssignmentFrom none 0 text

/-- A fragment up to its initializing equals sign. -/
def beforeAssignment (text : List Char) : List Char :=
  text.take (assignmentIndex text)

/-- A fragment without the white space before opening parentheses. -/
def closeUp : List Char → List Char
  | [] => []
  | c :: rest =>
      if isSpace c && (skipSpace rest).head? == some '(' then closeUp rest
      else c :: closeUp rest

end Nesting
end ContractDoc
