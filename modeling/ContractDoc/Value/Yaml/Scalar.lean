import ContractDoc.Text.Quoted
import ContractDoc.Value.Yaml.Implicit

/-!
# YAML scalars

A text is written plain if that is unambiguous, else between single quotes, and
between double quotes if it holds characters that need escapes.  Long texts are
folded behind column eighty at single spaces.
-/

namespace ContractDoc
namespace Yaml

open Text

/-- Lines are folded behind this column. -/
def width : Nat := 80

/-- Whether a character ends a line. -/
def isBreak (c : Char) : Bool :=
  c == '\n' || c.toNat == 0x85 || c.toNat == 0x2028 || c.toNat == 0x2029

/-- Whether a character separates tokens. -/
def isBlank (c : Char) : Bool :=
  c.toNat == 0 || c == ' ' || c == '\t' || c == '\r' || isBreak c

/-- Whether a text is empty or starts with a blank. -/
def endsToken (text : List Char) : Bool :=
  text.head?.all isBlank

/-- Whether a character can only be written as an escape. -/
def isSpecial (c : Char) : Bool :=
  !(c == '\n' || (0x20 ≤ c.toNat && c.toNat ≤ 0x7E))

/-- Whether a text holds an indicator behind `previous`: a colon that ends a
token, or a number sign that starts one. -/
def hasInnerIndicator (previous : Char) : List Char → Bool
  | [] => false
  | c :: rest =>
      (c == ':' && endsToken rest) || (c == '#' && isBlank previous) ||
        hasInnerIndicator c rest

/-- Whether a text would be taken for something else than a scalar. -/
def hasIndicator (text : List Char) : Bool :=
  match text with
  | [] => false
  | c :: rest =>
      "---".toList.isPrefixOf text || "...".toList.isPrefixOf text ||
        "#,[]\x7b\x7d&*!|>'\"%@\x60".toList.contains c ||
        ((c == '?' || c == ':' || c == '-') && endsToken rest) ||
        hasInnerIndicator c rest

/-- Whether two neighbours of a text satisfy a relation. -/
def hasNeighbours (related : Char → Char → Bool) : List Char → Bool
  | c :: d :: rest => related c d || hasNeighbours related (d :: rest)
  | _ => false

/-- Whether a space touches the end of a line on either side. -/
def hasSpaceAtBreak (text : List Char) : Bool :=
  hasNeighbours (fun c d => (c == ' ' && isBreak d) || (isBreak c && d == ' ')) text

/-- Whether a text has more than one line. -/
def isMultiline (text : List Char) : Bool :=
  text.any isBreak

/-- The ways to write a scalar. -/
inductive Style where
  | plain
  | single
  | double
  deriving DecidableEq, Repr

/-- Whether a text can be written without quotes. -/
def canBePlain (text : List Char) : Bool :=
  !text.isEmpty && !hasIndicator text && !text.any isSpecial && !isMultiline text &&
    text.head? != some ' ' && text.getLast? != some ' ' && !readsAsOther text

/-- The way to write a text; a key has to stay on one line. -/
def styleFor (isKey : Bool) (text : List Char) : Style :=
  if canBePlain text then .plain
  else if !text.any isSpecial && !hasSpaceAtBreak text && !(isKey && isMultiline text) then
    .single
  else .double

/-- Where a scalar stands: whether it may be folded, and how far its further
lines are indented. -/
structure Place where
  folds : Bool
  indent : Nat
  deriving DecidableEq, Repr

/-- The start of a further line. -/
def Place.newLine (place : Place) : List Char :=
  '\n' :: List.replicate place.indent ' '

/-- The rest of a plain text from a column on. -/
def plainFrom (place : Place) (afterSpace : Bool) (column : Nat) :
    List Char → List Char
  | [] => []
  | c :: rest =>
      if c == ' ' && !afterSpace && rest.head? != some ' ' && place.folds &&
          width < column then
        place.newLine ++ plainFrom place true place.indent rest
      else c :: plainFrom place (c == ' ') (column + 1) rest

/-- The rest of a text between single quotes, from a column on, behind a
character unless it is the start. -/
def singleFrom (place : Place) (previous : Option Char) (column : Nat) :
    List Char → List Char
  | [] => []
  | c :: rest =>
      if c == '\n' then
        let breaks := if previous == some '\n' then ['\n'] else ['\n', '\n']
        if rest.head? == some '\n' then breaks ++ singleFrom place (some c) 0 rest
        else breaks ++ List.replicate place.indent ' ' ++
          singleFrom place (some c) place.indent rest
      else if c == '\'' then '\'' :: '\'' :: singleFrom place (some c) (column + 2) rest
      else if c == ' ' && previous != some ' ' && previous != none && !rest.isEmpty &&
          rest.head? != some ' ' && place.folds && width < column then
        place.newLine ++ singleFrom place (some c) place.indent rest
      else c :: singleFrom place (some c) (column + 1) rest

/-- A number in base sixteen with capital digits. -/
def capitalHex (digits number : Nat) : List Char :=
  (hexDigits digits number).map Char.toUpper

/-- The escapes that have a letter or sign of their own. -/
def namedEscape? (c : Char) : Option Char :=
  match c.toNat with
  | 0x00 => some '0'
  | 0x07 => some 'a'
  | 0x08 => some 'b'
  | 0x09 => some 't'
  | 0x0A => some 'n'
  | 0x0B => some 'v'
  | 0x0C => some 'f'
  | 0x0D => some 'r'
  | 0x1B => some 'e'
  | 0x22 => some '"'
  | 0x5C => some '\\'
  | 0x85 => some 'N'
  | 0xA0 => some '_'
  | 0x2028 => some 'L'
  | 0x2029 => some 'P'
  | _ => none

/-- The escape of a character, unless it stands for itself. -/
def escape? (c : Char) : Option (List Char) :=
  match namedEscape? c with
  | some name => some ['\\', name]
  | none =>
      if 0x20 ≤ c.toNat ∧ c.toNat ≤ 0x7E then none
      else if c.toNat ≤ 0xFF then some ('\\' :: 'x' :: capitalHex 2 c.toNat)
      else if c.toNat ≤ 0xFFFF then some ('\\' :: 'u' :: capitalHex 4 c.toNat)
      else some ('\\' :: 'U' :: capitalHex 8 c.toNat)

/-- The rest of a text between double quotes, from a column on.  It can be folded
before a space and next to an escape; `isStart` marks the first character and
`atSeam` a place behind an escape. -/
def doubleFrom (place : Place) (isStart atSeam : Bool) (column : Nat) :
    List Char → List Char
  | [] => []
  | c :: rest =>
      let mayFold := place.folds && !isStart && !rest.isEmpty
      match escape? c with
      | some escape =>
          let column := column + escape.length
          if mayFold && width + 1 < column then
            let guard := if rest.head? == some ' ' then ['\\'] else []
            escape ++ '\\' :: place.newLine ++ guard ++
              doubleFrom place false true (place.indent + guard.length) rest
          else escape ++ doubleFrom place false true column rest
      | none =>
          if mayFold && (c == ' ' || atSeam) && width < column then
            let guard := if c == ' ' then ['\\'] else []
            '\\' :: place.newLine ++ guard ++
              c :: doubleFrom place false false (place.indent + guard.length + 1) rest
          else c :: doubleFrom place false false (column + 1) rest

/-- A text as a scalar that starts at a column. -/
def scalar (isKey : Bool) (indent column : Nat) (text : List Char) : List Char :=
  let place : Place := ⟨!isKey, indent⟩
  match styleFor isKey text with
  | .plain => plainFrom place false column text
  | .single => '\'' :: singleFrom place none (column + 1) text ++ ['\'']
  | .double => '"' :: doubleFrom place true false (column + 1) text ++ ['"']

end Yaml
end ContractDoc
