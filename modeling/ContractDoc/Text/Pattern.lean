/-!
# Patterns

Regular patterns over characters, matched by taking derivatives: the derivative
by a character accepts the rests of the texts that start with it.
-/

namespace ContractDoc
namespace Text

/-- A regular set of texts. -/
inductive Pattern where
  /-- No text at all. -/
  | nothing
  /-- The empty text. -/
  | blank
  /-- One character of a class. -/
  | char (isMember : Char → Bool)
  /-- A text of the first pattern, then one of the second. -/
  | seq (first second : Pattern)
  /-- A text of either pattern. -/
  | alt (left right : Pattern)
  /-- Any number of texts of the pattern. -/
  | many (body : Pattern)

namespace Pattern

/-- Whether the empty text is accepted. -/
def acceptsBlank : Pattern → Bool
  | nothing => false
  | blank => true
  | char _ => false
  | seq first second => first.acceptsBlank && second.acceptsBlank
  | alt left right => left.acceptsBlank || right.acceptsBlank
  | many _ => true

/-- One pattern after another; nothing follows nothing. -/
def andThen : Pattern → Pattern → Pattern
  | nothing, _ => nothing
  | blank, second => second
  | first, second => seq first second

/-- Either of two patterns, leaving out those that accept nothing. -/
def orElse : Pattern → Pattern → Pattern
  | nothing, right => right
  | left, nothing => left
  | left, right => alt left right

/-- The rests of the accepted texts that start with a character. -/
def derivative (c : Char) : Pattern → Pattern
  | nothing => nothing
  | blank => nothing
  | char isMember => if isMember c then blank else nothing
  | seq first second =>
      let rest := (first.derivative c).andThen second
      if first.acceptsBlank then rest.orElse (second.derivative c) else rest
  | alt left right => (left.derivative c).orElse (right.derivative c)
  | many body => (body.derivative c).andThen (many body)

/-- Whether a text is accepted. -/
def accepts (pattern : Pattern) (text : List Char) : Bool :=
  (text.foldl (fun pattern c => pattern.derivative c) pattern).acceptsBlank

/-- A character out of a list. -/
def oneOf (characters : String) : Pattern :=
  char fun c => characters.toList.contains c

/-- A character in a range. -/
def range (first last : Char) : Pattern :=
  char fun c => first ≤ c && c ≤ last

/-- Exactly the given text. -/
def literal (text : String) : Pattern :=
  text.toList.foldr (fun c rest => (char (· == c)).andThen rest) blank

/-- All patterns of a list, one after the other. -/
def all (patterns : List Pattern) : Pattern :=
  patterns.foldr andThen blank

/-- Any pattern of a list. -/
def any (patterns : List Pattern) : Pattern :=
  patterns.foldr orElse nothing

/-- Any of the given texts. -/
def words (texts : List String) : Pattern :=
  any (texts.map literal)

/-- The pattern or the empty text. -/
def optional (body : Pattern) : Pattern :=
  alt body blank

/-- At least one text of the pattern. -/
def some (body : Pattern) : Pattern :=
  seq body (many body)

end Pattern
end Text
end ContractDoc
