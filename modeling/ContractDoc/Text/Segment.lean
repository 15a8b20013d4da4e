/-!
# Segments of a text

Cutting a text at every character of some kind, and joining the pieces again.
Lines are the special case of the line feed.
-/

namespace ContractDoc
namespace Text

/-- The pieces of a text between the characters that `isCut` accepts.  There is
one piece more than there are such characters. -/
def segmentsBy (isCut : Char → Bool) (text : List Char) : List (List Char) :=
  text.foldr
    (fun c pieces =>
      if isCut c then [] :: pieces
      else (c :: pieces.headD []) :: pieces.tail)
    [[]]

@[simp] theorem segmentsBy_nil (isCut : Char → Bool) :
    segmentsBy isCut [] = [[]] := rfl

theorem segmentsBy_cons (isCut : Char → Bool) (c : Char) (rest : List Char) :
    segmentsBy isCut (c :: rest) =
      if isCut c then [] :: segmentsBy isCut rest
      else (c :: (segmentsBy isCut rest).headD []) ::
        (segmentsBy isCut rest).tail := rfl

/-- The pieces of a text between the occurrences of a character. -/
def segments (separator : Char) (text : List Char) : List (List Char) :=
  segmentsBy (· == separator) text

/-- The lines of a text: its segments between line feeds. -/
def lines (text : List Char) : List (List Char) :=
  segments '\n' text

/-- Pieces joined with a separator text between neighbours. -/
def joinWith (separator : List Char) (pieces : List (List Char)) : List Char :=
  (pieces.intersperse separator).flatten

/-- The text before the first occurrence of a character, and the text after it,
which is empty when there is none. -/
def cutAt (separator : Char) (text : List Char) : List Char × List Char :=
  (text.takeWhile (· != separator), (text.dropWhile (· != separator)).drop 1)

/-- The text after the last occurrence of a character, or the whole text when
there is none. -/
def afterLast (separator : Char) (text : List Char) : List Char :=
  (text.reverse.takeWhile (· != separator)).reverse

/-- Whether a text ends with another. -/
def endsWith (text ending : List Char) : Bool :=
  ending.reverse.isPrefixOf text.reverse

end Text
end ContractDoc
