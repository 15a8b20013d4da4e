import ContractDoc.Text.Space

/-!
# Comments above declarations

The comment of a declaration is found by going back from its start, line by
line, as long as the lines are blank or look like part of a doc comment.
-/

namespace ContractDoc
namespace DocComment

open Text

/-- Whether a trimmed line may belong to the comment above a declaration. -/
def isCommentLine (line : List Char) : Bool :=
  line.isEmpty || "*".toList.isPrefixOf line || "/**".toList.isPrefixOf line ||
    "///".toList.isPrefixOf line

/-- A line without the stars and the slash that end a comment.  A final line
feed does not count as part of the line. -/
def dropEndMarker (line : List Char) : List Char :=
  let feed := if line.getLast? = some '\n' then ['\n'] else []
  match line.reverse.drop feed.length with
  | '/' :: '*' :: rest => (rest.dropWhile (· == '*')).reverse ++ feed
  | _ => line

/-- A line without the marker that begins a comment or continues it. -/
def dropStartMarker : List Char → List Char
  | '/' :: '*' :: '*' :: rest => rest
  | '/' :: '*' :: rest => rest
  | '/' :: '/' :: '/' :: rest => rest
  | '*' :: rest => rest.dropWhile (· == '*')
  | line => line

/-- The text of a comment line. -/
def stripMarkers (line : List Char) : List Char :=
  strip (dropStartMarker (dropEndMarker line))

/-- The lines of the comment at the end of a text. -/
def linesAtEnd (before : List Char) : List (List Char) :=
  let trailing := (lines before).reverse.takeWhile fun line => isCommentLine (strip line)
  (trailing.reverse.map fun line => stripMarkers (strip line)).filter (!·.isEmpty)

/-- The comment at the end of a text, its lines joined by line feeds. -/
def atEnd (before : List Char) : List Char :=
  joinWith ['\n'] (linesAtEnd before)

/-- The text before an offset; a negative one counts from the end. -/
def textBefore (source : List Char) (offset : Int) : List Char :=
  if offset < 0 then source.take (source.length + offset).toNat
  else source.take offset.toNat

/-- The comment that ends right before an offset of a source text. -/
def find (source : String) (offset : Int) : String :=
  String.ofList (atEnd (textBefore source.toList offset))

end DocComment
end ContractDoc
