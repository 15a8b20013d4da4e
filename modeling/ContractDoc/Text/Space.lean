import ContractDoc.Text.CodeRange
import ContractDoc.Text.Segment

/-!
# White space

The characters that separate words, and the operations that only look at them:
trimming a text and cutting it into words.
-/

namespace ContractDoc
namespace Text

/-- Space characters outside ASCII. -/
def spaceRanges : List CodeRange := [
  ⟨0x85, 0x85⟩, ⟨0xA0, 0xA0⟩, ⟨0x1680, 0x1680⟩, ⟨0x2000, 0x200A⟩, ⟨0x2028, 0x2029⟩,
  ⟨0x202F, 0x202F⟩, ⟨0x205F, 0x205F⟩, ⟨0x3000, 0x3000⟩]

/-- Whether a character is white space: tab to carriage return, the four
information separators, the space, and the spaces of `spaceRanges`. -/
def isSpace (c : Char) : Bool :=
  if c.toNat < 0x80 then
    (9 ≤ c.toNat && c.toNat ≤ 13) || (28 ≤ c.toNat && c.toNat ≤ 32)
  else inRanges spaceRanges c

/-- A text without its leading white space. -/
def skipSpace (text : List Char) : List Char :=
  text.dropWhile isSpace

/-- A text without its trailing white space. -/
def dropTrailingSpace (text : List Char) : List Char :=
  (text.reverse.dropWhile isSpace).reverse

/-- A text without its leading and trailing white space. -/
def strip (text : List Char) : List Char :=
  dropTrailingSpace (skipSpace text)

/-- Whether a text has at least one character of white space at its start. -/
def startsWithSpace : List Char → Bool
  | [] => false
  | c :: _ => isSpace c

/-- A text after its leading white space, if it has any. -/
def skipSpace1? (text : List Char) : Option (List Char) :=
  if startsWithSpace text then some (skipSpace text) else none

theorem length_skipSpace_le (text : List Char) :
    (skipSpace text).length ≤ text.length :=
  (List.dropWhile_sublist isSpace).length_le

/-- The maximal runs of characters other than white space, in order. -/
def words (text : List Char) : List (List Char) :=
  (segmentsBy isSpace text).filter (!·.isEmpty)

end Text
end ContractDoc
