import ContractDoc.Source.Bracket
import ContractDoc.Text.Word
import ContractDoc.Tree.Basic

/-!
# Signatures

Reading what stands around the name of a function or an event: lists of
parameters and the modifiers behind them.
-/

namespace ContractDoc

open Text

/-- Whether a character may begin an identifier. -/
def isIdentifierStart (c : Char) : Bool :=
  c.isAlpha || c == '_' || c == '$'

/-- Whether a text is an identifier. -/
def isIdentifier : List Char → Bool
  | [] => false
  | c :: rest => isIdentifierStart c && rest.all fun c => isWordChar c || c == '$'

/-- Whether a token is one of the given words. -/
def isOneOf (words : List String) (token : List Char) : Bool :=
  words.any (·.toList == token)

/-- Tokens joined by single spaces. -/
def spaced (tokens : List (List Char)) : String :=
  String.ofList (joinWith [' '] tokens)

namespace Parameter

/-- The words for where the value of a parameter lives. -/
def locations : List String := ["memory", "storage", "calldata"]

/-- Reads a parameter from its tokens.  The last token is the name if it can be
one and another token is left for the type. -/
def ofTokens (tokens : List (List Char)) : Parameter :=
  let rest := tokens.filter (!isOneOf ("indexed" :: locations) ·)
  let named := 1 < rest.length && rest.getLast?.any fun token =>
    isIdentifier token && token != "payable".toList
  { typeName := spaced (if named then rest.dropLast else rest)
    name := if named then rest.getLast?.map String.ofList else none
    location := (tokens.find? (isOneOf locations)).map String.ofList
    indexed := tokens.any (isOneOf ["indexed"]) }

/-- Reads the parameters between a pair of parentheses. -/
def readList (text : List Char) : List Parameter :=
  (Nesting.splitOn ',' text).map fun part =>
    ofTokens (Nesting.tokens (Nesting.closeUp part))

end Parameter

namespace Modifier

/-- Whether a character may stand in the name of a modifier. -/
def isNameChar (c : Char) : Bool :=
  isWordChar c || c == '.'

/-- The name of the first modifier of a header, which is empty when there is
none. -/
def leadingName (header : List Char) : List Char :=
  (skipSpace header).takeWhile isNameChar

/-- What follows the name of the first modifier and the space behind it. -/
def afterName (header : List Char) : List Char :=
  skipSpace ((skipSpace header).dropWhile isNameChar)

/-- The arguments at the start of a text and what follows them.  There are none
unless the text starts with a parenthesis, and then it must be closed. -/
def arguments? (text : List Char) : Option (Option (List Char) × List Char) :=
  match text with
  | '(' :: _ =>
      (Nesting.enclosed? text).map fun (inside, fromClose) =>
        (some (strip inside), fromClose.drop 1)
  | _ => some (none, text)

theorem length_afterName_lt {header : List Char}
    (named : leadingName header ≠ []) :
    (afterName header).length < header.length := by
  have whole : (leadingName header).length +
      ((skipSpace header).dropWhile isNameChar).length = (skipSpace header).length := by
    rw [← List.length_append, leadingName, List.takeWhile_append_dropWhile]
  have nonempty := List.length_pos_iff.2 named
  have shorter := length_skipSpace_le header
  have shorterRest : (afterName header).length ≤ _ := length_skipSpace_le _
  omega

theorem length_le_of_arguments? {text rest : List Char}
    {arguments : Option (List Char)}
    (found : arguments? text = some (arguments, rest)) :
    rest.length ≤ text.length := by
  unfold arguments? at found
  split at found
  · obtain ⟨⟨inside, fromClose⟩, enclosed, same⟩ := Option.map_eq_some_iff.1 found
    obtain ⟨close, -, parts⟩ := Option.map_eq_some_iff.1 enclosed
    simp only [Prod.mk.injEq] at same parts
    obtain ⟨-, rfl⟩ := same
    obtain ⟨-, rfl⟩ := parts
    simp only [List.length_drop]
    omega
  · cases found
    exact Nat.le_refl _

/-- Reads the modifiers of a header.  Reading stops at the first character that
cannot be part of one and at arguments that are not closed. -/
def readList (header : List Char) : List Modifier :=
  if _ : leadingName header = [] then []
  else
    match _ : arguments? (afterName header) with
    | none => []
    | some (arguments, rest) =>
        ⟨String.ofList (leadingName header), arguments.map String.ofList⟩ ::
          readList rest
termination_by header.length
decreasing_by
  exact Nat.lt_of_le_of_lt (length_le_of_arguments? (by assumption))
    (length_afterName_lt (by assumption))

end Modifier
end ContractDoc
