import ContractDoc.Value.Basic
import Mathlib.Data.List.Basic

/-!
# Reading JSON

A reader for all JSON texts whose numbers are integers.  It knows nothing of the layouts
in which values are written: white space may stand between any two tokens, every escape of
a string is understood, and a key that occurs twice in a map keeps its last value.

A text is read token by token.  The reader holds the containers that are still open, each
with what has been read of it, and expects a value, a key, a colon, or what may follow
a complete value.
-/

namespace ContractDoc
namespace Json

/-- The white space between tokens. -/
def isBlank (c : Char) : Bool :=
  c == ' ' || c == '\t' || c == '\n' || c == '\r'

/-- A unit of a JSON text. -/
inductive Token where
  | openList
  | closeList
  | openMap
  | closeMap
  | comma
  | colon
  | string (content : String)
  /-- A number or one of the three words. -/
  | scalar (value : Value)

/-! ## Strings -/

/-- The value of a digit in base sixteen, in lower or upper case. -/
def hexValue? (c : Char) : Option Nat :=
  if c.isDigit then some (c.toNat - '0'.toNat)
  else if 'a' ≤ c ∧ c ≤ 'f' then some (c.toNat - 'a'.toNat + 10)
  else if 'A' ≤ c ∧ c ≤ 'F' then some (c.toNat - 'A'.toNat + 10)
  else none

/-- The number that digits in base sixteen stand for. -/
def hexNumber? (digits : List Char) : Option Nat :=
  digits.foldlM (fun number c => (hexValue? c).map (16 * number + ·)) 0

/-- The character that is meant by the one behind a backslash. -/
def escaped? : Char → Option Char
  | '"' => some '"'
  | '\\' => some '\\'
  | '/' => some '/'
  | 'b' => some (Char.ofNat 0x08)
  | 'f' => some (Char.ofNat 0x0C)
  | 'n' => some '\n'
  | 'r' => some '\r'
  | 't' => some '\t'
  | _ => none

/-- The units of sixteen bits of a character: itself or two surrogates. -/
def unitsOf (c : Char) : List Nat :=
  if c.toNat < 0x10000 then [c.toNat]
  else [0xD800 + (c.toNat - 0x10000) / 0x400, 0xDC00 + (c.toNat - 0x10000) % 0x400]

/-- The units of a string behind its opening quote, and the text behind the closing one.
Control characters have to be escaped. -/
def stringUnits? : List Char → Option (List Nat × List Char)
  | [] => none
  | '"' :: rest => some ([], rest)
  | '\\' :: 'u' :: a :: b :: c :: d :: rest => do
      let unit ← hexNumber? [a, b, c, d]
      let (units, after) ← stringUnits? rest
      return (unit :: units, after)
  | '\\' :: c :: rest => do
      let meant ← escaped? c
      let (units, after) ← stringUnits? rest
      return (unitsOf meant ++ units, after)
  | c :: rest =>
      if c = '\\' ∨ c.toNat < 0x20 then none
      else do
        let (units, after) ← stringUnits? rest
        return (unitsOf c ++ units, after)

/-- The first halves of pairs of surrogates. -/
def isHighSurrogate (unit : Nat) : Bool :=
  0xD800 ≤ unit && unit < 0xDC00

/-- The second halves of pairs of surrogates. -/
def isLowSurrogate (unit : Nat) : Bool :=
  0xDC00 ≤ unit && unit < 0xE000

/-- The characters of a row of units, if there is no surrogate without its partner. -/
def charsOf? : List Nat → Option (List Char)
  | [] => some []
  | unit :: rest =>
      if isHighSurrogate unit then
        match rest with
        | low :: rest =>
            if isLowSurrogate low then
              (charsOf? rest).map
                (Char.ofNat (0x10000 + (unit - 0xD800) * 0x400 + (low - 0xDC00)) :: ·)
            else none
        | [] => none
      else if isLowSurrogate unit then none
      else (charsOf? rest).map (Char.ofNat unit :: ·)

/-- The content of a string behind its opening quote, and the text behind the closing one. -/
def string? (text : List Char) : Option (String × List Char) := do
  let (units, after) ← stringUnits? text
  return (String.ofList (← charsOf? units), after)

/-! ## Numbers and words -/

/-- Characters that continue a number behind its digits: a fraction or an exponent. -/
def continuesNumber (c : Char) : Bool :=
  c == '.' || c == 'e' || c == 'E'

/-- The digits of an integer at the start of a text, and the text behind them.  There are
no leading zeros, and no fraction and no exponent may follow. -/
def natural? (text : List Char) : Option (Nat × List Char) :=
  let digits := text.takeWhile Char.isDigit
  let after := text.dropWhile Char.isDigit
  if digits = [] ∨ (digits.head? = some '0' ∧ digits ≠ ['0']) ∨
      after.head?.any continuesNumber then none
  else some (Nat.ofDigitChars 10 digits 0, after)

/-- The value of a word at the start of a text, and the text behind it. -/
def word? : List Char → Option (Value × List Char)
  | 'n' :: 'u' :: 'l' :: 'l' :: after => some (.null, after)
  | 't' :: 'r' :: 'u' :: 'e' :: after => some (.bool true, after)
  | 'f' :: 'a' :: 'l' :: 's' :: 'e' :: after => some (.bool false, after)
  | _ => none

/-! ## Tokens -/

/-- The first token of a text that begins with `c`, and the text behind it. -/
def token? (c : Char) (rest : List Char) : Option (Token × List Char) :=
  match c with
  | '[' => some (.openList, rest)
  | ']' => some (.closeList, rest)
  | '{' => some (.openMap, rest)
  | '}' => some (.closeMap, rest)
  | ',' => some (.comma, rest)
  | ':' => some (.colon, rest)
  | '"' => (string? rest).map fun (content, after) => (.string content, after)
  | '-' => (natural? rest).map fun (number, after) => (.scalar (.int (-number)), after)
  | c =>
      if c.isDigit then
        (natural? (c :: rest)).map fun (number, after) => (.scalar (.int number), after)
      else (word? (c :: rest)).map fun (value, after) => (.scalar value, after)

theorem length_le_of_stringUnits?
    {text after : List Char} {units : List Nat}
    (found : stringUnits? text = some (units, after)) :
    after.length ≤ text.length := by
  fun_induction stringUnits? text generalizing units with
  | case1 => cases found
  | case2 rest =>
    cases found
    exact Nat.le_succ _
  | case3 a b c d rest ih =>
    obtain ⟨unit, -, found⟩ := Option.bind_eq_some_iff.1 found
    obtain ⟨⟨others, behind⟩, rest_eq, same⟩ := Option.bind_eq_some_iff.1 found
    cases same
    have shorter := ih rest_eq
    simp only [List.length_cons]
    omega
  | case4 c rest _ ih =>
    obtain ⟨meant, -, found⟩ := Option.bind_eq_some_iff.1 found
    obtain ⟨⟨others, behind⟩, rest_eq, same⟩ := Option.bind_eq_some_iff.1 found
    cases same
    have shorter := ih rest_eq
    simp only [List.length_cons]
    omega
  | case5 => cases found
  | case6 c rest _ _ _ _ ih =>
    obtain ⟨⟨others, behind⟩, rest_eq, same⟩ := Option.bind_eq_some_iff.1 found
    cases same
    exact Nat.le_succ_of_le (ih rest_eq)

theorem length_le_of_string?
    {text after : List Char} {content : String}
    (found : string? text = some (content, after)) :
    after.length ≤ text.length := by
  obtain ⟨⟨units, behind⟩, units_eq, found⟩ := Option.bind_eq_some_iff.1 found
  obtain ⟨chars, -, same⟩ := Option.bind_eq_some_iff.1 found
  cases same
  exact length_le_of_stringUnits? units_eq

/-- A number has at least one digit. -/
theorem length_lt_of_natural?
    {text after : List Char} {number : Nat}
    (found : natural? text = some (number, after)) :
    after.length < text.length := by
  unfold natural? at found
  dsimp only at found
  split at found
  · cases found
  · next accepted =>
    cases found
    have digits : 0 < (text.takeWhile Char.isDigit).length :=
      List.length_pos_iff.2 fun none => accepted (.inl none)
    have whole : (text.takeWhile Char.isDigit ++ text.dropWhile Char.isDigit).length =
        text.length := by
      rw [List.takeWhile_append_dropWhile]
    rw [List.length_append] at whole
    omega

theorem length_lt_of_word?
    {text after : List Char} {value : Value}
    (found : word? text = some (value, after)) :
    after.length < text.length := by
  unfold word? at found
  split at found <;> cases found <;> simp only [List.length_cons] <;> omega

/-- Every token takes at least one character. -/
theorem length_lt_of_token?
    {c : Char} {rest after : List Char} {token : Token}
    (found : token? c rest = some (token, after)) :
    after.length < (c :: rest).length := by
  unfold token? at found
  split at found
  iterate 6
    · cases found
      exact Nat.lt_succ_self _
  · obtain ⟨⟨content, behind⟩, found, same⟩ := Option.map_eq_some_iff.1 found
    cases same
    exact Nat.lt_succ_of_le (length_le_of_string? found)
  · obtain ⟨⟨number, behind⟩, found, same⟩ := Option.map_eq_some_iff.1 found
    cases same
    exact Nat.lt_succ_of_lt (length_lt_of_natural? found)
  · split at found
    · obtain ⟨⟨number, behind⟩, found, same⟩ := Option.map_eq_some_iff.1 found
      cases same
      exact length_lt_of_natural? found
    · obtain ⟨⟨value, behind⟩, found, same⟩ := Option.map_eq_some_iff.1 found
      cases same
      exact length_lt_of_word? found

/-! ## Values -/

/-- A container that is open around the value being read. -/
inductive Frame where
  /-- A list, with the items before the value, last first. -/
  | list (before : List Value)
  /-- A map, with the entries before the value, last first, and the key of the value. -/
  | map (before : List (String × Value)) (key : String)

/-- What has been read and what is expected next. -/
inductive Reader where
  /-- A value, or the end of a list that has no items yet. -/
  | value (frames : List Frame)
  /-- A key, or the end of a map that has no entries yet. -/
  | key (before : List (String × Value)) (frames : List Frame)
  /-- The colon behind a key. -/
  | colon (before : List (String × Value)) (key : String) (frames : List Frame)
  /-- A value has been read; a comma or the end of its container follows. -/
  | complete (value : Value) (frames : List Frame)

namespace Reader

/-- Reads one token; there is no next state if the token is not expected. -/
def step : Reader → Token → Option Reader
  | value frames, .scalar found => some (complete found frames)
  | value frames, .string content => some (complete (.text content) frames)
  | value frames, .openList => some (value (.list [] :: frames))
  | value frames, .openMap => some (key [] frames)
  | value (.list [] :: frames), .closeList => some (complete (.list []) frames)
  | key before frames, .string name => some (colon before name frames)
  | key [] frames, .closeMap => some (complete (.map []) frames)
  | colon before name frames, .colon => some (value (.map before name :: frames))
  | complete item (.list before :: frames), .comma =>
      some (value (.list (item :: before) :: frames))
  | complete item (.list before :: frames), .closeList =>
      some (complete (.list (item :: before).reverse) frames)
  | complete item (.map before name :: frames), .comma =>
      some (key ((name, item) :: before) frames)
  | complete item (.map before name :: frames), .closeMap =>
      some (complete (Value.ofEntries ((name, item) :: before).reverse) frames)
  | _, _ => none

/-- The value at the end of a text. -/
def finish : Reader → Option Value
  | complete found [] => some found
  | _ => none

/-- Reads a text to its end. -/
def run (reader : Reader) (text : List Char) : Option Value :=
  match text with
  | [] => reader.finish
  | c :: rest =>
      if isBlank c then reader.run rest
      else
        match _ : token? c rest with
        | none => none
        | some (token, after) =>
            match reader.step token with
            | none => none
            | some next => next.run after
termination_by text.length
decreasing_by
  · exact Nat.lt_succ_self _
  · exact length_lt_of_token? (by assumption)

end Reader

/-- The value of a JSON text, unless it is none or has a number that is no integer. -/
def read (text : String) : Option Value :=
  (Reader.value []).run text.toList

/-- A comma at the end of a list is refused. -/
example : (read "[1, 2, ]").isNone := by decide +kernel

/-- White space does not matter, and two surrogates are one character. -/
example : (read " [ -1 ,\t\"\\uD83d\\ude00\"\n] ").isSome := by decide +kernel

end Json
end ContractDoc
