import ContractDoc.Proofs.Source.Joined
import ContractDoc.Proofs.Tree.Modifiers

/-!
# Parameters as they are written

A parameter is written with the tokens of its type, the word `indexed`, a location and a name,
of which only the type is never left out.  A list of parameters that is written so is read
back, however the types are nested.
-/

namespace ContractDoc

open Text

/-! ## Words -/

theorem isOneOf_iff {words : List String} {token : List Char} :
    isOneOf words token = true ↔ ∃ word ∈ words, word.toList = token := by
  simp [isOneOf]

/-- A word is found among words exactly if it is one of them. -/
theorem isOneOf_toList (words : List String) (word : String) :
    isOneOf words word.toList = words.contains word := by
  rw [Bool.eq_iff_iff, isOneOf_iff]
  simp [String.toList_inj]

theorem isOneOf_eq_false
    {words : List String} {token : List Char}
    (others : ∀ word ∈ words, word.toList ≠ token) :
    isOneOf words token = false := by
  simpa [isOneOf] using others

theorem isWordChar_of_isAlpha
    {c : Char}
    (letter : c.isAlpha = true) :
    isWordChar c = true := by
  have ascii : c.toNat < 0x80 := by
    delta Char.isAlpha Char.isUpper Char.isLower at letter
    simp only [Bool.or_eq_true, Bool.and_eq_true, decide_eq_true_eq, UInt32.le_iff_toNat_le,
      ge_iff_le] at letter
    change (65 ≤ c.toNat ∧ c.toNat ≤ 90) ∨ (97 ≤ c.toNat ∧ c.toNat ≤ 122) at letter
    omega
  simp [isWordChar, ascii, Char.isAlphanum, letter]

/-- Identifiers are made of word characters and dollar signs. -/
theorem inIdentifier
    {name : List Char}
    (identifier : isIdentifier name = true) :
    ∀ c ∈ name, (isWordChar c || c == '$') = true := by
  cases name with
  | nil => exact List.forall_mem_nil _
  | cons first rest =>
    simp only [isIdentifier, isIdentifierStart, Bool.and_eq_true, Bool.or_eq_true,
      List.all_eq_true] at identifier
    obtain ⟨starts, others⟩ := identifier
    simp only [Bool.or_eq_true]
    refine List.forall_mem_cons.2 ⟨?_, others⟩
    rcases starts with (letter | underscore) | dollar
    · exact .inl (isWordChar_of_isAlpha letter)
    · exact .inl (by rw [beq_iff_eq.1 underscore]; rfl)
    · exact .inr dollar

theorem isSpace_eq_false_of_mem_identifier
    {name : List Char}
    (identifier : isIdentifier name = true) :
    ∀ c ∈ name, isSpace c = false := by
  intro c member
  rcases Bool.or_eq_true_iff.1 (inIdentifier identifier c member) with inWord | dollar
  · exact isSpace_eq_false_of_isWordChar inWord
  · rw [beq_iff_eq.1 dollar]
    rfl

theorem isToken_of_isIdentifier
    {name : List Char}
    (identifier : isIdentifier name = true) :
    Nesting.IsToken name := by
  refine .of_class (by decide) (isSpace_eq_false_of_mem_identifier identifier) ?_
    (inIdentifier identifier)
  rintro rfl
  cases identifier

theorem noneOutside_of_isIdentifier
    {name : List Char} {isIn : Char → Bool}
    (identifier : isIdentifier name = true)
    (apart : ∀ c, isIn c = true → (isWordChar c || c == '$') = false) :
    Bracket.NoneOutside isIn name := by
  refine .of_forall fun c member => ?_
  by_contra inClass
  rw [Bool.not_eq_false] at inClass
  have inName := inIdentifier identifier c member
  rw [apart c inClass] at inName
  cases inName

namespace Parameter

/-! ## Spellings -/

/-- The words between the type of a parameter and its name. -/
def keywords : List String := "indexed" :: locations

theorem isIdentifier_of_mem_keywords : ∀ word ∈ keywords, isIdentifier word.toList = true := by
  decide

/-- A token of the type of a parameter. -/
@[mk_iff]
structure IsTypeToken (token : List Char) : Prop where
  isToken : Nesting.IsToken token
  noComma : Bracket.NoneOutside (· == ',') token
  notKeyword : ∀ word ∈ keywords, word.toList ≠ token

instance (token : List Char) : Decidable (IsTypeToken token) :=
  decidable_of_iff _ (isTypeToken_iff token).symm

/-- The name of a parameter. -/
@[mk_iff]
structure IsName (name : List Char) : Prop where
  identifier : isIdentifier name = true
  notKeyword : ∀ word ∈ keywords, word.toList ≠ name
  notPayable : name ≠ "payable".toList

instance (name : List Char) : Decidable (IsName name) :=
  decidable_of_iff _ (isName_iff name).symm

/-- A parameter as it is written.  Without a name its type must not look as if it ended with
one. -/
structure Spelling where
  types : List (List Char)
  indexed : Bool
  location : Option String
  name : Option (List Char)
  nonempty : types ≠ []
  areTypes : ∀ token ∈ types, IsTypeToken token
  isLocation : ∀ word ∈ location, word ∈ locations
  isName : ∀ word ∈ name, IsName word
  unnamed : name = none → types.length = 1 ∨
    ∀ last ∈ types.getLast?, last = "payable".toList ∨ isIdentifier last = false

namespace Spelling

/-- The words of a parameter between its type and its name. -/
def words (parameter : Spelling) : List String :=
  (if parameter.indexed then ["indexed"] else []) ++ parameter.location.toList

/-- The tokens of a parameter. -/
def tokens (parameter : Spelling) : List (List Char) :=
  parameter.types ++ (parameter.words.map String.toList ++ parameter.name.toList)

/-- The text of a parameter. -/
def text (parameter : Spelling) : List Char :=
  joinWith [' '] parameter.tokens

/-- The parameter that is written. -/
def param (parameter : Spelling) : Parameter where
  typeName := spaced parameter.types
  name := parameter.name.map String.ofList
  location := parameter.location
  indexed := parameter.indexed

variable (parameter : Spelling)

theorem mem_keywords_of_mem_words : ∀ word ∈ parameter.words, word ∈ keywords := by
  intro word member
  rcases List.mem_append.1 member with isIndexed | isLocation
  · split at isIndexed
    · exact List.mem_singleton.1 isIndexed ▸ List.mem_cons_self
    · cases isIndexed
  · exact List.mem_cons_of_mem _ (parameter.isLocation word (Option.mem_toList.1 isLocation))

/-- Tokens other than the words between type and name are no keywords. -/
theorem notKeyword : ∀ token ∈ parameter.types ++ parameter.name.toList,
    ∀ word ∈ keywords, word.toList ≠ token := by
  intro token member
  rcases List.mem_append.1 member with isType | isName
  · exact (parameter.areTypes token isType).notKeyword
  · exact (parameter.isName token (Option.mem_toList.1 isName)).notKeyword

/-- The text of a parameter is made of tokens without commas outside of brackets. -/
theorem areTokens : ∀ token ∈ parameter.tokens,
    Nesting.IsToken token ∧ Bracket.NoneOutside (· == ',') token := by
  have ofIdentifier {name : List Char} (identifier : isIdentifier name = true) :
      Nesting.IsToken name ∧ Bracket.NoneOutside (· == ',') name := by
    refine ⟨isToken_of_isIdentifier identifier, noneOutside_of_isIdentifier identifier ?_⟩
    intro c comma
    rw [beq_iff_eq.1 comma]
    rfl
  intro token member
  rcases List.mem_append.1 member with isType | others
  · exact ⟨(parameter.areTypes token isType).isToken, (parameter.areTypes token isType).noComma⟩
  · rcases List.mem_append.1 others with isWord | isName
    · obtain ⟨word, listed, rfl⟩ := List.mem_map.1 isWord
      exact ofIdentifier
        (isIdentifier_of_mem_keywords word (parameter.mem_keywords_of_mem_words word listed))
    · exact ofIdentifier (parameter.isName token (Option.mem_toList.1 isName)).identifier

/-- What is left of the tokens without the keywords. -/
theorem filter_tokens :
    parameter.tokens.filter (!isOneOf keywords ·) = parameter.types ++ parameter.name.toList := by
  have kept {row : List (List Char)}
      (others : ∀ token ∈ row, ∀ word ∈ keywords, word.toList ≠ token) :
      row.filter (!isOneOf keywords ·) = row := by
    refine List.filter_eq_self.2 fun token member => ?_
    simp [isOneOf_eq_false (others token member)]
  have dropped : (parameter.words.map String.toList).filter (!isOneOf keywords ·) = [] := by
    refine List.filter_eq_nil_iff.2 fun token member => ?_
    obtain ⟨word, listed, rfl⟩ := List.mem_map.1 member
    simp [isOneOf_toList, parameter.mem_keywords_of_mem_words word listed]
  have others := List.forall_mem_append.1 parameter.notKeyword
  rw [tokens, List.filter_append, List.filter_append, dropped, kept others.1, kept others.2,
    List.nil_append]

/-- A word is found among the tokens exactly if it is one of the words between type and
name. -/
theorem find?_tokens
    {words : List String}
    (areKeywords : words ⊆ keywords) :
    parameter.tokens.find? (isOneOf words) =
      (parameter.words.map String.toList).find? (isOneOf words) := by
  have none {row : List (List Char)}
      (others : ∀ token ∈ row, ∀ word ∈ keywords, word.toList ≠ token) :
      row.find? (isOneOf words) = none := by
    refine List.find?_eq_none.2 fun token member => ?_
    simp [isOneOf_eq_false fun word listed => others token member word (areKeywords listed)]
  have others := List.forall_mem_append.1 parameter.notKeyword
  rw [tokens, List.find?_append, List.find?_append, none others.1, none others.2, Option.none_or,
    Option.or_none]

theorem find?_location :
    parameter.tokens.find? (isOneOf locations) = parameter.location.map String.toList := by
  have isLocation := parameter.isLocation
  rw [find?_tokens _ (List.subset_cons_self _ _), words]
  cases located : parameter.location with
  | none => cases parameter.indexed <;> rfl
  | some word =>
    have found : isOneOf locations word.toList = true := by
      simp [isOneOf_toList, isLocation word located]
    cases parameter.indexed with
    | false => simp [found]
    | true =>
      rw [if_pos rfl, List.singleton_append, List.map_cons, List.find?_cons_of_neg (by decide)]
      simp [found]

theorem any_indexed : parameter.tokens.any (isOneOf ["indexed"]) = parameter.indexed := by
  have isLocation := parameter.isLocation
  rw [Bool.eq_iff_iff, List.any_eq_true, ← List.find?_isSome, find?_tokens _ (by decide), words]
  cases located : parameter.location with
  | none => cases parameter.indexed <;> decide
  | some word =>
    have others : ∀ word ∈ locations, isOneOf ["indexed"] word.toList = false := by decide
    cases parameter.indexed with
    | true => exact iff_of_true rfl rfl
    | false => simp [others word (isLocation word located)]

/-- The tokens of a parameter that is written make up this parameter. -/
theorem ofTokens_tokens : ofTokens parameter.tokens = parameter.param := by
  have rest : parameter.tokens.filter (!isOneOf ("indexed" :: locations) ·) =
    parameter.types ++ parameter.name.toList := parameter.filter_tokens
  have found := parameter.find?_location
  have indexed := parameter.any_indexed
  cases named : parameter.name with
  | none =>
    have single : (1 < parameter.types.length && parameter.types.getLast?.any fun token =>
        isIdentifier token && token != "payable".toList) = false := by
      rw [Bool.and_eq_false_iff, Option.any_eq_false]
      refine (parameter.unnamed named).imp (fun one => by simp [one]) fun notName last isLast => ?_
      rcases notName last isLast with rfl | other
      · decide
      · simp [other]
    rw [named, Option.toList_none, List.append_nil] at rest
    unfold ofTokens param
    simp only [rest, found, indexed, single]
    simp [named, Function.comp_def]
  | some name =>
    obtain ⟨identifier, -, notPayable⟩ := parameter.isName name named
    have more := List.length_pos_iff.2 parameter.nonempty
    have last : (1 < (parameter.types ++ [name]).length &&
        (parameter.types ++ [name]).getLast?.any fun token =>
          isIdentifier token && token != "payable".toList) = true := by
      rw [List.getLast?_concat, Option.any_some, identifier, bne_iff_ne.2 notPayable]
      simp [more]
    rw [named, Option.toList_some] at rest
    unfold ofTokens param
    simp only [rest, found, indexed, last]
    simp [named, Function.comp_def]

/-- The text of a parameter is one part of a list. -/
theorem isPart : Nesting.IsPart (· == ',') parameter.text := by
  have areTokens := parameter.areTokens
  refine Nesting.isPart_joinWith (fun token member => (areTokens token member).1) ?_ rfl
    fun token member => (areTokens token member).2
  simp [tokens, parameter.nonempty]

end Spelling

/-- **Parameters are read back.**  A list of parameters is read from its text, in which they are
separated by commas and their tokens by spaces: each has the tokens of its type, its location
and its name, and is indexed if it says so. -/
theorem readList_written_parameters (parameters : List Spelling) :
    readList (joinWith [',', ' '] (parameters.map Spelling.text)) =
      parameters.map Spelling.param := by
  have split : Nesting.splitOn ',' (joinWith [',', ' '] (parameters.map Spelling.text)) =
      parameters.map Spelling.text := by
    refine Nesting.splitBy_of_joined (by decide) (.of_joinWith ?_ ?_ ?_)
    · simp [isSpace]
    · exact fun rest => .cons_of_cut rfl _
    · intro part member
      obtain ⟨parameter, -, rfl⟩ := List.mem_map.1 member
      exact parameter.isPart
  rw [readList, split, List.map_map]
  refine List.map_congr_left fun parameter _ => ?_
  rw [Function.comp_apply, Spelling.text,
    Nesting.tokens_joinWith fun token member => (parameter.areTokens token member).1,
    parameter.ofTokens_tokens]

/-- A mapping, whose type has white space and brackets in its parentheses. -/
def Spelling.balances : Spelling where
  types := ["mapping(address => uint[2])".toList]
  indexed := false
  location := some "storage"
  name := some "balances".toList
  nonempty := by decide
  areTypes := by decide
  isLocation := by decide
  isName := by decide
  unnamed := by decide

/-- A parameter without a name, whose type ends with a word. -/
def Spelling.payee : Spelling where
  types := ["address".toList, "payable".toList]
  indexed := true
  location := none
  name := none
  nonempty := by decide
  areTypes := by decide
  isLocation := by decide
  isName := by decide
  unnamed := by decide

/-- Parameters of both kinds are read back from one list. -/
theorem balances_and_payee_read_back :
    readList "mapping(address => uint[2]) storage balances, address payable indexed".toList =
      [⟨"mapping(address => uint[2])", some "balances", some "storage", false⟩,
        ⟨"address payable", none, none, true⟩] := by
  have read := readList_written_parameters [.balances, .payee]
  have text : joinWith [',', ' '] ([.balances, .payee].map Spelling.text) =
      "mapping(address => uint[2]) storage balances, address payable indexed".toList := by
    decide
  have params : [.balances, .payee].map Spelling.param =
      [⟨"mapping(address => uint[2])", some "balances", some "storage", false⟩,
        ⟨"address payable", none, none, true⟩] := by
    decide
  rw [text, params] at read
  exact read

end Parameter
end ContractDoc
