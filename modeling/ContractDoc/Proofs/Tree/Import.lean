import ContractDoc.Proofs.Text.Segment
import ContractDoc.Proofs.Tree.Contract
import ContractDoc.Proofs.Tree.Parameter
import ContractDoc.Proofs.Tree.Uncommented

/-!
# Imports as they are written

An import is written in one of four forms around its path.  It is read back whatever the path
holds: what stands between the quotes is blanked in the skeleton, so the import is one item,
and the path ends at the first quote behind it.
-/

namespace ContractDoc

open Text

/-! ## Words and what separates them -/

namespace Text

theorem words_append_of_blank
    {blank : List Char}
    (isBlank : ∀ c ∈ blank, isSpace c = true)
    (rest : List Char) :
    words (blank ++ rest) = words rest := by
  induction blank with
  | nil => rfl
  | cons c blank ih =>
    obtain ⟨space, others⟩ := List.forall_mem_cons.1 isBlank
    rw [← ih others]
    simp [words, segmentsBy_cons, space]

theorem words_of_blank
    {blank : List Char}
    (isBlank : ∀ c ∈ blank, isSpace c = true) :
    words blank = [] := by
  have read := words_append_of_blank isBlank []
  rw [List.append_nil] at read
  exact read

section Word

variable {word : List Char}

/-- A word ends at white space. -/
theorem words_append_of_gap
    {gap : List Char}
    (visible : ∀ c ∈ word, isSpace c = false)
    (nonempty : word ≠ [])
    (isGap : IsGap gap)
    (rest : List Char) :
    words (word ++ (gap ++ rest)) = word :: words rest := by
  obtain ⟨c, blanks, rfl⟩ := List.exists_cons_of_ne_nil isGap.nonempty
  obtain ⟨space, others⟩ := List.forall_mem_cons.1 isGap.blank
  rw [← words_append_of_blank others rest, words, List.cons_append,
    segmentsBy_append_cons visible space]
  simp [words, nonempty]

/-- A word may be the last one. -/
theorem words_append_blank
    {blank : List Char}
    (visible : ∀ c ∈ word, isSpace c = false)
    (nonempty : word ≠ [])
    (isBlank : ∀ c ∈ blank, isSpace c = true) :
    words (word ++ blank) = [word] := by
  cases blank with
  | nil =>
    rw [List.append_nil, words, segmentsBy_of_uncut visible]
    simp [nonempty]
  | cons c blank =>
    have isGap : IsGap (c :: blank) := ⟨List.cons_ne_nil _ _, isBlank⟩
    have read := words_append_of_gap visible nonempty isGap []
    rw [List.append_nil] at read
    exact read

end Word
end Text

namespace ImportDecl

/-! ## Lists of symbols -/

/-- An entry of a list of symbols: a name, which may be given another one. -/
inductive IsEntry : List Char → ImportedSymbol → Prop
  | named {lead name trail : List Char}
      (leadBlank : ∀ c ∈ lead, isSpace c = true)
      (identifier : isIdentifier name = true)
      (trailBlank : ∀ c ∈ trail, isSpace c = true) :
      IsEntry (lead ++ (name ++ trail)) ⟨String.ofList name, none⟩
  | renamed {lead name gap asGap localName trail : List Char}
      (leadBlank : ∀ c ∈ lead, isSpace c = true)
      (identifier : isIdentifier name = true)
      (isGap : IsGap gap)
      (asIsGap : IsGap asGap)
      (localIdentifier : isIdentifier localName = true)
      (trailBlank : ∀ c ∈ trail, isSpace c = true) :
      IsEntry (lead ++ (name ++ (gap ++ ("as".toList ++ (asGap ++ (localName ++ trail))))))
        ⟨String.ofList name, some (String.ofList localName)⟩

/-- Symbols as they are written, separated by commas. -/
inductive IsList : List Char → List ImportedSymbol → Prop
  | blank {blank : List Char}
      (isBlank : ∀ c ∈ blank, isSpace c = true) :
      IsList blank []
  | last {entry : List Char} {symbol : ImportedSymbol}
      (isEntry : IsEntry entry symbol) :
      IsList entry [symbol]
  | more {entry list : List Char} {symbol : ImportedSymbol} {symbols : List ImportedSymbol}
      (isEntry : IsEntry entry symbol)
      (rest : IsList list symbols) :
      IsList (entry ++ ',' :: list) (symbol :: symbols)

/-- The characters of which entries are made. -/
def isEntryChar (c : Char) : Bool :=
  isWordChar c || c == '$' || isSpace c

theorem isEntryChar_of_isSpace
    {c : Char}
    (space : isSpace c = true) :
    isEntryChar c = true := by
  simp [isEntryChar, space]

namespace IsEntry

variable {entry : List Char} {symbol : ImportedSymbol}

theorem inEntry (isEntry : IsEntry entry symbol) : ∀ c ∈ entry, isEntryChar c = true := by
  have blank {spaces : List Char} (isBlank : ∀ c ∈ spaces, isSpace c = true) :
      ∀ c ∈ spaces, isEntryChar c = true :=
    fun c member => isEntryChar_of_isSpace (isBlank c member)
  have word {name : List Char} (identifier : isIdentifier name = true) :
      ∀ c ∈ name, isEntryChar c = true := by
    intro c member
    rw [isEntryChar, inIdentifier identifier c member]
    rfl
  cases isEntry with
  | named leadBlank identifier trailBlank =>
    simp only [List.forall_mem_append]
    exact ⟨blank leadBlank, word identifier, blank trailBlank⟩
  | renamed leadBlank identifier isGap asIsGap localIdentifier trailBlank =>
    simp only [List.forall_mem_append]
    exact ⟨blank leadBlank, word identifier, blank isGap.blank, word (by decide),
      blank asIsGap.blank, word localIdentifier, blank trailBlank⟩

/-- An entry is read back. -/
theorem symbol?_eq (isEntry : IsEntry entry symbol) : symbol? entry = some symbol := by
  have visible {name : List Char} (identifier : isIdentifier name = true) :=
    isSpace_eq_false_of_mem_identifier identifier
  have nonempty {name : List Char} (identifier : isIdentifier name = true) :=
    (isToken_of_isIdentifier identifier).nonempty
  cases isEntry with
  | named leadBlank identifier trailBlank =>
    rw [symbol?, words_append_of_blank leadBlank,
      words_append_blank (visible identifier) (nonempty identifier) trailBlank]
  | renamed leadBlank identifier isGap asIsGap localIdentifier trailBlank =>
    rw [symbol?, words_append_of_blank leadBlank,
      words_append_of_gap (visible identifier) (nonempty identifier) isGap,
      words_append_of_gap (visible (by decide)) (by decide) asIsGap,
      words_append_blank (visible localIdentifier) (nonempty localIdentifier) trailBlank]
    rfl

end IsEntry

namespace IsList

variable {list : List Char} {symbols : List ImportedSymbol}

theorem inList (isList : IsList list symbols) :
    ∀ c ∈ list, (isEntryChar c || c == ',') = true := by
  induction isList with
  | blank isBlank =>
    intro c member
    rw [isEntryChar_of_isSpace (isBlank c member)]
    rfl
  | last isEntry =>
    intro c member
    rw [isEntry.inEntry c member]
    rfl
  | more isEntry _ ih =>
    refine List.forall_mem_append.2 ⟨fun c member => ?_, List.forall_mem_cons.2 ⟨rfl, ih⟩⟩
    rw [isEntry.inEntry c member]
    rfl

/-- The symbols of a list are read back. -/
theorem symbolsOf_eq (isList : IsList list symbols) : symbolsOf list = symbols := by
  have uncut {entry : List Char} (inEntry : ∀ c ∈ entry, isEntryChar c = true) :
      ∀ c ∈ entry, (c == ',') = false := by
    intro c member
    rw [beq_eq_false_iff_ne]
    rintro rfl
    cases inEntry _ member
  induction isList with
  | blank isBlank =>
    have inEntry := fun c member => isEntryChar_of_isSpace (isBlank c member)
    rw [symbolsOf, segments, segmentsBy_of_uncut (uncut inEntry)]
    simp [symbol?, words_of_blank isBlank]
  | last isEntry =>
    rw [symbolsOf, segments, segmentsBy_of_uncut (uncut isEntry.inEntry)]
    simp [isEntry.symbol?_eq]
  | more isEntry _ ih =>
    rw [symbolsOf, segments] at ih ⊢
    rw [segmentsBy_append_cons (uncut isEntry.inEntry) rfl,
      List.filterMap_cons_some isEntry.symbol?_eq, ih]

end IsList

/-! ## Forms -/

/-- A name for what is imported: a word. -/
structure IsLocalName (name : List Char) : Prop where
  nonempty : name ≠ []
  inName : ∀ c ∈ name, isWordChar c = true

theorem IsLocalName.isName
    {name : List Char}
    (isName : IsLocalName name) :
    Modifier.IsName name :=
  .of_inWord isName.nonempty isName.inName

/-- The forms of an import: what stands between its first word and its path and what stands
behind the path, with the local name and the symbols that are imported. -/
inductive IsForm : List Char → List Char → Option (List Char) → List ImportedSymbol → Prop
  | file {gap blank : List Char}
      (isGap : IsGap gap)
      (isBlank : ∀ c ∈ blank, isSpace c = true) :
      IsForm gap (blank ++ [';']) none []
  | fileAs {gap before asGap name blank : List Char}
      (isGap : IsGap gap)
      (beforeBlank : ∀ c ∈ before, isSpace c = true)
      (asIsGap : IsGap asGap)
      (isName : IsLocalName name)
      (isBlank : ∀ c ∈ blank, isSpace c = true) :
      IsForm gap (before ++ ("as".toList ++ (asGap ++ (name ++ (blank ++ [';']))))) (some name) []
  | everything {gap before asGap name nameGap fromGap blank : List Char}
      (isGap : IsGap gap)
      (beforeBlank : ∀ c ∈ before, isSpace c = true)
      (asIsGap : IsGap asGap)
      (isName : IsLocalName name)
      (nameIsGap : IsGap nameGap)
      (fromIsGap : IsGap fromGap)
      (isBlank : ∀ c ∈ blank, isSpace c = true) :
      IsForm (gap ++ ("*".toList ++ (before ++ ("as".toList ++ (asGap ++ (name ++
        (nameGap ++ ("from".toList ++ fromGap)))))))) (blank ++ [';']) (some name) []
  | symbols {lead list behind fromGap blank : List Char} {symbols : List ImportedSymbol}
      (leadBlank : ∀ c ∈ lead, isSpace c = true)
      (isList : IsList list symbols)
      (behindBlank : ∀ c ∈ behind, isSpace c = true)
      (fromIsGap : IsGap fromGap)
      (isBlank : ∀ c ∈ blank, isSpace c = true) :
      IsForm (lead ++ '{' :: (list ++ '}' :: (behind ++ ("from".toList ++ fromGap))))
        (blank ++ [';']) none symbols

/-- A nested text that holds no semicolon and neither opens comments nor literals. -/
structure IsPlain (text : List Char) : Prop where
  nested : Bracket.Nested text
  noMark : ∀ c ∈ [';', '/', '"', '\''], c ∉ text

namespace IsPlain

variable {front back : List Char}

theorem append
    (isPlain : IsPlain front)
    (backIsPlain : IsPlain back) :
    IsPlain (front ++ back) where
  nested := isPlain.nested.append backIsPlain.nested
  noMark c isMark := List.not_mem_append (isPlain.noMark c isMark) (backIsPlain.noMark c isMark)

theorem of_class
    {isIn : Char → Bool}
    (noBracket : ['(', ')', '[', ']', '{', '}'].any isIn = false)
    (noMark : [';', '/', '"', '\''].any isIn = false)
    (inside : ∀ c ∈ front, isIn c = true) :
    IsPlain front where
  nested := .of_forall fun c member => Bracket.plain_of_class noBracket (inside c member)
  noMark c isMark member := by
    have found := List.any_eq_false.1 noMark c isMark
    exact found (inside c member)

theorem of_blank
    (blank : ∀ c ∈ front, isSpace c = true) :
    IsPlain front :=
  of_class (by decide) (by decide) blank

theorem noSemicolon (isPlain : IsPlain front) : ';' ∉ front :=
  isPlain.noMark ';' (by decide)

theorem noSlash (isPlain : IsPlain front) : '/' ∉ front :=
  isPlain.noMark '/' (by decide)

theorem noQuote (isPlain : IsPlain front) : ∀ quote, Lexeme.IsQuote quote → quote ∉ front := by
  rintro quote (rfl | rfl)
  · exact isPlain.noMark '"' (by decide)
  · exact isPlain.noMark '\'' (by decide)

theorem braces
    (isPlain : IsPlain front) :
    IsPlain ('{' :: (front ++ ['}'])) where
  nested := isPlain.nested.enclose rfl rfl
  noMark := by
    have noMark := isPlain.noMark
    simp_all

end IsPlain

/-- The parts of an import around its path are plain up to the semicolon at the end. -/
theorem IsForm.isPlain
    {front back : List Char} {localName : Option (List Char)} {symbols : List ImportedSymbol}
    (isForm : IsForm front back localName symbols) :
    IsPlain front ∧ ∃ tail, back = tail ++ [';'] ∧ IsPlain tail := by
  have word {name : List Char} (inName : ∀ c ∈ name, isWordChar c = true) : IsPlain name :=
    .of_class (by decide) (by decide) inName
  have isAs : IsPlain "as".toList := word (List.all_eq_true.1 (by decide))
  have isFrom : IsPlain "from".toList := word (List.all_eq_true.1 (by decide))
  have isStar : IsPlain "*".toList :=
    @IsPlain.of_class _ (· == '*') (by decide) (by decide) (List.all_eq_true.1 (by decide))
  cases isForm with
  | @file _ blank isGap isBlank => exact ⟨.of_blank isGap.blank, blank, rfl, .of_blank isBlank⟩
  | @fileAs _ before asGap name blank isGap beforeBlank asIsGap isName isBlank =>
    refine ⟨.of_blank isGap.blank, before ++ ("as".toList ++ (asGap ++ (name ++ blank))),
      by simp, ?_⟩
    exact .append (.of_blank beforeBlank) (.append isAs (.append (.of_blank asIsGap.blank)
      (.append (word isName.inName) (.of_blank isBlank))))
  | @everything _ _ _ _ _ _ blank isGap beforeBlank asIsGap isName nameIsGap fromIsGap isBlank =>
    refine ⟨?_, blank, rfl, .of_blank isBlank⟩
    exact .append (.of_blank isGap.blank) (.append isStar (.append (.of_blank beforeBlank)
      (.append isAs (.append (.of_blank asIsGap.blank) (.append (word isName.inName)
        (.append (.of_blank nameIsGap.blank) (.append isFrom (.of_blank fromIsGap.blank))))))))
  | @symbols lead list behind fromGap blank _ leadBlank isList behindBlank fromIsGap isBlank =>
    refine ⟨?_, blank, rfl, .of_blank isBlank⟩
    have inBraces : IsPlain ('{' :: (list ++ ['}'])) :=
      .braces (.of_class (by decide) (by decide) isList.inList)
    have whole : lead ++ '{' :: (list ++ '}' :: (behind ++ ("from".toList ++ fromGap))) =
        lead ++ ('{' :: (list ++ ['}']) ++ (behind ++ ("from".toList ++ fromGap))) := by
      simp
    rw [whole]
    exact .append (.of_blank leadBlank) (.append inBraces (.append (.of_blank behindBlank)
      (.append isFrom (.of_blank fromIsGap.blank))))

/-! ## Reading forms -/

section Path

variable {α : Type} {ending : List Char → Option α} {quote : Char} {path back : List Char}
variable {value : α}

/-- A path ends at the first quote behind which the rest of an import follows. -/
theorem pathBefore?_append
    {before : List Char}
    (noQuote : quote ∉ path)
    (nonempty : before.reverse ++ path ≠ [])
    (accepted : ending back = some value) :
    pathBefore? quote ending before (path ++ quote :: back) =
      some (before.reverse ++ path, value) := by
  induction path generalizing before with
  | nil =>
    have begun : before ≠ [] := by simpa using nonempty
    simp [pathBefore?, begun, accepted]
  | cons c path ih =>
    obtain ⟨notQuote, noQuote⟩ := not_or.1 (mt List.mem_cons.2 noQuote)
    have found := @ih (c :: before) noQuote (by simp)
    rw [List.cons_append, pathBefore?, if_neg fun here => notQuote here.1.symm, found]
    simp

theorem quotedPath?_append
    (isQuote : Lexeme.IsQuote quote)
    (noQuote : quote ∉ path)
    (nonempty : path ≠ [])
    (accepted : ending back = some value) :
    quotedPath? ending (quote :: (path ++ quote :: back)) = some (path, value) := by
  unfold Lexeme.IsQuote at isQuote
  rw [quotedPath?, if_pos isQuote]
  exact @pathBefore?_append _ _ _ _ _ _ [] noQuote nonempty accepted

end Path

theorem afterKeyword?_append (word : String) (rest : List Char) :
    afterKeyword? word (word.toList ++ rest) = some rest := by
  have begins : word.toList.isPrefixOf (word.toList ++ rest) = true :=
    List.isPrefixOf_iff_prefix.2 (List.prefix_append _ _)
  rw [afterKeyword?, if_pos begins, ← String.length_toList, List.drop_left]

/-- A local name ends where no word goes on. -/
theorem IsLocalName.name?_append
    {name rest : List Char}
    (isName : IsLocalName name)
    (apart : Modifier.Apart rest) :
    name? (name ++ rest) = some (name, rest) := by
  obtain ⟨word, behind⟩ := span_append isName.inName apart.isWordChar_eq_false
  have leading : leadingWord (name ++ rest) = name := word
  have after : afterWord (name ++ rest) = rest := behind
  rw [name?, leading, after, if_neg (by simp [isName.nonempty])]

theorem semicolon?_append
    {blank : List Char}
    (isBlank : ∀ c ∈ blank, isSpace c = true) :
    semicolon? (blank ++ [';']) = some () := by
  rw [semicolon?, Modifier.skipSpace_append_of_blank isBlank]
  rfl

theorem isName_as : Modifier.IsName "as".toList :=
  .of_inWord (by decide) (List.all_eq_true.1 (by decide))

theorem isName_from : Modifier.IsName "from".toList :=
  .of_inWord (by decide) (List.all_eq_true.1 (by decide))

/-- White space before a word is passed over. -/
theorem skipSpace_append_word
    {blank word : List Char}
    (isBlank : ∀ c ∈ blank, isSpace c = true)
    (isName : Modifier.IsName word)
    (rest : List Char) :
    skipSpace (blank ++ (word ++ rest)) = word ++ rest := by
  rw [Modifier.skipSpace_append_of_blank isBlank, isName.skipSpace_append]

/-- Behind a path its local name is read back. -/
theorem optionalName?_append
    {before asGap name blank : List Char}
    (beforeBlank : ∀ c ∈ before, isSpace c = true)
    (asIsGap : IsGap asGap)
    (isName : IsLocalName name)
    (isBlank : ∀ c ∈ blank, isSpace c = true) :
    optionalName? (before ++ ("as".toList ++ (asGap ++ (name ++ (blank ++ [';']))))) =
      some (some name) := by
  have apart : Modifier.Apart (blank ++ [';']) :=
    Modifier.apart_of_blank isBlank (Modifier.apart_cons rfl [])
  rw [optionalName?, skipSpace_append_word beforeBlank isName_as, if_neg (by simp),
    afterKeyword?_append]
  simp [asIsGap.skipSpace1?_append (isName.isName.visible _), isName.name?_append apart,
    semicolon?_append isBlank]

theorem visible_of_isQuote
    {quote : Char}
    (isQuote : Lexeme.IsQuote quote)
    (rest : List Char) :
    ∀ c ∈ (quote :: rest).head?, isSpace c = false := by
  rintro c ⟨⟩
  rcases isQuote with rfl | rfl <;> rfl

theorem skipSpace1?_append_star
    {gap : List Char}
    (isGap : IsGap gap)
    (rest : List Char) :
    skipSpace1? (gap ++ ("*".toList ++ rest)) = some ("*".toList ++ rest) := by
  refine isGap.skipSpace1?_append ?_
  rintro c ⟨⟩
  rfl

/-- No path stands in the place of a star. -/
theorem wholeFile?_of_star
    {gap : List Char}
    (isGap : IsGap gap)
    (rest : List Char) :
    wholeFile? (gap ++ ("*".toList ++ rest)) = none := by
  rw [wholeFile?, skipSpace1?_append_star isGap]
  rfl

/-- The form that begins with a star is read back. -/
theorem everything?_append
    {gap before asGap name nameGap rest path : List Char}
    (isGap : IsGap gap)
    (beforeBlank : ∀ c ∈ before, isSpace c = true)
    (asIsGap : IsGap asGap)
    (isName : IsLocalName name)
    (nameIsGap : IsGap nameGap)
    (origin : origin? ("from".toList ++ rest) = some path) :
    everything? (gap ++ ("*".toList ++ (before ++ ("as".toList ++ (asGap ++ (name ++
      (nameGap ++ ("from".toList ++ rest)))))))) = some ⟨path, some name, []⟩ := by
  have behindAs :=
    asIsGap.skipSpace1?_append (isName.isName.visible (nameGap ++ ("from".toList ++ rest)))
  have named := isName.name?_append (nameIsGap.apart ("from".toList ++ rest))
  have behindName := nameIsGap.skipSpace1?_append (isName_from.visible rest)
  rw [everything?, skipSpace1?_append_star isGap]
  simp only [Option.bind_eq_bind, Option.bind_some, afterKeyword?_append,
    skipSpace_append_word beforeBlank isName_as, behindAs, named, behindName, origin]
  rfl

section Forms

variable {quote : Char} {path front back : List Char}
variable {localName : Option (List Char)} {symbols : List ImportedSymbol}
variable (isQuote : Lexeme.IsQuote quote) (noQuote : quote ∉ path) (nonempty : path ≠ [])

include isQuote noQuote nonempty

theorem origin?_append
    {fromGap blank : List Char}
    (fromIsGap : IsGap fromGap)
    (isBlank : ∀ c ∈ blank, isSpace c = true) :
    origin? ("from".toList ++ (fromGap ++ quote :: (path ++ quote :: (blank ++ [';'])))) =
      some path := by
  have found := quotedPath?_append isQuote noQuote nonempty (semicolon?_append isBlank)
  rw [origin?, afterKeyword?_append]
  simp [fromIsGap.skipSpace1?_append (visible_of_isQuote isQuote _), found]

/-- The forms that begin with the path are read back. -/
theorem wholeFile?_append
    {gap : List Char}
    (isGap : IsGap gap)
    (accepted : optionalName? back = some localName) :
    wholeFile? (gap ++ quote :: (path ++ quote :: back)) = some ⟨path, localName, []⟩ := by
  have found := quotedPath?_append isQuote noQuote nonempty accepted
  rw [wholeFile?]
  simp [isGap.skipSpace1?_append (visible_of_isQuote isQuote _), found]

/-- The forms of an import are read back. -/
theorem IsForm.clause?_eq
    (isForm : IsForm front back localName symbols) :
    clause? ("import".toList ++ (front ++ quote :: (path ++ quote :: back))) =
      some ⟨path, localName, symbols⟩ := by
  cases isForm with
  | file isGap isBlank =>
    have accepted : optionalName? _ = some none :=
      if_pos (Modifier.skipSpace_append_of_blank isBlank [';'])
    rw [clause?_eq_or, wholeFile?_append isQuote noQuote nonempty isGap accepted]
    rfl
  | fileAs isGap beforeBlank asIsGap isName isBlank =>
    have accepted := optionalName?_append beforeBlank asIsGap isName isBlank
    rw [clause?_eq_or, wholeFile?_append isQuote noQuote nonempty isGap accepted]
    rfl
  | everything isGap beforeBlank asIsGap isName nameIsGap fromIsGap isBlank =>
    have origin := origin?_append isQuote noQuote nonempty fromIsGap isBlank
    simp only [List.append_assoc]
    rw [clause?_eq_or, wholeFile?_of_star isGap,
      everything?_append isGap beforeBlank asIsGap isName nameIsGap origin]
    rfl
  | @symbols lead list behind fromGap blank _ leadBlank isList behindBlank fromIsGap isBlank =>
    have origin := origin?_append isQuote noQuote nonempty fromIsGap isBlank
    have inside : '}' ∉ list := by
      intro member
      cases isList.inList _ member
    have begins (rest : List Char) : skipSpace (lead ++ '{' :: (list ++ '}' :: (behind ++
        ("from".toList ++ fromGap))) ++ rest) =
          '{' :: (list ++ '}' :: (behind ++ ("from".toList ++ (fromGap ++ rest)))) := by
      rw [List.append_assoc, Modifier.skipSpace_append_of_blank leadBlank, skipSpace_of_visible]
      · simp only [List.append_assoc, List.cons_append]
      · rintro c ⟨⟩
        rfl
    have brace (rest : List Char) : (skipSpace (lead ++ '{' :: (list ++ '}' :: (behind ++
        ("from".toList ++ fromGap))) ++ rest)).head? = some '{' := by
      rw [begins]
      rfl
    rw [clause?_of_brace (brace _), someSymbols?_eq (begins _) inside,
      skipSpace_append_word behindBlank isName_from, origin, isList.symbolsOf_eq]
    rfl

end Forms

/-- The first word of an import ends where its form begins. -/
theorem IsForm.apart
    {front back : List Char} {localName : Option (List Char)} {symbols : List ImportedSymbol}
    (isForm : IsForm front back localName symbols)
    (rest : List Char) :
    Modifier.Apart (front ++ rest) := by
  cases isForm with
  | file isGap _ => exact isGap.apart rest
  | fileAs isGap _ _ _ _ => exact isGap.apart rest
  | everything isGap _ _ _ _ _ _ =>
    rw [List.append_assoc]
    exact isGap.apart _
  | symbols leadBlank _ _ _ _ =>
    rw [List.append_assoc]
    exact Modifier.apart_of_blank leadBlank (Modifier.apart_cons rfl _)

end ImportDecl

/-! ## The item of an import -/

namespace Lexeme

/-- Characters of code without slashes and quotes form a row, whatever follows them. -/
theorem row_code
    {text : List Char}
    (noSlash : '/' ∉ text)
    (noQuote : ∀ quote, IsQuote quote → quote ∉ text)
    (following : Option Char) :
    Row (text.map code) following := by
  induction text with
  | nil => trivial
  | cons c text ih =>
    rw [List.mem_cons, not_or] at noSlash
    have textNoQuote : ∀ quote, IsQuote quote → quote ∉ text :=
      fun quote isQuote member => noQuote quote isQuote (List.mem_cons_of_mem c member)
    refine ⟨fun isQuote => noQuote c isQuote List.mem_cons_self, ?_, ih noSlash.2 textNoQuote⟩
    rintro rfl
    exact absurd rfl noSlash.1

theorem LiteralBody.of_forall
    {quote : Char} {body : List Char}
    (noQuote : quote ∉ body)
    (noLineFeed : '\n' ∉ body)
    (noBackslash : '\\' ∉ body) :
    LiteralBody quote body := by
  induction body with
  | nil => exact .nil
  | cons c body ih =>
    rw [List.mem_cons, not_or] at noQuote noLineFeed noBackslash
    exact .plain (Ne.symm noQuote.1) (Ne.symm noLineFeed.1) (Ne.symm noBackslash.1)
      (ih noQuote.2 noLineFeed.2 noBackslash.2)

/-- Of a literal only the quotes are seen, whatever it holds. -/
theorem isClear_literal
    {quote : Char}
    (isQuote : IsQuote quote)
    (body : List Char) :
    Item.Clear ((literal quote body).glyphs.map Glyph.shown) := by
  have mark : Item.Clear [quote] := by
    rcases isQuote with rfl | rfl <;> exact ⟨by decide, by decide, by decide⟩
  have hidden : Item.Clear (body.map fun c => (Glyph.blanked c).shown) := by
    refine .of_blank (List.forall_mem_map.2 fun c _ => ?_)
    unfold Glyph.blanked
    by_cases lineFeed : c = '\n' <;> simp [lineFeed, isSpace]
  have whole := mark.append (hidden.append mark)
  simpa [glyphs, Function.comp_def] using whole

/-- A literal between plain texts is blanked up to its quotes. -/
theorem glyphs_of_literal
    {quote : Char} {front body back : List Char}
    (frontIsPlain : ImportDecl.IsPlain front)
    (isQuote : IsQuote quote)
    (isBody : LiteralBody quote body)
    (backIsPlain : ImportDecl.IsPlain back) :
    ContractDoc.glyphs (front ++ quote :: (body ++ quote :: (back ++ [';']))) =
      .ok (front.map Glyph.kept ++ ((literal quote body).glyphs ++
        (back ++ [';']).map Glyph.kept)) := by
  refine glyphs_eq_ok_iff.2
    ⟨front.map code ++ literal quote body :: (back ++ [';']).map code, ?_, ?_⟩
  · refine read_eq_ok_iff.2 ⟨by simp [List.flatMap_map, raw], row_append.2 ⟨?_, ?_⟩⟩
    · exact row_code frontIsPlain.noSlash frontIsPlain.noQuote _
    · refine ⟨⟨isQuote, isBody⟩, trivial, row_code ?_ ?_ _⟩
      · simp [backIsPlain.noSlash]
      · intro quote isQuote
        refine List.not_mem_append (backIsPlain.noQuote quote isQuote) ?_
        rcases isQuote with rfl | rfl <;> decide
  · simp [List.flatMap_map, glyphs, ← List.map_eq_flatMap]

end Lexeme

/-- An import whose only semicolon is at its end is one item. -/
theorem Item.IsText.of_import
    {front : List Char}
    (begins : "import".toList <+: front)
    (nested : Bracket.Nested front)
    (noSemicolon : ';' ∉ front) :
    IsText (front ++ [';']) := by
  refine .of_semicolon nested ?_ ?_
  · obtain ⟨rest, rfl⟩ := begins
    rintro c ⟨⟩
    rfl
  · rintro part early ⟨-, last | ⟨-, notImport⟩⟩
    · exact noSemicolon (early.subset (List.mem_of_getLast? last))
    · exact notImport (begins.trans (List.prefix_append _ _))

namespace ImportDecl

/-- An import as it is written, in one of its forms, with a path between quotes. -/
structure Spelling where
  quote : Char
  path : List Char
  front : List Char
  back : List Char
  localName : Option (List Char)
  symbols : List ImportedSymbol
  isQuote : Lexeme.IsQuote quote
  nonempty : path ≠ []
  noQuote : quote ∉ path
  noLineFeed : '\n' ∉ path
  noBackslash : '\\' ∉ path
  isForm : IsForm front back localName symbols

namespace Spelling

variable (statement : Spelling)

/-- The text of an import. -/
def text : List Char :=
  "import".toList ++ (statement.front ++
    statement.quote :: (statement.path ++ statement.quote :: statement.back))

/-- The import that is written, at the start of a file. -/
def decl : ImportDecl where
  path := String.ofList statement.path
  localName := statement.localName.map String.ofList
  symbols := statement.symbols
  start := 0
  line := 1

theorem text_eq : statement.text = "import".toList ++ (statement.front ++
    statement.quote :: (statement.path ++ statement.quote :: statement.back)) := rfl

/-- The parts of an import that is written, with its semicolon at the end. -/
theorem exists_parts :
    ∃ tail, IsPlain ("import".toList ++ statement.front) ∧ IsPlain tail ∧
      statement.text = "import".toList ++ statement.front ++
        statement.quote :: (statement.path ++ statement.quote :: (tail ++ [';'])) := by
  obtain ⟨frontIsPlain, tail, back_eq, tailIsPlain⟩ := statement.isForm.isPlain
  have word : IsPlain "import".toList :=
    @IsPlain.of_class _ isWordChar (by decide) (by decide) (List.all_eq_true.1 (by decide))
  refine ⟨tail, word.append frontIsPlain, tailIsPlain, ?_⟩
  rw [text_eq, back_eq, List.append_assoc]

/-- An import that is written is one item, of which the path is hidden in the skeleton.  Of the
path it counts only that nothing of it is seen. -/
theorem exists_topLevelItems :
    ∃ item rest, topLevelItems statement.text = .ok [item] ∧ item.start = .origin ∧
      item.raw = statement.text ∧ item.shown = "import".toList ++ (statement.front ++ rest) := by
  obtain ⟨tail, frontIsPlain, tailIsPlain, parts⟩ := statement.exists_parts
  have isBody := Lexeme.LiteralBody.of_forall statement.noQuote statement.noLineFeed
    statement.noBackslash
  have read := Lexeme.glyphs_of_literal frontIsPlain statement.isQuote isBody tailIsPlain
  rw [← parts] at read
  have isClear := Lexeme.isClear_literal statement.isQuote statement.path
  generalize (Lexeme.literal statement.quote statement.path).glyphs = literal at read isClear
  have shown_eq : (("import".toList ++ statement.front).map Glyph.kept ++ (literal ++
      (tail ++ [';']).map Glyph.kept)).map Glyph.shown =
        "import".toList ++ statement.front ++ (literal.map Glyph.shown ++ tail) ++ [';'] := by
    simp [Function.comp_def]
  have isText : Item.IsText
      ("import".toList ++ statement.front ++ (literal.map Glyph.shown ++ tail) ++ [';']) := by
    refine .of_import ?_ ?_ ?_
    · rw [List.append_assoc]
      exact List.prefix_append _ _
    · exact frontIsPlain.nested.append (isClear.nested.append tailIsPlain.nested)
    · exact List.not_mem_append frontIsPlain.noSemicolon
        (List.not_mem_append isClear.noSemicolon tailIsPlain.noSemicolon)
  refine ⟨_, literal.map Glyph.shown ++ tail ++ [';'],
    topLevelItems_of_isText read (by rwa [shown_eq]), rfl, map_raw_of_glyphs read, ?_⟩
  rw [Item.shown, shown_eq]
  simp only [List.append_assoc]

end Spelling
end ImportDecl

/-- **Imports are read back.**  Each form of an import is read as one import and nothing else:
of the path that is written between the quotes, under the local name that is given, and with
the symbols of the list in their order and under their other names. -/
theorem parse_written_import (statement : ImportDecl.Spelling) :
    parse (String.ofList statement.text) = .ok ⟨[.importing statement.decl]⟩ := by
  obtain ⟨item, rest, items, start_eq, raw_eq, shown_eq⟩ := statement.exists_topLevelItems
  have isImport : startsWithWord "import".toList item.shown = true := by
    rw [shown_eq]
    exact (statement.isForm.apart rest).startsWithWord_append _
  have notPragma : ¬ startsWithWord "pragma".toList item.shown = true := by
    rw [shown_eq]
    exact Bool.false_ne_true
  have clause := statement.isForm.clause?_eq statement.isQuote statement.noQuote
    statement.nonempty
  have read : Declaration.read item = .ok (some (.importing statement.decl)) := by
    rw [Declaration.read_of_import notPragma isImport, ImportDecl.ofItem, raw_eq,
      statement.text_eq, clause]
    simp [Except.map, ImportDecl.Spelling.decl, Item.line, start_eq, Position.origin]
  refine parse_eq_ok_iff.2 ⟨_, ?_, _, mapM_eq_ok_iff.2 (.cons read .nil), rfl⟩
  rw [String.toList_ofList]
  exact items

namespace ImportDecl

/-- Two symbols, of which the second one is given another name. -/
theorem isForm_symbols :
    IsForm " \x7bA, $b as C\x7d from ".toList " ;".toList none
      [⟨"A", none⟩, ⟨"$b", some "C"⟩] := by
  have isGap := isGap_space
  have nothing : ∀ c ∈ ([] : List Char), isSpace c = true := List.forall_mem_nil _
  have first := @IsEntry.named [] ['A'] [] nothing rfl nothing
  have second := @IsEntry.renamed [' '] ['$', 'b'] [' '] [' '] ['C'] [] isGap.blank rfl isGap isGap
    rfl nothing
  exact .symbols isGap.blank (.more first (.last second)) isGap.blank isGap isGap.blank

/-- An import of these symbols, whose path looks like code and like comments. -/
def Spelling.confusing : Spelling where
  quote := '\''
  path := "./a;\x7b\x7d/*b from \"c\" as import //".toList
  front := " \x7bA, $b as C\x7d from ".toList
  back := " ;".toList
  localName := none
  symbols := [⟨"A", none⟩, ⟨"$b", some "C"⟩]
  isQuote := .inr rfl
  nonempty := by decide
  noQuote := by decide
  noLineFeed := by decide
  noBackslash := by decide
  isForm := isForm_symbols

end ImportDecl

/-- The import is read back with its path and its symbols. -/
theorem confusing_import_read_back :
    parse "import \x7bA, $b as C\x7d from './a;\x7b\x7d/*b from \"c\" as import //' ;" =
      .ok ⟨[.importing {
        path := "./a;\x7b\x7d/*b from \"c\" as import //"
        localName := none
        symbols := [⟨"A", none⟩, ⟨"$b", some "C"⟩]
        start := 0
        line := 1 }]⟩ :=
  parse_written_import .confusing

end ContractDoc
