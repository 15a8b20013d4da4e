import ContractDoc.Proofs.Source.Uncommented
import ContractDoc.Proofs.Tree.Read

/-!
# Comments in pragmas and imports

Pragmas and imports are read from the source and not from the skeleton.  Here their texts
are compared with the same texts after blanking.

In the forms of a pragma and of an import, slashes and braces have few places.  If both
texts are read the same, they have equally many slashes in the value or in the path; then
there was no comment at all, or there were comments in the list of symbols only.
-/

namespace ContractDoc

open Text

theorem skipSpace_of_skipSpace1?
    {text rest : List Char}
    (skipped : skipSpace1? text = some rest) :
    skipSpace text = rest := by
  unfold skipSpace1? at skipped
  split at skipped
  · exact Option.some.inj skipped
  · cases skipped

/-- The first visible character stays, unless it begins a comment. -/
theorem Blanked.exists_skipSpace
    {text bare more : List Char} {c : Char}
    (blanked : Blanked text bare)
    (begins : skipSpace text = c :: more)
    (notSlash : c ≠ '/') :
    ∃ bareMore, bare = text.takeWhile isSpace ++ c :: bareMore ∧ Blanked more bareMore := by
  have whole : (text.takeWhile isSpace ++ [c]) ++ more = text := by
    rw [List.append_assoc, List.singleton_append, ← begins]
    exact List.takeWhile_append_dropWhile
  have noSlash : '/' ∉ text.takeWhile isSpace ++ [c] := by
    intro member
    rcases List.mem_append.1 member with space | here
    · cases List.mem_takeWhile_imp space
    · exact notSlash (List.mem_singleton.1 here).symm
  rw [← whole] at blanked
  obtain ⟨bareMore, rfl, rest⟩ := blanked.exists_append noSlash
  exact ⟨bareMore, by simp, rest⟩

theorem Blanked.head?_skipSpace
    {text bare : List Char} {c : Char}
    (blanked : Blanked text bare)
    (head : (skipSpace text).head? = some c)
    (notSlash : c ≠ '/') :
    (skipSpace bare).head? = some c := by
  obtain ⟨more, begins⟩ := List.head?_eq_some_iff.1 head
  obtain ⟨bareMore, bareEq, -⟩ := blanked.exists_skipSpace begins notSlash
  have visible : isSpace c = false := by
    have stops := List.head?_dropWhile_not isSpace text
    rw [show (text.dropWhile isSpace).head? = some c from head] at stops
    simpa using stops
  rw [bareEq, skipSpace, List.dropWhile_append_of_pos fun d member => List.mem_takeWhile_imp member,
    List.dropWhile_cons_of_neg (by simp [visible])]
  rfl

/-! ## Counting characters -/

/-- The characters to count: slashes tell comments, closing braces end lists. -/
def IsMark (c : Char) : Prop :=
  c = '/' ∨ c = '}'

namespace IsMark

variable {c : Char} (mark : IsMark c)

include mark

theorem isSpace : isSpace c = false := by
  rcases mark with rfl | rfl <;> rfl

theorem isWordChar : isWordChar c = false := by
  rcases mark with rfl | rfl <;> rfl

theorem ne_of_isQuote {quote : Char} (isQuote : quote = '"' ∨ quote = '\'') : quote ≠ c := by
  rcases mark with rfl | rfl <;> rcases isQuote with rfl | rfl <;> decide

omit mark in
theorem count_dropWhile
    {isPassed : Char → Bool} (stops : isPassed c = false) (text : List Char) :
    (text.dropWhile isPassed).count c = text.count c := by
  have passed : (text.takeWhile isPassed).count c = 0 := by
    rw [List.count_eq_zero]
    intro member
    have held := List.mem_takeWhile_imp member
    rw [stops] at held
    cases held
  calc (text.dropWhile isPassed).count c
      = (text.takeWhile isPassed).count c + (text.dropWhile isPassed).count c := by
        rw [passed, Nat.zero_add]
    _ = text.count c := by
        rw [← List.count_append, List.takeWhile_append_dropWhile]

theorem count_skipSpace (text : List Char) : (skipSpace text).count c = text.count c :=
  count_dropWhile mark.isSpace text

theorem count_afterWord (text : List Char) : (afterWord text).count c = text.count c :=
  count_dropWhile mark.isWordChar text

theorem count_strip (text : List Char) : (strip text).count c = text.count c := by
  rw [strip, dropTrailingSpace, List.count_reverse, count_dropWhile mark.isSpace,
    List.count_reverse, mark.count_skipSpace]

theorem count_of_skipSpace1?
    {text rest : List Char}
    (skipped : skipSpace1? text = some rest) :
    rest.count c = text.count c := by
  rw [← skipSpace_of_skipSpace1? skipped, mark.count_skipSpace]

end IsMark

/-! ## Pragmas -/

namespace PragmaDecl

/-- The slashes of a pragma stand in its value. -/
theorem count_of_parts?
    {text rest name value : List Char}
    (word : text = "pragma".toList ++ rest)
    (found : parts? text = some (name, value)) :
    text.count '/' = value.count '/' := by
  have slash : IsMark '/' := .inl rfl
  obtain ⟨body, skipped, found⟩ := Option.bind_eq_some_iff.1 found
  dsimp only at found
  split at found
  · cases found
  · next complete =>
    cases found
    have behind : text.drop "pragma".length = rest := by
      rw [word]
      rfl
    rw [behind] at skipped
    simp only [Bool.or_eq_true, bne_iff_ne, ne_eq, not_or, not_not] at complete
    have last : ∀ c ∈ (afterWord body).getLast?, c = ';' := by
      intro c member
      have suffix : afterWord body <:+ text := by
        rw [word]
        refine (List.dropWhile_suffix _).trans ?_
        rw [← skipSpace_of_skipSpace1? skipped]
        exact (List.dropWhile_suffix _).trans (List.suffix_append _ _)
      obtain ⟨front, whole⟩ := suffix
      rw [← whole, List.getLast?_append, member] at complete
      exact Option.some.inj complete.2
    have shorter : (afterWord body).dropLast.count '/' = (afterWord body).count '/' := by
      rcases List.eq_nil_or_concat' (afterWord body) with empty | ⟨front, c, whole⟩
      · rw [empty]
        rfl
      · rw [whole, List.getLast?_concat] at last
        rw [whole, last c rfl, List.dropLast_concat, List.count_append]
        rfl
    rw [slash.count_strip, shorter, slash.count_afterWord, slash.count_of_skipSpace1? skipped,
      word, List.count_append, List.count_eq_zero.2 (by decide), Nat.zero_add]

/-- A pragma is read the same without its comments if it has none or is malformed. -/
theorem parts?_eq_iff
    {text rest bare : List Char}
    (word : text = "pragma".toList ++ rest)
    (blanked : Blanked text bare) :
    parts? bare = parts? text ↔
      bare = text ∨ parts? bare = none ∧ parts? text = none := by
  constructor
  · intro same
    cases found : parts? text with
    | none =>
      rw [found] at same
      exact .inr ⟨same, rfl⟩
    | some parts =>
      rw [found] at same
      have starts := blanked
      rw [word] at starts
      obtain ⟨bareRest, bareWord, -⟩ := starts.exists_append (by decide)
      refine .inl (blanked.eq_of_count_eq ?_)
      rw [count_of_parts? word found, count_of_parts? bareWord same]
  · rintro (rfl | ⟨bareMalformed, malformed⟩)
    · rfl
    · rw [bareMalformed, malformed]

end PragmaDecl

/-! ## Imports -/

namespace ImportDecl

theorem eq_append_of_afterKeyword?
    {word : String} {text rest : List Char}
    (found : afterKeyword? word text = some rest) :
    text = word.toList ++ rest := by
  unfold afterKeyword? at found
  split at found
  · next starts =>
    cases found
    obtain ⟨rest, rfl⟩ := List.isPrefixOf_iff_prefix.1 starts
    rw [← String.length_toList, List.drop_left]
  · cases found

/-- The parts of a quoted path. -/
theorem exists_of_pathBefore?
    {α : Type} {quote : Char} {ending : List Char → Option α} {before text path : List Char}
    {value : α}
    (found : pathBefore? quote ending before text = some (path, value)) :
    ∃ middle rest, text = middle ++ quote :: rest ∧ path = before.reverse ++ middle ∧
      ending rest = some value := by
  induction text generalizing before with
  | nil => cases found
  | cons c text ih =>
    rw [pathBefore?] at found
    split at found
    · next accepted =>
      cases found
      split at accepted
      · next here =>
        obtain ⟨rfl, -⟩ := here
        exact ⟨[], text, rfl, by simp, accepted⟩
      · cases accepted
    · obtain ⟨middle, rest, rfl, rfl, accepted⟩ := ih found
      exact ⟨c :: middle, rest, rfl, by simp, accepted⟩

theorem exists_of_quotedPath?
    {α : Type} {ending : List Char → Option α} {text path : List Char} {value : α}
    (found : quotedPath? ending text = some (path, value)) :
    ∃ quote rest, text = quote :: (path ++ quote :: rest) ∧ (quote = '"' ∨ quote = '\'') ∧
      ending rest = some value := by
  rcases text with _ | ⟨quote, text⟩
  · cases found
  · rw [quotedPath?] at found
    split at found
    · next isQuote =>
      obtain ⟨middle, rest, rfl, rfl, accepted⟩ := exists_of_pathBefore? found
      exact ⟨quote, rest, rfl, isQuote, accepted⟩
    · cases found

section Count

variable {c : Char} (mark : IsMark c)

include mark

theorem count_of_name?
    {text name rest : List Char}
    (found : name? text = some (name, rest)) :
    rest.count c = text.count c := by
  unfold name? at found
  split at found
  · cases found
  · cases found
    exact mark.count_afterWord text

omit mark in
theorem count_of_afterKeyword?
    {word : String} {text rest : List Char}
    (absent : c ∉ word.toList)
    (found : afterKeyword? word text = some rest) :
    rest.count c = text.count c := by
  rw [eq_append_of_afterKeyword? found, List.count_append, List.count_eq_zero.2 absent,
    Nat.zero_add]

theorem count_of_semicolon?
    {text : List Char} {found : Unit}
    (accepted : semicolon? text = some found) :
    text.count c = 0 := by
  unfold semicolon? at accepted
  split at accepted
  · next only =>
    rw [← mark.count_skipSpace, only]
    rcases mark with rfl | rfl <;> rfl
  · cases accepted

theorem count_of_optionalName?
    {text : List Char} {localName : Option (List Char)}
    (accepted : optionalName? text = some localName) :
    text.count c = 0 := by
  have absent : c ∉ "as".toList := by
    rcases mark with rfl | rfl <;> decide
  unfold optionalName? at accepted
  split at accepted
  · next only =>
    rw [← mark.count_skipSpace, only]
    rcases mark with rfl | rfl <;> rfl
  · obtain ⟨afterAs, isAs, accepted⟩ := Option.bind_eq_some_iff.1 accepted
    obtain ⟨body, skipped, accepted⟩ := Option.bind_eq_some_iff.1 accepted
    obtain ⟨⟨name, rest⟩, isName, accepted⟩ := Option.bind_eq_some_iff.1 accepted
    obtain ⟨found, ends, -⟩ := Option.bind_eq_some_iff.1 accepted
    rw [← mark.count_skipSpace, ← count_of_afterKeyword? absent isAs,
      ← mark.count_of_skipSpace1? skipped, ← count_of_name? mark isName,
      count_of_semicolon? mark ends]

theorem count_of_quotedPath?
    {α : Type} {ending : List Char → Option α} {text path : List Char} {value : α}
    (none : ∀ rest value, ending rest = some value → rest.count c = 0)
    (found : quotedPath? ending text = some (path, value)) :
    text.count c = path.count c := by
  obtain ⟨quote, rest, rfl, isQuote, accepted⟩ := exists_of_quotedPath? found
  have notMark := mark.ne_of_isQuote isQuote
  rw [List.count_cons_of_ne notMark, List.count_append, List.count_cons_of_ne notMark,
    none rest value accepted, Nat.add_zero]

theorem count_of_origin?
    {text path : List Char}
    (found : origin? text = some path) :
    text.count c = path.count c := by
  have absent : c ∉ "from".toList := by
    rcases mark with rfl | rfl <;> decide
  obtain ⟨afterFrom, isFrom, found⟩ := Option.bind_eq_some_iff.1 found
  obtain ⟨body, skipped, found⟩ := Option.bind_eq_some_iff.1 found
  obtain ⟨⟨path, accepted⟩, isPath, same⟩ := Option.bind_eq_some_iff.1 found
  cases same
  rw [← count_of_afterKeyword? absent isFrom, ← mark.count_of_skipSpace1? skipped]
  exact count_of_quotedPath? mark (fun _ _ => count_of_semicolon? mark) isPath

end Count

/-- The slashes of an import of a whole file stand in its path. -/
theorem count_of_wholeFile?
    {text : List Char} {clause : Clause}
    (found : wholeFile? text = some clause) :
    text.count '/' = clause.path.count '/' := by
  have slash : IsMark '/' := .inl rfl
  obtain ⟨body, skipped, found⟩ := Option.bind_eq_some_iff.1 found
  obtain ⟨⟨path, localName⟩, isPath, same⟩ := Option.bind_eq_some_iff.1 found
  cases same
  rw [← slash.count_of_skipSpace1? skipped]
  exact count_of_quotedPath? slash (fun _ _ => count_of_optionalName? slash) isPath

/-- The slashes of an import of everything stand in its path. -/
theorem count_of_everything?
    {text : List Char} {clause : Clause}
    (found : everything? text = some clause) :
    text.count '/' = clause.path.count '/' := by
  have slash : IsMark '/' := .inl rfl
  obtain ⟨body, skipped, found⟩ := Option.bind_eq_some_iff.1 found
  obtain ⟨afterStar, isStar, found⟩ := Option.bind_eq_some_iff.1 found
  obtain ⟨afterAs, isAs, found⟩ := Option.bind_eq_some_iff.1 found
  obtain ⟨behindAs, skippedAs, found⟩ := Option.bind_eq_some_iff.1 found
  obtain ⟨⟨name, rest⟩, isName, found⟩ := Option.bind_eq_some_iff.1 found
  obtain ⟨behindName, skippedName, found⟩ := Option.bind_eq_some_iff.1 found
  obtain ⟨path, isOrigin, same⟩ := Option.bind_eq_some_iff.1 found
  cases same
  calc text.count '/'
      = afterStar.count '/' := by
        rw [← slash.count_of_skipSpace1? skipped, count_of_afterKeyword? (by decide) isStar]
    _ = afterAs.count '/' := by
        rw [← slash.count_skipSpace, count_of_afterKeyword? (by decide) isAs]
    _ = behindName.count '/' := by
        rw [← slash.count_of_skipSpace1? skippedAs, ← count_of_name? slash isName,
          slash.count_of_skipSpace1? skippedName]
    _ = path.count '/' := count_of_origin? slash isOrigin

/-- The symbols of a list. -/
def symbolsOf (list : List Char) : List ImportedSymbol :=
  (segments ',' list).filterMap symbol?

theorem takeWhile_dropWhile_list
    {list : List Char} (inside : '}' ∉ list) (rest : List Char) :
    (list ++ '}' :: rest).takeWhile (· != '}') = list ∧
      (list ++ '}' :: rest).dropWhile (· != '}') = '}' :: rest := by
  have passed : ∀ c ∈ list, (c != '}') = true := fun c member =>
    bne_iff_ne.2 (ne_of_mem_of_not_mem member inside)
  rw [List.takeWhile_append_of_pos passed, List.dropWhile_append_of_pos passed]
  exact ⟨by simp, rfl⟩

/-- What follows the list of an import of symbols names its origin. -/
theorem someSymbols?_eq
    {text list rest : List Char}
    (begins : skipSpace text = '{' :: (list ++ '}' :: rest))
    (inside : '}' ∉ list) :
    someSymbols? text =
      (origin? (skipSpace rest)).map fun path => ⟨path, none, symbolsOf list⟩ := by
  have opening (text : List Char) : afterKeyword? "\x7b" ('{' :: text) = some text := rfl
  have closing (text : List Char) : afterKeyword? "\x7d" ('}' :: text) = some text := rfl
  obtain ⟨taken, dropped⟩ := takeWhile_dropWhile_list inside rest
  rw [someSymbols?, begins, opening]
  simp only [Option.bind_eq_bind, Option.bind_some, taken, dropped, closing]
  cases origin? (skipSpace rest) <;> rfl

/-- An import of symbols has a list in braces. -/
theorem exists_of_someSymbols?
    {text : List Char} {clause : Clause}
    (found : someSymbols? text = some clause) :
    ∃ list rest, skipSpace text = '{' :: (list ++ '}' :: rest) ∧ '}' ∉ list ∧
      origin? (skipSpace rest) = some clause.path ∧ clause.symbols = symbolsOf list := by
  obtain ⟨inside, opened, found⟩ := Option.bind_eq_some_iff.1 found
  obtain ⟨afterList, closed, found⟩ := Option.bind_eq_some_iff.1 found
  obtain ⟨path, isOrigin, same⟩ := Option.bind_eq_some_iff.1 found
  cases same
  have split : inside.takeWhile (· != '}') ++ '}' :: afterList = inside := by
    calc inside.takeWhile (· != '}') ++ '}' :: afterList
        = inside.takeWhile (· != '}') ++ inside.dropWhile (· != '}') := by
          rw [eq_append_of_afterKeyword? closed]
          rfl
      _ = inside := List.takeWhile_append_dropWhile
  refine ⟨inside.takeWhile (· != '}'), afterList, ?_, ?_, isOrigin, rfl⟩
  · rw [eq_append_of_afterKeyword? opened, split]
    rfl
  · intro member
    simpa using List.mem_takeWhile_imp member

theorem clause?_eq_or (rest : List Char) :
    clause? ("import".toList ++ rest) =
      (wholeFile? rest).or ((everything? rest).or (someSymbols? rest)) := by
  have behind : ("import".toList ++ rest).drop "import".length = rest := rfl
  rw [clause?, behind]
  cases wholeFile? rest with
  | some clause => rfl
  | none => cases everything? rest <;> rfl

/-- The first visible character behind the word tells the form of an import. -/
theorem clause?_cases
    {rest : List Char} {clause : Clause}
    (found : clause? ("import".toList ++ rest) = some clause) :
    (((skipSpace rest).head? = some '"' ∨ (skipSpace rest).head? = some '\'') ∧
        wholeFile? rest = some clause) ∨
      ((skipSpace rest).head? = some '*' ∧ everything? rest = some clause) ∨
        ((skipSpace rest).head? = some '{' ∧ someSymbols? rest = some clause) := by
  rw [clause?_eq_or] at found
  rcases Option.or_eq_some_iff.1 found with isWhole | ⟨-, found⟩
  · obtain ⟨body, skipped, found⟩ := Option.bind_eq_some_iff.1 isWhole
    obtain ⟨⟨path, localName⟩, isPath, -⟩ := Option.bind_eq_some_iff.1 found
    obtain ⟨quote, more, rfl, isQuote, -⟩ := exists_of_quotedPath? isPath
    rw [skipSpace_of_skipSpace1? skipped]
    refine .inl ⟨?_, isWhole⟩
    rcases isQuote with rfl | rfl
    · exact .inl rfl
    · exact .inr rfl
  · rcases Option.or_eq_some_iff.1 found with isEverything | ⟨-, isList⟩
    · obtain ⟨body, skipped, found⟩ := Option.bind_eq_some_iff.1 isEverything
      obtain ⟨afterStar, isStar, -⟩ := Option.bind_eq_some_iff.1 found
      rw [skipSpace_of_skipSpace1? skipped, eq_append_of_afterKeyword? isStar]
      exact .inr (.inl ⟨rfl, isEverything⟩)
    · obtain ⟨list, more, begins, -, -, -⟩ := exists_of_someSymbols? isList
      rw [begins]
      exact .inr (.inr ⟨rfl, isList⟩)

/-- An import with a list of symbols is read as such. -/
theorem clause?_of_brace
    {rest : List Char}
    (brace : (skipSpace rest).head? = some '{') :
    clause? ("import".toList ++ rest) = someSymbols? rest := by
  cases found : clause? ("import".toList ++ rest) with
  | none =>
    rw [clause?_eq_or, Option.or_eq_none_iff, Option.or_eq_none_iff] at found
    exact found.2.2.symm
  | some clause =>
    rcases clause?_cases found with ⟨quote | quote, -⟩ | ⟨star, -⟩ | ⟨-, isList⟩
    · rw [brace] at quote
      cases quote
    · rw [brace] at quote
      cases quote
    · rw [brace] at star
      cases star
    · exact isList.symm

/-- Two texts of an import that differ in the list of symbols only, and in which the lists
have the same symbols. -/
def SameButList (text other : List Char) : Prop :=
  ∃ blanks list otherList rest,
    text = "import".toList ++ (blanks ++ '{' :: (list ++ '}' :: rest)) ∧
    other = "import".toList ++ (blanks ++ '{' :: (otherList ++ '}' :: rest)) ∧
    (∀ c ∈ blanks, isSpace c = true) ∧ '}' ∉ list ∧ '}' ∉ otherList ∧
    symbolsOf list = symbolsOf otherList

theorem SameButList.clause?_eq
    {text other : List Char}
    (same : SameButList text other) :
    clause? other = clause? text := by
  obtain ⟨blanks, list, otherList, rest, rfl, rfl, allBlank, inside, otherInside, symbols⟩ := same
  have begins (list : List Char) :
      skipSpace (blanks ++ '{' :: (list ++ '}' :: rest)) = '{' :: (list ++ '}' :: rest) := by
    rw [skipSpace, List.dropWhile_append_of_pos allBlank]
    rfl
  have brace (list : List Char) :
      (skipSpace (blanks ++ '{' :: (list ++ '}' :: rest))).head? = some '{' := by
    rw [begins]
    rfl
  rw [clause?_of_brace (brace list), clause?_of_brace (brace otherList),
    someSymbols?_eq (begins list) inside, someSymbols?_eq (begins otherList) otherInside, symbols]

/-- Behind the word, an import is read without its comments in the form it has with them,
and its path and its symbols are the same only if there are comments in a list of symbols
only. -/
theorem eq_or_sameButList_of_clause?
    {rest bareRest : List Char} {clause : Clause}
    (blanked : Blanked rest bareRest)
    (found : clause? ("import".toList ++ rest) = some clause)
    (bareFound : clause? ("import".toList ++ bareRest) = some clause) :
    bareRest = rest ∨
      SameButList ("import".toList ++ rest) ("import".toList ++ bareRest) := by
  have slash : IsMark '/' := .inl rfl
  have brace : IsMark '}' := .inr rfl
  have head {c : Char} (begins : (skipSpace rest).head? = some c) (notSlash : c ≠ '/') :
      (skipSpace bareRest).head? = some c :=
    blanked.head?_skipSpace begins notSlash
  have bareForm := clause?_cases bareFound
  rcases clause?_cases found with ⟨quote, isWhole⟩ | ⟨star, isEverything⟩ | ⟨begins, isList⟩
  · have bareWhole : wholeFile? bareRest = some clause := by
      rcases quote with quote | quote <;> simpa [head quote (by decide)] using bareForm
    refine .inl (blanked.eq_of_count_eq ?_)
    rw [count_of_wholeFile? isWhole, count_of_wholeFile? bareWhole]
  · have bareEverything : everything? bareRest = some clause := by
      simpa [head star (by decide)] using bareForm
    refine .inl (blanked.eq_of_count_eq ?_)
    rw [count_of_everything? isEverything, count_of_everything? bareEverything]
  · have isBareList : someSymbols? bareRest = some clause := by
      simpa [head begins (by decide)] using bareForm
    right
    obtain ⟨list, behind, listEq, inside, isOrigin, symbols⟩ := exists_of_someSymbols? isList
    obtain ⟨bareList, bareBehind, bareListEq, bareInside, bareOrigin, bareSymbols⟩ :=
      exists_of_someSymbols? isBareList
    obtain ⟨more, bareEq, blankedMore⟩ := blanked.exists_skipSpace listEq (by decide)
    have allBlank : ∀ c ∈ rest.takeWhile isSpace, isSpace c = true := fun c member =>
      List.mem_takeWhile_imp member
    obtain rfl : more = bareList ++ '}' :: bareBehind := by
      rw [bareEq, skipSpace, List.dropWhile_append_of_pos allBlank] at bareListEq
      exact (List.cons.inj bareListEq).2
    have bracesSame : (bareList ++ '}' :: bareBehind).count '}' =
        (list ++ '}' :: behind).count '}' := by
      rw [List.count_append, List.count_append, List.count_eq_zero.2 inside,
        List.count_eq_zero.2 bareInside, List.count_cons_self, List.count_cons_self,
        ← brace.count_skipSpace bareBehind, ← brace.count_skipSpace behind,
        count_of_origin? brace isOrigin, count_of_origin? brace bareOrigin]
    have blankedBehind := (blankedMore.takeWhile_dropWhile rfl (by decide) bracesSame).2
    rw [(takeWhile_dropWhile_list inside behind).2,
      (takeWhile_dropWhile_list bareInside bareBehind).2] at blankedBehind
    obtain ⟨-, rfl⟩ := List.cons.inj <| blankedBehind.eq_of_count_eq <| by
      rw [List.count_cons_of_ne (by decide), List.count_cons_of_ne (by decide),
        ← slash.count_skipSpace bareBehind, ← slash.count_skipSpace behind,
        count_of_origin? slash isOrigin, count_of_origin? slash bareOrigin]
    refine ⟨rest.takeWhile isSpace, list, bareList, bareBehind, ?_, ?_, allBlank, inside,
      bareInside, symbols.symm.trans bareSymbols⟩
    · rw [← listEq, skipSpace, List.takeWhile_append_dropWhile]
    · rw [bareEq]

/-- An import is read the same without its comments if it has none, if it is malformed, or
if they stand in the list and do not change its symbols. -/
theorem clause?_eq_iff
    {text rest bare : List Char}
    (word : text = "import".toList ++ rest)
    (blanked : Blanked text bare) :
    clause? bare = clause? text ↔
      bare = text ∨ (clause? bare = none ∧ clause? text = none) ∨ SameButList text bare := by
  constructor
  · intro same
    cases found : clause? text with
    | none =>
      rw [found] at same
      exact .inr (.inl ⟨same, rfl⟩)
    | some clause =>
      rw [word] at blanked
      obtain ⟨bareRest, rfl, blankedRest⟩ := blanked.exists_append (by decide)
      rw [found] at same
      rw [word] at found
      rcases eq_or_sameButList_of_clause? blankedRest found same with rfl | sameButList
      · exact .inl word.symm
      · rw [word]
        exact .inr (.inr sameButList)
  · rintro (rfl | ⟨bareMalformed, malformed⟩ | sameButList)
    · rfl
    · rw [bareMalformed, malformed]
    · exact sameButList.clause?_eq

end ImportDecl
end ContractDoc
