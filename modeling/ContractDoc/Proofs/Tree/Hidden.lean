import ContractDoc.Proofs.Source.Cut
import ContractDoc.Proofs.Source.Lexeme
import ContractDoc.Proofs.Tree.Modifiers
import Mathlib.Data.List.Infix

/-!
# Hidden functions

A function is kept out of the documentation by a word behind its parameters.  The word
counts if it stands in the row of words with which the header begins.  A header that
is such a row hides its function exactly if it has one of these words; behind a
character that no row has, or behind arguments with a brace, the words are lost.
-/

namespace ContractDoc

open Text

namespace Modifier

/-! ## Words outside of brackets -/

/-- A word stands in a text outside of all brackets, and no longer word holds it. -/
def StandsIn (word text : List Char) : Prop :=
  ∃ front back,
    text = front ++ (word ++ back) ∧ front.foldlM Bracket.track [] = some [] ∧
      (∀ c ∈ front.getLast?, isNameChar c = false) ∧ Apart back

section Stands

variable {word row : List Char} {words : List (List Char)}

theorem IsName.foldlM_track
    {name : List Char}
    (isName : IsName name)
    (unclosed : List Bracket) :
    name.foldlM Bracket.track unclosed = some unclosed :=
  Bracket.foldlM_track_of_forall fun c member =>
    track_of_isNameChar (isName.inName c member)

theorem foldlM_track_of_blank
    {spaces : List Char}
    (blank : ∀ c ∈ spaces, isSpace c = true)
    (unclosed : List Bracket) :
    spaces.foldlM Bracket.track unclosed = some unclosed :=
  Bracket.foldlM_track_of_forall fun c member => Bracket.track_of_isSpace (blank c member)

/-- A word with arguments leaves no brackets open. -/
theorem foldlM_track_call
    {name spaces inside : List Char}
    (isName : IsName name)
    (blank : ∀ c ∈ spaces, isSpace c = true)
    (nested : inside.foldlM Bracket.track [] = some [])
    (rest : List Char) :
    (name ++ (spaces ++ '(' :: (inside ++ ')' :: rest))).foldlM Bracket.track [] =
      rest.foldlM Bracket.track [] := by
  rw [List.foldlM_append, isName.foldlM_track, Option.bind_eq_bind, Option.bind_some,
    List.foldlM_append, foldlM_track_of_blank blank, Option.bind_eq_bind, Option.bind_some,
    List.foldlM_cons]
  change (inside ++ ')' :: rest).foldlM Bracket.track ([] ++ [.round]) = _
  rw [List.foldlM_append, Bracket.foldlM_track_append nested]
  rfl

/-- What stands in a row stands in every longer one. -/
theorem StandsIn.append
    (stands : StandsIn word row)
    (front : List Char)
    (isName : IsName word)
    (tracked : front.foldlM Bracket.track [] = some [])
    (ended : ∀ c ∈ front.getLast?, isNameChar c = true → Apart row) :
    StandsIn word (front ++ row) := by
  obtain ⟨left, back, rfl, leftTracked, leftEnded, apart⟩ := stands
  refine ⟨front ++ left, back, by simp, ?_, ?_, apart⟩
  · rw [List.foldlM_append, tracked]
    exact leftTracked
  · intro c last
    rw [List.getLast?_append] at last
    rcases Option.or_eq_some_iff.1 last with leftLast | ⟨nothing, frontLast⟩
    · exact leftEnded c leftLast
    · obtain rfl := List.getLast?_eq_none_iff.1 nothing
      by_contra inName
      obtain ⟨d, others, rfl, inWord⟩ := isName.exists_cons
      rw [ended c frontLast (Bool.not_eq_false _ ▸ inName) d rfl] at inWord
      cases inWord

/-- The words of a row stand in it outside of brackets. -/
theorem Row.standsIn_of_mem
    (isRow : Row row words)
    (isName : IsName word)
    (member : word ∈ words) :
    StandsIn word row := by
  induction isRow with
  | nil => cases member
  | @space c row words blank _ ih =>
    refine (ih member).append [c] isName ?_ ?_
    · rw [List.foldlM_cons, Bracket.track_of_isSpace blank]
      rfl
    · intro d last inName
      obtain rfl : c = d := by simpa using last
      rw [isSpace_eq_false_of_isNameChar inName] at blank
      cases blank
  | @word name row words rowName apart _ ih =>
    rcases List.mem_cons.1 member with rfl | later
    · exact ⟨[], row, rfl, rfl, nofun, apart⟩
    · exact (ih later).append _ isName (rowName.foldlM_track []) fun _ _ _ => apart
  | @call name spaces inside row words rowName blank nested _ ih =>
    rcases List.mem_cons.1 member with rfl | later
    · exact ⟨[], _, rfl, rfl, nofun, apart_of_blank blank (apart_cons rfl _)⟩
    · have whole : name ++ (spaces ++ '(' :: (inside ++ ')' :: row)) =
          name ++ (spaces ++ '(' :: (inside ++ [')'])) ++ row := by
        simp
      rw [whole]
      refine (ih later).append _ isName (foldlM_track_call rowName blank nested []) ?_
      intro c last inName
      obtain rfl : ')' = c := by
        rw [← List.cons_append, ← List.append_assoc, ← List.append_assoc,
          List.getLast?_concat] at last
        exact Option.some.inj last
      cases inName

/-- A word at the start of a text is its first one, or stands behind it. -/
theorem first_or_behind
    {name rest front back : List Char}
    (rowName : IsName name)
    (restApart : Apart rest)
    (isName : IsName word)
    (ended : ∀ c ∈ front.getLast?, isNameChar c = false)
    (apart : Apart back)
    (same : name ++ rest = front ++ (word ++ back)) :
    word = name ∨ ∃ left, front = name ++ left ∧ rest = left ++ (word ++ back) := by
  rcases List.append_eq_append_iff.1 same with ⟨left, rfl, rest_eq⟩ | ⟨ending, rfl, rest_eq⟩
  · exact .inr ⟨left, rfl, rest_eq⟩
  · refine .inl ?_
    have empty : front = [] := by
      by_contra nonempty
      have inName := rowName.inName _
        (List.mem_append_left ending (List.getLast_mem nonempty))
      rw [ended _ (List.getLast?_eq_getLast_of_ne_nil nonempty)] at inName
      cases inName
    subst empty
    exact (apart.append_inj restApart isName.inName rowName.inName rest_eq).1

/-- A word outside of brackets that stands behind the start of arguments stands behind
their end. -/
theorem behind_arguments
    {spaces inside rest front back : List Char}
    (blank : ∀ c ∈ spaces, isSpace c = true)
    (nested : inside.foldlM Bracket.track [] = some [])
    (isName : IsName word)
    (tracked : front.foldlM Bracket.track [] = some [])
    (same : spaces ++ '(' :: (inside ++ ')' :: rest) = front ++ (word ++ back)) :
    ∃ left, front = spaces ++ '(' :: (inside ++ ')' :: left) ∧ rest = left ++ (word ++ back) := by
  obtain ⟨first, others, rfl, inName⟩ := isName.exists_cons
  rcases List.append_eq_append_iff.1 same with ⟨left, rfl, rest_eq⟩ | ⟨last, rfl, rest_eq⟩
  · cases left with
    | nil =>
      obtain ⟨rfl, -⟩ := List.cons.inj rest_eq
      cases inName
    | cons c left =>
      obtain ⟨rfl, inside_eq⟩ := List.cons.inj rest_eq
      rcases List.append_eq_append_iff.1 inside_eq with ⟨later, rfl, later_eq⟩ | ⟨within, rfl, -⟩
      · cases later with
        | nil =>
          obtain ⟨rfl, -⟩ := List.cons.inj later_eq
          cases inName
        | cons d later =>
          obtain ⟨rfl, row_eq⟩ := List.cons.inj later_eq
          exact ⟨later, rfl, row_eq⟩
      · rw [List.foldlM_append, foldlM_track_of_blank blank, Option.bind_eq_bind,
          Option.bind_some, List.foldlM_cons] at tracked
        have keeps := (Bracket.closed_of_nested nested).keepsOpen.of_prefix
          (List.prefix_append left within)
        obtain ⟨above, absurdity⟩ := Bracket.exists_append_of_keepsOpen keeps tracked
        simp at absurdity
  · cases last with
    | nil =>
      obtain ⟨rfl, -⟩ := List.cons.inj rest_eq
      cases inName
    | cons c last =>
      obtain ⟨rfl, -⟩ := List.cons.inj rest_eq
      have space := blank first (List.mem_append_right _ List.mem_cons_self)
      rw [isSpace_eq_false_of_isNameChar inName] at space
      cases space

/-- What stands in a row outside of brackets is one of its words. -/
theorem Row.mem_of_standsIn
    (isRow : Row row words)
    (isName : IsName word)
    (stands : StandsIn word row) :
    word ∈ words := by
  obtain ⟨front, back, row_eq, tracked, ended, apart⟩ := stands
  obtain ⟨first, others, word_eq, inName⟩ := isName.exists_cons
  induction isRow generalizing front with
  | nil =>
    rw [word_eq] at row_eq
    simp at row_eq
  | @space c row words blank _ ih =>
    cases front with
    | nil =>
      rw [word_eq] at row_eq
      obtain ⟨rfl, -⟩ := List.cons.inj row_eq
      rw [isSpace_eq_false_of_isNameChar inName] at blank
      cases blank
    | cons d front =>
      obtain ⟨rfl, rest_eq⟩ := List.cons.inj row_eq
      rw [List.foldlM_cons, Bracket.track_of_isSpace blank] at tracked
      exact ih front rest_eq tracked fun d last =>
        ended d (mem_getLast?_cons c last)
  | @word name row words rowName rowApart _ ih =>
    rcases first_or_behind rowName rowApart isName ended apart row_eq with rfl |
      ⟨left, rfl, rest_eq⟩
    · exact List.mem_cons_self
    · rw [List.foldlM_append, rowName.foldlM_track] at tracked
      exact List.mem_cons_of_mem _ (ih left rest_eq tracked fun d last =>
        ended d (List.mem_getLast?_append_of_mem_getLast? last))
  | @call name spaces inside row words rowName blank nested _ ih =>
    rcases first_or_behind rowName (apart_of_blank blank (apart_cons rfl _)) isName ended apart
      row_eq with rfl | ⟨left, rfl, rest_eq⟩
    · exact List.mem_cons_self
    · have leftTracked : left.foldlM Bracket.track [] = some [] := by
        rw [List.foldlM_append, rowName.foldlM_track] at tracked
        exact tracked
      obtain ⟨later, rfl, later_eq⟩ := behind_arguments blank nested isName leftTracked rest_eq
      have whole : name ++ (spaces ++ '(' :: (inside ++ ')' :: later)) =
          name ++ (spaces ++ '(' :: (inside ++ [')'])) ++ later := by
        simp
      rw [foldlM_track_call rowName blank nested] at tracked
      rw [whole] at ended
      exact List.mem_cons_of_mem _ (ih later later_eq tracked fun d last =>
        ended d (List.mem_getLast?_append_of_mem_getLast? last))

end Stands

end Modifier

/-! ## The header of a function -/

/-- The last character of an item is the one at which it may end. -/
theorem Draft.Completes.exists_concat
    {draft : Draft} {glyphs : List Glyph}
    (completes : draft.Completes glyphs) :
    ∃ front last, glyphs.map Glyph.shown = front ++ [last] ∧ (last = ';' ∨ last = '}') := by
  induction completes with
  | @ends draft glyph unclosed _ ends =>
    exact ⟨[], glyph.shown, rfl, ends.2.imp id And.left⟩
  | @goesOn draft glyph unclosed more _ _ _ ih =>
    obtain ⟨front, last, more_eq, marks⟩ := ih
    exact ⟨glyph.shown :: front, last, by rw [List.map_cons, more_eq]; rfl, marks⟩

namespace FunctionDecl

/-- A text is that of a function with a header: the text behind the parameters up to the
first brace or semicolon. -/
structure HasHeader (text signature params header : List Char) (mark : Char) : Prop where
  begins : signature ++ '(' :: (params ++ ')' :: (header ++ [mark])) <+: text
  first : '(' ∉ signature
  nested : params.foldlM Bracket.track [] = some []
  clear : ∀ c ∈ header, c ≠ '{' ∧ c ≠ '}' ∧ c ≠ ';'
  mark_eq : mark = '{' ∨ mark = ';'

/-- A text is a word, white space and what follows them. -/
theorem exists_word_append_skipSpace (text : List Char) :
    ∃ front, text = front ++ skipSpace (afterWord text) ∧
      ∀ c ∈ front, isWordChar c = true ∨ isSpace c = true := by
  refine ⟨leadingWord text ++ (afterWord text).takeWhile isSpace, ?_, ?_⟩
  · rw [List.append_assoc, skipSpace, List.takeWhile_append_dropWhile,
      leadingWord_append_afterWord]
  · intro c member
    exact (List.mem_append.1 member).imp List.mem_takeWhile_imp List.mem_takeWhile_imp

/-- What a function is read from. -/
theorem ofItem_eq_ok
    {item : Item} {decl : FunctionDecl}
    (read : ofItem item = .ok decl) :
    ∃ signature inner params fromClose returns header,
      item.shown = signature ++ '(' :: inner ∧
        (∀ c ∈ signature, isWordChar c = true ∨ isSpace c = true) ∧
          Nesting.enclosed? ('(' :: inner) = some (params, fromClose) ∧
            splitReturns? (headerOf fromClose) = some (returns, header) ∧
              decl.modifiers = Modifier.readList header := by
  unfold ofItem at read
  dsimp only at read
  split at read
  · next inner opens =>
    split at read
    · cases read
    · next params fromClose enclosed =>
      split at read
      · cases read
      · next returns header split =>
        obtain rfl := Except.ok.inj read
        obtain ⟨keyword, text_eq, keywordPlain⟩ := exists_word_append_skipSpace item.shown
        obtain ⟨name, rest_eq, namePlain⟩ :=
          exists_word_append_skipSpace (skipSpace (afterWord item.shown))
        rw [opens] at rest_eq
        refine ⟨keyword ++ name, inner, params, fromClose, returns, header, ?_, ?_, enclosed,
          split, rfl⟩
        · rw [List.append_assoc, ← rest_eq]
          exact text_eq
        · intro c member
          exact (List.mem_append.1 member).elim (keywordPlain c) (namePlain c)
  · cases read

/-- The signature of a function has neither brackets nor semicolons. -/
theorem plain_of_mem_signature
    {c : Char}
    (plain : isWordChar c = true ∨ isSpace c = true) :
    (c ≠ '(' ∧ c ≠ ';' ∧ c ≠ '}') ∧ ∀ unclosed, Bracket.track unclosed c = some unclosed := by
  constructor
  · refine ⟨?_, ?_, ?_⟩
    · rintro rfl
      rcases plain with plain | plain <;> cases plain
    · rintro rfl
      rcases plain with plain | plain <;> cases plain
    · rintro rfl
      rcases plain with plain | plain <;> cases plain
  · rcases plain with inWord | space
    · exact Modifier.track_of_isNameChar (Bool.or_eq_true_iff.2 (.inl inWord))
    · exact Bracket.track_of_isSpace space

section Item

variable
  {item : Item}
  {text signature params header : List Char}
  {mark : Char}

/-- The text up to the mark behind a header does not hold the end of the item. -/
theorem not_prefix_of_complete
    {inner : List Char}
    (complete : item.Complete)
    (shown_eq : item.shown = signature ++ '(' :: inner)
    (plain : ∀ c ∈ signature, isWordChar c = true ∨ isSpace c = true)
    (nested : params.foldlM Bracket.track [] = some [])
    (clear : ∀ c ∈ header, c ≠ '{' ∧ c ≠ '}' ∧ c ≠ ';') :
    ¬ inner <+: params ++ ')' :: header := by
  intro begins
  have tracked : item.shown.foldlM Bracket.track [] = some [] := complete.completes.nested
  rw [shown_eq, List.foldlM_append, Bracket.foldlM_track_of_forall fun c member =>
    (plain_of_mem_signature (plain c member)).2] at tracked
  have innerTracked : inner.foldlM Bracket.track [.round] = some [] := tracked
  rcases List.prefix_or_prefix_of_prefix begins (List.prefix_append params _) with
    inParams | ⟨behind, rfl⟩
  · have keeps := (Bracket.closed_of_nested nested).keepsOpen.of_prefix inParams
    obtain ⟨above, absurdity⟩ := Bracket.exists_append_of_keepsOpen keeps innerTracked
    simp at absurdity
  · obtain ⟨front, last, last_eq, marks⟩ := complete.completes.exists_concat
    have shownLast : item.shown.getLast? = some last := by
      rw [Item.shown, last_eq, List.getLast?_concat]
    have behindBegins := (List.prefix_append_right_inj params).1 begins
    cases behind with
    | nil =>
      rw [List.append_nil, ← List.nil_append [Bracket.round],
        Bracket.foldlM_track_append nested] at innerTracked
      cases innerTracked
    | cons c behind =>
      have member : last ∈ c :: behind := by
        refine List.mem_of_getLast? ?_
        rw [← shownLast, shown_eq, ← List.cons_append, ← List.append_assoc, List.getLast?_append,
          List.getLast?_cons]
        rfl
      rcases List.mem_cons.1 (behindBegins.mem member) with rfl | inHeader
      · rcases marks with mark | mark <;> cases mark
      · obtain ⟨-, notBrace, notSemicolon⟩ := clear last inHeader
        exact marks.elim notSemicolon notBrace

/-- Two texts that go on with a parenthesis and have none before are the same. -/
theorem append_inj_of_first
    {other rest otherRest : List Char}
    (first : '(' ∉ signature)
    (otherFirst : '(' ∉ other)
    (same : signature ++ '(' :: rest = other ++ '(' :: otherRest) :
    signature = other ∧ rest = otherRest := by
  have before {front : List Char} (clear : '(' ∉ front) (back : List Char) :
      (front ++ '(' :: back).takeWhile (· != '(') = front := by
    have inside : ∀ c ∈ front, (c != '(') = true := by
      intro c member
      simpa using ne_of_mem_of_not_mem member clear
    rw [List.takeWhile_append_of_pos inside]
    simp
  have fronts := congrArg (List.takeWhile (· != '(')) same
  rw [before first, before otherFirst] at fronts
  subst fronts
  exact ⟨rfl, (List.cons.inj (List.append_cancel_left same)).2⟩

/-- The modifiers of a function are read from its header without the returns clause. -/
theorem modifiers_of_hasHeader
    {decl : FunctionDecl}
    (complete : item.Complete)
    (begins : item.shown <+: text)
    (read : ofItem item = .ok decl)
    (hasHeader : HasHeader text signature params header mark) :
    ∃ returns other, splitReturns? header = some (returns, other) ∧
      decl.modifiers = Modifier.readList other := by
  obtain ⟨itemSignature, inner, itemParams, fromClose, returns, other, shown_eq, plain, enclosed,
    split, modifiers_eq⟩ := ofItem_eq_ok read
  refine ⟨returns, other, ?_, modifiers_eq⟩
  obtain ⟨more, text_eq⟩ := begins
  obtain ⟨after, whole⟩ := hasHeader.begins
  have same : itemSignature ++ '(' :: (inner ++ more) =
      signature ++ '(' :: (params ++ ')' :: header ++ mark :: after) := by
    rw [shown_eq] at text_eq
    simpa using text_eq.trans whole.symm
  have itemFirst : '(' ∉ itemSignature := fun member =>
    (plain_of_mem_signature (plain _ member)).1.1 rfl
  obtain ⟨rfl, inner_eq⟩ := append_inj_of_first itemFirst hasHeader.first same
  have unended := not_prefix_of_complete complete shown_eq plain hasHeader.nested hasHeader.clear
  rcases List.append_eq_append_iff.1 inner_eq with ⟨rest, early, -⟩ | ⟨rest, rfl, rest_eq⟩
  · exact absurd ⟨rest, early.symm⟩ unended
  · cases rest with
    | nil => exact absurd (by rw [List.append_nil]) unended
    | cons c rest =>
      obtain ⟨rfl, -⟩ := List.cons.inj rest_eq
      rw [List.append_assoc, List.cons_append,
        Nesting.enclosed?_append (Bracket.closed_of_nested hasHeader.nested)] at enclosed
      obtain ⟨-, rfl⟩ := Prod.mk.inj (Option.some.inj enclosed)
      have noBlock : '{' ∉ header := fun member => (hasHeader.clear _ member).1 rfl
      have noSemicolon : ';' ∉ header := fun member => (hasHeader.clear _ member).2.2 rfl
      rw [headerOf_append noBlock noSemicolon hasHeader.mark_eq] at split
      exact split

end Item

/-- The words that keep a function out of the documentation. -/
def hidingWords : List String := ["internal", "private"]

/-- A function is hidden exactly if a word that hides it stands in the row with which
its header begins. -/
theorem isHidden_iff
    {decl : FunctionDecl}
    {row rest other : List Char}
    {words : List (List Char)}
    {returns : List Parameter}
    (isRow : Modifier.Row row words)
    (stops : Modifier.Stops row rest)
    (split : splitReturns? (row ++ rest) = some (returns, other))
    (modifiers_eq : decl.modifiers = Modifier.readList other) :
    decl.isHidden = true ↔ ∃ word ∈ hidingWords, Modifier.StandsIn word.toList row := by
  obtain ⟨otherRow, otherRest, otherWords, rfl, otherIsRow, otherStops, same⟩ :
      ∃ otherRow otherRest otherWords, other = otherRow ++ otherRest ∧
        Modifier.Row otherRow otherWords ∧ Modifier.Stops otherRow otherRest ∧
          Modifier.SameWords words otherWords := by
    rcases eq_or_returnsAt_of_splitReturns? split with rfl |
      ⟨before, spaces, inside, behind, returnsAt, rfl⟩
    · exact ⟨row, rest, words, rfl, isRow, stops, fun _ _ _ => Iff.rfl⟩
    · exact isRow.without_returns stops returnsAt
  have names := otherIsRow.map_name_readList otherStops
  have plain : ∀ word ∈ hidingWords, word.toList ≠ [] ∧
      (∀ c ∈ word.toList, isWordChar c = true) ∧ word.toList ≠ returnsWord := by
    refine List.forall_mem_cons.2 ⟨⟨by decide, ?_, by decide⟩,
      List.forall_mem_singleton.2 ⟨by decide, ?_, by decide⟩⟩
    · exact List.all_eq_true.1 (by decide +kernel)
    · exact List.all_eq_true.1 (by decide +kernel)
  have listed (word : String) :
      word ∈ decl.modifiers.map Modifier.name ↔ word.toList ∈ otherWords := by
    rw [modifiers_eq, names, List.mem_map]
    constructor
    · rintro ⟨chars, member, rfl⟩
      rwa [String.toList_ofList]
    · intro member
      exact ⟨word.toList, member, String.ofList_toList⟩
  have hidden : decl.isHidden = true ↔ ∃ word ∈ hidingWords,
      word ∈ decl.modifiers.map Modifier.name := by
    simp only [isHidden, hasModifier, List.any_eq_true, List.contains_iff_mem, List.mem_map]
    constructor
    · rintro ⟨modifier, member, hides⟩
      exact ⟨modifier.name, hides, modifier, member, rfl⟩
    · rintro ⟨_, hides, modifier, member, rfl⟩
      exact ⟨modifier, member, hides⟩
  rw [hidden]
  refine exists_congr fun word => and_congr_right fun hides => ?_
  obtain ⟨nonempty, inWord, notReturns⟩ := plain word hides
  have isName : Modifier.IsName word.toList :=
    ⟨nonempty, fun c member => Bool.or_eq_true_iff.2 (.inl (inWord c member))⟩
  rw [listed, same _ inWord notReturns]
  exact ⟨isRow.standsIn_of_mem isName, isRow.mem_of_standsIn isName⟩

end FunctionDecl

/-! ## Hidden functions of a file -/

/-- A function is read from the item of a function. -/
theorem Member.ofItem_of_read
    {item : Item} {decl : FunctionDecl}
    (read : Member.read item = .ok (.member (.function decl))) :
    FunctionDecl.ofItem item = .ok decl := by
  have variable_ne : readVariable item ≠ .member (.function decl) := by
    unfold readVariable
    split <;> exact nofun
  unfold Member.read at read
  dsimp only at read
  split at read
  · obtain ⟨event, _, same⟩ := bind_eq_ok.1 read
    cases same
  · split at read
    · exact absurd (Except.ok.inj read) variable_ne
    · split at read
      · obtain ⟨function, functionRead, same⟩ := bind_eq_ok.1 read
        cases same
        exact functionRead
      · split at read
        · cases read
        · exact absurd (Except.ok.inj read) variable_ne

/-- The members of the contracts of a file are read from complete parts of the file. -/
theorem exists_item_of_member
    {source : String} {tree : SourceUnit}
    (parsed : parse source = .ok tree) :
    ∃ found, glyphs source.toList = .ok found ∧
      ∀ contract ∈ tree.contracts, ∀ member ∈ contract.body, ∃ item : Item,
        item.Complete ∧ PartOf .origin found item.start item.glyphs ∧
          Member.read item = .ok (.member member) := by
  obtain ⟨items, topLevel, readings, declared, rfl⟩ := parse_eq_ok_iff.1 parsed
  obtain ⟨found, read, split⟩ := bind_eq_ok.1 topLevel
  refine ⟨found, read, ?_⟩
  intro contract contractListed member memberListed
  obtain ⟨declaration, declarationListed, isContract⟩ := List.mem_filterMap.1 contractListed
  obtain ⟨outer, outerListed, reading, outerRead, rfl⟩ :=
    exists_item_of_mem (mapM_eq_ok_iff.1 declared) declarationListed
  have outerPart := ((cut_of_splitItems split).complete_partOf outer outerListed).2
  cases declaration with
  | pragma decl => cases isContract
  | importing decl => cases isContract
  | contract decl =>
    obtain rfl := Option.some.inj isContract
    obtain ⟨-, -, -, head, inner, memberReadings, opened, members, body_eq⟩ :=
      ContractDecl.ofItem_eq_ok (Declaration.read_eq_some outerRead).2
    obtain ⟨front, brace, body, closing, glyphs_eq, -, -, -, bodySplit⟩ :=
      ContractDecl.exists_braces_of_open? opened
    rw [body_eq] at memberListed
    obtain ⟨item, itemListed, _, itemRead, declares⟩ :=
      exists_item_of_mem (mapM_eq_ok_iff.1 members) memberListed
    obtain rfl := Member.Reading.eq_of_toMember? declares
    obtain ⟨complete, within⟩ := (cut_of_splitItems bodySplit).complete_partOf item itemListed
    have bodyPart : PartOf outer.start outer.glyphs _ body :=
      ⟨front ++ [brace], [closing], by simp [glyphs_eq], rfl⟩
    exact ⟨item, complete, (outerPart.trans bodyPart).trans within, itemRead⟩

/-- For every file that can be read and every function of a contract that is no
constructor: let the text behind its parameters up to the first brace or semicolon begin
with a row of words with nested arguments, and stop there, or go on with a character that
no row has or with arguments that are cut off.  The function is left out of the
documentation exactly if a word that hides it stands in the row outside of brackets. -/
theorem function_undocumented_iff
    (source : String)
    (tree : SourceUnit)
    (parsed : parse source = .ok tree) :
    ∃ shown, skeleton source.toList = .ok shown ∧
      ∀ contract ∈ tree.contracts, ∀ decl, Member.function decl ∈ contract.body →
        decl.isConstructor = false → decl.name ≠ contract.name →
          ∀ signature params row rest mark words,
            FunctionDecl.HasHeader (shown.drop decl.start) signature params (row ++ rest) mark →
            Modifier.Row row words → Modifier.Stops row rest →
              ((Member.function decl).kind? contract.name = none ↔
                ∃ word ∈ FunctionDecl.hidingWords, Modifier.StandsIn word.toList row) ∧
              ((∃ word ∈ FunctionDecl.hidingWords, Modifier.StandsIn word.toList row) →
                ∀ kind, Member.function decl ∉ Member.select contract.name contract.body kind) := by
  obtain ⟨found, read, itemOf⟩ := exists_item_of_member parsed
  refine ⟨found.map Glyph.shown, skeleton_eq_ok_iff.2 ⟨found, read, rfl⟩, ?_⟩
  intro contract contractListed decl declListed notKeyword notName signature params row rest mark
    words hasHeader isRow stops
  obtain ⟨item, complete, partOf, itemRead⟩ := itemOf contract contractListed _ declListed
  have begins : item.shown <+: (found.map Glyph.shown).drop decl.start := by
    have start_eq : decl.start = item.start.offset := (Member.place_of_read itemRead).1
    rw [start_eq]
    exact partOf.prefix_drop Glyph.shown
  obtain ⟨returns, other, split, modifiers_eq⟩ := FunctionDecl.modifiers_of_hasHeader complete
    begins (Member.ofItem_of_read itemRead) hasHeader
  have hidden_iff := FunctionDecl.isHidden_iff isRow stops split modifiers_eq
  have kind_eq : (Member.function decl).kind? contract.name = none ↔ decl.isHidden = true := by
    have notConstructor : (decl.isConstructor || decl.name == contract.name) = false := by
      rw [notKeyword, beq_eq_false_iff_ne.2 notName]
      rfl
    rw [Member.kind?, if_neg (by rw [notConstructor]; exact Bool.false_ne_true)]
    cases decl.isHidden <;> cases decl.isReadOnly <;> simp
  refine ⟨kind_eq.trans hidden_iff, ?_⟩
  intro stands kind selected
  have documented := (List.mem_filter.1 selected).2
  rw [kind_eq.2 (hidden_iff.2 stands)] at documented
  cases documented

/-- A contract with a function whose modifier takes a structure, and one whose modifier
takes a number. -/
def uncoveredSource : String :=
  "contract C \x7b function f() m(S(\x7ba: 1\x7d)) internal \x7b\x7d " ++
    "function g() m(1) returns (uint) internal \x7b\x7d \x7d"

/-- The function before whose visibility a brace stands is documented, the other one is
hidden. -/
theorem brace_in_arguments_uncovers :
    ∃ tree contract uncovered hidden, parse uncoveredSource = .ok tree ∧
      contract ∈ tree.contracts ∧
        Member.function uncovered ∈ contract.body ∧ Member.function hidden ∈ contract.body ∧
          (Member.function uncovered).kind? contract.name ≠ none ∧
            (Member.function hidden).kind? contract.name = none := by
  let uncovered : FunctionDecl := ⟨"f", [], [], [], false, false, 13, 1⟩
  let hidden : FunctionDecl :=
    ⟨"g", [], [⟨"m", some "1"⟩, ⟨"internal", none⟩], [⟨"uint", none, none, false⟩], false, false,
      51, 1⟩
  let contract : ContractDecl :=
    ⟨"C", .contract, [], [.function uncovered, .function hidden], false, 0, 97, 1⟩
  have parsed : parse uncoveredSource = .ok ⟨[.contract contract]⟩ := by decide +kernel
  have unhidden : skeleton uncoveredSource.toList = .ok uncoveredSource.toList := by
    decide +kernel
  obtain ⟨shown, shown_eq, undocumented_iff⟩ :=
    function_undocumented_iff uncoveredSource ⟨[.contract contract]⟩ parsed
  obtain rfl := Except.ok.inj (unhidden.symm.trans shown_eq)
  have listed : contract ∈ (SourceUnit.mk [.contract contract]).contracts :=
    List.mem_singleton_self contract
  have letter : Modifier.IsName "m".toList :=
    ⟨by decide, List.all_eq_true.1 (by decide +kernel)⟩
  have word : Modifier.IsName "internal".toList :=
    ⟨by decide, List.all_eq_true.1 (by decide +kernel)⟩
  have clear : ∀ text : List Char, (text.all fun c => c ∉ ['{', '}', ';']) = true →
      ∀ c ∈ text, c ≠ '{' ∧ c ≠ '}' ∧ c ≠ ';' := by
    intro text checked c member
    simpa using List.all_eq_true.1 checked c member
  have spaceLast : ∀ text : List Char, text.getLast? = some ' ' →
      ∀ c ∈ text.getLast?, Modifier.isNameChar c = false := by
    intro text ends c last
    rw [ends] at last
    rw [← Option.some.inj last]
    rfl
  refine ⟨_, contract, uncovered, hidden, parsed, listed, List.mem_cons_self,
    List.mem_cons_of_mem _ List.mem_cons_self, ?_, ?_⟩
  · have header : FunctionDecl.HasHeader (uncoveredSource.toList.drop 13) "function f".toList []
        ([' '] ++ "m(S(".toList) '{' :=
      ⟨⟨("a: 1\x7d)) internal \x7b\x7d " ++
          "function g() m(1) returns (uint) internal \x7b\x7d \x7d").toList,
        by decide +kernel⟩, by decide, rfl, clear _ (by decide +kernel), .inl rfl⟩
    have row : Modifier.Row [' '] [] := .space rfl .nil
    have keeps : Nesting.KeepsOpen "S(".toList := by
      have bounds : ∀ front ∈ "S(".toList.inits, 0 ≤ Nesting.roundDepth front := by decide +kernel
      exact fun front begins => bounds front ((List.mem_inits _ _).2 begins)
    have stops : Modifier.Stops [' '] "m(S(".toList :=
      @Modifier.Stops.unclosed _ "m".toList [] "S(".toList (spaceLast _ rfl) letter nofun keeps
    have long : ∀ word ∈ FunctionDecl.hidingWords, 1 < word.toList.length := by decide
    intro undocumented
    obtain ⟨word, hides, front, back, row_eq, -⟩ := (undocumented_iff contract listed uncovered
      List.mem_cons_self rfl (by decide) _ _ _ _ _ _ header row stops).1.1 undocumented
    have length := congrArg List.length row_eq
    have wordLong := long word hides
    simp only [List.length_append, List.length_singleton] at length
    omega
  · have header : FunctionDecl.HasHeader (uncoveredSource.toList.drop 51) "function g".toList []
        (" m(1) returns (uint) internal ".toList ++ []) '{' :=
      ⟨⟨"\x7d \x7d".toList, by decide +kernel⟩, by decide, rfl, clear _ (by decide +kernel),
        .inl rfl⟩
    have internal : Modifier.Row " internal ".toList ["internal".toList] :=
      .space rfl (@Modifier.Row.word "internal".toList [' '] [] word (Modifier.apart_cons rfl [])
        (.space rfl .nil))
    have returns : Modifier.Row " returns (uint) internal ".toList
        ["returns".toList, "internal".toList] :=
      .space rfl (@Modifier.Row.call "returns".toList [' '] "uint".toList _ _
        Modifier.isName_returnsWord (List.forall_mem_singleton.2 rfl) rfl internal)
    have row : Modifier.Row " m(1) returns (uint) internal ".toList
        ["m".toList, "returns".toList, "internal".toList] :=
      .space rfl (@Modifier.Row.call "m".toList [] "1".toList _ _ letter nofun rfl returns)
    refine (undocumented_iff contract listed hidden (List.mem_cons_of_mem _ List.mem_cons_self)
      rfl (by decide) _ _ _ _ _ _ header row .done).1.2 ⟨"internal", List.mem_cons_self, ?_⟩
    exact ⟨" m(1) returns (uint) ".toList, [' '], by decide +kernel, by decide +kernel,
      spaceLast _ (by decide +kernel), Modifier.apart_cons rfl []⟩

end ContractDoc
