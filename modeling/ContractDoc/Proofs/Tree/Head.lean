import ContractDoc.Proofs.Source.Cut
import ContractDoc.Tree.Contract
import Mathlib.Data.List.TakeWhile

/-!
# The braces of a contract

The head of a contract ends at the first opening brace of its text, wherever the
name and the list of parents end.  When the body can be split, that brace is the
partner of the closing brace at the end.  The head is read the same way whatever
follows the brace.
-/

namespace ContractDoc

open Text

theorem Text.prefix_of_startsWithWord
    {word text : List Char}
    (starts : startsWithWord word text = true) :
    word <+: text :=
  List.isPrefixOf_iff_prefix.1 (Bool.and_eq_true_iff.1 starts).1

/-- The word at the start of a text ends before every other character. -/
theorem Text.leadingWord_append_cons
    {c : Char}
    (notWord : isWordChar c = false)
    (text rest : List Char) :
    leadingWord (text ++ c :: rest) = leadingWord text := by
  have stops : (c :: rest).takeWhile isWordChar = [] := by simp [notWord]
  unfold leadingWord
  rw [List.takeWhile_append, stops, List.append_nil]
  split
  · next all => exact ((List.takeWhile_prefix _).eq_of_length all).symm
  · rfl

namespace ContractDecl

/-- A text from its first opening brace on. -/
def fromBrace (text : List Char) : List Char :=
  text.dropWhile (· != '{')

theorem fromBrace_append
    {front : List Char} (clear : '{' ∉ front) (rest : List Char) :
    fromBrace (front ++ rest) = fromBrace rest := by
  apply List.dropWhile_append_of_pos
  intro c member
  simpa using ne_of_mem_of_not_mem member clear

/-- Skipping characters other than the brace does not pass it. -/
theorem fromBrace_dropWhile
    {skipped : Char → Bool} (keeps : skipped '{' = false) (text : List Char) :
    fromBrace (text.dropWhile skipped) = fromBrace text := by
  have clear : '{' ∉ text.takeWhile skipped := by
    intro member
    rw [List.mem_takeWhile_imp member] at keeps
    cases keeps
  rw [← fromBrace_append clear, List.takeWhile_append_dropWhile]

theorem fromBrace_skipSpace (text : List Char) :
    fromBrace (skipSpace text) = fromBrace text :=
  fromBrace_dropWhile rfl text

theorem fromBrace_of_skipSpace1?
    {text rest : List Char}
    (skipped : skipSpace1? text = some rest) :
    fromBrace text = fromBrace rest := by
  unfold skipSpace1? at skipped
  split at skipped
  · cases skipped
    exact (fromBrace_skipSpace text).symm
  · cases skipped

theorem fromBrace_drop_of_prefix
    {word text : List Char}
    (clear : '{' ∉ word)
    (leads : word <+: text) :
    fromBrace (text.drop word.length) = fromBrace text := by
  obtain ⟨rest, rfl⟩ := leads
  rw [List.drop_left, fromBrace_append clear]

/-- The words that open a contract. -/
def openingWords : List String := ["abstract", "contract", "library", "interface"]

/-- A contract is opened by one of its words, and its brace lies behind them. -/
theorem fromBrace_of_opening?
    {text rest : List Char} {isAbstract : Bool} {kind : ContractKind}
    (opened : opening? text = some (isAbstract, kind, rest)) :
    (∃ word ∈ openingWords, word.toList <+: text) ∧ fromBrace text = fromBrace rest := by
  obtain ⟨found, isKind, same⟩ := Option.map_eq_some_iff.1 opened
  simp only [Prod.mk.injEq] at same
  obtain ⟨-, rfl, rfl⟩ := same
  have starts := List.find?_some isKind
  have keyword := prefix_of_startsWithWord starts
  have keywordClear : '{' ∉ found.keyword.toList := by
    cases found <;> decide
  rw [← String.length_toList, fromBrace_drop_of_prefix keywordClear keyword]
  by_cases isAbstract : "abstract".toList.isPrefixOf text = true
  · simp only [if_pos isAbstract]
    have word := List.isPrefixOf_iff_prefix.1 isAbstract
    refine ⟨⟨"abstract", by decide, word⟩, ?_⟩
    cases skipped : skipSpace1? (text.drop "abstract".length) with
    | none => rfl
    | some body =>
      have beyond := fromBrace_of_skipSpace1? skipped
      rw [← String.length_toList, fromBrace_drop_of_prefix (by decide) word] at beyond
      exact beyond
  · simp only [if_neg isAbstract] at keyword ⊢
    refine ⟨⟨found.keyword, ?_, keyword⟩, rfl⟩
    cases found <;> decide

/-- The list of parents ends at the first brace. -/
theorem fromBrace_of_inheritance?
    {text parents body : List Char}
    (found : inheritance? text = some (parents, body)) :
    fromBrace text = '{' :: body := by
  rw [← fromBrace_skipSpace]
  unfold inheritance? at found
  dsimp only at found
  split at found
  · next list listed =>
    split at listed
    · next isList =>
      have word := List.isPrefixOf_iff_prefix.1 isList
      have beyond := fromBrace_of_skipSpace1? listed
      rw [← String.length_toList, fromBrace_drop_of_prefix (by decide) word] at beyond
      rw [beyond]
      split at found
      · cases found
      · next brace rest ended =>
        cases found
        have stops := List.head?_dropWhile_not (· != '{') list
        rw [ended] at stops
        obtain rfl : brace = '{' := by simpa using stops
        exact ended
    · cases listed
  · split at found
    · next rest starts =>
      cases found
      rw [starts]
      rfl
    · cases found

/-- The name of a contract ends before the first brace. -/
theorem fromBrace_of_nameUpTo?
    {text name parents body : List Char} {length : Nat}
    (short : length ≤ (leadingWord text).length)
    (found : nameUpTo? text length = some (name, parents, body)) :
    fromBrace text = '{' :: body := by
  induction length with
  | zero => cases found
  | succ length ih =>
    rw [nameUpTo?] at found
    split at found
    · next inherited =>
      cases found
      have clear : '{' ∉ text.take (length + 1) := by
        rw [← leadingWord_append_afterWord text, List.take_append_of_le_length short]
        intro member
        cases List.mem_takeWhile_imp (List.mem_of_mem_take member)
      rw [← List.take_append_drop (length + 1) text, fromBrace_append clear]
      exact fromBrace_of_inheritance? inherited
    · exact ih (by omega) found

/-- The head of a contract ends behind the first brace. -/
theorem fromBrace_of_head?
    {text : List Char} {head : Head}
    (found : head? text = some head) :
    ∃ body, fromBrace text = '{' :: body ∧ head.length = text.length - body.length := by
  simp only [head?, Option.bind_eq_bind, Option.bind_eq_some_iff, Prod.exists] at found
  obtain ⟨isAbstract, kind, afterWords, opened, rest, skipped, name, parents, body, named, same⟩ :=
    found
  refine ⟨body, ?_, by cases same; rfl⟩
  rw [(fromBrace_of_opening? opened).2, fromBrace_of_skipSpace1? skipped]
  exact fromBrace_of_nameUpTo? (Nat.le_refl _) named

/-- The parts of a contract: its head up to the first brace, its body, which is
split, and its closing brace. -/
theorem exists_braces_of_open?
    {item : Item} {head : Head} {items : List Item}
    (opened : open? item = .ok (head, items)) :
    ∃ front brace inner closing,
      item.glyphs = front ++ brace :: (inner ++ [closing]) ∧
        '{' ∉ front.map Glyph.shown ∧ brace.shown = '{' ∧ closing.shown = '}' ∧
          splitItems (item.start.advanceBy ((front ++ [brace]).map Glyph.raw)) inner =
            .ok items := by
  unfold open? at opened
  split at opened
  · next found last =>
    obtain ⟨_, split, ⟨⟩⟩ := bind_eq_ok.1 opened
    obtain ⟨body, fromBrace_eq, length_eq⟩ := fromBrace_of_head? found
    have whole : item.glyphs.map Glyph.shown =
        item.shown.takeWhile (· != '{') ++ '{' :: body := by
      rw [← fromBrace_eq]
      exact List.takeWhile_append_dropWhile.symm
    obtain ⟨front, back, glyphs_eq, front_eq, back_eq⟩ := List.map_eq_append_iff.1 whole
    obtain ⟨brace, tail, rfl, brace_eq, rfl⟩ := List.map_eq_cons_iff.1 back_eq
    have tail_ne : tail ≠ [] := by
      rintro rfl
      rw [Item.shown, whole] at last
      simp at last
    obtain ⟨inner, closing, rfl⟩ := (List.eq_nil_or_concat' tail).resolve_left tail_ne
    have parts : item.glyphs = front ++ [brace] ++ (inner ++ [closing]) := by
      simp [glyphs_eq]
    have length : head.length = (front ++ [brace]).length := by
      simp only [length_eq, Item.shown, parts, List.length_map, List.length_append]
      omega
    refine ⟨front, brace, inner, closing, glyphs_eq, ?_, brace_eq, ?_, ?_⟩
    · rw [front_eq]
      intro member
      simpa using List.mem_takeWhile_imp member
    · rw [Item.shown, parts, ← List.append_assoc, List.map_append, List.map_singleton,
        List.getLast?_concat] at last
      exact Option.some.inj last
    · rw [bodyItems, length, Item.raw, parts, ← List.map_take, List.take_left, List.drop_left,
        List.dropLast_concat] at split
      exact split
  · cases opened

/-! ## What stands before the brace -/

theorem fromBrace_eq_nil_iff {text : List Char} : fromBrace text = [] ↔ '{' ∉ text := by
  unfold fromBrace
  rw [List.dropWhile_eq_nil_iff]
  constructor
  · intro all member
    simpa using all _ member
  · intro clear c member
    simpa using ne_of_mem_of_not_mem member clear

/-- A word stands at the start of a text exactly if it stands before any character that is none of
its own. -/
theorem isPrefixOf_append_cons
    {word : List Char} {c : Char}
    (clear : c ∉ word)
    (text rest : List Char) :
    word.isPrefixOf (text ++ c :: rest) = word.isPrefixOf text := by
  rw [Bool.eq_iff_iff, List.isPrefixOf_iff_prefix, List.isPrefixOf_iff_prefix]
  constructor
  · intro begins
    rcases List.prefix_or_prefix_of_prefix begins (List.prefix_append text _) with
      early | ⟨later, rfl⟩
    · exact early
    · cases later with
      | nil => simp
      | cons d later =>
        obtain ⟨rfl, -⟩ := List.cons_prefix_cons.1 ((List.prefix_append_right_inj text).1 begins)
        simp at clear
  · exact fun begins => begins.trans (List.prefix_append text _)

section BeforeBrace

variable {text : List Char} (rest : List Char)

/-- A word stands at the start of a text with a brace exactly if it stands before the
brace. -/
theorem isPrefixOf_append_brace
    {word : List Char}
    (clear : '{' ∉ word) :
    word.isPrefixOf (text ++ '{' :: rest) = word.isPrefixOf text :=
  isPrefixOf_append_cons clear text rest

/-- Behind a word at the start of a text the brace follows as before. -/
theorem drop_append_brace
    {word : String}
    (begins : word.toList.isPrefixOf text = true) :
    (text ++ '{' :: rest).drop word.length = text.drop word.length ++ '{' :: rest := by
  rw [← String.length_toList]
  exact List.drop_append_of_le_length (List.isPrefixOf_iff_prefix.1 begins).length_le

theorem skipSpace_append_brace :
    skipSpace (text ++ '{' :: rest) = skipSpace text ++ '{' :: rest := by
  unfold skipSpace
  rw [List.dropWhile_append]
  split
  · next none =>
    rw [List.isEmpty_iff.1 none]
    rfl
  · rfl

theorem leadingWord_append_brace :
    leadingWord (text ++ '{' :: rest) = leadingWord text :=
  leadingWord_append_cons rfl text rest

theorem skipSpace1?_append_brace :
    skipSpace1? (text ++ '{' :: rest) = (skipSpace1? text).map (· ++ '{' :: rest) := by
  have same : startsWithSpace (text ++ '{' :: rest) = startsWithSpace text := by
    cases text <;> rfl
  unfold skipSpace1?
  rw [same, skipSpace_append_brace]
  split <;> rfl

theorem startsWithWord_append_brace
    {word : String}
    (clear : '{' ∉ word.toList) :
    startsWithWord word.toList (text ++ '{' :: rest) = startsWithWord word.toList text := by
  unfold startsWithWord
  rw [isPrefixOf_append_brace rest clear]
  cases begins : word.toList.isPrefixOf text with
  | false => rfl
  | true =>
    rw [String.length_toList, drop_append_brace rest begins]
    cases text.drop word.length <;> rfl

/-- What follows a word and white space at the start of a text. -/
def behindWord? (word : String) (text : List Char) : Option (List Char) :=
  if word.toList.isPrefixOf text then skipSpace1? (text.drop word.length) else none

/-- The kind of a contract is looked for behind the word `abstract`. -/
theorem opening?_eq (text : List Char) :
    opening? text = (kinds.find? fun kind => startsWithWord kind.keyword.toList
      ((behindWord? "abstract" text).getD text)).map fun kind =>
        ((behindWord? "abstract" text).isSome, kind,
          ((behindWord? "abstract" text).getD text).drop kind.keyword.length) := rfl

theorem behindWord?_eq (word : String) (text : List Char) :
    (if word.toList.isPrefixOf text then skipSpace1? (text.drop word.length) else none) =
      behindWord? word text := rfl

theorem behindWord?_append_brace
    {word : String}
    (clear : '{' ∉ word.toList) :
    behindWord? word (text ++ '{' :: rest) = (behindWord? word text).map (· ++ '{' :: rest) := by
  unfold behindWord?
  rw [isPrefixOf_append_brace rest clear]
  split
  · next begins => rw [drop_append_brace rest begins, skipSpace1?_append_brace]
  · rfl

/-- No brace stands behind a word in a text without braces. -/
theorem clear_of_behindWord?
    {word : String} {behind : List Char}
    (clear : '{' ∉ text)
    (found : behindWord? word text = some behind) :
    '{' ∉ behind := by
  unfold behindWord? skipSpace1? at found
  split at found
  · split at found
    · cases found
      intro member
      exact clear (List.mem_of_mem_drop ((List.dropWhile_sublist isSpace).subset member))
    · cases found
  · cases found

/-- The words that open a contract stand before its brace. -/
theorem opening?_append_brace :
    opening? (text ++ '{' :: rest) =
      (opening? text).map fun (isAbstract, kind, behind) =>
        (isAbstract, kind, behind ++ '{' :: rest) := by
  rw [opening?_eq, opening?_eq, behindWord?_append_brace rest (by decide)]
  have body_eq : ((behindWord? "abstract" text).map (· ++ '{' :: rest)).getD
      (text ++ '{' :: rest) = (behindWord? "abstract" text).getD text ++ '{' :: rest := by
    cases behindWord? "abstract" text <;> rfl
  rw [body_eq]
  generalize (behindWord? "abstract" text).getD text = body
  have words (kind : ContractKind) :
      startsWithWord kind.keyword.toList (body ++ '{' :: rest) =
        startsWithWord kind.keyword.toList body :=
    startsWithWord_append_brace rest (by cases kind <;> decide)
  simp only [words, Option.isSome_map, Option.map_map]
  refine Option.map_congr fun kind opens => ?_
  have starts := List.find?_some opens
  have behind := drop_append_brace rest (Bool.and_eq_true_iff.1 starts).1
  simp [behind]

/-- A list of parents ends at the brace. -/
theorem inheritance?_append_brace
    (clear : '{' ∉ text) :
    inheritance? (text ++ '{' :: rest) =
      (inheritance? (text ++ ['{'])).map fun (parents, _) => (parents, rest) := by
  unfold inheritance?
  dsimp only
  rw [behindWord?_eq, behindWord?_eq, skipSpace_append_brace, skipSpace_append_brace,
    behindWord?_append_brace rest (by decide), behindWord?_append_brace [] (by decide)]
  have skippedClear : '{' ∉ skipSpace text :=
    fun member => clear ((List.dropWhile_sublist isSpace).subset member)
  cases listed : behindWord? "is" (skipSpace text) with
  | none =>
    cases skipped : skipSpace text with
    | nil => rfl
    | cons c behind =>
      have notBrace : c ≠ '{' := by
        rintro rfl
        rw [skipped] at skippedClear
        exact skippedClear List.mem_cons_self
      simp [notBrace]
  | some list =>
    have inside : ∀ c ∈ list, (c != '{') = true := by
      intro c member
      simpa using ne_of_mem_of_not_mem member (clear_of_behindWord? skippedClear listed)
    simp [List.dropWhile_append_of_pos inside, List.takeWhile_append_of_pos inside]

/-- A name is read before the brace. -/
theorem nameUpTo?_append_brace
    (clear : '{' ∉ text)
    {length : Nat}
    (short : length ≤ text.length) :
    nameUpTo? (text ++ '{' :: rest) length =
      (nameUpTo? (text ++ ['{']) length).map fun (name, parents, _) => (name, parents, rest) := by
  induction length with
  | zero => rfl
  | succ length ih =>
    have dropClear : '{' ∉ text.drop (length + 1) :=
      fun member => clear (List.mem_of_mem_drop member)
    rw [nameUpTo?, nameUpTo?, List.drop_append_of_le_length short,
      List.drop_append_of_le_length short, inheritance?_append_brace rest dropClear,
      List.take_append_of_le_length short, List.take_append_of_le_length short]
    cases inheritance? (text.drop (length + 1) ++ ['{']) with
    | none => exact ih (by omega)
    | some found => rfl

/-- The head of a contract is read the same way whatever follows its brace. -/
theorem head?_append_brace
    {head : Head}
    (clear : '{' ∉ text)
    (found : head? (text ++ ['{']) = some head) :
    head? (text ++ '{' :: rest) = some head := by
  simp only [head?, Option.bind_eq_bind, Option.bind_eq_some_iff, Prod.exists] at found ⊢
  obtain ⟨isAbstract, kind, _, opened, _, skipped, name, parents, body, named, same⟩ := found
  rw [opening?_append_brace] at opened
  obtain ⟨⟨_, _, behind⟩, opens, ⟨⟩⟩ := Option.map_eq_some_iff.1 opened
  rw [skipSpace1?_append_brace] at skipped
  obtain ⟨names, skips, rfl⟩ := Option.map_eq_some_iff.1 skipped
  have namesClear : '{' ∉ names := by
    rw [← fromBrace_eq_nil_iff, ← fromBrace_of_skipSpace1? skips,
      ← (fromBrace_of_opening? opens).2, fromBrace_eq_nil_iff]
    exact clear
  have short : (leadingWord names).length ≤ names.length :=
    (List.takeWhile_prefix _).length_le
  rw [leadingWord_append_brace] at named
  obtain ⟨⟨_, _, _⟩, found, ⟨⟩⟩ :=
    Option.map_eq_some_iff.1 ((nameUpTo?_append_brace [] namesClear short).symm.trans named)
  refine ⟨isAbstract, kind, behind ++ '{' :: rest, ?_, names ++ '{' :: rest, ?_,
    name, parents, rest, ?_, ?_⟩
  · rw [opening?_append_brace, opens]
    rfl
  · rw [skipSpace1?_append_brace, skips]
    rfl
  · rw [leadingWord_append_brace, nameUpTo?_append_brace rest namesClear short, named]
    rfl
  · rw [← same]
    have length_eq : (text ++ '{' :: rest).length - rest.length = (text ++ ['{']).length := by
      simp only [List.length_append, List.length_cons, List.length_nil]
      omega
    rw [length_eq]
    rfl

end BeforeBrace
end ContractDecl
end ContractDoc
