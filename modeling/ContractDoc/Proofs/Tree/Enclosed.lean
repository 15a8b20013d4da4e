import ContractDoc.Proofs.Source.Items
import ContractDoc.Proofs.Source.Partner
import ContractDoc.Proofs.Source.Scan
import ContractDoc.Proofs.Tree.Function
import ContractDoc.Proofs.Tree.Hidden

/-!
# Parameter lists are closed

The brackets of an item are nested, so the parenthesis of a parameter list has a partner in it.
The readers of events and functions look for this partner among parentheses only; they find it
in every item, and no source text is refused for a parameter list without an end.
-/

namespace ContractDoc

open Text

/-! ## Parameter lists of items -/

/-- A text begins with words and white space, and in parentheses behind them stand parameters:
up to the partner of the parenthesis, which the search finds. -/
structure HasParameters (text params : List Char) : Prop where
  enclosed : ∃ front back, text = front ++ '(' :: (params ++ ')' :: back) ∧
    (∀ c ∈ front, isWordChar c = true ∨ isSpace c = true) ∧
      Nesting.partner text front.length = .found (front.length + 1 + params.length)
  nested : Bracket.Nested params

/-- The first parenthesis of a nested text encloses its parameters. -/
theorem exists_enclosed_of_nested
    {text front inner : List Char}
    (nested : Bracket.Nested text)
    (text_eq : text = front ++ '(' :: inner)
    (plain : ∀ c ∈ front, isWordChar c = true ∨ isSpace c = true) :
    ∃ params fromClose, Nesting.enclosed? ('(' :: inner) = some (params, fromClose) ∧
      HasParameters text params := by
  subst text_eq
  obtain ⟨params, last, back, rfl, paramsNested, closes⟩ :=
    nested.exists_closing (Bracket.ofOpening?_eq_round_iff.2 rfl)
  obtain rfl := Bracket.ofClosing?_eq_round_iff.1 closes
  have closed := Bracket.closed_of_nested paramsNested.foldlM_track
  exact ⟨params, ')' :: back, Nesting.enclosed?_append closed back,
    ⟨front, back, rfl, plain, Nesting.partner_append_close closed front back⟩, paramsNested⟩

/-- A text from the parenthesis behind its first two words on. -/
def behindWords (text : List Char) : List Char :=
  skipSpace (afterWord (skipSpace (afterWord text)))

theorem exists_append_behindWords (text : List Char) :
    ∃ front, text = front ++ behindWords text ∧
      ∀ c ∈ front, isWordChar c = true ∨ isSpace c = true := by
  obtain ⟨keyword, text_eq, keywordPlain⟩ := FunctionDecl.exists_word_append_skipSpace text
  obtain ⟨name, rest_eq, namePlain⟩ :=
    FunctionDecl.exists_word_append_skipSpace (skipSpace (afterWord text))
  refine ⟨keyword ++ name, ?_, ?_⟩
  · rw [List.append_assoc, behindWords, ← rest_eq]
    exact text_eq
  · intro c member
    exact (List.mem_append.1 member).elim (keywordPlain c) (namePlain c)

/-- A keyword and a name, which may be missing, with white space behind each of them. -/
structure Introduces (keyword gap name blank : List Char) : Prop where
  inKeyword : ∀ c ∈ keyword, isWordChar c = true
  gapBlank : ∀ c ∈ gap, isSpace c = true
  inName : ∀ c ∈ name, isWordChar c = true
  isBlank : ∀ c ∈ blank, isSpace c = true
  apart : gap = [] → name = [] ∧ blank = []

namespace Introduces

variable {keyword gap name blank : List Char}

/-- The keyword ends before the white space behind it. -/
theorem afterWord_eq
    (introduces : Introduces keyword gap name blank)
    (inner : List Char) :
    afterWord (keyword ++ (gap ++ (name ++ (blank ++ '(' :: inner)))) =
      gap ++ (name ++ (blank ++ '(' :: inner)) := by
  refine (leadingWord_append introduces.inKeyword introduces.gapBlank fun none => ?_).2
  obtain ⟨rfl, rfl⟩ := introduces.apart none
  rfl

/-- Behind the keyword stands the name. -/
theorem skipSpace_afterWord
    (introduces : Introduces keyword gap name blank)
    (named : name ≠ [])
    (inner : List Char) :
    skipSpace (afterWord (keyword ++ (gap ++ (name ++ (blank ++ '(' :: inner))))) =
      name ++ (blank ++ '(' :: inner) := by
  rw [introduces.afterWord_eq, Modifier.skipSpace_append_of_blank introduces.gapBlank]
  refine skipSpace_of_visible fun c head => ?_
  rw [List.head?_append_of_ne_nil _ named] at head
  exact isSpace_eq_false_of_isWordChar (introduces.inName c (List.mem_of_head? head))

/-- Behind keyword and name stands the parenthesis. -/
theorem behindWords_eq
    (introduces : Introduces keyword gap name blank)
    (inner : List Char) :
    behindWords (keyword ++ (gap ++ (name ++ (blank ++ '(' :: inner)))) = '(' :: inner := by
  have opens : skipSpace (blank ++ '(' :: inner) = '(' :: inner := by
    rw [Modifier.skipSpace_append_of_blank introduces.isBlank]
    rfl
  by_cases named : name = []
  · subst named
    rw [behindWords, introduces.afterWord_eq,
      Modifier.skipSpace_append_of_blank introduces.gapBlank, List.nil_append, opens]
    rfl
  · rw [behindWords, introduces.skipSpace_afterWord named,
      (leadingWord_append introduces.inName introduces.isBlank fun _ => rfl).2, opens]

end Introduces

/-! ## The readers -/

section Readers

variable
  {item : Item}
  {keyword gap name blank inner : List Char}

/-- The readers find the parameters of an item behind its first two words. -/
theorem exists_enclosed_of_behindWords
    (nested : Bracket.Nested item.shown)
    (opens : behindWords item.shown = '(' :: inner) :
    ∃ params fromClose, Nesting.enclosed? ('(' :: inner) = some (params, fromClose) ∧
      HasParameters item.shown params := by
  obtain ⟨front, text_eq, plain⟩ := exists_append_behindWords item.shown
  rw [opens] at text_eq
  exact exists_enclosed_of_nested nested text_eq plain

/-- An event is read with its parameters, or it is malformed. -/
theorem EventDecl.malformed_or_ofItem_eq_ok
    (nested : Bracket.Nested item.shown) :
    ofItem item = item.fail .malformedEvent ∨
      ∃ params decl, HasParameters item.shown params ∧ ofItem item = .ok decl ∧
        decl.params = Parameter.readList params := by
  unfold ofItem
  dsimp only
  split
  · next inner _ opens =>
    obtain ⟨params, fromClose, enclosed, hasParameters⟩ :=
      exists_enclosed_of_behindWords nested opens
    rw [enclosed]
    exact .inr ⟨params, _, hasParameters, rfl, rfl⟩
  · exact .inl rfl

/-- An event with a name and a parenthesis is not malformed. -/
theorem EventDecl.ofItem_ne_malformed
    (introduces : Introduces keyword gap name blank)
    (named : name ≠ [])
    (shown_eq : item.shown = keyword ++ (gap ++ (name ++ (blank ++ '(' :: inner)))) :
    ofItem item ≠ item.fail .malformedEvent := by
  have spaced : startsWithSpace (afterWord item.shown) = true := by
    rw [shown_eq, introduces.afterWord_eq]
    cases gap with
    | nil => exact absurd (introduces.apart rfl).1 named
    | cons c gap => exact introduces.gapBlank c List.mem_cons_self
  have word : leadingWord (skipSpace (afterWord item.shown)) = name := by
    rw [shown_eq, introduces.skipSpace_afterWord named]
    exact (leadingWord_append introduces.inName introduces.isBlank fun _ => rfl).1
  have opens : skipSpace (afterWord (skipSpace (afterWord item.shown))) = '(' :: inner := by
    rw [shown_eq]
    exact introduces.behindWords_eq inner
  have nonempty : name.isEmpty = false := by simpa using named
  intro malformed
  unfold ofItem at malformed
  dsimp only at malformed
  rw [spaced, word, opens, nonempty] at malformed
  split at malformed
  · split at malformed <;> cases malformed
  · next noParenthesis => exact noParenthesis inner rfl rfl

/-- The parameters of a function are found, or it is malformed. -/
theorem FunctionDecl.malformed_or_hasParameters
    (nested : Bracket.Nested item.shown) :
    ofItem item = item.fail .malformedFunction ∨
      ∃ params, HasParameters item.shown params ∧
        (ofItem item = item.fail .unclosedReturnParameters ∨
          ∃ decl, ofItem item = .ok decl ∧ decl.params = Parameter.readList params) := by
  unfold ofItem
  dsimp only
  split
  · next inner opens =>
    obtain ⟨params, fromClose, enclosed, hasParameters⟩ :=
      exists_enclosed_of_behindWords nested opens
    rw [enclosed]
    refine .inr ⟨params, hasParameters, ?_⟩
    dsimp only
    split
    · exact .inl rfl
    · exact .inr ⟨_, rfl, rfl⟩
  · exact .inl rfl

/-- A function with a parenthesis behind its keyword and its name is not malformed. -/
theorem FunctionDecl.ofItem_ne_malformed
    (introduces : Introduces keyword gap name blank)
    (shown_eq : item.shown = keyword ++ (gap ++ (name ++ (blank ++ '(' :: inner)))) :
    ofItem item ≠ item.fail .malformedFunction := by
  have opens : skipSpace (afterWord (skipSpace (afterWord item.shown))) = '(' :: inner := by
    rw [shown_eq]
    exact introduces.behindWords_eq inner
  intro malformed
  unfold ofItem at malformed
  dsimp only at malformed
  rw [opens] at malformed
  split at malformed
  · split at malformed
    · cases malformed
    · split at malformed <;> cases malformed
  · next noParenthesis => exact noParenthesis inner rfl

end Readers

/-! ## Parsing -/

/-- The items of a text are nested. -/
theorem nested_of_splitItems
    {position : Position} {glyphs : List Glyph} {items : List Item}
    (split : splitItems position glyphs = .ok items) :
    ∀ item ∈ items, Bracket.Nested item.shown := by
  intro item listed
  have complete := ((cut_of_splitItems split).complete_partOf item listed).1
  exact Bracket.nested_iff_foldlM_track.2 complete.completes.nested

/-- The faults of a parameter list whose end is not found. -/
def ParseFault.endlessParameters : List ParseFault :=
  [.unclosedEventParameters, .unclosedFunctionParameters]

/-- A result does not fail for a parameter list whose end is not found. -/
def FindsEnds {α : Type} (result : Except ParseError α) : Prop :=
  ∀ error, result = .error error → error.fault ∉ ParseFault.endlessParameters

namespace FindsEnds

variable {α β : Type}

theorem ne_error
    {result : Except ParseError α}
    (finds : FindsEnds result)
    (line : Nat) :
    result ≠ .error ⟨.unclosedEventParameters, line⟩ ∧
      result ≠ .error ⟨.unclosedFunctionParameters, line⟩ :=
  ⟨fun failed => finds _ failed List.mem_cons_self,
    fun failed => finds _ failed (List.mem_cons_of_mem _ (List.mem_singleton_self _))⟩

theorem ok (value : α) : FindsEnds (.ok value) :=
  nofun

theorem error
    {fault : ParseFault}
    (other : fault ∉ ParseFault.endlessParameters)
    (line : Nat) :
    FindsEnds (.error ⟨fault, line⟩ : Except ParseError α) := by
  rintro _ ⟨⟩
  exact other

theorem bind
    {first : Except ParseError α} {second : α → Except ParseError β}
    (firstFinds : FindsEnds first)
    (secondFinds : ∀ value, first = .ok value → FindsEnds (second value)) :
    FindsEnds (first >>= second) := by
  cases found : first with
  | error failure =>
    rw [found] at firstFinds
    rintro _ ⟨⟩
    exact firstFinds failure rfl
  | ok value => exact secondFinds value found

theorem mapM
    {read : α → Except ParseError β} {values : List α}
    (each : ∀ value ∈ values, FindsEnds (read value)) :
    FindsEnds (values.mapM read) := by
  induction values with
  | nil => exact .ok []
  | cons value values ih =>
    obtain ⟨first, rest⟩ := List.forall_mem_cons.1 each
    rw [List.mapM_cons]
    exact first.bind fun _ _ => (ih rest).bind fun _ _ => .ok _

theorem foldlM
    {step : β → α → Except ParseError β} {values : List α}
    (each : ∀ state value, FindsEnds (step state value))
    (start : β) :
    FindsEnds (values.foldlM step start) := by
  induction values generalizing start with
  | nil => exact .ok start
  | cons value values ih =>
    rw [List.foldlM_cons]
    exact (each start value).bind fun next _ => ih next

/-- Neither scanning a text nor splitting it looks for parameters. -/
theorem glyphs (source : List Char) : FindsEnds (ContractDoc.glyphs source) := by
  refine bind ?_ fun _ _ => .ok _
  intro error failed
  obtain ⟨_, _, fault, _, _, unclosed, rfl⟩ := Lexeme.readFrom_eq_error_iff.1 failed
  have other : fault ∉ ParseFault.endlessParameters := by
    cases unclosed <;> decide
  exact other

theorem step (splitter : Splitter) (glyph : Glyph) : FindsEnds (splitter.step glyph) := by
  have extend (draft : Draft) : FindsEnds (splitter.extend draft glyph) := by
    rw [Splitter.extend_eq]
    split
    · exact error (by simp [ParseFault.endlessParameters]) _
    · split <;> exact .ok _
  unfold Splitter.step
  split
  · exact extend _
  · split
    · exact .ok _
    · exact extend _

theorem splitItems (position : Position) (glyphs : List Glyph) :
    FindsEnds (ContractDoc.splitItems position glyphs) := by
  refine bind (foldlM step _) fun splitter _ => ?_
  unfold Splitter.finish
  split
  · exact .ok _
  · split
    · exact error (by simp [ParseFault.endlessParameters]) _
    · exact error (by simp [ParseFault.endlessParameters]) _

section Nested

variable {item : Item} (nested : Bracket.Nested item.shown)
include nested

theorem event : FindsEnds (EventDecl.ofItem item) := by
  rcases EventDecl.malformed_or_ofItem_eq_ok nested with malformed | ⟨_, decl, _, read, _⟩
  · rw [malformed]
    exact error (by decide) _
  · rw [read]
    exact .ok decl

theorem function : FindsEnds (FunctionDecl.ofItem item) := by
  rcases FunctionDecl.malformed_or_hasParameters nested with
    malformed | ⟨_, _, unclosed | ⟨decl, read, _⟩⟩
  · rw [malformed]
    exact error (by decide) _
  · rw [unclosed]
    exact error (by decide) _
  · rw [read]
    exact .ok decl

/-- Members are read from nested items. -/
theorem member : FindsEnds (Member.read item) := by
  unfold Member.read
  dsimp only
  split
  · exact (event nested).bind fun _ _ => .ok _
  · split
    · exact .ok _
    · split
      · exact (function nested).bind fun _ _ => .ok _
      · split <;> exact .ok _

end Nested

theorem contract (item : Item) : FindsEnds (ContractDecl.ofItem item) := by
  have opened : FindsEnds (ContractDecl.open? item) := by
    unfold ContractDecl.open?
    split
    · exact (splitItems _ _).bind fun _ _ => .ok _
    · exact error (by decide) _
  refine opened.bind fun ⟨head, items⟩ found => ?_
  refine bind (mapM fun member listed => ?_) fun _ _ => .ok _
  unfold ContractDecl.open? at found
  split at found
  · obtain ⟨items, split, ⟨⟩⟩ := bind_eq_ok.1 found
    exact FindsEnds.member (nested_of_splitItems split member listed)
  · cases found

theorem declaration (item : Item) : FindsEnds (Declaration.read item) := by
  have pragma : FindsEnds (PragmaDecl.ofItem item) := by
    unfold PragmaDecl.ofItem
    split
    · exact error (by decide) _
    · exact .ok _
  have importing : FindsEnds (ImportDecl.ofItem item) := by
    unfold ImportDecl.ofItem
    split
    · exact error (by decide) _
    · exact .ok _
  unfold Declaration.read
  dsimp only
  split
  · exact pragma.bind fun _ _ => .ok _
  · split
    · exact importing.bind fun _ _ => .ok _
    · split
      · exact (contract item).bind fun _ _ => .ok _
      · exact .ok _

/-- No source text is refused for a parameter list whose end is not found. -/
theorem parse (source : String) : FindsEnds (ContractDoc.parse source) := by
  refine bind ?_ fun items _ => bind (mapM fun item _ => declaration item) fun _ _ => .ok _
  exact (glyphs source.toList).bind fun found _ => splitItems _ found

end FindsEnds

/-- **Parameter lists are closed.**  In every item of a text that is split, each parenthesis has
exactly one partner among all brackets, and the search for it, which counts parentheses only,
finds it.  So an event and a function whose words are followed by a parenthesis are read with
the parameters up to its partner, except for what may be wrong behind them; and no source text
is refused for a parameter list without an end. -/
theorem parameters_closed :
    (∀ position glyphs items, splitItems position glyphs = .ok items → ∀ item ∈ items,
      (∀ index : Nat, item.shown[index]? = some '(' →
        ∃ close : Nat, Nesting.partner item.shown index = .found close ∧
          ∀ other, Bracket.Partners item.shown index other ↔ other = close) ∧
      (∀ keyword gap name blank inner, Introduces keyword gap name blank → name ≠ [] →
        item.shown = keyword ++ (gap ++ (name ++ (blank ++ '(' :: inner))) →
          ∃ params decl, HasParameters item.shown params ∧ EventDecl.ofItem item = .ok decl ∧
            decl.params = Parameter.readList params) ∧
      (∀ keyword gap name blank inner, Introduces keyword gap name blank →
        item.shown = keyword ++ (gap ++ (name ++ (blank ++ '(' :: inner))) →
          ∃ params, HasParameters item.shown params ∧
            (FunctionDecl.ofItem item = item.fail .unclosedReturnParameters ∨
              ∃ decl, FunctionDecl.ofItem item = .ok decl ∧
                decl.params = Parameter.readList params)) ∧
      ∀ line, EventDecl.ofItem item ≠ .error ⟨.unclosedEventParameters, line⟩ ∧
        FunctionDecl.ofItem item ≠ .error ⟨.unclosedFunctionParameters, line⟩) ∧
    ∀ source line, parse source ≠ .error ⟨.unclosedEventParameters, line⟩ ∧
      parse source ≠ .error ⟨.unclosedFunctionParameters, line⟩ := by
  refine ⟨?_, fun source => (FindsEnds.parse source).ne_error⟩
  intro position glyphs items split item listed
  have nested := nested_of_splitItems split item listed
  refine ⟨?_, ?_, ?_, fun line => ?_⟩
  · intro index opens
    obtain ⟨close, found, partners⟩ := Nesting.exists_partner_of_nested nested opens
    refine ⟨close, found, fun other => ⟨fun others => others.unique partners, ?_⟩⟩
    rintro rfl
    exact partners
  · intro keyword gap name blank inner introduces named shown_eq
    exact (EventDecl.malformed_or_ofItem_eq_ok nested).resolve_left
      (EventDecl.ofItem_ne_malformed introduces named shown_eq)
  · intro keyword gap name blank inner introduces shown_eq
    exact (FunctionDecl.malformed_or_hasParameters nested).resolve_left
      (FunctionDecl.ofItem_ne_malformed introduces shown_eq)
  · exact ⟨((FindsEnds.event nested).ne_error line).1,
      ((FindsEnds.function nested).ne_error line).2⟩

/-- An event whose parameter list holds brackets of two kinds. -/
def bracketedEvent : Item :=
  ⟨.origin, "event E (a[b(c)] d);".toList.map .kept⟩

/-- A function behind it, with brackets of all kinds. -/
def bracketedFunction : Item :=
  ⟨⟨20, 1⟩, "function(f(g) h)\x7b(i)[j]\x7d".toList.map .kept⟩

/-- The parameter lists of both items are closed, that of the event by its last parenthesis. -/
theorem bracketed_parameters_closed :
    (∀ other, Bracket.Partners bracketedEvent.shown 8 other ↔ other = 18) ∧
      (∃ params decl, HasParameters bracketedEvent.shown params ∧
        EventDecl.ofItem bracketedEvent = .ok decl ∧
          decl.params = Parameter.readList params) ∧
      ∃ params, HasParameters bracketedFunction.shown params ∧
        (FunctionDecl.ofItem bracketedFunction =
            bracketedFunction.fail .unclosedReturnParameters ∨
          ∃ decl, FunctionDecl.ofItem bracketedFunction = .ok decl ∧
            decl.params = Parameter.readList params) := by
  have split : splitItems .origin (bracketedEvent.glyphs ++ bracketedFunction.glyphs) =
      .ok [bracketedEvent, bracketedFunction] := by
    decide
  have event := parameters_closed.1 _ _ _ split bracketedEvent (by decide +kernel)
  have function := parameters_closed.1 _ _ _ split bracketedFunction (by decide +kernel)
  refine ⟨?_, ?_, ?_⟩
  · obtain ⟨close, found, only⟩ := event.1 8 rfl
    have at_index : Nesting.partner bracketedEvent.shown 8 = .found 18 := by decide +kernel
    have close_eq := Nesting.Partner.found.inj (at_index.symm.trans found)
    obtain rfl : close = 18 := by omega
    exact only
  · refine event.2.1 "event".toList [' '] ['E'] [' '] "a[b(c)] d);".toList
      ⟨?_, ?_, ?_, ?_, nofun⟩ (List.cons_ne_nil _ _) rfl
    all_goals exact List.all_eq_true.1 rfl
  · refine function.2.2.1 "function".toList [] [] [] "f(g) h)\x7b(i)[j]\x7d".toList
      ⟨?_, ?_, ?_, ?_, fun _ => ⟨rfl, rfl⟩⟩ rfl
    all_goals exact List.all_eq_true.1 rfl

end ContractDoc
