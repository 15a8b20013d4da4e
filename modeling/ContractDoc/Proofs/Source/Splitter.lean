import ContractDoc.Proofs.Outcome
import ContractDoc.Source.Item

/-!
# The steps of the splitter

What one character does to a splitter, said once.  Inside an item a character
first acts on the brackets that are open, and is refused if it closes none of
them; the item then ends behind it or goes on.  Everything known about the items
of a text is derived from `extend_eq` by following the characters.
-/

namespace ContractDoc

open Text

namespace Bracket

/-- The brackets that are open behind a character, innermost first, when those of
`unclosed` are open before it.  There are none behind a closing bracket that does
not fit the innermost open one. -/
def track (unclosed : List Bracket) (c : Char) : Option (List Bracket) :=
  match ofOpening? c, ofClosing? c with
  | some bracket, _ => some (bracket :: unclosed)
  | none, some bracket =>
      match unclosed with
      | [] => none
      | innermost :: outer => if innermost = bracket then some outer else none
  | none, none => some unclosed

theorem ofClosing?_eq_curly_iff {c : Char} : ofClosing? c = some .curly ↔ c = '}' := by
  constructor
  · intro closes
    unfold ofClosing? at closes
    split at closes <;> simp_all
  · rintro rfl
    rfl

end Bracket

namespace Draft

/-- Whether an item ends behind a character that leaves the brackets of
`unclosed` open. -/
def EndsBehind (draft : Draft) (glyph : Glyph) (unclosed : List Bracket) : Prop :=
  unclosed = [] ∧
    (glyph.shown = ';' ∨ glyph.shown = '}' ∧ (draft.push glyph).isImport = false)

instance (draft : Draft) (glyph : Glyph) (unclosed : List Bracket) :
    Decidable (draft.EndsBehind glyph unclosed) :=
  inferInstanceAs (Decidable (_ ∧ _))

end Draft

namespace Splitter

/-- What a character does inside an item. -/
theorem extend_eq (splitter : Splitter) (draft : Draft) (glyph : Glyph) :
    splitter.extend draft glyph =
      match Bracket.track draft.unclosed glyph.shown with
      | none => splitter.refuse glyph
      | some unclosed =>
          if draft.EndsBehind glyph unclosed then
            .ok (splitter.close glyph (draft.push glyph))
          else .ok (splitter.goOn glyph { draft.push glyph with unclosed := unclosed }) := by
  unfold extend Bracket.track
  cases opens : Bracket.ofOpening? glyph.shown with
  | some bracket =>
    have goesOn : ¬ draft.EndsBehind glyph (bracket :: draft.unclosed) := nofun
    simp only [if_neg goesOn]
    rfl
  | none =>
    cases closes : Bracket.ofClosing? glyph.shown with
    | none =>
      have notBrace : glyph.shown ≠ '}' := by
        intro brace
        rw [brace] at closes
        cases closes
      have ends : (glyph.shown == ';' && (draft.push glyph).unclosed.isEmpty) = true ↔
          draft.EndsBehind glyph draft.unclosed := by
        simp [Draft.EndsBehind, Draft.push, notBrace, and_comm]
      simp only [ends]
      rfl
    | some bracket =>
      have notSemicolon : glyph.shown ≠ ';' := by
        intro semicolon
        rw [semicolon] at closes
        cases closes
      have unclosedEq : (draft.push glyph).unclosed = draft.unclosed := rfl
      simp only [unclosedEq]
      cases draft.unclosed with
      | nil => rfl
      | cons innermost outer =>
        by_cases fits : innermost = bracket
        · have ends : (outer.isEmpty && bracket == .curly && !(draft.push glyph).isImport) = true ↔
              draft.EndsBehind glyph outer := by
            rw [Draft.EndsBehind, ← Bracket.ofClosing?_eq_curly_iff, closes]
            simp [notSemicolon, and_assoc]
          simp only [ne_eq, fits, not_true_eq_false, ↓reduceIte, ends]
        · simp only [ne_eq, fits, not_false_eq_true, ↓reduceIte]

/-- Between two items, white space is passed over and another character opens the
next item. -/
theorem step_of_draft_eq_none
    {splitter : Splitter} (idle : splitter.draft = none) (glyph : Glyph) :
    splitter.step glyph =
      if isSpace glyph.shown then
        .ok { splitter with position := splitter.position.advance glyph.raw }
      else splitter.extend ⟨splitter.position, [], []⟩ glyph := by
  rw [step, idle]

/-- Inside an item a character adds to it. -/
theorem step_of_draft_eq_some
    {splitter : Splitter} {draft : Draft} (reading : splitter.draft = some draft)
    (glyph : Glyph) :
    splitter.step glyph = splitter.extend draft glyph := by
  rw [step, reading]

/-- A character inside an item that is not refused ends the item or lets it go on. -/
theorem extend_eq_ok_iff
    {splitter next : Splitter} {draft : Draft} {glyph : Glyph} :
    splitter.extend draft glyph = .ok next ↔
      ∃ unclosed, Bracket.track draft.unclosed glyph.shown = some unclosed ∧
        (draft.EndsBehind glyph unclosed ∧
            next = splitter.close glyph (draft.push glyph) ∨
          ¬ draft.EndsBehind glyph unclosed ∧
            next = splitter.goOn glyph { draft.push glyph with unclosed := unclosed }) := by
  rw [extend_eq]
  cases Bracket.track draft.unclosed glyph.shown with
  | none => simp [refuse]
  | some unclosed =>
    by_cases ends : draft.EndsBehind glyph unclosed
    · simp [ends, eq_comm]
    · simp [ends, eq_comm]

theorem position_of_extend
    {splitter next : Splitter} {draft : Draft} {glyph : Glyph}
    (extended : splitter.extend draft glyph = .ok next) :
    next.position = splitter.position.advance glyph.raw := by
  obtain ⟨unclosed, _, ⟨_, rfl⟩ | ⟨_, rfl⟩⟩ := extend_eq_ok_iff.1 extended
  · rfl
  · rfl

/-- A splitter stands behind the characters that it has read. -/
theorem position_of_step
    {splitter next : Splitter} {glyph : Glyph}
    (stepped : splitter.step glyph = .ok next) :
    next.position = splitter.position.advance glyph.raw := by
  cases reading : splitter.draft with
  | some draft =>
    rw [step_of_draft_eq_some reading] at stepped
    exact position_of_extend stepped
  | none =>
    rw [step_of_draft_eq_none reading] at stepped
    split at stepped
    · cases stepped
      rfl
    · exact position_of_extend stepped

/-- A splitter stands behind the text that it has read. -/
theorem position_of_foldlM
    {splitter last : Splitter} {glyphs : List Glyph}
    (run : glyphs.foldlM step splitter = .ok last) :
    last.position = splitter.position.advanceBy (glyphs.map Glyph.raw) := by
  induction glyphs generalizing splitter with
  | nil =>
    cases run
    rfl
  | cons glyph glyphs ih =>
    rw [List.foldlM_cons] at run
    obtain ⟨next, stepped, run⟩ := bind_eq_ok.1 run
    rw [ih run, position_of_step stepped]
    rfl

/-- A text ends well between two items only. -/
theorem finish_eq_ok_iff {splitter : Splitter} {items : List Item} :
    splitter.finish = .ok items ↔ splitter.draft = none ∧ splitter.items.reverse = items := by
  unfold finish
  cases splitter.draft with
  | none => simp
  | some draft =>
    constructor
    · intro finished
      simp only at finished
      split at finished <;> cases finished
    · rintro ⟨idle, -⟩
      cases idle

end Splitter

/-- A text is split if its characters are read one after the other and the last
one ends an item or is white space. -/
theorem splitItems_eq_ok_iff
    {position : Position} {glyphs : List Glyph} {items : List Item} :
    splitItems position glyphs = .ok items ↔
      ∃ splitter, glyphs.foldlM Splitter.step (.start position) = .ok splitter ∧
        splitter.draft = none ∧ splitter.items.reverse = items := by
  rw [splitItems, bind_eq_ok]
  simp only [Splitter.finish_eq_ok_iff]

end ContractDoc
