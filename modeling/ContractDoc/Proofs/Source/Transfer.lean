import ContractDoc.Proofs.Source.Lexeme
import ContractDoc.Proofs.Source.Splitter

/-!
# Moved and repainted texts

What is read from a text does not depend on the place where the text stands,
and the splitting of a text does not depend on the characters that its skeleton
hides.  A `Transfer` moves every position by a fixed `Shift` and may exchange
characters of the source as long as the skeleton and the line feeds stay.
Reading a transferred text gives the transferred result.
-/

namespace ContractDoc

/-- How far one place lies behind another one, in characters and in lines. -/
structure Shift where
  offset : Nat
  lines : Nat
  deriving DecidableEq, Repr

namespace Shift

variable {α β γ δ : Type}

/-- The shift that moves nothing. -/
def zero : Shift := ⟨0, 0⟩

/-- The shift of what stands behind a text at the start of a file. -/
def behind (text : List Char) : Shift := ⟨text.length, text.count '\n'⟩

/-- A moved position. -/
def position (shift : Shift) (position : Position) : Position where
  offset := position.offset + shift.offset
  line := position.line + shift.lines

/-- A parse error on a moved line. -/
def error (shift : Shift) (error : ParseError) : ParseError where
  fault := error.fault
  line := error.line + shift.lines

/-- A result whose value is changed by `move` and whose error is moved. -/
def result (shift : Shift) (move : α → β) : Except ParseError α → Except ParseError β
  | .ok value => .ok (move value)
  | .error error => .error (shift.error error)

@[simp] theorem result_ok (shift : Shift) (move : α → β) (value : α) :
    shift.result move (.ok value) = .ok (move value) := rfl

@[simp] theorem result_pure (shift : Shift) (move : α → β) (value : α) :
    shift.result move (pure value) = pure (move value) := rfl

theorem advanceBy_origin (text : List Char) :
    Position.origin.advanceBy text = (behind text).position .origin := by
  have offset := Position.offset_advanceBy .origin text
  have line := Position.line_advanceBy .origin text
  rw [position, behind, ← offset, ← line]

theorem position_advance (shift : Shift) (position : Position) (c : Char) :
    (shift.position position).advance c = shift.position (position.advance c) := by
  simp only [Shift.position, Position.advance, Position.mk.injEq]
  constructor
  · omega
  · split <;> omega

theorem position_advanceBy (shift : Shift) (position : Position) (text : List Char) :
    (shift.position position).advanceBy text = shift.position (position.advanceBy text) := by
  induction text generalizing position with
  | nil => rfl
  | cons c rest ih =>
    rw [Position.advanceBy_cons, Position.advanceBy_cons, position_advance, ih]

/-- A composed result moves if its parts do. -/
theorem result_bind
    {shift : Shift} {front : α → γ} {back : β → δ}
    {second : α → Except ParseError β} {secondMoved : γ → Except ParseError δ}
    (first : Except ParseError α)
    (moves : ∀ value, secondMoved (front value) = shift.result back (second value)) :
    shift.result front first >>= secondMoved = shift.result back (first >>= second) := by
  cases first with
  | error error => rfl
  | ok value => exact moves value

/-- A list of results moves if each of them does. -/
theorem result_mapM
    {shift : Shift} {front : α → γ} {back : β → δ}
    {read : α → Except ParseError β} {readMoved : γ → Except ParseError δ}
    (moves : ∀ value, readMoved (front value) = shift.result back (read value))
    (values : List α) :
    (values.map front).mapM readMoved = shift.result (List.map back) (values.mapM read) := by
  induction values with
  | nil => rfl
  | cons value values ih =>
    rw [List.map_cons, List.mapM_cons, List.mapM_cons, moves, ih]
    cases read value with
    | error error => rfl
    | ok first => cases values.mapM read <;> rfl

end Shift

/-- Reading at a moved position, behind earlier lexemes, moves what is read and
puts those lexemes first. -/
theorem Lexeme.readFrom_shift
    (shift : Shift)
    (earlier : List Lexeme)
    (position : Position)
    (before : List Lexeme)
    (text : List Char) :
    readFrom (shift.position position) (before ++ earlier) text =
      shift.result (earlier.reverse ++ ·) (readFrom position before text) := by
  fun_induction readFrom position before text with
  | case1 position before => simp [readFrom]
  | case2 position before c rest fault failed =>
    rw [readFrom_cons_of_error failed]
    rfl
  | case3 position before c rest lexeme after first ih =>
    rw [readFrom_cons_of_ok first, Shift.position_advanceBy, ← ih, List.cons_append]

/-- Behind a text and a line feed, a text is read as the lexemes that it has by
itself. -/
theorem Lexeme.read_append_lineFeed
    {first second : List Char} {lexemes : List Lexeme}
    (reading : read first = .ok lexemes) :
    read (first ++ '\n' :: second) =
      (Shift.behind (first ++ ['\n'])).result (lexemes ++ [.code '\n'] ++ ·) (read second) := by
  obtain ⟨rfl, row⟩ := read_eq_ok_iff.1 reading
  have text : (lexemes ++ [code '\n']).flatMap raw = lexemes.flatMap raw ++ ['\n'] := by
    simp [raw]
  calc read (lexemes.flatMap raw ++ '\n' :: second)
      = readFrom .origin [] ((lexemes ++ [code '\n']).flatMap raw ++ second) := by
        rw [text, List.append_assoc]
        rfl
    _ = readFrom ((Shift.behind (lexemes.flatMap raw ++ ['\n'])).position .origin)
          ([] ++ (lexemes ++ [code '\n']).reverse) second := by
        rw [readFrom_append row.lineFeed, text, Shift.advanceBy_origin, List.append_nil,
          List.nil_append]
    _ = _ := by
        rw [readFrom_shift, List.reverse_reverse]
        rfl

/-- The characters of a text behind another one and a line feed. -/
theorem glyphs_append_lineFeed
    {first second : List Char} {front : List Glyph}
    (found : glyphs first = .ok front) :
    glyphs (first ++ '\n' :: second) =
      (Shift.behind (first ++ ['\n'])).result (front ++ .kept '\n' :: ·) (glyphs second) := by
  obtain ⟨lexemes, reading, rfl⟩ := glyphs_eq_ok_iff.1 found
  rw [glyphs, Lexeme.read_append_lineFeed reading]
  refine Shift.result_bind _ fun later => ?_
  simp [Lexeme.glyphs]

/-- A change of a text that moves it and keeps its skeleton and its line feeds. -/
structure Transfer where
  shift : Shift
  glyph : Glyph → Glyph
  shown_glyph : ∀ original, (glyph original).shown = original.shown
  lineFeed_glyph : ∀ original, (glyph original).raw = '\n' ↔ original.raw = '\n'

namespace Transfer

attribute [simp] shown_glyph

/-- Moving a text as it is. -/
def move (shift : Shift) : Transfer where
  shift := shift
  glyph := id
  shown_glyph _ := rfl
  lineFeed_glyph _ := Iff.rfl

/-- A transferred item. -/
def item (transfer : Transfer) (item : Item) : Item where
  start := transfer.shift.position item.start
  glyphs := item.glyphs.map transfer.glyph

/-- A transferred draft. -/
def draft (transfer : Transfer) (draft : Draft) : Draft where
  start := transfer.shift.position draft.start
  taken := draft.taken.map transfer.glyph
  unclosed := draft.unclosed

/-- A transferred splitter that has found the items of `earlier`, last first,
before. -/
def splitter (transfer : Transfer) (earlier : List Item) (splitter : Splitter) :
    Splitter where
  position := transfer.shift.position splitter.position
  draft := splitter.draft.map transfer.draft
  items := splitter.items.map transfer.item ++ earlier

variable (transfer : Transfer)

theorem position_advance (position : Position) (glyph : Glyph) :
    (transfer.shift.position position).advance (transfer.glyph glyph).raw =
      transfer.shift.position (position.advance glyph.raw) := by
  rw [← Shift.position_advance]
  simp only [Position.advance, transfer.lineFeed_glyph glyph]

theorem position_advanceBy (position : Position) (glyphs : List Glyph) :
    (transfer.shift.position position).advanceBy ((glyphs.map transfer.glyph).map Glyph.raw) =
      transfer.shift.position (position.advanceBy (glyphs.map Glyph.raw)) := by
  induction glyphs generalizing position with
  | nil => rfl
  | cons glyph glyphs ih =>
    simp only [List.map_cons, Position.advanceBy_cons, position_advance, ih]

theorem map_shown (glyphs : List Glyph) :
    (glyphs.map transfer.glyph).map Glyph.shown = glyphs.map Glyph.shown := by
  rw [List.map_map]
  exact List.map_congr_left fun glyph _ => transfer.shown_glyph glyph

@[simp] theorem shown_item (item : Item) :
    (transfer.item item).shown = item.shown :=
  transfer.map_shown item.glyphs

@[simp] theorem unclosed_draft (draft : Draft) :
    (transfer.draft draft).unclosed = draft.unclosed := rfl

theorem toItem_draft (draft : Draft) :
    (transfer.draft draft).toItem = transfer.item draft.toItem := by
  simp only [Draft.toItem, Transfer.draft, item, List.map_reverse]

@[simp] theorem isImport_draft (draft : Draft) :
    (transfer.draft draft).isImport = draft.isImport := by
  rw [Draft.isImport, toItem_draft, shown_item]
  rfl

theorem push_draft (draft : Draft) (glyph : Glyph) :
    (transfer.draft draft).push (transfer.glyph glyph) =
      transfer.draft (draft.push glyph) := rfl

@[simp] theorem endsBehind_draft
    (draft : Draft) (glyph : Glyph) (unclosed : List Bracket) :
    (transfer.draft draft).EndsBehind (transfer.glyph glyph) unclosed ↔
      draft.EndsBehind glyph unclosed := by
  simp only [Draft.EndsBehind, shown_glyph, push_draft, isImport_draft]

theorem refuse_splitter (earlier : List Item) (splitter : Splitter) (glyph : Glyph) :
    (transfer.splitter earlier splitter).refuse (transfer.glyph glyph) =
      transfer.shift.result (transfer.splitter earlier) (splitter.refuse glyph) := by
  rw [Splitter.refuse, shown_glyph]
  rfl

theorem goOn_splitter
    (earlier : List Item) (splitter : Splitter) (glyph : Glyph) (draft : Draft) :
    (transfer.splitter earlier splitter).goOn (transfer.glyph glyph) (transfer.draft draft) =
      transfer.splitter earlier (splitter.goOn glyph draft) := by
  simp only [Splitter.goOn, Transfer.splitter, position_advance, Option.map_some]

theorem close_splitter
    (earlier : List Item) (splitter : Splitter) (glyph : Glyph) (draft : Draft) :
    (transfer.splitter earlier splitter).close (transfer.glyph glyph) (transfer.draft draft) =
      transfer.splitter earlier (splitter.close glyph draft) := by
  simp only [Splitter.close, Transfer.splitter, position_advance, toItem_draft,
    Option.map_none, List.map_cons, List.cons_append]

theorem extend_splitter
    (earlier : List Item) (splitter : Splitter) (draft : Draft) (glyph : Glyph) :
    (transfer.splitter earlier splitter).extend (transfer.draft draft) (transfer.glyph glyph) =
      transfer.shift.result (transfer.splitter earlier) (splitter.extend draft glyph) := by
  rw [Splitter.extend_eq, Splitter.extend_eq, shown_glyph, unclosed_draft]
  cases Bracket.track draft.unclosed glyph.shown with
  | none => exact transfer.refuse_splitter earlier splitter glyph
  | some unclosed =>
    simp only [endsBehind_draft]
    split
    · exact congrArg Except.ok
        (transfer.close_splitter earlier splitter glyph (draft.push glyph))
    · exact congrArg Except.ok (transfer.goOn_splitter earlier splitter glyph
        { draft.push glyph with unclosed := unclosed })

/-- One character moves a transferred splitter like the original one. -/
theorem step_splitter (earlier : List Item) (splitter : Splitter) (glyph : Glyph) :
    (transfer.splitter earlier splitter).step (transfer.glyph glyph) =
      transfer.shift.result (transfer.splitter earlier) (splitter.step glyph) := by
  rcases splitter with ⟨position, draft, items⟩
  cases draft with
  | some draft => exact transfer.extend_splitter earlier _ draft glyph
  | none =>
    by_cases blank : Text.isSpace glyph.shown
    · simp only [Splitter.step, Transfer.splitter, Option.map_none, shown_glyph, blank,
        ↓reduceIte, position_advance, Shift.result_ok]
    · rw [Splitter.step, Splitter.step]
      simp only [Transfer.splitter, Option.map_none, shown_glyph, if_neg blank]
      exact transfer.extend_splitter earlier ⟨position, none, items⟩ ⟨position, [], []⟩ glyph

/-- A whole text moves a transferred splitter like the original one. -/
theorem foldlM_splitter (earlier : List Item) (splitter : Splitter) (glyphs : List Glyph) :
    (glyphs.map transfer.glyph).foldlM Splitter.step (transfer.splitter earlier splitter) =
      transfer.shift.result (transfer.splitter earlier)
        (glyphs.foldlM Splitter.step splitter) := by
  induction glyphs generalizing splitter with
  | nil => rfl
  | cons glyph glyphs ih =>
    rw [List.map_cons, List.foldlM_cons, List.foldlM_cons, step_splitter]
    exact Shift.result_bind _ ih

theorem finish_splitter (earlier : List Item) (splitter : Splitter) :
    (transfer.splitter earlier splitter).finish =
      transfer.shift.result (fun items => earlier.reverse ++ items.map transfer.item)
        splitter.finish := by
  rcases splitter with ⟨position, draft, items⟩
  cases draft with
  | none => simp [Splitter.finish, Transfer.splitter]
  | some draft =>
    rcases draft with ⟨start, taken, unclosed⟩
    cases unclosed <;> rfl

/-- A transferred text has the transferred items. -/
theorem splitItems_transfer (position : Position) (glyphs : List Glyph) :
    splitItems (transfer.shift.position position) (glyphs.map transfer.glyph) =
      transfer.shift.result (List.map transfer.item) (splitItems position glyphs) := by
  have fold := transfer.foldlM_splitter [] (.start position) glyphs
  rw [splitItems, splitItems, show Splitter.start (transfer.shift.position position) =
    transfer.splitter [] (.start position) from rfl, fold]
  exact Shift.result_bind _ (transfer.finish_splitter [])

end Transfer

/-- Behind a complete text and white space, a text has the items that it has by itself, moved.
Behind the white space the splitter looks like one at the start of the moved text. -/
theorem splitItems_append
    {front back : List Glyph} {blank : Glyph} {items : List Item}
    (split : splitItems .origin front = .ok items)
    (space : Text.isSpace blank.shown = true) :
    splitItems .origin (front ++ blank :: back) =
      (Shift.behind ((front ++ [blank]).map Glyph.raw)).result
        (fun later => items ++
          later.map (Transfer.move (.behind ((front ++ [blank]).map Glyph.raw))).item)
        (splitItems .origin back) := by
  obtain ⟨splitter, run, idle, rfl⟩ := splitItems_eq_ok_iff.1 split
  let transfer := Transfer.move (.behind ((front ++ [blank]).map Glyph.raw))
  have position : splitter.position.advance blank.raw = transfer.shift.position .origin := by
    rw [Splitter.position_of_foldlM run]
    show _ = (Shift.behind _).position .origin
    rw [← Shift.advanceBy_origin, List.map_append, Position.advanceBy_append]
    rfl
  have stepped : splitter.step blank =
      .ok (transfer.splitter splitter.items (.start .origin)) := by
    rw [Splitter.step_of_draft_eq_none idle, if_pos space, position, idle]
    rfl
  have fold := transfer.foldlM_splitter splitter.items (.start .origin) back
  rw [show back.map transfer.glyph = back from List.map_id back] at fold
  calc splitItems .origin (front ++ blank :: back)
      = splitter.step blank >>= fun next =>
          back.foldlM Splitter.step next >>= Splitter.finish := by
        rw [splitItems, List.foldlM_append, run, ← bind_assoc]
        rfl
    _ = back.foldlM Splitter.step (transfer.splitter splitter.items (.start .origin)) >>=
          Splitter.finish := by
        rw [stepped]
        rfl
    _ = _ := by
        rw [fold]
        exact Shift.result_bind _ (transfer.finish_splitter splitter.items)

end ContractDoc
