import ContractDoc.Proofs.Source.Cut
import ContractDoc.Proofs.Source.Nested
import Mathlib.Data.List.Chain
import Mathlib.Data.List.Infix
import Mathlib.Data.List.TakeWhile
import Mathlib.Tactic.MkIffOfInductiveProp

/-!
# Splitting what has been joined

A text is split at cuts that stand outside of brackets.  The depth that decides this is the
number of opening brackets less the number of closing ones; where brackets are nested it is
the number of those that are open.  A row of parts with cuts and white space between them is
split into these parts, whatever the parts hold inside of their brackets.
-/

namespace ContractDoc

open Text

namespace Text

/-- White space that separates two words. -/
structure IsGap (text : List Char) : Prop where
  nonempty : text ≠ []
  blank : ∀ c ∈ text, isSpace c = true

/-- Nothing is skipped of a text that begins with another character. -/
theorem skipSpace_of_visible
    {text : List Char}
    (starts : ∀ c ∈ text.head?, isSpace c = false) :
    skipSpace text = text := by
  cases text with
  | nil => rfl
  | cons c text => simp [skipSpace, starts c rfl]

theorem dropTrailingSpace_append
    {part trail : List Char}
    (trailBlank : ∀ c ∈ trail, isSpace c = true)
    (ends : ∀ c ∈ part.getLast?, isSpace c = false) :
    dropTrailingSpace (part ++ trail) = part := by
  have reversedBlank : ∀ c ∈ trail.reverse, isSpace c = true := by simpa using trailBlank
  have kept := @skipSpace_of_visible part.reverse (by simpa using ends)
  rw [skipSpace] at kept
  rw [dropTrailingSpace, List.reverse_append, List.dropWhile_append_of_pos reversedBlank, kept,
    List.reverse_reverse]

/-- Trimming takes away white space and nothing else. -/
theorem strip_append
    {lead part trail : List Char}
    (leadBlank : ∀ c ∈ lead, isSpace c = true)
    (trailBlank : ∀ c ∈ trail, isSpace c = true)
    (starts : ∀ c ∈ part.head?, isSpace c = false)
    (ends : ∀ c ∈ part.getLast?, isSpace c = false) :
    strip (lead ++ (part ++ trail)) = part := by
  rw [strip, skipSpace, List.dropWhile_append_of_pos leadBlank]
  by_cases none : part = []
  · subst none
    simp [List.dropWhile_eq_nil_iff.2 trailBlank, dropTrailingSpace]
  · have kept : skipSpace (part ++ trail) = part ++ trail := by
      apply skipSpace_of_visible
      rwa [List.head?_append_of_ne_nil _ none]
    rw [skipSpace] at kept
    rw [kept, dropTrailingSpace_append trailBlank ends]

theorem strip_of_blank
    {text : List Char}
    (blank : ∀ c ∈ text, isSpace c = true) :
    strip text = [] := by
  have stripped := @strip_append text [] [] blank (List.forall_mem_nil _) (by simp) (by simp)
  simpa using stripped

theorem strip_cons_of_isSpace
    {c : Char}
    (space : isSpace c = true)
    (text : List Char) :
    strip (c :: text) = strip text := by
  simp [strip, skipSpace, space]

/-- Up to a character, two texts in a row are a beginning of the first one, or the first one
and a beginning of the second. -/
theorem concat_prefix_append
    {part front back : List Char} {c : Char}
    (begins : part ++ [c] <+: front ++ back) :
    part ++ [c] <+: front ∨ ∃ later, part = front ++ later ∧ later ++ [c] <+: back := by
  rcases List.prefix_or_prefix_of_prefix begins (List.prefix_append front back) with
    early | late
  · exact .inl early
  · rcases List.prefix_concat_iff.1 late with rfl | ⟨later, rfl⟩
    · exact .inl List.prefix_rfl
    · rw [List.append_assoc, List.prefix_append_right_inj] at begins
      exact .inr ⟨later, rfl, begins⟩

section JoinWith

variable (separator piece next : List Char) (pieces : List (List Char))

@[simp] theorem joinWith_nil : joinWith separator [] = [] := rfl

@[simp] theorem joinWith_singleton : joinWith separator [piece] = piece := by
  simp [joinWith]

@[simp] theorem joinWith_cons_cons :
    joinWith separator (piece :: next :: pieces) =
      piece ++ (separator ++ joinWith separator (next :: pieces)) := by
  simp [joinWith]

end JoinWith
end Text

/-! ## Depth -/

namespace Nesting

/-- The number of opening brackets of a text less the number of closing ones, whatever their
kinds. -/
def depth : List Char → Int
  | [] => 0
  | c :: text => step 0 c + depth text

@[simp] theorem depth_nil : depth [] = 0 := rfl

@[simp] theorem depth_cons (c : Char) (text : List Char) :
    depth (c :: text) = step 0 c + depth text := rfl

@[simp] theorem depth_append (front back : List Char) :
    depth (front ++ back) = depth front + depth back := by
  induction front with
  | nil => simp
  | cons c front ih =>
    rw [List.cons_append, depth_cons, depth_cons, ih]
    omega

theorem step_eq (start : Int) (c : Char) : step start c = start + step 0 c := by
  unfold step
  split
  · simp
  · split <;> omega

/-- A character that is no bracket leaves the depth as it was. -/
theorem step_of_plain
    {c : Char}
    (plain : Bracket.ofOpening? c = none ∧ Bracket.ofClosing? c = none)
    (start : Int) :
    step start c = start := by
  simp [step, plain]

end Nesting

namespace Bracket

open Nesting

theorem eq_brace_of_ofOpening?
    {c : Char}
    (opens : ofOpening? c = some .curly) :
    c = '{' := by
  unfold ofOpening? at opens
  split at opens <;> simp_all

/-- One character changes the number of open brackets by its depth. -/
theorem length_of_track
    {unclosed after : List Bracket} {c : Char}
    (tracked : track unclosed c = some after) :
    (after.length : Int) = step unclosed.length c := by
  rcases track_eq_some tracked with ⟨bracket, opens, rfl⟩ | ⟨bracket, closes, rfl⟩ |
    ⟨notOpening, notClosing, rfl⟩
  · simp [step, opens]
  · simp [step, ofOpening?_eq_none_of_closes closes, closes]
  · simp [step, notOpening, notClosing]

/-- A text changes the number of open brackets by its depth. -/
theorem length_of_foldlM_track
    {unclosed after : List Bracket} {text : List Char}
    (tracked : text.foldlM track unclosed = some after) :
    (after.length : Int) = unclosed.length + depth text := by
  induction text generalizing unclosed with
  | nil =>
    obtain rfl := Option.some.inj tracked
    simp
  | cons c text ih =>
    rw [List.foldlM_cons] at tracked
    obtain ⟨next, first, rest⟩ := Option.bind_eq_some_iff.1 tracked
    rw [ih rest, length_of_track first, step_eq, depth_cons]
    omega

namespace Nested

variable {text front : List Char}

theorem depth_eq (nested : Nested text) : depth text = 0 := by
  simpa using (length_of_foldlM_track nested.foldlM_track).symm

/-- In a nested text no bracket is open exactly where the depth is zero. -/
theorem of_prefix
    (nested : Nested text)
    (begins : front <+: text)
    (depth_eq : depth front = 0) :
    Nested front := by
  obtain ⟨back, rfl⟩ := begins
  have tracked := nested.foldlM_track
  rw [List.foldlM_append] at tracked
  obtain ⟨unclosed, followed, -⟩ := Option.bind_eq_some_iff.1 tracked
  have length := length_of_foldlM_track followed
  rw [depth_eq, List.length_nil] at length
  obtain rfl : unclosed = [] := List.length_eq_zero_iff.1 (by omega)
  exact nested_iff_foldlM_track.2 followed

/-- Before a character that is no bracket a text is nested as with it. -/
theorem of_concat
    {c : Char}
    (nested : Nested (front ++ [c]))
    (plain : ofOpening? c = none ∧ ofClosing? c = none) :
    Nested front := by
  have depth_eq := nested.depth_eq
  rw [depth_append, depth_cons, step_of_plain plain, depth_nil] at depth_eq
  exact nested.of_prefix (List.prefix_append front [c]) (by omega)

/-- The block at the end of a nested text begins outside of brackets. -/
theorem exists_block
    (nested : Nested text)
    (closed : text.getLast? = some '}') :
    ∃ front inside, text = front ++ '{' :: inside ∧ Nested front := by
  induction nested with
  | nil => cases closed
  | @plain c rest notOpening notClosing _ ih =>
    by_cases none : rest = []
    · subst none
      cases closed
      cases notClosing
    · rw [← List.singleton_append, List.getLast?_append_of_ne_nil _ none] at closed
      obtain ⟨front, inside, rfl, frontNested⟩ := ih closed
      exact ⟨c :: front, inside, rfl, .plain notOpening notClosing frontNested⟩
  | @enclosed bracket opening closing inside rest opens closes within _ _ ih =>
    by_cases none : rest = []
    · subst none
      rw [← List.cons_append, List.getLast?_concat] at closed
      cases closed
      cases closes
      exact ⟨[], _, by rw [eq_brace_of_ofOpening? opens]; rfl, .nil⟩
    · have whole (rest : List Char) : opening :: (inside ++ closing :: rest) =
          opening :: (inside ++ [closing]) ++ rest := by
        simp
      rw [whole, List.getLast?_append_of_ne_nil _ none] at closed
      obtain ⟨front, block, rfl, frontNested⟩ := ih closed
      refine ⟨opening :: (inside ++ closing :: front), block, by simp, ?_⟩
      exact .enclosed opens closes within frontNested

end Nested

/-- No character of a class stands in a text outside of its brackets. -/
def NoneOutside (isIn : Char → Bool) (text : List Char) : Prop :=
  ∀ front c, front ++ [c] <+: text → Nested front → isIn c = false

namespace NoneOutside

variable {isIn : Char → Bool} {text front back : List Char}

theorem iff_forall_index :
    NoneOutside isIn text ↔
      ∀ index, (inside : index < text.length) → Nested (text.take index) →
        isIn (text.get ⟨index, inside⟩) = false := by
  constructor
  · intro none index inside
    refine none _ _ ?_
    rw [List.get_eq_getElem, List.take_concat_get' text index inside]
    exact List.take_prefix _ _
  · rintro none front c ⟨back, rfl⟩ nested
    have found := none front.length (by simp) (by simpa using nested)
    simpa using found

instance (isIn : Char → Bool) (text : List Char) : Decidable (NoneOutside isIn text) :=
  decidable_of_iff _ iff_forall_index.symm

/-- Where none of the characters of a text is in a class, none is outside of its brackets. -/
theorem of_forall
    (none : ∀ c ∈ text, isIn c = false) :
    NoneOutside isIn text :=
  fun _ c begins _ => none c (begins.subset (by simp))

theorem append
    (none : NoneOutside isIn front)
    (nested : Nested front)
    (backNone : NoneOutside isIn back) :
    NoneOutside isIn (front ++ back) := by
  intro part c begins partNested
  rcases concat_prefix_append begins with early | ⟨later, rfl, laterBegins⟩
  · exact none part c early partNested
  · exact backNone later c laterBegins (nested.append_iff.1 partNested)

/-- What stands in brackets does not stand outside. -/
theorem enclose
    {bracket : Bracket} {opening closing : Char} {inside : List Char}
    (nested : Nested inside)
    (opens : ofOpening? opening = some bracket)
    (notOpening : isIn opening = false)
    (notClosing : isIn closing = false) :
    NoneOutside isIn (opening :: (inside ++ [closing])) := by
  intro part c begins partNested
  cases part with
  | nil => rwa [(List.cons_prefix_cons.1 begins).1]
  | cons d part =>
    obtain ⟨rfl, within⟩ := List.cons_prefix_cons.1 begins
    rcases List.prefix_concat_iff.1 within with whole | early
    · rwa [(List.cons.inj (List.append_inj' whole rfl).2).1]
    · have short := (List.prefix_append part [c]).trans early
      exact absurd partNested (nested.not_nested_cons_of_prefix opens short)

end NoneOutside
end Bracket

/-! ## Parts -/

namespace Nesting

/-- A part of a text that is split: it has no white space around it, closes as many brackets
as it opens, and holds no cut outside of them. -/
structure IsPart (isCut : Char → Bool) (part : List Char) : Prop where
  nonempty : part ≠ []
  starts : ∀ c ∈ part.head?, isSpace c = false
  ends : ∀ c ∈ part.getLast?, isSpace c = false
  depth_eq : depth part = 0
  uncut : ∀ front c, front ++ [c] <+: part → depth front = 0 → isCut c = false

/-- A text that ends the part before it: up to its first cut it holds white space only. -/
def EndsPart (isCut : Char → Bool) (rest : List Char) : Prop :=
  ∀ c ∈ rest.takeWhile (!isCut ·), isSpace c = true

/-- Parts in a row, with cuts and white space before, between and behind them. -/
inductive Joined (isCut : Char → Bool) : List Char → List (List Char) → Prop
  | nil : Joined isCut [] []
  | gap {c : Char} {text : List Char} {parts : List (List Char)}
      (isGap : isSpace c = true ∨ isCut c = true)
      (rest : Joined isCut text parts) :
      Joined isCut (c :: text) parts
  | part {part text : List Char} {parts : List (List Char)}
      (isPart : IsPart isCut part)
      (ends : EndsPart isCut text)
      (rest : Joined isCut text parts) :
      Joined isCut (part ++ text) (part :: parts)

/-- A nested text without white space around it is a part of every text that is split at
characters which it has only inside of its brackets. -/
theorem IsPart.of_nested
    {isCut : Char → Bool} {part : List Char}
    (nested : Bracket.Nested part)
    (uncut : Bracket.NoneOutside isCut part)
    (nonempty : part ≠ [])
    (starts : ∀ c ∈ part.head?, isSpace c = false)
    (ends : ∀ c ∈ part.getLast?, isSpace c = false) :
    IsPart isCut part where
  nonempty := nonempty
  starts := starts
  ends := ends
  depth_eq := nested.depth_eq
  uncut := by
    intro front c begins depth_eq
    have short := (List.prefix_append front [c]).trans begins
    exact uncut front c begins (nested.of_prefix short depth_eq)

/-- Two parts with white space between them that does not cut them make up one part. -/
theorem IsPart.append
    {isCut : Char → Bool} {front gap back : List Char}
    (isPart : IsPart isCut front)
    (gapBlank : ∀ c ∈ gap, isSpace c = true)
    (gapUncut : ∀ c ∈ gap, isCut c = false)
    (backIsPart : IsPart isCut back) :
    IsPart isCut (front ++ (gap ++ back)) := by
  have gapDepth : depth gap = 0 :=
    (Bracket.Nested.of_forall fun c member =>
      Bracket.plain_of_class (by decide) (gapBlank c member)).depth_eq
  refine ⟨by simp [isPart.nonempty], ?_, ?_, ?_, ?_⟩
  · rw [List.head?_append_of_ne_nil _ isPart.nonempty]
    exact isPart.starts
  · rw [← List.append_assoc, List.getLast?_append_of_ne_nil _ backIsPart.nonempty]
    exact backIsPart.ends
  · simp [isPart.depth_eq, backIsPart.depth_eq, gapDepth]
  · intro part c begins depth_eq
    rcases concat_prefix_append begins with early | ⟨later, rfl, laterBegins⟩
    · exact isPart.uncut part c early depth_eq
    · rcases concat_prefix_append laterBegins with between | ⟨last, rfl, lastBegins⟩
      · exact gapUncut c (between.subset (by simp))
      · refine backIsPart.uncut last c lastBegins ?_
        simpa [isPart.depth_eq, gapDepth] using depth_eq

section

variable {isCut : Char → Bool}

theorem piecesFrom_ne_nil (start : Int) (text : List Char) :
    piecesFrom isCut start text ≠ [] := by
  cases text with
  | nil => exact List.cons_ne_nil _ _
  | cons c text =>
    rw [piecesFrom]
    split <;> exact List.cons_ne_nil _ _

/-- The first piece of a text goes on over what is not cut before it. -/
theorem piecesFrom_append
    (noBracket : ['(', ')', '[', ']', '{', '}'].any isCut = false)
    {start : Int} {text : List Char}
    (uncut : ∀ front c, front ++ [c] <+: text → isCut c = true → start + depth front ≠ 0)
    (rest : List Char) :
    piecesFrom isCut start (text ++ rest) =
      (text ++ (piecesFrom isCut (start + depth text) rest).headD []) ::
        (piecesFrom isCut (start + depth text) rest).tail := by
  induction text generalizing start with
  | nil =>
    obtain ⟨piece, pieces, pieces_eq⟩ :=
      List.exists_cons_of_ne_nil (@piecesFrom_ne_nil isCut start rest)
    simp [pieces_eq]
  | cons c text ih =>
    have restUncut : ∀ front d, front ++ [d] <+: text → isCut d = true →
        step start c + depth front ≠ 0 := by
      intro front d begins cut
      have deeper := uncut (c :: front) d (List.cons_prefix_cons.2 ⟨rfl, begins⟩) cut
      rw [step_eq]
      rw [depth_cons] at deeper
      omega
    have notCut : (isCut c && step start c == 0) = false := by
      by_contra cut
      rw [Bool.not_eq_false, Bool.and_eq_true, beq_iff_eq] at cut
      refine uncut [] c (List.cons_prefix_cons.2 ⟨rfl, List.nil_prefix⟩) cut.1 ?_
      rw [step_of_plain (Bracket.plain_of_class noBracket cut.1)] at cut
      simpa using cut.2
    have deeper : step start c + depth text = start + depth (c :: text) := by
      rw [step_eq, depth_cons, Int.add_assoc]
    rw [List.cons_append, piecesFrom, ih restUncut, deeper]
    simp [notCut]

namespace EndsPart

theorem nil : EndsPart isCut [] := by
  simp [EndsPart]

theorem cons_of_cut
    {c : Char}
    (cut : isCut c = true)
    (rest : List Char) :
    EndsPart isCut (c :: rest) := by
  simp [EndsPart, cut]

/-- White space may stand before what ends a part. -/
theorem of_blank
    {blank rest : List Char}
    (isBlank : ∀ c ∈ blank, isSpace c = true)
    (ends : EndsPart isCut rest) :
    EndsPart isCut (blank ++ rest) := by
  intro c member
  rw [List.takeWhile_append] at member
  split at member
  · exact (List.mem_append.1 member).elim (isBlank c) (ends c)
  · exact isBlank c ((List.takeWhile_prefix _).subset member)

/-- What ends a part adds white space to its piece. -/
theorem blank
    (noBracket : ['(', ')', '[', ']', '{', '}'].any isCut = false)
    {rest : List Char}
    (ends : EndsPart isCut rest) :
    ∀ c ∈ (piecesFrom isCut 0 rest).headD [], isSpace c = true := by
  induction rest with
  | nil => exact List.forall_mem_nil _
  | cons c rest ih =>
    unfold EndsPart at ends ih
    rw [piecesFrom]
    cases cut : isCut c with
    | true => simp [step_of_plain (Bracket.plain_of_class noBracket cut)]
    | false =>
      simp only [List.takeWhile_cons, cut, Bool.not_false, if_true, List.forall_mem_cons] at ends
      obtain ⟨space, restEnds⟩ := ends
      have plain := Bracket.plain_of_class (by decide) space
      simpa [step_of_plain plain, space] using ih restEnds

end EndsPart

/-- White space and cuts between parts do not count. -/
theorem splitBy_cons_of_gap
    (noBracket : ['(', ')', '[', ']', '{', '}'].any isCut = false)
    {c : Char}
    (isGap : isSpace c = true ∨ isCut c = true)
    (text : List Char) :
    splitBy isCut (c :: text) = splitBy isCut text := by
  have plain : Bracket.ofOpening? c = none ∧ Bracket.ofClosing? c = none :=
    isGap.elim (Bracket.plain_of_class (by decide)) (Bracket.plain_of_class noBracket)
  obtain ⟨piece, pieces, pieces_eq⟩ :=
    List.exists_cons_of_ne_nil (@piecesFrom_ne_nil isCut 0 text)
  have stripped : strip [] = [] := rfl
  unfold splitBy
  rw [piecesFrom, step_of_plain plain, pieces_eq]
  cases cut : isCut c with
  | true => simp [stripped]
  | false =>
    have space : isSpace c = true := isGap.resolve_right (by simp [cut])
    simp [strip_cons_of_isSpace space]

/-- A part is split from what ends it. -/
theorem splitBy_append_of_isPart
    (noBracket : ['(', ')', '[', ']', '{', '}'].any isCut = false)
    {part rest : List Char}
    (isPart : IsPart isCut part)
    (ends : EndsPart isCut rest) :
    splitBy isCut (part ++ rest) = part :: splitBy isCut rest := by
  have uncut : ∀ front c, front ++ [c] <+: part → isCut c = true → 0 + depth front ≠ 0 := by
    intro front c begins cut outside
    rw [isPart.uncut front c begins (by omega)] at cut
    cases cut
  have blank := ends.blank noBracket
  obtain ⟨piece, pieces, pieces_eq⟩ :=
    List.exists_cons_of_ne_nil (@piecesFrom_ne_nil isCut 0 rest)
  rw [pieces_eq, List.headD_cons] at blank
  have stripped := @strip_append [] part piece (List.forall_mem_nil _) blank isPart.starts
    isPart.ends
  unfold splitBy
  rw [piecesFrom_append noBracket uncut, isPart.depth_eq, Int.add_zero, pieces_eq]
  rw [List.nil_append] at stripped
  simp [stripped, strip_of_blank blank, isPart.nonempty]

/-- Splitting a row of parts gives the parts back. -/
theorem splitBy_of_joined
    (noBracket : ['(', ')', '[', ']', '{', '}'].any isCut = false)
    {text : List Char} {parts : List (List Char)}
    (joined : Joined isCut text parts) :
    splitBy isCut text = parts := by
  induction joined with
  | nil => rfl
  | gap isGap _ ih => rw [splitBy_cons_of_gap noBracket isGap, ih]
  | part isPart ends _ ih => rw [splitBy_append_of_isPart noBracket isPart ends, ih]

namespace Joined

variable {text : List Char} {parts : List (List Char)}

theorem of_gaps
    {gaps : List Char}
    (areGaps : ∀ c ∈ gaps, isSpace c = true ∨ isCut c = true)
    (joined : Joined isCut text parts) :
    Joined isCut (gaps ++ text) parts := by
  induction gaps with
  | nil => exact joined
  | cons c gaps ih =>
    obtain ⟨first, rest⟩ := List.forall_mem_cons.1 areGaps
    exact .gap first (ih rest)

/-- Parts that are joined by a separator form a row. -/
theorem of_joinWith
    {separator : List Char}
    (areGaps : ∀ c ∈ separator, isSpace c = true ∨ isCut c = true)
    (ends : ∀ rest, EndsPart isCut (separator ++ rest))
    (areParts : ∀ part ∈ parts, IsPart isCut part) :
    Joined isCut (joinWith separator parts) parts := by
  induction parts with
  | nil => exact .nil
  | cons first parts ih =>
    obtain ⟨isPart, others⟩ := List.forall_mem_cons.1 areParts
    cases parts with
    | nil =>
      have single : Joined isCut (first ++ []) [first] := .part isPart .nil .nil
      simpa using single
    | cons second parts =>
      rw [joinWith_cons_cons]
      exact .part isPart (ends _) (.of_gaps areGaps (ih others))

end Joined
end

/-! ## Tokens -/

/-- No white space stands directly before an opening parenthesis. -/
def Tight (text : List Char) : Prop :=
  text.IsChain fun c next => next = '(' → isSpace c = false

instance (text : List Char) : Decidable (Tight text) :=
  inferInstanceAs (Decidable (text.IsChain _))

namespace Tight

variable {text front back : List Char}

theorem append
    (tight : Tight front)
    (backTight : Tight back)
    (apart : back.head? ≠ some '(') :
    Tight (front ++ back) := by
  refine List.isChain_append.2 ⟨tight, backTight, ?_⟩
  rintro c - d head rfl
  exact absurd head apart

/-- Texts without parentheses are tight. -/
theorem of_notMem (clear : '(' ∉ text) : Tight text := by
  induction text with
  | nil => exact .nil
  | cons c text ih =>
    rw [List.mem_cons, not_or] at clear
    refine append (.singleton c) (ih clear.2) ?_
    exact fun head => clear.2 (List.mem_of_head? head)

/-- No parenthesis follows white space in a tight text. -/
theorem head?_skipSpace
    {c : Char}
    (tight : Tight (c :: text))
    (space : isSpace c = true) :
    (skipSpace text).head? ≠ some '(' := by
  induction text generalizing c with
  | nil => simp [skipSpace]
  | cons d text ih =>
    obtain ⟨apart, rest⟩ := List.isChain_cons_cons.1 tight
    cases next : isSpace d with
    | true =>
      have skipped : skipSpace (d :: text) = skipSpace text := by simp [skipSpace, next]
      rw [skipped]
      exact ih rest next
    | false =>
      have kept : skipSpace (d :: text) = d :: text := by simp [skipSpace, next]
      rw [kept]
      intro head
      rw [apart (Option.some.inj head)] at space
      cases space

theorem closeUp_eq (tight : Tight text) : closeUp text = text := by
  induction text with
  | nil => rfl
  | cons c text ih =>
    have kept : ¬ (isSpace c && (skipSpace text).head? == some '(') = true := by
      rw [Bool.and_eq_true, beq_iff_eq]
      rintro ⟨space, opens⟩
      exact tight.head?_skipSpace space opens
    rw [closeUp, if_neg kept, ih tight.tail]

end Tight

/-- A token: its brackets are nested, and white space stands neither outside of them nor
before a parenthesis. -/
@[mk_iff]
structure IsToken (token : List Char) : Prop where
  nonempty : token ≠ []
  nested : Bracket.Nested token
  noSpace : Bracket.NoneOutside isSpace token
  tight : Tight token
  notOpening : token.head? ≠ some '('

instance (token : List Char) : Decidable (IsToken token) :=
  decidable_of_iff _ (isToken_iff token).symm

namespace IsToken

variable {token : List Char}

theorem isPart
    {isCut : Char → Bool}
    (isToken : IsToken token)
    (uncut : Bracket.NoneOutside isCut token) :
    IsPart isCut token := by
  refine .of_nested isToken.nested uncut isToken.nonempty ?_ ?_
  · intro c head
    obtain ⟨rest, rfl⟩ := List.head?_eq_some_iff.1 head
    exact isToken.noSpace [] c (List.cons_prefix_cons.2 ⟨rfl, List.nil_prefix⟩) .nil
  · intro c last
    obtain ⟨front, rfl⟩ := List.getLast?_eq_some_iff.1 last
    by_contra space
    rw [Bool.not_eq_false] at space
    have nested := isToken.nested.of_concat (Bracket.plain_of_class (by decide) space)
    rw [isToken.noSpace front c List.prefix_rfl nested] at space
    cases space

/-- Words without brackets and white space are tokens. -/
theorem of_class
    {isIn : Char → Bool}
    (noBracket : ['(', ')', '[', ']', '{', '}'].any isIn = false)
    (visible : ∀ c ∈ token, isSpace c = false)
    (nonempty : token ≠ [])
    (inside : ∀ c ∈ token, isIn c = true) :
    IsToken token := by
  have notParen : '(' ∉ token := by
    intro member
    cases (Bracket.plain_of_class noBracket (inside _ member)).1
  exact {
    nonempty := nonempty
    nested := .of_forall fun c member => Bracket.plain_of_class noBracket (inside c member)
    noSpace := .of_forall visible
    tight := .of_notMem notParen
    notOpening := fun head => notParen (List.mem_of_head? head) }

end IsToken

section Row

variable {row : List (List Char)} (areTokens : ∀ token ∈ row, IsToken token)
include areTokens

/-- No parenthesis follows white space between tokens. -/
theorem tight_joinWith : Tight (joinWith [' '] row) := by
  induction row with
  | nil => exact .nil
  | cons first row ih =>
    obtain ⟨isToken, others⟩ := List.forall_mem_cons.1 areTokens
    cases row with
    | nil => simpa using isToken.tight
    | cons second row =>
      have second_ne := (others second List.mem_cons_self).nonempty
      have opening := (others second List.mem_cons_self).notOpening
      have apart : (joinWith [' '] (second :: row)).head? ≠ some '(' := by
        cases row with
        | nil => simpa using opening
        | cons third row => rwa [joinWith_cons_cons, List.head?_append_of_ne_nil _ second_ne]
      rw [joinWith_cons_cons]
      refine isToken.tight.append (Tight.append (.singleton ' ') (ih others) apart) ?_
      simp

/-- Tokens that are separated by spaces are read back. -/
theorem tokens_joinWith : tokens (closeUp (joinWith [' '] row)) = row := by
  rw [(tight_joinWith areTokens).closeUp_eq]
  refine splitBy_of_joined (by decide) (.of_joinWith ?_ ?_ ?_)
  · exact List.forall_mem_singleton.2 (.inl rfl)
  · exact fun rest => .cons_of_cut rfl rest
  · exact fun token member => (areTokens token member).isPart (areTokens token member).noSpace

/-- Tokens that are separated by spaces are one part of every text that is split at characters
which they have only inside of their brackets. -/
theorem isPart_joinWith
    {isCut : Char → Bool}
    (nonempty : row ≠ [])
    (notSpace : isCut ' ' = false)
    (uncut : ∀ token ∈ row, Bracket.NoneOutside isCut token) :
    IsPart isCut (joinWith [' '] row) := by
  induction row with
  | nil => exact absurd rfl nonempty
  | cons first row ih =>
    obtain ⟨isToken, others⟩ := List.forall_mem_cons.1 areTokens
    obtain ⟨firstUncut, othersUncut⟩ := List.forall_mem_cons.1 uncut
    have isPart := isToken.isPart firstUncut
    cases row with
    | nil => simpa using isPart
    | cons second row =>
      rw [joinWith_cons_cons]
      exact isPart.append (List.forall_mem_singleton.2 rfl) (List.forall_mem_singleton.2 notSpace)
        (ih others (List.cons_ne_nil _ _) othersUncut)

theorem nested_joinWith : Bracket.Nested (joinWith [' '] row) := by
  induction row with
  | nil => exact .nil
  | cons first row ih =>
    obtain ⟨isToken, others⟩ := List.forall_mem_cons.1 areTokens
    cases row with
    | nil => simpa using isToken.nested
    | cons second row =>
      rw [joinWith_cons_cons]
      exact isToken.nested.append (.plain rfl rfl (ih others))

end Row
end Nesting
end ContractDoc
