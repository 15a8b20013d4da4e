import ContractDoc.Proofs.Tree.Contract
import ContractDoc.Proofs.Tree.Parameter

/-!
# Texts with white space between them

Where white space separates two texts outside of brackets, each of them has its own tokens,
whatever it is and however the white space before its parentheses is closed up.  A text between
two others may be exchanged without a change in where their item ends.
-/

namespace ContractDoc

open Text

namespace Text

/-- White space is skipped, and nothing else. -/
theorem skipSpace_append_of_not_blank
    {front : List Char}
    (notBlank : skipSpace front ≠ [])
    (back : List Char) :
    skipSpace (front ++ back) = skipSpace front ++ back := by
  unfold skipSpace at *
  rw [List.dropWhile_append, if_neg (mt List.isEmpty_iff.1 notBlank)]

/-- Whether a text begins with a word shows before white space. -/
theorem isPrefixOf_append_gap
    {word gap : List Char}
    (visible : ∀ c ∈ word, isSpace c = false)
    (isGap : IsGap gap)
    (front rest : List Char) :
    word.isPrefixOf (front ++ (gap ++ rest)) = word.isPrefixOf front := by
  obtain ⟨c, blank, rfl⟩ := List.exists_cons_of_ne_nil isGap.nonempty
  refine ContractDecl.isPrefixOf_append_cons ?_ front (blank ++ rest)
  intro member
  have space := isGap.blank c List.mem_cons_self
  rw [visible c member] at space
  cases space

theorem blank_of_skipSpace_eq_nil
    {text : List Char}
    (none : skipSpace text = []) :
    ∀ c ∈ text, isSpace c = true :=
  List.dropWhile_eq_nil_iff.1 none

end Text

namespace Nesting

/-- White space before a parenthesis is found in the first of two texts, unless the second one
begins with a parenthesis. -/
theorem closeUp_append
    {back : List Char}
    (apart : (skipSpace back).head? ≠ some '(')
    (front : List Char) :
    closeUp (front ++ back) = closeUp front ++ closeUp back := by
  induction front with
  | nil => rfl
  | cons c front ih =>
    have same : ((skipSpace (front ++ back)).head? == some '(') =
        ((skipSpace front).head? == some '(') := by
      by_cases none : skipSpace front = []
      · rw [Modifier.skipSpace_append_of_blank (blank_of_skipSpace_eq_nil none), none]
        simpa using apart
      · rw [skipSpace_append_of_not_blank none, List.head?_append_of_ne_nil _ none]
    rw [List.cons_append, closeUp, closeUp, same, ih]
    split <;> rfl

/-- White space between a word and a parenthesis is taken away. -/
theorem closeUp_call
    {word spaces : List Char}
    (visible : ∀ c ∈ word, isSpace c = false)
    (blank : ∀ c ∈ spaces, isSpace c = true)
    (rest : List Char) :
    closeUp (word ++ (spaces ++ '(' :: rest)) = word ++ '(' :: closeUp rest := by
  induction word with
  | nil =>
    induction spaces with
    | nil => rfl
    | cons c spaces ih =>
      obtain ⟨space, others⟩ := List.forall_mem_cons.1 blank
      have opens : (skipSpace (spaces ++ '(' :: rest)).head? = some '(' := by
        rw [Modifier.skipSpace_append_of_blank others]
        rfl
      rw [List.nil_append, List.cons_append, closeUp, space, opens]
      exact ih others
  | cons c word ih =>
    obtain ⟨notSpace, others⟩ := List.forall_mem_cons.1 visible
    rw [List.cons_append, closeUp, notSpace, ih others]
    rfl

/-- White space does not count for the depth. -/
theorem depth_closeUp (text : List Char) : depth (closeUp text) = depth text := by
  induction text with
  | nil => rfl
  | cons c text ih =>
    rw [closeUp]
    split
    · next dropped =>
      have space := (Bool.and_eq_true_iff.1 dropped).1
      rw [ih, depth_cons, step_of_plain (Bracket.plain_of_class (by decide) space), Int.zero_add]
    · rw [depth_cons, depth_cons, ih]

section

variable {isCut : Char → Bool}

/-- At a cut outside of brackets the pieces of what follows begin. -/
theorem piecesFrom_append_cons
    (noBracket : ['(', ')', '[', ']', '{', '}'].any isCut = false)
    {start : Int} {front : List Char} {c : Char}
    (cut : isCut c = true)
    (outside : start + depth front = 0)
    (rest : List Char) :
    piecesFrom isCut start (front ++ c :: rest) =
      piecesFrom isCut start front ++ piecesFrom isCut 0 rest := by
  induction front generalizing start with
  | nil =>
    rw [depth_nil, Int.add_zero] at outside
    have plain := step_of_plain (Bracket.plain_of_class noBracket cut) start
    have begins : piecesFrom isCut start (c :: rest) = [] :: piecesFrom isCut 0 rest := by
      rw [piecesFrom, plain, outside, cut]
      rfl
    exact begins
  | cons d front ih =>
    have deeper : step start d + depth front = 0 := by
      rw [step_eq, Int.add_assoc]
      exact outside
    obtain ⟨piece, pieces, pieces_eq⟩ :=
      List.exists_cons_of_ne_nil (@piecesFrom_ne_nil isCut (step start d) front)
    have goesOn (text : List Char) : piecesFrom isCut start (d :: text) =
        if isCut d && step start d == 0 then [] :: piecesFrom isCut (step start d) text
        else (d :: (piecesFrom isCut (step start d) text).headD []) ::
          (piecesFrom isCut (step start d) text).tail := rfl
    rw [List.cons_append, goesOn, goesOn, ih deeper, pieces_eq]
    split <;> rfl

/-- A text is split before and behind a cut outside of its brackets. -/
theorem splitBy_append_cons
    (noBracket : ['(', ')', '[', ']', '{', '}'].any isCut = false)
    {front : List Char} {c : Char}
    (cut : isCut c = true)
    (outside : depth front = 0)
    (rest : List Char) :
    splitBy isCut (front ++ c :: rest) = splitBy isCut front ++ splitBy isCut rest := by
  have pieces := @piecesFrom_append_cons _ noBracket 0 front c cut (by omega) rest
  rw [splitBy, pieces, List.map_append, List.filter_append]
  rfl

end

/-- White space separates tokens. -/
theorem tokens_append
    {front gap : List Char}
    (outside : depth front = 0)
    (isGap : IsGap gap)
    (rest : List Char) :
    tokens (front ++ (gap ++ rest)) = tokens front ++ tokens rest := by
  have blanks {blank : List Char} (isBlank : ∀ c ∈ blank, isSpace c = true) :
      tokens (blank ++ rest) = tokens rest := by
    induction blank with
    | nil => rfl
    | cons c blank ih =>
      obtain ⟨space, others⟩ := List.forall_mem_cons.1 isBlank
      exact (splitBy_cons_of_gap (by decide) (.inl space) _).trans (ih others)
  obtain ⟨c, blank, rfl⟩ := List.exists_cons_of_ne_nil isGap.nonempty
  obtain ⟨space, others⟩ := List.forall_mem_cons.1 isGap.blank
  rw [← blanks others]
  exact splitBy_append_cons (by decide) space outside _

/-- A text that is one part has one token. -/
theorem tokens_of_isPart
    {part : List Char}
    (isPart : IsPart isSpace part) :
    tokens part = [part] := by
  have single := Joined.part isPart .nil .nil
  rw [List.append_nil] at single
  exact splitBy_of_joined (by decide) single

/-- A text with a character other than white space at its start has a token. -/
theorem tokens_ne_nil
    {c : Char}
    (visible : isSpace c = false)
    (rest : List Char) :
    tokens (c :: rest) ≠ [] := by
  have kept (tail : List Char) : strip (c :: tail) ≠ [] := by
    have begins : skipSpace (c :: tail) = c :: tail := by
      simp [skipSpace, visible]
    intro none
    rw [strip, begins, dropTrailingSpace, List.reverse_eq_nil_iff] at none
    have space := blank_of_skipSpace_eq_nil none c (by simp)
    rw [visible] at space
    cases space
  intro none
  rw [tokens, splitBy, piecesFrom, visible, Bool.false_and, if_neg Bool.false_ne_true,
    List.map_cons, List.filter_cons_of_pos] at none
  · cases none
  · simpa using kept _

end Nesting

/-- White space holds neither brackets nor equals signs. -/
theorem noAssignment_of_blank
    {blank : List Char}
    (isBlank : ∀ c ∈ blank, isSpace c = true) :
    Bracket.Nested blank ∧ Bracket.NoneOutside (· == '=') blank := by
  refine ⟨(Item.Clear.of_blank isBlank).nested, .of_forall fun c member => ?_⟩
  rw [beq_eq_false_iff_ne]
  rintro rfl
  cases isBlank _ member

/-- The signs of comparisons are neither white space nor characters of identifiers. -/
theorem comparesWithNext_eq_false
    {isIn : Char → Bool} {c : Char}
    (apart : ['=', '!', '<', '>'].any isIn = false)
    (inside : isIn c = true) :
    Nesting.comparesWithNext c = false := by
  by_contra compares
  simp only [Nesting.comparesWithNext, Bool.not_eq_false, Bool.or_eq_true, beq_iff_eq] at compares
  refine List.any_eq_false.1 apart c ?_ inside
  simpa [or_assoc] using compares

/-- A text that begins like an identifier begins with neither white space nor a parenthesis. -/
theorem visible_of_identifierStart
    {text : List Char}
    (starts : text.head?.any isIdentifierStart = true) :
    skipSpace text = text ∧ text.head? ≠ some '(' := by
  cases text with
  | nil => cases starts
  | cons c text =>
    have identifier : isIdentifier [c] = true := Bool.and_eq_true_iff.2 ⟨starts, rfl⟩
    have visible := isSpace_eq_false_of_mem_identifier identifier c List.mem_cons_self
    refine ⟨skipSpace_of_visible ?_, ?_⟩
    · rintro _ ⟨⟩
      exact visible
    · rintro ⟨⟩
      cases starts

/-- A text in the middle of an item may be exchanged for one in which no item ends.  It goes on
behind the exchanged one as behind the other one. -/
theorem Item.IsText.exchange
    {front old new back : List Char}
    (isText : IsText (front ++ (old ++ back)))
    (nonempty : front ≠ [])
    (frontNested : Bracket.Nested front)
    (oldNested : Bracket.Nested old)
    (isClear : Clear new)
    (backNonempty : back ≠ [])
    (sameStart : "import".toList <+: front ++ (new ++ back) ↔
      "import".toList <+: front ++ (old ++ back)) :
    IsText (front ++ (new ++ back)) := by
  have newNested := isClear.nested
  have last_eq (middle : List Char) {rest : List Char} (restNonempty : rest ≠ []) :
      (front ++ (middle ++ rest)).getLast? = rest.getLast? := by
    rw [← List.append_assoc, List.getLast?_append_of_ne_nil _ restNonempty]
  have swap {rest : List Char} (restNonempty : rest ≠ []) :
      MayEndBehind (front ++ (new ++ back)) (front ++ (new ++ rest)) ↔
        MayEndBehind (front ++ (old ++ back)) (front ++ (old ++ rest)) := by
    unfold MayEndBehind
    rw [frontNested.append_iff, frontNested.append_iff, newNested.append_iff,
      oldNested.append_iff, sameStart, last_eq new restNonempty, last_eq old restNonempty]
  refine ⟨?_, (swap backNonempty).2 isText.ends, ?_⟩
  · have starts := isText.starts
    rw [List.head?_append_of_ne_nil _ nonempty] at starts ⊢
    exact starts
  · intro part begins mayEnd
    rcases prefix_append_cases begins with early | ⟨later, laterNonempty, laterBegins, rfl⟩
    · have whole := isText.first part (early.trans (List.prefix_append _ _))
        ⟨mayEnd.1, mayEnd.2.imp_right fun brace => ⟨brace.1, mt sameStart.2 brace.2⟩⟩
      have length := early.length_le
      rw [whole, List.length_append, List.length_append] at length
      have positive := List.length_pos_iff.2 backNonempty
      omega
    · rcases prefix_append_cases laterBegins with inside | ⟨rest, restNonempty, restBegins, rfl⟩
      · have last := mayEnd.2
        rw [List.getLast?_append_of_ne_nil _ laterNonempty] at last
        obtain ⟨noSemicolon, noBrace⟩ := isClear.steady.goesOn later inside
          (frontNested.append_iff.1 mayEnd.1)
        exact (last.elim noSemicolon fun brace => noBrace brace.1).elim
      · have whole := isText.first _ (by simpa using restBegins) ((swap restNonempty).1 mayEnd)
        rw [List.append_cancel_left (List.append_cancel_left whole)]

/-! ## Tokens in a string -/

/-- Tokens behind others are spaced from them. -/
theorem spaced_append_cons
    {row : List (List Char)}
    (nonempty : row ≠ [])
    (token : List Char)
    (more : List (List Char)) :
    spaced (row ++ token :: more) =
      spaced row ++ String.ofList (' ' :: joinWith [' '] (token :: more)) := by
  have joined : joinWith [' '] (row ++ token :: more) =
      joinWith [' '] row ++ ' ' :: joinWith [' '] (token :: more) := by
    induction row with
    | nil => exact absurd rfl nonempty
    | cons first row ih =>
      cases row with
      | nil => simp
      | cons second row =>
        rw [List.cons_append, List.cons_append, joinWith_cons_cons, joinWith_cons_cons,
          ← List.cons_append, ih (List.cons_ne_nil _ _)]
        simp
  rw [spaced, joined, String.ofList_append]
  rfl

/-- A string is not longer than itself. -/
theorem append_ofList_cons_ne
    (text : String)
    (c : Char)
    (rest : List Char) :
    text ++ String.ofList (c :: rest) ≠ text := by
  intro same
  have lists := congrArg String.toList same
  rw [String.toList_append, String.toList_ofList, List.append_right_eq_self] at lists
  cases lists

end ContractDoc
