import ContractDoc.Proofs.Source.Joined

/-!
# Splitting inverts joining

Parts are written one behind the other, with a separator between neighbours and white space
around it, or with white space alone between them.  Such a text is split into the parts again.
Separators and white space may stand inside the brackets of a part; what counts as inside is
told by the numbers of opening and of closing brackets before it.
-/

namespace ContractDoc

open Text

namespace Nesting

/-! ## Counting brackets -/

/-- The characters that open brackets. -/
def openingBrackets : List Char := ['(', '[', '{']

/-- The characters that close brackets. -/
def closingBrackets : List Char := [')', ']', '}']

/-- The number of opening brackets in a text. -/
def openings (text : List Char) : Nat :=
  text.countP openingBrackets.contains

/-- The number of closing brackets in a text. -/
def closings (text : List Char) : Nat :=
  text.countP closingBrackets.contains

theorem isSome_ofOpening? (c : Char) :
    (Bracket.ofOpening? c).isSome = openingBrackets.contains c := by
  unfold Bracket.ofOpening? openingBrackets
  split <;> simp_all

theorem isSome_ofClosing? (c : Char) :
    (Bracket.ofClosing? c).isSome = closingBrackets.contains c := by
  unfold Bracket.ofClosing? closingBrackets
  split <;> simp_all

theorem closingBrackets_contains_of_opening
    {c : Char}
    (opens : openingBrackets.contains c = true) :
    closingBrackets.contains c = false := by
  simp only [openingBrackets, List.contains_iff_mem, List.mem_cons, List.not_mem_nil,
    or_false] at opens
  rcases opens with rfl | rfl | rfl <;> rfl

/-- The depth of a text is the number of its opening brackets less that of its closing ones. -/
theorem depth_eq_openings_sub_closings (text : List Char) :
    depth text = openings text - closings text := by
  induction text with
  | nil => rfl
  | cons c text ih =>
    rw [depth_cons, ih, step, isSome_ofOpening?, isSome_ofClosing?, openings, openings, closings,
      closings, List.countP_cons, List.countP_cons]
    cases opens : openingBrackets.contains c with
    | true =>
      rw [closingBrackets_contains_of_opening opens]
      simp only [if_true, Bool.false_eq_true, if_false]
      omega
    | false =>
      simp only [Bool.false_eq_true, if_false]
      cases closingBrackets.contains c with
      | true =>
        simp only [if_true]
        omega
      | false =>
        simp only [Bool.false_eq_true, if_false]
        omega

theorem depth_eq_zero_iff {text : List Char} :
    depth text = 0 ↔ openings text = closings text := by
  rw [depth_eq_openings_sub_closings]
  omega

/-! ## Parts and what stands between them -/

/-- A part that can stand beside others: there is no white space around it, it closes as many
brackets as it opens, and before each separator in it the numbers of opening and of closing
brackets differ. -/
@[mk_iff]
structure StandsAlone (isSeparator : Char → Bool) (part : List Char) : Prop where
  nonempty : part ≠ []
  starts : ∀ c ∈ part.head?, isSpace c = false
  ends : ∀ c ∈ part.getLast?, isSpace c = false
  balanced : openings part = closings part
  inside : ∀ index, (within : index < part.length) → isSeparator part[index] = true →
    openings (part.take index) ≠ closings (part.take index)

instance (isSeparator : Char → Bool) (part : List Char) :
    Decidable (StandsAlone isSeparator part) :=
  decidable_of_iff
    (part ≠ [] ∧ part.head?.all (!isSpace ·) = true ∧ part.getLast?.all (!isSpace ·) = true ∧
      openings part = closings part ∧
        ∀ index, (within : index < part.length) → isSeparator part[index] = true →
          openings (part.take index) ≠ closings (part.take index))
    (by simp [standsAlone_iff, Option.all_eq_true])

theorem StandsAlone.isPart
    {isSeparator : Char → Bool} {part : List Char}
    (standsAlone : StandsAlone isSeparator part) :
    IsPart isSeparator part where
  nonempty := standsAlone.nonempty
  starts := standsAlone.starts
  ends := standsAlone.ends
  depth_eq := depth_eq_zero_iff.2 standsAlone.balanced
  uncut := by
    rintro front c ⟨back, rfl⟩ outside
    have apart : isSeparator c = true → openings front ≠ closings front := by
      simpa using standsAlone.inside front.length (by simp)
    by_contra cut
    rw [Bool.not_eq_false] at cut
    exact apart cut (depth_eq_zero_iff.1 outside)

/-- A separator with white space on both of its sides. -/
def IsSpaced (separator : Char) (gap : List Char) : Prop :=
  ∃ before behind, gap = before ++ separator :: behind ∧
    (∀ c ∈ before, isSpace c = true) ∧ ∀ c ∈ behind, isSpace c = true

/-- Parts one behind the other, with a gap between each two neighbours. -/
inductive Interleaved (isGap : List Char → Prop) : List (List Char) → List Char → Prop
  | none : Interleaved isGap [] []
  | last (part : List Char) : Interleaved isGap [part] part
  | more {part gap next text : List Char} {parts : List (List Char)}
      (gapBetween : isGap gap)
      (rest : Interleaved isGap (next :: parts) text) :
      Interleaved isGap (part :: next :: parts) (part ++ (gap ++ text))

variable {parts : List (List Char)} {text lead trail : List Char}

/-- Interleaved parts form a row if each gap holds only what stands between parts, and ends the
part before it. -/
theorem Interleaved.joined
    {isCut : Char → Bool} {isGap : List Char → Prop}
    (interleaved : Interleaved isGap parts text)
    (areGaps : ∀ gap, isGap gap → ∀ c ∈ gap, isSpace c = true ∨ isCut c = true)
    (gapsEnd : ∀ gap, isGap gap → ∀ rest, EndsPart isCut (gap ++ rest))
    (areParts : ∀ part ∈ parts, IsPart isCut part)
    (trailBlank : ∀ c ∈ trail, isSpace c = true) :
    Joined isCut (text ++ trail) parts := by
  have trailJoined : Joined isCut trail [] := by
    simpa using Joined.of_gaps (fun c member => .inl (trailBlank c member)) (.nil : Joined isCut _ _)
  have trailEnds : EndsPart isCut trail := by
    simpa using EndsPart.of_blank trailBlank (.nil : EndsPart isCut _)
  induction interleaved with
  | none => exact trailJoined
  | last part => exact .part (areParts part List.mem_cons_self) trailEnds trailJoined
  | @more part gap next text parts gapBetween _ ih =>
    obtain ⟨isPart, others⟩ := List.forall_mem_cons.1 areParts
    rw [List.append_assoc, List.append_assoc]
    exact .part isPart (gapsEnd gap gapBetween _) (.of_gaps (areGaps gap gapBetween) (ih others))

theorem IsSpaced.endsPart
    {separator : Char} {gap : List Char}
    (isSpaced : IsSpaced separator gap)
    (rest : List Char) :
    EndsPart (· == separator) (gap ++ rest) := by
  obtain ⟨before, behind, rfl, beforeBlank, -⟩ := isSpaced
  have ends : EndsPart (· == separator) (separator :: (behind ++ rest)) :=
    @EndsPart.cons_of_cut (· == separator) separator (beq_self_eq_true separator) _
  rw [List.append_assoc]
  exact ends.of_blank beforeBlank

/-- White space ends a token. -/
theorem endsPart_of_isGap
    (gap : List Char)
    (isGap : IsGap gap)
    (rest : List Char) :
    EndsPart isSpace (gap ++ rest) := by
  obtain ⟨c, blank, rfl⟩ := List.exists_cons_of_ne_nil isGap.nonempty
  exact .cons_of_cut (isGap.blank c List.mem_cons_self) _

/-- Interleaved parts that stand alone are what the text is split into. -/
theorem Interleaved.splitBy_eq
    {isCut : Char → Bool} {isGap : List Char → Prop}
    (noBracket : ['(', ')', '[', ']', '{', '}'].any isCut = false)
    (areGaps : ∀ gap, isGap gap → ∀ c ∈ gap, isSpace c = true ∨ isCut c = true)
    (gapsEnd : ∀ gap, isGap gap → ∀ rest, EndsPart isCut (gap ++ rest))
    (standAlone : ∀ part ∈ parts, StandsAlone isCut part)
    (interleaved : Interleaved isGap parts text)
    (leadBlank : ∀ c ∈ lead, isSpace c = true)
    (trailBlank : ∀ c ∈ trail, isSpace c = true) :
    splitBy isCut (lead ++ (text ++ trail)) = parts := by
  have areParts : ∀ part ∈ parts, IsPart isCut part :=
    fun part member => (standAlone part member).isPart
  have row := interleaved.joined areGaps gapsEnd areParts trailBlank
  exact splitBy_of_joined noBracket (.of_gaps (fun c member => .inl (leadBlank c member)) row)

/-- **Splitting inverts joining.**  Parts that are joined by a separator, with white space around
each separator and around the whole, are the parts of the text; parts that are joined by white
space are its tokens.  The brackets of a part need not be nested: only their numbers count. -/
theorem split_inverts_joining :
    (∀ separator parts text lead trail,
      separator ∉ openingBrackets → separator ∉ closingBrackets →
        (∀ part ∈ parts, StandsAlone (· == separator) part) →
          Interleaved (IsSpaced separator) parts text →
            (∀ c ∈ lead, isSpace c = true) → (∀ c ∈ trail, isSpace c = true) →
              splitOn separator (lead ++ (text ++ trail)) = parts) ∧
      ∀ parts text lead trail,
        (∀ part ∈ parts, StandsAlone isSpace part) →
          Interleaved IsGap parts text →
            (∀ c ∈ lead, isSpace c = true) → (∀ c ∈ trail, isSpace c = true) →
              tokens (lead ++ (text ++ trail)) = parts := by
  refine ⟨?_, ?_⟩
  · intro separator parts text lead trail notOpening notClosing standAlone interleaved
    have noBracket : ['(', ')', '[', ']', '{', '}'].any (· == separator) = false := by
      refine List.any_eq_false.2 fun c listed same => ?_
      rw [beq_iff_eq] at same
      subst same
      simp_all [openingBrackets, closingBrackets]
    refine interleaved.splitBy_eq noBracket ?_ (fun _ isSpaced => isSpaced.endsPart) standAlone
    rintro gap ⟨before, behind, rfl, beforeBlank, behindBlank⟩ c member
    rcases List.mem_append.1 member with early | later
    · exact .inl (beforeBlank c early)
    · rcases List.mem_cons.1 later with rfl | later
      · exact .inr (beq_self_eq_true c)
      · exact .inl (behindBlank c later)
  · intro parts text lead trail standAlone interleaved
    exact interleaved.splitBy_eq (by decide) (fun _ isGap c member => .inl (isGap.blank c member))
      endsPart_of_isGap standAlone

/-- A mapping and a list in braces are split at the comma between them, and a call and an array
type at the white space between them, not at what stands inside their brackets. -/
theorem brackets_keep_separators :
    splitOn ',' " mapping(uint => uint[2], a) ,\n\x7bx, y\x7d z\t".toList =
        ["mapping(uint => uint[2], a)".toList, "\x7bx, y\x7d z".toList] ∧
      tokens " f(a, \x7bb c\x7d)\t\nuint[ 2 ] ".toList =
        ["f(a, \x7bb c\x7d)".toList, "uint[ 2 ]".toList] := by
  have listed : Interleaved (IsSpaced ',')
      ["mapping(uint => uint[2], a)".toList, "\x7bx, y\x7d z".toList]
      ("mapping(uint => uint[2], a)".toList ++ (" ,\n".toList ++ "\x7bx, y\x7d z".toList)) :=
    .more ⟨[' '], ['\n'], rfl, List.all_eq_true.1 rfl, List.all_eq_true.1 rfl⟩ (.last _)
  have spaced : Interleaved IsGap
      ["f(a, \x7bb c\x7d)".toList, "uint[ 2 ]".toList]
      ("f(a, \x7bb c\x7d)".toList ++ ("\t\n".toList ++ "uint[ 2 ]".toList)) :=
    .more ⟨List.cons_ne_nil _ _, List.all_eq_true.1 rfl⟩ (.last _)
  exact ⟨split_inverts_joining.1 ',' _ _ [' '] ['\t'] (by decide) (by decide)
      (by decide +kernel) listed (List.all_eq_true.1 rfl) (List.all_eq_true.1 rfl),
    split_inverts_joining.2 _ _ [' '] [' '] (by decide +kernel) spaced (List.all_eq_true.1 rfl)
      (List.all_eq_true.1 rfl)⟩

end Nesting
end ContractDoc
