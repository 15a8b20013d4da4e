import ContractDoc.Proofs.Source.Nested

/-!
# Partners of brackets

Two brackets of one kind are partners if the text between them is nested.  In a nested text
every opening bracket has exactly one partner.  The search for the partner of a parenthesis
counts parentheses only, but in a nested text it finds the partner among all brackets.
-/

namespace ContractDoc
namespace Bracket

/-- The places of two brackets of one kind with a nested text between them. -/
inductive Partners : List Char → Nat → Nat → Prop
  | intro {bracket : Bracket} {first last : Char} {inside : List Char}
      (opens : ofOpening? first = some bracket)
      (closes : ofClosing? last = some bracket)
      (nested : Nested inside)
      (front back : List Char) :
      Partners (front ++ first :: (inside ++ last :: back)) front.length
        (front.length + 1 + inside.length)

namespace Nested

variable {front inside back : List Char}

/-- In a nested text each opening bracket is closed behind a nested text. -/
theorem exists_closing
    {bracket : Bracket} {first : Char} {rest : List Char}
    (nested : Nested (front ++ first :: rest))
    (opens : ofOpening? first = some bracket) :
    ∃ inside last back, rest = inside ++ last :: back ∧ Nested inside ∧
      ofClosing? last = some bracket := by
  have tracked := nested.foldlM_track
  rw [List.foldlM_append] at tracked
  obtain ⟨unclosed, -, tracked⟩ := Option.bind_eq_some_iff.1 tracked
  rw [List.foldlM_cons, track_of_opens opens, Option.bind_eq_bind, Option.bind_some] at tracked
  obtain ⟨inside, last, back, rest_eq, within, closes, -⟩ := closesAll_of_foldlM_track tracked
  exact ⟨inside, last, back, rest_eq, within, closes⟩

/-- No nested text begins with a closing bracket. -/
theorem not_closing_cons
    {bracket : Bracket} {last : Char}
    (closes : ofClosing? last = some bracket) :
    ¬ Nested (last :: back) := by
  intro nested
  have tracked := nested.foldlM_track
  rw [List.foldlM_cons, track, ofOpening?_eq_none_of_closes closes, closes] at tracked
  cases tracked

/-- A closing bracket behind a nested text is the first one that closes a bracket before it. -/
theorem eq_of_append_closing
    {bracket otherBracket : Bracket} {last otherLast : Char} {other otherBack : List Char}
    (nested : Nested inside)
    (closes : ofClosing? last = some bracket)
    (otherNested : Nested other)
    (otherCloses : ofClosing? otherLast = some otherBracket)
    (same : inside ++ last :: back = other ++ otherLast :: otherBack) :
    inside = other := by
  rcases List.append_eq_append_iff.1 same with ⟨middle, rfl, rest⟩ | ⟨middle, rfl, rest⟩
  · cases middle with
    | nil => rw [List.append_nil]
    | cons c middle =>
      obtain ⟨rfl, -⟩ := List.cons.inj rest
      exact absurd (nested.append_iff.1 otherNested) (not_closing_cons closes)
  · cases middle with
    | nil => rw [List.append_nil]
    | cons c middle =>
      obtain ⟨rfl, -⟩ := List.cons.inj rest
      exact absurd (otherNested.append_iff.1 nested) (not_closing_cons otherCloses)

end Nested

/-- A bracket has one partner at most. -/
theorem Partners.unique
    {text : List Char} {opening closing other : Nat}
    (partners : Partners text opening closing)
    (otherPartners : Partners text opening other) :
    closing = other := by
  obtain ⟨opens, closes, nested, front, back⟩ := partners
  generalize text_eq : front ++ _ = text at otherPartners
  generalize length_eq : front.length = opening at otherPartners
  obtain ⟨_, otherCloses, otherNested, otherFront, otherBack⟩ := otherPartners
  obtain ⟨-, rest⟩ := List.append_inj text_eq length_eq
  rw [nested.eq_of_append_closing closes otherNested otherCloses (List.cons.inj rest).2]

end Bracket

namespace Nesting

open ContractDoc.Bracket

/-- The search for the partner of a parenthesis finds the one behind a closed text. -/
theorem partner_append_close
    {inside : List Char}
    (closed : Closed inside)
    (front back : List Char) :
    partner (front ++ '(' :: (inside ++ ')' :: back)) front.length =
      .found (front.length + 1 + inside.length) := by
  have within : ¬ ((front.length : Int) + (front ++ '(' :: (inside ++ ')' :: back)).length < 0) := by
    omega
  have searched : searchedFrom (front ++ '(' :: (inside ++ ')' :: back)) front.length =
      '(' :: (inside ++ ')' :: back) := by
    simp [searchedFrom]
  rw [partner, if_neg within, searched, closingFrom_append_close closed]
  dsimp only
  congr 1
  omega

/-- In a nested text each parenthesis has a partner among all brackets, and the search, which
counts parentheses only, finds it. -/
theorem exists_partner_of_nested
    {text : List Char} {index : Nat}
    (nested : Nested text)
    (opens : text[index]? = some '(') :
    ∃ close : Nat, partner text index = .found close ∧ Partners text index close := by
  obtain ⟨within, at_index⟩ := List.getElem?_eq_some_iff.1 opens
  have whole : text = text.take index ++ '(' :: text.drop (index + 1) := by
    rw [← at_index, List.getElem_cons_drop, List.take_append_drop]
  have length_eq : (text.take index).length = index := List.length_take_of_le (by omega)
  generalize text.take index = front at whole length_eq
  generalize text.drop (index + 1) = rest at whole
  subst whole length_eq
  obtain ⟨inside, last, back, rfl, insideNested, closes⟩ :=
    nested.exists_closing (ofOpening?_eq_round_iff.2 rfl)
  obtain rfl := ofClosing?_eq_round_iff.1 closes
  have closed := closed_of_nested insideNested.foldlM_track
  exact ⟨_, partner_append_close closed front back,
    .intro (ofOpening?_eq_round_iff.2 rfl) closes insideNested front back⟩

end Nesting
end ContractDoc
