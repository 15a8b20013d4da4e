import ContractDoc.Proofs.Source.Parenthesis

/-!
# Nested texts

The grammar of texts whose brackets are nested.  A text belongs to it exactly if no
bracket is refused and none is left open when its characters are followed one after the
other.  What stands behind a nested text is nested exactly if the whole is.
-/

namespace ContractDoc
namespace Bracket

/-- A text whose brackets are nested: each of them is closed by one of its kind, and what
stands between the two is nested. -/
inductive Nested : List Char → Prop
  | nil : Nested []
  | plain {c : Char} {rest : List Char}
      (notOpening : ofOpening? c = none)
      (notClosing : ofClosing? c = none)
      (tail : Nested rest) :
      Nested (c :: rest)
  | enclosed {bracket : Bracket} {opening closing : Char} {inside rest : List Char}
      (opens : ofOpening? opening = some bracket)
      (closes : ofClosing? closing = some bracket)
      (within : Nested inside)
      (tail : Nested rest) :
      Nested (opening :: (inside ++ closing :: rest))

theorem track_of_opens
    {c : Char} {bracket : Bracket}
    (opens : ofOpening? c = some bracket)
    (unclosed : List Bracket) :
    track unclosed c = some (bracket :: unclosed) := by
  rw [track, opens]

/-- No closing bracket opens one. -/
theorem ofOpening?_eq_none_of_closes
    {c : Char} {bracket : Bracket}
    (closes : ofClosing? c = some bracket) :
    ofOpening? c = none := by
  unfold ofClosing? at closes
  split at closes
  · rfl
  · rfl
  · rfl
  · cases closes

theorem track_of_closes
    {c : Char} {bracket : Bracket}
    (closes : ofClosing? c = some bracket)
    (unclosed : List Bracket) :
    track (bracket :: unclosed) c = some unclosed := by
  simp [track, ofOpening?_eq_none_of_closes closes, closes]

theorem track_of_plain
    {c : Char}
    (notOpening : ofOpening? c = none)
    (notClosing : ofClosing? c = none)
    (unclosed : List Bracket) :
    track unclosed c = some unclosed := by
  rw [track, notOpening, notClosing]

/-- Following a nested text leaves no bracket open. -/
theorem Nested.foldlM_track
    {text : List Char}
    (nested : Nested text) :
    text.foldlM track [] = some [] := by
  induction nested with
  | nil => rfl
  | plain notOpening notClosing _ ih =>
    rw [List.foldlM_cons, track_of_plain notOpening notClosing]
    exact ih
  | @enclosed bracket _ _ _ _ opens closes _ _ withinIH tailIH =>
    have passed := foldlM_track_append withinIH [bracket]
    rw [List.nil_append] at passed
    rw [List.foldlM_cons, track_of_opens opens, Option.bind_eq_bind, Option.bind_some,
      List.foldlM_append, passed, Option.bind_eq_bind, Option.bind_some, List.foldlM_cons,
      track_of_closes closes]
    exact tailIH

/-- A text closes the given brackets, innermost first, with nested texts before, between
and behind them. -/
def ClosesAll : List Bracket → List Char → Prop
  | [], text => Nested text
  | bracket :: outer, text =>
      ∃ inside closing rest, text = inside ++ closing :: rest ∧ Nested inside ∧
        ofClosing? closing = some bracket ∧ ClosesAll outer rest

/-- What may stand before every nested text may stand before one that closes brackets. -/
theorem ClosesAll.prepend
    {unclosed : List Bracket} {front text : List Char}
    (keeps : ∀ text, Nested text → Nested (front ++ text))
    (closesAll : ClosesAll unclosed text) :
    ClosesAll unclosed (front ++ text) := by
  cases unclosed with
  | nil => exact keeps text closesAll
  | cons bracket outer =>
    obtain ⟨inside, closing, rest, rfl, within, closes, later⟩ := closesAll
    exact ⟨front ++ inside, closing, rest, by simp, keeps inside within, closes, later⟩

/-- A text behind which no bracket is open closes all brackets that were open before it.  Each
bracket of the text encloses what stands up to its partner. -/
theorem closesAll_of_foldlM_track
    {unclosed : List Bracket} {text : List Char}
    (tracked : text.foldlM track unclosed = some []) :
    ClosesAll unclosed text := by
  induction text generalizing unclosed with
  | nil =>
    obtain rfl := Option.some.inj tracked
    exact .nil
  | cons c text ih =>
    rw [List.foldlM_cons] at tracked
    obtain ⟨next, first, rest⟩ := Option.bind_eq_some_iff.1 tracked
    have closesRest := ih rest
    rcases track_eq_some first with ⟨bracket, opens, rfl⟩ | ⟨bracket, closes, rfl⟩ |
      ⟨notOpening, notClosing, rfl⟩
    · obtain ⟨inside, closing, later, rfl, within, closes, closesLater⟩ := closesRest
      have whole : c :: (inside ++ closing :: later) = (c :: (inside ++ [closing])) ++ later := by
        simp
      rw [whole]
      refine closesLater.prepend fun text nested => ?_
      have enclosed := Nested.enclosed opens closes within nested
      simpa using enclosed
    · exact ⟨[], c, text, rfl, .nil, closes, closesRest⟩
    · have keeps (text : List Char) (nested : Nested text) : Nested ([c] ++ text) :=
        .plain notOpening notClosing nested
      exact closesRest.prepend keeps

/-- A text is nested exactly if its brackets can be followed and none stays open. -/
theorem nested_iff_foldlM_track {text : List Char} :
    Nested text ↔ text.foldlM track [] = some [] :=
  ⟨Nested.foldlM_track, closesAll_of_foldlM_track⟩

instance (text : List Char) : Decidable (Nested text) :=
  decidable_of_iff _ nested_iff_foldlM_track.symm

namespace Nested

variable {front back inside : List Char}

/-- Behind a nested text stands a nested text exactly if both together are nested. -/
theorem append_iff (nested : Nested front) : Nested (front ++ back) ↔ Nested back := by
  rw [nested_iff_foldlM_track, nested_iff_foldlM_track, List.foldlM_append, nested.foldlM_track]
  rfl

theorem append (nested : Nested front) (backNested : Nested back) : Nested (front ++ back) :=
  nested.append_iff.2 backNested

/-- Texts without brackets are nested. -/
theorem of_forall
    (plain : ∀ c ∈ front, ofOpening? c = none ∧ ofClosing? c = none) :
    Nested front := by
  induction front with
  | nil => exact .nil
  | cons c front ih =>
    obtain ⟨⟨notOpening, notClosing⟩, rest⟩ := List.forall_mem_cons.1 plain
    exact .plain notOpening notClosing (ih rest)

/-- A pair of brackets around a nested text is nested. -/
theorem enclose
    {bracket : Bracket} {opening closing : Char}
    (nested : Nested inside)
    (opens : ofOpening? opening = some bracket)
    (closes : ofClosing? closing = some bracket) :
    Nested (opening :: (inside ++ [closing])) :=
  .enclosed opens closes nested .nil

/-- Before the end of a nested text the bracket before it is open. -/
theorem not_nested_cons_of_prefix
    {bracket : Bracket} {opening : Char}
    (nested : Nested inside)
    (opens : ofOpening? opening = some bracket)
    (begins : front <+: inside) :
    ¬ Nested (opening :: front) := by
  obtain ⟨back, rfl⟩ := begins
  have tracked := nested.foldlM_track
  rw [List.foldlM_append] at tracked
  obtain ⟨unclosed, followed, -⟩ := Option.bind_eq_some_iff.1 tracked
  have above := foldlM_track_append followed [bracket]
  intro closed
  have ended := closed.foldlM_track
  rw [List.foldlM_cons, track_of_opens opens, Option.bind_eq_bind, Option.bind_some] at ended
  rw [List.nil_append, ended] at above
  have left := Option.some.inj above
  simp at left

end Nested
end Bracket
end ContractDoc
