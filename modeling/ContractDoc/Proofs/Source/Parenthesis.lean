import ContractDoc.Proofs.Source.Splitter

/-!
# Parentheses that are closed

A text is closed if each of its parentheses has a partner in it.  The search for the
partner of a parenthesis passes over closed texts and ends at the first parenthesis
that closes one from outside.  Texts whose brackets are nested are closed, and taking
a closed pair of parentheses out of a nested text leaves it nested.
-/

namespace ContractDoc
namespace Nesting

/-- The number of opening parentheses of a text less the number of closing ones. -/
def roundDepth (text : List Char) : Int :=
  text.count '(' - text.count ')'

/-- No parenthesis of a text closes one that was opened before it. -/
def KeepsOpen (text : List Char) : Prop :=
  ∀ front, front <+: text → 0 ≤ roundDepth front

/-- Each parenthesis of a text has its partner in it. -/
structure Closed (text : List Char) : Prop where
  keepsOpen : KeepsOpen text
  depth_eq : roundDepth text = 0

@[simp] theorem roundDepth_nil : roundDepth [] = 0 := rfl

theorem roundDepth_append (front back : List Char) :
    roundDepth (front ++ back) = roundDepth front + roundDepth back := by
  simp only [roundDepth, List.count_append]
  omega

theorem roundDepth_cons (c : Char) (text : List Char) :
    roundDepth (c :: text) = roundDepth [c] + roundDepth text :=
  roundDepth_append [c] text

@[simp] theorem roundDepth_open : roundDepth ['('] = 1 := by decide

@[simp] theorem roundDepth_close : roundDepth [')'] = -1 := by decide

theorem roundDepth_of_ne
    {c : Char}
    (notOpen : c ≠ '(')
    (notClose : c ≠ ')') :
    roundDepth [c] = 0 := by
  simp [roundDepth, notOpen, notClose]

theorem KeepsOpen.of_prefix
    {front text : List Char}
    (keeps : KeepsOpen text)
    (begins : front <+: text) :
    KeepsOpen front :=
  fun shorter shorterBegins => keeps shorter (shorterBegins.trans begins)

theorem keepsOpen_append
    {front back : List Char}
    (keeps : KeepsOpen front)
    (backKeeps : ∀ shorter, shorter <+: back → 0 ≤ roundDepth front + roundDepth shorter) :
    KeepsOpen (front ++ back) := by
  intro shorter begins
  rcases List.prefix_or_prefix_of_prefix begins (List.prefix_append front back) with
    early | ⟨later, rfl⟩
  · exact keeps shorter early
  · rw [roundDepth_append]
    exact backKeeps later ((List.prefix_append_right_inj front).1 begins)

/-- Texts without parentheses have no depth. -/
theorem roundDepth_eq_zero
    {text : List Char}
    (clear : ∀ c ∈ text, c ≠ '(' ∧ c ≠ ')') :
    roundDepth text = 0 := by
  have noOpen : '(' ∉ text := fun member => (clear _ member).1 rfl
  have noClose : ')' ∉ text := fun member => (clear _ member).2 rfl
  simp [roundDepth, List.count_eq_zero_of_not_mem noOpen, List.count_eq_zero_of_not_mem noClose]

/-- A pair of parentheses around a closed text is closed. -/
theorem Closed.enclose
    {inside : List Char}
    (closed : Closed inside) :
    Closed ('(' :: (inside ++ [')'])) := by
  have depth_eq : roundDepth ('(' :: (inside ++ [')'])) = 0 := by
    rw [roundDepth_cons, roundDepth_append, closed.depth_eq]
    decide
  refine ⟨?_, depth_eq⟩
  intro front begins
  cases front with
  | nil => exact Int.le_refl 0
  | cons c front =>
    obtain ⟨rfl, rest⟩ := List.cons_prefix_cons.1 begins
    rw [roundDepth_cons, roundDepth_open]
    rcases List.prefix_concat_iff.1 rest with rfl | early
    · rw [roundDepth_append, closed.depth_eq, roundDepth_close]
      omega
    · have bound := closed.keepsOpen front early
      omega

/-! ## The search for a partner -/

/-- The search passes over a text that leaves the parenthesis open. -/
theorem closingFrom_append
    {depth : Int}
    {front : List Char}
    (stays : ∀ shorter, shorter <+: front → 1 ≤ depth + roundDepth shorter)
    (back : List Char) :
    closingFrom depth (front ++ back) =
      (closingFrom (depth + roundDepth front) back).map (· + front.length) := by
  induction front generalizing depth with
  | nil => simp
  | cons c front ih =>
    have rest : ∀ shorter, shorter <+: front →
        1 ≤ depth + roundDepth [c] + roundDepth shorter := by
      intro shorter begins
      have bound := stays (c :: shorter) (List.cons_prefix_cons.2 ⟨rfl, begins⟩)
      rw [roundDepth_cons] at bound
      omega
    have passed := ih rest
    rw [List.cons_append, roundDepth_cons, ← Int.add_assoc, closingFrom]
    split
    · next opens =>
      subst opens
      rw [roundDepth_open] at passed ⊢
      rw [passed, Option.map_map]
      rfl
    · next notOpen =>
      split
      · next closes =>
        subst closes
        have bound := stays [')'] (List.cons_prefix_cons.2 ⟨rfl, List.nil_prefix⟩)
        rw [roundDepth_close] at passed bound ⊢
        rw [if_neg (by omega), ← Int.add_neg_eq_sub, passed, Option.map_map]
        rfl
      · next notClose =>
        rw [roundDepth_of_ne notOpen notClose, Int.add_zero] at passed ⊢
        rw [passed, Option.map_map]
        rfl

/-- The search ends at the first parenthesis that closes one from outside. -/
theorem exists_append_of_closingFrom
    {depth : Int}
    {text : List Char}
    {close : Nat}
    (positive : 1 ≤ depth)
    (found : closingFrom depth text = some close) :
    ∃ front back, text = front ++ ')' :: back ∧ front.length = close ∧
      (∀ shorter, shorter <+: front → 1 ≤ depth + roundDepth shorter) ∧
        depth + roundDepth front = 1 := by
  induction text generalizing depth close with
  | nil => cases found
  | cons c text ih =>
    have extended {next : Nat}
        (deeper : 1 ≤ depth + roundDepth [c])
        (later : closingFrom (depth + roundDepth [c]) text = some next)
        (close_eq : next + 1 = close) :
        ∃ front back, c :: text = front ++ ')' :: back ∧ front.length = close ∧
          (∀ shorter, shorter <+: front → 1 ≤ depth + roundDepth shorter) ∧
            depth + roundDepth front = 1 := by
      obtain ⟨front, back, rfl, rfl, stays, depth_eq⟩ := ih deeper later
      refine ⟨c :: front, back, rfl, close_eq, ?_, ?_⟩
      · intro shorter begins
        cases shorter with
        | nil => simpa using positive
        | cons d shorter =>
          obtain ⟨rfl, shorterBegins⟩ := List.cons_prefix_cons.1 begins
          have bound := stays shorter shorterBegins
          rw [roundDepth_cons]
          omega
      · rw [roundDepth_cons]
        omega
    rw [closingFrom] at found
    split at found
    · next opens =>
      subst opens
      obtain ⟨next, later, close_eq⟩ := Option.map_eq_some_iff.1 found
      exact extended (by rw [roundDepth_open]; omega) (by rw [roundDepth_open]; exact later)
        close_eq
    · next notOpen =>
      split at found
      · next closes =>
        subst closes
        split at found
        · next last =>
          refine ⟨[], text, rfl, Option.some.inj found, ?_, ?_⟩
          · intro shorter begins
            rw [List.prefix_nil.1 begins, roundDepth_nil]
            omega
          · rw [roundDepth_nil]
            omega
        · next inner =>
          obtain ⟨next, later, close_eq⟩ := Option.map_eq_some_iff.1 found
          exact extended (by rw [roundDepth_close]; omega)
            (by rw [roundDepth_close, Int.add_neg_eq_sub]; exact later) close_eq
      · next notClose =>
        obtain ⟨next, later, close_eq⟩ := Option.map_eq_some_iff.1 found
        have same := roundDepth_of_ne notOpen notClose
        exact extended (by omega) (by rw [same, Int.add_zero]; exact later) close_eq

/-- The partner of a parenthesis before a closed text stands directly behind it. -/
theorem closingFrom_append_close
    {inside : List Char}
    (closed : Closed inside)
    (back : List Char) :
    closingFrom 0 ('(' :: (inside ++ ')' :: back)) = some (inside.length + 1) := by
  rw [closingFrom, if_pos rfl, closingFrom_append, closed.depth_eq, closingFrom]
  · simp
  · intro shorter begins
    have bound := closed.keepsOpen shorter begins
    omega

/-- A pair of parentheses around a closed text encloses it. -/
theorem enclosed?_append
    {inside : List Char}
    (closed : Closed inside)
    (back : List Char) :
    enclosed? ('(' :: (inside ++ ')' :: back)) = some (inside, ')' :: back) := by
  rw [enclosed?, closingFrom_append_close closed]
  simp

/-- The partner of a parenthesis is the only one behind a closed text. -/
theorem Closed.append_inj
    {inside other back otherBack : List Char}
    (closed : Closed inside)
    (otherClosed : Closed other)
    (same : inside ++ ')' :: back = other ++ ')' :: otherBack) :
    inside = other ∧ back = otherBack := by
  have found := enclosed?_append closed back
  rw [same, enclosed?_append otherClosed otherBack] at found
  obtain ⟨rfl, rest⟩ := Prod.mk.inj (Option.some.inj found)
  exact ⟨rfl, (List.cons.inj rest).2.symm⟩

/-- What a pair of parentheses encloses is closed. -/
theorem exists_append_of_enclosed?
    {text inside fromClose : List Char}
    (found : enclosed? ('(' :: text) = some (inside, fromClose)) :
    ∃ back, text = inside ++ ')' :: back ∧ fromClose = ')' :: back ∧ Closed inside := by
  obtain ⟨close, closes, parts⟩ := Option.map_eq_some_iff.1 found
  rw [closingFrom, if_pos rfl] at closes
  obtain ⟨next, searched, rfl⟩ := Option.map_eq_some_iff.1 closes
  obtain ⟨front, back, rfl, rfl, stays, depth_eq⟩ :=
    exists_append_of_closingFrom (by omega) searched
  obtain ⟨rfl, rfl⟩ := Prod.mk.inj parts
  refine ⟨back, by simp, by simp, ?_, ?_⟩
  · intro shorter begins
    have bound := stays shorter (by simpa using begins)
    omega
  · have same : (List.take (front.length + 1) ('(' :: (front ++ ')' :: back))).drop 1 = front := by
      simp
    rw [same]
    omega

/-- A parenthesis before a text that leaves it open has no partner there. -/
theorem enclosed?_eq_none
    {text : List Char}
    (keeps : KeepsOpen text) :
    enclosed? ('(' :: text) = none := by
  have stays : ∀ shorter, shorter <+: text → 1 ≤ 0 + 1 + roundDepth shorter := by
    intro shorter begins
    have bound := keeps shorter begins
    omega
  have searched := closingFrom_append stays []
  rw [List.append_nil] at searched
  rw [enclosed?, closingFrom, if_pos rfl, searched]
  rfl

end Nesting

/-! ## Nested brackets -/

namespace Bracket

open Nesting

/-- What one character does to the brackets that are open. -/
theorem track_eq_some
    {unclosed after : List Bracket}
    {c : Char}
    (tracked : track unclosed c = some after) :
    (∃ bracket, ofOpening? c = some bracket ∧ after = bracket :: unclosed) ∨
      (∃ bracket, ofClosing? c = some bracket ∧ unclosed = bracket :: after) ∨
        ofOpening? c = none ∧ ofClosing? c = none ∧ after = unclosed := by
  unfold track at tracked
  split at tracked
  · next bracket opens => exact .inl ⟨bracket, opens, (Option.some.inj tracked).symm⟩
  · next bracket _ closes =>
    split at tracked
    · cases tracked
    · next innermost outer =>
      split at tracked
      · next fits =>
        rw [← Option.some.inj tracked, fits]
        exact .inr (.inl ⟨bracket, closes, rfl⟩)
      · cases tracked
  · next neither closes =>
    exact .inr (.inr ⟨neither, closes, (Option.some.inj tracked).symm⟩)

/-- Brackets below those that a text closes stay as they are. -/
theorem foldlM_track_append
    {unclosed after : List Bracket}
    {text : List Char}
    (tracked : text.foldlM track unclosed = some after)
    (below : List Bracket) :
    text.foldlM track (unclosed ++ below) = some (after ++ below) := by
  induction text generalizing unclosed with
  | nil =>
    obtain rfl := Option.some.inj tracked
    rfl
  | cons c text ih =>
    rw [List.foldlM_cons] at tracked ⊢
    obtain ⟨next, first, rest⟩ := Option.bind_eq_some_iff.1 tracked
    have stepped : track (unclosed ++ below) c = some (next ++ below) := by
      unfold track at first ⊢
      split at first
      · rw [← Option.some.inj first]
        rfl
      · split at first
        · cases first
        · split at first
          · next fits =>
            rw [← Option.some.inj first]
            exact if_pos fits
          · cases first
      · rw [← Option.some.inj first]
    rw [stepped]
    exact ih rest

/-- Texts of characters that are no brackets leave the open brackets as they were. -/
theorem foldlM_track_of_forall
    {unclosed : List Bracket}
    {text : List Char}
    (plain : ∀ c ∈ text, ∀ unclosed, track unclosed c = some unclosed) :
    text.foldlM track unclosed = some unclosed := by
  induction text with
  | nil => rfl
  | cons c text ih =>
    rw [List.foldlM_cons, plain c List.mem_cons_self]
    exact ih fun d member => plain d (List.mem_cons_of_mem c member)

theorem ofOpening?_eq_round_iff {c : Char} : ofOpening? c = some .round ↔ c = '(' := by
  constructor
  · intro opens
    unfold ofOpening? at opens
    split at opens <;> simp_all
  · rintro rfl
    rfl

theorem ofClosing?_eq_round_iff {c : Char} : ofClosing? c = some .round ↔ c = ')' := by
  constructor
  · intro closes
    unfold ofClosing? at closes
    split at closes <;> simp_all
  · rintro rfl
    rfl

/-- One character changes the number of open parentheses by its depth. -/
theorem count_round_of_track
    {unclosed after : List Bracket}
    {c : Char}
    (tracked : track unclosed c = some after) :
    (after.count .round : Int) = unclosed.count .round + roundDepth [c] := by
  rcases track_eq_some tracked with ⟨bracket, opens, rfl⟩ | ⟨bracket, closes, rfl⟩ |
    ⟨neither, closes, rfl⟩
  · by_cases round : bracket = .round
    · rw [round, ofOpening?_eq_round_iff] at opens
      simp [round, opens]
    · have notOpen : c ≠ '(' := by
        rintro rfl
        exact round (Option.some.inj opens).symm
      have notClose : c ≠ ')' := by
        rintro rfl
        cases opens
      simp [round, roundDepth_of_ne notOpen notClose]
  · by_cases round : bracket = .round
    · rw [round, ofClosing?_eq_round_iff] at closes
      rw [closes, roundDepth_close, round, List.count_cons_self]
      omega
    · have notOpen : c ≠ '(' := by
        rintro rfl
        cases closes
      have notClose : c ≠ ')' := by
        rintro rfl
        exact round (Option.some.inj closes).symm
      simp [round, roundDepth_of_ne notOpen notClose]
  · have notOpen : c ≠ '(' := by
      rintro rfl
      cases neither
    have notClose : c ≠ ')' := by
      rintro rfl
      cases closes
    simp [roundDepth_of_ne notOpen notClose]

/-- A text changes the number of open parentheses by its depth. -/
theorem count_round_of_foldlM
    {unclosed after : List Bracket}
    {text : List Char}
    (tracked : text.foldlM track unclosed = some after) :
    (after.count .round : Int) = unclosed.count .round + roundDepth text := by
  induction text generalizing unclosed with
  | nil =>
    obtain rfl := Option.some.inj tracked
    simp
  | cons c text ih =>
    rw [List.foldlM_cons] at tracked
    obtain ⟨next, first, rest⟩ := Option.bind_eq_some_iff.1 tracked
    rw [ih rest, count_round_of_track first, roundDepth_cons c text]
    omega

/-- The parentheses of a nested text are closed. -/
theorem closed_of_nested
    {text : List Char}
    (nested : text.foldlM track [] = some []) :
    Closed text := by
  refine ⟨?_, ?_⟩
  · rintro front ⟨back, rfl⟩
    rw [List.foldlM_append] at nested
    obtain ⟨middle, tracked, -⟩ := Option.bind_eq_some_iff.1 nested
    have count := count_round_of_foldlM tracked
    rw [List.count_nil] at count
    omega
  · have count := count_round_of_foldlM nested
    rw [List.count_nil] at count
    omega

/-- A text that leaves an open parenthesis open leaves everything below it, whatever brackets
are open above.  Only a closing parenthesis would fit it, and the text holds none without its
partner. -/
theorem exists_append_of_above
    {above below after : List Bracket}
    {text : List Char}
    (keeps : ∀ front, front <+: text → 0 ≤ above.count .round + roundDepth front)
    (tracked : text.foldlM track (above ++ .round :: below) = some after) :
    ∃ left, after = left ++ .round :: below := by
  induction text generalizing above with
  | nil => exact ⟨above, (Option.some.inj tracked).symm⟩
  | cons c text ih =>
    rw [List.foldlM_cons] at tracked
    obtain ⟨next, first, rest⟩ := Option.bind_eq_some_iff.1 tracked
    have bound := keeps [c] (List.cons_prefix_cons.2 ⟨rfl, List.nil_prefix⟩)
    have onward (left : List Bracket) (next_eq : next = left ++ .round :: below) :
        ∃ left, after = left ++ .round :: below := by
      subst next_eq
      refine ih ?_ rest
      intro front begins
      have whole := keeps (c :: front) (List.cons_prefix_cons.2 ⟨rfl, begins⟩)
      have count := count_round_of_track first
      simp only [List.count_append] at count
      rw [roundDepth_cons] at whole
      omega
    rcases track_eq_some first with ⟨bracket, -, rfl⟩ | ⟨bracket, closes, next_eq⟩ | ⟨-, -, rfl⟩
    · exact onward (bracket :: above) rfl
    · cases above with
      | nil =>
        obtain ⟨rfl, -⟩ := List.cons.inj next_eq
        rw [ofClosing?_eq_round_iff.1 closes] at bound
        simp at bound
      | cons innermost above => exact onward above (List.cons.inj next_eq).2.symm
    · exact onward above rfl

theorem exists_append_of_keepsOpen
    {below after : List Bracket}
    {text : List Char}
    (keeps : KeepsOpen text)
    (tracked : text.foldlM track (.round :: below) = some after) :
    ∃ left, after = left ++ .round :: below := by
  have above : ∀ front, front <+: text →
      0 ≤ ([] : List Bracket).count .round + roundDepth front := by
    intro front begins
    simpa using keeps front begins
  exact exists_append_of_above above tracked

/-- A pair of parentheses around a closed text leaves the open brackets as they were. -/
theorem eq_of_foldlM_enclosed
    {unclosed after : List Bracket}
    {inside : List Char}
    (closed : Closed inside)
    (tracked : ('(' :: (inside ++ [')'])).foldlM track unclosed = some after) :
    after = unclosed := by
  rw [List.foldlM_cons] at tracked
  obtain ⟨opened, first, tracked⟩ := Option.bind_eq_some_iff.1 tracked
  obtain rfl : .round :: unclosed = opened := Option.some.inj first
  rw [List.foldlM_append] at tracked
  obtain ⟨middle, within, last⟩ := Option.bind_eq_some_iff.1 tracked
  obtain ⟨left, rfl⟩ := exists_append_of_keepsOpen closed.keepsOpen within
  have count := count_round_of_foldlM within
  rw [closed.depth_eq] at count
  simp only [List.count_append] at count
  rw [List.foldlM_cons] at last
  obtain ⟨final, closes, same⟩ := Option.bind_eq_some_iff.1 last
  obtain rfl := Option.some.inj same
  rcases track_eq_some closes with ⟨bracket, opens, -⟩ | ⟨bracket, fits, middle_eq⟩ | ⟨-, none, -⟩
  · cases opens
  · obtain rfl := Option.some.inj fits
    cases left with
    | nil => exact (List.cons.inj middle_eq).2.symm
    | cons innermost left =>
      obtain ⟨rfl, -⟩ := List.cons.inj middle_eq
      rw [List.count_cons_self] at count
      omega
  · cases none

end Bracket
end ContractDoc
