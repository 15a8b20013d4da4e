import ContractDoc.DocComment.NatSpec
import ContractDoc.Proofs.Entries
import ContractDoc.Proofs.Outcome

/-!
# The tags of a comment

Every tag occurs once, and only the tag of the parameters holds a table.  All others
hold texts, however often they are given and continued.  But for the notice and the
parameters, the tags of a comment are those that stand at the start of one of its lines.
-/

namespace ContractDoc
namespace NatSpec

/-- Tags are regular if each occurs once and all but the parameters hold texts. -/
structure Regular (tags : NatSpec) : Prop where
  distinct : (Entries.keys tags).Nodup
  params_of_table : ∀ name descriptions,
    Entries.get? name tags = some (.table descriptions) → name = paramsTag

namespace Regular

variable {tags changed : NatSpec} {name : String}

theorem nil : Regular [] where
  distinct := List.nodup_nil
  params_of_table := nofun

/-- A regular tag may be set to anything that suits it. -/
theorem insert
    (regular : Regular tags)
    {value : TagValue}
    (suits : ∀ descriptions, value = .table descriptions → name = paramsTag) :
    Regular (Entries.insert name value tags) where
  distinct := Entries.nodup_keys_insert value regular.distinct
  params_of_table := by
    intro other descriptions found
    rw [Entries.get?_insert] at found
    split at found
    · rename_i same
      rw [same]
      exact suits descriptions (Option.some.inj found)
    · exact regular.params_of_table other descriptions found

theorem insert_text
    (regular : Regular tags)
    (name content : String) :
    Regular (Entries.insert name (.text content) tags) :=
  regular.insert fun _ => nofun

theorem addTag
    (regular : Regular tags)
    (name content : String) :
    Regular (NatSpec.addTag tags name content) := by
  unfold NatSpec.addTag
  split
  · exact regular.insert_text _ _
  · exact regular.insert_text _ _

theorem setParam
    {description : String}
    (regular : Regular tags)
    (sets : NatSpec.setParam tags name description = .ok changed) :
    Regular changed := by
  obtain ⟨descriptions, _, sets⟩ := bind_eq_ok.mp sets
  rw [← Except.ok.inj sets]
  exact regular.insert fun _ _ => rfl

theorem continueTag
    {line : List Char}
    (regular : Regular tags)
    (continues : NatSpec.continueTag tags name line = .ok changed) :
    Regular changed := by
  unfold NatSpec.continueTag at continues
  split at continues
  · cases continues
  · split at continues
    · rw [← Except.ok.inj continues]
      exact regular.insert_text _ _
    · rw [← Except.ok.inj continues]
      exact regular.insert_text _ _

theorem continueParam
    {line : List Char}
    (regular : Regular tags)
    (continues : NatSpec.continueParam tags name line = .ok changed) :
    Regular changed := by
  obtain ⟨descriptions, _, sets⟩ := bind_eq_ok.mp continues
  exact regular.setParam sets

/-- A line keeps the tags regular. -/
theorem step
    {state next : State}
    {line : List Char}
    (regular : Regular state.tags)
    (steps : NatSpec.step state line = .ok next) :
    Regular next.tags := by
  unfold NatSpec.step at steps
  split at steps
  · split at steps
    · obtain ⟨changed, sets, steps⟩ := bind_eq_ok.mp steps
      rw [← Except.ok.inj steps]
      exact regular.setParam sets
    · rw [← Except.ok.inj steps]
      exact regular.addTag _ _
  · dsimp only at steps
    split at steps
    · obtain ⟨changed, continues, steps⟩ := bind_eq_ok.mp steps
      rw [← Except.ok.inj steps]
      exact regular.continueTag continues
    · obtain ⟨changed, continues, steps⟩ := bind_eq_ok.mp steps
      rw [← Except.ok.inj steps]
      exact regular.continueParam continues

/-- All lines together keep the tags regular. -/
theorem foldlM_step
    {lines : List (List Char)}
    {state last : State}
    (regular : Regular state.tags)
    (steps : lines.foldlM NatSpec.step state = .ok last) :
    Regular last.tags := by
  induction lines generalizing state with
  | nil => exact Except.ok.inj steps ▸ regular
  | cons line lines ih =>
      rw [List.foldlM_cons] at steps
      obtain ⟨next, first, rest⟩ := bind_eq_ok.mp steps
      exact ih (regular.step first) rest

/-- The tags of a comment are regular. -/
theorem ofText
    {comment : String}
    (divides : NatSpec.ofText comment = .ok tags) :
    Regular tags := by
  obtain ⟨last, steps, last_eq⟩ := bind_eq_ok.mp divides
  rw [← Except.ok.inj last_eq]
  exact nil.foldlM_step steps

end Regular
/-! ## Tags and the lines that give them -/

/-- A line that starts with a tag. -/
def GivesTag (line : List Char) (tag : String) : Prop :=
  ∃ content, tagLine? line = some (tag.toList, content)

/-- The tags that a comment may have without a line that starts with them, and the one
that a line may start with without giving it. -/
def reservedTags : List String := ["notice", paramsTag, "param"]

/-- What has been read of some lines: they give the tags that are there, and only such
tags are continued. -/
structure Gathers (lines : List (List Char)) (state : State) : Prop where
  isSome_iff : ∀ tag, tag ∉ reservedTags →
    ((Entries.get? tag state.tags).isSome ↔ ∃ line ∈ lines, GivesTag line tag)
  current : ∀ tag, state.current = some (.tag tag) →
    tag = "notice" ∨ (Entries.get? tag state.tags).isSome

theorem isSome_get?_insert (tags : NatSpec) (name tag : String) (value : TagValue) :
    (Entries.get? tag (Entries.insert name value tags)).isSome ↔
      tag = name ∨ (Entries.get? tag tags).isSome := by
  rw [Entries.get?_insert]
  by_cases same : tag = name <;> simp [same]

theorem isSome_get?_addTag (tags : NatSpec) (name content tag : String) :
    (Entries.get? tag (addTag tags name content)).isSome ↔
      tag = name ∨ (Entries.get? tag tags).isSome := by
  unfold addTag
  split <;> exact isSome_get?_insert ..

/-- Descriptions of parameters change no other tag. -/
theorem get?_of_setParam
    {tags changed : NatSpec}
    {name description tag : String}
    (sets : setParam tags name description = .ok changed)
    (other : tag ≠ paramsTag) :
    Entries.get? tag changed = Entries.get? tag tags := by
  obtain ⟨descriptions, _, sets⟩ := bind_eq_ok.mp sets
  rw [← Except.ok.inj sets, Entries.get?_insert_of_ne other]

theorem isSome_get?_of_continueTag
    {tags changed : NatSpec}
    {name : String}
    {line : List Char}
    (continues : continueTag tags name line = .ok changed)
    (tag : String) :
    (Entries.get? tag changed).isSome ↔ tag = name ∨ (Entries.get? tag tags).isSome := by
  unfold continueTag at continues
  split at continues
  · cases continues
  · split at continues <;>
    · rw [← Except.ok.inj continues]
      exact isSome_get?_insert ..

namespace Gathers

variable {lines : List (List Char)} {line : List Char} {state next : State}

/-- Before the first line there are no tags. -/
theorem nil : Gathers [] ⟨[], none⟩ where
  isSome_iff := by simp [Entries.get?]
  current := nofun

/-- A line without a tag adds no tag but those that are reserved. -/
theorem concat_of_tagLine?_eq_none
    {tag : String}
    (gathers : Gathers lines state)
    (plain : tagLine? line = none)
    (unreserved : tag ∉ reservedTags) :
    (Entries.get? tag state.tags).isSome ↔ ∃ given ∈ lines ++ [line], GivesTag given tag := by
  rw [gathers.isSome_iff tag unreserved]
  simp [GivesTag, plain, or_and_right, exists_or]

/-- A line gives the tag that it starts with.  A tag that is continued is there already, unless
it is the notice. -/
theorem step
    (gathers : Gathers lines state)
    (steps : NatSpec.step state line = .ok next) :
    Gathers (lines ++ [line]) next := by
  unfold NatSpec.step at steps
  split at steps
  · rename_i tag content starts
    have gives (other : String) : GivesTag line other ↔ other.toList = tag := by
      simp [GivesTag, starts, eq_comm]
    split at steps
    · rename_i isParam
      obtain ⟨changed, sets, steps⟩ := bind_eq_ok.mp steps
      rw [← Except.ok.inj steps]
      refine ⟨?_, nofun⟩
      intro other unreserved
      have notParams : other ≠ paramsTag := by
        rintro rfl
        exact unreserved (by decide)
      have notParam : ¬ GivesTag line other := by
        rw [gives, isParam]
        intro same
        rw [String.toList_inj.mp same] at unreserved
        exact unreserved (by decide)
      rw [get?_of_setParam sets notParams, gathers.isSome_iff other unreserved]
      simp [or_and_right, exists_or, notParam]
    · rw [← Except.ok.inj steps]
      refine ⟨?_, ?_⟩
      · intro other unreserved
        have same_iff : other = String.ofList tag ↔ GivesTag line other := by
          rw [gives, ← String.toList_inj, String.toList_ofList]
        rw [isSome_get?_addTag, gathers.isSome_iff other unreserved, same_iff]
        simp [or_and_right, exists_or, or_comm]
      · rintro other ⟨⟩
        exact .inr ((isSome_get?_addTag ..).mpr (.inl rfl))
  · rename_i plain
    dsimp only at steps
    split at steps
    · rename_i name continued
      obtain ⟨changed, continues, steps⟩ := bind_eq_ok.mp steps
      rw [← Except.ok.inj steps]
      have known : name = "notice" ∨ (Entries.get? name state.tags).isSome := by
        cases current_eq : state.current with
        | none =>
          rw [current_eq] at continued
          cases continued
          exact .inl rfl
        | some current =>
          rw [current_eq] at continued
          exact gathers.current name (current_eq.trans (congrArg some continued))
      refine ⟨?_, ?_⟩
      · intro other unreserved
        rw [isSome_get?_of_continueTag continues,
          ← gathers.concat_of_tagLine?_eq_none plain unreserved, or_iff_right_of_imp]
        rintro rfl
        refine known.resolve_left ?_
        rintro rfl
        exact unreserved (by decide)
      · intro other same
        obtain rfl := Section.tag.inj (continued.symm.trans (Option.some.inj same))
        exact .inr ((isSome_get?_of_continueTag continues _).mpr (.inl rfl))
    · rename_i name continued
      obtain ⟨changed, continues, steps⟩ := bind_eq_ok.mp steps
      rw [← Except.ok.inj steps]
      refine ⟨?_, fun other same => nomatch continued.symm.trans (Option.some.inj same)⟩
      intro other unreserved
      have notParams : other ≠ paramsTag := by
        rintro rfl
        exact unreserved (by decide)
      obtain ⟨descriptions, _, sets⟩ := bind_eq_ok.mp continues
      rw [get?_of_setParam sets notParams]
      exact gathers.concat_of_tagLine?_eq_none plain unreserved

/-- All lines together give the tags that are there. -/
theorem foldlM_step
    {more : List (List Char)}
    (gathers : Gathers lines state)
    (steps : more.foldlM NatSpec.step state = .ok next) :
    Gathers (lines ++ more) next := by
  induction more generalizing lines state with
  | nil =>
      rw [List.append_nil]
      exact Except.ok.inj steps ▸ gathers
  | cons line more ih =>
      rw [List.foldlM_cons] at steps
      obtain ⟨middle, first, rest⟩ := bind_eq_ok.mp steps
      rw [List.append_cons]
      exact ih (gathers.step first) rest

end Gathers

/-- A comment has a tag exactly if one of its lines starts with it. -/
theorem isSome_get?_of_ofText
    {comment : String}
    {tags : NatSpec}
    (divides : ofText comment = .ok tags)
    {tag : String}
    (unreserved : tag ∉ reservedTags) :
    (Entries.get? tag tags).isSome ↔ ∃ line ∈ Text.lines comment.toList, GivesTag line tag := by
  obtain ⟨last, steps, last_eq⟩ := bind_eq_ok.mp divides
  rw [← Except.ok.inj last_eq, (Gathers.nil.foldlM_step steps).isSome_iff tag unreserved]
  have nonempty (line : List Char) (gives : GivesTag line tag) : line.isEmpty = false := by
    cases line with
    | nil => obtain ⟨content, ⟨⟩⟩ := gives
    | cons c rest => rfl
  simp only [List.nil_append, List.mem_filter]
  constructor
  · rintro ⟨line, ⟨member, _⟩, gives⟩
    exact ⟨line, member, gives⟩
  · rintro ⟨line, member, gives⟩
    exact ⟨line, ⟨member, by simp [nonempty line gives]⟩, gives⟩

end NatSpec
end ContractDoc
