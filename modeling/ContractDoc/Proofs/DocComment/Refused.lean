import ContractDoc.Proofs.DocComment.Reading

/-!
# Comments that cannot be divided

The tag `params` can be written as a tag of its own.  From then on its entry is a text.  A
comment cannot be divided exactly if it goes on to use this text as the table of parameters: by
describing a parameter, or by a line that would continue the text.  All other comments are
divided, and of their tags only `params` may hold a table.
-/

namespace ContractDoc
namespace NatSpec

open Text

/-- A line that needs the table of parameters behind lines that have made a text of it: it
starts with the tag of a parameter, or it has no tag and the last tag before it is `params`. -/
structure Refuses (earlier : List (List Char)) (line : List Char) : Prop where
  nonempty : line ≠ []
  paramsGiven : ∃ given ∈ earlier, GivesTag given paramsTag
  needsTable : GivesTag line "param" ∨
    tagLine? line = none ∧ ∃ content, lastTagLine? earlier = some (paramsTag.toList, content)

/-- Lines of which one needs the table of parameters behind those that have made a text of
it. -/
def Refused (lines : List (List Char)) : Prop :=
  ∃ earlier line later, lines = earlier ++ line :: later ∧ Refuses earlier line

/-- The entry of the parameters after some lines: it is a text exactly if a line starts with
the tag `params`, and a table while a parameter is described. -/
structure Tracks (lines : List (List Char)) (state : State) : Prop where
  text_iff : (∃ content, Entries.get? paramsTag state.tags = some (.text content)) ↔
    ∃ given ∈ lines, GivesTag given paramsTag
  table : ∀ name, openSection lines = .param name →
    ∃ descriptions, Entries.get? paramsTag state.tags = some (.table descriptions)

theorem givesTag_iff
    {line tag content : List Char}
    (starts : tagLine? line = some (tag, content))
    (name : String) :
    GivesTag line name ↔ tag = name.toList := by
  simp [GivesTag, starts]

theorem not_givesTag_of_untagged
    {line : List Char}
    (untagged : tagLine? line = none)
    (name : String) :
    ¬ GivesTag line name := by
  simp [GivesTag, untagged]

theorem exists_mem_concat
    {lines : List (List Char)} {line : List Char} {name : String} :
    (∃ given ∈ lines ++ [line], GivesTag given name) ↔
      (∃ given ∈ lines, GivesTag given name) ∨ GivesTag line name := by
  simp [or_and_right, exists_or]

theorem tracks_of_afterLines
    {lines : List (List Char)} {state : State}
    (read : afterLines lines = .ok state) :
    Tracks lines state := by
  refine afterLines_induction (motive := Tracks) ?_ ?_ ?_ read
  · exact ⟨by simp [Entries.get?], by simp [openSection, lastTagLine?]⟩
  · intro lines state tracks
    refine ⟨?_, ?_⟩
    · rw [tracks.text_iff, exists_mem_concat, or_iff_left (not_givesTag_of_untagged rfl _)]
    · rw [openSection_concat_of_untagged rfl]
      exact tracks.table
  · intro lines line state next _ _ tracks reads
    cases reads with
    | @tag tag content starts other =>
      refine ⟨?_, ?_⟩
      · rw [exists_mem_concat, givesTag_iff starts, ← tracks.text_iff, addTag_eq,
          Entries.get?_insert]
        by_cases same : paramsTag = String.ofList tag
        · simp [same]
        · have different : tag ≠ paramsTag.toList := by
            rintro rfl
            exact same String.ofList_toList.symm
          simp [same, different]
      · rw [openSection_concat_of_tag starts, sectionOf, if_neg other]
        intro name isParam
        cases isParam
    | param starts known =>
      have notGiven := tracks.text_iff.not.1 (not_text_of_known known)
      refine ⟨?_, fun name _ => ⟨_, get?_withParam ..⟩⟩
      rw [exists_mem_concat, givesTag_iff starts, get?_withParam]
      exact iff_of_false (by simp) (not_or.2 ⟨notGiven, by decide⟩)
    | plain untagged current other =>
      refine ⟨?_, ?_⟩
      · rw [exists_mem_concat, or_iff_left (not_givesTag_of_untagged untagged _),
          ← tracks.text_iff, Entries.get?_insert_of_ne (Ne.symm other)]
      · rw [openSection_concat_of_untagged untagged, Entries.get?_insert_of_ne (Ne.symm other)]
        exact tracks.table
    | plainOfParam untagged current known =>
      have notGiven := tracks.text_iff.not.1 (not_text_of_known known)
      refine ⟨?_, fun name _ => ⟨_, get?_withParam ..⟩⟩
      rw [exists_mem_concat, get?_withParam]
      exact iff_of_false (by simp) (not_or.2 ⟨notGiven, not_givesTag_of_untagged untagged _⟩)

/-! ## When a line is refused -/

/-- The section of the tag `params` is open behind a line that starts with it. -/
theorem openSection_eq_params_iff {lines : List (List Char)} :
    openSection lines = .tag paramsTag ↔
      ∃ content, lastTagLine? lines = some (paramsTag.toList, content) := by
  unfold openSection
  cases last : lastTagLine? lines with
  | none => exact iff_of_false (by decide) (by simp)
  | some found =>
    obtain ⟨tag, content⟩ := found
    simp only [Option.map_some, Option.getD_some, sectionOf]
    split
    · next isParam =>
      subst isParam
      refine iff_of_false (by simp) ?_
      rintro ⟨behind, same⟩
      exact absurd (Prod.mk.inj (Option.some.inj same)).1 (by decide)
    · simp [← String.toList_inj]

theorem readLine_eq_error_iff
    {lines : List (List Char)} {state : State}
    (read : afterLines lines = .ok state)
    (line : List Char) :
    readLine state line = .error .paramsIsText ↔ Refuses lines line := by
  have tracks := tracks_of_afterLines read
  have isOpen := current_of_afterLines read
  unfold readLine
  split
  · next isEmpty =>
    exact iff_of_false (by simp) fun refuses => refuses.nonempty (List.isEmpty_iff.1 isEmpty)
  · next notEmpty =>
    have nonempty : line ≠ [] := fun isEmpty => notEmpty (List.isEmpty_iff.2 isEmpty)
    have reads := reads_step state line
    generalize step state line = result at reads
    cases reads with
    | tag starts other =>
      refine iff_of_false (by simp) ?_
      rintro ⟨-, -, describes | ⟨untagged, -⟩⟩
      · exact other ((givesTag_iff starts _).1 describes)
      · rw [starts] at untagged
        cases untagged
    | param starts known =>
      refine iff_of_false (by simp) fun refuses => ?_
      exact not_text_of_known known (tracks.text_iff.2 refuses.paramsGiven)
    | paramOfText starts isText =>
      refine iff_of_true rfl ⟨nonempty, ?_, .inl ⟨_, starts⟩⟩
      exact tracks.text_iff.1 (params_eq_error_iff.1 isText)
    | plain untagged current other =>
      refine iff_of_false (by simp) ?_
      rintro ⟨-, -, describes | ⟨-, last⟩⟩
      · exact not_givesTag_of_untagged untagged _ describes
      · rw [current, openSection_eq_params_iff.2 last] at isOpen
        exact other (Section.tag.inj isOpen)
    | plainOfParams untagged current =>
      have last := openSection_eq_params_iff.1 (isOpen.symm.trans current)
      refine iff_of_true rfl ⟨nonempty, ?_, .inr ⟨untagged, last⟩⟩
      obtain ⟨content, last⟩ := last
      obtain ⟨given, member, starts⟩ := List.exists_of_findSome?_eq_some last
      exact ⟨given, List.mem_reverse.1 member, content, starts⟩
    | plainOfParam untagged current known =>
      refine iff_of_false (by simp) fun refuses => ?_
      exact not_text_of_known known (tracks.text_iff.2 refuses.paramsGiven)
    | plainOfParamText untagged current isText =>
      obtain ⟨descriptions, isTable⟩ := tracks.table _ (isOpen.symm.trans current)
      obtain ⟨content, isText⟩ := params_eq_error_iff.1 isText
      rw [isTable] at isText
      cases isText

theorem refused_concat_iff {lines : List (List Char)} {line : List Char} :
    Refused (lines ++ [line]) ↔ Refused lines ∨ Refuses lines line := by
  constructor
  · rintro ⟨earlier, found, later, parts, refuses⟩
    rcases concat_eq_append_cons_iff.1 parts with ⟨rfl, rfl, rfl⟩ | ⟨front, rfl, rfl⟩
    · exact .inr refuses
    · exact .inl ⟨earlier, found, front, rfl, refuses⟩
  · rintro (⟨earlier, found, front, rfl, refuses⟩ | refuses)
    · exact ⟨earlier, found, front ++ [line],
        concat_eq_append_cons_iff.2 (.inr ⟨front, rfl, rfl⟩), refuses⟩
    · exact ⟨lines, line, [], rfl, refuses⟩

/-- Reading stops at the first line that is refused. -/
theorem afterLines_eq_error_iff {lines : List (List Char)} :
    afterLines lines = .error .paramsIsText ↔ Refused lines := by
  induction lines using List.reverseRecOn with
  | nil =>
    refine iff_of_false (by simp [afterLines, pure, Except.pure]) ?_
    rintro ⟨earlier, line, later, parts, -⟩
    exact List.append_ne_nil_of_right_ne_nil earlier (List.cons_ne_nil line later) parts.symm
  | append_singleton lines line ih =>
    rw [afterLines_concat, refused_concat_iff, ← ih]
    cases read : afterLines lines with
    | error error => exact iff_of_true rfl (.inl rfl)
    | ok state =>
      rw [← readLine_eq_error_iff read]
      exact (or_iff_right (by simp)).symm

/-- **A comment is refused exactly where a text is used as a table.**  It cannot be divided
exactly if, behind a line that starts with the tag `params`, a line describes a parameter, or a
line without a tag follows for which `params` is the last tag before it.  Every other comment is
divided into tags that hold texts, except that `params` may hold a table. -/
theorem refused_iff_text_used_as_table (comment : String) :
    (ofText comment = .error .paramsIsText ↔ Refused (lines comment.toList)) ∧
      (Refused (lines comment.toList) ∨
        ∃ tags, ofText comment = .ok tags ∧ ∀ name value, (name, value) ∈ tags →
          (∃ content, value = .text content) ∨
            name = paramsTag ∧ ∃ descriptions, value = .table descriptions) := by
  rw [← afterLines_eq_error_iff, ofText_eq]
  cases read : afterLines (lines comment.toList) with
  | error error => exact ⟨iff_of_true rfl rfl, .inl rfl⟩
  | ok state =>
    have divided : ofText comment = .ok state.tags := by
      rw [ofText_eq, read]
      rfl
    have regular := Regular.ofText divided
    refine ⟨iff_of_false (by simp [Except.map]) (by simp), .inr ⟨state.tags, rfl, ?_⟩⟩
    intro name value member
    cases value with
    | text content => exact .inl ⟨content, rfl⟩
    | table descriptions =>
      have found := Entries.get?_of_mem regular.distinct member
      exact .inr ⟨regular.params_of_table name descriptions found, descriptions, rfl⟩

end NatSpec
end ContractDoc
