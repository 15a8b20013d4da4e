import ContractDoc.Proofs.DocComment.Reading
import ContractDoc.Proofs.Text.Line

/-!
# Comments that have been written from tags

A comment consists of a notice without a tag and of passages, each of which has a heading: a tag
or the name of a parameter.  Written line by line it is divided into the same texts again.  The
tags come in the order of the headings, and the table of the parameters at the place of the
first one.
-/

namespace ContractDoc
namespace NatSpec

open Text

/-! ## Written comments -/

/-- Lines of prose.  Those behind the first one do not start with a tag. -/
structure Prose where
  first : List Char
  others : List (List Char)
  areLines : ∀ line ∈ first :: others, IsLine line
  untagged : ∀ line ∈ others, tagLine? line = none

namespace Prose

/-- The lines in which prose is written. -/
def rows (prose : Prose) : List (List Char) :=
  prose.first :: prose.others

/-- The lines of prose, joined by line feeds. -/
def text (prose : Prose) : String :=
  String.ofList (joinWith ['\n'] prose.rows)

end Prose

/-- The headings of passages.  A tag is not one of those that stand for parameters, and the
name of a parameter holds no white space. -/
def IsHeading : Section → Prop
  | .tag name => name ≠ "" ∧ (∀ c ∈ name.toList, isTagChar c = true) ∧
      name ≠ "param" ∧ name ≠ paramsTag
  | .param name => name ≠ "" ∧ ∀ c ∈ name.toList, isSpace c = false

instance : DecidablePred IsHeading
  | .tag name =>
      decidable_of_iff
        (name ≠ "" ∧ name.toList.all isTagChar ∧ name ≠ "param" ∧ name ≠ paramsTag)
        (by simp [IsHeading])
  | .param name =>
      decidable_of_iff (name ≠ "" ∧ name.toList.all (!isSpace ·)) (by simp [IsHeading])

theorem IsHeading.ne_params {heading : Section} (isHeading : IsHeading heading) :
    heading ≠ .tag paramsTag := by
  rintro rfl
  exact isHeading.2.2.2 rfl

/-- The line that starts with a heading. -/
def headingLine (line : List Char) : Section → List Char
  | .tag name => '@' :: (name.toList ++ ' ' :: line)
  | .param name => '@' :: ("param".toList ++ ' ' :: (name.toList ++ ' ' :: line))

/-- Prose under a heading. -/
structure Passage where
  heading : Section
  prose : Prose
  isHeading : IsHeading heading

/-- The lines in which a passage is written. -/
def Passage.rows (passage : Passage) : List (List Char) :=
  headingLine passage.prose.first passage.heading :: passage.prose.others

/-- A notice, if there is one, and passages with distinct headings. -/
structure Comment where
  notice : Option Prose
  passages : List Passage
  noticeUntagged : ∀ prose ∈ notice, tagLine? prose.first = none
  distinct : (notice.toList.map (fun _ => Section.tag "notice") ++
    passages.map Passage.heading).Nodup

namespace Comment

/-- The lines in which a comment is written. -/
def rows (comment : Comment) : List (List Char) :=
  comment.notice.toList.flatMap Prose.rows ++ comment.passages.flatMap Passage.rows

/-- The text of a comment. -/
def text (comment : Comment) : String :=
  String.ofList (joinWith ['\n'] comment.rows)

/-- The notice as the text of a section. -/
def noticeContents (comment : Comment) : List (Section × String) :=
  comment.notice.toList.map fun prose => (.tag "notice", prose.text)

/-- The sections of a comment with their texts. -/
def contents (comment : Comment) : List (Section × String) :=
  comment.noticeContents ++
    comment.passages.map fun passage => (passage.heading, passage.prose.text)

end Comment

/-- The descriptions of parameters in a list of sections. -/
def descriptionsOf (contents : List (Section × String)) : Entries String String :=
  contents.filterMap fun
    | (.tag _, _) => none
    | (.param name, text) => some (name, text)

/-- The texts of tags in a list of sections. -/
def textsOf (contents : List (Section × String)) : NatSpec :=
  contents.filterMap fun
    | (.tag name, text) => some (name, .text text)
    | (.param _, _) => none

/-- The tags of a list of sections.  All parameters stand where the first one does. -/
def divided : List (Section × String) → NatSpec
  | [] => []
  | (.tag name, text) :: rest => (name, .text text) :: divided rest
  | (.param name, text) :: rest =>
      (paramsTag, .table ((name, text) :: descriptionsOf rest)) :: textsOf rest

/-! ## Prose under a heading -/

theorem Prose.isLine_first (prose : Prose) : IsLine prose.first :=
  prose.areLines prose.first List.mem_cons_self

/-- A line of prose is put behind a line feed. -/
theorem continued_of_isLine
    {content line : List Char}
    (nonempty : content ≠ [])
    (starts : ∀ c ∈ content.head?, isSpace c = false)
    (isLine : IsLine line) :
    continued (String.ofList content) line = String.ofList (content ++ '\n' :: line) := by
  rw [continued, String.toList_ofList, strip_of_visible]
  · rwa [List.head?_append_of_ne_nil _ nonempty]
  · rw [List.getLast?_append_of_ne_nil _ (List.cons_ne_nil _ _),
      List.getLast?_cons_of_ne_nil isLine.nonempty]
    exact isLine.ends

theorem foldl_continued
    {content : List Char} {others : List (List Char)}
    (nonempty : content ≠ [])
    (starts : ∀ c ∈ content.head?, isSpace c = false)
    (areLines : ∀ line ∈ others, IsLine line) :
    others.foldl continued (String.ofList content) =
      String.ofList (joinWith ['\n'] (content :: others)) := by
  induction others generalizing content with
  | nil => rw [List.foldl_nil, joinWith_singleton]
  | cons line others ih =>
    obtain ⟨isLine, areOthers⟩ := List.forall_mem_cons.1 areLines
    have joined : joinWith ['\n'] ((content ++ '\n' :: line) :: others) =
        joinWith ['\n'] (content :: line :: others) := by
      cases others <;> simp
    rw [List.foldl_cons, continued_of_isLine nonempty starts isLine, ih, joined]
    · exact List.append_ne_nil_of_left_ne_nil nonempty _
    · rwa [List.head?_append_of_ne_nil _ nonempty]
    · exact areOthers

theorem Prose.foldl_continued (prose : Prose) :
    prose.others.foldl continued (String.ofList prose.first) = prose.text := by
  obtain ⟨isFirst, areOthers⟩ := List.forall_mem_cons.1 prose.areLines
  exact NatSpec.foldl_continued isFirst.nonempty isFirst.starts areOthers

/-- What has been read when a section holds a text, apart from the tags and the descriptions
that were there before. -/
def holding
    (tags : NatSpec)
    (descriptions : Entries String String)
    (current : Section)
    (text : String) : State where
  tags := match current with
    | .tag name => Entries.insert name (.text text) tags
    | .param name => withParam tags descriptions name text
  current := some current

/-- A line without a tag continues the text of the section. -/
theorem step_holding
    {current : Section} {line : List Char}
    (notParams : current ≠ .tag paramsTag)
    (untagged : tagLine? line = none)
    (tags : NatSpec)
    (descriptions : Entries String String)
    (text : String) :
    step (holding tags descriptions current text) line =
      .ok (holding tags descriptions current (continued text line)) := by
  cases current with
  | tag name =>
    have other : name ≠ paramsTag := fun same => notParams (congrArg Section.tag same)
    simp only [step, untagged, holding, Option.getD_some, continueTag_eq other,
      Entries.get?_insert_self, Entries.insert_insert]
    rfl
  | param name =>
    have known : params (withParam tags descriptions name text) =
        .ok (Entries.insert name text descriptions) :=
      params_eq_ok_iff.2 (.inl (get?_withParam ..))
    simp only [step, untagged, holding, Option.getD_some, continueParam, setParam, known]
    change Except.ok _ = _
    simp only [Entries.get?_insert_self, withParam, Entries.insert_insert, Option.getD_some]

theorem foldlM_holding
    {current : Section} {others : List (List Char)}
    (notParams : current ≠ .tag paramsTag)
    (untagged : ∀ line ∈ others, tagLine? line = none)
    (tags : NatSpec)
    (descriptions : Entries String String)
    (text : String) :
    others.foldlM step (holding tags descriptions current text) =
      .ok (holding tags descriptions current (others.foldl continued text)) := by
  induction others generalizing text with
  | nil => rfl
  | cons line others ih =>
    obtain ⟨untaggedLine, untaggedOthers⟩ := List.forall_mem_cons.1 untagged
    rw [List.foldlM_cons, step_holding notParams untaggedLine, List.foldl_cons,
      ← ih untaggedOthers]
    rfl

/-- The tag of a line, and the text behind it. -/
theorem tagLine?_append
    {name line : List Char}
    (nonempty : name ≠ [])
    (tagChars : ∀ c ∈ name, isTagChar c = true)
    (starts : ∀ c ∈ line.head?, isSpace c = false) :
    tagLine? ('@' :: (name ++ ' ' :: line)) = some (name, line) := by
  have taken : (name ++ ' ' :: line).takeWhile isTagChar = name := by
    rw [List.takeWhile_append_of_pos tagChars, List.takeWhile_cons_of_neg (by decide),
      List.append_nil]
  have dropped : (name ++ ' ' :: line).dropWhile isTagChar = ' ' :: line := by
    rw [List.dropWhile_append_of_pos tagChars, List.dropWhile_cons_of_neg (by decide)]
  have skipped : skipSpace (' ' :: line) = line := skipSpace_of_visible starts
  simp [tagLine?, taken, dropped, skipped, nonempty]

/-- A heading opens its section. -/
theorem step_headingLine
    {state : State} {heading : Section} {line : List Char}
    {descriptions : Entries String String}
    (isHeading : IsHeading heading)
    (isLine : IsLine line)
    (known : params state.tags = .ok descriptions)
    (new : ∀ name, heading = .tag name → Entries.get? name state.tags = none) :
    step state (headingLine line heading) =
      .ok (holding state.tags descriptions heading (String.ofList line)) := by
  cases heading with
  | tag name =>
    obtain ⟨nonempty, tagChars, notParam, -⟩ := isHeading
    have starts : tagLine? (headingLine line (.tag name)) = some (name.toList, line) :=
      tagLine?_append (by simpa using nonempty) tagChars isLine.starts
    have other : name.toList ≠ "param".toList := fun same =>
      notParam (String.toList_inj.1 same)
    simp only [step, starts, if_neg other, addTag_eq, String.ofList_toList, new name rfl]
    rfl
  | param name =>
    obtain ⟨nonempty, visible⟩ := isHeading
    have starts : tagLine? (headingLine line (.param name)) =
        some ("param".toList, name.toList ++ ' ' :: line) := by
      refine tagLine?_append (by decide) (List.all_eq_true.1 (by decide)) ?_
      rw [List.head?_append_of_ne_nil _ (by simpa using nonempty)]
      exact fun c head => visible c (List.mem_of_head? head)
    have cut : cutAt ' ' (name.toList ++ ' ' :: line) = (name.toList, line) := by
      refine cutAt_append (fun space => ?_) line
      exact absurd (visible ' ' space) (by decide)
    simp only [step, starts, cut, setParam, known]
    change Except.ok _ = _
    rw [String.ofList_toList, strip_of_visible isLine.starts isLine.ends]
    rfl

/-- A passage is read into the section of its heading. -/
theorem Passage.foldlM_rows
    (passage : Passage)
    {state : State} {descriptions : Entries String String}
    (known : params state.tags = .ok descriptions)
    (new : ∀ name, passage.heading = .tag name → Entries.get? name state.tags = none) :
    passage.rows.foldlM step state =
      .ok (holding state.tags descriptions passage.heading passage.prose.text) := by
  have notParams : passage.heading ≠ .tag paramsTag := passage.isHeading.ne_params
  rw [rows, List.foldlM_cons,
    step_headingLine passage.isHeading passage.prose.isLine_first known new,
    ← passage.prose.foldl_continued]
  exact foldlM_holding notParams passage.prose.untagged ..

/-! ## All sections -/

section Divided

variable {contents : List (Section × String)}

@[simp] theorem descriptionsOf_concat_tag (name text : String) :
    descriptionsOf (contents ++ [(.tag name, text)]) = descriptionsOf contents := by
  simp [descriptionsOf]

@[simp] theorem descriptionsOf_concat_param (name text : String) :
    descriptionsOf (contents ++ [(.param name, text)]) =
      descriptionsOf contents ++ [(name, text)] := by
  simp [descriptionsOf]

@[simp] theorem textsOf_concat_tag (name text : String) :
    textsOf (contents ++ [(.tag name, text)]) = textsOf contents ++ [(name, .text text)] := by
  simp [textsOf]

@[simp] theorem textsOf_concat_param (name text : String) :
    textsOf (contents ++ [(.param name, text)]) = textsOf contents := by
  simp [textsOf]

theorem get?_filterMap_eq_none
    {ν : Type} {toEntry : Section × String → Option (String × ν)} {name : String}
    (new : ∀ content ∈ contents, ∀ value, toEntry content ≠ some (name, value)) :
    Entries.get? name (contents.filterMap toEntry) = none := by
  rw [← Option.not_isSome_iff_eq_none, ← Entries.mem_keys_iff]
  intro known
  obtain ⟨entry, member, rfl⟩ := List.mem_map.1 known
  obtain ⟨content, contentMember, found⟩ := List.mem_filterMap.1 member
  exact new content contentMember entry.2 found

theorem withParam_cons_table
    (value : TagValue)
    (rest : NatSpec)
    (descriptions : Entries String String)
    (name text : String) :
    withParam ((paramsTag, value) :: rest) descriptions name text =
      (paramsTag, .table (Entries.insert name text descriptions)) :: rest := by
  simp [withParam, Entries.insert]

/-- A parameter that has no section has no description. -/
theorem get?_descriptionsOf_eq_none
    {name : String}
    (new : .param name ∉ contents.map Prod.fst) :
    Entries.get? name (descriptionsOf contents) = none := by
  refine get?_filterMap_eq_none ?_
  rintro ⟨⟨⟩, text⟩ member value found <;> cases found
  exact new (List.mem_map.2 ⟨(.param name, text), member, rfl⟩)

theorem get?_textsOf_eq_none
    {name : String}
    (new : .tag name ∉ contents.map Prod.fst) :
    Entries.get? name (textsOf contents) = none := by
  refine get?_filterMap_eq_none ?_
  rintro ⟨⟨⟩, text⟩ member value found <;> cases found
  exact new (List.mem_map.2 ⟨(.tag name, text), member, rfl⟩)

/-- A tag that has no section holds nothing. -/
theorem get?_divided_eq_none
    {name : String}
    (other : name ≠ paramsTag)
    (new : .tag name ∉ contents.map Prod.fst) :
    Entries.get? name (divided contents) = none := by
  fun_induction divided contents with
  | case1 => rfl
  | case2 known text rest ih =>
    rw [List.map_cons, List.mem_cons, not_or] at new
    have different : known ≠ name := fun same => new.1 (congrArg Section.tag same.symm)
    rw [Entries.get?, if_neg different]
    exact ih new.2
  | case3 known text rest =>
    rw [List.map_cons, List.mem_cons, not_or] at new
    rw [Entries.get?, if_neg other.symm]
    exact get?_textsOf_eq_none new.2

/-- The table holds the descriptions of all parameters. -/
theorem params_divided (notParams : .tag paramsTag ∉ contents.map Prod.fst) :
    params (divided contents) = .ok (descriptionsOf contents) := by
  rw [params_eq_ok_iff]
  fun_induction divided contents with
  | case1 => exact .inr ⟨rfl, rfl⟩
  | case2 name text rest ih =>
    rw [List.map_cons, List.mem_cons, not_or] at notParams
    have other : name ≠ paramsTag := fun same => notParams.1 (congrArg Section.tag same.symm)
    simp only [Entries.get?, if_neg other]
    exact ih notParams.2
  | case3 name text rest => exact .inl rfl

theorem divided_concat_tag (name text : String) :
    divided (contents ++ [(.tag name, text)]) = divided contents ++ [(name, .text text)] := by
  fun_induction divided contents with
  | case1 => rfl
  | case2 other otherText rest ih => simp [divided, ih]
  | case3 other otherText rest => simp [divided]

theorem divided_concat_param
    {name : String}
    (notParams : .tag paramsTag ∉ contents.map Prod.fst)
    (new : .param name ∉ contents.map Prod.fst)
    (text : String) :
    divided (contents ++ [(.param name, text)]) =
      withParam (divided contents) (descriptionsOf contents) name text := by
  fun_induction divided contents with
  | case1 => rfl
  | case2 other otherText rest ih =>
    rw [List.map_cons, List.mem_cons, not_or] at notParams new
    have different : other ≠ paramsTag := fun same =>
      notParams.1 (congrArg Section.tag same.symm)
    rw [List.cons_append, divided, ih notParams.2 new.2]
    simp only [withParam, Entries.insert, if_neg different]
    rfl
  | case3 other otherText rest =>
    have inserted : Entries.insert name text ((other, otherText) :: descriptionsOf rest) =
        (other, otherText) :: (descriptionsOf rest ++ [(name, text)]) :=
      Entries.insert_of_get?_eq_none text (get?_descriptionsOf_eq_none new)
    rw [List.cons_append, divided, descriptionsOf_concat_param, textsOf_concat_param, ← inserted]
    exact (withParam_cons_table ..).symm

/-- One more section is one more text in its place. -/
theorem tags_holding
    {heading : Section}
    (isHeading : IsHeading heading)
    (notParams : .tag paramsTag ∉ contents.map Prod.fst)
    (new : heading ∉ contents.map Prod.fst)
    (text : String) :
    (holding (divided contents) (descriptionsOf contents) heading text).tags =
      divided (contents ++ [(heading, text)]) := by
  cases heading with
  | tag name =>
    rw [divided_concat_tag]
    exact Entries.insert_of_get?_eq_none _ (get?_divided_eq_none isHeading.2.2.2 new)
  | param name => exact (divided_concat_param notParams new text).symm

end Divided

/-! ## All lines -/

theorem headingLine_ne_nil (line : List Char) (heading : Section) :
    headingLine line heading ≠ [] := by
  cases heading <;> exact List.cons_ne_nil _ _

theorem lineFeed_notMem_headingLine
    {heading : Section} {line : List Char}
    (isHeading : IsHeading heading)
    (unbroken : '\n' ∉ line) :
    '\n' ∉ headingLine line heading := by
  cases heading with
  | tag name =>
    have inName : '\n' ∉ name.toList := fun member =>
      absurd (isHeading.2.1 '\n' member) (by decide)
    simp [headingLine, inName, unbroken]
  | param name =>
    have inName : '\n' ∉ name.toList := fun member =>
      absurd (isHeading.2 '\n' member) (by decide)
    simp [headingLine, inName, unbroken]

theorem Prose.isRow
    (prose : Prose)
    {row : List Char}
    (member : row ∈ prose.rows) :
    row ≠ [] ∧ '\n' ∉ row :=
  ⟨(prose.areLines row member).nonempty, (prose.areLines row member).unbroken⟩

theorem Passage.isRow
    (passage : Passage)
    {row : List Char}
    (member : row ∈ passage.rows) :
    row ≠ [] ∧ '\n' ∉ row := by
  rcases List.mem_cons.1 member with rfl | other
  · refine ⟨headingLine_ne_nil _ _, lineFeed_notMem_headingLine passage.isHeading ?_⟩
    exact passage.prose.isLine_first.unbroken
  · exact passage.prose.isRow (List.mem_cons_of_mem _ other)

namespace Comment

/-- The lines of a comment are those in which it is written. -/
theorem filter_lines_text (comment : Comment) :
    (lines comment.text.toList).filter (!·.isEmpty) = comment.rows := by
  rw [text, String.toList_ofList]
  apply filter_lines_joinWith
  intro row member
  rcases List.mem_append.1 member with inNotice | inPassage
  · obtain ⟨prose, -, member⟩ := List.mem_flatMap.1 inNotice
    exact prose.isRow member
  · obtain ⟨passage, -, member⟩ := List.mem_flatMap.1 inPassage
    exact passage.isRow member

theorem map_noticeContents (comment : Comment) :
    comment.noticeContents.map Prod.fst =
      comment.notice.toList.map fun _ => Section.tag "notice" := by
  simp [noticeContents, Function.comp_def]

/-- The notice is read into a section of its own. -/
theorem exists_foldlM_notice (comment : Comment) :
    ∃ state, (comment.notice.toList.flatMap Prose.rows).foldlM step ⟨[], none⟩ = .ok state ∧
      state.tags = divided comment.noticeContents := by
  unfold noticeContents
  cases notice : comment.notice with
  | none => exact ⟨_, rfl, rfl⟩
  | some prose =>
    have untagged := comment.noticeUntagged prose notice
    have first : step ⟨[], none⟩ prose.first =
        .ok (holding [] [] (.tag "notice") (String.ofList prose.first)) := by
      simp only [step, untagged, Option.getD_none, continueTag]
      rfl
    refine ⟨holding [] [] (.tag "notice") prose.text, ?_, rfl⟩
    rw [Option.toList_some, List.flatMap_singleton, Prose.rows, List.foldlM_cons, first,
      ← prose.foldl_continued]
    exact foldlM_holding (by decide) prose.untagged ..

end Comment

/-- Passages are read one after the other, each into the section of its heading.  Each passage
moves from those to come to the sections that have been read. -/
theorem exists_foldlM_passages
    {contents : List (Section × String)} {state : State} {passages : List Passage}
    (start : state.tags = divided contents)
    (notParams : .tag paramsTag ∉ contents.map Prod.fst)
    (distinct : (contents.map Prod.fst ++ passages.map Passage.heading).Nodup) :
    ∃ last, (passages.flatMap Passage.rows).foldlM step state = .ok last ∧
      last.tags = divided (contents ++
        passages.map fun passage => (passage.heading, passage.prose.text)) := by
  induction passages generalizing contents state with
  | nil => exact ⟨state, rfl, by simpa using start⟩
  | cons passage passages ih =>
    have new : passage.heading ∉ contents.map Prod.fst := fun known =>
      (List.nodup_append.1 distinct).2.2 _ known _ List.mem_cons_self rfl
    have known : params state.tags = .ok (descriptionsOf contents) :=
      start ▸ params_divided notParams
    have newTag : ∀ name, passage.heading = .tag name → Entries.get? name state.tags = none := by
      intro name isTag
      rw [start]
      refine get?_divided_eq_none ?_ (isTag ▸ new)
      rintro rfl
      exact passage.isHeading.ne_params isTag
    have notParamsNext : .tag paramsTag ∉
        (contents ++ [(passage.heading, passage.prose.text)]).map Prod.fst := by
      rw [List.map_append, List.mem_append, not_or]
      exact ⟨notParams, fun same =>
        passage.isHeading.ne_params (List.mem_singleton.1 same).symm⟩
    obtain ⟨last, read, tags⟩ := ih
      (start ▸ tags_holding passage.isHeading notParams new passage.prose.text)
      notParamsNext (by simpa using distinct)
    refine ⟨last, ?_, by simpa using tags⟩
    rw [List.flatMap_cons, List.foldlM_append, passage.foldlM_rows known newTag]
    exact read

/-- **Comments are divided as they were written.**  Whatever notice and passages a comment is
written from, it is divided into exactly their texts: the notice, each tag under its name, and
the descriptions of all parameters in one table, in the order of first appearance. -/
theorem ofText_written_comment (comment : Comment) :
    ofText comment.text = .ok (divided comment.contents) := by
  obtain ⟨state, noticeRead, start⟩ := comment.exists_foldlM_notice
  have distinct := comment.distinct
  rw [← comment.map_noticeContents] at distinct
  have notParams : .tag paramsTag ∉ comment.noticeContents.map Prod.fst := by
    rw [comment.map_noticeContents]
    intro member
    obtain ⟨prose, -, same⟩ := List.mem_map.1 member
    exact absurd same (by decide)
  obtain ⟨last, passagesRead, tags⟩ := exists_foldlM_passages start notParams distinct
  have read : comment.rows.foldlM step ⟨[], none⟩ = .ok last := by
    rw [Comment.rows, List.foldlM_append, noticeRead]
    exact passagesRead
  rw [ofText, comment.filter_lines_text, read, Comment.contents, ← tags]
  rfl

/-- The comment of a transfer: a tag stands between two parameters, and some lines hold the
sign of a tag that they do not have. -/
def Comment.transfer : Comment where
  notice := some ⟨"Moves tokens".toList, ["@ once".toList], by decide, by decide⟩
  passages := [
    ⟨.param "to", ⟨"receiver".toList, ["of all".toList], by decide, by decide⟩,
      by decide⟩,
    ⟨.tag "a:b-c", ⟨"@param here".toList, ["as text".toList], by decide, by decide⟩,
      by decide⟩,
    ⟨.param "(wei)", ⟨"amount".toList, [], by decide, by decide⟩,
      by decide⟩]
  noticeUntagged := by decide
  distinct := by decide

/-- The comment of a transfer is divided into its notice, its two parameters and its tag. -/
theorem transfer_comment_read_back :
    ofText ("Moves tokens\n@ once\n@param to receiver\nof all\n@a:b-c @param here\nas text\n" ++
      "@param (wei) amount") =
      .ok [("notice", .text "Moves tokens\n@ once"),
        ("params", .table [("to", "receiver\nof all"), ("(wei)", "amount")]),
        ("a:b-c", .text "@param here\nas text")] := by
  have read := ofText_written_comment .transfer
  have text : Comment.transfer.text =
      "Moves tokens\n@ once\n@param to receiver\nof all\n@a:b-c @param here\nas text\n" ++
        "@param (wei) amount" := by
    decide +kernel
  have contents : divided Comment.transfer.contents =
      [("notice", .text "Moves tokens\n@ once"),
        ("params", .table [("to", "receiver\nof all"), ("(wei)", "amount")]),
        ("a:b-c", .text "@param here\nas text")] := by
    decide
  rw [text, contents] at read
  exact read

end NatSpec
end ContractDoc
