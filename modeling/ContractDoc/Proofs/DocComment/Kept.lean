import ContractDoc.Proofs.DocComment.Refused
import ContractDoc.Proofs.Text.Line

/-!
# What is kept of a comment

The text behind a tag stays a part of what the tag holds, however often the tag is given and
continued.  The description of a parameter is kept, with the lines that continue it, until a
line describes the same parameter again: the parameter then has the later description alone.
-/

namespace ContractDoc
namespace NatSpec

open Text

instance (line : List Char) (tag : String) : Decidable (GivesTag line tag) :=
  decidable_of_iff ((tagLine? line).map Prod.fst = some tag.toList) (by simp [GivesTag])

/-! ## Texts of tags -/

/-- A tag holds a text, and the text has a given part. -/
def HoldsPart (tags : NatSpec) (name : String) (part : List Char) : Prop :=
  ∃ whole, Entries.get? name tags = some (.text whole) ∧ part <:+: whole.toList

/-- A part that is not white space at its ends is kept in a text that gets one more line. -/
theorem infix_continued
    {part : List Char} {content : String}
    (starts : ∀ c ∈ part.head?, isSpace c = false)
    (ends : ∀ c ∈ part.getLast?, isSpace c = false)
    (inside : part <:+: content.toList)
    (line : List Char) :
    part <:+: (continued content line).toList := by
  rw [continued, String.toList_ofList]
  exact infix_strip starts ends (inside.trans (List.prefix_append ..).isInfix)

namespace HoldsPart

variable {state next : State} {line part : List Char} {name : String}

theorem of_get?_eq
    {tags changed : NatSpec}
    (holds : HoldsPart tags name part)
    (same : Entries.get? name changed = Entries.get? name tags) :
    HoldsPart changed name part := by
  obtain ⟨whole, found, inside⟩ := holds
  exact ⟨whole, same.trans found, inside⟩

/-- Descriptions of parameters leave all texts as they are. -/
theorem withParam
    {descriptions : Entries String String}
    (holds : HoldsPart state.tags name part)
    (known : params state.tags = .ok descriptions)
    (param description : String) :
    HoldsPart (NatSpec.withParam state.tags descriptions param description) name part := by
  refine holds.of_get?_eq (Entries.get?_insert_of_ne ?_ ..)
  rintro rfl
  obtain ⟨whole, found, -⟩ := holds
  exact not_text_of_known known ⟨whole, found⟩

/-- What a tag holds is kept by every line. -/
theorem reads
    (holds : HoldsPart state.tags name part)
    (starts : ∀ c ∈ part.head?, isSpace c = false)
    (ends : ∀ c ∈ part.getLast?, isSpace c = false)
    (lineReads : Reads state line (.ok next)) :
    HoldsPart next.tags name part := by
  cases lineReads with
  | @tag tag content tagged other =>
    rw [addTag_eq]
    by_cases same : name = String.ofList tag
    · obtain ⟨whole, found, inside⟩ := holds
      subst same
      refine ⟨_, Entries.get?_insert_self .., ?_⟩
      simp only [found, joined, Option.map_some, Option.getD_some, TagValue.asText,
        String.toList_append, List.append_assoc]
      exact inside.trans (List.prefix_append ..).isInfix
    · exact holds.of_get?_eq (Entries.get?_insert_of_ne same ..)
  | param tagged known => exact holds.withParam known ..
  | @plain continuedName untagged current other =>
    by_cases same : name = continuedName
    · obtain ⟨whole, found, inside⟩ := holds
      subst same
      refine ⟨_, Entries.get?_insert_self .., ?_⟩
      rw [found]
      exact infix_continued starts ends inside line
    · exact holds.of_get?_eq (Entries.get?_insert_of_ne same ..)
  | plainOfParam untagged current known => exact holds.withParam known ..

/-- A line that starts with a tag adds its text to what the tag holds. -/
theorem of_tag
    {tag content : List Char}
    (tagged : tagLine? line = some (tag, content))
    (notParam : tag ≠ "param".toList)
    (lineReads : Reads state line (.ok next)) :
    HoldsPart next.tags (String.ofList tag) (strip content) := by
  cases lineReads with
  | tag starts other =>
    rw [tagged] at starts
    obtain ⟨rfl, rfl⟩ := Prod.mk.inj (Option.some.inj starts)
    rw [addTag_eq]
    refine ⟨_, Entries.get?_insert_self .., (strip_infix_self content).trans ?_⟩
    cases Entries.get? (String.ofList tag) state.tags with
    | none => simp [joined]
    | some value =>
      simp only [joined, Option.map_some, Option.getD_some, String.toList_append,
        String.toList_ofList]
      exact (List.suffix_append ..).isInfix
  | param starts known =>
    rw [tagged] at starts
    exact absurd (Prod.mk.inj (Option.some.inj starts)).1 notParam
  | plain untagged => simp [tagged] at untagged
  | plainOfParam untagged => simp [tagged] at untagged

end HoldsPart

/-- After all lines, every tag holds the texts of the lines that start with it. -/
theorem holdsPart_of_afterLines
    {lines : List (List Char)} {state : State}
    (read : afterLines lines = .ok state)
    {line tag content : List Char}
    (member : line ∈ lines)
    (tagged : tagLine? line = some (tag, content))
    (notParam : tag ≠ "param".toList) :
    HoldsPart state.tags (String.ofList tag) (strip content) := by
  revert member
  refine afterLines_induction
    (motive := fun lines state => line ∈ lines →
      HoldsPart state.tags (String.ofList tag) (strip content)) (by simp) ?_ ?_ read
  · intro lines state holds member
    rcases List.mem_append.1 member with earlier | last
    · exact holds earlier
    · obtain rfl := List.mem_singleton.1 last
      cases tagged
  · intro lines last state next _ _ holds lineReads member
    rcases List.mem_append.1 member with earlier | isLast
    · exact (holds earlier).reads (starts_strip content) (ends_strip content) lineReads
    · obtain rfl := List.mem_singleton.1 isLast
      exact .of_tag tagged notParam lineReads

/-! ## Descriptions of parameters -/

/-- A line that describes a parameter. -/
def Describes (line : List Char) (name description : String) : Prop :=
  ∃ content, tagLine? line = some ("param".toList, content) ∧
    describedIn content = (name, description)

/-- A description with the lines that continue it, out of all lines behind it. -/
def paragraph (description : String) (behind : List (List Char)) : String :=
  ((behind.takeWhile fun line => (tagLine? line).isNone).filter (!·.isEmpty)).foldl
    continued description

/-- The last of some lines that describes a parameter, and the lines behind it. -/
structure LastDescribes
    (lines : List (List Char))
    (name description : String)
    (behind : List (List Char)) : Prop where
  describes : ∃ earlier line, lines = earlier ++ line :: behind ∧
    Describes line name description
  last : ∀ line ∈ behind, ∀ other, ¬ Describes line name other

/-- The table of parameters has a description of a parameter. -/
def HoldsDescription (tags : NatSpec) (name description : String) : Prop :=
  ∃ descriptions, Entries.get? paramsTag tags = some (.table descriptions) ∧
    Entries.get? name descriptions = some description

section Paragraph

variable {behind : List (List Char)} {line : List Char}

theorem takeWhile_untagged
    (untagged : ∀ other ∈ behind, tagLine? other = none) :
    (behind.takeWhile fun line => (tagLine? line).isNone) = behind := by
  rw [List.takeWhile_eq_self_iff]
  intro other member
  rw [untagged other member]
  rfl

theorem paragraph_concat_of_open
    (untagged : ∀ other ∈ behind ++ [line], tagLine? other = none)
    (nonempty : line ≠ [])
    (description : String) :
    paragraph description (behind ++ [line]) =
      continued (paragraph description behind) line := by
  have earlier := fun other member => untagged other (List.mem_append_left [line] member)
  rw [paragraph, paragraph, takeWhile_untagged untagged, takeWhile_untagged earlier]
  simp [nonempty]

/-- A paragraph ends at the first tag, and empty lines do not belong to it. -/
theorem paragraph_concat_of_closed
    (closed : line ≠ [] → ∃ other ∈ behind ++ [line], tagLine? other ≠ none)
    (description : String) :
    paragraph description (behind ++ [line]) = paragraph description behind := by
  by_cases untagged : ∀ other ∈ behind, tagLine? other = none
  · have dropped : ([line].takeWhile fun line => (tagLine? line).isNone).filter (!·.isEmpty) =
        [] := by
      cases line with
      | nil => rfl
      | cons c rest =>
        obtain ⟨other, member, tagged⟩ := closed (List.cons_ne_nil c rest)
        rcases List.mem_append.1 member with earlier | isLast
        · exact absurd (untagged other earlier) tagged
        · obtain rfl := List.mem_singleton.1 isLast
          simp [Option.isNone_iff_eq_none, tagged]
    rw [paragraph, paragraph, List.takeWhile_append, takeWhile_untagged untagged, if_pos rfl,
      List.filter_append, dropped, List.append_nil]
  · rw [paragraph, paragraph, List.takeWhile_append, if_neg]
    intro full
    have all := (List.takeWhile_prefix _).eq_of_length full
    rw [List.takeWhile_eq_self_iff] at all
    exact untagged fun other member => Option.isNone_iff_eq_none.1 (all other member)

/-- The description stays a part of its paragraph. -/
theorem infix_paragraph
    {description : String}
    (starts : ∀ c ∈ description.toList.head?, isSpace c = false)
    (ends : ∀ c ∈ description.toList.getLast?, isSpace c = false)
    (behind : List (List Char)) :
    description.toList <:+: (paragraph description behind).toList := by
  unfold paragraph
  generalize (behind.takeWhile _).filter _ = rows
  induction rows using List.reverseRecOn with
  | nil => exact List.infix_rfl
  | append_singleton rows row ih =>
    rw [List.foldl_append]
    exact infix_continued starts ends ih row

end Paragraph

namespace Describes

variable {line : List Char} {name description : String}

theorem tagged (describes : Describes line name description) : tagLine? line ≠ none := by
  obtain ⟨content, starts, -⟩ := describes
  simp [starts]

/-- A line that opens the section of a parameter describes it. -/
theorem of_sectionOf
    {found : List Char × List Char}
    (starts : tagLine? line = some found)
    (opens : sectionOf found = .param name) :
    ∃ description, Describes line name description := by
  obtain ⟨tag, content⟩ := found
  simp only [sectionOf] at opens
  split at opens
  · next isParam =>
    subst isParam
    obtain rfl := Section.param.inj opens
    exact ⟨_, content, starts, rfl⟩
  · cases opens

theorem infix_paragraph
    (describes : Describes line name description)
    (behind : List (List Char)) :
    description.toList <:+: (paragraph description behind).toList := by
  obtain ⟨content, -, parts⟩ := describes
  obtain ⟨-, rfl⟩ := Prod.mk.inj parts
  refine NatSpec.infix_paragraph ?_ ?_ behind
  · rw [String.toList_ofList]
    exact starts_strip _
  · rw [String.toList_ofList]
    exact ends_strip _

end Describes

namespace LastDescribes

variable {lines behind : List (List Char)} {line : List Char} {name description : String}

/-- Behind one more line, a description is that of the line, or one that the line does not
describe again. -/
theorem of_concat
    (last : LastDescribes (lines ++ [line]) name description behind) :
    behind = [] ∧ Describes line name description ∨
      ∃ earlier, behind = earlier ++ [line] ∧ LastDescribes lines name description earlier := by
  obtain ⟨⟨earlier, found, parts, describes⟩, later⟩ := last
  rcases concat_eq_append_cons_iff.1 parts with ⟨rfl, rfl, rfl⟩ | ⟨front, rfl, rfl⟩
  · exact .inl ⟨rfl, describes⟩
  · refine .inr ⟨front, rfl, ⟨earlier, found, rfl, describes⟩, ?_⟩
    exact fun other member => later other (List.mem_append_left _ member)

/-- A description is continued as long as no tag follows it. -/
theorem openSection_iff
    (last : LastDescribes lines name description behind) :
    openSection lines = .param name ↔ ∀ line ∈ behind, tagLine? line = none := by
  obtain ⟨⟨earlier, found, rfl, content, starts, named⟩, later⟩ := last
  have lastTag : lastTagLine? (earlier ++ found :: behind) =
      (lastTagLine? behind).or (some ("param".toList, content)) := by
    simp [lastTagLine?, starts]
  rw [openSection, lastTag]
  cases tag : lastTagLine? behind with
  | none =>
    have untagged := List.findSome?_eq_none_iff.1 tag
    refine iff_of_true ?_ fun line member => untagged line (List.mem_reverse.2 member)
    exact congrArg Section.param (Prod.mk.inj named).1
  | some found =>
    obtain ⟨line, member, tagged⟩ := List.exists_of_findSome?_eq_some tag
    rw [List.mem_reverse] at member
    refine iff_of_false ?_ fun untagged => ?_
    · intro opened
      obtain ⟨other, describes⟩ := Describes.of_sectionOf tagged opened
      exact later line member other describes
    · rw [untagged line member] at tagged
      cases tagged

/-- A parameter that is described has a last description. -/
theorem exists_of_mem
    (member : line ∈ lines)
    (describes : Describes line name description) :
    ∃ last behind, LastDescribes lines name last behind := by
  induction lines generalizing line description with
  | nil => cases member
  | cons first lines ih =>
    by_cases again : ∃ later ∈ lines, ∃ other, Describes later name other
    · obtain ⟨later, laterMember, other, redescribes⟩ := again
      obtain ⟨last, behind, ⟨earlier, found, rfl, lastDescribes⟩, none⟩ :=
        ih laterMember redescribes
      exact ⟨last, behind, ⟨first :: earlier, found, rfl, lastDescribes⟩, none⟩
    · rcases List.mem_cons.1 member with rfl | later
      · refine ⟨description, lines, ⟨[], line, rfl, describes⟩, ?_⟩
        exact fun other member _ redescribes => again ⟨other, member, _, redescribes⟩
      · exact absurd ⟨line, later, description, describes⟩ again

end LastDescribes

namespace HoldsDescription

variable {state next : State} {line : List Char} {name description : String}

theorem withParam
    (tags : NatSpec)
    (descriptions : Entries String String)
    (name description : String) :
    HoldsDescription (NatSpec.withParam tags descriptions name description) name description :=
  ⟨_, get?_withParam .., Entries.get?_insert_self ..⟩

/-- The table that is known has the description. -/
theorem get?_of_known
    {descriptions : Entries String String}
    (holds : HoldsDescription state.tags name description)
    (known : params state.tags = .ok descriptions) :
    Entries.get? name descriptions = some description := by
  obtain ⟨table, found, entry⟩ := holds
  have same : params state.tags = .ok table := params_eq_ok_iff.2 (.inl found)
  rwa [Except.ok.inj (known.symm.trans same)]

/-- Another description leaves that of a parameter as it is. -/
theorem withParam_of_ne
    {descriptions : Entries String String} {other : String}
    (holds : HoldsDescription state.tags name description)
    (known : params state.tags = .ok descriptions)
    (different : name ≠ other)
    (described : String) :
    HoldsDescription (NatSpec.withParam state.tags descriptions other described) name
      description :=
  ⟨_, get?_withParam .., (Entries.get?_insert_of_ne different ..).trans
    (holds.get?_of_known known)⟩

theorem of_get?_eq
    {tags changed : NatSpec}
    (holds : HoldsDescription tags name description)
    (same : Entries.get? paramsTag changed = Entries.get? paramsTag tags) :
    HoldsDescription changed name description := by
  obtain ⟨descriptions, found, entry⟩ := holds
  exact ⟨descriptions, same.trans found, entry⟩

/-- A line that describes a parameter puts its description into the table. -/
theorem of_describes
    (describes : Describes line name description)
    (lineReads : Reads state line (.ok next)) :
    HoldsDescription next.tags name description := by
  obtain ⟨content, tagged, named⟩ := describes
  cases lineReads with
  | tag starts other =>
    rw [tagged] at starts
    exact absurd (Prod.mk.inj (Option.some.inj starts)).1.symm other
  | param starts known =>
    rw [tagged] at starts
    obtain rfl := (Prod.mk.inj (Option.some.inj starts)).2
    rw [named]
    exact withParam ..
  | plain untagged => simp [tagged] at untagged
  | plainOfParam untagged => simp [tagged] at untagged

/-- A line without a tag continues the description of the parameter whose section is open. -/
theorem continued
    (holds : HoldsDescription state.tags name description)
    (untagged : tagLine? line = none)
    (current : state.current.getD (.tag "notice") = .param name)
    (lineReads : Reads state line (.ok next)) :
    HoldsDescription next.tags name (NatSpec.continued description line) := by
  cases lineReads with
  | tag starts => simp [untagged] at starts
  | param starts => simp [untagged] at starts
  | plain _ continues => simp [current] at continues
  | plainOfParam _ continues known =>
    obtain rfl := Section.param.inj (continues.symm.trans current)
    rw [holds.get?_of_known known]
    exact withParam ..

/-- All other lines keep the description of a parameter, unless they make a text of the
table. -/
theorem reads
    (holds : HoldsDescription state.tags name description)
    (notParams : ¬ GivesTag line paramsTag)
    (undescribed : ∀ other, ¬ Describes line name other)
    (unopened : tagLine? line = none → state.current.getD (.tag "notice") ≠ .param name)
    (lineReads : Reads state line (.ok next)) :
    HoldsDescription next.tags name description := by
  cases lineReads with
  | @tag tag content starts other =>
    rw [addTag_eq]
    refine holds.of_get?_eq (Entries.get?_insert_of_ne ?_ ..)
    intro same
    refine notParams ⟨content, ?_⟩
    rw [starts, same, String.toList_ofList]
  | param starts known =>
    refine holds.withParam_of_ne known ?_ _
    rintro rfl
    exact undescribed _ ⟨_, starts, rfl⟩
  | plain untagged current other =>
    exact holds.of_get?_eq (Entries.get?_insert_of_ne (Ne.symm other) ..)
  | plainOfParam untagged current known =>
    refine holds.withParam_of_ne known ?_ _
    rintro rfl
    exact unopened untagged current

end HoldsDescription

/-- After all lines, the table holds the last description of every parameter with the lines that
continue it.  A line continues a description exactly if no tag has followed it so far. -/
theorem holdsDescription_of_afterLines
    {lines : List (List Char)} {state : State}
    (read : afterLines lines = .ok state)
    (noParams : ∀ line ∈ lines, ¬ GivesTag line paramsTag)
    {name description : String} {behind : List (List Char)}
    (last : LastDescribes lines name description behind) :
    HoldsDescription state.tags name (paragraph description behind) := by
  revert noParams behind
  refine afterLines_induction
    (motive := fun lines state => (∀ line ∈ lines, ¬ GivesTag line paramsTag) →
      ∀ {behind}, LastDescribes lines name description behind →
        HoldsDescription state.tags name (paragraph description behind)) ?_ ?_ ?_ read
  · rintro - behind ⟨⟨earlier, line, parts, -⟩, -⟩
    exact absurd parts.symm (List.append_ne_nil_of_right_ne_nil _ (List.cons_ne_nil _ _))
  · intro lines state holds noParams behind last
    obtain ⟨earlierGiven, -⟩ := List.forall_mem_append.1 noParams
    rcases last.of_concat with ⟨-, describes⟩ | ⟨earlier, rfl, lastEarlier⟩
    · exact absurd rfl describes.tagged
    · rw [paragraph_concat_of_closed (fun nonempty => absurd rfl nonempty)]
      exact holds earlierGiven lastEarlier
  · intro lines line state next nonempty readEarlier holds lineReads noParams behind last
    obtain ⟨earlierGiven, lineGiven⟩ := List.forall_mem_append.1 noParams
    rcases last.of_concat with ⟨rfl, describes⟩ | ⟨earlier, rfl, lastEarlier⟩
    · exact .of_describes describes lineReads
    · have before := holds earlierGiven lastEarlier
      have current := current_of_afterLines readEarlier
      by_cases untagged : ∀ other ∈ earlier ++ [line], tagLine? other = none
      · obtain ⟨untaggedEarlier, untaggedLine⟩ := List.forall_mem_append.1 untagged
        rw [paragraph_concat_of_open untagged nonempty]
        refine before.continued (untaggedLine line List.mem_cons_self) ?_ lineReads
        rw [current, lastEarlier.openSection_iff]
        exact untaggedEarlier
      · rw [paragraph_concat_of_closed fun _ => by simpa using untagged]
        refine before.reads (lineGiven line List.mem_cons_self)
          (last.last line (List.mem_append_right _ List.mem_cons_self)) ?_ lineReads
        intro untaggedLine
        rw [current, Ne, lastEarlier.openSection_iff]
        intro untaggedEarlier
        exact untagged (List.forall_mem_append.2 ⟨untaggedEarlier, by simpa using untaggedLine⟩)

/-- A comment that never makes a text of the table of parameters is divided. -/
theorem exists_afterLines
    {lines : List (List Char)}
    (noParams : ∀ line ∈ lines, ¬ GivesTag line paramsTag) :
    ∃ state, afterLines lines = .ok state := by
  cases read : afterLines lines with
  | ok state => exact ⟨state, rfl⟩
  | error error =>
    obtain ⟨earlier, line, later, rfl, refuses⟩ := afterLines_eq_error_iff.1 read
    obtain ⟨given, member, gives⟩ := refuses.paramsGiven
    exact absurd gives (noParams given (List.mem_append_left _ member))

/-- **Tags keep every text, parameters the last description.**  In a comment without the tag
`params`, the text behind each tag is a part of what the tag holds.  Each parameter that a line
describes has the description that was written last, with the lines that continue it; what a
line tells is kept if no line behind it describes the same parameter. -/
theorem kept_unless_described_again
    (comment : String)
    (noParams : ∀ line ∈ lines comment.toList, ¬ GivesTag line paramsTag) :
    ∃ tags, ofText comment = .ok tags ∧
      (∀ line ∈ lines comment.toList, ∀ tag content, tagLine? line = some (tag, content) →
        tag ≠ "param".toList → HoldsPart tags (String.ofList tag) (strip content)) ∧
      ∀ earlier line later, lines comment.toList = earlier ++ line :: later →
        ∀ name description, Describes line name description →
          (∃ last behind, LastDescribes (lines comment.toList) name last behind ∧
            HoldsDescription tags name (paragraph last behind)) ∧
          ((∀ other ∈ later, ∀ again, ¬ Describes other name again) →
            HoldsDescription tags name (paragraph description later) ∧
              description.toList <:+: (paragraph description later).toList) := by
  obtain ⟨state, read⟩ := exists_afterLines noParams
  refine ⟨state.tags, by rw [ofText_eq, read]; rfl, ?_, ?_⟩
  · intro line member tag content tagged notParam
    exact holdsPart_of_afterLines read member tagged notParam
  · intro earlier line later parts name description describes
    have member : line ∈ lines comment.toList := by simp [parts]
    refine ⟨?_, fun last => ⟨?_, describes.infix_paragraph later⟩⟩
    · obtain ⟨last, behind, isLast⟩ := LastDescribes.exists_of_mem member describes
      exact ⟨last, behind, isLast, holdsDescription_of_afterLines read noParams isLast⟩
    · have isLast : LastDescribes (lines comment.toList) name description later :=
        ⟨⟨earlier, line, parts, describes⟩, last⟩
      exact holdsDescription_of_afterLines read noParams isLast

/-- Of two titles both are kept, of two descriptions of a parameter only the second one. -/
theorem titles_kept_and_description_replaced :
    (∀ line ∈ lines "@title A\n@param a first\n@title B\n@param a second\nmore".toList,
      ¬ GivesTag line paramsTag) ∧
    ∃ tags, ofText "@title A\n@param a first\n@title B\n@param a second\nmore" = .ok tags ∧
      HoldsPart tags "title" "A".toList ∧ HoldsPart tags "title" "B".toList ∧
      HoldsDescription tags "a" "second\nmore" ∧
      ¬ "first".toList <:+: "second\nmore".toList := by
  have noParams : ∀ line ∈ lines
      "@title A\n@param a first\n@title B\n@param a second\nmore".toList,
      ¬ GivesTag line paramsTag := by decide
  obtain ⟨tags, divided, texts, descriptions⟩ := kept_unless_described_again _ noParams
  refine ⟨noParams, tags, divided, ?_, ?_, ?_, by decide⟩
  · exact texts "@title A".toList (by decide) "title".toList "A".toList (by decide) (by decide)
  · exact texts "@title B".toList (by decide) "title".toList "B".toList (by decide) (by decide)
  · have last := descriptions
      ["@title A".toList, "@param a first".toList, "@title B".toList]
      "@param a second".toList ["more".toList] (by decide) "a" "second"
      ⟨"a second".toList, by decide, by decide⟩
    have untagged : ∀ other ∈ ["more".toList], tagLine? other = none := by decide
    exact (last.2 fun other member _ describes => describes.tagged (untagged other member)).1

end NatSpec
end ContractDoc
