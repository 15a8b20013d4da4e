import ContractDoc.Proofs.DocComment.Tags

/-!
# Reading a comment line by line

What a line does depends on its own tag and, without one, on the last tag before it, which
opened the section that the line continues.  All ways in which a line is read are listed once;
what holds of all comments follows from them by induction over the lines.
-/

namespace ContractDoc
namespace NatSpec

open Text

/-! ## One line -/

/-- The text of a tag with one more text of it. -/
def joined (value : Option TagValue) (content : String) : String :=
  (value.map fun value => value.asText ++ "\n" ++ content).getD content

/-- The text of a tag with one more line. -/
def extended (value : Option TagValue) (line : List Char) : String :=
  (value.map fun value => continued value.asText line).getD (String.ofList line)

/-- The tags in which a parameter is described. -/
def withParam
    (tags : NatSpec)
    (descriptions : Entries String String)
    (name description : String) : NatSpec :=
  Entries.insert paramsTag (.table (Entries.insert name description descriptions)) tags

theorem addTag_eq (tags : NatSpec) (name content : String) :
    addTag tags name content =
      Entries.insert name (.text (joined (Entries.get? name tags) content)) tags := by
  unfold addTag
  split <;> next found => rw [found]; rfl

theorem continueTag_eq
    {tags : NatSpec} {name : String}
    (other : name ≠ paramsTag)
    (line : List Char) :
    continueTag tags name line =
      .ok (Entries.insert name (.text (extended (Entries.get? name tags) line)) tags) := by
  unfold continueTag
  rw [if_neg other]
  split <;> next found => rw [found]; rfl

/-- The parameters are a table, which is empty if there is none yet. -/
theorem params_eq_ok_iff {tags : NatSpec} {descriptions : Entries String String} :
    params tags = .ok descriptions ↔
      Entries.get? paramsTag tags = some (.table descriptions) ∨
        Entries.get? paramsTag tags = none ∧ descriptions = [] := by
  unfold params
  split <;> next found => simp [found, eq_comm]

theorem params_eq_error_iff {tags : NatSpec} :
    params tags = .error .paramsIsText ↔
      ∃ content, Entries.get? paramsTag tags = some (.text content) := by
  unfold params
  split <;> next found => simp [found]

theorem not_text_of_known
    {tags : NatSpec} {descriptions : Entries String String}
    (known : params tags = .ok descriptions) :
    ¬ ∃ content, Entries.get? paramsTag tags = some (.text content) := by
  intro isText
  rw [params_eq_error_iff.2 isText] at known
  cases known

@[simp] theorem get?_withParam
    (tags : NatSpec)
    (descriptions : Entries String String)
    (name description : String) :
    Entries.get? paramsTag (withParam tags descriptions name description) =
      some (.table (Entries.insert name description descriptions)) :=
  Entries.get?_insert_self ..

/-- The name of a parameter and its description, behind the tag. -/
def describedIn (content : List Char) : String × String :=
  (String.ofList (cutAt ' ' content).1, String.ofList (strip (cutAt ' ' content).2))

/-- The section that a tag opens. -/
def sectionOf : List Char × List Char → Section
  | (tag, content) =>
      if tag = "param".toList then .param (describedIn content).1 else .tag (String.ofList tag)

/-- The ways in which a line is read, with what comes of it. -/
inductive Reads (state : State) (line : List Char) : Except Error State → Prop
  | tag {tag content : List Char}
      (starts : tagLine? line = some (tag, content))
      (other : tag ≠ "param".toList) :
      Reads state line (.ok ⟨addTag state.tags (String.ofList tag) (String.ofList content),
        some (.tag (String.ofList tag))⟩)
  | param {content : List Char} {descriptions : Entries String String}
      (starts : tagLine? line = some ("param".toList, content))
      (known : params state.tags = .ok descriptions) :
      Reads state line (.ok ⟨withParam state.tags descriptions (describedIn content).1
        (describedIn content).2, some (.param (describedIn content).1)⟩)
  | paramOfText {content : List Char}
      (starts : tagLine? line = some ("param".toList, content))
      (isText : params state.tags = .error .paramsIsText) :
      Reads state line (.error .paramsIsText)
  | plain {name : String}
      (untagged : tagLine? line = none)
      (current : state.current.getD (.tag "notice") = .tag name)
      (other : name ≠ paramsTag) :
      Reads state line (.ok ⟨Entries.insert name
        (.text (extended (Entries.get? name state.tags) line)) state.tags, some (.tag name)⟩)
  | plainOfParams
      (untagged : tagLine? line = none)
      (current : state.current.getD (.tag "notice") = .tag paramsTag) :
      Reads state line (.error .paramsIsText)
  | plainOfParam {name : String} {descriptions : Entries String String}
      (untagged : tagLine? line = none)
      (current : state.current.getD (.tag "notice") = .param name)
      (known : params state.tags = .ok descriptions) :
      Reads state line (.ok ⟨withParam state.tags descriptions name
        (continued ((Entries.get? name descriptions).getD "") line), some (.param name)⟩)
  | plainOfParamText {name : String}
      (untagged : tagLine? line = none)
      (current : state.current.getD (.tag "notice") = .param name)
      (isText : params state.tags = .error .paramsIsText) :
      Reads state line (.error .paramsIsText)

/-- Every line is read in one of these ways. -/
theorem reads_step (state : State) (line : List Char) : Reads state line (step state line) := by
  unfold step
  split
  · next tag content starts =>
    split
    · next isParam =>
      subst isParam
      unfold setParam
      cases known : params state.tags with
      | error error => exact .paramOfText starts known
      | ok descriptions => exact .param starts known
    · next other => exact .tag starts other
  · next untagged =>
    dsimp only
    split
    · next name current =>
      by_cases isParams : name = paramsTag
      · subst isParams
        exact .plainOfParams untagged current
      · rw [continueTag_eq isParams, current]
        exact .plain untagged current isParams
    · next name current =>
      rw [current]
      unfold continueParam setParam
      cases known : params state.tags with
      | error error => exact .plainOfParamText untagged current known
      | ok descriptions => exact .plainOfParam untagged current known

/-! ## All lines -/

/-- Reads a line, unless it is empty. -/
def readLine (state : State) (line : List Char) : Except Error State :=
  if line.isEmpty then .ok state else step state line

/-- What has been read after some lines. -/
def afterLines (lines : List (List Char)) : Except Error State :=
  lines.foldlM readLine ⟨[], none⟩

theorem ofText_eq (comment : String) :
    ofText comment = (afterLines (lines comment.toList)).map State.tags := by
  have skipped : ((lines comment.toList).filter (!·.isEmpty)).foldlM step ⟨[], none⟩ =
      afterLines (lines comment.toList) := by
    rw [List.foldlM_filter, afterLines]
    congr
    funext state line
    cases line <;> rfl
  rw [ofText, skipped]
  cases afterLines (lines comment.toList) <;> rfl

/-- One more line is the last one that follows a given one, or it is that line itself. -/
theorem concat_eq_append_cons_iff
    {lines earlier later : List (List Char)} {line found : List Char} :
    lines ++ [line] = earlier ++ found :: later ↔
      (later = [] ∧ lines = earlier ∧ line = found) ∨
        ∃ front, later = front ++ [line] ∧ lines = earlier ++ found :: front := by
  constructor
  · intro parts
    rcases List.eq_nil_or_concat' later with rfl | ⟨front, last, rfl⟩
    · obtain ⟨rfl, same⟩ := List.append_inj' parts rfl
      exact .inl ⟨rfl, rfl, List.singleton_inj.1 same⟩
    · rw [← List.cons_append, ← List.append_assoc] at parts
      obtain ⟨rfl, same⟩ := List.append_inj' parts rfl
      exact .inr ⟨front, by rw [List.singleton_inj.1 same], rfl⟩
  · rintro (⟨rfl, rfl, rfl⟩ | ⟨front, rfl, rfl⟩)
    · rfl
    · simp

theorem afterLines_concat (lines : List (List Char)) (line : List Char) :
    afterLines (lines ++ [line]) = afterLines lines >>= fun state => readLine state line := by
  simp [afterLines, List.foldlM_append]

/-- What holds before the first line, and is kept by empty lines and by all ways in which a line
is read, holds after all lines that have been read. -/
theorem afterLines_induction
    {motive : List (List Char) → State → Prop}
    (start : motive [] ⟨[], none⟩)
    (empty : ∀ lines state, motive lines state → motive (lines ++ [[]]) state)
    (reads : ∀ lines line state next, line ≠ [] → afterLines lines = .ok state →
      motive lines state → Reads state line (.ok next) → motive (lines ++ [line]) next)
    {lines : List (List Char)} {state : State}
    (read : afterLines lines = .ok state) :
    motive lines state := by
  induction lines using List.reverseRecOn generalizing state with
  | nil => exact Except.ok.inj read ▸ start
  | append_singleton lines line ih =>
    rw [afterLines_concat] at read
    obtain ⟨before, earlier, last⟩ := bind_eq_ok.1 read
    unfold readLine at last
    split at last
    · next isEmpty =>
      obtain rfl := List.isEmpty_iff.1 isEmpty
      exact Except.ok.inj last ▸ empty lines before (ih earlier)
    · next notEmpty =>
      have nonempty : line ≠ [] := fun isEmpty => notEmpty (List.isEmpty_iff.2 isEmpty)
      exact reads lines line before state nonempty earlier (ih earlier)
        (last ▸ reads_step before line)

/-- The last tag that starts one of some lines, and the text behind it. -/
def lastTagLine? (lines : List (List Char)) : Option (List Char × List Char) :=
  lines.reverse.findSome? tagLine?

@[simp] theorem lastTagLine?_concat (lines : List (List Char)) (line : List Char) :
    lastTagLine? (lines ++ [line]) = (tagLine? line).or (lastTagLine? lines) := by
  rw [lastTagLine?, List.reverse_append, List.findSome?_append]
  cases found : tagLine? line <;> simp [found, lastTagLine?]

/-- The section that a line without a tag continues behind some lines. -/
def openSection (lines : List (List Char)) : Section :=
  ((lastTagLine? lines).map sectionOf).getD (.tag "notice")

theorem openSection_concat_of_tag
    {line : List Char} {found : List Char × List Char}
    (starts : tagLine? line = some found)
    (lines : List (List Char)) :
    openSection (lines ++ [line]) = sectionOf found := by
  simp [openSection, starts]

theorem openSection_concat_of_untagged
    {line : List Char}
    (untagged : tagLine? line = none)
    (lines : List (List Char)) :
    openSection (lines ++ [line]) = openSection lines := by
  simp [openSection, untagged]

/-- Lines without a tag continue the section that the last tag has opened. -/
theorem current_of_afterLines
    {lines : List (List Char)} {state : State}
    (reads : afterLines lines = .ok state) :
    state.current.getD (.tag "notice") = openSection lines := by
  refine afterLines_induction
    (motive := fun lines state => state.current.getD (.tag "notice") = openSection lines)
    rfl ?_ ?_ reads
  · intro lines state current
    rw [openSection_concat_of_untagged rfl, current]
  · intro lines line state next _ _ current lineReads
    cases lineReads with
    | tag starts other =>
      rw [openSection_concat_of_tag starts, sectionOf, if_neg other]
      rfl
    | param starts known => rw [openSection_concat_of_tag starts]; rfl
    | plain untagged continues other =>
      rw [openSection_concat_of_untagged untagged, ← current, continues]
      rfl
    | plainOfParam untagged continues known =>
      rw [openSection_concat_of_untagged untagged, ← current, continues]
      rfl

end NatSpec
end ContractDoc
