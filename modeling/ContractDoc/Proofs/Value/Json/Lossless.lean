import ContractDoc.Proofs.Entries
import ContractDoc.Proofs.Value.Json.Reader
import ContractDoc.Value.Output

/-!
# JSON texts are read back

The text of a value in either layout is ASCII and is read back as the value, with the
entries of maps in their order, if the keys of each map are distinct.  The two layouts
differ in white space outside of strings only.
-/

namespace ContractDoc

namespace Value

/-- What holds of a value if it holds of its parts. -/
theorem byParts
    {motive : Value → Prop}
    (null : motive .null)
    (bool : ∀ flag, motive (.bool flag))
    (int : ∀ number, motive (.int number))
    (text : ∀ content, motive (.text content))
    (list : ∀ items, (∀ item ∈ items, motive item) → motive (.list items))
    (map : ∀ entries, (∀ entry ∈ entries, motive entry.2) → motive (.map entries)) :
    ∀ value, motive value
  | .null => null
  | .bool flag => bool flag
  | .int number => int number
  | .text content => text content
  | .list items => list items fun item _ => byParts null bool int text list map item
  | .map entries => map entries fun entry _ => byParts null bool int text list map entry.2
decreasing_by
  · have := List.sizeOf_lt_of_mem ‹item ∈ items›
    simp only [Value.list.sizeOf_spec]
    omega
  · have smaller := List.sizeOf_lt_of_mem ‹entry ∈ entries›
    have part : sizeOf entry = 1 + sizeOf entry.1 + sizeOf entry.2 := by
      cases entry
      rfl
    simp only [Value.map.sizeOf_spec]
    omega

/-- The keys of every map in a value are distinct. -/
inductive DistinctKeys : Value → Prop
  | null : DistinctKeys .null
  | bool (flag : Bool) : DistinctKeys (.bool flag)
  | int (number : Int) : DistinctKeys (.int number)
  | text (content : String) : DistinctKeys (.text content)
  | list {items : List Value}
      (each : ∀ item ∈ items, DistinctKeys item) :
      DistinctKeys (.list items)
  | map {entries : List (String × Value)}
      (distinct : (Entries.keys entries).Nodup)
      (each : ∀ entry ∈ entries, DistinctKeys entry.2) :
      DistinctKeys (.map entries)

end Value

namespace Text

/-- The last digit of a number in base sixteen stands behind the others. -/
theorem hexDigits_succ {width : Nat} (positive : 0 < width) (number : Nat) :
    hexDigits (width + 1) number =
      hexDigits width (number / 16) ++ [(number % 16).digitChar] := by
  by_cases small : number < 16
  · have quotient : number / 16 = 0 := by omega
    have remainder : number % 16 = number := by omega
    obtain ⟨fewer, rfl⟩ := Nat.exists_eq_add_one.2 positive
    rw [quotient, remainder]
    simp [hexDigits, Nat.toDigits_of_lt_base small, ← List.replicate_succ']
  · simp [hexDigits, Nat.toDigits_of_base_le (by decide : 1 < 16) (Nat.le_of_not_lt small)]

theorem hexDigits_one {number : Nat} (small : number < 16) :
    hexDigits 1 number = [number.digitChar] := by
  simp [hexDigits, Nat.toDigits_of_lt_base small]

theorem length_hexDigits {width number : Nat} (small : number < Nat.pow 16 (width + 1)) :
    (hexDigits (width + 1) number).length = width + 1 := by
  induction width generalizing number with
  | zero =>
    rw [hexDigits_one (by simpa using small)]
    rfl
  | succ width ih =>
    have fits : number / 16 < Nat.pow 16 (width + 1) := by
      rw [Nat.div_lt_iff_lt_mul (by decide)]
      simpa [Nat.pow_succ] using small
    rw [hexDigits_succ (Nat.succ_pos width), List.length_append, ih fits]
    rfl

/-- The digits of a number in base sixteen are digits. -/
theorem exists_digit_of_mem_hexDigits {width number : Nat} {c : Char}
    (member : c ∈ hexDigits width number) :
    ∃ digit < 16, c = digit.digitChar := by
  have digits : ∀ number, ∀ c ∈ Nat.toDigits 16 number, ∃ digit < 16, c = digit.digitChar := by
    intro number
    induction number using Nat.strongRecOn with
    | ind number ih =>
      intro c member
      rw [Nat.toDigits_eq_if (by decide)] at member
      split at member
      · next small => exact ⟨number, small, List.mem_singleton.1 member⟩
      · rcases List.mem_append.1 member with front | last
        · exact ih (number / 16) (by omega) c front
        · exact ⟨number % 16, Nat.mod_lt _ (by decide), List.mem_singleton.1 last⟩
  rcases List.mem_append.1 member with zero | digit
  · exact ⟨0, by decide, List.eq_of_mem_replicate zero⟩
  · exact digits number c digit

end Text

namespace Json

open Text

/-! ## Strings -/

theorem hexValue?_digitChar : ∀ digit < 16, hexValue? digit.digitChar = some digit := by
  decide

/-- A number is read back from its digits in base sixteen. -/
theorem hexNumber?_hexDigits {width number : Nat} (small : number < Nat.pow 16 (width + 1)) :
    hexNumber? (hexDigits (width + 1) number) = some number := by
  induction width generalizing number with
  | zero =>
    have digit : number < 16 := by simpa using small
    rw [hexDigits_one digit]
    simp [hexNumber?, hexValue?_digitChar number digit]
  | succ width ih =>
    have fits : number / 16 < Nat.pow 16 (width + 1) := by
      rw [Nat.div_lt_iff_lt_mul (by decide)]
      simpa [Nat.pow_succ] using small
    have digit := hexValue?_digitChar (number % 16) (Nat.mod_lt _ (by decide))
    have front : (hexDigits (width + 1) (number / 16)).foldlM
        (fun number c => (hexValue? c).map (16 * number + ·)) 0 = some (number / 16) := ih fits
    rw [hexDigits_succ (Nat.succ_pos width), hexNumber?, List.foldlM_append, front]
    simp [digit, Nat.div_add_mod]

/-- A unit is read back from its escape. -/
theorem stringUnits?_unitEscape {unit : Nat} (small : unit < 0x10000) (rest : List Char) :
    stringUnits? (unitEscape unit ++ rest) =
      (stringUnits? rest).map fun (units, after) => (unit :: units, after) := by
  have length : (hexDigits 4 unit).length = 4 := @length_hexDigits 3 _ small
  have number : hexNumber? (hexDigits 4 unit) = some unit := hexNumber?_hexDigits small
  match digits : hexDigits 4 unit, length with
  | [a, b, c, d], _ =>
    rw [digits] at number
    rw [unitEscape, digits]
    simp only [List.cons_append, List.nil_append, stringUnits?, number]
    cases stringUnits? rest <;> rfl

/-- The characters are the numbers below the last plane that are no surrogates. -/
theorem toNat_valid (c : Char) :
    c.toNat < 0xD800 ∨ 0xDFFF < c.toNat ∧ c.toNat < 0x110000 :=
  c.valid

theorem stringUnits?_escape
    {written meant : Char}
    (isShort : written ≠ 'u')
    (escape : escaped? written = some meant)
    (rest : List Char) :
    stringUnits? ('\\' :: written :: rest) =
      (stringUnits? rest).map fun (units, after) => (unitsOf meant ++ units, after) := by
  rw [stringUnits?]
  · rw [escape]
    cases stringUnits? rest <;> rfl
  · intro a b c d more isLong
    exact absurd isLong isShort

theorem stringUnits?_plain
    {c : Char}
    (notQuote : c ≠ '"')
    (notBackslash : c ≠ '\\')
    (notControl : ¬ c.toNat < 0x20)
    (rest : List Char) :
    stringUnits? (c :: rest) =
      (stringUnits? rest).map fun (units, after) => (unitsOf c ++ units, after) := by
  rw [stringUnits?]
  · rw [if_neg (not_or.2 ⟨notBackslash, notControl⟩)]
    cases stringUnits? rest <;> rfl
  · exact notQuote
  · intro a b d e more isBackslash
    exact absurd isBackslash notBackslash
  · intro d more isBackslash
    exact absurd isBackslash notBackslash

/-- The units of a character are read back from what is written for it. -/
theorem stringUnits?_stringChar (c : Char) (rest : List Char) :
    stringUnits? (stringChar c ++ rest) =
      (stringUnits? rest).map fun (units, after) => (unitsOf c ++ units, after) := by
  have valid := toNat_valid c
  unfold stringChar
  split_ifs with quoted isLineFeed isReturn isTab isFormFeed isBackspace isPlain isUnit
  · rcases quoted with rfl | rfl
    · exact stringUnits?_escape (by decide) rfl rest
    · exact stringUnits?_escape (by decide) rfl rest
  · subst isLineFeed
    exact stringUnits?_escape (by decide) rfl rest
  · subst isReturn
    exact stringUnits?_escape (by decide) rfl rest
  · subst isTab
    exact stringUnits?_escape (by decide) rfl rest
  · obtain rfl : c = Char.ofNat 0x0C := by rw [← isFormFeed, Char.ofNat_toNat]
    exact stringUnits?_escape (by decide) rfl rest
  · obtain rfl : c = Char.ofNat 0x08 := by rw [← isBackspace, Char.ofNat_toNat]
    exact stringUnits?_escape (by decide) rfl rest
  · push Not at quoted
    exact stringUnits?_plain quoted.1 quoted.2 (by omega) rest
  · rw [stringUnits?_unitEscape isUnit, unitsOf, if_pos isUnit]
    rfl
  · dsimp only
    rw [List.append_assoc, stringUnits?_unitEscape (by omega),
      stringUnits?_unitEscape (by omega), unitsOf, if_neg isUnit]
    cases stringUnits? rest <;> rfl

/-- A character is read back from its units. -/
theorem charsOf?_unitsOf (c : Char) (units : List Nat) :
    charsOf? (unitsOf c ++ units) = (charsOf? units).map (c :: ·) := by
  have valid := toNat_valid c
  by_cases small : c.toNat < 0x10000
  · have notHigh : isHighSurrogate c.toNat = false := by
      simp [isHighSurrogate]
      omega
    have notLow : isLowSurrogate c.toNat = false := by
      simp [isLowSurrogate]
      omega
    rw [unitsOf, if_pos small, List.singleton_append, charsOf?.eq_def]
    simp [notHigh, notLow]
  · have high : isHighSurrogate (0xD800 + (c.toNat - 0x10000) / 0x400) = true := by
      simp [isHighSurrogate]
      omega
    have low : isLowSurrogate (0xDC00 + (c.toNat - 0x10000) % 0x400) = true := by
      simp [isLowSurrogate]
      omega
    have whole : 0x10000 + (0xD800 + (c.toNat - 0x10000) / 0x400 - 0xD800) * 0x400 +
        (0xDC00 + (c.toNat - 0x10000) % 0x400 - 0xDC00) = c.toNat := by
      omega
    rw [unitsOf, if_neg small]
    simp only [List.cons_append, List.nil_append, charsOf?, high, low, ↓reduceIte, whole,
      Char.ofNat_toNat]

/-- A text is read back from its string. -/
theorem string?_flatMap_stringChar (content : String) (rest : List Char) :
    string? (content.toList.flatMap stringChar ++ '"' :: rest) = some (content, rest) := by
  have units (text : List Char) :
      stringUnits? (text.flatMap stringChar ++ '"' :: rest) =
        some (text.flatMap unitsOf, rest) := by
    induction text with
    | nil => rfl
    | cons c text ih =>
      rw [List.flatMap_cons, List.append_assoc, stringUnits?_stringChar, ih]
      rfl
  have chars (text : List Char) : charsOf? (text.flatMap unitsOf) = some text := by
    induction text with
    | nil => rfl
    | cons c text ih =>
      rw [List.flatMap_cons, charsOf?_unitsOf, ih]
      rfl
  simp [string?, units, chars]

/-! ## Numbers -/

/-- What may stand behind a number. -/
def EndsNumber (text : List Char) : Prop :=
  ∀ c ∈ text.head?, c.isDigit = false ∧ continuesNumber c = false

theorem endsNumber_cons
    {c : Char} {rest : List Char}
    (notDigit : c.isDigit = false)
    (notContinued : continuesNumber c = false) :
    EndsNumber (c :: rest) := by
  rintro d ⟨⟩
  exact ⟨notDigit, notContinued⟩

/-- Only zero is written with a leading zero. -/
theorem toDigits_eq_of_head? {number : Nat} (zero : (Nat.toDigits 10 number).head? = some '0') :
    Nat.toDigits 10 number = ['0'] := by
  induction number using Nat.strongRecOn with
  | ind number ih =>
    by_cases small : number < 10
    · have zeroOnly : ∀ digit < 10, digit.digitChar = '0' → digit = 0 := by decide
      rw [Nat.toDigits_of_lt_base small] at zero ⊢
      rw [zeroOnly number small (by simpa using zero)]
      rfl
    · rw [Nat.toDigits_of_base_le (by decide) (Nat.le_of_not_lt small),
        List.head?_append_of_ne_nil _ Nat.toDigits_ne_nil] at zero
      have front := ih (number / 10) (by omega) zero
      have quotient : Nat.ofDigitChars 10 (Nat.toDigits 10 (number / 10)) 0 = number / 10 :=
        Nat.ofDigitChars_ten_toDigits
      rw [front] at quotient
      simp [Nat.ofDigitChars] at quotient
      omega

/-- A number is read back from its digits. -/
theorem natural?_toDigits (number : Nat) {rest : List Char} (ends : EndsNumber rest) :
    natural? (Nat.toDigits 10 number ++ rest) = some (number, rest) := by
  have digits : ∀ c ∈ Nat.toDigits 10 number, c.isDigit = true := fun c member =>
    Nat.isDigit_of_mem_toDigits (by decide) (by decide) member
  have stops : rest.takeWhile Char.isDigit = [] ∧ rest.dropWhile Char.isDigit = rest := by
    cases rest with
    | nil => exact ⟨rfl, rfl⟩
    | cons c rest =>
      have notDigit := (ends c rfl).1
      simp [notDigit]
  have continued : rest.head?.any continuesNumber = false := by
    cases rest with
    | nil => rfl
    | cons c rest => exact (ends c rfl).2
  rw [natural?, List.takeWhile_append_of_pos digits, List.dropWhile_append_of_pos digits,
    stops.1, stops.2, List.append_nil, if_neg, Nat.ofDigitChars_ten_toDigits]
  rintro (empty | ⟨leading, longer⟩ | more)
  · exact Nat.toDigits_ne_nil empty
  · exact longer (toDigits_eq_of_head? leading)
  · rw [continued] at more
    cases more

theorem isBlank_eq_false_of_isDigit {c : Char} (isDigit : c.isDigit = true) :
    isBlank c = false := by
  apply Bool.eq_false_iff.2
  intro blank
  simp only [isBlank, Bool.or_eq_true, beq_iff_eq] at blank
  rcases blank with ((rfl | rfl) | rfl) | rfl <;> cases isDigit

theorem token?_of_isDigit {c : Char} (isDigit : c.isDigit = true) (rest : List Char) :
    token? c rest = (natural? (c :: rest)).map fun (number, after) =>
      (.scalar (.int number), after) := by
  unfold token?
  split
  iterate 8
    · cases isDigit
  · rw [if_pos isDigit]

/-- A negative number is written as a sign and its magnitude. -/
theorem toList_toString (number : Int) :
    (toString number).toList =
      if 0 ≤ number then Nat.toDigits 10 number.toNat
      else '-' :: Nat.toDigits 10 (-number).toNat := by
  rw [Int.toString_eq_repr, Int.repr_eq_if]
  split <;> simp [Nat.repr_eq_ofList_toDigits]

/-- A number is a token, whatever ends it. -/
theorem token?_int (number : Int) {rest : List Char} (ends : EndsNumber rest) :
    ∃ c digits, (toString number).toList = c :: digits ∧ isBlank c = false ∧
      token? c (digits ++ rest) = some (.scalar (.int number), rest) := by
  rw [toList_toString]
  split
  · next natural =>
    obtain ⟨c, digits, text⟩ := List.exists_cons_of_ne_nil
      (@Nat.toDigits_ne_nil number.toNat 10)
    have isDigit : c.isDigit = true :=
      Nat.isDigit_of_mem_toDigits (by decide) (by decide) (text ▸ List.mem_cons_self)
    have found := natural?_toDigits number.toNat ends
    have magnitude : ((number.toNat : Nat) : Int) = number := Int.toNat_of_nonneg natural
    rw [text, List.cons_append] at found
    refine ⟨c, digits, text, isBlank_eq_false_of_isDigit isDigit, ?_⟩
    simp only [token?_of_isDigit isDigit, found, Option.map_some, magnitude]
  · next negative =>
    have magnitude : -(((-number).toNat : Nat) : Int) = number := by omega
    refine ⟨'-', Nat.toDigits 10 (-number).toNat, rfl, rfl, ?_⟩
    simp only [token?, natural?_toDigits _ ends, Option.map_some, magnitude]

/-! ## Values -/

namespace Reader

theorem run_of_isBlank {c : Char} (blank : isBlank c = true) (reader : Reader) (rest : List Char) :
    reader.run (c :: rest) = reader.run rest := by
  rw [run, if_pos blank]

/-- White space is passed over. -/
theorem run_append_of_isBlank
    {blanks : List Char}
    (allBlank : ∀ c ∈ blanks, isBlank c = true)
    (reader : Reader)
    (rest : List Char) :
    reader.run (blanks ++ rest) = reader.run rest := by
  induction blanks with
  | nil => rfl
  | cons c blanks ih =>
    rw [List.cons_append, run_of_isBlank (allBlank c List.mem_cons_self)]
    exact ih fun d member => allBlank d (List.mem_cons_of_mem c member)

/-- A token that is expected is read. -/
theorem run_of_token?
    {c : Char} {rest after : List Char} {token : Token} {reader next : Reader}
    (visible : isBlank c = false)
    (found : token? c rest = some (token, after))
    (expected : reader.step token = some next) :
    reader.run (c :: rest) = next.run after := by
  rw [run, if_neg (Bool.eq_false_iff.1 visible)]
  split
  · next missing =>
    rw [missing] at found
    cases found
  · next other =>
    obtain ⟨rfl, rfl⟩ := Prod.mk.inj (Option.some.inj (other.symm.trans found))
    rw [expected]

end Reader

theorem isBlank_of_mem_lineBreak
    {layout : Layout} {level : Nat} :
    ∀ c ∈ layout.lineBreak level, isBlank c = true := by
  intro c member
  cases layout with
  | compact => cases member
  | pretty =>
    rcases List.mem_cons.1 member with rfl | space
    · rfl
    · rw [List.eq_of_mem_replicate space]
      rfl

/-- A separator is a comma and white space. -/
theorem exists_comma_eq (layout : Layout) (level : Nat) :
    ∃ blanks, layout.comma level = ',' :: blanks ∧ ∀ c ∈ blanks, isBlank c = true := by
  cases layout with
  | compact => exact ⟨[' '], rfl, List.forall_mem_singleton.2 rfl⟩
  | pretty => exact ⟨_, rfl, isBlank_of_mem_lineBreak⟩

theorem endsNumber_lineBreak
    {rest : List Char}
    (ends : EndsNumber rest)
    (layout : Layout)
    (level : Nat) :
    EndsNumber (layout.lineBreak level ++ rest) := by
  cases layout with
  | compact => exact ends
  | pretty => exact endsNumber_cons rfl rfl

theorem endsNumber_renderItems
    {rest : List Char}
    (ends : EndsNumber rest)
    (layout : Layout)
    (level : Nat)
    (items : List Value) :
    EndsNumber (renderItems layout level items ++ rest) := by
  cases items with
  | nil => exact ends
  | cons item items =>
    obtain ⟨blanks, comma, -⟩ := exists_comma_eq layout level
    rw [renderItems, comma]
    exact endsNumber_cons rfl rfl

theorem endsNumber_renderEntries
    {rest : List Char}
    (ends : EndsNumber rest)
    (layout : Layout)
    (level : Nat)
    (entries : List (String × Value)) :
    EndsNumber (renderEntries layout level entries ++ rest) := by
  cases entries with
  | nil => exact ends
  | cons entry entries =>
    obtain ⟨blanks, comma, -⟩ := exists_comma_eq layout level
    rw [renderEntries, comma]
    exact endsNumber_cons rfl rfl

/-- A text is read as a value, wherever a value is expected. -/
def Denotes (text : List Char) (value : Value) : Prop :=
  ∀ frames rest, EndsNumber rest →
    (Reader.value frames).run (text ++ rest) = (Reader.complete value frames).run rest

theorem token?_string (content : String) (rest : List Char) :
    token? '"' (content.toList.flatMap stringChar ++ '"' :: rest) =
      some (.string content, rest) := by
  rw [token?, string?_flatMap_stringChar]
  rfl

theorem denotes_null : Denotes "null".toList .null := by
  intro frames rest _
  exact Reader.run_of_token? rfl rfl rfl

theorem denotes_true : Denotes "true".toList (.bool true) := by
  intro frames rest _
  exact Reader.run_of_token? rfl rfl rfl

theorem denotes_false : Denotes "false".toList (.bool false) := by
  intro frames rest _
  exact Reader.run_of_token? rfl rfl rfl

theorem denotes_int (number : Int) : Denotes (toString number).toList (.int number) := by
  intro frames rest ends
  obtain ⟨c, digits, text, visible, found⟩ := token?_int number ends
  rw [text]
  exact Reader.run_of_token? visible found rfl

theorem denotes_string (content : String) : Denotes (string content) (.text content) := by
  intro frames rest _
  rw [string, List.cons_append, List.append_assoc]
  exact Reader.run_of_token? rfl (token?_string content rest) rfl

/-- The items behind the first one, and the end of the list. -/
theorem run_renderItems
    {layout : Layout} {level outer : Nat} {items : List Value}
    (each : ∀ item ∈ items, Denotes (render layout level item) item)
    (before : List Value)
    (item : Value)
    (frames : List Frame)
    (rest : List Char) :
    (Reader.complete item (.list before :: frames)).run
        (renderItems layout level items ++ (layout.lineBreak outer ++ ']' :: rest)) =
      (Reader.complete (.list (before.reverse ++ item :: items)) frames).run rest := by
  induction items generalizing before item with
  | nil =>
    rw [renderItems, List.nil_append, Reader.run_append_of_isBlank isBlank_of_mem_lineBreak,
      Reader.run_of_token? rfl rfl rfl, List.reverse_cons]
  | cons next items ih =>
    obtain ⟨blanks, comma, allBlank⟩ := exists_comma_eq layout level
    have ends : EndsNumber
        (renderItems layout level items ++ (layout.lineBreak outer ++ ']' :: rest)) :=
      endsNumber_renderItems (endsNumber_lineBreak (endsNumber_cons rfl rfl) _ _) _ _ _
    have others := ih (fun other member => each other (List.mem_cons_of_mem next member))
    rw [renderItems, comma, List.append_assoc, List.append_assoc, List.cons_append,
      Reader.run_of_token? rfl rfl rfl, Reader.run_append_of_isBlank allBlank,
      each next List.mem_cons_self _ _ ends, others, List.reverse_cons, List.append_assoc]
    rfl

/-- An entry where a key is expected. -/
theorem run_renderEntry
    {layout : Layout} {level : Nat} {entry : String × Value} {rest : List Char}
    (denotes : Denotes (render layout level entry.2) entry.2)
    (ends : EndsNumber rest)
    (before : List (String × Value))
    (frames : List Frame) :
    (Reader.key before frames).run (renderEntry layout level entry ++ rest) =
      (Reader.complete entry.2 (.map before entry.1 :: frames)).run rest := by
  have shape : renderEntry layout level entry ++ rest =
      '"' :: (entry.1.toList.flatMap stringChar ++
        '"' :: ':' :: ' ' :: (render layout level entry.2 ++ rest)) := by
    cases entry
    simp [renderEntry, string]
  rw [shape, Reader.run_of_token? rfl (token?_string _ _) rfl,
    Reader.run_of_token? rfl rfl rfl, Reader.run_of_isBlank rfl]
  exact denotes _ _ ends

/-- The entries behind the first one, and the end of the map. -/
theorem run_renderEntries
    {layout : Layout} {level outer : Nat} {entries : List (String × Value)}
    (each : ∀ entry ∈ entries, Denotes (render layout level entry.2) entry.2)
    (before : List (String × Value))
    (entry : String × Value)
    (frames : List Frame)
    (rest : List Char) :
    (Reader.complete entry.2 (.map before entry.1 :: frames)).run
        (renderEntries layout level entries ++ (layout.lineBreak outer ++ '}' :: rest)) =
      (Reader.complete (Value.ofEntries (before.reverse ++ entry :: entries)) frames).run
        rest := by
  induction entries generalizing before entry with
  | nil =>
    rw [renderEntries, List.nil_append, Reader.run_append_of_isBlank isBlank_of_mem_lineBreak,
      Reader.run_of_token? rfl rfl rfl, List.reverse_cons]
  | cons next entries ih =>
    obtain ⟨blanks, comma, allBlank⟩ := exists_comma_eq layout level
    have ends : EndsNumber
        (renderEntries layout level entries ++ (layout.lineBreak outer ++ '}' :: rest)) :=
      endsNumber_renderEntries (endsNumber_lineBreak (endsNumber_cons rfl rfl) _ _) _ _ _
    have others := ih (fun other member => each other (List.mem_cons_of_mem next member))
    rw [renderEntries, comma, List.append_assoc, List.append_assoc, List.cons_append,
      Reader.run_of_token? rfl rfl rfl, Reader.run_append_of_isBlank allBlank,
      run_renderEntry (each next List.mem_cons_self) ends, others, List.reverse_cons,
      List.append_assoc]
    rfl

/-- The text of a value is read as the value. -/
theorem denotes_render
    {value : Value}
    (distinct : value.DistinctKeys)
    (layout : Layout)
    (level : Nat) :
    Denotes (render layout level value) value := by
  induction distinct generalizing level with
  | null => exact denotes_null
  | bool flag =>
    cases flag with
    | false => exact denotes_false
    | true => exact denotes_true
  | int number => exact denotes_int number
  | text content => exact denotes_string content
  | @list items _ each =>
    intro frames rest ends
    cases items with
    | nil =>
      exact (Reader.run_of_token? rfl rfl rfl).trans (Reader.run_of_token? rfl rfl rfl)
    | cons item items =>
      have behind : EndsNumber (renderItems layout (level + 1) items ++
          (layout.lineBreak level ++ ']' :: rest)) :=
        endsNumber_renderItems (endsNumber_lineBreak (endsNumber_cons rfl rfl) _ _) _ _ _
      simp only [render, List.append_assoc, List.cons_append, List.nil_append]
      rw [Reader.run_of_token? rfl rfl rfl,
        Reader.run_append_of_isBlank isBlank_of_mem_lineBreak,
        each item List.mem_cons_self _ _ _ behind,
        run_renderItems fun other member => each other (List.mem_cons_of_mem item member) _]
      rfl
  | @map entries distinct _ each =>
    intro frames rest ends
    cases entries with
    | nil =>
      exact (Reader.run_of_token? rfl rfl rfl).trans (Reader.run_of_token? rfl rfl rfl)
    | cons entry entries =>
      have behind : EndsNumber (renderEntries layout (level + 1) entries ++
          (layout.lineBreak level ++ '}' :: rest)) :=
        endsNumber_renderEntries (endsNumber_lineBreak (endsNumber_cons rfl rfl) _ _) _ _ _
      simp only [render, List.append_assoc, List.cons_append, List.nil_append]
      rw [Reader.run_of_token? rfl rfl rfl,
        Reader.run_append_of_isBlank isBlank_of_mem_lineBreak,
        run_renderEntry (each entry List.mem_cons_self _) behind,
        run_renderEntries fun other member => each other (List.mem_cons_of_mem entry member) _,
        List.reverse_nil, List.nil_append, Value.ofEntries, Entries.ofList_eq_self distinct]

/-! ## ASCII -/

/-- All characters of a text are ASCII. -/
def Ascii (text : List Char) : Prop :=
  ∀ c ∈ text, c.toNat < 0x80

@[simp]
theorem ascii_nil : Ascii [] := by
  simp [Ascii]

@[simp]
theorem ascii_cons {c : Char} {text : List Char} :
    Ascii (c :: text) ↔ c.toNat < 0x80 ∧ Ascii text := by
  simp [Ascii]

@[simp]
theorem ascii_append {front back : List Char} :
    Ascii (front ++ back) ↔ Ascii front ∧ Ascii back :=
  List.forall_mem_append

theorem ascii_unitEscape (unit : Nat) : Ascii (unitEscape unit) := by
  have digitChars : ∀ digit < 16, digit.digitChar.toNat < 0x80 := by decide
  have digits : Ascii (hexDigits 4 unit) := by
    intro c member
    obtain ⟨digit, small, rfl⟩ := exists_digit_of_mem_hexDigits member
    exact digitChars digit small
  simpa [unitEscape] using digits

theorem ascii_stringChar (c : Char) : Ascii (stringChar c) := by
  unfold stringChar
  split_ifs with quoted isLineFeed isReturn isTab isFormFeed isBackspace isPlain
  · rcases quoted with rfl | rfl <;> simp
  iterate 5
    · simp
  · simp
    omega
  · exact ascii_unitEscape _
  · exact ascii_append.2 ⟨ascii_unitEscape _, ascii_unitEscape _⟩

theorem ascii_string (content : String) : Ascii (string content) := by
  have chars : Ascii (content.toList.flatMap stringChar) := by
    intro d member
    obtain ⟨c, -, member⟩ := List.mem_flatMap.1 member
    exact ascii_stringChar c d member
  simpa [string] using chars

theorem toNat_lt_of_isDigit {c : Char} (isDigit : c.isDigit = true) : c.toNat < 0x80 := by
  have bound := (Char.isDigit_iff_toNat.1 isDigit).2
  exact Nat.lt_of_le_of_lt bound (by decide)

theorem ascii_toDigits (number : Nat) : Ascii (Nat.toDigits 10 number) := by
  intro c member
  exact toNat_lt_of_isDigit (Nat.isDigit_of_mem_toDigits (by decide) (by decide) member)

theorem ascii_lineBreak (layout : Layout) (level : Nat) : Ascii (layout.lineBreak level) := by
  intro c member
  have blank := isBlank_of_mem_lineBreak c member
  simp only [isBlank, Bool.or_eq_true, beq_iff_eq] at blank
  rcases blank with ((rfl | rfl) | rfl) | rfl <;> decide

@[simp]
theorem ascii_comma (layout : Layout) (level : Nat) : Ascii (layout.comma level) := by
  cases layout with
  | compact => simp [Layout.comma]
  | pretty => simp [Layout.comma, ascii_lineBreak]

theorem ascii_renderItems
    {layout : Layout} {level : Nat} {items : List Value}
    (each : ∀ item ∈ items, Ascii (render layout level item)) :
    Ascii (renderItems layout level items) := by
  induction items with
  | nil => simp [renderItems]
  | cons item items ih =>
    rw [List.forall_mem_cons] at each
    simp [renderItems, each.1, ih each.2]

theorem ascii_renderEntry
    {layout : Layout} {level : Nat} {entry : String × Value}
    (ascii : Ascii (render layout level entry.2)) :
    Ascii (renderEntry layout level entry) := by
  cases entry
  simpa [renderEntry, ascii_string] using ascii

theorem ascii_renderEntries
    {layout : Layout} {level : Nat} {entries : List (String × Value)}
    (each : ∀ entry ∈ entries, Ascii (render layout level entry.2)) :
    Ascii (renderEntries layout level entries) := by
  induction entries with
  | nil => simp [renderEntries]
  | cons entry entries ih =>
    rw [List.forall_mem_cons] at each
    simp [renderEntries, ascii_renderEntry each.1, ih each.2]

/-- The text of a value is ASCII. -/
theorem ascii_render (value : Value) (layout : Layout) (level : Nat) :
    Ascii (render layout level value) := by
  induction value using Value.byParts generalizing level with
  | null => simp [render]
  | bool flag => cases flag <;> simp [render]
  | int number =>
    rw [render, toList_toString]
    split <;> simp [ascii_toDigits]
  | text content => exact ascii_string content
  | list items each =>
    cases items with
    | nil => simp [render]
    | cons item items =>
      rw [List.forall_mem_cons] at each
      simp [render, ascii_lineBreak, each.1,
        ascii_renderItems fun other member => each.2 other member (level + 1)]
  | map entries each =>
    cases entries with
    | nil => simp [render]
    | cons entry entries =>
      rw [List.forall_mem_cons] at each
      simp [render, ascii_lineBreak, ascii_renderEntry (each.1 (level + 1)),
        ascii_renderEntries fun other member => each.2 other member (level + 1)]

/-! ## White space -/

/-- A text without the white space outside of its strings; `inside` tells whether the text
begins within a string. -/
def dense (inside : Bool) (text : List Char) : List Char :=
  match inside, text with
  | _, [] => []
  | false, c :: rest => if isBlank c then dense false rest else c :: dense (c == '"') rest
  | true, '\\' :: c :: rest => '\\' :: c :: dense true rest
  | true, c :: rest => c :: dense (c != '"') rest

theorem dense_plain {c : Char} (notQuote : c ≠ '"') (notBackslash : c ≠ '\\') (rest : List Char) :
    dense true (c :: rest) = c :: dense true rest := by
  rw [dense]
  · rw [bne_iff_ne.2 notQuote]
  · intro d more isBackslash
    exact absurd isBackslash notBackslash

/-- A text becomes a shape, and no string is open at its end. -/
def Condenses (text shape : List Char) : Prop :=
  ∀ rest, dense false (text ++ rest) = shape ++ dense false rest

namespace Condenses

theorem append
    {front back frontShape backShape : List Char}
    (first : Condenses front frontShape)
    (second : Condenses back backShape) :
    Condenses (front ++ back) (frontShape ++ backShape) := by
  intro rest
  rw [List.append_assoc, first, second, List.append_assoc]

theorem blanks {blanks : List Char} (allBlank : ∀ c ∈ blanks, isBlank c = true) :
    Condenses blanks [] := by
  intro rest
  induction blanks with
  | nil => rfl
  | cons c blanks ih =>
    rw [List.forall_mem_cons] at allBlank
    rw [List.cons_append, dense, if_pos allBlank.1]
    exact ih allBlank.2

/-- Text without white space and quotes stays. -/
theorem visible
    {text : List Char}
    (plain : ∀ c ∈ text, isBlank c = false ∧ c ≠ '"') :
    Condenses text text := by
  intro rest
  induction text with
  | nil => rfl
  | cons c text ih =>
    rw [List.forall_mem_cons] at plain
    obtain ⟨notBlank, notQuote⟩ := plain.1
    rw [List.cons_append, dense, notBlank, beq_eq_false_iff_ne.2 notQuote, ih plain.2]
    rfl

end Condenses

theorem dense_unitEscape (unit : Nat) (rest : List Char) :
    dense true (unitEscape unit ++ rest) = unitEscape unit ++ dense true rest := by
  have plain : ∀ c ∈ hexDigits 4 unit, c ≠ '"' ∧ c ≠ '\\' := by
    have digitChars : ∀ digit < 16, digit.digitChar ≠ '"' ∧ digit.digitChar ≠ '\\' := by decide
    intro c member
    obtain ⟨digit, small, rfl⟩ := exists_digit_of_mem_hexDigits member
    exact digitChars digit small
  have digits (text : List Char) (plain : ∀ c ∈ text, c ≠ '"' ∧ c ≠ '\\') :
      dense true (text ++ rest) = text ++ dense true rest := by
    induction text with
    | nil => rfl
    | cons c text ih =>
      rw [List.forall_mem_cons] at plain
      rw [List.cons_append, dense_plain plain.1.1 plain.1.2, ih plain.2, List.cons_append]
  rw [unitEscape, List.cons_append, List.cons_append, dense, digits _ plain]
  rfl

/-- What is written for a character stays, and the string stays open. -/
theorem dense_stringChar (c : Char) (rest : List Char) :
    dense true (stringChar c ++ rest) = stringChar c ++ dense true rest := by
  unfold stringChar
  split_ifs with quoted isLineFeed isReturn isTab isFormFeed isBackspace isPlain
  iterate 6
    · rfl
  · push Not at quoted
    exact dense_plain quoted.1 quoted.2 rest
  · exact dense_unitEscape _ rest
  · dsimp only
    rw [List.append_assoc, dense_unitEscape, dense_unitEscape, List.append_assoc]

theorem condenses_string (content : String) : Condenses (string content) (string content) := by
  have chars (text rest : List Char) :
      dense true (text.flatMap stringChar ++ rest) =
        text.flatMap stringChar ++ dense true rest := by
    induction text with
    | nil => rfl
    | cons c text ih =>
      rw [List.flatMap_cons, List.append_assoc, dense_stringChar, ih, List.append_assoc]
  intro rest
  have closed : dense true ('"' :: rest) = '"' :: dense false rest := rfl
  have opened (text : List Char) : dense false ('"' :: text) = '"' :: dense true text := rfl
  simp only [string, List.cons_append, List.append_assoc, List.nil_append, opened, chars, closed]

theorem condenses_toDigits (number : Nat) :
    Condenses (Nat.toDigits 10 number) (Nat.toDigits 10 number) := by
  apply Condenses.visible
  intro c member
  have isDigit : c.isDigit = true :=
    Nat.isDigit_of_mem_toDigits (by decide) (by decide) member
  refine ⟨isBlank_eq_false_of_isDigit isDigit, ?_⟩
  rintro rfl
  cases isDigit

theorem condenses_lineBreak (layout : Layout) (level : Nat) :
    Condenses (layout.lineBreak level) [] :=
  .blanks isBlank_of_mem_lineBreak

theorem condenses_comma (layout : Layout) (level : Nat) :
    Condenses (layout.comma level) [','] := by
  obtain ⟨blanks, comma, allBlank⟩ := exists_comma_eq layout level
  have mark : Condenses [','] [','] := fun rest => rfl
  rw [comma]
  exact mark.append (.blanks allBlank)

/-- One shape in all layouts and at all levels. -/
def HasShape (text : Layout → Nat → List Char) : Prop :=
  ∃ shape, ∀ layout level, Condenses (text layout level) shape

theorem hasShape_renderItems
    {items : List Value}
    (each : ∀ item ∈ items, HasShape fun layout level => render layout level item) :
    HasShape fun layout level => renderItems layout level items := by
  induction items with
  | nil => exact ⟨[], fun layout level => .blanks (by simp [renderItems])⟩
  | cons item items ih =>
    rw [List.forall_mem_cons] at each
    obtain ⟨first, isFirst⟩ := each.1
    obtain ⟨others, areOthers⟩ := ih each.2
    refine ⟨[','] ++ first ++ others, fun layout level => ?_⟩
    exact ((condenses_comma layout level).append (isFirst layout level)).append
      (areOthers layout level)

theorem hasShape_renderEntry
    {entry : String × Value}
    (hasShape : HasShape fun layout level => render layout level entry.2) :
    HasShape fun layout level => renderEntry layout level entry := by
  obtain ⟨key, value⟩ := entry
  obtain ⟨shape, isShape⟩ := hasShape
  have colon : Condenses [':', ' '] [':'] := fun rest => rfl
  refine ⟨string key ++ [':'] ++ shape, fun layout level => ?_⟩
  exact ((condenses_string key).append colon).append (isShape layout level)

theorem hasShape_renderEntries
    {entries : List (String × Value)}
    (each : ∀ entry ∈ entries, HasShape fun layout level => render layout level entry.2) :
    HasShape fun layout level => renderEntries layout level entries := by
  induction entries with
  | nil => exact ⟨[], fun layout level => .blanks (by simp [renderEntries])⟩
  | cons entry entries ih =>
    rw [List.forall_mem_cons] at each
    obtain ⟨first, isFirst⟩ := hasShape_renderEntry each.1
    obtain ⟨others, areOthers⟩ := ih each.2
    refine ⟨[','] ++ first ++ others, fun layout level => ?_⟩
    exact ((condenses_comma layout level).append (isFirst layout level)).append
      (areOthers layout level)

/-- The white space is all that depends on the layout. -/
theorem hasShape_render (value : Value) :
    HasShape fun layout level => render layout level value := by
  induction value using Value.byParts with
  | null => exact ⟨"null".toList, fun layout level rest => rfl⟩
  | bool flag =>
    cases flag with
    | false => exact ⟨"false".toList, fun layout level rest => rfl⟩
    | true => exact ⟨"true".toList, fun layout level rest => rfl⟩
  | int number =>
    have sign : Condenses ['-'] ['-'] := fun rest => rfl
    refine ⟨(toString number).toList, fun layout level => ?_⟩
    simp only [render, toList_toString]
    split
    · exact condenses_toDigits _
    · exact sign.append (condenses_toDigits _)
  | text content => exact ⟨_, fun layout level => condenses_string content⟩
  | list items each =>
    cases items with
    | nil => exact ⟨"[]".toList, fun layout level rest => rfl⟩
    | cons item items =>
      rw [List.forall_mem_cons] at each
      obtain ⟨first, isFirst⟩ := each.1
      obtain ⟨others, areOthers⟩ := hasShape_renderItems each.2
      have opening : Condenses ['['] ['['] := fun rest => rfl
      have closing : Condenses [']'] [']'] := fun rest => rfl
      refine ⟨['['] ++ [] ++ first ++ others ++ [] ++ [']'], fun layout level => ?_⟩
      exact ((((opening.append (condenses_lineBreak layout (level + 1))).append
        (isFirst layout (level + 1))).append (areOthers layout (level + 1))).append
        (condenses_lineBreak layout level)).append closing
  | map entries each =>
    cases entries with
    | nil => exact ⟨"\x7b\x7d".toList, fun layout level rest => rfl⟩
    | cons entry entries =>
      rw [List.forall_mem_cons] at each
      obtain ⟨first, isFirst⟩ := hasShape_renderEntry each.1
      obtain ⟨others, areOthers⟩ := hasShape_renderEntries each.2
      have opening : Condenses ['{'] ['{'] := fun rest => rfl
      have closing : Condenses ['}'] ['}'] := fun rest => rfl
      refine ⟨['{'] ++ [] ++ first ++ others ++ [] ++ ['}'], fun layout level => ?_⟩
      exact ((((opening.append (condenses_lineBreak layout (level + 1))).append
        (isFirst layout (level + 1))).append (areOthers layout (level + 1))).append
        (condenses_lineBreak layout level)).append closing

/-- The texts of a value in all layouts are one without white space. -/
theorem dense_render (value : Value) (first second : Layout) (level other : Nat) :
    dense false (render first level value) = dense false (render second other value) := by
  obtain ⟨shape, isShape⟩ := hasShape_render value
  have firstShape := isShape first level []
  have secondShape := isShape second other []
  rw [List.append_nil] at firstShape secondShape
  rw [firstShape, secondShape]

/-! ## Lossless writing -/

/-- A value with distinct keys is written in ASCII and read back from its text in both
layouts, and the two texts are equal without the white space outside of strings. -/
theorem json_lossless (value : Value) (distinct : value.DistinctKeys) :
    (∀ pretty,
      Ascii (Output.json pretty value).toList ∧
      read (Output.json pretty value) = some value) ∧
    dense false (Output.json true value).toList =
      dense false (Output.json false value).toList := by
  refine ⟨fun pretty => ?_, ?_⟩
  · rw [Output.json, write, read, String.toList_ofList]
    refine ⟨ascii_render value _ 0, ?_⟩
    have whole := denotes_render distinct (if pretty then .pretty else .compact) 0 [] []
      (by simp [EndsNumber])
    rw [List.append_nil] at whole
    rw [whole, Reader.run]
    rfl
  · simp only [Output.json, write, String.toList_ofList]
    exact dense_render value _ _ 0 0

/-- Keys keep their order, and a character beyond sixteen bits is read from two escapes. -/
theorem nested_json_lossless :
    read "\x7b\"b\": [-10, [], null], \"a\": \"\\ud83d\\ude00\\n\"\x7d" =
      some (.map [("b", .list [.int (-10), .list [], .null]), ("a", .text "😀\n")]) := by
  have distinct : Value.DistinctKeys
      (.map [("b", .list [.int (-10), .list [], .null]), ("a", .text "😀\n")]) := by
    refine .map (by decide) (List.forall_mem_cons.2 ⟨.list ?_, ?_⟩)
    · simp only [List.forall_mem_cons]
      exact ⟨.int _, .list (List.forall_mem_nil _), .null, List.forall_mem_nil _⟩
    · exact List.forall_mem_singleton.2 (.text _)
  have written : Output.json false
      (.map [("b", .list [.int (-10), .list [], .null]), ("a", .text "😀\n")]) =
        "\x7b\"b\": [-10, [], null], \"a\": \"\\ud83d\\ude00\\n\"\x7d" := by
    decide +kernel
  rw [← written]
  exact ((json_lossless _ distinct).1 false).2

end Json
end ContractDoc
