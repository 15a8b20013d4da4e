import ContractDoc.Entries
import Mathlib.Data.List.Induction

/-!
# Ordered maps under insertion

Inserting a new key appends an entry, and inserting a known key leaves the keys
as they are.  Updating a map by another one with distinct keys replaces the values
that both have.  A map that has only been appended to keeps the value of every key
it had.
-/

namespace ContractDoc
namespace Entries

variable {κ ν : Type} [DecidableEq κ]

/-- The value of a key after an insertion. -/
theorem get?_insert
    (key other : κ)
    (value : ν)
    (entries : Entries κ ν) :
    get? other (insert key value entries) =
      if other = key then some value else get? other entries := by
  by_cases same : other = key
  · subst same
    rw [get?_insert_self, if_pos rfl]
  · rw [get?_insert_of_ne same, if_neg same]

/-- Only entries of a map have values. -/
theorem mem_of_get?
    {key : κ}
    {value : ν}
    {entries : Entries κ ν}
    (found : get? key entries = some value) :
    (key, value) ∈ entries := by
  induction entries with
  | nil => simp [get?] at found
  | cons entry rest ih =>
      unfold get? at found
      split at found
      · rename_i same
        obtain rfl := Option.some.inj found
        exact same ▸ List.mem_cons_self
      · exact List.mem_cons_of_mem entry (ih found)

/-- The keys of a map are those that have a value. -/
theorem mem_keys_iff
    {key : κ}
    {entries : Entries κ ν} :
    key ∈ keys entries ↔ (get? key entries).isSome := by
  induction entries with
  | nil => simp [keys, get?]
  | cons entry rest ih =>
      by_cases same : entry.1 = key
      · simp [keys, get?, same]
      · have restKeys : key ∈ List.map Prod.fst rest ↔ (get? key rest).isSome := ih
        simp [keys, get?, same, Ne.symm same, ← restKeys]

/-- A new key is inserted at the end. -/
theorem insert_of_get?_eq_none
    {key : κ}
    (value : ν)
    {entries : Entries κ ν}
    (unknown : get? key entries = none) :
    insert key value entries = entries ++ [(key, value)] := by
  induction entries with
  | nil => rfl
  | cons entry rest ih =>
      unfold get? at unknown
      split at unknown
      · cases unknown
      · rename_i different
        simp [insert, different, ih unknown]

/-- The value that is inserted last replaces the one before. -/
theorem insert_insert
    (key : κ)
    (value last : ν)
    (entries : Entries κ ν) :
    insert key last (insert key value entries) = insert key last entries := by
  induction entries with
  | nil => simp [insert]
  | cons entry rest ih =>
      by_cases same : entry.1 = key <;> simp [insert, same, ih]

/-- A known key is inserted in its place. -/
theorem keys_insert_of_isSome
    {key : κ}
    (value : ν)
    {entries : Entries κ ν}
    (known : (get? key entries).isSome) :
    keys (insert key value entries) = keys entries := by
  induction entries with
  | nil => simp [get?] at known
  | cons entry rest ih =>
      by_cases same : entry.1 = key
      · simp [insert, keys, same]
      · have restKeys := ih (by simpa [get?, same] using known)
        simpa [insert, keys, same] using restKeys

/-- Inserting keeps the keys of a map distinct. -/
theorem nodup_keys_insert
    {key : κ}
    (value : ν)
    {entries : Entries κ ν}
    (distinct : (keys entries).Nodup) :
    (keys (insert key value entries)).Nodup := by
  cases unknown : get? key entries with
  | some found => rwa [keys_insert_of_isSome value (by rw [unknown]; rfl)]
  | none =>
      have absent : key ∉ keys entries := by
        rw [mem_keys_iff, unknown]
        exact Bool.false_ne_true
      have added : keys (insert key value entries) = keys entries ++ [key] := by
        rw [insert_of_get?_eq_none value unknown]
        simp [keys]
      rw [added, List.nodup_append]
      refine ⟨distinct, by simp, ?_⟩
      intro known member other otherMember
      rw [List.mem_singleton.mp otherMember]
      exact fun same => absent (same ▸ member)

/-- Updating keeps the keys of a map distinct. -/
theorem nodup_keys_update
    {base : Entries κ ν}
    (distinct : (keys base).Nodup)
    (changes : Entries κ ν) :
    (keys (update base changes)).Nodup := by
  induction changes generalizing base with
  | nil => exact distinct
  | cons change changes ih => exact ih (nodup_keys_insert change.2 distinct)

theorem nodup_keys_ofList (entries : List (κ × ν)) : (keys (ofList entries)).Nodup := by
  have nothing : (keys ([] : Entries κ ν)).Nodup := List.nodup_nil
  exact nodup_keys_update nothing entries

/-- Changes with new and distinct keys are put behind what is there. -/
theorem update_eq_append
    {base changes : Entries κ ν}
    (distinct : (keys (base ++ changes)).Nodup) :
    update base changes = base ++ changes := by
  induction changes generalizing base with
  | nil => exact (List.append_nil base).symm
  | cons entry rest ih =>
    have unknown : get? entry.1 base = none := by
      rw [← Option.not_isSome_iff_eq_none, ← mem_keys_iff]
      intro known
      rw [keys, List.map_append] at distinct
      exact (List.nodup_append.mp distinct).2.2 _ known _ List.mem_cons_self rfl
    change update (insert entry.1 entry.2 base) rest = base ++ entry :: rest
    rw [insert_of_get?_eq_none _ unknown, ih]
    · rw [List.append_assoc, List.singleton_append]
    · rwa [List.append_assoc]

/-- A list with distinct keys is a map as it is. -/
theorem ofList_eq_self {entries : List (κ × ν)} (distinct : (keys entries).Nodup) :
    ofList entries = entries :=
  update_eq_append distinct

/-- A change replaces what was there under its key, and all else stays. -/
theorem get?_update
    {changes : Entries κ ν}
    (distinct : (keys changes).Nodup)
    (base : Entries κ ν)
    (key : κ) :
    get? key (update base changes) = (get? key changes).or (get? key base) := by
  induction changes generalizing base with
  | nil => rfl
  | cons change changes ih =>
      obtain ⟨absent, distinctRest⟩ := List.nodup_cons.mp distinct
      have stepped : update base (change :: changes) =
          update (insert change.1 change.2 base) changes := rfl
      rw [stepped, ih distinctRest, get?_insert]
      by_cases same : change.1 = key
      · have unknown : get? key changes = none := by
          rw [← Option.not_isSome_iff_eq_none, ← mem_keys_iff, ← same]
          exact absent
        simp [get?, same, unknown]
      · simp [get?, same, Ne.symm same]

/-- The value of a key after each value has been replaced by its image. -/
theorem get?_map
    {μ : Type}
    (change : ν → μ)
    (entries : Entries κ ν)
    (key : κ) :
    get? key (List.map (fun entry => (entry.1, change entry.2)) entries : Entries κ μ) =
      (get? key entries).map change := by
  induction entries with
  | nil => rfl
  | cons entry rest ih =>
      by_cases same : entry.1 = key
      · simp [get?, same]
      · simpa [get?, same] using ih

/-- In a map with distinct keys every entry is found. -/
theorem get?_of_mem
    {entries : Entries κ ν}
    (distinct : (keys entries).Nodup)
    {key : κ}
    {value : ν}
    (member : (key, value) ∈ entries) :
    get? key entries = some value := by
  induction entries with
  | nil => cases member
  | cons entry rest ih =>
      obtain ⟨absent, distinctRest⟩ := List.nodup_cons.mp distinct
      rcases List.mem_cons.mp member with rfl | member
      · exact if_pos rfl
      · have different : entry.1 ≠ key := by
          rintro rfl
          exact absent (List.mem_map.mpr ⟨_, member, rfl⟩)
        simpa [get?, different] using ih distinctRest member

/-- If no key is given two values, all given entries are found, and no other ones. -/
theorem get?_ofList_eq_some_iff
    {entries : List (κ × ν)}
    (functional : ∀ key value other,
      (key, value) ∈ entries → (key, other) ∈ entries → value = other)
    {key : κ}
    {value : ν} :
    get? key (ofList entries) = some value ↔ (key, value) ∈ entries := by
  induction entries using List.reverseRecOn with
  | nil => exact ⟨nofun, nofun⟩
  | append_singleton entries entry ih =>
      have earlier := ih fun key value other member otherMember =>
        functional key value other (List.mem_append_left _ member)
          (List.mem_append_left _ otherMember)
      have inserted : ofList (entries ++ [entry]) = insert entry.1 entry.2 (ofList entries) := by
        simp [ofList, update]
      have last : (entry.1, entry.2) ∈ entries ++ [entry] := by simp
      rw [inserted, get?_insert]
      by_cases same : key = entry.1
      · subst same
        rw [if_pos rfl, Option.some.injEq]
        constructor
        · rintro rfl
          exact last
        · intro member
          exact functional _ _ _ last member
      · rw [if_neg same, earlier, List.mem_append, List.mem_singleton]
        constructor
        · exact .inl
        · rintro (member | rfl)
          · exact member
          · exact absurd rfl same

/-- The last of the given entries is inserted last. -/
theorem ofList_concat
    (entries : List (κ × ν))
    (entry : κ × ν) :
    ofList (entries ++ [entry]) = insert entry.1 entry.2 (ofList entries) := by
  simp [ofList, update]

/-- The keys of given entries stand in the order in which they occur first. -/
theorem keys_ofList (entries : List (κ × ν)) :
    keys (ofList entries) = (entries.map Prod.fst).eraseDups := by
  induction entries using List.reverseRecOn with
  | nil => rfl
  | append_singleton entries entry ih =>
      have known_iff : (get? entry.1 (ofList entries)).isSome = true ↔
          entry.1 ∈ entries.map Prod.fst := by
        rw [← mem_keys_iff, ih, List.mem_eraseDups]
      rw [ofList_concat, List.map_append, List.eraseDups_append, ← ih]
      by_cases known : entry.1 ∈ entries.map Prod.fst
      · rw [keys_insert_of_isSome _ (known_iff.mpr known)]
        simp [List.removeAll, List.mem_map.mp known]
      · have absent : get? entry.1 (ofList entries) = none := by
          rwa [← Option.not_isSome_iff_eq_none, known_iff]
        rw [insert_of_get?_eq_none _ absent]
        simp [keys, List.removeAll, known, List.eraseDups_cons]

/-- Of the values that are given for a key the last one stands. -/
theorem get?_ofList
    (entries : List (κ × ν))
    (key : κ) :
    get? key (ofList entries) =
      ((entries.filter (·.1 = key)).getLast?).map Prod.snd := by
  induction entries using List.reverseRecOn with
  | nil => rfl
  | append_singleton entries entry ih =>
      rw [ofList_concat, get?_insert, List.filter_append]
      by_cases same : key = entry.1
      · simp [same]
      · simp [same, Ne.symm same, ih]

/-- A map that has been appended to keeps its values. -/
theorem get?_of_grown
    {key : κ}
    {value : ν}
    {before after : Entries κ ν}
    (grown : before <+: after)
    (found : get? key before = some value) :
    get? key after = some value := by
  obtain ⟨added, rfl⟩ := grown
  induction before with
  | nil => simp [get?] at found
  | cons entry rest ih =>
      by_cases same : entry.1 = key
      · simpa [get?, same] using found
      · simp only [get?, same, if_false] at found
        simpa [get?, same] using ih found

end Entries
end ContractDoc
