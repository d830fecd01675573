import IrohRaft.Library.Text

/-!
# Lists whose entries carry a key

An entry is looked up by its key and updated where it stands; entries are retained or dropped one by one.
Updates that leave the keys alone leave the list of keys alone, so what was unique stays unique. What holds
of all the values of a hash map is kept by an update of one of them if it holds of the new value. An update
changes the number of entries by one at most, and a filter splits it.
-/

namespace Keyed

variable {α κ : Type}

/-- Update the first entry that matches, if there is one. -/
def updateFirst (found : α → Bool) (update : α → α) : List α → Option (List α)
  | [] => none
  | entry :: rest => if found entry then some (update entry :: rest) else (updateFirst found update rest).map (entry :: ·)

/-- Update the first entry that matches, or add a new one. -/
def upsert (found : α → Bool) (update : α → α) (entry : α) (entries : List α) : List α :=
  match updateFirst found update entries with
  | some entries => entries
  | none => entries ++ [entry]

/-- Keep the entries that pass, each asked once and in order. -/
def retain (keep : Nat → α → Bool) (entries : List α) : List α :=
  (entries.zipIdx.filter fun (entry, position) => keep position entry).map Prod.fst

variable {found : α → Bool} {update : α → α} {keep : Nat → α → Bool} {entries entries' : List α} {entry : α}

theorem map_of_updateFirst
    (key : α → κ) (h : updateFirst found update entries = some entries') (hkey : ∀ entry, key (update entry) = key entry) :
    entries'.map key = entries.map key := by
  induction entries generalizing entries' with
  | nil => exact nomatch h
  | cons entry rest ih =>
      rw [updateFirst] at h
      by_cases hfound : found entry = true
      · rw [if_pos hfound] at h
        obtain rfl := Option.some.inj h
        rw [List.map_cons, List.map_cons, hkey]
      · rw [if_neg hfound] at h
        obtain ⟨rest', hrest, rfl⟩ := Option.map_eq_some_iff.mp h
        rw [List.map_cons, List.map_cons, ih hrest]

theorem updateFirst_eq_none (h : updateFirst found update entries = none) : ∀ entry ∈ entries, found entry = false := by
  induction entries with
  | nil => exact fun _ hentry => nomatch hentry
  | cons entry rest ih =>
      rw [updateFirst] at h
      by_cases hfound : found entry = true
      · rw [if_pos hfound] at h
        exact nomatch h
      · rw [if_neg hfound] at h
        intro other hother
        obtain rfl | hrest := List.mem_cons.mp hother
        · simpa using hfound
        · exact ih (Option.map_eq_none_iff.mp h) other hrest

/-- What is found after an update is what was found before it, updated. -/
theorem find?_updateFirst (h : updateFirst found update entries = some entries')
    (hfound : ∀ entry, found (update entry) = found entry) :
    entries'.find? found = (entries.find? found).map update := by
  induction entries generalizing entries' with
  | nil => simp [updateFirst] at h
  | cons entry rest ih =>
      rw [updateFirst] at h
      by_cases hhere : found entry = true
      · rw [if_pos hhere] at h
        obtain rfl := Option.some.inj h
        rw [List.find?_cons_of_pos (by rw [hfound, hhere]), List.find?_cons_of_pos hhere, Option.map_some]
      · rw [if_neg hhere] at h
        obtain ⟨rest', hrest, rfl⟩ := Option.map_eq_some_iff.mp h
        rw [List.find?_cons_of_neg hhere, List.find?_cons_of_neg hhere, ih hrest]

/-- The keys stay as they are, or a new one joins them. -/
theorem map_upsert (key : α → κ) (hkey : ∀ entry, key (update entry) = key entry)
    (hfound : ∀ other, found other = false → key other ≠ key entry) (entries : List α) :
    (upsert found update entry entries).map key = entries.map key ∨
      key entry ∉ entries.map key ∧ (upsert found update entry entries).map key = entries.map key ++ [key entry] := by
  rw [upsert]
  split
  · next entries' hupdated => exact .inl (map_of_updateFirst key hupdated hkey)
  · next hnone =>
      refine .inr ⟨fun hmem => ?_, List.map_append⟩
      obtain ⟨other, hother, hsame⟩ := List.mem_map.mp hmem
      exact hfound other (updateFirst_eq_none hnone other hother) hsame

theorem retain_sublist (keep : Nat → α → Bool) (entries : List α) : (retain keep entries).Sublist entries := by
  have hsublist := (List.filter_sublist (p := fun (entry, position) => keep position entry) (l := entries.zipIdx)).map Prod.fst
  rwa [List.zipIdx_map_fst] at hsublist

theorem mem_retain : entry ∈ retain keep entries ↔ ∃ position, entries[position]? = some entry ∧ keep position entry = true := by
  simp [retain, List.mem_zipIdx_iff_getElem?]

end Keyed

namespace Rust.HashMap

open Std

variable {κ υ : Type} [Ord κ] [TransOrd κ] {map : HashMap κ υ} {holds : υ → Prop}

/-- The property holds of all the values. -/
def All (holds : υ → Prop) (map : HashMap κ υ) : Prop :=
  ∀ (key : κ) (value : υ), map[key]? = some value → holds value

theorem All.empty (holds : υ → Prop) : All holds (∅ : HashMap κ υ) := by
  intro key value hvalue
  simp at hvalue

theorem size_insert_if (key : κ) (value : υ) :
    (map.insert key value).size = if map[key]?.isNone then map.size + 1 else map.size := by
  rw [ExtTreeMap.size_insert, ExtTreeMap.contains_eq_isSome_getElem?]
  cases map[key]? <;> simp

theorem size_erase_add (key : κ) : (map.erase key).size + (if map[key]?.isSome then 1 else 0) = map.size := by
  rw [ExtTreeMap.size_erase, ExtTreeMap.contains_eq_isSome_getElem?]
  cases hvalue : map[key]? with
  | none => simp
  | some value =>
      have hne : map ≠ ∅ := by
        intro hempty
        rw [hempty] at hvalue
        simp at hvalue
      have hpos := mt ExtTreeMap.eq_empty_iff_size_eq_zero.mpr hne
      simp only [Option.isSome_some, if_true]
      omega

/-- What a filter keeps and what it drops. -/
theorem size_filter_add_size_filter_not (keep : κ → υ → Bool) :
    (map.filter keep).size + (map.filter fun key value => !keep key value).size = map.size := by
  rw [← ExtTreeMap.length_toList, ← ExtTreeMap.length_toList, ← ExtTreeMap.length_toList, ExtTreeMap.toList_filter,
    ExtTreeMap.toList_filter, ← List.countP_eq_length_filter, ← List.countP_eq_length_filter]
  simpa using (map.toList.length_eq_countP_add_countP fun entry => keep entry.1 entry.2).symm

variable [LawfulEqOrd κ]

theorem All.insert_iff (h : All holds map) (key : κ) (value : υ) : All holds (map.insert key value) ↔ holds value := by
  apply Iff.intro
  · intro hall
    exact hall key value ExtTreeMap.getElem?_insert_self
  · intro hvalue other there hthere
    by_cases hsame : key = other
    · subst hsame
      rw [ExtTreeMap.getElem?_insert_self] at hthere
      exact Option.some.inj hthere ▸ hvalue
    · rw [getElem?_insert_of_ne hsame] at hthere
      exact h other there hthere

theorem All.modify_iff (h : All holds map) (key : κ) (update : υ → υ) :
    All holds (map.modify key update) ↔ ∀ (value : υ), map[key]? = some value → holds (update value) := by
  apply Iff.intro
  · intro hall value hvalue
    refine hall key (update value) ?_
    rw [ExtTreeMap.getElem?_modify_self, hvalue]
    rfl
  · intro hupdate other there hthere
    rw [ExtTreeMap.getElem?_modify] at hthere
    by_cases hsame : compare key other = .eq
    · rw [if_pos hsame] at hthere
      obtain ⟨value, hvalue, rfl⟩ := Option.map_eq_some_iff.mp hthere
      obtain rfl := LawfulEqOrd.eq_of_compare hsame
      exact hupdate value hvalue
    · rw [if_neg hsame] at hthere
      exact h other there hthere

theorem All.map_iff (update : κ → υ → υ) :
    All holds (map.map update) ↔ ∀ (key : κ) (value : υ), map[key]? = some value → holds (update key value) := by
  apply Iff.intro
  · intro hall key value hvalue
    refine hall key (update key value) ?_
    rw [ExtTreeMap.getElem?_map, hvalue]
    rfl
  · intro hupdate key there hthere
    rw [ExtTreeMap.getElem?_map] at hthere
    obtain ⟨value, hvalue, rfl⟩ := Option.map_eq_some_iff.mp hthere
    exact hupdate key value hvalue

theorem mem_keys_filter {keep : κ → υ → Bool} {key : κ} :
    key ∈ (map.filter keep).keys ↔ ∃ value, map[key]? = some value ∧ keep key value = true := by
  rw [ExtTreeMap.mem_keys, ExtTreeMap.mem_iff_isSome_getElem?, ExtTreeMap.getElem?_filter']
  cases map[key]? <;> simp

end Rust.HashMap
