import IrohRaft.Library.Bytes

/-!
# Key-ordered tables

A redb table maps keys to byte strings and is iterated in key order. It is the standard library's
ordered map, which two tables with the same lookups are equal in; this module adds the operations a
store is written with: the first and last key of `range(..)`, the keys of a range collected into a
list, and a list of keys removed one after another.
-/

namespace Redb

open Rust Std

variable {κ : Type} [Ord κ]

/-- A table: its keys in order, and the bytes stored under each. -/
abbrev Table (κ : Type) [Ord κ] := ExtTreeMap κ Bytes compare

namespace Table

variable [TransOrd κ]

/-- `table.range(..).next()`. -/
def first? (table : Table κ) : Option κ := table.keys.head?

/-- `table.range(..).next_back()`. -/
def last? (table : Table κ) : Option κ := table.keys.getLast?

/-- The keys of a range, collected in order. -/
def keysIn (table : Table κ) (inRange : κ → Bool) : List κ := table.keys.filter inRange

/-- `for key in keys { table.remove(key) }`. -/
def removeAll (table : Table κ) (keys : List κ) : Table κ :=
  keys.foldl (fun rest key => rest.erase key) table

/-- `for item in items { table.insert(key(item), value(item)) }`. -/
def insertAll {ι : Type} (key : ι → κ) (value : ι → Bytes) (table : Table κ) (items : List ι) : Table κ :=
  items.foldl (fun rest item => rest.insert (key item) (value item)) table

theorem getElem?_insert_self (table : Table κ) (key : κ) (value : Bytes) :
    (table.insert key value)[key]? = some value :=
  ExtTreeMap.getElem?_insert_self

theorem mem_iff_getElem? {table : Table κ} {key : κ} : key ∈ table ↔ ∃ value, table[key]? = some value := by
  rw [ExtTreeMap.mem_iff_isSome_getElem?, Option.isSome_iff_exists]

theorem not_mem_iff_getElem? {table : Table κ} {key : κ} : key ∉ table ↔ table[key]? = none := by
  rw [ExtTreeMap.mem_iff_isSome_getElem?, Bool.not_eq_true, Option.isSome_eq_false_iff, Option.isNone_iff_eq_none]

/-! ### First and last key -/

theorem first?_eq_none_iff {table : Table κ} : table.first? = none ↔ ∀ key, key ∉ table := by
  rw [first?, ← ExtTreeMap.minKey?_eq_head?_keys, ExtTreeMap.minKey?_eq_none_iff,
    ExtTreeMap.eq_empty_iff_forall_not_mem]

theorem last?_eq_none_iff {table : Table κ} : table.last? = none ↔ ∀ key, key ∉ table := by
  rw [last?, ← ExtTreeMap.maxKey?_eq_getLast?_keys, ExtTreeMap.maxKey?_eq_none_iff,
    ExtTreeMap.eq_empty_iff_forall_not_mem]

section Order

variable [LawfulEqOrd κ] [LE κ] [LawfulOrderOrd κ]

theorem first?_eq_some_iff {table : Table κ} {key : κ} :
    table.first? = some key ↔ key ∈ table ∧ ∀ other ∈ table, key ≤ other := by
  rw [first?, ← ExtTreeMap.minKey?_eq_head?_keys, ExtTreeMap.minKey?_eq_some_iff_mem_and_forall]
  simp only [LawfulOrderOrd.isLE_compare]

theorem last?_eq_some_iff {table : Table κ} {key : κ} :
    table.last? = some key ↔ key ∈ table ∧ ∀ other ∈ table, other ≤ key := by
  rw [last?, ← ExtTreeMap.maxKey?_eq_getLast?_keys, ExtTreeMap.maxKey?_eq_some_iff_mem_and_forall]
  simp only [LawfulOrderOrd.isLE_compare]

end Order

variable [LawfulEqOrd κ]

theorem getElem?_insert_of_ne {table : Table κ} {key other : κ} {value : Bytes} (hne : key ≠ other) :
    (table.insert key value)[other]? = table[other]? := by
  rw [ExtTreeMap.getElem?_insert, if_neg (fun heq => hne (Std.compare_eq_iff_eq.mp heq))]

/-! ### Ranges removed -/

theorem mem_keysIn {table : Table κ} {inRange : κ → Bool} {key : κ} :
    key ∈ table.keysIn inRange ↔ key ∈ table ∧ inRange key = true := by
  rw [keysIn, List.mem_filter, ExtTreeMap.mem_keys]

theorem getElem?_removeAll (table : Table κ) (keys : List κ) (key : κ) [DecidableEq κ] :
    (table.removeAll keys)[key]? = if key ∈ keys then none else table[key]? := by
  induction keys generalizing table with
  | nil => simp [removeAll]
  | cons head tail ih =>
      have hstep : table.removeAll (head :: tail) = removeAll (table.erase head) tail := rfl
      rw [hstep, ih, ExtTreeMap.getElem?_erase]
      by_cases htail : key ∈ tail
      · simp [htail]
      · by_cases hhead : key = head
        · subst hhead
          simp
        · have hcompare : compare head key ≠ .eq := fun heq => hhead (Std.compare_eq_iff_eq.mp heq).symm
          simp [htail, hhead, hcompare]

/-- Removing the keys of a range leaves exactly what lies outside it. -/
theorem getElem?_removeAll_keysIn (table : Table κ) (inRange : κ → Bool) (key : κ) :
    (table.removeAll (table.keysIn inRange))[key]? = if inRange key then none else table[key]? := by
  classical
  rw [getElem?_removeAll]
  by_cases hmem : key ∈ table
  · simp only [mem_keysIn, hmem, true_and]
  · rw [not_mem_iff_getElem?.mp hmem]
    simp only [ite_self]

theorem mem_removeAll_keysIn {table : Table κ} {inRange : κ → Bool} {key : κ} :
    key ∈ table.removeAll (table.keysIn inRange) ↔ key ∈ table ∧ inRange key = false := by
  rw [mem_iff_getElem?, mem_iff_getElem?, getElem?_removeAll_keysIn]
  cases inRange key <;> simp

/-! ### Lists inserted -/

section InsertAll

variable {ι : Type} (key : ι → κ) (value : ι → Bytes)

omit [LawfulEqOrd κ] in
theorem insertAll_cons (table : Table κ) (head : ι) (tail : List ι) :
    insertAll key value table (head :: tail) = insertAll key value (table.insert (key head) (value head)) tail :=
  rfl

/-- A key no item has keeps what was stored under it. -/
theorem getElem?_insertAll_of_not_mem (table : Table κ) (items : List ι) {target : κ}
    (hnot : ∀ item ∈ items, key item ≠ target) : (insertAll key value table items)[target]? = table[target]? := by
  induction items generalizing table with
  | nil => rfl
  | cons head tail ih =>
      rw [insertAll_cons, ih _ (fun item hitem => hnot item (List.mem_cons_of_mem _ hitem)),
        getElem?_insert_of_ne (hnot head List.mem_cons_self)]

/-- Items with distinct keys are all there afterwards. -/
theorem getElem?_insertAll_of_mem (table : Table κ) {items : List ι}
    (hdistinct : items.Pairwise fun a b => key a ≠ key b) {item : ι} (hitem : item ∈ items) :
    (insertAll key value table items)[key item]? = some (value item) := by
  induction items generalizing table with
  | nil => cases hitem
  | cons head tail ih =>
      obtain ⟨hhead, htail⟩ := List.pairwise_cons.mp hdistinct
      rw [insertAll_cons]
      rcases List.mem_cons.mp hitem with rfl | hmem
      · rw [getElem?_insertAll_of_not_mem key value _ tail (fun other hother => (hhead other hother).symm),
          getElem?_insert_self]
      · exact ih _ htail hmem

/-- The keys afterwards are the keys before and the keys of the items. -/
theorem mem_insertAll (table : Table κ) (items : List ι) {target : κ} :
    target ∈ insertAll key value table items ↔ target ∈ table ∨ ∃ item ∈ items, key item = target := by
  induction items generalizing table with
  | nil => simp [insertAll]
  | cons head tail ih =>
      rw [insertAll_cons, ih, ExtTreeMap.mem_insert, Std.compare_eq_iff_eq]
      simp only [List.mem_cons, exists_eq_or_imp]
      tauto

end InsertAll

end Table

end Redb
