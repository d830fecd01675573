import IrohRaft.Library.Table
import IrohRaft.Library.Text

/-!
# Named tables

A redb database finds its tables by name and creates the one a write transaction opens; reading a
table that was never written finds none. The handle of a table says what its keys are.
-/

namespace Redb

open Rust Std

variable {κ : Type} [Ord κ]

namespace Table

variable [TransOrd κ]

/-- What `table.iter()` visits. -/
def pairs (table : Table κ) : List (κ × Bytes) := table.toList

/-- The pairs inserted one after another. -/
def ofPairs (pairs : List (κ × Bytes)) : Table κ := insertAll Prod.fst Prod.snd ∅ pairs

variable [LawfulEqOrd κ]

theorem removeAll_keys (table : Table κ) : table.removeAll table.keys = ∅ := by
  classical
  apply ExtTreeMap.ext_getElem?
  intro key
  rw [getElem?_removeAll, ExtTreeMap.getElem?_empty]
  by_cases hmem : key ∈ table
  · rw [if_pos (ExtTreeMap.mem_keys.mpr hmem)]
  · rw [if_neg (fun h => hmem (ExtTreeMap.mem_keys.mp h)), not_mem_iff_getElem?.mp hmem]

/-- A table is determined by the pairs that are iterated over. -/
theorem ofPairs_pairs (table : Table κ) : ofPairs table.pairs = table := by
  apply ExtTreeMap.ext_getElem?
  intro key
  cases hvalue : table[key]? with
  | some value =>
      have hmem : (key, value) ∈ table.pairs := ExtTreeMap.mem_toList_iff_getElem?_eq_some.mpr hvalue
      have hdistinct : table.pairs.Pairwise fun a b => a.1 ≠ b.1 :=
        List.Pairwise.imp (fun {_ _} hne heq => hne (Std.compare_eq_iff_eq.mpr heq)) table.distinct_keys_toList
      exact getElem?_insertAll_of_mem Prod.fst Prod.snd ∅ hdistinct hmem
  | none =>
      rw [ofPairs, getElem?_insertAll_of_not_mem, ExtTreeMap.getElem?_empty]
      intro pair hpair heq
      have hsome : table[pair.1]? = some pair.2 := ExtTreeMap.mem_toList_iff_getElem?_eq_some.mp hpair
      rw [heq, hvalue] at hsome
      simp at hsome

end Table

/-- `TableDefinition<K, &[u8]>`. -/
structure TableDefinition (κ : Type) where
  name : String
  deriving DecidableEq

/-- The tables with one type of key, by name. -/
abbrev Tables (κ : Type) [Ord κ] := ExtTreeMap String (Table κ) compare

namespace Tables

/-- `write_txn.open_table(definition)`. -/
def openTable (tables : Tables κ) (definition : TableDefinition κ) : Table κ := tables[definition.name]?.getD ∅

/-- Leave a table as the transaction made it. -/
def put (tables : Tables κ) (definition : TableDefinition κ) (table : Table κ) : Tables κ :=
  tables.insert definition.name table

variable {tables : Tables κ} {definition other : TableDefinition κ}

@[simp] theorem openTable_put_self (table : Table κ) : (tables.put definition table).openTable definition = table := by
  simp [openTable, put]

theorem getElem?_put_of_ne {name : String} (hne : definition.name ≠ name) (table : Table κ) :
    (tables.put definition table)[name]? = tables[name]? := by
  rw [put, ExtTreeMap.getElem?_insert, if_neg fun heq => hne (Std.compare_eq_iff_eq.mp heq)]

theorem openTable_put_of_ne (hne : definition.name ≠ other.name) (table : Table κ) :
    (tables.put definition table).openTable other = tables.openTable other := by
  rw [openTable, getElem?_put_of_ne hne, openTable]

/-! ### Records -/

variable [TransOrd κ]

/-- `table.get(key)`, where the table was created. -/
def get? (tables : Tables κ) (definition : TableDefinition κ) (key : κ) : Option Bytes :=
  tables[definition.name]?.bind fun table => table[key]?

/-- `open_table(definition)` and `table.insert(key, value)`. -/
def insertInto (tables : Tables κ) (definition : TableDefinition κ) (key : κ) (value : Bytes) : Tables κ :=
  tables.put definition ((tables.openTable definition).insert key value)

/-- Remove all keys of a table and insert the given pairs. -/
def refill (tables : Tables κ) (definition : TableDefinition κ) (data : List (κ × Bytes)) : Tables κ :=
  let table := tables.openTable definition
  let keysToRemove := table.keys
  tables.put definition (Table.insertAll Prod.fst Prod.snd (table.removeAll keysToRemove) data)

theorem get?_eq (key : κ) : tables.get? definition key = (tables.openTable definition)[key]? := by
  rw [get?, openTable]
  cases tables[definition.name]? <;> simp

@[simp] theorem get?_insertInto_self (key : κ) (value : Bytes) :
    (tables.insertInto definition key value).get? definition key = some value := by
  rw [get?_eq, insertInto, openTable_put_self, Table.getElem?_insert_self]

theorem get?_insertInto_of_ne (hne : definition.name ≠ other.name) (key key' : κ) (value : Bytes) :
    (tables.insertInto definition key value).get? other key' = tables.get? other key' := by
  rw [get?_eq, get?_eq, insertInto, openTable_put_of_ne hne]

theorem refill_eq [LawfulEqOrd κ] (data : List (κ × Bytes)) :
    tables.refill definition data = tables.put definition (.ofPairs data) := by
  simp only [refill, Table.removeAll_keys, Table.ofPairs]

/-! ### Several tables refilled -/

/-- One table after another. -/
def refillAll (tables : Tables κ) (contents : List (TableDefinition κ × List (κ × Bytes))) : Tables κ :=
  contents.foldl (fun rest content => rest.refill content.1 content.2) tables

section RefillAll

variable [LawfulEqOrd κ] {contents : List (TableDefinition κ × List (κ × Bytes))} {name : String}

omit [LawfulEqOrd κ] in
theorem refillAll_cons (content : TableDefinition κ × List (κ × Bytes)) :
    tables.refillAll (content :: contents) = (tables.refill content.1 content.2).refillAll contents := rfl

/-- A table not among them stays as it is. -/
theorem getElem?_refillAll_of_not_mem (h : name ∉ contents.map fun content => content.1.name) :
    (tables.refillAll contents)[name]? = tables[name]? := by
  induction contents generalizing tables with
  | nil => rfl
  | cons content rest ih =>
      rw [List.map_cons, List.mem_cons, not_or] at h
      rw [refillAll_cons, ih h.2, refill_eq, getElem?_put_of_ne (Ne.symm h.1)]

/-- One of them does not depend on what was there. -/
theorem getElem?_refillAll_of_mem (h : name ∈ contents.map fun content => content.1.name) (tables' : Tables κ) :
    (tables.refillAll contents)[name]? = (tables'.refillAll contents)[name]? := by
  induction contents generalizing tables tables' with
  | nil => simp at h
  | cons content rest ih =>
      rw [refillAll_cons, refillAll_cons]
      by_cases hrest : name ∈ rest.map fun content => content.1.name
      · exact ih hrest _
      · obtain rfl : name = content.1.name := (List.mem_cons.mp h).resolve_right hrest
        rw [getElem?_refillAll_of_not_mem hrest, getElem?_refillAll_of_not_mem hrest, refill_eq, refill_eq, put, put,
          ExtTreeMap.getElem?_insert_self, ExtTreeMap.getElem?_insert_self]

/-- Where they have different names, each holds its own pairs afterwards. -/
theorem openTable_refillAll (tables : Tables κ) (h : (contents.map fun content => content.1.name).Nodup)
    {content : TableDefinition κ × List (κ × Bytes)} (hmem : content ∈ contents) :
    (tables.refillAll contents).openTable content.1 = .ofPairs content.2 := by
  induction contents generalizing tables with
  | nil => simp at hmem
  | cons head rest ih =>
      rw [List.map_cons, List.nodup_cons] at h
      rw [refillAll_cons]
      obtain rfl | hrest := List.mem_cons.mp hmem
      · rw [openTable, getElem?_refillAll_of_not_mem h.1, refill_eq]
        exact openTable_put_self _
      · exact ih _ h.2 hrest

/-- So doing it again changes nothing, whatever was done to other tables in between. -/
theorem refillAll_eq_self (h : ∀ name, name ∈ contents.map (fun content => content.1.name) →
      ∃ before : Tables κ, tables[name]? = (before.refillAll contents)[name]?) : tables.refillAll contents = tables := by
  apply ExtTreeMap.ext_getElem?
  intro name
  by_cases hmem : name ∈ contents.map fun content => content.1.name
  · obtain ⟨before, hbefore⟩ := h name hmem
    rw [hbefore]
    exact getElem?_refillAll_of_mem hmem before
  · exact getElem?_refillAll_of_not_mem hmem

end RefillAll

end Tables

/-- The tables of a database, by the type of their keys. -/
structure Database where
  stringTables : Tables Str := ∅
  bytesTables : Tables Bytes := ∅
  u64Tables : Tables UInt64 := ∅

end Redb
