import IrohRaft.Storage.Ops

/-!
# Contiguous batches

A contiguous batch covers exactly the indices from its first entry's to its last entry's.
-/

namespace IrohRaft

variable {entry : Entry} {entries rest : List Entry}

theorem contiguous_cons_cons {next : Entry} :
    Contiguous (entry :: next :: rest) ↔ next.index.toNat = entry.index.toNat + 1 ∧ Contiguous (next :: rest) :=
  List.isChain_cons_cons

theorem Contiguous.exists_index_iff (h : Contiguous (entry :: rest)) (n : Nat) :
    (∃ e ∈ entry :: rest, e.index.toNat = n) ↔ entry.index.toNat ≤ n ∧ n ≤ entry.index.toNat + rest.length := by
  induction rest generalizing entry with
  | nil =>
      simp only [List.mem_singleton, exists_eq_left, List.length_nil]
      omega
  | cons next rest ih =>
      obtain ⟨hnext, htail⟩ := contiguous_cons_cons.mp h
      have hrest := ih htail
      rw [List.length_cons]
      apply Iff.intro
      · intro hexists
        obtain ⟨e, hmem, heq⟩ := hexists
        rcases List.mem_cons.mp hmem with rfl | htailMem
        · omega
        · have hbounds := hrest.mp ⟨e, htailMem, heq⟩
          omega
      · intro hbounds
        by_cases heq : entry.index.toNat = n
        · exact ⟨entry, List.mem_cons_self, heq⟩
        · obtain ⟨e, hmem, hindex⟩ := hrest.mpr ⟨by omega, by omega⟩
          exact ⟨e, List.mem_cons_of_mem _ hmem, hindex⟩

theorem Contiguous.index_getLast (h : Contiguous (entry :: rest)) :
    ((entry :: rest).getLast (List.cons_ne_nil entry rest)).index.toNat = entry.index.toNat + rest.length := by
  induction rest generalizing entry with
  | nil => rfl
  | cons next rest ih =>
      obtain ⟨hnext, htail⟩ := contiguous_cons_cons.mp h
      rw [List.getLast_cons (List.cons_ne_nil next rest), ih htail, List.length_cons]
      omega

theorem Contiguous.pairwise (h : Contiguous entries) :
    entries.Pairwise fun a b => a.index.toNat < b.index.toNat := by
  induction entries with
  | nil => exact List.Pairwise.nil
  | cons entry rest ih =>
      cases rest with
      | nil => exact List.pairwise_singleton _ _
      | cons next rest =>
          obtain ⟨hnext, htail⟩ := contiguous_cons_cons.mp h
          apply List.Pairwise.cons _ (ih htail)
          intro e hmem
          have hbounds := (htail.exists_index_iff e.index.toNat).mp ⟨e, hmem, rfl⟩
          omega

end IrohRaft
