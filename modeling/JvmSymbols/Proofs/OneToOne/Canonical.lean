import JvmSymbols.Mapping.Writer
import JvmSymbols.Proofs.OneToOne
import JvmSymbols.Proofs.Sorting
import Mathlib.Data.List.Nodup
import Mathlib.Data.List.Perm.Subperm

/-! Tables that hold the same pairs. They count as equal, and sorted they are the same list. -/
namespace JvmSymbols
namespace OneToOne

variable {α β : Type} {s t : OneToOne α β}

theorem nodup_pairs (t : OneToOne α β) : t.pairs.Nodup := List.Nodup.of_map Prod.fst t.keys_nodup

theorem perm_iff_mem : s.pairs.Perm t.pairs ↔ ∀ a b, (a, b) ∈ s.pairs ↔ (a, b) ∈ t.pairs := by
  rw [List.perm_ext_iff_of_nodup s.nodup_pairs t.nodup_pairs, Prod.forall]

/-- The comparison looks the pairs of one table up in the other. Between tables of one size that finds the
same pairs in both. -/
theorem beq_iff_perm [DecidableEq α] [DecidableEq β] : (s == t) = true ↔ s.pairs.Perm t.pairs := by
  have hbeq : (s == t) = true ↔ s.size = t.size ∧ ∀ p ∈ s.pairs, t.get? p.1 = some p.2 := by
    simp [BEq.beq]
  rw [hbeq]
  constructor
  · rintro ⟨hsize, hpairs⟩
    have hsubset : s.pairs ⊆ t.pairs := fun p hp => get?_eq_some_iff.1 (hpairs p hp)
    have hsubperm := List.subperm_of_subset s.nodup_pairs hsubset
    exact hsubperm.perm_of_length_le (Nat.le_of_eq hsize.symm)
  · intro hperm
    exact ⟨hperm.length_eq, fun p hp => get?_eq_some_iff.2 (hperm.mem_iff.1 hp)⟩

section Sorted

variable [Ord α]

theorem perm_sorted (t : OneToOne α β) : t.sorted.Perm t.pairs := List.mergeSort_perm _ _

theorem pairwise_sorted [Std.TransOrd α] (t : OneToOne α β) :
    t.sorted.Pairwise fun p q => (compare p.1 q.1).isLE = true :=
  pairwise_mergeSort_on Prod.fst t.pairs

theorem pairwise_sorted_lt [Std.TransOrd α] [Std.LawfulEqOrd α] (t : OneToOne α β) :
    t.sorted.Pairwise fun p q => compare p.1 q.1 = .lt := by
  have hkeys : (t.sorted.map Prod.fst).Nodup := (t.perm_sorted.map Prod.fst).nodup_iff.2 t.keys_nodup
  have hdistinct : t.sorted.Pairwise fun p q => p.1 ≠ q.1 := List.pairwise_map.1 hkeys
  refine (t.pairwise_sorted.and hdistinct).imp ?_
  rintro p q ⟨hle, hne⟩
  exact compare_eq_lt_of_ne hle hne

/-- No two pairs of a table have the same key, so there is one way to sort them. -/
theorem sorted_eq_of_perm [Std.TransOrd α] [Std.LawfulEqOrd α] (h : s.pairs.Perm t.pairs) :
    s.sorted = t.sorted := by
  have hperm : s.sorted.Perm t.sorted := (s.perm_sorted.trans h).trans t.perm_sorted.symm
  refine hperm.eq_of_pairwise ?_ s.pairwise_sorted t.pairwise_sorted
  rintro ⟨a, b⟩ ⟨a', b'⟩ hp hq hle hge
  have hkey : a = a' := Std.LawfulEqOrd.eq_of_compare (Std.OrientedCmp.isLE_antisymm hle hge)
  subst hkey
  have hpair : (a, b) ∈ t.pairs := h.mem_iff.1 (s.perm_sorted.mem_iff.1 hp)
  have hpair' : (a, b') ∈ t.pairs := t.perm_sorted.mem_iff.1 hq
  rw [value_unique hpair hpair']

end Sorted

end OneToOne
end JvmSymbols
