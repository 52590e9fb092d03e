import JvmSymbols.OneToOne

/-! What an insertion leaves behind, and tables that differ in the order of their pairs only. -/
namespace JvmSymbols
namespace OneToOne

variable {α β : Type} {s t u : OneToOne α β}

theorem eq_of_pairs_eq (h : s.pairs = t.pairs) : s = t := by
  cases s
  cases t
  cases h
  rfl

/-- An insertion succeeds exactly if some table has the pair in front of the old ones. -/
theorem insert_eq_ok_iff [DecidableEq α] [DecidableEq β] {a : α} {b : β} :
    t.insert a b = .ok u ↔ u.pairs = (a, b) :: t.pairs := by
  constructor
  · intro h
    unfold insert at h
    split at h
    · cases h
    · split at h
      · cases h
      · cases h
        rfl
  · intro h
    have hk := u.keys_nodup
    have hv := u.values_nodup
    rw [h, List.map_cons, List.nodup_cons] at hk hv
    rw [insert, dif_neg hk.1, dif_neg hv.1]
    exact congrArg Except.ok (eq_of_pairs_eq h.symm)

theorem exists_pairs_eq {xs ys : List (α × β)} (h : t.pairs = xs ++ ys) :
    ∃ u : OneToOne α β, u.pairs = ys := by
  have hk := t.keys_nodup
  have hv := t.values_nodup
  rw [h, List.map_append, List.nodup_append] at hk hv
  exact ⟨⟨ys, hk.2.1, hv.2.1⟩, rfl⟩

theorem exists_pairs_perm {xs : List (α × β)} (h : xs.Perm t.pairs) :
    ∃ u : OneToOne α β, u.pairs = xs :=
  ⟨⟨xs, (h.map Prod.fst).nodup_iff.2 t.keys_nodup, (h.map Prod.snd).nodup_iff.2 t.values_nodup⟩, rfl⟩

theorem get?_eq_none_iff [DecidableEq α] {a : α} : t.get? a = none ↔ ¬ ∃ b, (a, b) ∈ t.pairs := by
  simp only [← get?_eq_some_iff]
  cases t.get? a <;> simp

theorem keyOf?_eq_none_iff [DecidableEq β] {b : β} : t.keyOf? b = none ↔ ¬ ∃ a, (a, b) ∈ t.pairs := by
  simp only [keyOf?_eq_get?_swap, get?_eq_none_iff, mem_pairs_swap]

theorem get?_eq_of_perm [DecidableEq α] (h : s.pairs.Perm t.pairs) (a : α) : s.get? a = t.get? a := by
  ext b
  rw [get?_eq_some_iff, get?_eq_some_iff]
  exact h.mem_iff

theorem keyOf?_eq_of_perm [DecidableEq β] (h : s.pairs.Perm t.pairs) (b : β) :
    s.keyOf? b = t.keyOf? b := by
  ext a
  rw [keyOf?_eq_some_iff, keyOf?_eq_some_iff]
  exact h.mem_iff

/-- A list of pairs is a table exactly if any two of its pairs differ on both sides. -/
theorem exists_pairs_eq_iff {xs : List (α × β)} :
    (∃ u : OneToOne α β, u.pairs = xs) ↔ xs.Pairwise (fun p q => p.1 ≠ q.1 ∧ p.2 ≠ q.2) := by
  rw [List.pairwise_and_iff, ← List.pairwise_map (f := Prod.fst) (R := (· ≠ ·)),
    ← List.pairwise_map (f := Prod.snd) (R := (· ≠ ·))]
  constructor
  · rintro ⟨u, rfl⟩
    exact ⟨u.keys_nodup, u.values_nodup⟩
  · rintro ⟨hk, hv⟩
    exact ⟨⟨xs, hk, hv⟩, rfl⟩

theorem exists_pairs_eq_reverse_iff {xs : List (α × β)} :
    (∃ u : OneToOne α β, u.pairs = xs.reverse) ↔
      xs.Pairwise (fun p q => p.1 ≠ q.1 ∧ p.2 ≠ q.2) := by
  rw [exists_pairs_eq_iff, List.pairwise_reverse]
  exact ⟨fun h => h.imp fun hpq => ⟨hpq.1.symm, hpq.2.symm⟩,
    fun h => h.imp fun hpq => ⟨hpq.1.symm, hpq.2.symm⟩⟩

end OneToOne
end JvmSymbols
