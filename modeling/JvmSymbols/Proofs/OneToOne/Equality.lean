import JvmSymbols.Proofs.OneToOne.Building
import JvmSymbols.Proofs.OneToOne.Canonical

/-! When builders count as equal. The comparison looks in one direction only. After runs from the empty
builder it decides as much as all look-ups in either direction do, and it does not see in which order
pairs that were all taken have come. -/
namespace JvmSymbols
namespace OneToOne

variable {α β : Type}

section Tables

variable {s t : OneToOne α β}

theorem perm_iff_get? [DecidableEq α] : s.pairs.Perm t.pairs ↔ ∀ a, s.get? a = t.get? a := by
  constructor
  · intro hperm a
    exact get?_eq_of_perm hperm a
  · intro hget
    refine perm_iff_mem.2 fun a b => ?_
    rw [← get?_eq_some_iff, ← get?_eq_some_iff, hget a]

theorem perm_iff_keyOf? [DecidableEq β] : s.pairs.Perm t.pairs ↔ ∀ b, s.keyOf? b = t.keyOf? b := by
  constructor
  · intro hperm b
    exact keyOf?_eq_of_perm hperm b
  · intro hkeyOf
    refine perm_iff_mem.2 fun a b => ?_
    rw [← keyOf?_eq_some_iff, ← keyOf?_eq_some_iff, hkeyOf b]

end Tables

namespace Builder

variable [DecidableEq α] [DecidableEq β]

theorem ofTable_beq_iff (s t : OneToOne α β) :
    (ofTable s == ofTable t) = true ↔ s.pairs.Perm t.pairs := by
  change (s == t) = true ↔ s.pairs.Perm t.pairs
  exact beq_iff_perm

/-- Insertions into the readings of a table succeed throughout exactly if all pairs together are a
table. -/
theorem forall_ok_iff (t : OneToOne α β) (ps : List (α × β)) :
    (∀ outcome ∈ ((ofTable t).run ps).1, outcome = .ok ()) ↔
      ∃ u : OneToOne α β, u.pairs = ps.reverse ++ t.pairs := by
  induction ps generalizing t with
  | nil => exact ⟨fun _ => ⟨t, rfl⟩, fun _ _ h => absurd h List.not_mem_nil⟩
  | cons p ps ih =>
    obtain ⟨a, b⟩ := p
    have hstep := insert_ofTable t a b
    rw [run_cons, List.reverse_cons, List.append_assoc, List.singleton_append]
    cases hinsert : t.insert a b with
    | ok t' =>
      rw [hinsert] at hstep
      rw [hstep, List.forall_mem_cons, and_iff_right rfl, ih, insert_eq_ok_iff.1 hinsert]
    | error clash =>
      rw [hinsert] at hstep
      rw [hstep, List.forall_mem_cons]
      constructor
      · rintro ⟨h, _⟩
        cases h
      · rintro ⟨u, hu⟩
        obtain ⟨v, hv⟩ := exists_pairs_eq hu
        cases hinsert.symm.trans (insert_eq_ok_iff.2 hv)

theorem accepted_of_forall_ok {c : Builder α β} {ps : List (α × β)}
    (h : ∀ outcome ∈ (c.run ps).1, outcome = .ok ()) : c.accepted ps = ps := by
  induction ps generalizing c with
  | nil => rfl
  | cons p ps ih =>
    rw [run_cons, List.forall_mem_cons] at h
    obtain ⟨hfirst, hrest⟩ := h
    have htaken : (c.insert p.1 p.2).1.isOk := by rw [hfirst]; rfl
    rw [accepted_cons, if_pos htaken, ih hrest]

theorem forall_ok_of_perm {ps qs : List (α × β)} (hperm : ps.Perm qs)
    (h : ∀ outcome ∈ (empty.run ps).1, outcome = .ok ()) :
    ∀ outcome ∈ (empty.run qs).1, outcome = .ok () := by
  rw [← ofTable_empty, forall_ok_iff] at h ⊢
  obtain ⟨u, hu⟩ := h
  refine exists_pairs_perm (t := u) ?_
  rw [hu]
  exact (List.reverse_perm'.2 (List.perm_reverse.2 hperm.symm)).append_right _

/-- Two runs from the empty builder, with whatever they refuse on the way, end in equal builders exactly
if no look-up tells the builders apart, in one direction or in the other. Where all pairs of a run are
taken, they are taken in every other order too, and the builders are equal. -/
theorem after_beq_iff (ps qs : List (α × β)) :
    ((after ps == after qs) = true ↔ ∀ a, (after ps).get? a = (after qs).get? a) ∧
    ((after ps == after qs) = true ↔ ∀ b, (after ps).keyOf? b = (after qs).keyOf? b) ∧
    (∀ b, (after ps).keyOf? b ≠ (after qs).keyOf? b → (after ps == after qs) = false) ∧
    ((∀ outcome ∈ (empty.run ps).1, outcome = .ok ()) → ps.Perm qs →
      (∀ outcome ∈ (empty.run qs).1, outcome = .ok ()) ∧ (after ps == after qs) = true) := by
  obtain ⟨s, hs, hspairs⟩ := exists_after_eq_ofTable ps
  obtain ⟨t, ht, htpairs⟩ := exists_after_eq_ofTable qs
  simp only [hs, ht, get?_ofTable, keyOf?_ofTable, ← Bool.not_eq_true, ofTable_beq_iff]
  refine ⟨perm_iff_get?, perm_iff_keyOf?, ?_, ?_⟩
  · intro b hne hperm
    exact hne (perm_iff_keyOf?.1 hperm b)
  · intro htaken hperm
    have htaken' := forall_ok_of_perm hperm htaken
    refine ⟨htaken', ?_⟩
    rw [hspairs, htpairs, accepted_of_forall_ok htaken, accepted_of_forall_ok htaken']
    exact List.reverse_perm'.2 (List.perm_reverse.2 hperm)

/-- Three pairs make equal builders in either of two orders. A builder that has refused a value differs
from one that holds it. -/
theorem after_beq_iff_rearranged :
    (after [(1, 10), (2, 20), (3, 30)] == after [(3, 30), (1, 10), (2, 20)]) = true ∧
    (after [(1, 10), (2, 20)] == after [(2, 20), (2, 10), (1, 30)]) = false := by
  obtain ⟨_, _, _, hrearranged⟩ :=
    after_beq_iff [(1, 10), (2, 20), (3, 30)] [(3, 30), (1, 10), (2, 20)]
  obtain ⟨_, _, hdiffers, _⟩ := after_beq_iff [(1, 10), (2, 20)] [(2, 20), (2, 10), (1, 30)]
  have htaken : ∀ outcome ∈ ((empty : Builder Nat Nat).run [(1, 10), (2, 20), (3, 30)]).1,
      outcome = .ok () := by decide
  exact ⟨(hrearranged htaken (by decide)).2, hdiffers 10 (by decide)⟩

end Builder
end OneToOne
end JvmSymbols
