import Mathlib.Data.Set.Card
import JvmSymbols.OneToOne.Builder
import JvmSymbols.Proofs.OneToOne

/-! What runs of insertions make of a builder. From the empty one they reach only builders whose two
indexes are the two readings of one table, and an insertion into such a builder is an insertion into
its table. -/
namespace JvmSymbols

theorem encard_eq_length {α : Type} {s : Set α} {xs : List α} (hxs : xs.Nodup)
    (hs : ∀ x, x ∈ s ↔ x ∈ xs) : s.encard = xs.length := by
  classical
  have hset : s = (xs.toFinset : Set α) := by
    ext x
    simp [hs]
  rw [hset, Set.encard_coe_eq_coe_finsetCard, List.toFinset_card_of_nodup hxs]

namespace OneToOne

variable {α β : Type}

section Presence

variable {t : OneToOne α β}

theorem isSome_get?_iff [DecidableEq α] {a : α} :
    (t.get? a).isSome ↔ a ∈ t.pairs.map Prod.fst := by
  simp only [Option.isSome_iff_exists, get?_eq_some_iff, List.mem_map, Prod.exists, exists_and_right,
    exists_eq_right]

theorem isSome_keyOf?_iff [DecidableEq β] {b : β} :
    (t.keyOf? b).isSome ↔ b ∈ t.pairs.map Prod.snd := by
  simp only [Option.isSome_iff_exists, keyOf?_eq_some_iff, List.mem_map, Prod.exists, exists_eq_right]

theorem encard_keys [DecidableEq α] (t : OneToOne α β) :
    {a | (t.get? a).isSome}.encard = t.size := by
  refine (encard_eq_length t.keys_nodup fun a => isSome_get?_iff).trans ?_
  rw [List.length_map, size]

theorem encard_values [DecidableEq β] (t : OneToOne α β) :
    {b | (t.keyOf? b).isSome}.encard = t.size := by
  refine (encard_eq_length t.values_nodup fun b => isSome_keyOf?_iff).trans ?_
  rw [List.length_map, size]

end Presence

namespace Builder

theorem eq_of_entries_eq {c d : Builder α β} (hf : c.forward.entries = d.forward.entries)
    (hi : c.inverse.entries = d.inverse.entries) : c = d := by
  cases c with
  | mk forward inverse =>
    cases d with
    | mk forward' inverse' =>
      cases forward
      cases inverse
      cases hf
      cases hi
      rfl

/-- The builder whose indexes are the two readings of a table. -/
def ofTable (t : OneToOne α β) : Builder α β where
  forward := ⟨t.pairs, t.keys_nodup⟩
  inverse := ⟨t.swap.pairs, t.swap.keys_nodup⟩

section Lookup

variable (t : OneToOne α β)

theorem ofTable_empty : ofTable OneToOne.empty = (empty : Builder α β) := rfl

@[simp] theorem size_ofTable : (ofTable t).size = t.size := rfl

@[simp] theorem get?_ofTable [DecidableEq α] (a : α) : (ofTable t).get? a = t.get? a := rfl

@[simp] theorem keyOf?_ofTable [DecidableEq β] (b : β) : (ofTable t).keyOf? b = t.keyOf? b :=
  (t.keyOf?_eq_get?_swap b).symm

end Lookup

variable [DecidableEq α] [DecidableEq β]

section Insertion

variable {c : Builder α β} {a : α} {b : β}

theorem insert_cases (c : Builder α β) (a : α) (b : β) :
    ((c.get? a).isSome ∧ c.insert a b = (.error .key, c)) ∨
    (c.get? a = none ∧ (c.keyOf? b).isSome ∧ c.insert a b = (.error .value, c)) ∨
    (c.get? a = none ∧ c.keyOf? b = none ∧
      c.insert a b = (.ok (), ⟨c.forward.put a b, c.inverse.put b a⟩)) := by
  by_cases hkey : (c.get? a).isSome
  · exact .inl ⟨hkey, if_pos hkey⟩
  · have hfree := Option.not_isSome_iff_eq_none.1 hkey
    by_cases hvalue : (c.keyOf? b).isSome
    · refine .inr (.inl ⟨hfree, hvalue, ?_⟩)
      rw [insert, if_neg hkey, if_pos hvalue]
    · refine .inr (.inr ⟨hfree, Option.not_isSome_iff_eq_none.1 hvalue, ?_⟩)
      rw [insert, if_neg hkey, if_neg hvalue]

theorem insert_eq_error_key_iff : (c.insert a b).1 = .error .key ↔ (c.get? a).isSome := by
  rcases c.insert_cases a b with ⟨hkey, h⟩ | ⟨hkey, _, h⟩ | ⟨hkey, _, h⟩ <;> simp [h, hkey]

theorem insert_eq_error_value_iff :
    (c.insert a b).1 = .error .value ↔ c.get? a = none ∧ (c.keyOf? b).isSome := by
  rcases c.insert_cases a b with ⟨hkey, h⟩ | ⟨hkey, hvalue, h⟩ | ⟨hkey, hvalue, h⟩
  · simp [h, Option.ne_none_iff_isSome.2 hkey]
  · simp [h, hkey, hvalue]
  · simp [h, hvalue]

theorem insert_eq_self_of_error {clash : Clash} (h : (c.insert a b).1 = .error clash) :
    (c.insert a b).2 = c := by
  rcases c.insert_cases a b with ⟨_, hinsert⟩ | ⟨_, _, hinsert⟩ | ⟨_, _, hinsert⟩
  · rw [hinsert]
  · rw [hinsert]
  · rw [hinsert] at h
    cases h

/-- Inserting into the two readings of a table is inserting into the table. -/
theorem insert_ofTable (t : OneToOne α β) (a : α) (b : β) :
    (ofTable t).insert a b =
      match t.insert a b with
      | .ok u => (.ok (), ofTable u)
      | .error clash => (.error clash, ofTable t) := by
  rcases (ofTable t).insert_cases a b with ⟨hkey, h⟩ | ⟨hkey, hvalue, h⟩ | ⟨hkey, hvalue, h⟩
  · have ha : a ∈ t.pairs.map Prod.fst := isSome_get?_iff.1 hkey
    rw [h, OneToOne.insert, dif_pos ha]
  · have ha : a ∉ t.pairs.map Prod.fst := by
      rw [← isSome_get?_iff, ← get?_ofTable, hkey]
      simp
    have hb : b ∈ t.pairs.map Prod.snd := by
      rwa [keyOf?_ofTable, isSome_keyOf?_iff] at hvalue
    rw [h, OneToOne.insert, dif_neg ha, dif_pos hb]
  · have ha : a ∉ t.pairs.map Prod.fst := by
      rw [← isSome_get?_iff, ← get?_ofTable, hkey]
      simp
    have hb : b ∉ t.pairs.map Prod.snd := by
      rw [← isSome_keyOf?_iff, ← keyOf?_ofTable, hvalue]
      simp
    rw [h, OneToOne.insert, dif_neg ha, dif_neg hb]
    refine congrArg (Prod.mk _) ?_
    exact eq_of_entries_eq (Index.entries_put hkey) (Index.entries_put hvalue)

end Insertion

theorem run_cons (c : Builder α β) (p : α × β) (ps : List (α × β)) :
    c.run (p :: ps) = ((c.insert p.1 p.2).1 :: ((c.insert p.1 p.2).2.run ps).1,
      ((c.insert p.1 p.2).2.run ps).2) := rfl

theorem run_append (c : Builder α β) (ps qs : List (α × β)) :
    c.run (ps ++ qs) = ((c.run ps).1 ++ ((c.run ps).2.run qs).1, ((c.run ps).2.run qs).2) := by
  induction ps generalizing c with
  | nil => rfl
  | cons p ps ih => rw [List.cons_append, run_cons, run_cons, ih, List.cons_append]

theorem length_outcomes (c : Builder α β) (ps : List (α × β)) : (c.run ps).1.length = ps.length := by
  induction ps generalizing c with
  | nil => rfl
  | cons p ps ih => rw [run_cons, List.length_cons, ih, List.length_cons]

def accepted (c : Builder α β) (ps : List (α × β)) : List (α × β) :=
  ((ps.zip (c.run ps).1).filter fun q => q.2.isOk).map Prod.fst

theorem accepted_cons (c : Builder α β) (p : α × β) (ps : List (α × β)) :
    c.accepted (p :: ps) =
      if (c.insert p.1 p.2).1.isOk then p :: (c.insert p.1 p.2).2.accepted ps
      else (c.insert p.1 p.2).2.accepted ps := by
  rw [accepted, run_cons, List.zip_cons_cons, List.filter_cons]
  split <;> rfl

theorem length_accepted (c : Builder α β) (ps : List (α × β)) :
    (c.accepted ps).length = (c.run ps).1.countP Except.isOk := by
  have houtcomes : (ps.zip (c.run ps).1).map Prod.snd = (c.run ps).1 :=
    List.map_snd_zip (by rw [length_outcomes])
  rw [accepted, List.length_map, ← List.countP_eq_length_filter]
  conv_rhs => rw [← houtcomes, List.countP_map]
  rfl

/-- A run from the readings of a table ends in those of a table, which has gained the pairs that were
taken and no others. -/
theorem exists_run_ofTable (t : OneToOne α β) (ps : List (α × β)) :
    ∃ u : OneToOne α β, ((ofTable t).run ps).2 = ofTable u ∧
      u.pairs = ((ofTable t).accepted ps).reverse ++ t.pairs := by
  induction ps generalizing t with
  | nil => exact ⟨t, rfl, rfl⟩
  | cons p ps ih =>
    obtain ⟨a, b⟩ := p
    have hstep := insert_ofTable t a b
    cases hinsert : t.insert a b with
    | ok t' =>
      rw [hinsert] at hstep
      obtain ⟨u, hrun, hpairs⟩ := ih t'
      refine ⟨u, ?_, ?_⟩
      · rw [run_cons, hstep, hrun]
      · rw [accepted_cons, hstep, hpairs, insert_eq_ok_iff.1 hinsert]
        simp [Except.isOk, Except.toBool]
    | error clash =>
      rw [hinsert] at hstep
      obtain ⟨u, hrun, hpairs⟩ := ih t
      refine ⟨u, ?_, ?_⟩
      · rw [run_cons, hstep, hrun]
      · rw [accepted_cons, hstep, hpairs]
        simp [Except.isOk, Except.toBool]

def after (ps : List (α × β)) : Builder α β := (empty.run ps).2

theorem exists_after_eq_ofTable (ps : List (α × β)) :
    ∃ u : OneToOne α β, after ps = ofTable u ∧ u.pairs = (empty.accepted ps).reverse := by
  obtain ⟨u, hrun, hpairs⟩ := exists_run_ofTable (OneToOne.empty : OneToOne α β) ps
  rw [ofTable_empty] at hrun hpairs
  exact ⟨u, hrun, hpairs.trans (List.append_nil _)⟩

/-- After the first part of a run from the empty builder, the look-ups are inverse to each other and find
the pairs that were taken. There are as many pairs as insertions that succeeded, and as many keys and
as many values. The next insertion is refused for its key exactly if the key is present, for its value
exactly if the value alone is, and a refused one changes no answer. -/
theorem run_empty_inverse (done rest : List (α × β)) :
    (empty.run (done ++ rest) =
      ((empty.run done).1 ++ ((after done).run rest).1, ((after done).run rest).2)) ∧
    (∀ a b, (after done).get? a = some b ↔ (after done).keyOf? b = some a) ∧
    (∀ a b, (after done).get? a = some b ↔ (a, b) ∈ empty.accepted done) ∧
    (after done).size = ((empty : Builder α β).run done).1.countP Except.isOk ∧
    {a | ((after done).get? a).isSome}.encard = (after done).size ∧
    {b | ((after done).keyOf? b).isSome}.encard = (after done).size ∧
    ∀ a b,
      (((after done).insert a b).1 = .error .key ↔ ((after done).get? a).isSome) ∧
      (((after done).insert a b).1 = .error .value ↔
        (after done).get? a = none ∧ ((after done).keyOf? b).isSome) ∧
      ∀ clash, ((after done).insert a b).1 = .error clash →
        (∀ a', ((after done).insert a b).2.get? a' = (after done).get? a') ∧
        (∀ b', ((after done).insert a b).2.keyOf? b' = (after done).keyOf? b') ∧
        ((after done).insert a b).2.size = (after done).size := by
  obtain ⟨u, hafter, hheld⟩ := exists_after_eq_ofTable done
  refine ⟨run_append _ _ _, ?_, ?_, ?_, ?_, ?_, fun a b =>
    ⟨insert_eq_error_key_iff, insert_eq_error_value_iff, fun clash h => ?_⟩⟩
  · intro a b
    rw [hafter, get?_ofTable, keyOf?_ofTable, get?_eq_some_iff, keyOf?_eq_some_iff]
  · intro a b
    rw [hafter, get?_ofTable, get?_eq_some_iff, hheld, List.mem_reverse]
  · rw [← length_accepted, hafter, size_ofTable, OneToOne.size, hheld, List.length_reverse]
  · simp only [hafter, get?_ofTable, size_ofTable]
    exact encard_keys u
  · simp only [hafter, keyOf?_ofTable, size_ofTable]
    exact encard_values u
  · rw [insert_eq_self_of_error h]
    exact ⟨fun _ => rfl, fun _ => rfl, rfl⟩

theorem run_empty_inverse_sample :
    (after [(1, 10), (1, 11), (2, 20)]).size = 2 ∧
    (after [(1, 10), (1, 11), (2, 20)]).keyOf? 20 = some 2 ∧
    ((after [(1, 10), (1, 11), (2, 20)]).insert 3 20).1 = .error .value ∧
    ((after [(1, 10), (1, 11), (2, 20)]).insert 3 20).2.get? 3 = none := by
  obtain ⟨_, hinverse, _, hsize, _, _, hinsert⟩ :=
    run_empty_inverse [(1, 10), (1, 11), (2, 20)] ([] : List (Nat × Nat))
  obtain ⟨_, hvalue, hrefused⟩ := hinsert 3 20
  have hget : (after [(1, 10), (1, 11), (2, 20)]).get? 2 = some 20 := by decide
  have hfree : (after [(1, 10), (1, 11), (2, 20)]).get? 3 = none := by decide
  have hkeyOf := (hinverse 2 20).1 hget
  have herror := hvalue.2 ⟨hfree, Option.isSome_iff_exists.2 ⟨2, hkeyOf⟩⟩
  exact ⟨hsize, hkeyOf, herror, ((hrefused .value herror).1 3).trans hfree⟩

end Builder
end OneToOne
end JvmSymbols
