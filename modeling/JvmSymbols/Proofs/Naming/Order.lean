import JvmSymbols.Proofs.Naming.Nesting
import JvmSymbols.Proofs.Naming.Walk
import Mathlib.Data.List.Nodup

/-! The order of the text. Of two declarations neither of which is inside the other, the one comes first whose
branch was added first below the lowest declaration around both. A class numbers its anonymous and local classes
in this order, each once, and each of them has its number from one class. -/
namespace JvmSymbols
namespace Outline

variable {o : Outline} {a b c i j n p x y : Nat}

structure Meet (o : Outline) (a x y : Nat) : Prop where
  left : o.Inside x a
  right : o.Inside y a
  lowest : ∀ b, o.Inside x b → o.Inside y b → o.Inside a b

/-- Whether the branch of `x` was added before the branch of `y`, below the lowest declaration around both. -/
def Before (o : Outline) (x y : Nat) : Prop :=
  ∃ a i j, o.Meet a x y ∧ o.parent i = some a ∧ o.Inside x i ∧ o.parent j = some a ∧ o.Inside y j ∧ i < j

/-- Where two branches part stands the lowest declaration around what is in them. -/
theorem meet_of_branches (hi : o.parent i = some a) (hxi : o.Inside x i) (hj : o.parent j = some a)
    (hyj : o.Inside y j) (hij : i ≠ j) : o.Meet a x y := by
  refine ⟨hxi.trans (.ofParent hi), hyj.trans (.ofParent hj), ?_⟩
  intro b hxb hyb
  rcases hxi.total hxb with hib | hbi
  · by_cases heq : i = b
    · -- Then `y` would be in both branches.
      subst heq
      exact absurd (Inside.branch_unique hi hyb hj hyj) hij
    · exact hib.parent_of_ne heq hi
  · exact absurd (Inside.branch_unique hi (hyb.trans hbi) hj hyj) hij

theorem before_iff : o.Before x y ↔
    ∃ a i j, o.parent i = some a ∧ o.Inside x i ∧ o.parent j = some a ∧ o.Inside y j ∧ i < j := by
  constructor
  · rintro ⟨a, i, j, _, hbranches⟩
    exact ⟨a, i, j, hbranches⟩
  · rintro ⟨a, i, j, hi, hxi, hj, hyj, hij⟩
    have hmeet := meet_of_branches hi hxi hj hyj (Nat.ne_of_lt hij)
    exact ⟨a, i, j, hmeet, hi, hxi, hj, hyj, hij⟩

theorem Before.asymm (hxy : o.Before x y) : ¬ o.Before y x := by
  intro hyx
  obtain ⟨a, i, j, hmeet, hi, hxi, hj, hyj, hij⟩ := hxy
  obtain ⟨b, k, l, hmeet', hk, hyk, hl, hxl, hkl⟩ := hyx
  have hab : a = b :=
    (hmeet.lowest b hmeet'.right hmeet'.left).antisymm (hmeet'.lowest a hmeet.right hmeet.left)
  subst hab
  have hil := Inside.branch_unique hi hxi hl hxl
  have hjk := Inside.branch_unique hj hyj hk hyk
  omega

theorem inside_of_mem_contribution
    (h : x ∈ if o.isNumbered i then [i] else if o.isScope i then o.numberedBelow i else []) :
    o.Inside x i := by
  rcases mem_contribution.1 h with ⟨_, rfl⟩ | ⟨_, _, hx⟩
  · exact .refl o x
  · exact (mem_numberedBelow.1 hx).2.inside

theorem pairwise_children (n : Nat) : (o.children n).Pairwise (· < ·) := by
  rw [children_eq]
  exact List.pairwise_lt_range.filter _

theorem pairwise_numberedBelow (n : Nat) : (o.numberedBelow n).Pairwise o.Before := by
  induction n using numberedBelow.induct o with
  | case1 n ih =>
    rw [numberedBelow_eq, List.pairwise_flatMap]
    constructor
    · intro i hi
      split_ifs
      · exact List.pairwise_singleton _ i
      · exact ih i hi
      · exact List.Pairwise.nil
    · refine (pairwise_children n).imp_of_mem ?_
      intro i j hi hj hij x hx y hy
      have hxi := inside_of_mem_contribution hx
      have hyj := inside_of_mem_contribution hy
      exact before_iff.2 ⟨n, i, j, mem_children.1 hi, hxi, mem_children.1 hj, hyj, hij⟩

theorem pairwise_numbered (c : Nat) : (o.numbered c).Pairwise o.Before := by
  rw [numbered]
  split_ifs
  · exact pairwise_numberedBelow c
  · exact List.Pairwise.nil

theorem nodup_numbered (c : Nat) : (o.numbered c).Nodup := by
  refine (pairwise_numbered c).imp ?_
  intro x y hxy heq
  subst heq
  exact hxy.asymm hxy

theorem length_numbered_le (n : Nat) : (o.numbered n).length ≤ o.size := by
  have hsubset : o.numbered n ⊆ List.range o.size := by
    intro x hx
    exact List.mem_range.2 (mem_numbered.1 hx).2.2.lt_size
  simpa using (nodup_numbered n).length_le_of_subset hsubset

/-- In a list that is in order, as many elements come before one as its place says. -/
theorem countP_of_pairwise {α : Type} {R : α → α → Prop} [DecidableRel R]
    (hasymm : ∀ u v, R u v → ¬ R v u) {l : List α} (h : l.Pairwise R) {i : Nat} {u : α}
    (hu : l[i]? = some u) : l.countP (fun v => R v u) = i := by
  induction l generalizing i with
  | nil => simp at hu
  | cons v l ih =>
    obtain ⟨hfirst, hrest⟩ := List.pairwise_cons.1 h
    cases i with
    | zero =>
      obtain rfl : v = u := by simpa using hu
      have hirrefl : ¬ R v v := fun hvv => hasymm v v hvv hvv
      have hnone : l.countP (fun w => R w v) = 0 := by
        rw [List.countP_eq_zero]
        intro w hw
        simpa using hasymm v w (hfirst w hw)
      rw [List.countP_cons, hnone]
      simp [hirrefl]
    | succ i =>
      rw [List.getElem?_cons_succ] at hu
      have hvu : R v u := hfirst u (List.mem_of_getElem? hu)
      rw [List.countP_cons, ih hrest hu]
      simp [hvu]

open Classical in
/-- The place of a class among those that its class numbers: that many of them come before it. -/
theorem getElem?_numbered_iff : (o.numbered c)[i]? = some x ↔
    x ∈ o.numbered c ∧ (o.numbered c).countP (fun y => o.Before y x) = i := by
  have hplace {k : Nat} (hk : (o.numbered c)[k]? = some x) :
      (o.numbered c).countP (fun y => o.Before y x) = k :=
    countP_of_pairwise (fun _ _ h => h.asymm) (pairwise_numbered c) hk
  constructor
  · intro h
    exact ⟨List.mem_of_getElem? h, hplace h⟩
  · rintro ⟨hx, hi⟩
    obtain ⟨k, hk⟩ := List.mem_iff_getElem?.1 hx
    have hki : k = i := (hplace hk).symm.trans hi
    exact hki ▸ hk

theorem lt_iff_before (hx : (o.numbered c)[i]? = some x) (hy : (o.numbered c)[j]? = some y) :
    i < j ↔ o.Before x y := by
  have earlier {k l u v : Nat} (hu : (o.numbered c)[k]? = some u) (hv : (o.numbered c)[l]? = some v)
      (hkl : k < l) : o.Before u v := by
    obtain ⟨hk, rfl⟩ := List.getElem?_eq_some_iff.1 hu
    obtain ⟨hl, rfl⟩ := List.getElem?_eq_some_iff.1 hv
    exact List.pairwise_iff_getElem.1 (pairwise_numbered c) k l hk hl hkl
  constructor
  · exact earlier hx hy
  · intro hxy
    rcases Nat.lt_trichotomy i j with hij | hij | hij
    · exact hij
    · subst hij
      obtain rfl : x = y := Option.some.inj (hx.symm.trans hy)
      exact absurd hxy hxy.asymm
    · exact absurd hxy (earlier hy hx hij).asymm

theorem number_eq_ok_iff :
    o.view.number c x = .ok n ↔ ∃ i, (o.numbered c)[i]? = some x ∧ n = i + 1 := by
  have hnumber : o.view.number c x = .ok n ↔ o.view.number? c x = some n := by
    rw [ClassView.number]
    cases o.view.number? c x <;> simp
  rw [hnumber]
  constructor
  · intro h
    obtain ⟨i, hi, hx⟩ := ClassView.exists_getElem?_of_number? h
    exact ⟨i, hx, hi⟩
  · rintro ⟨i, hx, rfl⟩
    exact ClassView.number?_of_getElem? (v := o.view) (nodup_numbered c) hx

theorem number_of_notMem (h : x ∉ o.numbered c) :
    o.view.number c x = .error ⟨x, .notNumbered⟩ := by
  have hnone : o.view.number? c x = none := ClassView.number?_eq_none_iff.2 h
  rw [ClassView.number, hnone]

/-- A class numbers exactly the anonymous and local classes that it is nearest to, each once and in the order of
the text, from one on; no other declaration has a number in it. What is anonymous or local and has a class
around it is numbered by one class. What is no class numbers nothing. -/
theorem numbered_in_order (o : Outline) (c : Nat) :
    (∀ x, x ∈ o.numbered c ↔ o.isClass c ∧ o.isNumbered x ∧ Below o c x) ∧
    (o.numbered c).Nodup ∧
    (∀ i j x y : Nat, (o.numbered c)[i]? = some x → (o.numbered c)[j]? = some y →
      (i < j ↔ o.Before x y)) ∧
    (∀ x ∈ o.numbered c, ∃ k, o.view.number c x = .ok k ∧ 1 ≤ k ∧ k ≤ (o.numbered c).length) ∧
    (∀ k, 1 ≤ k → k ≤ (o.numbered c).length → ∃! x, o.view.number c x = .ok k) ∧
    (∀ x, x ∉ o.numbered c → o.view.number c x = .error ⟨x, .notNumbered⟩) ∧
    (∀ x p a, o.isNumbered x → o.parent x = some p → o.Inside p a → o.isClass a →
      ∃! d, x ∈ o.numbered d) ∧
    (¬ o.isClass c → o.numbered c = []) := by
  refine ⟨fun x => mem_numbered, nodup_numbered c, ?_, ?_, ?_, ?_, ?_, ?_⟩
  · intro i j x y hx hy
    exact lt_iff_before hx hy
  · intro x hx
    obtain ⟨i, hi⟩ := List.mem_iff_getElem?.1 hx
    have hlt : i < (o.numbered c).length := (List.getElem?_eq_some_iff.1 hi).1
    exact ⟨i + 1, number_eq_ok_iff.2 ⟨i, hi, rfl⟩, by omega, by omega⟩
  · intro k hk hlength
    have hlt : k - 1 < (o.numbered c).length := by omega
    refine ⟨(o.numbered c)[k - 1], number_eq_ok_iff.2 ⟨k - 1, List.getElem?_eq_getElem hlt, by omega⟩, ?_⟩
    intro y hy
    obtain ⟨i, hi, hki⟩ := number_eq_ok_iff.1 hy
    obtain rfl : i = k - 1 := by omega
    exact (List.getElem?_eq_some_iff.1 hi).2.symm
  · intro x hx
    exact number_of_notMem hx
  · intro x p a hx hp hpa ha
    obtain ⟨d, hd, hbelow⟩ := exists_nearest hp hpa ha
    refine ⟨d, mem_numbered.2 ⟨hd, hx, hbelow⟩, ?_⟩
    intro e he
    obtain ⟨hclass, _, hbelow'⟩ := mem_numbered.1 he
    exact hbelow'.class_unique hclass hd hbelow
  · intro hclass
    rw [numbered, if_neg hclass]

/-- A class with two methods. An anonymous class was added to the second before a local one to the first. -/
def interleaved : Outline :=
  ((((empty.push (.topLevel "Outer") (by decide)).push (.scope (some 0) "first") (by decide)).push
    (.scope (some 0) "second") (by decide)).push (.anonymous 2) (by decide)).push
    (.localClass 1 "In") (by decide)

/-- The local class has the first number although it was added last. -/
theorem numbered_in_order_interleaved :
    interleaved.numbered 0 = [4, 3] ∧ interleaved.Before 4 3 ∧
      (∃! x, interleaved.view.number 0 x = .ok 2) ∧ ∃! d, 3 ∈ interleaved.numbered d := by
  have hnumbered : interleaved.numbered 0 = [4, 3] := by decide +kernel
  obtain ⟨_, _, horder, _, hnumber, _, hclass, _⟩ := numbered_in_order interleaved 0
  have hbefore := (horder 0 1 4 3 (by rw [hnumbered]; rfl) (by rw [hnumbered]; rfl)).1 (by decide)
  have hsecond := hnumber 2 (by decide) (by rw [hnumbered]; decide)
  have hone := hclass 3 2 0 rfl rfl (.ofParent rfl) rfl
  exact ⟨hnumbered, hbefore, hsecond, hone⟩

end Outline
end JvmSymbols
