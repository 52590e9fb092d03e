import JvmSymbols.Naming.Name
import JvmSymbols.Proofs.Naming.Lookup
import Mathlib.Logic.Relation
import Mathlib.Tactic.SplitIfs

/-! What stands below what in an outline. The classes that a class numbers are those below it with
only scopes in between, and the climb from such a class ends at the class that numbers it. -/
namespace JvmSymbols
namespace Outline

variable {o : Outline}

/-- The `k`-th node above a node, the node itself for zero. -/
def ancestor (o : Outline) : Nat → Nat → Option Nat
  | 0, n => some n
  | k + 1, n => (o.parent n).bind (o.ancestor k)

theorem ancestor_le {k x a : Nat} (h : o.ancestor k x = some a) : a ≤ x := by
  induction k generalizing x with
  | zero =>
    obtain rfl := Option.some.inj h
    exact Nat.le_refl x
  | succ k ih =>
    obtain ⟨p, hp, hpa⟩ := Option.bind_eq_some_iff.1 h
    have hle := ih hpa
    have hlt := lt_of_parent hp
    omega

/-- Whether `x` is `a` or stands somewhere below it. -/
def Inside (o : Outline) (x a : Nat) : Prop :=
  Relation.ReflTransGen (fun y p => o.parent y = some p) x a

namespace Inside

variable {a b i j p x : Nat}

theorem refl (o : Outline) (x : Nat) : o.Inside x x := Relation.ReflTransGen.refl

theorem ofParent (h : o.parent x = some p) : o.Inside x p := Relation.ReflTransGen.single h

theorem trans (hxa : o.Inside x a) (hab : o.Inside a b) : o.Inside x b :=
  Relation.ReflTransGen.trans hxa hab

theorem le (h : o.Inside x a) : a ≤ x := by
  induction h with
  | refl => exact Nat.le_refl x
  | tail _ hp ih =>
    have := lt_of_parent hp
    omega

theorem antisymm (hxa : o.Inside x a) (hax : o.Inside a x) : x = a := Nat.le_antisymm hax.le hxa.le

theorem total (ha : o.Inside x a) (hb : o.Inside x b) : o.Inside a b ∨ o.Inside b a := by
  have hunique : Relator.RightUnique fun y p => o.parent y = some p :=
    fun _ _ _ hp hq => Option.some.inj (hp.symm.trans hq)
  exact Relation.ReflTransGen.total_of_right_unique hunique ha hb

theorem parent_of_ne (h : o.Inside x a) (hne : x ≠ a) (hp : o.parent x = some p) : o.Inside p a := by
  rcases Relation.ReflTransGen.cases_head h with heq | ⟨q, hq, hqa⟩
  · exact absurd heq hne
  · obtain rfl : q = p := Option.some.inj (hq.symm.trans hp)
    exact hqa

/-- Nothing stands in two branches below a declaration. -/
theorem branch_unique (hi : o.parent i = some a) (hxi : o.Inside x i) (hj : o.parent j = some a)
    (hxj : o.Inside x j) : i = j := by
  have apart {k l : Nat} (hk : o.parent k = some a) (hl : o.parent l = some a)
      (hkl : o.Inside k l) : k = l := by
    by_cases heq : k = l
    · exact heq
    · have hle := (hkl.parent_of_ne heq hk).le
      have hlt := lt_of_parent hl
      omega
  rcases hxi.total hxj with hij | hji
  · exact apart hi hj hij
  · exact (apart hj hi hji).symm

end Inside

/-- `Below o n x` says that `x` stands below `n` and that all nodes between them are scopes. -/
inductive Below (o : Outline) (n : Nat) : Nat → Prop
  | child {x : Nat} (hx : o.parent x = some n) : Below o n x
  | inScope {s x : Nat} (hs : Below o n s) (hscope : o.isScope s) (hx : o.parent x = some s) :
      Below o n x

namespace Below

variable {n s x : Nat}

theorem lt (h : Below o n x) : n < x := by
  induction h with
  | child hx => exact lt_of_parent hx
  | inScope _ _ hx ih => exact Nat.lt_trans ih (lt_of_parent hx)

theorem lt_size (h : Below o n x) : x < o.size := by
  cases h with
  | child hx => exact lt_size_of_parent hx
  | inScope _ _ hx => exact lt_size_of_parent hx

theorem exists_parent (h : Below o n x) : ∃ p, o.parent x = some p := by
  cases h with
  | child hx => exact ⟨n, hx⟩
  | @inScope s _ _ _ hx => exact ⟨s, hx⟩

theorem ofScope (hparent : o.parent s = some n) (hscope : o.isScope s) (h : Below o s x) :
    Below o n x := by
  induction h with
  | child hx => exact .inScope (.child hparent) hscope hx
  | inScope _ hs hx ih => exact .inScope ih hs hx

/-- The first node on the way down is a child, and a scope if the way goes on. -/
theorem iff_child : Below o n x ↔
    o.parent x = some n ∨ ∃ s, o.parent s = some n ∧ o.isScope s ∧ Below o s x := by
  constructor
  · intro h
    induction h with
    | child hx => exact .inl hx
    | inScope _ hscope hx ih =>
      right
      rcases ih with hs | ⟨t, ht, htscope, hts⟩
      · exact ⟨_, hs, hscope, .child hx⟩
      · exact ⟨t, ht, htscope, .inScope hts hscope hx⟩
  · rintro (hx | ⟨s, hs, hscope, hsx⟩)
    · exact .child hx
    · exact ofScope hs hscope hsx

theorem inside (h : Below o n x) : o.Inside x n := by
  induction h with
  | child hx => exact .ofParent hx
  | inScope _ _ hx ih => exact (Inside.ofParent hx).trans ih

theorem class_unique {c d : Nat} (hc : o.isClass c) (hd : o.isClass d) (hcx : Below o c x)
    (hdx : Below o d x) : c = d := by
  induction hcx with
  | child hx =>
    cases hdx with
    | child hx' => exact Option.some.inj (hx.symm.trans hx')
    | inScope _ hscope hx' =>
      obtain rfl := Option.some.inj (hx.symm.trans hx')
      exact absurd hc (not_isClass_of_isScope hscope)
  | inScope _ hscope hx ih =>
    cases hdx with
    | child hx' =>
      obtain rfl := Option.some.inj (hx.symm.trans hx')
      exact absurd hd (not_isClass_of_isScope hscope)
    | inScope hds _ hx' =>
      obtain rfl := Option.some.inj (hx.symm.trans hx')
      exact ih hds

theorem exists_ancestor (h : Below o n x) : ∃ k, o.ancestor k x = some n := by
  induction h with
  | child hx => exact ⟨1, by simp [ancestor, hx]⟩
  | inScope _ _ hx ih =>
    obtain ⟨k, hk⟩ := ih
    exact ⟨k + 1, by simp [ancestor, hx, hk]⟩

end Below

theorem mem_contribution {i x : Nat} :
    (x ∈ if o.isNumbered i then [i] else if o.isScope i then o.numberedBelow i else []) ↔
      (o.isNumbered i ∧ x = i) ∨ (¬ o.isNumbered i ∧ o.isScope i ∧ x ∈ o.numberedBelow i) := by
  split_ifs with hnumbered hscope <;> simp [*]

/-- The numbered classes below a node are those with only scopes in between. -/
theorem mem_numberedBelow {n x : Nat} :
    x ∈ o.numberedBelow n ↔ o.isNumbered x ∧ Below o n x := by
  induction n using numberedBelow.induct o with
  | case1 n ih =>
    rw [numberedBelow_eq, List.mem_flatMap, Below.iff_child]
    simp only [mem_contribution]
    constructor
    · rintro ⟨i, hi, ⟨hnumbered, rfl⟩ | ⟨_, hscope, hx⟩⟩
      · exact ⟨hnumbered, .inl (mem_children.1 hi)⟩
      · have hbelow := (ih i hi).1 hx
        exact ⟨hbelow.1, .inr ⟨i, mem_children.1 hi, hscope, hbelow.2⟩⟩
    · rintro ⟨hnumbered, hx | ⟨i, hi, hscope, hbelow⟩⟩
      · exact ⟨x, mem_children.2 hx, .inl ⟨hnumbered, rfl⟩⟩
      · refine ⟨i, mem_children.2 hi, .inr ⟨not_isNumbered_of_isScope hscope, hscope, ?_⟩⟩
        exact (ih i (mem_children.2 hi)).2 ⟨hnumbered, hbelow⟩

theorem mem_numbered {n x : Nat} :
    x ∈ o.numbered n ↔ o.isClass n ∧ o.isNumbered x ∧ Below o n x := by
  by_cases h : o.isClass n <;> simp [numbered, h, mem_numberedBelow]

theorem nearestClass_of_below {c x : Nat} (hc : o.isClass c) (h : Below o c x) (k : Nat) :
    o.view.nearestClass k (o.parent x) = some c ∨ o.view.nearestClass k (o.parent x) = none := by
  induction k generalizing x with
  | zero => exact .inr rfl
  | succ k ih =>
    cases h with
    | child hx =>
      left
      rw [hx]
      exact if_pos hc
    | @inScope s _ hs hscope hx =>
      have hstep : o.view.nearestClass (k + 1) (some s) = o.view.nearestClass k (o.parent s) :=
        if_neg (not_isClass_of_isScope hscope)
      rw [hx, hstep]
      exact ih hs

theorem isSome_nearestClass {c x k : Nat} {j : Nat} (hj : j < k)
    (h : o.ancestor (j + 1) x = some c) (hc : o.isClass c) :
    (o.view.nearestClass k (o.parent x)).isSome := by
  induction k generalizing j x with
  | zero => omega
  | succ k ih =>
    obtain ⟨p, hp, hpc⟩ := Option.bind_eq_some_iff.1 h
    rw [hp]
    by_cases hclass : o.isClass p
    · have hstep : o.view.nearestClass (k + 1) (some p) = some p := if_pos hclass
      rw [hstep]
      rfl
    · have hstep : o.view.nearestClass (k + 1) (some p) = o.view.nearestClass k (o.parent p) :=
        if_neg hclass
      rw [hstep]
      cases j with
      | zero =>
        obtain rfl := Option.some.inj hpc
        exact absurd hc hclass
      | succ j => exact ih (by omega) hpc

theorem exists_nearest {a p x : Nat} (hp : o.parent x = some p) (hpa : o.Inside p a) (ha : o.isClass a) :
    ∃ c, o.isClass c ∧ Below o c x := by
  induction hpa using Relation.ReflTransGen.head_induction_on generalizing x with
  | refl => exact ⟨a, ha, .child hp⟩
  | @head p q hq _ ih =>
    by_cases hclass : o.isClass p
    · exact ⟨p, hclass, .child hp⟩
    · obtain ⟨c, hc, hbelow⟩ := ih hq
      exact ⟨c, hc, .inScope hbelow (isScope_of_parent hq hclass) hp⟩

end Outline
end JvmSymbols
