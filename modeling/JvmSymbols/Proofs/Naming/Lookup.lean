import JvmSymbols.Naming.Outline

/-! What the kind of a declaration says about it, and what the look-ups of an outline find: declarations
of the name that was looked up, and each of them if no other has the name. -/
namespace JvmSymbols
namespace Outline

variable {o : Outline} {n p : Nat} {name : String}

theorem lt_size_of_get? {d : Declaration} (h : o.get? n = some d) : n < o.size :=
  (Array.getElem?_eq_some_iff.1 h).1

theorem container_eq_some_iff :
    o.container n = some p ↔ ∃ name, o.get? n = some (.memberClass p name) := by
  cases h : o.get? n with
  | none => simp [container, h]
  | some d => cases d <;> simp [container, h]

theorem simpleName_of_memberClass (h : o.get? n = some (.memberClass p name)) :
    o.simpleName n = some name := by
  simp [simpleName, h]

theorem topLevelName_eq_some_iff :
    o.topLevelName n = some name ↔ o.get? n = some (.topLevel name) := by
  cases h : o.get? n with
  | none => simp [topLevelName, h]
  | some d => cases d <;> simp [topLevelName, h]

section Kinds

theorem not_isNumbered_of_isScope (h : o.isScope n) : ¬ o.isNumbered n := by
  cases hd : o.get? n with
  | none => simp [isScope, hd] at h
  | some d => cases d <;> simp_all [isScope, isNumbered, Declaration.isScope, Declaration.isClass,
      Declaration.isNumbered]

theorem not_isClass_of_isScope (h : o.isScope n) : ¬ o.isClass n := by
  cases hd : o.get? n with
  | none => simp [isScope, hd] at h
  | some d => simp_all [isScope, isClass, Declaration.isScope]

theorem isClass_of_isNumbered (h : o.isNumbered n) : o.isClass n := by
  cases hd : o.get? n with
  | none => simp [isNumbered, hd] at h
  | some d => cases d <;> simp_all [isNumbered, isClass, Declaration.isNumbered, Declaration.isClass]

theorem container_eq_none_of_isNumbered (h : o.isNumbered n) : o.container n = none := by
  cases hd : o.get? n with
  | none => simp [isNumbered, hd] at h
  | some d => cases d <;> simp_all [isNumbered, container, Declaration.isNumbered]

theorem isScope_of_parent (h : o.parent n = some p) (hclass : ¬ o.isClass n) : o.isScope n := by
  obtain ⟨d, hd, _⟩ := Option.bind_eq_some_iff.1 h
  simpa [isScope, isClass, hd, Declaration.isScope] using hclass

theorem topLevelName_eq_none_of_parent (h : o.parent n = some p) :
    o.topLevelName n = none := by
  cases hd : o.get? n with
  | none => simp [topLevelName, hd]
  | some d => cases d <;> simp_all [parent, topLevelName, Declaration.parent]

end Kinds

theorem find?_eq_some_of_unique {l : List Nat} {q : Nat → Bool} {x : Nat} (hx : x ∈ l) (hq : q x)
    (hunique : ∀ y, q y → y = x) : l.find? q = some x := by
  obtain ⟨y, hy⟩ := Option.isSome_iff_exists.1 (List.find?_isSome.2 ⟨x, hx, hq⟩)
  rw [hy, hunique y (List.find?_some hy)]

theorem find?_reverse_range_eq_some_iff {k x : Nat} {q : Nat → Bool} :
    (List.range k).reverse.find? q = some x ↔ x < k ∧ q x ∧ ∀ y < k, q y → y ≤ x := by
  induction k with
  | zero => simp
  | succ k ih =>
    rw [List.range_succ, List.reverse_append, List.reverse_singleton, List.singleton_append,
      List.find?_cons]
    cases hq : q k with
    | true =>
      constructor
      · intro h
        obtain rfl := Option.some.inj h
        exact ⟨Nat.lt_succ_self k, hq, fun y hy _ => Nat.le_of_lt_succ hy⟩
      · rintro ⟨hx, _, hlast⟩
        have hle := hlast k (Nat.lt_succ_self k) hq
        exact congrArg some (by omega)
    | false =>
      have hne {y : Nat} (hy : q y) : y ≠ k := by
        rintro rfl
        exact Bool.false_ne_true (hq.symm.trans hy)
      rw [ih]
      constructor
      · rintro ⟨hx, hqx, hlast⟩
        refine ⟨by omega, hqx, fun y hy hqy => ?_⟩
        have hyk := hne hqy
        exact hlast y (by omega) hqy
      · rintro ⟨hx, hqx, hlast⟩
        have hxk := hne hqx
        exact ⟨by omega, hqx, fun y hy hqy => hlast y (by omega) hqy⟩

theorem topLevel?_eq_some_iff :
    o.topLevel? name = some n ↔ o.get? n = some (.topLevel name) ∧
      ∀ m, o.get? m = some (.topLevel name) → m ≤ n := by
  simp only [topLevel?, find?_reverse_range_eq_some_iff, decide_eq_true_eq, topLevelName_eq_some_iff]
  constructor
  · rintro ⟨_, hget, hlast⟩
    exact ⟨hget, fun m hm => hlast m (lt_size_of_get? hm) hm⟩
  · rintro ⟨hget, hlast⟩
    exact ⟨lt_size_of_get? hget, hget, fun m _ hm => hlast m hm⟩

theorem topLevel?_eq_none_iff :
    o.topLevel? name = none ↔ ∀ n, o.get? n ≠ some (.topLevel name) := by
  simp only [topLevel?, List.find?_eq_none, List.mem_reverse, List.mem_range, decide_eq_true_eq,
    topLevelName_eq_some_iff]
  exact ⟨fun h n hn => h n (lt_size_of_get? hn) hn, fun h n _ => h n⟩

theorem get?_of_topLevel? (h : o.topLevel? name = some n) : o.get? n = some (.topLevel name) :=
  (topLevel?_eq_some_iff.1 h).1

theorem topLevel?_of_get? (h : o.get? n = some (.topLevel name))
    (hunique : ∀ i, o.get? i = some (.topLevel name) → i = n) : o.topLevel? name = some n :=
  topLevel?_eq_some_iff.2 ⟨h, fun i hi => Nat.le_of_eq (hunique i hi)⟩

theorem get?_of_member? (h : o.member? p name = some n) :
    o.get? n = some (.memberClass p name) := by
  rw [member?] at h
  have hmember := List.find?_some h
  exact of_decide_eq_true hmember

theorem member?_of_get? (h : o.get? n = some (.memberClass p name))
    (hunique : ∀ i, o.get? i = some (.memberClass p name) → i = n) :
    o.member? p name = some n := by
  refine find?_eq_some_of_unique ?_ (decide_eq_true h) fun i hi => hunique i (of_decide_eq_true hi)
  rw [mem_children, parent, h]
  rfl

section Push

variable {d : Declaration} (h : o.Accepts d)
include h

theorem size_push : (o.push d h).size = o.size + 1 := Array.size_push d

theorem get?_push (n : Nat) : (o.push d h).get? n = if n = o.size then some d else o.get? n :=
  Array.getElem?_push

theorem parent_push (n : Nat) : (o.push d h).parent n = if n = o.size then d.parent else o.parent n := by
  rw [parent, get?_push]
  split <;> rfl

theorem children_push (n : Nat) :
    (o.push d h).children n = if d.parent = some n then o.children n ++ [o.size] else o.children n := by
  have hlists : (o.push d h).childLists = linkNext o.childLists d.parent := rfl
  have hparent : ∀ p, d.parent = some p → p < o.childLists.size := fun p hp => o.size_childLists ▸ h.1 p hp
  rw [children, hlists, getD_linkNext hparent, o.size_childLists]
  split
  · exact List.reverse_cons
  · rfl

theorem topLevel?_push (name : String) :
    (o.push d h).topLevel? name = if d = .topLevel name then some o.size else o.topLevel? name := by
  by_cases hd : d = .topLevel name
  · rw [if_pos hd]
    refine topLevel?_eq_some_iff.2 ⟨?_, fun m hm => ?_⟩
    · rw [get?_push, if_pos rfl, hd]
    · have hlt := lt_size_of_get? hm
      rw [size_push] at hlt
      omega
  · have hsame (m : Nat) :
        (o.push d h).get? m = some (.topLevel name) ↔ o.get? m = some (.topLevel name) := by
      rw [get?_push]
      split
      · rename_i hm
        have hfree : o.get? m = none := Array.getElem?_eq_none (Nat.le_of_eq hm.symm)
        simp [hfree, hd]
      · exact Iff.rfl
    rw [if_neg hd]
    ext n
    simp only [topLevel?_eq_some_iff, hsame]

end Push

/-- A class with a method, in which a local class with a member and an anonymous class stand. -/
def sample : Outline :=
  ((((empty.push (.topLevel "a.Outer") (by decide)).push (.scope (some 0) "run") (by decide)).push
    (.localClass 1 "In$0") (by decide)).push (.memberClass 2 "In") (by decide)).push (.anonymous 1)
    (by decide)

end Outline
end JvmSymbols
