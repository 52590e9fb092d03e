import JvmSymbols.Naming.Name
import JvmSymbols.Proofs.ClassName

/-! The steps of a climb, and the path that they leave. The fragments of a path are read back from its
name. -/
namespace JvmSymbols
namespace ClassView

variable {ν : Type} [DecidableEq ν] {v : ClassView ν}

section Numbers

variable {parent child : ν} {i : Nat}

theorem exists_getElem?_of_number? (h : v.number? parent child = some i) :
    ∃ k, i = k + 1 ∧ (v.numbered parent)[k]? = some child := by
  obtain ⟨k, hk, rfl⟩ := Option.map_eq_some_iff.1 h
  obtain ⟨hlt, hchild, _⟩ := List.findIdx?_eq_some_iff_getElem.1 hk
  refine ⟨k, rfl, ?_⟩
  rw [List.getElem?_eq_getElem hlt, of_decide_eq_true hchild]

/-- The class at a position gets the number of the position if no class stands twice. -/
theorem number?_of_getElem? (hnodup : (v.numbered parent).Nodup)
    (h : (v.numbered parent)[i]? = some child) : v.number? parent child = some (i + 1) := by
  obtain ⟨hlt, hchild⟩ := List.getElem?_eq_some_iff.1 h
  have hfirst : (v.numbered parent).findIdx? (fun n => n = child) = some i := by
    refine List.findIdx?_eq_some_iff_getElem.2 ⟨hlt, by simp [hchild], ?_⟩
    intro j hj hfound
    have heq := (of_decide_eq_true hfound).trans hchild.symm
    have := (List.getElem_inj hnodup).1 heq
    omega
  rw [number?, hfirst]
  rfl

end Numbers

/-- A step names a node by its own name in its container, or by its number in the class around it. -/
theorem step_eq_ok_iff {n parent : ν} {fragment : String} :
    v.step n = .ok (fragment, parent) ↔
      (v.container n = some parent ∧ v.simpleName n = some fragment) ∨
      (v.container n = none ∧ v.enclosing n = some parent ∧
        ∃ i, v.number? parent n = some i ∧ i.repr = fragment) := by
  rw [step]
  cases hcontainer : v.container n with
  | some container =>
    cases hname : v.simpleName n with
    | none => simp
    | some name =>
      simp only [Except.ok.injEq, Prod.mk.injEq, Option.some.injEq, reduceCtorEq, false_and, or_false]
      exact and_comm
  | none =>
    cases henclosing : v.enclosing n with
    | none => simp
    | some enclosing =>
      simp only [Option.some.injEq, reduceCtorEq, false_and, false_or, true_and, number]
      constructor
      · intro h
        cases hnumber : v.number? enclosing n with
        | none => simp [hnumber] at h
        | some i =>
          simp only [hnumber, Except.ok.injEq, Prod.mk.injEq] at h
          obtain ⟨rfl, rfl⟩ := h
          exact ⟨rfl, i, hnumber, rfl⟩
      · rintro ⟨rfl, i, hnumber, rfl⟩
        simp only [hnumber]

section Climbs

variable {spelling : Spelling} {start n : ν} {root fragment : String} {below : List String}

theorem climb_of_rootName (h : v.rootName spelling n = some root) (k : Nat) :
    v.climb spelling start k n below = .ok (root, below) := by
  cases k <;> rw [climb, h]

theorem climb_of_step {parent : ν} (hroot : v.rootName spelling n = none)
    (hstep : v.step n = .ok (fragment, parent)) (k : Nat) :
    v.climb spelling start (k + 1) n below =
      v.climb spelling start k parent (fragment :: below) := by
  rw [climb, hroot, hstep]

end Climbs

section Names

theorem toBinary_intercalate (parts : List String) :
    ClassName.toBinary ("$".intercalate parts) = "$".intercalate (parts.map ClassName.toBinary) := by
  have hsep : ClassName.toBinary "$" = "$" := ClassName.toBinary_eq_self (by simp)
  induction parts with
  | nil => exact ClassName.toBinary_eq_self (by simp)
  | cons part parts ih =>
    cases parts with
    | nil => simp
    | cons next parts =>
      rw [String.intercalate_cons_cons, ClassName.toBinary_append, ClassName.toBinary_append, hsep, ih,
        List.map_cons, List.map_cons, List.map_cons, String.intercalate_cons_cons]

/-- The segments of a joined name are its parts if no part has a dollar sign and only the root has
slashes. -/
theorem splitOn_toBinary_intercalate {root : String} {fragments : List String}
    (hroot : '$' ∉ (ClassName.toBinary root).toList)
    (hfragments : ∀ f ∈ fragments, '$' ∉ f.toList ∧ '/' ∉ f.toList) :
    (ClassName.toBinary ("$".intercalate (root :: fragments))).toList.splitOn '$' =
      (ClassName.toBinary root).toList :: fragments.map String.toList := by
  have hsame : fragments.map ClassName.toBinary = fragments :=
    ClassName.map_toBinary_eq_self fun f hf => (hfragments f hf).2
  rw [toBinary_intercalate, List.map_cons, hsame, String.toList_intercalate, List.map_cons]
  refine List.splitOn_intercalate '$' ?_ (by simp)
  intro piece hpiece
  rcases List.mem_cons.1 hpiece with rfl | hpiece
  · exact hroot
  · obtain ⟨f, hf, rfl⟩ := List.mem_map.1 hpiece
    exact (hfragments f hf).1

end Names

end ClassView
end JvmSymbols
