import JvmSymbols.Proofs.Naming.Lookup
import JvmSymbols.Proofs.Naming.Order
import JvmSymbols.Proofs.Naming.Path
import Mathlib.Data.List.Induction

/-! What a look-up finds has the name that was looked up. Whatever names are declared, a segment that
leads down from a class names the class it leads to, so a climb from there makes the segments again,
each number in its decimal form. -/
namespace JvmSymbols

namespace Text

theorem length_splitOn {α : Type} [BEq α] [LawfulBEq α] (sep : α) (xs : List α) :
    (xs.splitOn sep).length = xs.count sep + 1 := by
  induction xs with
  | nil => simp
  | cons x xs ih =>
    rw [List.splitOn_cons_eq_if_modifyHead, List.count_cons]
    split_ifs with hx
    · simp [ih]
    · simp [ih]

end Text

namespace ClassName

/-- A segment as it stands in a name that was made: a number is in decimal form. -/
def canonicalSegment (segment : List Char) : String :=
  match Numeral.unsigned64? segment with
  | some i => i.repr
  | none => String.ofList segment

/-- The binary spelling of a name, with the numbers after the first segment in decimal form. -/
def canonical (name : String) : String :=
  match (toBinary name).toList.splitOn '$' with
  | [] => ""
  | first :: segments => "$".intercalate (String.ofList first :: segments.map canonicalSegment)

theorem count_dollar_toBinary (name : String) :
    (toBinary name).toList.count '$' = name.toList.count '$' := by
  rw [toBinary, String.toList_map, List.count_eq_countP, List.countP_map, List.count_eq_countP]
  refine List.countP_congr fun c _ => ?_
  by_cases h : c = '/' <;> simp [h]

end ClassName

namespace Outline

variable {o : Outline}

/-- Whether the nearest class around a node is among the first 1024 nodes above it. -/
def ClassNear (o : Outline) (n : Nat) : Prop :=
  ∃ k c, k < 1024 ∧ o.ancestor (k + 1) n = some c ∧ o.isClass c

theorem ancestor_add {i n m : Nat} (h : o.ancestor i n = some m) (k : Nat) :
    o.ancestor (i + k) n = o.ancestor k m := by
  induction i generalizing n with
  | zero =>
    obtain rfl := Option.some.inj h
    rw [Nat.zero_add]
  | succ i ih =>
    obtain ⟨p, hp, hpm⟩ := Option.bind_eq_some_iff.1 h
    rw [Nat.add_right_comm, ancestor, hp]
    exact ih hpm

theorem enclosing_eq {c n : Nat} (hc : o.isClass c) (hbelow : Below o c n) (hnear : o.ClassNear n) :
    o.view.enclosing n = some c := by
  obtain ⟨k, near, hk, hancestor, hclass⟩ := hnear
  have hsome := isSome_nearestClass hk hancestor hclass
  rcases nearestClass_of_below hc hbelow nestingLimit with h | h
  · exact h
  · rw [nestingLimit] at h
    simp [h] at hsome

theorem descend_eq_some {c n : Nat} {segment : List Char}
    (h : o.view.descend o.directory c segment = some n) :
    (∃ i, Numeral.unsigned64? segment = some (i + 1) ∧ (o.numbered c)[i]? = some n) ∨
    (Numeral.unsigned64? segment = none ∧
      o.get? n = some (.memberClass c (String.ofList segment))) := by
  rw [ClassView.descend] at h
  cases hnumber : Numeral.unsigned64? segment with
  | none =>
    rw [hnumber] at h
    exact .inr ⟨rfl, get?_of_member? h⟩
  | some i =>
    cases i with
    | zero => simp [hnumber] at h
    | succ i =>
      rw [hnumber] at h
      exact .inl ⟨i, rfl, h⟩

theorem class_of_descend {c n : Nat} {segment : List Char}
    (h : o.view.descend o.directory c segment = some n) :
    o.isClass n ∧ o.topLevelName n = none ∧ ∃ k, o.ancestor k n = some c := by
  rcases descend_eq_some h with ⟨i, _, hi⟩ | ⟨_, hget⟩
  · obtain ⟨_, hnumbered, hbelow⟩ := mem_numbered.1 (List.mem_of_getElem? hi)
    obtain ⟨p, hp⟩ := hbelow.exists_parent
    exact ⟨isClass_of_isNumbered hnumbered, topLevelName_eq_none_of_parent hp, hbelow.exists_ancestor⟩
  · have hparent : o.parent n = some c := by simp [parent, hget, Declaration.parent]
    refine ⟨by simp [isClass, hget, Declaration.isClass], topLevelName_eq_none_of_parent hparent, 1, ?_⟩
    simp [ancestor, hparent]

/-- One step up undoes one step down, and gives the segment in its canonical form. -/
theorem step_of_descend {c n : Nat} {segment : List Char}
    (h : o.view.descend o.directory c segment = some n) (hnear : o.isNumbered n → o.ClassNear n) :
    o.view.step n = .ok (ClassName.canonicalSegment segment, c) := by
  rw [ClassView.step_eq_ok_iff]
  rcases descend_eq_some h with ⟨i, hnumber, hi⟩ | ⟨hnumber, hget⟩
  · obtain ⟨hc, hnumbered, hbelow⟩ := mem_numbered.1 (List.mem_of_getElem? hi)
    refine .inr ⟨container_eq_none_of_isNumbered hnumbered,
      enclosing_eq hc hbelow (hnear hnumbered), i + 1, ?_, ?_⟩
    · exact ClassView.number?_of_getElem? (nodup_numbered c) hi
    · rw [ClassName.canonicalSegment, hnumber]
  · refine .inl ⟨container_eq_some_iff.2 ⟨_, hget⟩, ?_⟩
    rw [ClassName.canonicalSegment, hnumber]
    exact simpleName_of_memberClass hget

theorem rootName_of_topLevelName {n : Nat} (h : o.topLevelName n = none) :
    o.view.rootName .binary n = none := by
  rw [ClassView.rootName]
  simp [view, h]

/-- The climb from the node to which segments lead makes these segments again. -/
theorem climb_of_foldlM_descend {r n : Nat} {root : String} {segments : List (List Char)}
    (start : Nat) (hroot : o.get? r = some (.topLevel root))
    (h : segments.foldlM (o.view.descend o.directory) r = some n)
    (hnear : ∀ k x, o.ancestor k n = some x → o.isNumbered x → o.ClassNear x) {k : Nat}
    (hk : segments.length ≤ k) (below : List String) :
    o.view.climb .binary start k n below =
      .ok (root, segments.map ClassName.canonicalSegment ++ below) := by
  induction segments using List.reverseRecOn generalizing n k below with
  | nil =>
    obtain rfl : r = n := Option.some.inj h
    have hname : o.view.rootName .binary r = some root := by
      rw [ClassView.rootName]
      simp [view, topLevelName_eq_some_iff.2 hroot]
    exact ClassView.climb_of_rootName hname k
  | append_singleton segments segment ih =>
    rw [List.foldlM_append] at h
    obtain ⟨c, hc, hlast⟩ := Option.bind_eq_some_iff.1 h
    have hdescend : o.view.descend o.directory c segment = some n := by simpa using hlast
    obtain ⟨_, htop, i, hi⟩ := class_of_descend hdescend
    obtain ⟨k, rfl⟩ : ∃ j, k = j + 1 := ⟨k - 1, by simp at hk; omega⟩
    have hstep := step_of_descend hdescend (hnear 0 n rfl)
    rw [ClassView.climb_of_step (rootName_of_topLevelName htop) hstep]
    have hnear' : ∀ k x, o.ancestor k c = some x → o.isNumbered x → o.ClassNear x := by
      intro j x hx
      exact hnear (i + j) x ((ancestor_add hi j).trans hx)
    rw [ih hc hnear' (by simpa using hk)]
    simp

theorem isClass_of_foldlM_descend {r n : Nat} {segments : List (List Char)} (hr : o.isClass r)
    (h : segments.foldlM (o.view.descend o.directory) r = some n) : o.isClass n := by
  induction segments generalizing r with
  | nil => exact Option.some.inj h ▸ hr
  | cons segment segments ih =>
    rw [List.foldlM_cons] at h
    obtain ⟨c, hc, hrest⟩ := Option.bind_eq_some_iff.1 h
    exact ih (class_of_descend hc).1 hrest

/-- What a look-up finds is a class, and its binary name is the canonical form of the name that was
looked up, provided that a climb reaches that far. -/
theorem name_of_find_eq_some (o : Outline) (name : String) (n : Nat)
    (h : o.view.find o.directory name = some n) :
    o.isClass n ∧
    (name.toList.count '$' ≤ 1024 →
      (∀ k x, o.ancestor k n = some x → o.isNumbered x → o.ClassNear x) →
      o.view.name .binary n = .ok (ClassName.canonical name)) := by
  rw [ClassView.find] at h
  cases hsplit : (ClassName.toBinary name).toList.splitOn '$' with
  | nil => simp [hsplit] at h
  | cons first segments =>
    rw [hsplit] at h
    obtain ⟨r, hr, hfold⟩ := Option.bind_eq_some_iff.1 h
    have hroot := get?_of_topLevel? hr
    have hlength := Text.length_splitOn '$' (ClassName.toBinary name).toList
    rw [hsplit, ClassName.count_dollar_toBinary, List.length_cons] at hlength
    constructor
    · exact isClass_of_foldlM_descend (by simp [isClass, hroot, Declaration.isClass]) hfold
    · intro hcount hnear
      have hclimb := climb_of_foldlM_descend n hroot hfold hnear
        (show segments.length ≤ nestingLimit by rw [nestingLimit]; omega) []
      rw [ClassView.name, ClassView.path, hclimb, ClassName.canonical, hsplit]
      simp [ClassView.joinPath, Spelling.separator]

/-- A number with a sign and a leading zero is found, and its class is named without them. -/
theorem name_of_find_eq_some_sample :
    sample.view.find sample.directory "a/Outer$+01$In" = some 3 ∧
      sample.view.name .binary 3 = .ok "a.Outer$1$In" := by
  have hfind : sample.view.find sample.directory "a/Outer$+01$In" = some 3 := by decide +kernel
  have hnear : ∀ k x, sample.ancestor k 3 = some x → sample.isNumbered x → sample.ClassNear x := by
    intro k x hx hnumbered
    match k with
    | 0 | 2 | 3 =>
      cases hx
      exact absurd hnumbered (by decide)
    | 1 =>
      -- The local class stands in a method of the top-level class.
      cases hx
      exact ⟨1, 0, by omega, rfl, by decide⟩
    | k + 4 => cases hx
  have hname := (name_of_find_eq_some sample _ 3 hfind).2 (by decide) hnear
  have hcanonical : ClassName.canonical "a/Outer$+01$In" = "a.Outer$1$In" := by decide +kernel
  exact ⟨hfind, hcanonical ▸ hname⟩

end Outline
end JvmSymbols
