import JvmSymbols.Proofs.Naming.Lookup
import JvmSymbols.Proofs.Naming.Order
import JvmSymbols.Proofs.Naming.Path
import JvmSymbols.Proofs.Except

/-! Names are found again. In an outline whose declared names cannot be confused, each step of a climb
is undone by one step of the descent, and so the binary and the internal name of a class lead back
to it. -/
namespace JvmSymbols
namespace Outline

/-- Whether declared names can be told apart: top-level classes from one another, the members of one
class from one another and from numbers, and all of them from joined names. What local classes are
called does not matter. -/
structure Unambiguous (o : Outline) : Prop where
  topLevel_unique : ∀ i j name, o.get? i = some (.topLevel name) →
    o.get? j = some (.topLevel name) → i = j
  topLevel_plain : ∀ i name, o.get? i = some (.topLevel name) → '$' ∉ name.toList ∧ '/' ∉ name.toList
  member_unique : ∀ i j p name, o.get? i = some (.memberClass p name) →
    o.get? j = some (.memberClass p name) → i = j
  member_plain : ∀ i p name, o.get? i = some (.memberClass p name) →
    '$' ∉ name.toList ∧ '/' ∉ name.toList
  member_not_number : ∀ i p name, o.get? i = some (.memberClass p name) →
    Numeral.unsigned64? name.toList = none

variable {o : Outline}

theorem number?_lt_limit64 {parent child i : Nat} (h : o.view.number? parent child = some i) :
    i < Numeral.limit64 := by
  obtain ⟨k, rfl, hk⟩ := ClassView.exists_getElem?_of_number? h
  have hlt : k < (o.numbered parent).length := (List.getElem?_eq_some_iff.1 hk).1
  have hlength : (o.numbered parent).length ≤ o.size := length_numbered_le parent
  have hsize : o.size ≤ capacity := o.size_le
  rw [capacity] at hsize
  rw [Numeral.limit64]
  omega

theorem member_or_number_of_step {n parent : Nat} {fragment : String}
    (h : o.view.step n = .ok (fragment, parent)) :
    o.get? n = some (.memberClass parent fragment) ∨
      ∃ i, o.view.number? parent n = some i ∧ i.repr = fragment := by
  rcases ClassView.step_eq_ok_iff.1 h with ⟨hcontainer, hname⟩ | ⟨_, _, hnumber⟩
  · left
    obtain ⟨name, hget⟩ := container_eq_some_iff.1 hcontainer
    obtain rfl : name = fragment := Option.some.inj ((simpleName_of_memberClass hget).symm.trans hname)
    exact hget
  · exact .inr hnumber

/-- One step down undoes one step up. -/
theorem descend_of_step (h : o.Unambiguous) {n parent : Nat} {fragment : String}
    (hstep : o.view.step n = .ok (fragment, parent)) :
    o.view.descend o.directory parent fragment.toList = some n := by
  rcases member_or_number_of_step hstep with hget | ⟨i, hnumber, rfl⟩
  · rw [ClassView.descend, h.member_not_number n parent fragment hget, String.ofList_toList]
    exact member?_of_get? hget fun i hi => h.member_unique i n parent fragment hi hget
  · rw [ClassView.descend, Numeral.unsigned64?_repr (number?_lt_limit64 hnumber)]
    obtain ⟨k, rfl, hk⟩ := ClassView.exists_getElem?_of_number? hnumber
    exact hk

theorem plain_of_step (h : o.Unambiguous) {n parent : Nat} {fragment : String}
    (hstep : o.view.step n = .ok (fragment, parent)) :
    '$' ∉ fragment.toList ∧ '/' ∉ fragment.toList := by
  rcases member_or_number_of_step hstep with hget | ⟨i, _, rfl⟩
  · exact h.member_plain n parent fragment hget
  · constructor
    · intro hdollar
      exact absurd (Numeral.isDigit_of_mem_repr hdollar) (by decide)
    · intro hslash
      exact absurd (Numeral.isDigit_of_mem_repr hslash) (by decide)

theorem get?_of_rootName {spelling : Spelling} (hspelling : spelling = .binary ∨ spelling = .internal)
    {r : Nat} {root : String} (h : o.view.rootName spelling r = some root) :
    ∃ name, o.get? r = some (.topLevel name) ∧
      ClassName.toBinary root = ClassName.toBinary name := by
  rw [ClassView.rootName] at h
  cases hname : o.topLevelName r with
  | none => simp [view, hname] at h
  | some name =>
    refine ⟨name, topLevelName_eq_some_iff.1 hname, ?_⟩
    rcases hspelling with rfl | rfl
    · simp only [view, hname, Option.some.injEq] at h
      rw [h]
    · simp only [view, hname, Option.some.injEq] at h
      rw [← h, ClassName.toBinary_toInternal]

theorem separator_eq {spelling : Spelling}
    (hspelling : spelling = .binary ∨ spelling = .internal) : spelling.separator = '$' := by
  rcases hspelling with rfl | rfl <;> rfl

/-- A binary or internal name leads back to the class it was made for. -/
theorem find_of_name (h : o.Unambiguous) {spelling : Spelling}
    (hspelling : spelling = .binary ∨ spelling = .internal) {n : Nat} {name : String}
    (hname : o.view.name spelling n = .ok name) : o.view.find o.directory name = some n := by
  obtain ⟨fragments, r, root, hwalk, _, hroot, rfl⟩ := ClassView.exists_walk_of_name hname
  have hdescent := hwalk.foldlM_descend fun m f p hup =>
    descend_of_step h (ClassView.step_eq_ok_iff_up.2 hup)
  obtain ⟨qualified, hget, hsame⟩ := get?_of_rootName hspelling hroot
  have hplain := h.topLevel_plain r qualified hget
  have hbinary : ClassName.toBinary root = qualified :=
    hsame.trans (ClassName.toBinary_eq_self hplain.2)
  have hfragments : ∀ f ∈ fragments.reverse, '$' ∉ f.toList ∧ '/' ∉ f.toList := by
    intro f hf
    obtain ⟨m, p, hup⟩ := hwalk.exists_up_of_mem f (List.mem_reverse.1 hf)
    exact plain_of_step h (ClassView.step_eq_ok_iff_up.2 hup)
  have hsegments := ClassView.splitOn_toBinary_intercalate (hbinary.symm ▸ hplain.1) hfragments
  have htop : o.topLevel? qualified = some r :=
    topLevel?_of_get? hget fun i hi => h.topLevel_unique i r qualified hi hget
  have hjoined : ClassView.joinPath spelling (root, fragments.reverse) =
      "$".intercalate (root :: fragments.reverse) := by
    rw [ClassView.joinPath, separator_eq hspelling]
    rfl
  rw [ClassView.find, hjoined, hsegments]
  simp only [hbinary, String.ofList_toList]
  exact Option.bind_eq_some_iff.2 ⟨r, htop, hdescent⟩

/-- In an unambiguous outline a class is found by its binary name and by its internal name. -/
theorem find_name_eq_some (o : Outline) (h : o.Unambiguous) (n : Nat) :
    (∀ binary, o.view.name .binary n = .ok binary →
      o.view.find o.directory binary = some n) ∧
    ∀ internal, o.view.name .internal n = .ok internal →
      o.view.find o.directory internal = some n := by
  constructor
  · intro binary hbinary
    exact find_of_name h (.inl rfl) hbinary
  · intro internal hinternal
    exact find_of_name h (.inr rfl) hinternal

theorem sample_topLevel {i : Nat} {name : String} (h : sample.get? i = some (.topLevel name)) :
    i = 0 ∧ name = "a.Outer" := by
  have hlt : i < 5 := lt_size_of_get? h
  match i with
  | 0 =>
    cases h
    exact ⟨rfl, rfl⟩
  | 1 | 2 | 3 | 4 => cases h

theorem sample_member {i p : Nat} {name : String}
    (h : sample.get? i = some (.memberClass p name)) : i = 3 ∧ name = "In" := by
  have hlt : i < 5 := lt_size_of_get? h
  match i with
  | 3 =>
    cases h
    exact ⟨rfl, rfl⟩
  | 0 | 1 | 2 | 4 => cases h

theorem find_name_eq_some_sample :
    sample.Unambiguous ∧ sample.view.find sample.directory "a.Outer$1$In" = some 3 ∧
      sample.view.find sample.directory "a/Outer$2" = some 4 := by
  have hunambiguous : sample.Unambiguous :=
    { topLevel_unique := by
        intro i j name hi hj
        rw [(sample_topLevel hi).1, (sample_topLevel hj).1]
      topLevel_plain := by
        intro i name hi
        rw [(sample_topLevel hi).2]
        decide
      member_unique := by
        intro i j p name hi hj
        rw [(sample_member hi).1, (sample_member hj).1]
      member_plain := by
        intro i p name hi
        rw [(sample_member hi).2]
        decide
      member_not_number := by
        intro i p name hi
        rw [(sample_member hi).2]
        decide }
  have hbinary : (sample.view.name .binary 3).toOption = some "a.Outer$1$In" := by decide +kernel
  have hinternal : (sample.view.name .internal 4).toOption = some "a/Outer$2" := by decide +kernel
  exact ⟨hunambiguous, (find_name_eq_some sample hunambiguous 3).1 _ (Except.toOption_eq_some_iff.1 hbinary),
    (find_name_eq_some sample hunambiguous 4).2 _ (Except.toOption_eq_some_iff.1 hinternal)⟩

end Outline
end JvmSymbols
