import JvmSymbols.Proofs.Naming.Inverse
import JvmSymbols.Proofs.Naming.Walk

/-! The spellings of one class's name. The climbs for all of them take the same steps and end at the same root, or
fail for the same reason, provided that every top-level class has a simple name. Where no declared name has a
slash, the binary name is the internal one with dots for slashes. -/
namespace JvmSymbols

open ClassName (toBinary toInternal)

namespace ClassView

variable {ν : Type}

theorem rootName_binary (v : ClassView ν) (n : ν) : v.rootName .binary n = v.topLevelName n := by
  rw [rootName]
  cases v.topLevelName n <;> rfl

theorem rootName_internal (v : ClassView ν) (n : ν) :
    v.rootName .internal n = (v.rootName .binary n).map toInternal := by
  rw [rootName, rootName]
  cases v.topLevelName n <;> rfl

variable [DecidableEq ν] {v : ClassView ν}

/-- The spelling shows at the end of a climb only. -/
theorem climb_internal (v : ClassView ν) (start : ν) (k : Nat) (n : ν) (below : List String) :
    v.climb .internal start k n below =
      (v.climb .binary start k n below).map fun p => (toInternal p.1, p.2) := by
  induction k generalizing n below with
  | zero =>
    rw [climb, climb, rootName_internal]
    cases v.rootName .binary n <;> rfl
  | succ k ih =>
    rw [climb, climb, rootName_internal]
    cases v.rootName .binary n with
    | some root => rfl
    | none =>
      cases v.step n with
      | error e => rfl
      | ok next => exact ih next.2 (next.1 :: below)

theorem name_internal (v : ClassView ν) (n : ν) :
    v.name .internal n =
      (v.path .binary n).map fun p => joinPath .internal (toInternal p.1, p.2) := by
  rw [name, path, climb_internal, path]
  cases v.climb .binary n nestingLimit n [] <;> rfl

section FourSpellings

variable {spelling : Spelling} {n r : ν} {fragments : List String}

/-- Whether every top-level class has a simple name. -/
def RootsNamed (v : ClassView ν) : Prop :=
  ∀ r q, v.topLevelName r = some q → ∃ simple, v.simpleName r = some simple

omit [DecidableEq ν] in
theorem RootsNamed.rootName_eq_none_iff (hv : v.RootsNamed) (spelling : Spelling) :
    v.rootName spelling n = none ↔ v.topLevelName n = none := by
  rw [rootName]
  cases hq : v.topLevelName n with
  | none => simp
  | some q =>
    obtain ⟨simple, hsimple⟩ := hv n q hq
    cases spelling <;> simp [hsimple]

omit [DecidableEq ν] in
theorem Walk.respell (hv : v.RootsNamed) (h : v.Walk spelling n fragments r) (other : Spelling) :
    v.Walk other n fragments r := by
  induction h with
  | stay n => exact .stay n
  | up hroot hstep _ ih =>
    have htop := (hv.rootName_eq_none_iff spelling).1 hroot
    exact .up ((hv.rootName_eq_none_iff other).2 htop) hstep ih

theorem RootsNamed.name_error (hv : v.RootsNamed) {e : NamingError ν} (h : v.name spelling n = .error e)
    (other : Spelling) : v.name other n = .error e := by
  have hsame {m : ν} (hroot : v.rootName spelling m = none) : v.rootName other m = none :=
    (hv.rootName_eq_none_iff other).2 ((hv.rootName_eq_none_iff spelling).1 hroot)
  obtain ⟨m, fault⟩ := e
  rcases name_eq_error_iff.1 h with
    ⟨hfault, hm, fragments, r, hwalk, hlength, hroot⟩ | ⟨hstuck, fragments, hwalk, hlength, hroot⟩
  · exact name_eq_error_iff.2
      (.inl ⟨hfault, hm, fragments, r, hwalk.respell hv other, hlength, hsame hroot⟩)
  · exact name_eq_error_iff.2
      (.inr ⟨hstuck, fragments, hwalk.respell hv other, hlength, hsame hroot⟩)

/-- If every top-level class has a simple name, then either all spellings of a name fail with one error, or one
walk leads to one top-level class, and each spelling shows this class and the fragments of the walk, outermost
first, in its own way. -/
theorem names_share_walk (v : ClassView ν) (hv : v.RootsNamed) (n : ν) :
    (∃ e, ∀ spelling, v.name spelling n = .error e) ∨
    ∃ r qualified simple fragments, v.topLevelName r = some qualified ∧ v.simpleName r = some simple ∧
      (∀ spelling, v.Walk spelling n fragments.reverse r) ∧
      v.name .qualified n = .ok (".".intercalate (qualified :: fragments)) ∧
      v.name .binary n = .ok ("$".intercalate (qualified :: fragments)) ∧
      v.name .internal n = .ok ("$".intercalate (toInternal qualified :: fragments)) ∧
      v.name .short n = .ok (".".intercalate (simple :: fragments)) := by
  cases hname : v.name .binary n with
  | error e => exact .inl ⟨e, hv.name_error hname⟩
  | ok s =>
    right
    obtain ⟨fragments, r, root, hwalk, hlength, hroot, _⟩ := name_eq_ok_iff.1 hname
    have htop : v.topLevelName r = some root := (rootName_binary v r).symm.trans hroot
    obtain ⟨simple, hsimple⟩ := hv r root htop
    have hqualified : v.rootName .qualified r = some root := by rw [rootName, htop]
    have hinternal : v.rootName .internal r = some (toInternal root) := by
      rw [rootName_internal, hroot, Option.map_some]
    have hshort : v.rootName .short r = some simple := by rw [rootName, htop, ← hsimple]
    have hnamed (other : Spelling) {shown : String} (hshown : v.rootName other r = some shown) :
        v.name other n = .ok (joinPath other (shown, fragments.reverse)) :=
      name_of_walk (hwalk.respell hv other) hlength hshown
    refine ⟨r, root, simple, fragments.reverse, htop, hsimple, ?_, hnamed .qualified hqualified,
      hname.symm.trans (hnamed .binary hroot), hnamed .internal hinternal, hnamed .short hshort⟩
    intro other
    rw [List.reverse_reverse]
    exact hwalk.respell hv other

end FourSpellings

end ClassView

namespace Outline

theorem rootsNamed_view (o : Outline) : o.view.RootsNamed := by
  intro r q hq
  have hget : o.get? r = some (.topLevel q) := topLevelName_eq_some_iff.1 hq
  cases hsplit : Text.splitLast '.' q.toList with
  | none => exact ⟨q, by simp [view, simpleName, hget, hsplit]⟩
  | some halves => exact ⟨String.ofList halves.2, by simp [view, simpleName, hget, hsplit]⟩

theorem names_share_walk_sample : sample.view.RootsNamed ∧
    ∃ r qualified simple fragments, sample.view.topLevelName r = some qualified ∧
      sample.view.simpleName r = some simple ∧
      (∀ spelling, sample.view.Walk spelling 3 fragments.reverse r) ∧
      sample.view.name .qualified 3 = .ok (".".intercalate (qualified :: fragments)) ∧
      sample.view.name .binary 3 = .ok ("$".intercalate (qualified :: fragments)) ∧
      sample.view.name .internal 3 = .ok ("$".intercalate (toInternal qualified :: fragments)) ∧
      sample.view.name .short 3 = .ok (".".intercalate (simple :: fragments)) := by
  have hbinary : sample.view.name .binary 3 = .ok "a.Outer$1$In" := by decide +kernel
  have hnamed := rootsNamed_view sample
  refine ⟨hnamed, (ClassView.names_share_walk sample.view hnamed 3).resolve_left ?_⟩
  rintro ⟨e, he⟩
  cases hbinary.symm.trans (he .binary)

structure SlashFree (o : Outline) : Prop where
  topLevel : ∀ n name, o.get? n = some (.topLevel name) → '/' ∉ name.toList
  member : ∀ n p name, o.get? n = some (.memberClass p name) → '/' ∉ name.toList

variable {o : Outline}

theorem SlashFree.slash_notMem_of_step (h : o.SlashFree) {n parent : Nat} {fragment : String}
    (hstep : o.view.step n = .ok (fragment, parent)) : '/' ∉ fragment.toList := by
  rcases member_or_number_of_step hstep with hget | ⟨i, _, rfl⟩
  · exact h.member n parent fragment hget
  · intro hslash
    exact absurd (Numeral.isDigit_of_mem_repr hslash) (by decide)

theorem SlashFree.name_binary (h : o.SlashFree) {n : Nat} {internal : String}
    (hname : o.view.name .internal n = .ok internal) :
    o.view.name .binary n = .ok (toBinary internal) := by
  rw [ClassView.name_internal] at hname
  rw [ClassView.name]
  cases hpath : o.view.path .binary n with
  | error e =>
    rw [hpath] at hname
    cases hname
  | ok path =>
    obtain ⟨root, fragments⟩ := path
    rw [hpath] at hname
    cases hname
    obtain ⟨walked, r, hwalk, _, hroot, rfl⟩ := ClassView.path_eq_ok_iff.1 hpath
    have hfragments : ∀ f ∈ walked.reverse, '/' ∉ f.toList := by
      intro f hf
      obtain ⟨m, p, hup⟩ := hwalk.exists_up_of_mem f (List.mem_reverse.1 hf)
      exact h.slash_notMem_of_step (ClassView.step_eq_ok_iff_up.2 hup)
    rw [ClassView.rootName_binary] at hroot
    have hplain : toBinary root = root :=
      ClassName.toBinary_eq_self (h.topLevel r root (topLevelName_eq_some_iff.1 hroot))
    have hjoined : toBinary ("$".intercalate (toInternal root :: walked.reverse)) =
        "$".intercalate (root :: walked.reverse) := by
      rw [ClassView.toBinary_intercalate, List.map_cons, ClassName.map_toBinary_eq_self hfragments,
        ClassName.toBinary_toInternal, hplain]
    exact congrArg Except.ok hjoined.symm

end Outline
end JvmSymbols
