import JvmSymbols.Naming.Resolve
import JvmSymbols.Proofs.Naming.Path

/-! Names as walks. On any view, however its relations fit together, a class has a name exactly if a walk
of at most 1024 steps leads from it to a root, and the name is what the walk spells. Where there is no
name, the fault says at which node the walk ends and why. -/
namespace JvmSymbols
namespace ClassView

variable {ν : Type} {v : ClassView ν} {n p q r : ν}

section Surroundings

def above (v : ClassView ν) : Nat → ν → Option ν
  | 0, n => some n
  | k + 1, n => (v.lexicalParent n).bind (v.above k)

theorem above_succ (h : v.lexicalParent n = some p) (k : Nat) : v.above (k + 1) n = v.above k p := by
  rw [above, h, Option.bind_some]

/-- The first class above a node, with `j` nodes in between. -/
structure FirstAbove (v : ClassView ν) (n : ν) (j : Nat) (p : ν) : Prop where
  above_eq : v.above (j + 1) n = some p
  isClass : v.isClass p
  first : ∀ i < j, ∀ m, v.above (i + 1) n = some m → ¬ v.isClass m

/-- The first class above a node, if it is among the first 1024 nodes there. -/
def Surrounds (v : ClassView ν) (p n : ν) : Prop := ∃ j < 1024, v.FirstAbove n j p

theorem firstAbove_succ_iff (hq : v.lexicalParent n = some q) (hclass : ¬ v.isClass q) {j : Nat} :
    v.FirstAbove n (j + 1) p ↔ v.FirstAbove q j p := by
  constructor
  · intro h
    refine ⟨above_succ hq _ ▸ h.above_eq, h.isClass, ?_⟩
    intro i hi m hm
    exact h.first (i + 1) (by omega) m ((above_succ hq _).trans hm)
  · intro h
    refine ⟨(above_succ hq _).trans h.above_eq, h.isClass, ?_⟩
    intro i hi m hm
    rw [above_succ hq] at hm
    cases i with
    | zero =>
      obtain rfl := Option.some.inj hm
      exact hclass
    | succ i => exact h.first i (by omega) m hm

theorem firstAbove_of_isClass (hq : v.lexicalParent n = some q) (hclass : v.isClass q) {j : Nat} :
    v.FirstAbove n j p ↔ j = 0 ∧ q = p := by
  have hone : v.above 1 n = some q := above_succ hq 0
  constructor
  · intro h
    cases j with
    | zero => exact ⟨rfl, Option.some.inj (hone.symm.trans h.above_eq)⟩
    | succ j => exact absurd hclass (h.first 0 (by omega) q hone)
  · rintro ⟨rfl, rfl⟩
    exact ⟨hone, hclass, by omega⟩

/-- The bounded search finds the first class above a node if few enough nodes are in between. -/
theorem nearestClass_eq_some_iff {k : Nat} :
    v.nearestClass k (v.lexicalParent n) = some p ↔ ∃ j < k, v.FirstAbove n j p := by
  induction k generalizing n with
  | zero => simp [nearestClass]
  | succ k ih =>
    cases hq : v.lexicalParent n with
    | none =>
      have hnone {j : Nat} : ¬ v.FirstAbove n j p := fun h => by simpa [above, hq] using h.above_eq
      simp [nearestClass, hnone]
    | some q =>
      by_cases hclass : v.isClass q
      · rw [nearestClass, if_pos hclass, Option.some.injEq]
        simp only [firstAbove_of_isClass hq hclass]
        exact ⟨fun h => ⟨0, by omega, rfl, h⟩, fun ⟨_, _, _, h⟩ => h⟩
      · rw [nearestClass, if_neg hclass, ih]
        constructor
        · rintro ⟨j, hj, h⟩
          exact ⟨j + 1, by omega, (firstAbove_succ_iff hq hclass).2 h⟩
        · rintro ⟨j, hj, h⟩
          cases j with
          | zero =>
            obtain rfl := Option.some.inj ((above_succ hq 0).symm.trans h.above_eq)
            exact absurd h.isClass hclass
          | succ j => exact ⟨j, by omega, (firstAbove_succ_iff hq hclass).1 h⟩

theorem enclosing_eq_some_iff : v.enclosing n = some p ↔ v.Surrounds p n :=
  nearestClass_eq_some_iff

theorem enclosing_eq_none_iff : v.enclosing n = none ↔ ∀ p, ¬ v.Surrounds p n := by
  rw [Option.eq_none_iff_forall_ne_some]
  exact forall_congr' fun p => not_congr enclosing_eq_some_iff

end Surroundings

section Steps

/-- The first place of `n` among the classes that `p` numbers, counted from zero. -/
structure PlacedAt (v : ClassView ν) (p n : ν) (i : Nat) : Prop where
  getElem?_eq : (v.numbered p)[i]? = some n
  first : ∀ j < i, (v.numbered p)[j]? ≠ some n

/-- One step of a walk, with the fragment it leaves: from a member to its container, and from any other
node to the class that surrounds it. -/
inductive Up (v : ClassView ν) : ν → String → ν → Prop
  | member {n p : ν} {name : String} (hcontainer : v.container n = some p)
    (hname : v.simpleName n = some name) : Up v n name p
  | numbered {n p : ν} {i : Nat} (hcontainer : v.container n = none) (hp : v.Surrounds p n)
    (hplace : v.PlacedAt p n i) : Up v n (i + 1).repr p

inductive Stuck (v : ClassView ν) : NamingFault → ν → Prop
  | memberWithoutName {n p : ν} (hcontainer : v.container n = some p) (hname : v.simpleName n = none) :
    Stuck v .memberWithoutName n
  | noEnclosingClass {n : ν} (hcontainer : v.container n = none) (hp : ∀ p, ¬ v.Surrounds p n) :
    Stuck v .noEnclosingClass n
  | notNumbered {n p : ν} (hcontainer : v.container n = none) (hp : v.Surrounds p n)
    (hplace : n ∉ v.numbered p) : Stuck v .notNumbered n

theorem Stuck.ne_endless {fault : NamingFault} (h : v.Stuck fault n) : fault ≠ .endless := by
  cases h <;> simp

variable [DecidableEq ν] {fragment : String}

theorem number?_eq_some_iff {k : Nat} :
    v.number? p n = some k ↔ ∃ i, v.PlacedAt p n i ∧ i + 1 = k := by
  rw [number?, Option.map_eq_some_iff]
  refine exists_congr fun i => and_congr_left fun _ => ?_
  rw [List.findIdx?_eq_some_iff_getElem]
  constructor
  · rintro ⟨hlt, hn, hfirst⟩
    refine ⟨?_, fun j hj hfound => ?_⟩
    · rw [List.getElem?_eq_getElem hlt, of_decide_eq_true hn]
    · obtain ⟨_, hjn⟩ := List.getElem?_eq_some_iff.1 hfound
      exact hfirst j hj (decide_eq_true hjn)
  · intro h
    obtain ⟨hlt, hn⟩ := List.getElem?_eq_some_iff.1 h.getElem?_eq
    refine ⟨hlt, decide_eq_true hn, fun j hj hfound => ?_⟩
    have hjlt : j < (v.numbered p).length := Nat.lt_trans hj hlt
    exact h.first j hj (List.getElem?_eq_some_iff.2 ⟨hjlt, of_decide_eq_true hfound⟩)

theorem number?_eq_none_iff : v.number? p n = none ↔ n ∉ v.numbered p := by
  rw [number?, Option.map_eq_none_iff, List.findIdx?_eq_none_iff]
  constructor
  · intro h hn
    simpa using h n hn
  · intro h m hm
    exact decide_eq_false fun hmn => h (hmn ▸ hm)

theorem step_eq_ok_iff_up : v.step n = .ok (fragment, p) ↔ v.Up n fragment p := by
  rw [step_eq_ok_iff, enclosing_eq_some_iff]
  constructor
  · rintro (⟨hcontainer, hname⟩ | ⟨hcontainer, hp, k, hnumber, rfl⟩)
    · exact .member hcontainer hname
    · obtain ⟨i, hplace, rfl⟩ := number?_eq_some_iff.1 hnumber
      exact .numbered hcontainer hp hplace
  · intro h
    cases h with
    | member hcontainer hname => exact .inl ⟨hcontainer, hname⟩
    | numbered hcontainer hp hplace =>
      exact .inr ⟨hcontainer, hp, _, number?_eq_some_iff.2 ⟨_, hplace, rfl⟩, rfl⟩

theorem step_eq_error_iff {e : NamingError ν} :
    v.step n = .error e ↔ e.node = n ∧ v.Stuck e.fault n := by
  obtain ⟨m, fault⟩ := e
  constructor
  · intro h
    rw [step] at h
    split at h
    · rename_i parent hcontainer
      split at h
      · cases h
      · rename_i hname
        cases h
        exact ⟨rfl, .memberWithoutName hcontainer hname⟩
    · rename_i hcontainer
      split at h
      · rename_i henclosing
        cases h
        exact ⟨rfl, .noEnclosingClass hcontainer (enclosing_eq_none_iff.1 henclosing)⟩
      · rename_i parent henclosing
        have hp := enclosing_eq_some_iff.1 henclosing
        cases hnumber : v.number? parent n with
        | some k => simp [number, hnumber] at h
        | none =>
          simp only [number, hnumber, Except.error.injEq, NamingError.mk.injEq] at h
          obtain ⟨rfl, rfl⟩ := h
          exact ⟨rfl, .notNumbered hcontainer hp (number?_eq_none_iff.1 hnumber)⟩
  · rintro ⟨rfl, h⟩
    cases h with
    | memberWithoutName hcontainer hname => simp [step, hcontainer, hname]
    | noEnclosingClass hcontainer hp => simp [step, hcontainer, enclosing_eq_none_iff.2 hp]
    | notNumbered hcontainer hp hplace =>
      simp [step, hcontainer, enclosing_eq_some_iff.2 hp, number, number?_eq_none_iff.2 hplace]

/-- A node is stuck, for one reason, exactly if no step leads on from it. -/
theorem exists_stuck_iff : (∃ fault, v.Stuck fault n) ↔ ∀ fragment p, ¬ v.Up n fragment p := by
  constructor
  · rintro ⟨fault, h⟩ fragment p hup
    have herror : v.step n = .error ⟨n, fault⟩ := step_eq_error_iff.2 ⟨rfl, h⟩
    cases herror.symm.trans (step_eq_ok_iff_up.2 hup)
  · intro h
    cases hstep : v.step n with
    | ok next => exact absurd (step_eq_ok_iff_up.1 hstep) (h next.1 next.2)
    | error e => exact ⟨e.fault, (step_eq_error_iff.1 hstep).2⟩

end Steps

/-- A walk with its fragments, innermost first. No node that it leaves has a root name. -/
inductive Walk (v : ClassView ν) (spelling : Spelling) : ν → List String → ν → Prop
  | stay (n : ν) : Walk v spelling n [] n
  | up {n p r : ν} {fragment : String} {fragments : List String}
    (hroot : v.rootName spelling n = none) (hstep : v.Up n fragment p)
    (hrest : Walk v spelling p fragments r) : Walk v spelling n (fragment :: fragments) r

theorem Walk.exists_up_of_mem {spelling : Spelling} {fragments : List String}
    (h : v.Walk spelling n fragments r) : ∀ f ∈ fragments, ∃ m p, v.Up m f p := by
  induction h with
  | stay n => simp
  | up _ hstep _ ih =>
    rw [List.forall_mem_cons]
    exact ⟨⟨_, _, hstep⟩, ih⟩

/-- If the descent undoes each step, then from the end of a walk it leads back to where the walk began. -/
theorem Walk.foldlM_descend {spelling : Spelling} {fragments : List String} {d : ClassDirectory ν}
    (h : v.Walk spelling n fragments r)
    (hundo : ∀ m f p, v.Up m f p → v.descend d p f.toList = some m) :
    (fragments.reverse.map String.toList).foldlM (v.descend d) r = some n := by
  induction h with
  | stay n => rfl
  | up _ hstep _ ih =>
    rw [List.reverse_cons, List.map_append, List.foldlM_append, ih]
    simpa using hundo _ _ _ hstep

/-- Where a walk that may take `j` more steps goes no further. -/
inductive Finished (v : ClassView ν) (spelling : Spelling) : Nat → ν → Prop
  | root {j : Nat} {r : ν} {root : String} (hroot : v.rootName spelling r = some root) :
    Finished v spelling j r
  | endless {r : ν} (hroot : v.rootName spelling r = none) : Finished v spelling 0 r
  | stuck {j : Nat} {r : ν} {fault : NamingFault} (hroot : v.rootName spelling r = none)
    (hstuck : v.Stuck fault r) : Finished v spelling (j + 1) r

section Climbs

variable [DecidableEq ν] {spelling : Spelling} {start : ν} {root : String} {below path : List String}
  {k : Nat}

theorem exists_walk_finished (v : ClassView ν) (spelling : Spelling) (k : Nat) (n : ν) :
    ∃ fragments r j, v.Walk spelling n fragments r ∧ fragments.length + j = k ∧
      v.Finished spelling j r := by
  induction k generalizing n with
  | zero =>
    refine ⟨[], n, 0, .stay n, rfl, ?_⟩
    cases hroot : v.rootName spelling n with
    | some root => exact .root hroot
    | none => exact .endless hroot
  | succ k ih =>
    cases hroot : v.rootName spelling n with
    | some root => exact ⟨[], n, k + 1, .stay n, by simp, .root hroot⟩
    | none =>
      cases hstep : v.step n with
      | error e =>
        exact ⟨[], n, k + 1, .stay n, by simp, .stuck hroot (step_eq_error_iff.1 hstep).2⟩
      | ok next =>
        obtain ⟨fragments, r, j, hwalk, hlength, hend⟩ := ih next.2
        refine ⟨next.1 :: fragments, r, j, .up hroot (step_eq_ok_iff_up.1 hstep) hwalk, ?_, hend⟩
        rw [List.length_cons]
        omega

theorem climb_of_walk {fragments : List String} (h : v.Walk spelling n fragments r) (j : Nat) :
    v.climb spelling start (fragments.length + j) n below =
      v.climb spelling start j r (fragments.reverse ++ below) := by
  -- The climb takes fragments up in front of those below, so the walk's come out reversed.
  induction h generalizing below with
  | stay n => simp
  | @up n p r fragment fragments hroot hstep _ ih =>
    rw [List.length_cons, Nat.add_right_comm, climb_of_step hroot (step_eq_ok_iff_up.2 hstep), ih]
    simp

theorem climb_zero (hroot : v.rootName spelling n = none) :
    v.climb spelling start 0 n below = .error ⟨start, .endless⟩ := by
  rw [climb, hroot]

theorem climb_of_stuck {fault : NamingFault} (hroot : v.rootName spelling n = none)
    (hstuck : v.Stuck fault n) : v.climb spelling start (k + 1) n below = .error ⟨n, fault⟩ := by
  have hstep : v.step n = .error ⟨n, fault⟩ := step_eq_error_iff.2 ⟨rfl, hstuck⟩
  rw [climb, hroot, hstep]

/-- A climb succeeds exactly if a walk that is short enough leads to a root. -/
theorem climb_eq_ok_iff :
    v.climb spelling start k n below = .ok (root, path) ↔
      ∃ fragments r, v.Walk spelling n fragments r ∧ fragments.length ≤ k ∧
        v.rootName spelling r = some root ∧ path = fragments.reverse ++ below := by
  constructor
  · intro h
    obtain ⟨fragments, r, j, hwalk, rfl, hend⟩ := exists_walk_finished v spelling k n
    rw [climb_of_walk hwalk] at h
    cases hend with
    | root hroot =>
      rw [climb_of_rootName hroot] at h
      cases h
      exact ⟨fragments, r, hwalk, by omega, hroot, rfl⟩
    | endless hroot =>
      rw [climb_zero hroot] at h
      cases h
    | stuck hroot hstuck =>
      rw [climb_of_stuck hroot hstuck] at h
      cases h
  · rintro ⟨fragments, r, hwalk, hlength, hroot, rfl⟩
    obtain ⟨j, rfl⟩ := Nat.exists_eq_add_of_le hlength
    rw [climb_of_walk hwalk, climb_of_rootName hroot]

theorem path_eq_ok_iff :
    v.path spelling n = .ok (root, path) ↔
      ∃ fragments r, v.Walk spelling n fragments r ∧ fragments.length ≤ 1024 ∧
        v.rootName spelling r = some root ∧ path = fragments.reverse := by
  rw [ClassView.path, climb_eq_ok_iff, nestingLimit]
  simp only [List.append_nil]

/-- A climb fails exactly if a walk takes all the steps it may, or is stuck before that. -/
theorem climb_eq_error_iff {m : ν} {fault : NamingFault} :
    v.climb spelling start k n below = .error ⟨m, fault⟩ ↔
      (fault = .endless ∧ m = start ∧ ∃ fragments r, v.Walk spelling n fragments r ∧
        fragments.length = k ∧ v.rootName spelling r = none) ∨
      (v.Stuck fault m ∧ ∃ fragments, v.Walk spelling n fragments m ∧ fragments.length < k ∧
        v.rootName spelling m = none) := by
  constructor
  · intro h
    obtain ⟨fragments, r, j, hwalk, rfl, hend⟩ := exists_walk_finished v spelling k n
    rw [climb_of_walk hwalk] at h
    cases hend with
    | root hroot =>
      rw [climb_of_rootName hroot] at h
      cases h
    | endless hroot =>
      rw [climb_zero hroot] at h
      cases h
      exact .inl ⟨rfl, rfl, fragments, r, hwalk, rfl, hroot⟩
    | stuck hroot hstuck =>
      rw [climb_of_stuck hroot hstuck] at h
      cases h
      exact .inr ⟨hstuck, fragments, hwalk, by omega, hroot⟩
  · rintro (⟨rfl, rfl, fragments, r, hwalk, rfl, hroot⟩ | ⟨hstuck, fragments, hwalk, hlength, hroot⟩)
    · exact (climb_of_walk hwalk 0).trans (climb_zero hroot)
    · obtain ⟨j, rfl⟩ := Nat.exists_eq_add_of_lt hlength
      rw [Nat.add_assoc, climb_of_walk hwalk, climb_of_stuck hroot hstuck]

end Climbs

section Names

theorem intercalate_cons (separator first : String) (rest : List String) :
    separator.intercalate (first :: rest) = first ++ String.join (rest.map (separator ++ ·)) := by
  induction rest generalizing first with
  | nil => simp
  | cons next rest ih =>
    rw [String.intercalate_cons_cons, ih, List.map_cons, String.join_cons]
    simp only [String.append_assoc]

variable [DecidableEq ν] {spelling : Spelling}

def spell (spelling : Spelling) (root : String) (fragments : List String) : String :=
  root ++ String.join (fragments.reverse.map (String.singleton spelling.separator ++ ·))

theorem name_of_walk {root : String} {fragments : List String} (h : v.Walk spelling n fragments r)
    (hlength : fragments.length ≤ 1024) (hroot : v.rootName spelling r = some root) :
    v.name spelling n = .ok (joinPath spelling (root, fragments.reverse)) := by
  rw [name, path_eq_ok_iff.2 ⟨fragments, r, h, hlength, hroot, rfl⟩]

theorem exists_walk_of_name {s : String} (h : v.name spelling n = .ok s) :
    ∃ fragments r root, v.Walk spelling n fragments r ∧ fragments.length ≤ 1024 ∧
      v.rootName spelling r = some root ∧ s = joinPath spelling (root, fragments.reverse) := by
  rw [name] at h
  cases hpath : v.path spelling n with
  | error e => simp [hpath] at h
  | ok path =>
    obtain ⟨root, parts⟩ := path
    obtain ⟨fragments, r, hwalk, hlength, hroot, rfl⟩ := path_eq_ok_iff.1 hpath
    simp only [hpath, Except.ok.injEq] at h
    exact ⟨fragments, r, root, hwalk, hlength, hroot, h.symm⟩

theorem name_eq_ok_iff {s : String} :
    v.name spelling n = .ok s ↔ ∃ fragments r root, v.Walk spelling n fragments r ∧
      fragments.length ≤ 1024 ∧ v.rootName spelling r = some root ∧ s = spell spelling root fragments := by
  have hspell (root : String) (fragments : List String) :
      joinPath spelling (root, fragments.reverse) = spell spelling root fragments :=
    intercalate_cons _ _ _
  constructor
  · intro h
    obtain ⟨fragments, r, root, hwalk, hlength, hroot, rfl⟩ := exists_walk_of_name h
    exact ⟨fragments, r, root, hwalk, hlength, hroot, hspell root fragments⟩
  · rintro ⟨fragments, r, root, hwalk, hlength, hroot, rfl⟩
    rw [name_of_walk hwalk hlength hroot, hspell]

theorem name_eq_error_iff {m : ν} {fault : NamingFault} :
    v.name spelling n = .error ⟨m, fault⟩ ↔
      (fault = .endless ∧ m = n ∧ ∃ fragments r, v.Walk spelling n fragments r ∧
        fragments.length = 1024 ∧ v.rootName spelling r = none) ∨
      (v.Stuck fault m ∧ ∃ fragments, v.Walk spelling n fragments m ∧ fragments.length < 1024 ∧
        v.rootName spelling m = none) := by
  have hclimb : v.name spelling n = .error ⟨m, fault⟩ ↔
      v.climb spelling n nestingLimit n [] = .error ⟨m, fault⟩ := by
    rw [name, path]
    cases v.climb spelling n nestingLimit n [] <;> simp
  rw [hclimb]
  exact climb_eq_error_iff

theorem message_eq_iff_endless {fault : NamingFault} :
    fault.message = "class nesting does not terminate" ↔ fault = .endless := by
  cases fault <;> decide

/-- On every view a node has the name that a walk of at most 1024 steps to a root spells. Without such a
walk the nesting is endless, and the node itself is blamed, exactly if 1024 steps can be made without
meeting a root. All other blame falls on the node on which a shorter walk is stuck. -/
theorem name_refines_walk (v : ClassView ν) (spelling : Spelling) (n : ν) :
    (∀ s, v.name spelling n = .ok s ↔ ∃ fragments r root, v.Walk spelling n fragments r ∧
      fragments.length ≤ 1024 ∧ v.rootName spelling r = some root ∧
      s = spell spelling root fragments) ∧
    ((∃ fault, v.name spelling n = .error ⟨n, fault⟩ ∧
        fault.message = "class nesting does not terminate") ↔
      ∃ fragments r, v.Walk spelling n fragments r ∧ fragments.length = 1024 ∧
        v.rootName spelling r = none) ∧
    ∀ m fault, v.name spelling n = .error ⟨m, fault⟩ ↔
      (fault = .endless ∧ m = n ∧ ∃ fragments r, v.Walk spelling n fragments r ∧
        fragments.length = 1024 ∧ v.rootName spelling r = none) ∨
      (v.Stuck fault m ∧ (∀ fragment p, ¬ v.Up m fragment p) ∧
        ∃ fragments, v.Walk spelling n fragments m ∧ fragments.length < 1024 ∧
          v.rootName spelling m = none) := by
  refine ⟨fun s => name_eq_ok_iff, ?_, fun m fault => ?_⟩
  · simp only [message_eq_iff_endless, exists_eq_right, name_eq_error_iff, true_and]
    constructor
    · rintro (hwalk | ⟨hstuck, _⟩)
      · exact hwalk
      · exact absurd rfl hstuck.ne_endless
    · exact .inl
  · rw [name_eq_error_iff]
    refine or_congr_right (and_congr_right fun hstuck => ?_)
    exact (and_iff_right (exists_stuck_iff.1 ⟨fault, hstuck⟩)).symm

end Names

end ClassView
end JvmSymbols
