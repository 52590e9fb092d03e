import JvmSymbols.Proofs.Naming.Walk
import JvmSymbols.Proofs.Naming.Soundness
import Mathlib.Data.List.Forall2

/-! Climbs in an outline, from member classes to their parents and from numbered classes to the nearest class
around them. A node has a name exactly if its climb meets no scope and ends at a top-level class within the
two limits, and each class on the way gives the name one fragment. -/
namespace JvmSymbols
namespace Outline

variable {o : Outline} {n p r : Nat}

inductive Up (o : Outline) : Nat → Nat → Prop
  | member {n p : Nat} {name : String} (hget : o.get? n = some (.memberClass p name)) : Up o n p
  | numbered {n c : Nat} (hn : o.isNumbered n) (hc : o.isClass c) (hbelow : Below o c n) : Up o n c

/-- What a class contributes to the names of the classes in it: a member its own name, any other class its
place among the numbered classes of the class around it, counted from one. -/
inductive Fragment (o : Outline) : Nat → String → Prop
  | member {n p : Nat} {name : String} (hget : o.get? n = some (.memberClass p name)) : Fragment o n name
  | numbered {n c i : Nat} (hn : o.isNumbered n) (hc : o.isClass c) (hbelow : Below o c n)
    (hplace : (o.numbered c)[i]? = some n) : Fragment o n (i + 1).repr

theorem not_isNumbered_of_memberClass {name : String} (hget : o.get? n = some (.memberClass p name)) :
    ¬ o.isNumbered n := by
  simp [isNumbered, hget, Declaration.isNumbered]

namespace Up

theorem unique {q : Nat} (hp : o.Up n p) (hq : o.Up n q) : p = q := by
  cases hp with
  | member hget =>
    cases hq with
    | member hget' => cases hget.symm.trans hget'; rfl
    | numbered hn => exact absurd hn (not_isNumbered_of_memberClass hget)
  | numbered hn hc hbelow =>
    cases hq with
    | member hget => exact absurd hn (not_isNumbered_of_memberClass hget)
    | numbered _ hc' hbelow' => exact hbelow.class_unique hc hc' hbelow'

theorem exists_parent (h : o.Up n p) : ∃ q, o.parent n = some q := by
  cases h with
  | member hget => exact ⟨p, by simp [parent, hget, Declaration.parent]⟩
  | numbered _ _ hbelow => exact hbelow.exists_parent

theorem lt (h : o.Up n p) : p < n := by
  cases h with
  | member hget =>
    have hp : o.parent n = some p := by simp [parent, hget, Declaration.parent]
    exact lt_of_parent hp
  | numbered _ _ hbelow => exact hbelow.lt

theorem lt_size (h : o.Up n p) : n < o.size := by
  obtain ⟨_, hparent⟩ := h.exists_parent
  exact lt_size_of_parent hparent

theorem topLevelName_eq_none (h : o.Up n p) : o.topLevelName n = none := by
  obtain ⟨_, hparent⟩ := h.exists_parent
  exact topLevelName_eq_none_of_parent hparent

theorem not_isScope (h : o.Up n p) : ¬ o.isScope n := by
  cases h with
  | member hget => simp [isScope, hget, Declaration.isScope, Declaration.isClass]
  | numbered hn => exact fun hscope => not_isNumbered_of_isScope hscope hn

end Up

theorem above_view (k n : Nat) : o.view.above k n = o.ancestor k n := by
  induction k generalizing n with
  | zero => rfl
  | succ k ih =>
    rw [ClassView.above, ancestor]
    exact congrArg (o.parent n).bind (funext ih)

theorem below_of_nearestClass {c x k : Nat} (h : o.view.nearestClass k (o.parent x) = some c) :
    o.isClass c ∧ Below o c x := by
  induction k generalizing x with
  | zero => cases h
  | succ k ih =>
    cases hp : o.parent x with
    | none =>
      rw [hp] at h
      cases h
    | some p =>
      rw [hp] at h
      by_cases hclass : o.isClass p
      · have hstep : o.view.nearestClass (k + 1) (some p) = some p := if_pos hclass
        obtain rfl := Option.some.inj (hstep.symm.trans h)
        exact ⟨hclass, .child hp⟩
      · have hstep : o.view.nearestClass (k + 1) (some p) = o.view.nearestClass k (o.parent p) :=
          if_neg hclass
        obtain ⟨hc, hbelow⟩ := ih (hstep.symm.trans h)
        obtain ⟨q, hq⟩ := hbelow.exists_parent
        exact ⟨hc, .inScope hbelow (isScope_of_parent hq hclass) hp⟩

theorem surrounds_iff {c x : Nat} :
    o.view.Surrounds c x ↔ o.isClass c ∧ Below o c x ∧ o.ClassNear x := by
  constructor
  · intro h
    obtain ⟨hc, hbelow⟩ := below_of_nearestClass (ClassView.enclosing_eq_some_iff.2 h)
    obtain ⟨j, hj, hfirst⟩ := h
    exact ⟨hc, hbelow, j, c, hj, above_view (o := o) (j + 1) x ▸ hfirst.above_eq, hc⟩
  · rintro ⟨hc, hbelow, hnear⟩
    exact ClassView.enclosing_eq_some_iff.1 (enclosing_eq hc hbelow hnear)

theorem placedAt_iff {c x i : Nat} : o.view.PlacedAt c x i ↔ (o.numbered c)[i]? = some x := by
  constructor
  · intro h
    exact h.getElem?_eq
  · intro h
    refine ⟨h, fun j hj hfound => ?_⟩
    have hi := ClassView.number?_of_getElem? (v := o.view) (nodup_numbered c) h
    have hj' := ClassView.number?_of_getElem? (v := o.view) (nodup_numbered c) hfound
    have := Option.some.inj (hi.symm.trans hj')
    omega

/-- A step of the view is a step of a climb that the search limit allows. -/
theorem view_up_iff {fragment : String} :
    o.view.Up n fragment p ↔ o.Up n p ∧ o.Fragment n fragment ∧ (o.isNumbered n → o.ClassNear n) := by
  constructor
  · intro h
    cases h with
    | member hcontainer hname =>
      obtain ⟨name, hget⟩ := container_eq_some_iff.1 hcontainer
      obtain rfl := Option.some.inj ((simpleName_of_memberClass hget).symm.trans hname)
      exact ⟨.member hget, .member hget, fun hn => absurd hn (not_isNumbered_of_memberClass hget)⟩
    | numbered _ hp hplace =>
      obtain ⟨hc, hbelow, hnear⟩ := surrounds_iff.1 hp
      have hplace := placedAt_iff.1 hplace
      have hn := (mem_numbered.1 (List.mem_of_getElem? hplace)).2.1
      exact ⟨.numbered hn hc hbelow, .numbered hn hc hbelow hplace, fun _ => hnear⟩
  · rintro ⟨hup, hfragment, hnear⟩
    cases hfragment with
    | @member q _ hget =>
      obtain rfl : p = q := hup.unique (.member hget)
      exact .member (container_eq_some_iff.2 ⟨_, hget⟩) (simpleName_of_memberClass hget)
    | @numbered c i hn hc hbelow hplace =>
      obtain rfl : p = c := hup.unique (.numbered hn hc hbelow)
      exact .numbered (container_eq_none_of_isNumbered hn) (surrounds_iff.2 ⟨hc, hbelow, hnear hn⟩)
        (placedAt_iff.2 hplace)

theorem Up.exists_fragment (h : o.Up n p) : ∃ fragment, o.Fragment n fragment := by
  cases h with
  | member hget => exact ⟨_, .member hget⟩
  | numbered hn hc hbelow =>
    obtain ⟨i, hi⟩ := List.mem_iff_getElem?.1 (mem_numbered.2 ⟨hc, hn, hbelow⟩)
    exact ⟨_, .numbered hn hc hbelow hi⟩

/-- A climb with the nodes that it leaves, innermost first. -/
inductive Climb (o : Outline) : Nat → List Nat → Nat → Prop
  | stay (n : Nat) : Climb o n [] n
  | up {n p r : Nat} {path : List Nat} (hstep : o.Up n p) (hrest : Climb o p path r) :
    Climb o n (n :: path) r

namespace Climb

variable {path path' : List Nat} {m : Nat}

theorem exists_up_of_mem (h : o.Climb n path r) : ∀ x ∈ path, ∃ p, o.Up x p := by
  induction h with
  | stay => simp
  | up hstep _ ih =>
    rw [List.forall_mem_cons]
    exact ⟨⟨_, hstep⟩, ih⟩

/-- A climb that cannot go on passes through every node to which a climb leads. -/
theorem mem_or_eq (h : o.Climb n path r) (hend : ∀ p, ¬ o.Up r p) (h' : o.Climb n path' m) :
    m ∈ path ∨ m = r := by
  induction h' generalizing path with
  | stay n =>
    cases h with
    | stay => exact .inr rfl
    | up => exact .inl List.mem_cons_self
  | up hstep' _ ih =>
    cases h with
    | stay => exact absurd hstep' (hend _)
    | up hstep hrest =>
      obtain rfl := hstep.unique hstep'
      exact (ih hrest).imp_left (List.mem_cons_of_mem _)

theorem unique {r' : Nat} (h : o.Climb n path r) (hend : ∀ p, ¬ o.Up r p) (h' : o.Climb n path' r')
    (hend' : ∀ p, ¬ o.Up r' p) : path = path' ∧ r = r' := by
  induction h generalizing path' with
  | stay n =>
    cases h' with
    | stay => exact ⟨rfl, rfl⟩
    | up hstep => exact absurd hstep (hend _)
  | up hstep _ ih =>
    cases h' with
    | stay => exact absurd hstep (hend' _)
    | up hstep' hrest' =>
      obtain rfl := hstep.unique hstep'
      obtain ⟨rfl, rfl⟩ := ih hend hrest'
      exact ⟨rfl, rfl⟩

end Climb

theorem not_up_of_topLevel {q : String} (h : o.get? r = some (.topLevel q)) (p : Nat) : ¬ o.Up r p := by
  intro hup
  have hnone := hup.topLevelName_eq_none
  simp [topLevelName, h] at hnone

namespace Climb

variable {path path' : List Nat} {m : Nat}

theorem lt_size (h : o.Climb n path r) (hr : r < o.size) : n < o.size := by
  cases h with
  | stay => exact hr
  | up hstep => exact hstep.lt_size

theorem not_isScope {q : String} (h : o.Climb n path r) (hget : o.get? r = some (.topLevel q))
    (hm : o.Climb n path' m) : ¬ o.isScope m := by
  rcases h.mem_or_eq (not_up_of_topLevel hget) hm with hmem | rfl
  · obtain ⟨p, hup⟩ := h.exists_up_of_mem m hmem
    exact hup.not_isScope
  · simp [isScope, hget, Declaration.isScope, Declaration.isClass]

end Climb

/-- How a spelling shows the name of a top-level class. -/
inductive RootText : Spelling → String → String → Prop
  | qualified (q : String) : RootText .qualified q q
  | binary (q : String) : RootText .binary q q
  | internal (q : String) : RootText .internal q (ClassName.toInternal q)
  | short {simple : String} (package : String) (h : '.' ∉ simple.toList) :
    RootText .short (package ++ "." ++ simple) simple
  | undotted {q : String} (h : '.' ∉ q.toList) : RootText .short q q

theorem exists_rootText (spelling : Spelling) (q : String) : ∃ root, RootText spelling q root := by
  cases spelling with
  | qualified => exact ⟨q, .qualified q⟩
  | binary => exact ⟨q, .binary q⟩
  | internal => exact ⟨_, .internal q⟩
  | short =>
    cases hsplit : Text.splitLast '.' q.toList with
    | none => exact ⟨q, .undotted (Text.splitLast_eq_none_iff.1 hsplit)⟩
    | some halves =>
      obtain ⟨hq, hsimple⟩ := Text.splitLast_eq_some_iff.1 hsplit
      obtain rfl : q = String.ofList halves.1 ++ "." ++ String.ofList halves.2 := by
        rw [← String.toList_inj, hq]
        simp
      exact ⟨_, .short _ (by simpa using hsimple)⟩

namespace RootText

variable {spelling : Spelling} {q root : String}

theorem simpleName_eq (h : RootText .short q root) (hget : o.get? r = some (.topLevel q)) :
    o.simpleName r = some root := by
  cases h with
  | short package hlast =>
    have hsplit : Text.splitLast '.' (package ++ "." ++ root).toList =
        some (package.toList, root.toList) := Text.splitLast_eq_some_iff.2 ⟨by simp, hlast⟩
    simp only [simpleName, hget, hsplit, String.ofList_toList]
  | undotted hdot => simp only [simpleName, hget, Text.splitLast_eq_none_iff.2 hdot]

theorem rootName_eq (h : RootText spelling q root) (hget : o.get? r = some (.topLevel q)) :
    o.view.rootName spelling r = some root := by
  have htop : o.view.topLevelName r = some q := topLevelName_eq_some_iff.2 hget
  rw [ClassView.rootName, htop]
  cases spelling with
  | qualified | binary | internal => cases h; rfl
  | short => exact h.simpleName_eq hget

end RootText

theorem rootName_eq_some_iff {spelling : Spelling} {root : String} :
    o.view.rootName spelling r = some root ↔
      ∃ q, o.get? r = some (.topLevel q) ∧ RootText spelling q root := by
  constructor
  · intro h
    have htop : ∃ q, o.topLevelName r = some q := by
      cases hname : o.topLevelName r with
      | none => simp [ClassView.rootName, view, hname] at h
      | some q => exact ⟨q, rfl⟩
    obtain ⟨q, hname⟩ := htop
    have hget := topLevelName_eq_some_iff.1 hname
    obtain ⟨shown, hshown⟩ := exists_rootText spelling q
    obtain rfl := Option.some.inj ((hshown.rootName_eq hget).symm.trans h)
    exact ⟨q, hget, hshown⟩
  · rintro ⟨q, hget, hroot⟩
    exact hroot.rootName_eq hget

theorem Up.rootName_eq_none (h : o.Up n p) (spelling : Spelling) :
    o.view.rootName spelling n = none := by
  rw [Option.eq_none_iff_forall_ne_some]
  intro root hroot
  obtain ⟨q, hget, _⟩ := rootName_eq_some_iff.1 hroot
  exact not_up_of_topLevel hget p h

/-- Whether the class around each numbered class that a climb leaves is near enough to be found. -/
def NearAlong (o : Outline) (path : List Nat) : Prop := ∀ x ∈ path, o.isNumbered x → o.ClassNear x

theorem nearAlong_nil : o.NearAlong [] := by
  simp [NearAlong]

theorem nearAlong_cons {path : List Nat} :
    o.NearAlong (n :: path) ↔ (o.isNumbered n → o.ClassNear n) ∧ o.NearAlong path :=
  List.forall_mem_cons

theorem walk_iff {spelling : Spelling} {fragments : List String} :
    o.view.Walk spelling n fragments r ↔ ∃ path, o.Climb n path r ∧
      List.Forall₂ o.Fragment path fragments ∧ o.NearAlong path := by
  constructor
  · intro h
    induction h with
    | stay n => exact ⟨[], .stay n, .nil, nearAlong_nil⟩
    | @up n p r fragment fragments _ hstep _ ih =>
      obtain ⟨hup, hfragment, hnear⟩ := view_up_iff.1 hstep
      obtain ⟨path, hclimb, hfragments, hrest⟩ := ih
      exact ⟨n :: path, .up hup hclimb, .cons hfragment hfragments, nearAlong_cons.2 ⟨hnear, hrest⟩⟩
  · rintro ⟨path, hclimb, hfragments, hnear⟩
    induction hclimb generalizing fragments with
    | stay n =>
      cases hfragments
      exact .stay n
    | up hup _ ih =>
      obtain ⟨hfirst, hrest⟩ := nearAlong_cons.1 hnear
      cases hfragments with
      | cons hfragment hfragments =>
        exact .up (hup.rootName_eq_none spelling) (view_up_iff.2 ⟨hup, hfragment, hfirst⟩)
          (ih hfragments hrest)

theorem Climb.exists_fragments {path : List Nat} (h : o.Climb n path r) :
    ∃ fragments, List.Forall₂ o.Fragment path fragments := by
  induction h with
  | stay => exact ⟨[], .nil⟩
  | up hup _ ih =>
    obtain ⟨fragment, hfragment⟩ := hup.exists_fragment
    obtain ⟨fragments, hfragments⟩ := ih
    exact ⟨_, .cons hfragment hfragments⟩

theorem view_name_eq_ok_iff {spelling : Spelling} {s : String} :
    o.view.name spelling n = .ok s ↔ ∃ path r q root fragments, o.Climb n path r ∧
      o.get? r = some (.topLevel q) ∧ path.length ≤ 1024 ∧ o.NearAlong path ∧
      RootText spelling q root ∧ List.Forall₂ o.Fragment path fragments ∧
      s = ClassView.spell spelling root fragments := by
  rw [ClassView.name_eq_ok_iff]
  constructor
  · rintro ⟨fragments, r, root, hwalk, hlength, hroot, rfl⟩
    obtain ⟨path, hclimb, hfragments, hnear⟩ := walk_iff.1 hwalk
    obtain ⟨q, hget, hshown⟩ := rootName_eq_some_iff.1 hroot
    exact ⟨path, r, q, root, fragments, hclimb, hget, hfragments.length_eq ▸ hlength, hnear, hshown,
      hfragments, rfl⟩
  · rintro ⟨path, r, q, root, fragments, hclimb, hget, hlength, hnear, hshown, hfragments, rfl⟩
    exact ⟨fragments, r, root, walk_iff.2 ⟨path, hclimb, hfragments, hnear⟩,
      hfragments.length_eq ▸ hlength, rootName_eq_some_iff.2 ⟨q, hget, hshown⟩, rfl⟩

/-- Blame falls on the node itself if the climb takes all the steps it may, and else on the node where it
stops. -/
theorem view_name_eq_error_iff {spelling : Spelling} {m : Nat} {fault : NamingFault} :
    o.view.name spelling n = .error ⟨m, fault⟩ ↔
      (fault = .endless ∧ m = n ∧ ∃ path r, o.Climb n path r ∧ o.NearAlong path ∧
        path.length = 1024 ∧ o.view.rootName spelling r = none) ∨
      (o.view.Stuck fault m ∧ ∃ path, o.Climb n path m ∧ o.NearAlong path ∧ path.length < 1024 ∧
        o.view.rootName spelling m = none) := by
  have hwalk {r : Nat} {P : Nat → Prop} :
      (∃ fragments, o.view.Walk spelling n fragments r ∧ P fragments.length) ↔
        ∃ path, o.Climb n path r ∧ o.NearAlong path ∧ P path.length := by
    constructor
    · rintro ⟨fragments, hwalk, hlength⟩
      obtain ⟨path, hclimb, hfragments, hnear⟩ := walk_iff.1 hwalk
      exact ⟨path, hclimb, hnear, hfragments.length_eq ▸ hlength⟩
    · rintro ⟨path, hclimb, hnear, hlength⟩
      obtain ⟨fragments, hfragments⟩ := hclimb.exists_fragments
      exact ⟨fragments, walk_iff.2 ⟨path, hclimb, hfragments, hnear⟩, hfragments.length_eq ▸ hlength⟩
  rw [ClassView.name_eq_error_iff]
  refine or_congr (and_congr_right fun _ => and_congr_right fun _ => ?_) (and_congr_right fun _ => ?_)
  · rw [exists_comm, exists_comm (α := List Nat)]
    exact exists_congr fun r => hwalk (P := fun k => k = 1024 ∧ o.view.rootName spelling r = none)
  · exact hwalk (P := fun k => k < 1024 ∧ o.view.rootName spelling m = none)

theorem isScope_of_stuck (h : o.view.Stuck .notNumbered n) : o.isScope n := by
  cases h with
  | @notNumbered _ c hcontainer hc hplace =>
    obtain ⟨hclass, hbelow, _⟩ := surrounds_iff.1 hc
    have hnumbered : ¬ o.isNumbered n := fun hn => hplace (mem_numbered.2 ⟨hclass, hn, hbelow⟩)
    obtain ⟨p, hp⟩ := hbelow.exists_parent
    obtain ⟨d, hget, hparent⟩ := Option.bind_eq_some_iff.1 hp
    cases d with
    | topLevel => cases hparent
    | memberClass =>
      have hsome := container_eq_some_iff.2 ⟨_, hget⟩
      cases hcontainer.symm.trans hsome
    | localClass | anonymous => simp [isNumbered, hget, Declaration.isNumbered] at hnumbered
    | scope => simp [isScope, hget, Declaration.isScope, Declaration.isClass]

theorem not_stuck_memberWithoutName : ¬ o.view.Stuck .memberWithoutName n := by
  intro h
  cases h with
  | memberWithoutName hcontainer hname =>
    obtain ⟨name, hget⟩ := container_eq_some_iff.1 hcontainer
    cases (simpleName_of_memberClass hget).symm.trans hname

/-- A node has a name exactly if it is in the outline and its climb meets no scope and ends at a top-level
class within the limits. The name is the root with one fragment for each class that the climb leaves.
Members are never found to be without a name, and only scopes are missing among numbered classes. -/
theorem exists_name_iff_climb (o : Outline) (spelling : Spelling) (n : Nat) :
    ((∃ s, o.view.name spelling n = .ok s) ↔
      n < o.size ∧ (∀ path m, o.Climb n path m → ¬ o.isScope m) ∧
      ∃ path r q, o.Climb n path r ∧ o.get? r = some (.topLevel q) ∧ path.length ≤ 1024 ∧
        o.NearAlong path) ∧
    (∀ s path r q, o.view.name spelling n = .ok s → o.Climb n path r →
      o.get? r = some (.topLevel q) → ∃ root fragments, RootText spelling q root ∧
        List.Forall₂ o.Fragment path fragments ∧ s = ClassView.spell spelling root fragments) ∧
    ∀ m fault, o.view.name spelling n = .error ⟨m, fault⟩ →
      fault.message ≠ "member class has no simple name" ∧
      (fault.message = "class is not among its container's anonymous classes" →
        o.isScope m ∧ ∃ path, o.Climb n path m) := by
  refine ⟨⟨?_, ?_⟩, ?_, ?_⟩
  · rintro ⟨s, hs⟩
    obtain ⟨path, r, q, _, _, hclimb, hget, hlength, hnear, _⟩ := view_name_eq_ok_iff.1 hs
    exact ⟨hclimb.lt_size (lt_size_of_get? hget), fun _ _ hm => hclimb.not_isScope hget hm,
      path, r, q, hclimb, hget, hlength, hnear⟩
  · rintro ⟨_, _, path, r, q, hclimb, hget, hlength, hnear⟩
    obtain ⟨root, hroot⟩ := exists_rootText spelling q
    obtain ⟨fragments, hfragments⟩ := hclimb.exists_fragments
    exact ⟨_, view_name_eq_ok_iff.2
      ⟨path, r, q, root, fragments, hclimb, hget, hlength, hnear, hroot, hfragments, rfl⟩⟩
  · intro s path r q hs hclimb hget
    obtain ⟨path', r', q', root, fragments, hclimb', hget', _, _, hroot, hfragments, hspell⟩ :=
      view_name_eq_ok_iff.1 hs
    obtain ⟨rfl, rfl⟩ := hclimb.unique (not_up_of_topLevel hget) hclimb' (not_up_of_topLevel hget')
    cases hget.symm.trans hget'
    exact ⟨root, fragments, hroot, hfragments, hspell⟩
  · intro m fault hfault
    rcases ClassView.name_eq_error_iff.1 hfault with ⟨rfl, _⟩ | ⟨hstuck, fragments, hwalk, _⟩
    · exact ⟨by decide, fun h => absurd h (by decide)⟩
    · cases fault with
      | memberWithoutName => exact absurd hstuck not_stuck_memberWithoutName
      | noEnclosingClass | endless => exact ⟨by decide, fun h => absurd h (by decide)⟩
      | notNumbered =>
        obtain ⟨path, hclimb, _⟩ := walk_iff.1 hwalk
        exact ⟨by decide, fun _ => ⟨isScope_of_stuck hstuck, path, hclimb⟩⟩

/-- A class with a method, in which a member class stands. -/
def memberInScope : Outline :=
  ((empty.push (.topLevel "A") (by decide)).push (.scope (some 0) "run") (by decide)).push
    (.memberClass 1 "In") (by decide)

theorem exists_name_iff_climb_sample :
    (∃ root fragments, RootText .short "a.Outer" root ∧
      List.Forall₂ sample.Fragment [3, 2] fragments ∧
      "Outer.1.In" = ClassView.spell .short root fragments) ∧
    memberInScope.isScope 1 ∧ ∃ path, memberInScope.Climb 2 path 1 := by
  have hname : sample.view.name .short 3 = .ok "Outer.1.In" := by decide +kernel
  have hbelow : sample.Below 0 2 := .inScope (.child (x := 1) rfl) rfl rfl
  have hmember : sample.get? 3 = some (.memberClass 2 "In") := rfl
  have hclimb : sample.Climb 3 [3, 2] 0 :=
    .up (.member hmember) (.up (.numbered rfl rfl hbelow) (.stay 0))
  have hblame : memberInScope.view.name .binary 2 = .error ⟨1, .notNumbered⟩ := by decide +kernel
  exact ⟨(exists_name_iff_climb sample .short 3).2.1 _ _ _ _ hname hclimb rfl,
    ((exists_name_iff_climb memberInScope .binary 2).2.2 _ _ hblame).2 rfl⟩

end Outline
end JvmSymbols
