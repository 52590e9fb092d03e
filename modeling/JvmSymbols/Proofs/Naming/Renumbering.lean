import JvmSymbols.Proofs.Naming.Appending

/-! Which names change when an outline grows. Only an anonymous or local class changes any, and only those on
whose climb there is a class that it displaces: the number of that class, of which there is one on a climb, is
then one higher. -/
namespace JvmSymbols
namespace Outline

variable {o o' : Outline} {d : Declaration} {c k n p r x : Nat} {path : List Nat} {spelling : Spelling}

theorem Climb.le_of_mem (h : o.Climb n path r) (hx : x ∈ path) : x ≤ n := by
  induction h with
  | stay n => simp at hx
  | up hstep _ ih =>
    rcases List.mem_cons.1 hx with rfl | hx
    · exact Nat.le_refl x
    · have hle := ih hx
      have hlt := hstep.lt
      omega

theorem Climb.le (h : o.Climb n path r) : r ≤ n := by
  induction h with
  | stay n => exact Nat.le_refl n
  | up hstep _ ih =>
    have hlt := hstep.lt
    omega

theorem Climb.exists_of_mem (h : o.Climb n path r) (hx : x ∈ path) : ∃ inside, o.Climb n inside x := by
  induction h with
  | stay n => simp at hx
  | @up n p _ _ hstep _ ih =>
    rcases List.mem_cons.1 hx with rfl | hx
    · exact ⟨[], .stay x⟩
    · obtain ⟨inside, hinside⟩ := ih hx
      exact ⟨n :: inside, .up hstep hinside⟩

theorem Climb.mem_of_mem {path' : List Nat} {q : Nat} (h : o.Climb n path r) (hend : ∀ p, ¬ o.Up r p)
    (h' : o.Climb n path' q) (hx : x ∈ path') : x ∈ path := by
  obtain ⟨inside, hinside⟩ := h'.exists_of_mem hx
  obtain ⟨p, hup⟩ := h'.exists_up_of_mem x hx
  rcases h.mem_or_eq hend hinside with hmem | rfl
  · exact hmem
  · exact absurd hup (hend p)

namespace AgreeBelow

variable {m : Nat} {fault : NamingFault}

theorem container_eq (h : AgreeBelow o o' k) (hn : n < k) : o.container n = o'.container n := by
  rw [container, container, h n hn]

theorem simpleName_eq (h : AgreeBelow o o' k) (hn : n < k) : o.simpleName n = o'.simpleName n := by
  rw [simpleName, simpleName, h n hn]

theorem topLevelName_eq (h : AgreeBelow o o' k) (hn : n < k) : o.topLevelName n = o'.topLevelName n := by
  rw [topLevelName, topLevelName, h n hn]

theorem rootName_eq (h : AgreeBelow o o' k) (hn : n < k) :
    o.view.rootName spelling n = o'.view.rootName spelling n := by
  have htop : o.view.topLevelName n = o'.view.topLevelName n := h.topLevelName_eq hn
  have hsimple : o.view.simpleName n = o'.view.simpleName n := h.simpleName_eq hn
  rw [ClassView.rootName, ClassView.rootName, htop, hsimple]

theorem surrounds (h : AgreeBelow o o' k) (hx : x < k) (hc : o.view.Surrounds c x) :
    o'.view.Surrounds c x := by
  obtain ⟨hclass, hbelow, hnear⟩ := surrounds_iff.1 hc
  have hlt := hbelow.lt
  exact surrounds_iff.2 ⟨h.isClass (by omega) hclass, h.below hx hbelow, h.classNear hx hnear⟩

theorem stuck (h : AgreeBelow o o' k) (hm : m < k) (hstuck : o.view.Stuck fault m) :
    o'.view.Stuck fault m := by
  have hsame : o'.view.container m = o.view.container m := h.symm.container_eq hm
  cases hstuck with
  | memberWithoutName hcontainer hname =>
    have hname' : o'.view.simpleName m = none := (h.symm.simpleName_eq hm).trans hname
    exact .memberWithoutName (hsame.trans hcontainer) hname'
  | noEnclosingClass hcontainer hnone =>
    exact .noEnclosingClass (hsame.trans hcontainer) fun p hp => hnone p (h.symm.surrounds hm hp)
  | notNumbered hcontainer hp hplace =>
    have hplace' := fun hmem => hplace (h.symm.mem_numbered hm hmem)
    exact .notNumbered (hsame.trans hcontainer) (h.surrounds hm hp) hplace'

theorem nearAlong (h : AgreeBelow o o' k) (hn : n < k) (hclimb : o.Climb n path r)
    (hnear : o.NearAlong path) : o'.NearAlong path := by
  intro x hx hnumbered
  have hle := hclimb.le_of_mem hx
  have hxk : x < k := by omega
  exact h.classNear hxk (hnear x hx (h.symm.isNumbered hxk hnumbered))

theorem name_error (h : AgreeBelow o o' k) (hn : n < k) {e : NamingError Nat}
    (he : o.view.name spelling n = .error e) : o'.view.name spelling n = .error e := by
  obtain ⟨m, fault⟩ := e
  rcases view_name_eq_error_iff.1 he with
    ⟨rfl, rfl, path, r, hclimb, hnear, hlength, hroot⟩ | ⟨hstuck, path, hclimb, hnear, hlength, hroot⟩
  · have hr : r < k := Nat.lt_of_le_of_lt hclimb.le hn
    exact view_name_eq_error_iff.2 (.inl ⟨rfl, rfl, path, r, h.climb hn hclimb,
      h.nearAlong hn hclimb hnear, hlength, (h.symm.rootName_eq hr).trans hroot⟩)
  · have hm : m < k := Nat.lt_of_le_of_lt hclimb.le hn
    exact view_name_eq_error_iff.2 (.inr ⟨h.stuck hm hstuck, path, h.climb hn hclimb,
      h.nearAlong hn hclimb hnear, hlength, (h.symm.rootName_eq hm).trans hroot⟩)

theorem name_ok (h : AgreeBelow o o' k) (hn : n < k) {q root : String} {fragments : List String}
    (hclimb : o.Climb n path r) (hget : o.get? r = some (.topLevel q)) (hlength : path.length ≤ 1024)
    (hnear : o.NearAlong path) (hroot : RootText spelling q root)
    (hfragments : List.Forall₂ o'.Fragment path fragments) :
    o'.view.name spelling n = .ok (ClassView.spell spelling root fragments) := by
  have hr : r < k := Nat.lt_of_le_of_lt hclimb.le hn
  have hget' : o'.get? r = some (.topLevel q) := (h.symm r hr).trans hget
  exact view_name_eq_ok_iff.2 ⟨path, r, q, root, fragments, h.climb hn hclimb, hget', hlength,
    h.nearAlong hn hclimb hnear, hroot, hfragments, rfl⟩

end AgreeBelow

theorem up_of_mem_numbered (h : x ∈ o.numbered c) : o.Up x c := by
  obtain ⟨hc, hnumbered, hbelow⟩ := mem_numbered.1 h
  exact .numbered hnumbered hc hbelow

theorem Fragment.exists_place {fragment : String} (h : o.Fragment x fragment) (hx : x ∈ o.numbered c) :
    ∃ i, (o.numbered c)[i]? = some x ∧ fragment = (i + 1).repr := by
  obtain ⟨hc, hnumbered, hbelow⟩ := mem_numbered.1 hx
  cases h with
  | member hget => exact absurd hnumbered (not_isNumbered_of_memberClass hget)
  | @numbered e i _ he hbelow' hplace =>
    obtain rfl : e = c := hbelow'.class_unique he hc hbelow
    exact ⟨i, hplace, rfl⟩

/-- On a climb from a class no other class is displaced by what this class numbers. -/
theorem Climb.not_displaced {e y : Nat} (h : o.Climb c path r) (hx : Displaced o o' c x) (hy : y ∈ path) :
    ¬ Displaced o o' e y := by
  intro hdisplaced
  obtain rfl : c = e := hx.class_unique hdisplaced
  have hle := h.le_of_mem hy
  have hlt := (up_of_mem_numbered hdisplaced.mem).lt
  omega

namespace Appended

theorem fragment_of_not_displaced {fragment : String} (h : o.Appended d o') (hx : x < o.size)
    (hfragment : o.Fragment x fragment) (hstays : ∀ c, ¬ Displaced o o' c x) : o'.Fragment x fragment := by
  cases hfragment with
  | member hget => exact .member ((h.agree.symm x hx).trans hget)
  | @numbered c i hnumbered hc hbelow hplace =>
    have hlt := hbelow.lt
    exact .numbered (h.agree.isNumbered hx hnumbered) (h.agree.isClass (by omega) hc)
      (h.agree.below hx hbelow) (h.getElem?_of_not_displaced hplace (hstays c))

theorem fragment_of_displaced {i : Nat} (h : o.Appended d o') (hplace : (o.numbered c)[i]? = some x)
    (hdisplaced : Displaced o o' c x) : o'.Fragment x (i + 2).repr := by
  have hplace' := h.getElem?_of_displaced hplace hdisplaced
  obtain ⟨hc, hnumbered, hbelow⟩ := mem_numbered.1 (List.mem_of_getElem? hplace')
  exact .numbered hnumbered hc hbelow hplace'

theorem fragments_of_not_displaced {fragments : List String} (h : o.Appended d o') (hn : n < o.size)
    (hclimb : o.Climb n path r) (hfragments : List.Forall₂ o.Fragment path fragments)
    (hstays : ∀ x ∈ path, ∀ c, ¬ Displaced o o' c x) : List.Forall₂ o'.Fragment path fragments := by
  have hkept : ∀ x ∈ path, x < o.size ∧ ∀ c, ¬ Displaced o o' c x := by
    intro x hx
    have hle := hclimb.le_of_mem hx
    exact ⟨by omega, hstays x hx⟩
  refine ((List.forall₂_and_left path fragments).2 ⟨hkept, hfragments⟩).imp ?_
  rintro x fragment ⟨⟨hx, hstaysx⟩, hfragment⟩
  exact h.fragment_of_not_displaced hx hfragment hstaysx

/-- The fragments of a climb on which a class is displaced: all but the number of this class stay. -/
theorem fragments_of_displaced {fragments : List String} (h : o.Appended d o') (hn : n < o.size)
    (hclimb : o.Climb n path r) (hfragments : List.Forall₂ o.Fragment path fragments) (hx : x ∈ path)
    (hdisplaced : Displaced o o' c x) : ∃ inside inner outer i, o.Climb n inside x ∧
      inner.length = inside.length ∧ (o.numbered c)[i]? = some x ∧
      fragments = inner ++ (i + 1).repr :: outer ∧
      List.Forall₂ o'.Fragment path (inner ++ (i + 2).repr :: outer) := by
  have hxc := up_of_mem_numbered hdisplaced.mem
  induction hclimb generalizing fragments with
  | stay n => simp at hx
  | @up n q r path hstep hrest ih =>
    have hlt := hstep.lt
    cases hfragments with
    | @cons _ fragment _ outer hfragment houter =>
      by_cases hxn : x = n
      · subst hxn
        obtain rfl : q = c := hstep.unique hxc
        obtain ⟨i, hplace, rfl⟩ := hfragment.exists_place hdisplaced.mem
        have hkept := h.fragments_of_not_displaced (by omega) hrest houter
          fun y hy e => hrest.not_displaced hdisplaced hy
        exact ⟨[], [], outer, i, .stay x, rfl, hplace, rfl,
          .cons (h.fragment_of_displaced hplace hdisplaced) hkept⟩
      · have hxpath : x ∈ path := (List.mem_cons.1 hx).resolve_left hxn
        obtain ⟨inside, inner, outer, i, hinside, hlength, hplace, rfl, hmoved⟩ :=
          ih (by omega) houter hxpath
        have hstays : ∀ e, ¬ Displaced o o' e n := by
          intro e hn
          -- Else the climb would come to `x` from the class that numbers it.
          obtain rfl : c = e := hdisplaced.class_unique hn
          obtain rfl : q = c := hstep.unique (up_of_mem_numbered hn.mem)
          have hle := hrest.le_of_mem hxpath
          have hltx := hxc.lt
          omega
        have hfirst := h.fragment_of_not_displaced hn hfragment hstays
        exact ⟨n :: inside, fragment :: inner, outer, i, .up hstep hinside, by simp [hlength], hplace, rfl,
          .cons hfirst hmoved⟩

theorem name_eq_of_not_displaced (h : o.Appended d o') (hn : n < o.size)
    (hstays : ∀ path r x c, o.Climb n path r → x ∈ path → ¬ Displaced o o' c x) :
    o'.view.name spelling n = o.view.name spelling n := by
  cases hname : o.view.name spelling n with
  | error e => exact h.agree.name_error hn hname
  | ok s =>
    obtain ⟨path, r, q, root, fragments, hclimb, hget, hlength, hnear, hroot, hfragments, rfl⟩ :=
      view_name_eq_ok_iff.1 hname
    have hkept := h.fragments_of_not_displaced hn hclimb hfragments
      fun x hx c => hstays path r x c hclimb hx
    exact h.agree.name_ok hn hclimb hget hlength hnear hroot hkept

end Appended

/-- A declaration that is no anonymous or local class changes no name. One that is, under `p`, changes a name
only if the climb leaves a class behind all that is inside `p`, among those numbered by the class that numbers
what is declared under `p`; then the number of this class is one higher in the name, and all else stays. What
has no name has none afterwards, for the same reason. -/
theorem name_of_add (o o' : Outline) (d : Declaration) (h : o.add d = some o') (spelling : Spelling) (n : Nat)
    (hn : n < o.size) :
    (¬ d.isNumbered → o'.view.name spelling n = o.view.name spelling n) ∧
    (∀ e, o.view.name spelling n = .error e → o'.view.name spelling n = .error e) ∧
    ∀ p, d.isNumbered → d.parent = some p →
      ((∀ path r x c, o.Climb n path r → x ∈ path → ¬ o.BehindAll p c x) →
        o'.view.name spelling n = o.view.name spelling n) ∧
      ∀ path r x c s, o.Climb n path r → x ∈ path → o.BehindAll p c x →
        o.view.name spelling n = .ok s →
        ∃ root inside inner outer i, o.Climb n inside x ∧ inner.length = inside.length ∧
          o.view.number c x = .ok i ∧ o'.view.number c x = .ok (i + 1) ∧
          s = ClassView.spell spelling root (inner ++ i.repr :: outer) ∧
          o'.view.name spelling n = .ok (ClassView.spell spelling root (inner ++ (i + 1).repr :: outer)) := by
  have happended := appended_of_add h
  refine ⟨?_, ?_, ?_⟩
  · intro hd
    exact happended.name_eq_of_not_displaced hn fun _ _ _ _ _ _ => happended.not_displaced hd
  · intro e he
    exact happended.agree.name_error hn he
  · intro p hd hp
    constructor
    · intro hstays
      refine happended.name_eq_of_not_displaced hn ?_
      intro path r x c hclimb hx hdisplaced
      exact hstays path r x c hclimb hx ((happended.displaced_iff hd hp).1 hdisplaced)
    · intro path r x c s hclimb hx hbehind hname
      have hdisplaced := (happended.displaced_iff hd hp).2 hbehind
      obtain ⟨whole, top, q, root, fragments, hwhole, hget, hlength, hnear, hroot, hfragments, rfl⟩ :=
        view_name_eq_ok_iff.1 hname
      have hxwhole : x ∈ whole := hwhole.mem_of_mem (not_up_of_topLevel hget) hclimb hx
      obtain ⟨inside, inner, outer, i, hinside, hinner, hplace, rfl, hmoved⟩ :=
        happended.fragments_of_displaced hn hwhole hfragments hxwhole hdisplaced
      have hplace' := happended.getElem?_of_displaced hplace hdisplaced
      exact ⟨root, inside, inner, outer, i + 1, hinside, hinner, number_eq_ok_iff.2 ⟨i, hplace, rfl⟩,
        number_eq_ok_iff.2 ⟨i + 1, hplace', rfl⟩, rfl,
        happended.agree.name_ok hn hwhole hget hlength hnear hroot hmoved⟩

/-- An anonymous class in the first method makes the one in the second method the third; the local class in the
first method stays the first. -/
theorem name_of_add_interleaved : ∃ o', interleaved.add (.anonymous 1) = some o' ∧
    o'.view.name .binary 4 = .ok "Outer$1" ∧
    ∃ root inside inner outer i, interleaved.Climb 3 inside 3 ∧ inner.length = inside.length ∧
      interleaved.view.number 0 3 = .ok i ∧ o'.view.number 0 3 = .ok (i + 1) ∧
      "Outer$2" = ClassView.spell .binary root (inner ++ i.repr :: outer) ∧
      o'.view.name .binary 3 = .ok (ClassView.spell .binary root (inner ++ (i + 1).repr :: outer)) := by
  have hadd : interleaved.add (.anonymous 1) =
      some (interleaved.push (.anonymous 1) (by decide)) := dif_pos (by decide)
  have hlocal : interleaved.view.name .binary 4 = .ok "Outer$1" := by decide +kernel
  have hanonymous : interleaved.view.name .binary 3 = .ok "Outer$2" := by decide +kernel
  have hup : interleaved.Up 4 0 := .numbered rfl rfl (.inScope (.child (x := 1) rfl) rfl rfl)
  have hup' : interleaved.Up 3 0 := .numbered rfl rfl (.inScope (.child (x := 2) rfl) rfl rfl)
  have htop : interleaved.get? 0 = some (.topLevel "Outer") := rfl
  have hstays : ∀ path r x c, interleaved.Climb 4 path r → x ∈ path → ¬ interleaved.BehindAll 1 c x := by
    intro path r x c hclimb hx hbehind
    have hwhole : interleaved.Climb 4 [4] 0 := .up hup (.stay 0)
    have hmem := hwhole.mem_of_mem (not_up_of_topLevel htop) hclimb hx
    obtain rfl : x = 4 := List.mem_singleton.1 hmem
    have hself := hbehind.before 4 (.ofParent rfl)
    exact hself.asymm hself
  have hbehind : interleaved.BehindAll 1 0 3 := by
    refine ⟨.around rfl rfl (.child rfl), rfl, .inScope (.child (x := 2) rfl) rfl rfl, ?_⟩
    intro y hy
    exact before_iff.2 ⟨0, 1, 2, rfl, hy, rfl, .ofParent rfl, by decide⟩
  have hkept := ((name_of_add _ _ _ hadd .binary 4 (by decide)).2.2 1 rfl rfl).1 hstays
  have hmoved := ((name_of_add _ _ _ hadd .binary 3 (by decide)).2.2 1 rfl rfl).2 [3] 0 3 0 "Outer$2"
    (.up hup' (.stay 0)) (by simp) hbehind hanonymous
  exact ⟨_, hadd, hkept.trans hlocal, hmoved⟩

end Outline
end JvmSymbols
