import JvmSymbols.Proofs.Naming.Climb

/-! What one more declaration changes in an outline. Nothing changes about what stands around the declarations
that were there. Among the numbered classes of a class the new one, if it belongs to them, takes its place in the
order of the text, and those behind it move on by one. -/
namespace JvmSymbols
namespace Outline

variable {o o' : Outline} {d : Declaration} {a c i k n p q r x y : Nat}

def AgreeBelow (o o' : Outline) (k : Nat) : Prop := ∀ n < k, o.get? n = o'.get? n

namespace AgreeBelow

theorem symm (h : AgreeBelow o o' k) : AgreeBelow o' o k := fun n hn => (h n hn).symm

theorem parent_eq (h : AgreeBelow o o' k) (hn : n < k) : o.parent n = o'.parent n := by
  rw [parent, parent, h n hn]

theorem isClass (h : AgreeBelow o o' k) (hn : n < k) (hyes : o.isClass n) : o'.isClass n := by
  rwa [Outline.isClass, h n hn] at hyes

theorem isScope (h : AgreeBelow o o' k) (hn : n < k) (hyes : o.isScope n) : o'.isScope n := by
  rwa [Outline.isScope, h n hn] at hyes

theorem isNumbered (h : AgreeBelow o o' k) (hn : n < k) (hyes : o.isNumbered n) : o'.isNumbered n := by
  rwa [Outline.isNumbered, h n hn] at hyes

theorem inside (h : AgreeBelow o o' k) (hx : x < k) (hxa : o.Inside x a) : o'.Inside x a := by
  induction hxa using Relation.ReflTransGen.head_induction_on with
  | refl => exact .refl o' a
  | @head x q hq _ ih =>
    have hlt := lt_of_parent hq
    have hq' : o'.parent x = some q := h.parent_eq hx ▸ hq
    exact (Inside.ofParent hq').trans (ih (by omega))

theorem before (h : AgreeBelow o o' k) (hx : x < k) (hy : y < k) (hxy : o.Before x y) :
    o'.Before x y := by
  obtain ⟨a, i, j, hi, hxi, hj, hyj, hij⟩ := before_iff.1 hxy
  have hik : i < k := Nat.lt_of_le_of_lt hxi.le hx
  have hjk : j < k := Nat.lt_of_le_of_lt hyj.le hy
  exact before_iff.2
    ⟨a, i, j, h.parent_eq hik ▸ hi, h.inside hx hxi, h.parent_eq hjk ▸ hj, h.inside hy hyj, hij⟩

theorem below (h : AgreeBelow o o' k) (hx : x < k) (hbelow : Below o c x) : Below o' c x := by
  induction hbelow with
  | child hp => exact .child (h.parent_eq hx ▸ hp)
  | inScope _ hscope hp ih =>
    have hlt := lt_of_parent hp
    exact .inScope (ih (by omega)) (h.isScope (by omega) hscope) (h.parent_eq hx ▸ hp)

theorem mem_numbered (h : AgreeBelow o o' k) (hx : x < k) (hmem : x ∈ o.numbered c) :
    x ∈ o'.numbered c := by
  obtain ⟨hc, hnumbered, hbelow⟩ := Outline.mem_numbered.1 hmem
  have hlt := hbelow.lt
  exact Outline.mem_numbered.2
    ⟨h.isClass (by omega) hc, h.isNumbered hx hnumbered, h.below hx hbelow⟩

theorem ancestor_eq (h : AgreeBelow o o' k) (hx : x < k) (j : Nat) :
    o.ancestor j x = o'.ancestor j x := by
  induction j generalizing x with
  | zero => rfl
  | succ j ih =>
    rw [ancestor, ancestor, ← h.parent_eq hx]
    cases hp : o.parent x with
    | none => rfl
    | some p =>
      have hlt := lt_of_parent hp
      exact ih (by omega)

theorem classNear (h : AgreeBelow o o' k) (hx : x < k) (hnear : o.ClassNear x) : o'.ClassNear x := by
  obtain ⟨j, c, hj, hancestor, hc⟩ := hnear
  have hle := ancestor_le hancestor
  exact ⟨j, c, hj, h.ancestor_eq hx (j + 1) ▸ hancestor, h.isClass (by omega) hc⟩

theorem up (h : AgreeBelow o o' k) (hn : n < k) (hup : o.Up n p) : o'.Up n p := by
  cases hup with
  | member hget => exact .member (h n hn ▸ hget)
  | numbered hnumbered hc hbelow =>
    have hlt := hbelow.lt
    exact .numbered (h.isNumbered hn hnumbered) (h.isClass (by omega) hc) (h.below hn hbelow)

theorem climb {path : List Nat} (h : AgreeBelow o o' k) (hn : n < k) (hclimb : o.Climb n path r) :
    o'.Climb n path r := by
  induction hclimb with
  | stay n => exact .stay n
  | up hstep _ ih =>
    have hlt := hstep.lt
    exact .up (h.up hn hstep) (ih (by omega))

end AgreeBelow

/-- Whether `o'` is `o` with `d` as its last declaration. -/
structure Appended (o : Outline) (d : Declaration) (o' : Outline) : Prop where
  size_eq : o'.size = o.size + 1
  agree : AgreeBelow o o' o.size
  get?_new : o'.get? o.size = some d
  lt_of_parent : ∀ p, d.parent = some p → p < o.size

theorem appended_of_add (h : o.add d = some o') : o.Appended d o' := by
  rw [add] at h
  split_ifs at h with haccepts
  · obtain rfl := Option.some.inj h
    refine ⟨size_push haccepts, fun n hn => ?_, ?_, haccepts.1⟩
    · rw [get?_push, if_neg (Nat.ne_of_lt hn)]
    · rw [get?_push, if_pos rfl]

/-- Whether `c` is the class that numbers what is declared directly under `p`: `p` itself if it is a class, and the
nearest class around it, reached through scopes, if it is a scope. -/
inductive Hosts (o : Outline) : Nat → Nat → Prop
  | self {c : Nat} (hc : o.isClass c) : Hosts o c c
  | around {c p : Nat} (hc : o.isClass c) (hscope : o.isScope p) (hbelow : Below o c p) : Hosts o c p

/-- Whether the last declaration of `o'`, which `o` lacks, is numbered by `c` and comes before `x` there. -/
structure Displaced (o o' : Outline) (c x : Nat) : Prop where
  mem : x ∈ o.numbered c
  mem_new : o.size ∈ o'.numbered c
  before : o'.Before o.size x

/-- Whether `x` is an anonymous or local class of `c`, the class that numbers what is declared under `p`, and comes
after all that is inside `p`. -/
structure BehindAll (o : Outline) (p c x : Nat) : Prop where
  hosts : o.Hosts c p
  numbered : o.isNumbered x
  below : Below o c x
  before : ∀ y, o.Inside y p → o.Before y x

theorem Hosts.isClass (h : o.Hosts c p) : o.isClass c := by
  cases h with
  | self hc => exact hc
  | around hc => exact hc

theorem BehindAll.mem (h : o.BehindAll p c x) : x ∈ o.numbered c :=
  mem_numbered.2 ⟨h.hosts.isClass, h.numbered, h.below⟩

theorem Displaced.class_unique {y e : Nat} (hx : Displaced o o' c x) (hy : Displaced o o' e y) :
    c = e := by
  obtain ⟨hc, _, hbelow⟩ := mem_numbered.1 hx.mem_new
  obtain ⟨he, _, hbelow'⟩ := mem_numbered.1 hy.mem_new
  exact hbelow.class_unique hc he hbelow'

namespace Appended

theorem parent_new (h : o.Appended d o') : o'.parent o.size = d.parent := by
  rw [parent, h.get?_new]
  rfl

theorem isNumbered_new (h : o.Appended d o') : o'.isNumbered o.size = d.isNumbered := by
  rw [isNumbered, h.get?_new]
  rfl

theorem mem_numbered_new (h : o.Appended d o') (hd : d.isNumbered) (hp : d.parent = some p) :
    o.size ∈ o'.numbered c ↔ o.Hosts c p := by
  have hpsize := h.lt_of_parent p hp
  have hparent : o'.parent o.size = some p := h.parent_new.trans hp
  rw [mem_numbered, h.isNumbered_new]
  constructor
  · rintro ⟨hc, _, hbelow⟩
    cases hbelow with
    | child hx =>
      obtain rfl : p = c := Option.some.inj (hparent.symm.trans hx)
      exact .self (h.agree.symm.isClass hpsize hc)
    | inScope hs hscope hx =>
      obtain rfl := Option.some.inj (hparent.symm.trans hx)
      have hlt := hs.lt
      exact .around (h.agree.symm.isClass (by omega) hc) (h.agree.symm.isScope hpsize hscope)
        (h.agree.symm.below hpsize hs)
  · intro hhosts
    cases hhosts with
    | self hc => exact ⟨h.agree.isClass hpsize hc, hd, .child hparent⟩
    | around hc hscope hbelow =>
      have hlt := hbelow.lt
      exact ⟨h.agree.isClass (by omega) hc, hd,
        .inScope (h.agree.below hpsize hbelow) (h.agree.isScope hpsize hscope) hparent⟩

/-- What is new comes last under its parent, and so before the same declarations as the parent. -/
theorem before_new_iff (h : o.Appended d o') (hp : d.parent = some p) (hx : x < o.size) :
    o'.Before o.size x ↔ o.Before p x := by
  have hpsize := h.lt_of_parent p hp
  have hparent : o'.parent o.size = some p := h.parent_new.trans hp
  constructor
  · intro hbefore
    obtain ⟨a, i, j, hi, hnew, hj, hxj, hij⟩ := before_iff.1 hbefore
    have hjsize : j < o.size := Nat.lt_of_le_of_lt hxj.le hx
    have hpi : o'.Inside p i := hnew.parent_of_ne (by omega) hparent
    refine before_iff.2 ⟨a, i, j, ?_, h.agree.symm.inside hpsize hpi, ?_, h.agree.symm.inside hx hxj, hij⟩
    · exact (h.agree.parent_eq (by omega)).trans hi
    · exact (h.agree.parent_eq hjsize).trans hj
  · intro hbefore
    obtain ⟨a, i, j, hi, hpi, hj, hxj, hij⟩ := before_iff.1 (h.agree.before hpsize hx hbefore)
    exact before_iff.2 ⟨a, i, j, hi, (Inside.ofParent hparent).trans hpi, hj, hxj, hij⟩

theorem not_displaced (h : o.Appended d o') (hd : ¬ d.isNumbered) : ¬ Displaced o o' c x := by
  intro hdisplaced
  have hnumbered := (mem_numbered.1 hdisplaced.mem_new).2.1
  exact hd (h.isNumbered_new ▸ hnumbered)

/-- A new class under `p` displaces the classes behind all that is inside `p`. -/
theorem displaced_iff (h : o.Appended d o') (hd : d.isNumbered) (hp : d.parent = some p) :
    Displaced o o' c x ↔ o.BehindAll p c x := by
  constructor
  · intro hdisplaced
    obtain ⟨_, hnumbered, hbelow⟩ := mem_numbered.1 hdisplaced.mem
    have hbefore := (h.before_new_iff hp hbelow.lt_size).1 hdisplaced.before
    refine ⟨(h.mem_numbered_new hd hp).1 hdisplaced.mem_new, hnumbered, hbelow, ?_⟩
    intro y hy
    obtain ⟨a, i, j, hi, hpi, hj, hxj, hij⟩ := before_iff.1 hbefore
    exact before_iff.2 ⟨a, i, j, hi, hy.trans hpi, hj, hxj, hij⟩
  · intro hbehind
    have hbefore := hbehind.before p (.refl o p)
    exact ⟨hbehind.mem, (h.mem_numbered_new hd hp).2 hbehind.hosts,
      (h.before_new_iff hp hbehind.below.lt_size).2 hbefore⟩

theorem perm_numbered (h : o.Appended d o') (c : Nat) :
    (o'.numbered c).Perm
      (if o.size ∈ o'.numbered c then o.size :: o.numbered c else o.numbered c) := by
  have hnew : o.size ∉ o.numbered c := fun hmem => Nat.lt_irrefl _ (mem_numbered.1 hmem).2.2.lt_size
  have hold {x : Nat} (hx : x ≠ o.size) : x ∈ o'.numbered c ↔ x ∈ o.numbered c := by
    constructor
    · intro hmem
      have hlt := (mem_numbered.1 hmem).2.2.lt_size
      have hsize := h.size_eq
      exact h.agree.symm.mem_numbered (by omega) hmem
    · intro hmem
      exact h.agree.mem_numbered (mem_numbered.1 hmem).2.2.lt_size hmem
  split_ifs with hmem
  · refine (List.perm_ext_iff_of_nodup (nodup_numbered c) ((nodup_numbered c).cons hnew)).2 fun x => ?_
    by_cases hx : x = o.size
    · simp [hx, hmem]
    · simp [hx, hold hx]
  · refine (List.perm_ext_iff_of_nodup (nodup_numbered c) (nodup_numbered c)).2 fun x => ?_
    by_cases hx : x = o.size
    · simp [hx, hmem, hnew]
    · exact hold hx

open Classical in
/-- A class moves on by one place if it is displaced and stays at its place otherwise. -/
theorem getElem?_numbered (h : o.Appended d o') (hx : (o.numbered c)[i]? = some x) :
    (o'.numbered c)[if Displaced o o' c x then i + 1 else i]? = some x := by
  obtain ⟨hmem, hplace⟩ := getElem?_numbered_iff.1 hx
  have hlt := (mem_numbered.1 hmem).2.2.lt_size
  have hold : (o.numbered c).countP (fun y => o'.Before y x) = i := by
    rw [← hplace]
    refine List.countP_congr fun y hy => ?_
    have hylt := (mem_numbered.1 hy).2.2.lt_size
    simpa using ⟨h.agree.symm.before hylt hlt, h.agree.before hylt hlt⟩
  refine getElem?_numbered_iff.2 ⟨h.agree.mem_numbered hlt hmem, ?_⟩
  rw [(h.perm_numbered c).countP_eq]
  by_cases hnew : o.size ∈ o'.numbered c
  · rw [if_pos hnew, List.countP_cons, hold]
    by_cases hbefore : o'.Before o.size x
    · have hdisplaced : Displaced o o' c x := ⟨hmem, hnew, hbefore⟩
      simp [hbefore, hdisplaced]
    · have hstays : ¬ Displaced o o' c x := fun hdisplaced => hbefore hdisplaced.before
      simp [hbefore, hstays]
  · have hstays : ¬ Displaced o o' c x := fun hdisplaced => hnew hdisplaced.mem_new
    rw [if_neg hnew, hold, if_neg hstays]

theorem getElem?_of_displaced (h : o.Appended d o') (hx : (o.numbered c)[i]? = some x)
    (hdisplaced : Displaced o o' c x) : (o'.numbered c)[i + 1]? = some x := by
  have hplace := h.getElem?_numbered hx
  rwa [if_pos hdisplaced] at hplace

theorem getElem?_of_not_displaced (h : o.Appended d o') (hx : (o.numbered c)[i]? = some x)
    (hstays : ¬ Displaced o o' c x) : (o'.numbered c)[i]? = some x := by
  have hplace := h.getElem?_numbered hx
  rwa [if_neg hstays] at hplace

end Appended
end Outline
end JvmSymbols
