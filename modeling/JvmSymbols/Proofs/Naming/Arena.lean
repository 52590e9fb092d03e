import JvmSymbols.Naming.Arena
import JvmSymbols.Proofs.Naming.Order

/-! What additions make of an arena. From the empty one they reach only arenas that answer as an outline
does, and so keep parents, children and names in step. -/
namespace JvmSymbols

/-- The outline after declarations have been added one by one, where those it does not accept are left
out. -/
def Outline.grow (o : Outline) (ds : List Declaration) : Outline := ds.foldl (fun o d => (o.add d).getD o) o

theorem Outline.grow_cons (o : Outline) (d : Declaration) (ds : List Declaration) :
    o.grow (d :: ds) = ((o.add d).getD o).grow ds := rfl

namespace Arena

variable {a a' : Arena} {d : Declaration} {o : Outline} {c n p : Nat} {name : String}

theorem isSome_kind?_iff : (a.kind? n).isSome ↔ n < a.size := by
  simp [kind?, size]

structure Written (a : Arena) (d : Declaration) (a' : Arena) : Prop where
  size_eq : a'.size = a.size + 1
  kind?_eq : ∀ n, a'.kind? n = if n = a.size then some d.kind else a.kind? n
  parent_eq : ∀ n, a'.parent n = if n = a.size then d.parent else a.parent n
  children_eq : ∀ n, a'.children n = if d.parent = some n then a.children n ++ [a.size] else a.children n
  topLevel?_eq : ∀ name, a'.topLevel? name = if d = .topLevel name then some a.size else a.topLevel? name

section Linking

variable {kind : NodeKind} {parent : Option Nat}

theorem size_link : (a.link kind parent).size = a.size + 1 := by
  cases parent <;> simp [link, size]

theorem getElem?_nodes_link (h : ∀ p, parent = some p → p < a.size) (n : Nat) :
    (a.link kind parent).nodes[n]? =
      if n = a.size then some ⟨kind, parent, #[]⟩
      else if parent = some n then
        a.nodes[n]?.map fun node => { node with children := node.children.push a.size }
      else a.nodes[n]? := by
  cases parent with
  | none => simp [link, size, Array.getElem?_push]
  | some p =>
    have hp : p < a.size := h p rfl
    have hnodes : (a.link kind (some p)).nodes = (a.nodes.push ⟨kind, some p, #[]⟩).modify p
        fun node => { node with children := node.children.push a.size } := rfl
    have hsize : a.nodes.size = a.size := rfl
    rw [hnodes, Array.getElem?_modify, Array.getElem?_push, hsize]
    by_cases hn : n = a.size
    · rw [if_neg (by omega), if_pos hn, if_pos hn]
    · simp only [hn, if_false, Option.some.injEq]

theorem kind?_link (h : ∀ p, parent = some p → p < a.size) (n : Nat) :
    (a.link kind parent).kind? n = if n = a.size then some kind else a.kind? n := by
  rw [kind?, getElem?_nodes_link h]
  split_ifs with hn hp
  · rfl
  · rw [Option.map_map]
    rfl
  · rfl

theorem parent_link (h : ∀ p, parent = some p → p < a.size) (n : Nat) :
    (a.link kind parent).parent n = if n = a.size then parent else a.parent n := by
  rw [Arena.parent, getElem?_nodes_link h]
  split_ifs with hn hp
  · rfl
  · rw [Option.bind_map]
    rfl
  · rfl

theorem children_link (h : ∀ p, parent = some p → p < a.size) (n : Nat) :
    (a.link kind parent).children n =
      if parent = some n then a.children n ++ [a.size] else a.children n := by
  rw [children, getElem?_nodes_link h]
  split_ifs with hn hp hp
  · have := h n hp
    omega
  · simp [children, hn, size]
  · have hlt := h n hp
    obtain ⟨node, hnode⟩ : ∃ node, a.nodes[n]? = some node := ⟨_, Array.getElem?_eq_getElem hlt⟩
    simp [children, hnode]
  · rfl

end Linking

theorem nodes_enter (a : Arena) (position : Nat) (d : Declaration) :
    (a.enter position d).nodes = a.nodes := by
  cases d <;> rfl

theorem topLevel?_enter (a : Arena) (position : Nat) (d : Declaration) (name : String) :
    (a.enter position d).topLevel? name =
      if d = .topLevel name then some position else a.topLevel? name := by
  cases d with
  | topLevel name' =>
    simp only [Declaration.topLevel.injEq]
    exact a.topLevels.get?_put name' name position
  | _ => rfl

theorem written_enter_link (h : ∀ p, d.parent = some p → p < a.size) :
    Written a d ((a.link d.kind d.parent).enter a.size d) := by
  have hnodes := nodes_enter (a.link d.kind d.parent) a.size d
  refine ⟨?_, fun n => ?_, fun n => ?_, fun n => ?_, fun name => topLevel?_enter _ _ _ _⟩
  · rw [size, hnodes]
    exact size_link
  · rw [kind?, hnodes]
    exact kind?_link h n
  · rw [parent, hnodes]
    exact parent_link h n
  · rw [children, hnodes]
    exact children_link h n

/-- The three things that an addition can do. -/
theorem add_cases (a : Arena) (d : Declaration) :
    ((∃ p, d.parent = some p ∧ a.size ≤ p) ∧ a.add d = (.error .foreignParent, a)) ∨
    ((∀ p, d.parent = some p → p < a.size) ∧ Outline.capacity ≤ a.size ∧
      a.add d = (.error .full, a)) ∨
    ((∀ p, d.parent = some p → p < a.size) ∧ a.size < Outline.capacity ∧
      ∃ a', a.add d = (.ok a.size, a') ∧ Written a d a') := by
  have hforeign : d.parent.any (a.size ≤ ·) = true ↔ ∃ p, d.parent = some p ∧ a.size ≤ p := by
    cases d.parent <;> simp
  by_cases hparent : ∃ p, d.parent = some p ∧ a.size ≤ p
  · refine .inl ⟨hparent, ?_⟩
    rw [add, push, if_pos (hforeign.2 hparent)]
  · have hknown : ∀ p, d.parent = some p → p < a.size := fun p hp =>
      Nat.lt_of_not_le fun hle => hparent ⟨p, hp, hle⟩
    by_cases hroom : Outline.capacity ≤ a.size
    · refine .inr (.inl ⟨hknown, hroom, ?_⟩)
      rw [add, push, if_neg (mt hforeign.1 hparent), if_pos hroom]
    · refine .inr (.inr ⟨hknown, Nat.lt_of_not_le hroom, _, ?_, written_enter_link hknown⟩)
      rw [add, push, if_neg (mt hforeign.1 hparent), if_neg hroom]

theorem add_unchanged_or (a : Arena) (d : Declaration) :
    (a.add d).2 = a ∨ Written a d (a.add d).2 := by
  rcases a.add_cases d with ⟨_, hadd⟩ | ⟨_, _, hadd⟩ | ⟨_, _, a', hadd, hwritten⟩
  · exact .inl (congrArg Prod.snd hadd)
  · exact .inl (congrArg Prod.snd hadd)
  · rw [hadd]
    exact .inr hwritten

theorem kind?_add (d : Declaration) (h : n < a.size) : (a.add d).2.kind? n = a.kind? n := by
  rcases a.add_unchanged_or d with hsame | hwritten
  · rw [hsame]
  · rw [hwritten.kind?_eq, if_neg (Nat.ne_of_lt h)]

theorem parent_add (d : Declaration) (h : n < a.size) : (a.add d).2.parent n = a.parent n := by
  rcases a.add_unchanged_or d with hsame | hwritten
  · rw [hsame]
  · rw [hwritten.parent_eq, if_neg (Nat.ne_of_lt h)]

theorem children_add (h : d.parent ≠ some n) : (a.add d).2.children n = a.children n := by
  rcases a.add_unchanged_or d with hsame | hwritten
  · rw [hsame]
  · rw [hwritten.children_eq, if_neg h]

structure Represents (a : Arena) (o : Outline) : Prop where
  size_eq : a.size = o.size
  kind?_eq : ∀ n, a.kind? n = (o.get? n).map Declaration.kind
  parent_eq : ∀ n, a.parent n = o.parent n
  children_eq : ∀ n, a.children n = o.children n
  topLevel?_eq : ∀ name, a.topLevel? name = o.topLevel? name

theorem represents_empty : Represents empty .empty :=
  ⟨rfl, fun _ => rfl, fun _ => rfl, fun _ => rfl, fun _ => rfl⟩

namespace Represents

theorem push (h : Represents a o) (haccepts : o.Accepts d) (hwritten : Written a d a') :
    Represents a' (o.push d haccepts) where
  size_eq := by rw [hwritten.size_eq, Outline.size_push, h.size_eq]
  kind?_eq n := by
    rw [hwritten.kind?_eq, Outline.get?_push, h.size_eq, h.kind?_eq]
    split <;> rfl
  parent_eq n := by rw [hwritten.parent_eq, Outline.parent_push, h.size_eq, h.parent_eq]
  children_eq n := by rw [hwritten.children_eq, Outline.children_push, h.size_eq, h.children_eq]
  topLevel?_eq name := by rw [hwritten.topLevel?_eq, Outline.topLevel?_push, h.size_eq, h.topLevel?_eq]

/-- An arena takes the declarations that its outline accepts, and stays as it is for others. -/
theorem add (h : Represents a o) (d : Declaration) :
    (∃ o' a', o.add d = some o' ∧ a.add d = (.ok o.size, a') ∧ Represents a' o') ∨
    (∃ refusal, o.add d = none ∧ a.add d = (.error refusal, a)) := by
  rcases a.add_cases d with ⟨⟨p, hp, hle⟩, hadd⟩ | ⟨_, hfull, hadd⟩ | ⟨hknown, hroom, a', hadd, hwritten⟩
  · refine .inr ⟨_, dif_neg fun haccepts => ?_, hadd⟩
    have hlt := haccepts.1 p hp
    have hsize := h.size_eq
    omega
  · refine .inr ⟨_, dif_neg fun haccepts => ?_, hadd⟩
    have hlt := haccepts.2
    have hsize := h.size_eq
    omega
  · have haccepts : o.Accepts d := by
      rw [Outline.Accepts, ← h.size_eq]
      exact ⟨hknown, hroom⟩
    exact .inl ⟨o.push d haccepts, a', dif_pos haccepts, h.size_eq ▸ hadd, h.push haccepts hwritten⟩

end Represents

/-- Whether the parents, the children and the names of an arena agree. -/
structure Linked (a : Arena) : Prop where
  isSome_kind?_iff : ∀ n, (a.kind? n).isSome ↔ n < a.size
  parent_eq_some_iff : ∀ c p, a.parent c = some p ↔ c ∈ a.children p
  /-- A node stands behind its parent, and once among the children there. -/
  child_of_parent : ∀ c p, a.parent c = some p → (a.children p).count c = 1 ∧ p < c
  children_increasing : ∀ p, (a.children p).Pairwise (· < ·)
  parent_topLevel : ∀ n name, a.kind? n = some (.topLevel name) → a.parent n = none
  parent_nested : ∀ n kind, a.kind? n = some kind → kind.isNested → ∃ p, a.parent n = some p
  topLevel?_eq_some_iff : ∀ name n, a.topLevel? name = some n ↔
    a.kind? n = some (.topLevel name) ∧ ∀ m, a.kind? m = some (.topLevel name) → m ≤ n
  topLevel?_eq_none_iff : ∀ name, a.topLevel? name = none ↔ ∀ n, a.kind? n ≠ some (.topLevel name)

namespace Represents

theorem kind?_eq_some_iff (h : Represents a o) {kind : NodeKind} :
    a.kind? n = some kind ↔ ∃ d, o.get? n = some d ∧ d.kind = kind := by
  rw [h.kind?_eq, Option.map_eq_some_iff]

theorem kind?_eq_topLevel_iff (h : Represents a o) :
    a.kind? n = some (.topLevel name) ↔ o.get? n = some (.topLevel name) := by
  rw [h.kind?_eq_some_iff]
  constructor
  · rintro ⟨d, hd, hkind⟩
    cases d with
    | topLevel name' => rw [hd, NodeKind.topLevel.inj hkind]
    | _ => cases hkind
  · intro hget
    exact ⟨_, hget, rfl⟩

theorem linked (h : Represents a o) : Linked a where
  isSome_kind?_iff _ := isSome_kind?_iff
  parent_eq_some_iff c p := by rw [h.parent_eq, h.children_eq, Outline.mem_children]
  child_of_parent c p hp := by
    rw [h.parent_eq] at hp
    have hmem : c ∈ o.children p := Outline.mem_children.2 hp
    have hnodup : (o.children p).Nodup := (Outline.pairwise_children p).imp Nat.ne_of_lt
    rw [h.children_eq, hnodup.count, if_pos hmem]
    exact ⟨rfl, Outline.lt_of_parent hp⟩
  children_increasing p := by
    rw [h.children_eq]
    exact Outline.pairwise_children p
  parent_topLevel n name hkind := by
    rw [h.parent_eq, Outline.parent, h.kind?_eq_topLevel_iff.1 hkind]
    rfl
  parent_nested n kind hkind hnested := by
    obtain ⟨d, hd, rfl⟩ := h.kind?_eq_some_iff.1 hkind
    rw [h.parent_eq, Outline.parent, hd]
    cases d with
    | memberClass p _ | localClass p _ | anonymous p => exact ⟨p, rfl⟩
    | topLevel _ | scope _ _ => cases hnested
  topLevel?_eq_some_iff name n := by
    simp only [h.topLevel?_eq, h.kind?_eq_topLevel_iff, Outline.topLevel?_eq_some_iff]
  topLevel?_eq_none_iff name := by
    simp only [h.topLevel?_eq, ne_eq, h.kind?_eq_topLevel_iff, Outline.topLevel?_eq_none_iff]

end Represents

theorem run_cons (a : Arena) (d : Declaration) (ds : List Declaration) :
    a.run (d :: ds) = ((a.add d).1 :: ((a.add d).2.run ds).1, ((a.add d).2.run ds).2) := rfl

theorem run_append (a : Arena) (ds es : List Declaration) :
    a.run (ds ++ es) = ((a.run ds).1 ++ ((a.run ds).2.run es).1, ((a.run ds).2.run es).2) := by
  induction ds generalizing a with
  | nil => rfl
  | cons d ds ih => rw [List.cons_append, run_cons, run_cons, ih, List.cons_append]

def after (ds : List Declaration) : Arena := (empty.run ds).2

theorem Represents.run (h : Represents a o) (ds : List Declaration) :
    Represents (a.run ds).2 (o.grow ds) := by
  induction ds generalizing a o with
  | nil => exact h
  | cons d ds ih =>
    rw [run_cons, Outline.grow_cons]
    rcases h.add d with ⟨o', a', haccepts, hadd, hrepresents⟩ | ⟨_, hrefuses, hadd⟩
    · rw [hadd, haccepts]
      exact ih hrepresents
    · rw [hadd, hrefuses]
      exact ih h

theorem represents_after (ds : List Declaration) : Represents (after ds) (Outline.empty.grow ds) :=
  represents_empty.run ds

/-- The positions that a run answers go on from the size without gaps. -/
theorem positions_run (a : Arena) (ds : List Declaration) :
    ∃ k, (a.run ds).2.size = a.size + k ∧
      (a.run ds).1.filterMap Except.toOption = List.range' a.size k := by
  induction ds generalizing a with
  | nil => exact ⟨0, rfl, rfl⟩
  | cons d ds ih =>
    rw [run_cons]
    rcases a.add_cases d with ⟨_, hadd⟩ | ⟨_, _, hadd⟩ | ⟨_, _, a', hadd, hwritten⟩
    · rw [hadd]
      exact ih a
    · rw [hadd]
      exact ih a
    · obtain ⟨k, hsize, hpositions⟩ := ih a'
      rw [hwritten.size_eq] at hsize hpositions
      refine ⟨k + 1, ?_, ?_⟩
      · rw [hadd, hsize]
        omega
      · rw [hadd, List.filterMap_cons, hpositions, List.range'_succ]
        rfl

theorem positions_after (ds : List Declaration) :
    (empty.run ds).1.filterMap Except.toOption = List.range (after ds).size := by
  obtain ⟨k, hsize, hpositions⟩ := positions_run empty ds
  have hk : (after ds).size = k := hsize.trans (Nat.zero_add k)
  rw [hpositions, hk, List.range_eq_range']
  rfl

/-- After the first part of a run from the empty arena the positions answered so far are the numbers below
the size, in their order, and parents, children and names agree. One more declaration leaves kind and
parent of each node and the children of each node but its parent as they are. Under a parent that is not
there it is refused and changes nothing; otherwise it is written, if there is room. -/
theorem linked_after (done rest : List Declaration) :
    (empty.run (done ++ rest) =
      ((empty.run done).1 ++ ((after done).run rest).1, ((after done).run rest).2)) ∧
    (empty.run done).1.filterMap Except.toOption = List.range (after done).size ∧
    Linked (after done) ∧
    ∀ d,
      (∀ n < (after done).size, ((after done).add d).2.kind? n = (after done).kind? n ∧
        ((after done).add d).2.parent n = (after done).parent n) ∧
      (∀ n, d.parent ≠ some n → ((after done).add d).2.children n = (after done).children n) ∧
      (∀ p, d.parent = some p → (after done).size ≤ p →
        (after done).add d = (.error .foreignParent, after done)) ∧
      ((∀ p, d.parent = some p → p < (after done).size) → (after done).size < Outline.capacity →
        ∃ a, (after done).add d = (.ok (after done).size, a) ∧ Written (after done) d a) := by
  refine ⟨run_append _ _ _, positions_after done, (represents_after done).linked, fun d => ⟨?_, ?_, ?_, ?_⟩⟩
  · intro n hn
    exact ⟨kind?_add d hn, parent_add d hn⟩
  · intro n hn
    exact children_add hn
  · intro p hp hle
    rcases (after done).add_cases d with ⟨_, hadd⟩ | ⟨hknown, _, _⟩ | ⟨hknown, _, _⟩
    · exact hadd
    · exact absurd (hknown p hp) (Nat.not_lt_of_le hle)
    · exact absurd (hknown p hp) (Nat.not_lt_of_le hle)
  · intro hknown hroom
    rcases (after done).add_cases d with ⟨⟨p, hp, hle⟩, _⟩ | ⟨_, hfull, _⟩ | ⟨_, _, hwrites⟩
    · exact absurd (hknown p hp) (Nat.not_lt_of_le hle)
    · exact absurd hroom (Nat.not_lt_of_le hfull)
    · exact hwrites

/-- A name that was declared twice, a declaration under an unknown parent, and a scope in a member class. -/
def retaken : List Declaration :=
  [.topLevel "A", .memberClass 0 "B", .topLevel "A", .anonymous 7, .scope (some 1) "run"]

/-- The scope is a child of its class, and one more child of the class leaves it alone and follows it. What
goes under an unknown parent is refused again. -/
theorem linked_after_retaken :
    3 ∈ (after retaken).children 1 ∧
    ((after retaken).add (.anonymous 1)).2.parent 3 = some 1 ∧
    ((after retaken).add (.anonymous 1)).2.children 0 = [1] ∧
    (after retaken).add (.anonymous 7) = (.error .foreignParent, after retaken) ∧
    ∃ a, (after retaken).add (.anonymous 1) = (.ok 4, a) ∧ a.children 1 = [3, 4] := by
  obtain ⟨_, _, hlinked, hadd⟩ := linked_after retaken []
  have hparent : (after retaken).parent 3 = some 1 := by decide
  have hsize : (after retaken).size = 4 := by decide
  obtain ⟨hkeeps, hothers, _, hwrites⟩ := hadd (.anonymous 1)
  obtain ⟨_, _, hforeign, _⟩ := hadd (.anonymous 7)
  obtain ⟨a, hok, hwritten⟩ := hwrites (by decide) (by decide)
  refine ⟨(hlinked.parent_eq_some_iff 3 1).1 hparent, ?_, ?_, hforeign 7 rfl (by decide), a, ?_, ?_⟩
  · exact (hkeeps 3 (by decide)).2.trans hparent
  · exact (hothers 0 (by decide)).trans (by decide)
  · rw [hok, hsize]
  · exact (hwritten.children_eq 1).trans (by decide)

end Arena
end JvmSymbols
