import JvmSymbols.Text.Split
import JvmSymbols.Naming.View

/-! Outlines of source texts: the classes they declare and the methods, initializers and blocks around
these. Declarations are appended one by one and known by their position, so that a declaration's
parent always stands before it. -/
namespace JvmSymbols

inductive Declaration
  /-- A class declared directly in a package, with its dotted name. -/
  | topLevel (name : String)
  | memberClass (container : Nat) (name : String)
  | localClass (parent : Nat) (name : String)
  | anonymous (parent : Nat)
  /-- What is no class: a method, an initializer, a block. -/
  | scope (parent : Option Nat) (label : String)
  deriving DecidableEq, Repr

namespace Declaration

def parent : Declaration → Option Nat
  | topLevel _ => none
  | memberClass p _ | localClass p _ | anonymous p => some p
  | scope p _ => p

def isClass : Declaration → Bool
  | scope _ _ => false
  | _ => true

def isNumbered : Declaration → Bool
  | localClass _ _ | anonymous _ => true
  | _ => false

def isScope (d : Declaration) : Bool := !d.isClass

end Declaration

/-- How many declarations an outline has room for: their positions are 32-bit numbers. -/
def Outline.capacity : Nat := 4294967296

structure Outline where
  declarations : Array Declaration
  /-- What stands directly under each declaration, the last first. -/
  childLists : Array (List Nat)
  parent_lt : ∀ (i : Nat) (d : Declaration), declarations[i]? = some d →
    ∀ p, d.parent = some p → p < i
  size_childLists : childLists.size = declarations.size
  childLists_eq : ∀ n, childLists.getD n [] = ((List.range declarations.size).filter
    (fun i => declarations[i]?.bind Declaration.parent = some n)).reverse
  size_le : declarations.size ≤ Outline.capacity

namespace Outline

def empty : Outline := ⟨#[], #[], by simp, rfl, by simp, by simp⟩

def size (o : Outline) : Nat := o.declarations.size

def get? (o : Outline) (n : Nat) : Option Declaration := o.declarations[n]?

def parent (o : Outline) (n : Nat) : Option Nat := (o.get? n).bind Declaration.parent

def foreignParentMessage : String := "parent node belongs to another ClassTree"

def Accepts (o : Outline) (d : Declaration) : Prop :=
  (∀ p, d.parent = some p → p < o.size) ∧ o.size < capacity

instance (o : Outline) (d : Declaration) : Decidable (o.Accepts d) :=
  match h : d.parent with
  | none => decidable_of_iff (o.size < capacity) (by simp [Accepts, h])
  | some q => decidable_of_iff (q < o.size ∧ o.size < capacity) (by simp [Accepts, h])

def linkNext (lists : Array (List Nat)) : Option Nat → Array (List Nat)
  | none => lists.push []
  | some p =>
    let position := lists.size
    (lists.modify p (position :: ·)).push []

theorem size_linkNext (lists : Array (List Nat)) (parent : Option Nat) :
    (linkNext lists parent).size = lists.size + 1 := by
  cases parent <;> simp [linkNext]

theorem getD_linkNext {lists : Array (List Nat)} {parent : Option Nat}
    (h : ∀ p, parent = some p → p < lists.size) (n : Nat) :
    (linkNext lists parent).getD n [] =
      if parent = some n then lists.size :: lists.getD n [] else lists.getD n [] := by
  simp only [Array.getD_eq_getD_getElem?]
  cases parent with
  | none =>
    by_cases hn : n = lists.size <;> simp [linkNext, Array.getElem?_push, hn]
  | some p =>
    have hp := h p rfl
    simp only [linkNext, Array.getElem?_push, Array.size_modify, Array.getElem?_modify]
    by_cases hn : n = lists.size
    · subst hn
      simp [Nat.ne_of_lt hp]
    · by_cases hpn : p = n
      · subst hpn
        simp [hn, hp]
      · simp [hn, hpn]

def push (o : Outline) (d : Declaration) (h : o.Accepts d) : Outline where
  declarations := o.declarations.push d
  childLists := linkNext o.childLists d.parent
  parent_lt := by
    intro i e he p hp
    rw [Array.getElem?_push] at he
    split at he
    · cases he
      rename_i hi
      exact hi ▸ h.1 p hp
    · exact o.parent_lt i e he p hp
  size_childLists := by rw [size_linkNext, o.size_childLists, Array.size_push]
  childLists_eq := by
    intro n
    rw [getD_linkNext (fun p hp => o.size_childLists ▸ h.1 p hp), o.childLists_eq, o.size_childLists,
      Array.size_push, List.range_succ, List.filter_append, List.reverse_append]
    have old : (List.range o.declarations.size).filter
          (fun i => (o.declarations.push d)[i]?.bind Declaration.parent = some n) =
        (List.range o.declarations.size).filter
          (fun i => o.declarations[i]?.bind Declaration.parent = some n) := by
      refine List.filter_congr fun i hi => ?_
      rw [Array.getElem?_push, if_neg (Nat.ne_of_lt (List.mem_range.1 hi))]
    rw [old]
    by_cases hd : d.parent = some n <;> simp [hd]
  size_le := by
    rw [Array.size_push]
    exact h.2

def add (o : Outline) (d : Declaration) : Option Outline :=
  if h : o.Accepts d then some (o.push d h) else none

def children (o : Outline) (n : Nat) : List Nat := (o.childLists.getD n []).reverse

theorem children_eq (o : Outline) (n : Nat) :
    o.children n = (List.range o.size).filter (fun i => o.parent i = some n) := by
  rw [children, o.childLists_eq, List.reverse_reverse]
  rfl

theorem mem_children {o : Outline} {n i : Nat} : i ∈ o.children n ↔ o.parent i = some n := by
  simp only [children_eq, List.mem_filter, List.mem_range, decide_eq_true_eq, and_iff_right_iff_imp]
  intro h
  simp only [parent, get?, Option.bind_eq_some_iff] at h
  obtain ⟨d, hd, _⟩ := h
  exact (Array.getElem?_eq_some_iff.1 hd).1

theorem lt_of_parent {o : Outline} {n i : Nat} (h : o.parent i = some n) : n < i := by
  simp only [parent, get?, Option.bind_eq_some_iff] at h
  obtain ⟨d, hd, hp⟩ := h
  exact o.parent_lt i d hd n hp

theorem lt_size_of_parent {o : Outline} {n i : Nat} (h : o.parent i = some n) : i < o.size := by
  simp only [parent, get?, Option.bind_eq_some_iff] at h
  obtain ⟨d, hd, _⟩ := h
  exact (Array.getElem?_eq_some_iff.1 hd).1

def isClass (o : Outline) (n : Nat) : Bool := (o.get? n).any Declaration.isClass

def isScope (o : Outline) (n : Nat) : Bool := (o.get? n).any Declaration.isScope

def isNumbered (o : Outline) (n : Nat) : Bool := (o.get? n).any Declaration.isNumbered

/-- The anonymous and local classes below `n` with only scopes in between, in the order of the
text. -/
def numberedBelow (o : Outline) (n : Nat) : List Nat :=
  (o.children n).attach.flatMap fun ⟨i, _hi⟩ =>
    if o.isNumbered i then [i]
    else if o.isScope i then o.numberedBelow i
    else []
termination_by o.size - n
decreasing_by
  have := lt_of_parent (mem_children.1 _hi)
  have := lt_size_of_parent (mem_children.1 _hi)
  omega

theorem numberedBelow_eq (o : Outline) (n : Nat) :
    o.numberedBelow n = (o.children n).flatMap fun i =>
      if o.isNumbered i then [i] else if o.isScope i then o.numberedBelow i else [] := by
  rw [numberedBelow]
  simp [List.flatMap_subtype]

def numbered (o : Outline) (n : Nat) : List Nat := if o.isClass n then o.numberedBelow n else []

def container (o : Outline) (n : Nat) : Option Nat :=
  match o.get? n with
  | some (.memberClass c _) => some c
  | _ => none

/-- A top-level class goes by the part of its name after the last dot. -/
def simpleName (o : Outline) (n : Nat) : Option String :=
  match o.get? n with
  | some (.topLevel name) =>
    match Text.splitLast '.' name.toList with
    | some (_, simple) => some (String.ofList simple)
    | none => some name
  | some (.memberClass _ name) | some (.localClass _ name) => some name
  | _ => none

def topLevelName (o : Outline) (n : Nat) : Option String :=
  match o.get? n with
  | some (.topLevel name) => some name
  | _ => none

/-- The last top-level class declared under a name. -/
def topLevel? (o : Outline) (name : String) : Option Nat :=
  (List.range o.size).reverse.find? (fun i => o.topLevelName i = some name)

/-- The first member class of `n` declared under a name. -/
def member? (o : Outline) (n : Nat) (name : String) : Option Nat :=
  (o.children n).find? (fun i => o.get? i = some (.memberClass n name))

def view (o : Outline) : ClassView Nat where
  container := o.container
  lexicalParent := o.parent
  isClass := o.isClass
  simpleName := o.simpleName
  topLevelName := o.topLevelName
  numbered := o.numbered

def directory (o : Outline) : ClassDirectory Nat where
  topLevel? := o.topLevel?
  member? := o.member?

end Outline
end JvmSymbols
