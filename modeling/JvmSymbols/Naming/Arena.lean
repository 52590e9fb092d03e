import JvmSymbols.Index
import JvmSymbols.Naming.Outline

/-! Outlines while they are written. An arena keeps nodes by their positions, with what each of them stands
under and what stands directly under it, and for each name the top-level class that was declared last.
An addition has to write all of this; the type does not tie one part to another. -/
namespace JvmSymbols

/-- What a node is, apart from where it stands. -/
inductive NodeKind
  | topLevel (name : String)
  | memberClass (name : String)
  | localClass (name : String)
  | anonymous
  | scope (label : String)
  deriving DecidableEq, Repr

namespace NodeKind

def isNested : NodeKind → Bool
  | memberClass _ | localClass _ | anonymous => true
  | topLevel _ | scope _ => false

end NodeKind

namespace Declaration

def kind : Declaration → NodeKind
  | topLevel name => .topLevel name
  | memberClass _ name => .memberClass name
  | localClass _ name => .localClass name
  | anonymous _ => .anonymous
  | scope _ label => .scope label

end Declaration

structure Arena.Node where
  kind : NodeKind
  parent : Option Nat
  children : Array Nat
  deriving DecidableEq, Repr

structure Arena where
  nodes : Array Arena.Node
  topLevels : Index String Nat

namespace Arena

inductive Refusal
  | foreignParent
  | full
  deriving DecidableEq, Repr

def empty : Arena := ⟨#[], .empty⟩

def size (a : Arena) : Nat := a.nodes.size

def kind? (a : Arena) (n : Nat) : Option NodeKind := a.nodes[n]?.map Node.kind

def parent (a : Arena) (n : Nat) : Option Nat := a.nodes[n]?.bind Node.parent

def children (a : Arena) (n : Nat) : List Nat := (a.nodes[n]?.map fun node => node.children.toList).getD []

def topLevel? (a : Arena) (name : String) : Option Nat := a.topLevels.get? name

def link : Arena → NodeKind → Option Nat → Arena
  | ⟨nodes, topLevels⟩, kind, parent =>
    let position := nodes.size
    let written := nodes.push ⟨kind, parent, #[]⟩
    ⟨match parent with
      | some p => written.modify p fun node => { node with children := node.children.push position }
      | none => written, topLevels⟩

def push (a : Arena) (kind : NodeKind) (parent : Option Nat) : Except Refusal Nat × Arena :=
  if parent.any (a.size ≤ ·) then (.error .foreignParent, a)
  else if Outline.capacity ≤ a.size then (.error .full, a)
  else
    let position := a.size
    (.ok position, a.link kind parent)

/-- Enters a top-level class under its name, in the place of one that was declared earlier. -/
def enter (a : Arena) (position : Nat) : Declaration → Arena
  | .topLevel name => { a with topLevels := a.topLevels.put name position }
  | _ => a

def add (a : Arena) (d : Declaration) : Except Refusal Nat × Arena :=
  match a.push d.kind d.parent with
  | (.error refusal, a) => (.error refusal, a)
  | (.ok position, a) => (.ok position, a.enter position d)

/-- Adds declarations one after the other. A refusal does not end the run. -/
def run (a : Arena) : List Declaration → List (Except Refusal Nat) × Arena
  | [] => ([], a)
  | d :: rest =>
    let (outcome, next) := a.add d
    let (outcomes, last) := next.run rest
    (outcome :: outcomes, last)

end Arena
end JvmSymbols
