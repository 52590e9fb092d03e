import JvmSymbols.ClassName
import JvmSymbols.Logging.Event
import JvmSymbols.Naming.View

/-! Names of nested classes. A class is named by the top-level class at the end of its climb and by one
fragment for each step there: a member's own name, or the number of an anonymous or local class among
those of its enclosing class. -/
namespace JvmSymbols

/-- The spellings of a class name: dotted throughout, as mapping tables and as bytecode have it, and
without its package. -/
inductive Spelling
  | qualified | binary | internal | short
  deriving DecidableEq, Repr

namespace Spelling

def separator : Spelling → Char
  | qualified | short => '.'
  | binary | internal => '$'

def name : Spelling → String
  | qualified => "Qualified"
  | binary => "Binary"
  | internal => "Internal"
  | short => "Short"

end Spelling

/-- How many classes, and how many enclosing nodes of one class, a climb passes at most. -/
def nestingLimit : Nat := 1024

namespace ClassView

variable {ν : Type}

def rootName (v : ClassView ν) (spelling : Spelling) (n : ν) : Option String :=
  match v.topLevelName n with
  | none => none
  | some qualified =>
    match spelling with
    | .qualified | .binary => some qualified
    | .internal => some (ClassName.toInternal qualified)
    | .short => v.simpleName n

/-- The first class among the first `k` nodes of a lexical chain. -/
def nearestClass (v : ClassView ν) : Nat → Option ν → Option ν
  | 0, _ => none
  | _ + 1, none => none
  | k + 1, some n => if v.isClass n then some n else v.nearestClass k (v.lexicalParent n)

def enclosing (v : ClassView ν) (n : ν) : Option ν :=
  v.nearestClass nestingLimit (v.lexicalParent n)

/-- The number of `child` among the anonymous and local classes of `parent`, counted from one. -/
def number? [DecidableEq ν] (v : ClassView ν) (parent child : ν) : Option Nat :=
  ((v.numbered parent).findIdx? (fun n => n = child)).map (· + 1)

def number [DecidableEq ν] (v : ClassView ν) (parent child : ν) : Except (NamingError ν) Nat :=
  match v.number? parent child with
  | some i => .ok i
  | none => .error ⟨child, .notNumbered⟩

/-- One step of a climb: the fragment that names `n` and the class in which it does. -/
def step [DecidableEq ν] (v : ClassView ν) (n : ν) : Except (NamingError ν) (String × ν) :=
  match v.container n with
  | some parent =>
    match v.simpleName n with
    | some name => .ok (name, parent)
    | none => .error ⟨n, .memberWithoutName⟩
  | none =>
    match v.enclosing n with
    | none => .error ⟨n, .noEnclosingClass⟩
    | some parent =>
      match v.number parent n with
      | .ok i => .ok (i.repr, parent)
      | .error e => .error e

/-- Climbs from `n` to a root with at most `k` steps and puts the fragments, outermost first, in
front of those below `n`. A climb that finds no root is blamed on the node it started from. -/
def climb [DecidableEq ν] (v : ClassView ν) (spelling : Spelling) (start : ν) :
    Nat → ν → List String → Except (NamingError ν) (String × List String)
  | 0, n, below =>
    match v.rootName spelling n with
    | some root => .ok (root, below)
    | none => .error ⟨start, .endless⟩
  | k + 1, n, below =>
    match v.rootName spelling n with
    | some root => .ok (root, below)
    | none =>
      match v.step n with
      | .ok (fragment, parent) => climb v spelling start k parent (fragment :: below)
      | .error e => .error e

def path [DecidableEq ν] (v : ClassView ν) (spelling : Spelling) (n : ν) :
    Except (NamingError ν) (String × List String) :=
  v.climb spelling n nestingLimit n []

def joinPath (spelling : Spelling) (path : String × List String) : String :=
  (String.singleton spelling.separator).intercalate (path.1 :: path.2)

def name [DecidableEq ν] (v : ClassView ν) (spelling : Spelling) (n : ν) :
    Except (NamingError ν) String :=
  match v.path spelling n with
  | .ok path => .ok (joinPath spelling path)
  | .error e => .error e

/-- Naming a nested class is an event; naming a top-level class is none. -/
def nameLogged [DecidableEq ν] (v : ClassView ν) (spelling : Spelling) (n : ν) :
    Logged (Except (NamingError ν) String) :=
  ⟨v.name spelling n,
    match v.path spelling n with
    | .ok path =>
      if path.2.isEmpty then []
      else [⟨.trace, "namemap.names", "built nested class name",
        [("style", .text spelling.name), ("name", .text (joinPath spelling path))]⟩]
    | .error _ => []⟩

end ClassView
end JvmSymbols
