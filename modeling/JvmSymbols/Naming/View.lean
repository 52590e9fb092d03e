/-! What naming needs to know about classes: which class declares a member, what encloses a node in
the text, and which unnamed classes a class numbers. The nodes may be of any type, and nothing is
assumed about how the relations fit together. -/
namespace JvmSymbols

structure ClassView (ν : Type) where
  /-- The class that declares a node as a named member. -/
  container : ν → Option ν
  /-- The node that directly encloses a node in the text: a class, a method, a block. -/
  lexicalParent : ν → Option ν
  isClass : ν → Bool
  simpleName : ν → Option String
  /-- The dotted name of a class that is declared directly in a package. -/
  topLevelName : ν → Option String
  /-- The anonymous and local classes of a class in the order of their declarations. -/
  numbered : ν → List ν

structure ClassDirectory (ν : Type) where
  topLevel? : String → Option ν
  member? : ν → String → Option ν

inductive NamingFault
  | memberWithoutName
  | noEnclosingClass
  | notNumbered
  | endless
  deriving DecidableEq, Repr

namespace NamingFault

def message : NamingFault → String
  | memberWithoutName => "member class has no simple name"
  | noEnclosingClass => "anonymous class has no enclosing class"
  | notNumbered => "class is not among its container's anonymous classes"
  | endless => "class nesting does not terminate"

end NamingFault

structure NamingError (ν : Type) where
  node : ν
  fault : NamingFault
  deriving DecidableEq, Repr

namespace NamingError

def message {ν : Type} (label : ν → String) (e : NamingError ν) : String :=
  "inconsistent class structure at " ++ label e.node ++ ": " ++ e.fault.message

end NamingError
end JvmSymbols
