import JvmSymbols.Naming.Name
import JvmSymbols.Mapping.Dictionary

/-! Looking up classes and their members in a dictionary where a class is given by its place among
others instead of by its name. A class without a name is an error, whatever the dictionary holds. -/
namespace JvmSymbols
namespace Dictionary

variable {ν : Type} [DecidableEq ν]

def findClass (d : Dictionary) (v : ClassView ν) (n : ν) :
    Logged (Except (NamingError ν) (Option String)) := do
  match ← v.nameLogged .binary n with
  | .error e => return .error e
  | .ok name => return .ok (d.mappedClass? name)

def findField (d : Dictionary) (v : ClassView ν) (owner : ν) (name : String) :
    Logged (Except (NamingError ν) (Option Member)) := do
  match ← v.nameLogged .binary owner with
  | .error e => return .error e
  | .ok ownerName => return .ok (d.mappedField? ⟨ownerName, name, none⟩)

def findMethod (d : Dictionary) (v : ClassView ν) (owner : ν) (shape : MethodShape) :
    Logged (Except (NamingError ν) (Option Member)) := do
  match ← v.nameLogged .binary owner with
  | .error e => return .error e
  | .ok ownerName =>
    let key := Member.ofShape ownerName shape
    Logged.emit ⟨.trace, "namemap.srg", "structural method lookup", [("method", .text key.display)]⟩
    return .ok (d.mappedMethod? key)

end Dictionary
end JvmSymbols
