import JvmSymbols.Logging.Activity
import JvmSymbols.Settings.Basic
import JvmSymbols.Mapping.Reader

/-! Mapping files and the events of reading them. -/
namespace JvmSymbols

namespace Dictionary

def logTarget : String := "namemap.srg"

/-- The events of reading: one for each record passed over, and their number once the whole text has
been read. -/
def Reading.events (r : Reading) : List Event :=
  let each := r.passedOver.map fun (n, tag) =>
    ⟨.trace, logTarget, "ignoring mapping record", [("line", .count n), ("tag", .quoted tag)]⟩
  match r.outcome with
  | .ok _ =>
    if r.passedOver.isEmpty then each
    else each ++ [⟨.debug, logTarget, "skipped records with unhandled tags",
      [("ignored", .count r.passedOver.length)]⟩]
  | .error _ => each

def parseLogged (strict : Bool) (bytes : List UInt8) : Logged (Except MappingError Dictionary) :=
  let r := read strict bytes
  ⟨r.outcome, r.events⟩

/-- Reads what a path names. A directory can be opened, but not read. -/
def readFile (strict : Bool) (path : String) (files : FileTree) :
    Logged (Except MappingError Dictionary) :=
  match files.locate path with
  | .error cause => pure (.error (.unopenable path cause))
  | .ok (_, .directory) => pure (.error (.unreadable 1 .isDirectory))
  | .ok (_, .file content) => parseLogged strict content.data.toList

def load (strict : Bool) (path : String) : Activity (Except MappingError Dictionary) := do
  Activity.announce ⟨.debug, logTarget, "loading mappings", [("path", .text path)]⟩
  let outcome ← Activity.look fun files => .ofLogged (readFile strict path files)
  match outcome with
  | .error e => return .error e
  | .ok d =>
    Activity.announce ⟨.debug, logTarget, "loaded mappings", [("path", .text path),
      ("classes", .count d.classes.size), ("fields", .count d.fields.size),
      ("methods", .count d.methods.size)]⟩
    return .ok d

def loadConfigured (s : MappingSettings) : Activity (Except MappingError (Option Dictionary)) :=
  match s.path with
  | none => pure (.ok none)
  | some path => do
    let outcome ← load s.validateDescriptors path
    return outcome.map some

end Dictionary
end JvmSymbols
