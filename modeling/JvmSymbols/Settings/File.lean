import JvmSymbols.Logging.Activity
import JvmSymbols.Settings.Decode

/-! Settings files: loading one, and finding the one of a workspace. -/
namespace JvmSymbols

namespace Settings

def logTarget : String := "namemap.config"

def unknownKeyEvent (path key : String) : Event :=
  ⟨.warn, logTarget, "ignoring unknown config key", [("key", .text key), ("path", .text path)]⟩

def readFile (path : String) (files : FileTree) :
    Logged (Except SettingsError (Settings × List String)) :=
  match files.readText path with
  | .error cause => pure (.error (.unreadable path cause))
  | .ok text =>
    match parse text with
    | .error e => pure (.error e)
    | .ok (s, unknown) =>
      ⟨.ok (s.resolveBeside path, unknown), unknown.map (unknownKeyEvent path)⟩

def load (path : String) : Activity (Except SettingsError (Settings × List String)) :=
  .look fun files => .ofLogged (readFile path files)

/-- The names that the settings file of a workspace may have, the preferred one first. -/
def fileNames : List String := ["namemap.toml", ".namemap.toml", ".namemap/config.toml"]

def discover (root : String) (files : FileTree) : Option String :=
  (fileNames.findSome? fun name => files.fileAt? (Path.join root name)).map FileTree.absolute

/-- Loads the settings of the workspace at `root` and tells from where. Without a file these are the
defaults. -/
def loadWorkspace (root : String) : Activity (Except SettingsError (Settings × Option String)) :=
  .look fun files =>
    match discover root files with
    | none => do
      Activity.announce ⟨.debug, logTarget, "no config file found; using defaults",
        [("root", .text root)]⟩
      return .ok ({}, none)
    | some path => do
      match ← load path with
      | .error e => return .error e
      | .ok (s, _) => return .ok (s, some path)

end Settings
end JvmSymbols
