import JvmSymbols.Logging.Activity
import JvmSymbols.Logging.Filter
import JvmSymbols.Logging.Line
import JvmSymbols.Logging.Recent

/-! Sessions: one log for everything that happens from a start without a logger on. The first step that
needs the recent lines fixes how many are kept, and the first installation fixes filter, format and
outlets; later ones change nothing. Without a logger events are lost. -/
namespace JvmSymbols

/-- What decides about an event: whether it counts, how it is written, and where to. -/
structure Logger where
  filter : Filter
  json : Bool
  stderr : Bool
  file : Option Place
  recent : Nat
  deriving DecidableEq, Repr

namespace Logger

def text (l : Logger) (e : Event) : String := (if l.json then e.jsonLine else e.plainLine) ++ "\n"

end Logger

structure Session where
  files : FileTree
  environment : Option String
  /-- The recent lines that have been set up. Whoever uses some knows them by their position. -/
  buffers : List RecentLines
  /-- The position of the recent lines that are for everybody, once somebody has needed them. -/
  shared : Option Nat
  logger : Option Logger
  stderr : String

namespace Session

def start (files : FileTree) (environment : Option String) : Session :=
  ⟨files, environment, [], none, none, ""⟩

/-- The position of the shared recent lines. They are set up with `capacity` unless they are there. -/
def share (s : Session) (capacity : Nat) : Nat × Session :=
  match s.shared with
  | some r => (r, s)
  | none => (s.buffers.length,
      { s with buffers := s.buffers ++ [.empty capacity], shared := some s.buffers.length })

def record (s : Session) (r : Nat) (text : String) : Session :=
  { s with buffers := s.buffers.modify r (·.push text) }

def lastLines (s : Session) (r n : Nat) : List String := (s.buffers[r]?.map (·.last n)).getD []

/-- How many lines are kept where no settings say it. -/
def defaultCapacity : Nat := ({} : LogSettings).bufferLines

def write (s : Session) (l : Logger) (e : Event) : Session :=
  let s := s.record l.recent (l.text e)
  { s with
    files := match l.file with
      | some place => s.files.append place (l.text e).toByteArray
      | none => s.files
    stderr := if l.stderr then s.stderr ++ l.text e else s.stderr }

def emit (s : Session) (e : Event) : Session :=
  match s.logger with
  | some l => if l.filter.enables e then s.write l e else s
  | none => s

def loggerOf (s : Session) (settings : LogSettings) (recent : Nat) : Logger :=
  ⟨settings.filter s.environment, settings.json, settings.stderr, none, recent⟩

/-- Installs the logger of given settings. A log file that cannot be opened is left out with a
warning. -/
def installLogger (s : Session) (settings : LogSettings) (recent : Nat) : Session :=
  match settings.file with
  | none => { s with logger := some (s.loggerOf settings recent) }
  | some path =>
    match s.files.openForAppending path with
    | .ok (files, place) =>
      { s with files, logger := some { s.loggerOf settings recent with file := some place } }
    | .error cause =>
      { s with logger := some (s.loggerOf settings recent) : Session }.emit
        ⟨.warn, "namemap.config", "cannot open log file; file logging disabled",
          [("path", .text path), ("error", .text cause.message)]⟩

/-- Starts logging, unless a logger is installed, and hands out the shared recent lines. -/
def install (s : Session) (settings : LogSettings) : Nat × Session :=
  match s.share settings.bufferLines with
  | (r, s) => (r, if s.logger.isSome then s else s.installLogger settings r)

def perform {α : Type} (s : Session) : Activity α → α × Session
  | .done value => (value, s)
  | .emit event next => (s.emit event).perform next
  | .look next => s.perform (next s.files)

inductive Step (α : Type)
  | install (settings : LogSettings)
  | touch
  | push (text : String)
  | last (n : Nat)
  | perform (activity : Activity α)

/-- What a step answers. Installing and touching hand out recent lines by their position. -/
inductive Answer (α : Type)
  | recent (position : Nat)
  | pushed
  | lines (lines : List String)
  | value (value : α)
  deriving DecidableEq, Repr

def step {α : Type} (s : Session) : Step α → Answer α × Session
  | .install settings =>
    match s.install settings with
    | (r, s) => (.recent r, s)
  | .touch =>
    match s.share defaultCapacity with
    | (r, s) => (.recent r, s)
  | .push text =>
    match s.share defaultCapacity with
    | (r, s) => (.pushed, s.record r text)
  | .last n =>
    match s.share defaultCapacity with
    | (r, s) => (.lines (s.lastLines r n), s)
  | .perform activity =>
    match s.perform activity with
    | (value, s) => (.value value, s)

def run {α : Type} (s : Session) : List (Step α) → List (Answer α) × Session
  | [] => ([], s)
  | first :: rest =>
    let (answer, s) := s.step first
    let (answers, s) := s.run rest
    (answer :: answers, s)

end Session
end JvmSymbols
