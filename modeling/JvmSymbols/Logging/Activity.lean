import JvmSymbols.Files.Tree
import JvmSymbols.Logging.Event

/-! Computations that emit events and look at files on their way. What they see is decided when they
are run, so that a file may grow by the very events that a computation has emitted before. -/
namespace JvmSymbols

inductive Activity (α : Type)
  | done (value : α)
  | emit (event : Event) (next : Activity α)
  | look (next : FileTree → Activity α)

namespace Activity

variable {α β : Type}

def andThen (f : α → Activity β) : Activity α → Activity β
  | done value => f value
  | emit event next => emit event (andThen f next)
  | look next => look fun files => andThen f (next files)

instance : Monad Activity where
  pure := done
  bind x f := andThen f x

def ofLogged (x : Logged α) : Activity α := x.events.foldr emit (done x.value)

def announce (event : Event) : Activity Unit := emit event (done ())

def files : Activity FileTree := look done

/-- Runs an activity where nobody writes. -/
def run (files : FileTree) : Activity α → Logged α
  | done value => ⟨value, []⟩
  | emit event next => { run files next with events := event :: (run files next).events }
  | look next => run files (next files)

end Activity
end JvmSymbols
