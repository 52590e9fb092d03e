import JvmSymbols.Text.Lines

/-! The most recent lines of a log. At least one line is kept, and the oldest make room for new
ones. -/
namespace JvmSymbols

structure RecentLines where
  capacity : Nat
  /-- The lines held, oldest first. -/
  lines : List String
  capacity_pos : 0 < capacity
  length_le : lines.length ≤ capacity
  deriving DecidableEq, Repr

namespace RecentLines

def empty (capacity : Nat) : RecentLines :=
  ⟨max capacity 1, [], by omega, by simp⟩

@[simp] theorem empty_capacity (capacity : Nat) : (empty capacity).capacity = max capacity 1 := rfl

def pushLine (r : RecentLines) (line : String) : RecentLines where
  capacity := r.capacity
  lines := (if r.lines.length = r.capacity then r.lines.tail else r.lines) ++ [line]
  capacity_pos := r.capacity_pos
  length_le := by
    have := r.capacity_pos
    have := r.length_le
    split <;> simp <;> omega

def linesOf (text : String) : List String :=
  (Text.textLines text).filter (fun line => !line.isEmpty)

def push (r : RecentLines) (text : String) : RecentLines := (linesOf text).foldl pushLine r

@[simp] theorem push_capacity (r : RecentLines) (text : String) :
    (r.push text).capacity = r.capacity := by
  unfold push
  induction linesOf text generalizing r with
  | nil => rfl
  | cons line lines ih => exact ih (r.pushLine line)

/-- The last `n` lines, or all if there are fewer, oldest first. -/
def last (r : RecentLines) (n : Nat) : List String := r.lines.drop (r.lines.length - n)

end RecentLines
end JvmSymbols
