import Mathlib.Data.List.DropRight
import JvmSymbols.Logging.Recent
import JvmSymbols.Proofs.Text.LineEnds

/-! Recent lines as the end of a history. Whatever is pushed, and however many lines at once, the lines held
are the last ones of all that have come, as many as there is room for. -/
namespace JvmSymbols

section Ends

variable {α : Type} {xs : List α} {k : Nat}

theorem rtake_of_length_le (h : xs.length ≤ k) : xs.rtake k = xs := by
  rw [List.rtake, Nat.sub_eq_zero_of_le h, List.drop_zero]

theorem length_rtake (xs : List α) (k : Nat) : (xs.rtake k).length = min k xs.length := by
  rw [List.rtake, List.length_drop]
  omega

theorem rtake_rtake (xs : List α) (m n : Nat) : (xs.rtake m).rtake n = xs.rtake (min n m) := by
  simp only [List.rtake, List.length_drop, List.drop_drop]
  congr 1
  omega

/-- What has been left out at the beginning is not missed once the list has grown. -/
theorem rtake_rtake_append (xs ys : List α) (k : Nat) :
    (xs.rtake k ++ ys).rtake k = (xs ++ ys).rtake k := by
  simp only [List.rtake, List.length_append, List.drop_append, List.length_drop, List.drop_drop]
  congr 2 <;> omega

end Ends

namespace RecentLines

def history (texts : List String) : List String := texts.flatMap linesOf

/-- Whether a list consists of the lines of the texts that are not empty, in their order. -/
inductive IsHistory : List String → List String → Prop
  | nil : IsHistory [] []
  | cons {text : String} {ls : List (List Char)} {texts rest : List String}
      (htext : Text.MadeOf '\n' '\r' text.toList ls) (hrest : IsHistory texts rest) :
      IsHistory (text :: texts) ((ls.filter fun l => l ≠ []).map String.ofList ++ rest)

theorem linesOf_eq (text : String) :
    linesOf text =
      ((Text.lines '\n' '\r' text.toList).filter fun l => l ≠ []).map String.ofList := by
  have hkept (l : List Char) : (!(String.ofList l).isEmpty) = decide (l ≠ []) := by
    cases l <;> simp
  rw [linesOf, Text.textLines, List.filter_map]
  congr 1
  exact List.filter_congr fun l _ => hkept l

theorem isHistory_iff {texts h : List String} : IsHistory texts h ↔ h = history texts := by
  constructor
  · intro hhistory
    induction hhistory with
    | nil => rfl
    | cons htext _ ih =>
      rw [ih, history, history, List.flatMap_cons, linesOf_eq,
        Text.lines_of_madeOf (by decide) htext]
  · rintro rfl
    induction texts with
    | nil => exact .nil
    | cons text texts ih =>
      rw [history, List.flatMap_cons, linesOf_eq]
      exact .cons (Text.madeOf_lines '\n' '\r' text.toList) ih

theorem lines_pushLine (r : RecentLines) (line : String) :
    (r.pushLine line).lines = (r.lines ++ [line]).rtake r.capacity := by
  have hle := r.length_le
  have hpos := r.capacity_pos
  rw [pushLine, List.rtake, List.length_append, List.length_singleton]
  split
  · rename_i hfull
    have hone : r.lines.length + 1 - r.capacity = 1 := by omega
    have hne : r.lines ≠ [] := List.ne_nil_of_length_pos (by omega)
    rw [hone, List.drop_one, List.tail_append_of_ne_nil hne]
  · have hzero : r.lines.length + 1 - r.capacity = 0 := by omega
    rw [hzero, List.drop_zero]

theorem lines_foldl_pushLine (r : RecentLines) (ls : List String) :
    (ls.foldl pushLine r).lines = (r.lines ++ ls).rtake r.capacity := by
  induction ls generalizing r with
  | nil => rw [List.append_nil, rtake_of_length_le r.length_le, List.foldl_nil]
  | cons line ls ih =>
    have hcapacity : (r.pushLine line).capacity = r.capacity := rfl
    rw [List.foldl_cons, ih, hcapacity, lines_pushLine, rtake_rtake_append, List.append_assoc,
      List.singleton_append]

def pushAll (r : RecentLines) (texts : List String) : RecentLines := texts.foldl push r

theorem pushAll_eq (r : RecentLines) (texts : List String) :
    r.pushAll texts = (history texts).foldl pushLine r := by
  rw [history, List.foldl_flatMap]
  rfl

/-- The recent lines while a text is pushed after others, when `k` of its lines have come. -/
def during (r : RecentLines) (texts : List String) (text : String) (k : Nat) : RecentLines :=
  ((linesOf text).take k).foldl pushLine (r.pushAll texts)

theorem lines_during (capacity : Nat) (texts : List String) (text : String) (k : Nat) :
    ((empty capacity).during texts text k).lines =
      (history texts ++ (linesOf text).take k).rtake (max capacity 1) := by
  rw [during, pushAll_eq, ← List.foldl_append, lines_foldl_pushLine]
  rfl

theorem lines_pushAll (capacity : Nat) (texts : List String) :
    ((empty capacity).pushAll texts).lines = (history texts).rtake (max capacity 1) := by
  rw [pushAll_eq, lines_foldl_pushLine]
  rfl

/-- The last `n` lines are the last ones of the history, no more than there is room for. At each moment, in
the midst of a text too, no more lines are held than there is room for; they are the end of what has come,
and where something is missing at the beginning there is no room left. -/
theorem last_pushAll (capacity : Nat) (texts : List String) :
    (∀ h, IsHistory texts h ↔ h = history texts) ∧
    (∀ n, ((empty capacity).pushAll texts).last n = (history texts).rtake (min n (max capacity 1))) ∧
    ∀ text k, ((empty capacity).during texts text k).lines.length ≤ max capacity 1 ∧
      ∃ dropped,
        history texts ++ (linesOf text).take k =
          dropped ++ ((empty capacity).during texts text k).lines ∧
        (dropped = [] ∨ ((empty capacity).during texts text k).lines.length = max capacity 1) := by
  refine ⟨fun h => isHistory_iff, fun n => ?_, fun text k => ?_⟩
  · have hlast : ((empty capacity).pushAll texts).last n =
        ((empty capacity).pushAll texts).lines.rtake n := rfl
    rw [hlast, lines_pushAll, rtake_rtake]
  · rw [lines_during, length_rtake]
    generalize history texts ++ (linesOf text).take k = come
    refine ⟨Nat.min_le_left _ _, come.take (come.length - max capacity 1), ?_, ?_⟩
    · exact (List.take_append_drop _ come).symm
    · by_cases hroom : come.length ≤ max capacity 1
      · left
        rw [Nat.sub_eq_zero_of_le hroom, List.take_zero]
      · right
        omega

end RecentLines
end JvmSymbols
