import JvmSymbols.Text.Lines
import JvmSymbols.Text.Split

/-! The beginning of a text up to the end of a line. Its lines are the first lines of the text. -/
namespace JvmSymbols
namespace Text

variable {α : Type} [DecidableEq α]

/-- The first `k` lines of a text with what ends them, or all of it if there are fewer. -/
def firstLines (lf : α) : Nat → List α → List α
  | 0, _ => []
  | k + 1, xs =>
    match splitFirst lf xs with
    | some (line, rest) => line ++ lf :: firstLines lf k rest
    | none => xs

theorem firstLines_prefix (lf : α) (k : Nat) (xs : List α) : firstLines lf k xs <+: xs := by
  induction k generalizing xs with
  | zero => exact List.nil_prefix
  | succ k ih =>
    rw [firstLines]
    split
    · rename_i line rest hsplit
      obtain ⟨rfl, _⟩ := splitFirst_eq_some_iff.1 hsplit
      exact (List.prefix_append_right_inj line).2 ((List.prefix_cons_inj lf).2 (ih rest))
    · exact List.prefix_refl xs

theorem lines_append_cons {lf : α} {line : List α} (h : lf ∉ line) (cr : α) (rest : List α) :
    lines lf cr (line ++ lf :: rest) = dropReturn cr line :: lines lf cr rest := by
  obtain ⟨piece, pieces, hpieces⟩ := List.exists_cons_of_ne_nil (List.splitOn_ne_nil lf rest)
  rw [lines, lines, List.splitOn_append_cons_self_of_not_mem h, hpieces, List.dropLast_cons_cons,
    List.getLast?_cons_cons, List.map_cons]
  cases (piece :: pieces).getLast? with
  | none => rfl
  | some last => cases last <;> rfl

theorem length_lines_le_one {lf : α} {xs : List α} (h : lf ∉ xs) (cr : α) :
    (lines lf cr xs).length ≤ 1 := by
  have hpieces : xs.splitOn lf = [xs] := List.splitOn_eq_singleton h
  rw [lines, hpieces]
  cases xs <;> simp

theorem lines_firstLines (lf cr : α) (k : Nat) (xs : List α) :
    lines lf cr (firstLines lf k xs) = (lines lf cr xs).take k := by
  induction k generalizing xs with
  | zero => rw [firstLines, List.take_zero, lines, List.splitOn_nil]; rfl
  | succ k ih =>
    rw [firstLines]
    split
    · rename_i line rest hsplit
      obtain ⟨rfl, hline⟩ := splitFirst_eq_some_iff.1 hsplit
      rw [lines_append_cons hline, lines_append_cons hline, ih, List.take_succ_cons]
    · rename_i hsplit
      have hlength := length_lines_le_one (splitFirst_eq_none_iff.1 hsplit) cr
      rw [List.take_of_length_le (by omega)]

end Text
end JvmSymbols
