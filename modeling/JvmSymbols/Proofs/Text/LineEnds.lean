import JvmSymbols.Proofs.Text.FirstLines

/-! Texts as lines with the marks that end them. Each text is made of its lines and of no others. Other
marks may end them: with carriage returns put in, or a last line feed added, the lines are the same up to a
carriage return at their ends. -/
namespace JvmSymbols
namespace Text

variable {α β : Type} {lf cr : α}

/-- Whether a text is made of the given lines. A line feed ends a line, or a carriage return and a line
feed together. The last line may go without, unless it is empty. -/
inductive MadeOf (lf cr : α) : List α → List (List α) → Prop
  | nil : MadeOf lf cr [] []
  | unended {line : List α} (hline : lf ∉ line) (hne : line ≠ []) : MadeOf lf cr line [line]
  | fed {line rest : List α} {ls : List (List α)} (hline : lf ∉ line) (hcr : line.getLast? ≠ some cr)
      (hrest : MadeOf lf cr rest ls) : MadeOf lf cr (line ++ lf :: rest) (line :: ls)
  | returned {line rest : List α} {ls : List (List α)} (hline : lf ∉ line)
      (hrest : MadeOf lf cr rest ls) : MadeOf lf cr (line ++ cr :: lf :: rest) (line :: ls)

variable [DecidableEq α]

theorem dropReturn_of_ne {line : List α} (h : line.getLast? ≠ some cr) : dropReturn cr line = line :=
  if_neg h

theorem dropReturn_append (cr : α) (line : List α) : dropReturn cr (line ++ [cr]) = line := by
  rw [dropReturn, List.getLast?_concat, if_pos rfl, List.dropLast_concat]

theorem lines_of_notMem {line : List α} (hline : lf ∉ line) (hne : line ≠ []) (cr : α) :
    lines lf cr line = [line] := by
  have hpieces : line.splitOn lf = [line] := List.splitOn_eq_singleton hline
  rw [lines, hpieces]
  cases line with
  | nil => exact absurd rfl hne
  | cons _ _ => rfl

theorem lines_append_return {line : List α} (hline : lf ∉ line) (hne : cr ≠ lf) (rest : List α) :
    lines lf cr (line ++ cr :: lf :: rest) = line :: lines lf cr rest := by
  have hreturned : lf ∉ line ++ [cr] := by simpa using ⟨hline, hne.symm⟩
  have hcut := lines_append_cons hreturned cr rest
  rwa [List.append_assoc, List.singleton_append, dropReturn_append] at hcut

theorem lines_of_madeOf {xs : List α} {ls : List (List α)} (hne : cr ≠ lf) (h : MadeOf lf cr xs ls) :
    lines lf cr xs = ls := by
  induction h with
  | nil => rw [lines, List.splitOn_nil]; rfl
  | unended hline hempty => exact lines_of_notMem hline hempty cr
  | fed hline hcr _ ih => rw [lines_append_cons hline, dropReturn_of_ne hcr, ih]
  | returned hline _ ih => rw [lines_append_return hline hne, ih]

theorem madeOf_lines (lf cr : α) (xs : List α) : MadeOf lf cr xs (lines lf cr xs) := by
  induction hk : xs.length using Nat.strongRecOn generalizing xs with
  | ind k ih =>
    cases hsplit : splitFirst lf xs with
    | none =>
      have hline := splitFirst_eq_none_iff.1 hsplit
      by_cases hempty : xs = []
      · rw [hempty, lines, List.splitOn_nil]
        exact .nil
      · rw [lines_of_notMem hline hempty]
        exact .unended hline hempty
    | some cut =>
      obtain ⟨line, rest⟩ := cut
      have hrest := ih rest.length (hk ▸ splitFirst_length_lt hsplit) rest rfl
      obtain ⟨rfl, hline⟩ := splitFirst_eq_some_iff.1 hsplit
      rw [lines_append_cons hline]
      by_cases hcr : line.getLast? = some cr
      · obtain ⟨front, rfl⟩ := List.getLast?_eq_some_iff.1 hcr
        have hfront : lf ∉ front := fun hmem => hline (List.mem_append_left _ hmem)
        rw [dropReturn_append, List.append_assoc, List.singleton_append]
        exact .returned hfront hrest
      · rw [dropReturn_of_ne hcr]
        exact .fed hline hcr hrest

def withReturns (lf cr : α) (xs : List α) : List α :=
  xs.flatMap fun x => if x = lf then [cr, lf] else [x]

theorem withReturns_of_notMem {line : List α} (hline : lf ∉ line) : withReturns lf cr line = line := by
  induction line with
  | nil => rfl
  | cons x xs ih =>
    rw [List.mem_cons, not_or] at hline
    rw [withReturns, List.flatMap_cons, if_neg (Ne.symm hline.1), ← withReturns, ih hline.2,
      List.singleton_append]

theorem withReturns_append_cons {line : List α} (hline : lf ∉ line) (cr : α) (rest : List α) :
    withReturns lf cr (line ++ lf :: rest) = line ++ cr :: lf :: withReturns lf cr rest := by
  rw [withReturns, List.flatMap_append, List.flatMap_cons, if_pos rfl, ← withReturns, ← withReturns,
    withReturns_of_notMem hline]
  rfl

section SameLines

variable {f : List α → β} (hf : ∀ line, f (dropReturn cr line) = f line)
include hf

theorem map_append_return (line : List α) : f (line ++ [cr]) = f line := by
  rw [← hf, dropReturn_append]

/-- What does not see a carriage return at the end of a line does not see those put in. -/
theorem map_lines_withReturns (hne : cr ≠ lf) (xs : List α) :
    (lines lf cr (withReturns lf cr xs)).map f = (lines lf cr xs).map f := by
  -- By the marks of the text itself. Where it has a carriage return already, a second one stays in the line.
  have hmade := madeOf_lines lf cr xs
  generalize lines lf cr xs = ls at hmade
  induction hmade with
  | nil => rw [withReturns, List.flatMap_nil, lines, List.splitOn_nil]; rfl
  | unended hline hempty => rw [withReturns_of_notMem hline, lines_of_notMem hline hempty]
  | fed hline _ _ ih =>
    rw [withReturns_append_cons hline, lines_append_return hline hne, List.map_cons, List.map_cons, ih]
  | @returned line rest ls hline _ ih =>
    have hreturned : lf ∉ line ++ [cr] := by simpa using ⟨hline, hne.symm⟩
    have hput := withReturns_append_cons hreturned cr rest
    rw [List.append_assoc, List.singleton_append] at hput
    rw [hput, lines_append_return hreturned hne, List.map_cons, List.map_cons, ih, map_append_return hf]

/-- What does not see a carriage return at the end of a line does not see a line feed behind the last line. -/
theorem map_lines_append_lineFeed {xs : List α} (hne : cr ≠ lf) (hempty : xs ≠ [])
    (hlast : xs.getLast? ≠ some lf) :
    (lines lf cr (xs ++ [lf])).map f = (lines lf cr xs).map f := by
  have hmade := madeOf_lines lf cr xs
  generalize lines lf cr xs = ls at hmade
  -- Behind a line that is ended the text goes on, for it does not end in a line feed.
  have behind {front rest : List α} (h : (front ++ lf :: rest).getLast? ≠ some lf) :
      rest ≠ [] ∧ rest.getLast? ≠ some lf := by
    cases rest with
    | nil => simp at h
    | cons x rest => exact ⟨List.cons_ne_nil x rest, by simpa using h⟩
  induction hmade with
  | nil => exact absurd rfl hempty
  | unended hline _ =>
    have hnone : lines lf cr [] = [] := by rw [lines, List.splitOn_nil]; rfl
    rw [lines_append_cons hline, hnone, List.map_singleton, List.map_singleton, hf]
  | @fed line rest ls hline hcr _ ih =>
    obtain ⟨hrest, hend⟩ := behind hlast
    rw [List.append_assoc, List.cons_append, lines_append_cons hline, dropReturn_of_ne hcr,
      List.map_cons, List.map_cons, ih hrest hend]
  | @returned line rest ls hline _ ih =>
    have hsame : line ++ cr :: lf :: rest = (line ++ [cr]) ++ lf :: rest := by simp
    obtain ⟨hrest, hend⟩ := behind (hsame ▸ hlast)
    rw [List.append_assoc, List.cons_append, List.cons_append, lines_append_return hline hne,
      List.map_cons, List.map_cons, ih hrest hend]

end SameLines

end Text
end JvmSymbols
