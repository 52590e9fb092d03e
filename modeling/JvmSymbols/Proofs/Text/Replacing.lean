import JvmSymbols.Proofs.Text.Words
import Mathlib.Tactic.SplitIfs

/-! Texts whose words are replaced one by one. The blanks between the words stay where they are, so the
new words are read in the order in which they were put in. -/
namespace JvmSymbols
namespace Text

def weave : List (List Char) → List Char → List Char
  | [], seps => seps
  | piece :: pieces, [] => piece ++ weave pieces []
  | piece :: pieces, sep :: seps => piece ++ sep :: weave pieces seps

/-- New words for the pieces that have text, from left to right. -/
def refill : List (List Char) → List String → List (List Char)
  | [], _ => []
  | [] :: pieces, ws => [] :: refill pieces ws
  | (c :: cs) :: pieces, [] => (c :: cs) :: pieces
  | (_ :: _) :: pieces, w :: ws => w.toList :: refill pieces ws

/-- A text with new words between its blanks, which stay. -/
def replaceWords (cs : List Char) (ws : List String) : List Char :=
  weave (refill (cs.splitOnP isBlank) ws) (cs.filter isBlank)

theorem length_splitOnP {α : Type} (p : α → Bool) (xs : List α) :
    (xs.splitOnP p).length = (xs.filter p).length + 1 := by
  induction xs with
  | nil => rfl
  | cons x xs ih =>
    rw [List.splitOnP_cons_eq_if_modifyHead, List.filter_cons]
    split_ifs
    · rw [List.length_cons, List.length_cons, ih]
    · rw [List.length_modifyHead, ih]

theorem length_refill (pieces : List (List Char)) (ws : List String) :
    (refill pieces ws).length = pieces.length := by
  fun_induction refill pieces ws <;> simp [*]

theorem weave_splitOnP (p : Char → Bool) (cs : List Char) :
    weave (cs.splitOnP p) (cs.filter p) = cs := by
  induction cs with
  | nil => rfl
  | cons c cs ih =>
    rw [List.splitOnP_cons_eq_if_modifyHead, List.filter_cons]
    split_ifs with hc
    · rw [weave, ih, List.nil_append]
    · cases hpieces : cs.splitOnP p with
      | nil => exact absurd hpieces (List.splitOnP_ne_nil p cs)
      | cons piece pieces =>
        rw [hpieces] at ih
        rw [List.modifyHead_cons]
        cases hseps : cs.filter p <;> rw [hseps] at ih <;> rw [weave, List.cons_append] <;>
          exact congrArg (List.cons c) ih

theorem mem_weave {pieces : List (List Char)} {seps : List Char} {c : Char} :
    c ∈ weave pieces seps ↔ (∃ piece ∈ pieces, c ∈ piece) ∨ c ∈ seps := by
  fun_induction weave pieces seps with
  | case1 seps => simp
  | case2 piece pieces ih => simp [ih]
  | case3 piece pieces sep seps ih =>
    simp only [List.mem_append, List.mem_cons, ih, exists_eq_or_imp, or_assoc, or_left_comm]

theorem words_weave {pieces : List (List Char)} {seps : List Char}
    (hseps : ∀ c ∈ seps, isBlank c = true) (hlength : pieces.length = seps.length + 1) :
    words (weave pieces seps) = pieces.flatMap words := by
  induction seps generalizing pieces with
  | nil =>
    obtain ⟨piece, rfl⟩ := List.length_eq_one_iff.1 hlength
    simp [weave]
  | cons sep seps ih =>
    cases pieces with
    | nil => simp at hlength
    | cons piece pieces =>
      rw [List.forall_mem_cons] at hseps
      rw [weave, words_append_blank hseps.1, ih hseps.2 (by simpa using hlength), List.flatMap_cons]

theorem flatMap_words_refill {pieces : List (List Char)} {ws : List String}
    (hws : ∀ w ∈ ws, IsWord w) (hlength : ws.length = pieces.countP (fun piece => !piece.isEmpty)) :
    (refill pieces ws).flatMap words = ws := by
  fun_induction refill pieces ws with
  | case1 ws => simpa [eq_comm] using hlength
  | case2 pieces ws ih =>
    rw [List.flatMap_cons, ih hws (by simpa using hlength)]
    rfl
  | case3 c cs pieces => simp at hlength
  | case4 _ _ pieces w ws ih =>
    rw [List.forall_mem_cons] at hws
    rw [List.flatMap_cons, words_toList hws.1, ih hws.2 (by simpa using hlength)]
    rfl

/-- The new words are read where the old ones stood. -/
theorem words_replaceWords {cs : List Char} {ws : List String} (hws : ∀ w ∈ ws, IsWord w)
    (hlength : ws.length = (words cs).length) : words (replaceWords cs ws) = ws := by
  have hcount : ws.length = (cs.splitOnP isBlank).countP (fun piece => !piece.isEmpty) := by
    rw [hlength, words, List.length_map, List.countP_eq_length_filter]
  rw [replaceWords, words_weave, flatMap_words_refill hws hcount]
  · intro c hc
    exact (List.mem_filter.1 hc).2
  · rw [length_refill, length_splitOnP]

theorem replaceWords_words (cs : List Char) : replaceWords cs (words cs) = cs := by
  have hrefill (pieces : List (List Char)) :
      refill pieces ((pieces.filter fun piece => !piece.isEmpty).map String.ofList) = pieces := by
    induction pieces with
    | nil => rfl
    | cons piece pieces ih => cases piece <;> simp [refill, ih]
  rw [replaceWords, words, hrefill, weave_splitOnP]

theorem mem_refill {pieces : List (List Char)} {ws : List String} {piece : List Char}
    (h : piece ∈ refill pieces ws) : piece ∈ pieces ∨ ∃ w ∈ ws, piece = w.toList := by
  fun_induction refill pieces ws with
  | case1 ws => simp at h
  | case2 pieces ws ih =>
    rcases List.mem_cons.1 h with rfl | h
    · simp
    · rcases ih h with h | h <;> simp [h]
  | case3 c cs pieces => exact .inl h
  | case4 _ _ pieces w ws ih =>
    rcases List.mem_cons.1 h with rfl | h
    · simp
    · rcases ih h with h | ⟨v, hv, rfl⟩
      · simp [h]
      · exact .inr ⟨v, by simp [hv], rfl⟩

theorem mem_replaceWords {cs : List Char} {ws : List String} {c : Char} (h : c ∈ replaceWords cs ws) :
    c ∈ cs ∨ ∃ w ∈ ws, c ∈ w.toList := by
  rcases mem_weave.1 h with ⟨piece, hpiece, hc⟩ | hblank
  · rcases mem_refill hpiece with hold | ⟨w, hw, rfl⟩
    · left
      rw [← weave_splitOnP isBlank cs]
      exact mem_weave.2 (.inl ⟨piece, hold, hc⟩)
    · exact .inr ⟨w, hw, hc⟩
  · exact .inl (List.mem_filter.1 hblank).1

end Text
end JvmSymbols
