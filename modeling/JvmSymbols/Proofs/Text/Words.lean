import Mathlib.Data.List.DropRight
import JvmSymbols.Text.Lines

/-! The words of a text. A word is not empty and has no blank, and the words that stand with single
spaces between them are read back. Blanks at the ends are taken away once and for all. -/
namespace JvmSymbols
namespace Text

structure IsWord (w : String) : Prop where
  ne_empty : w ≠ ""
  not_blank : ∀ c ∈ w.toList, isBlank c = false

theorem IsWord.toList_ne_nil {w : String} (h : IsWord w) : w.toList ≠ [] := by
  intro hw
  exact h.ne_empty (String.toList_eq_nil_iff.1 hw)

theorem eq_false_of_mem_splitOnP {α : Type} {p : α → Bool} (xs : List α) :
    ∀ piece ∈ xs.splitOnP p, ∀ x ∈ piece, p x = false := by
  induction xs with
  | nil => simp
  | cons x xs ih =>
    rw [List.splitOnP_cons_eq_if_modifyHead]
    by_cases hx : p x = true
    · simpa [hx] using ih
    · cases hpieces : xs.splitOnP p with
      | nil => simp [hx]
      | cons first others =>
        simp only [hpieces, List.forall_mem_cons] at ih
        rw [if_neg hx, List.modifyHead_cons]
        simp only [List.forall_mem_cons]
        exact ⟨⟨by simpa using hx, ih.1⟩, ih.2⟩

theorem isWord_of_mem_words {cs : List Char} {w : String} (h : w ∈ words cs) : IsWord w := by
  obtain ⟨piece, hpiece, rfl⟩ := List.mem_map.1 h
  obtain ⟨hsplit, hne⟩ := List.mem_filter.1 hpiece
  constructor
  · intro hw
    have hnil : piece = [] := by simpa using congrArg String.toList hw
    simp [hnil] at hne
  · simpa using eq_false_of_mem_splitOnP cs piece hsplit

/-- A blank belongs to no word and separates the words around it. -/
theorem words_append_blank {c : Char} (hc : isBlank c = true) (xs ys : List Char) :
    words (xs ++ c :: ys) = words xs ++ words ys := by
  rw [words, List.splitOnP_append_cons xs ys hc, List.filter_append, List.map_append]
  rfl

theorem words_concat_blank {c : Char} (hc : isBlank c = true) (xs : List Char) :
    words (xs ++ [c]) = words xs := by
  have hnone : words [] = [] := rfl
  rw [words_append_blank hc, hnone, List.append_nil]

theorem words_toList {w : String} (h : IsWord w) : words w.toList = [w] := by
  rw [words, List.splitOnP_eq_singleton h.not_blank]
  simp [h.toList_ne_nil]

theorem words_intercalate {ws : List String} (h : ∀ w ∈ ws, IsWord w) :
    words (" ".intercalate ws).toList = ws := by
  induction ws with
  | nil => rfl
  | cons w ws ih =>
    have hw := words_toList (h w (by simp))
    cases ws with
    | nil => simpa using hw
    | cons v vs =>
      have htail := ih (fun u hu => h u (by simp [hu]))
      have hspace : isBlank ' ' = true := by decide
      rw [String.intercalate_cons_cons, String.toList_append, String.toList_append,
        List.append_assoc]
      change words (w.toList ++ ' ' :: (" ".intercalate (v :: vs)).toList) = w :: v :: vs
      rw [words_append_blank hspace, hw, htail, List.singleton_append]

theorem eq_space_of_mem_intercalate {ws : List String} (h : ∀ w ∈ ws, IsWord w) {c : Char}
    (hc : c ∈ (" ".intercalate ws).toList) (hb : isBlank c = true) : c = ' ' := by
  induction ws with
  | nil => simp at hc
  | cons w ws ih =>
    have hw : c ∉ w.toList := by
      intro hcw
      simp [(h w (by simp)).not_blank c hcw] at hb
    cases ws with
    | nil =>
      rw [String.intercalate_singleton] at hc
      exact absurd hc hw
    | cons v vs =>
      rw [String.intercalate_cons_cons, String.toList_append, String.toList_append] at hc
      rcases List.mem_append.1 hc with hc | hc
      · rcases List.mem_append.1 hc with hc | hc
        · exact absurd hc hw
        · simpa using hc
      · exact ih (fun u hu => h u (by simp [hu])) hc

theorem toList_trim (s : String) :
    (trim s).toList = (s.toList.dropWhile isBlank).rdropWhile isBlank := by
  rw [trim, String.toList_ofList]
  rfl

theorem dropWhile_eq_self_of_prefix {α : Type} {p : α → Bool} {xs ys : List α} (h : ys <+: xs)
    (hxs : xs.dropWhile p = xs) : ys.dropWhile p = ys := by
  obtain ⟨zs, rfl⟩ := h
  rw [List.dropWhile_eq_self_iff] at hxs ⊢
  intro hpos
  rw [← List.getElem_append_left hpos]
  exact hxs (by rw [List.length_append]; omega)

theorem trim_trim (s : String) : trim (trim s) = trim s := by
  have hleft : (trim s).toList.dropWhile isBlank = (trim s).toList := by
    refine dropWhile_eq_self_of_prefix ?_ (List.dropWhile_idempotent isBlank s.toList)
    rw [toList_trim]
    exact List.rdropWhile_prefix isBlank _
  apply String.toList_injective
  rw [toList_trim (trim s), hleft, toList_trim, List.rdropWhile_idempotent]

end Text
end JvmSymbols
