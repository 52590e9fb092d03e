import JvmSymbols.Proofs.Text.Bytes
import JvmSymbols.Proofs.Text.Words

/-! Lines of a text and lines of its bytes. Bytes are cut where the text is, and to the words of a line it
makes no difference whether a carriage return at its end is dropped. -/
namespace JvmSymbols
namespace Text

section Cutting

variable {α β : Type} [DecidableEq α]

theorem splitOn_append_of_notMem {sep : α} {xs : List α} (h : sep ∉ xs) (ys : List α) :
    (xs ++ ys).splitOn sep = (ys.splitOn sep).modifyHead (xs ++ ·) := by
  induction xs with
  | nil =>
    have hid : (fun piece : List α => [] ++ piece) = id := rfl
    rw [hid, List.modifyHead_id, id, List.nil_append]
  | cons x xs ih =>
    rw [List.mem_cons, not_or] at h
    have hx : ¬ (x == sep) := fun he => h.1 (eq_of_beq he).symm
    rw [List.cons_append, List.splitOn_cons_eq_if_modifyHead, if_neg hx, ih h.2,
      List.modifyHead_modifyHead]
    rfl

/-- The lines of a text with the carriage returns at their ends. -/
def rawLines (lf : α) (xs : List α) : List (List α) :=
  (xs.splitOn lf).dropLast ++ (xs.splitOn lf).getLast?.toList.filter fun l => !l.isEmpty

/-- What does not see a carriage return at the end sees the same lines. -/
theorem map_lines {lf cr : α} {f : List α → β} (hf : ∀ l, f (dropReturn cr l) = f l) (xs : List α) :
    (lines lf cr xs).map f = (rawLines lf xs).map f := by
  have hended (ls : List (List α)) : (ls.map (dropReturn cr)).map f = ls.map f := by
    rw [List.map_map]
    exact List.map_congr_left fun l _ => hf l
  rw [lines, rawLines, List.map_append, ← hended (xs.splitOn lf).dropLast]
  cases (xs.splitOn lf).getLast? with
  | none => simp
  | some last => cases last <;> simp

theorem rawLines_eq_map [DecidableEq β] {lf : α} {lf' : β} {xs : List α} {ys : List β} {g : List α → List β}
    (hcut : ys.splitOn lf' = (xs.splitOn lf).map g) (hg : ∀ l, g l = [] ↔ l = []) :
    rawLines lf' ys = (rawLines lf xs).map g := by
  have hkept (l : List α) : (g l).isEmpty = l.isEmpty := by
    rw [Bool.eq_iff_iff, List.isEmpty_iff, List.isEmpty_iff, hg]
  rw [rawLines, rawLines, hcut, List.map_append, ← List.map_dropLast, List.getLast?_map]
  cases (xs.splitOn lf).getLast? with
  | none => simp
  | some last => cases hlast : last.isEmpty <;> simp [hkept, hlast]

end Cutting

theorem notMem_utf8EncodeChar {b : UInt8} {c : Char} (hb : b.toNat < 128) (h : c.toNat ≠ b.toNat) :
    b ∉ String.utf8EncodeChar c :=
  fun hmem => h (toNat_eq_of_mem_utf8EncodeChar hmem hb)

theorem utf8EncodeChar_return : String.utf8EncodeChar '\r' = [13] := by decide

theorem utf8EncodeChar_lineFeed : String.utf8EncodeChar '\n' = [10] := by decide

/-- The bytes are cut at line feeds where the text is. -/
theorem splitOn_encode (s : String) :
    (encode s).splitOn 10 = (s.toList.splitOn '\n').map fun piece => encode (String.ofList piece) := by
  simp only [encode_eq_flatMap, String.toList_ofList]
  induction s.toList with
  | nil => simp
  | cons c cs ih =>
    rw [List.flatMap_cons, List.splitOn_cons_eq_if_modifyHead]
    by_cases hc : c = '\n'
    · subst hc
      rw [utf8EncodeChar_lineFeed, List.singleton_append, List.splitOn_cons_eq_if_modifyHead, ih]
      simp
    · have hcode : (10 : UInt8) ∉ String.utf8EncodeChar c :=
        notMem_utf8EncodeChar (by decide) fun he => hc (Char.toNat_inj.1 he)
      have hpiece : ¬ (c == '\n') := fun he => hc (eq_of_beq he)
      rw [splitOn_append_of_notMem hcode, ih, if_neg hpiece]
      cases cs.splitOn '\n' <;> simp

theorem encode_eq_nil_iff {s : String} : encode s = [] ↔ s = "" := by
  constructor
  · intro h
    have hdecode := decode_encode s
    rw [h] at hdecode
    exact (Option.some.inj (hdecode.symm.trans (decode_encode "")))
  · rintro rfl
    rfl

theorem rawLines_encode (s : String) :
    rawLines 10 (encode s) = (rawLines '\n' s.toList).map fun l => encode (String.ofList l) := by
  refine rawLines_eq_map (splitOn_encode s) fun l => ?_
  rw [encode_eq_nil_iff, ← String.toList_inj, String.toList_ofList]
  rfl

theorem exists_encode_of_encode_eq {s : String} {bytes : List UInt8} (h : encode s = bytes ++ [13]) :
    ∃ t, s = t ++ "\r" ∧ encode t = bytes := by
  rcases List.eq_nil_or_concat s.toList with hs | ⟨front, c, hs⟩
  · have hlength := congrArg List.length h
    simp [encode_eq_flatMap, hs] at hlength
  · rw [encode_eq_flatMap, hs, List.concat_eq_append, List.flatMap_append, List.flatMap_singleton] at h
    obtain ⟨init, b, hcode⟩ := (List.eq_nil_or_concat (String.utf8EncodeChar c)).resolve_left
      String.utf8EncodeChar_ne_nil
    rw [List.concat_eq_append] at hcode
    have hends : front.flatMap String.utf8EncodeChar ++ init ++ [b] = bytes ++ [13] := by
      rw [← h, hcode, List.append_assoc]
    obtain ⟨_, hb⟩ := List.append_inj' hends rfl
    obtain rfl := List.singleton_inj.1 hb
    have hmem : (13 : UInt8) ∈ String.utf8EncodeChar c := by simp [hcode]
    obtain rfl : c = '\r' := Char.toNat_inj.1 (toNat_eq_of_mem_utf8EncodeChar hmem (by decide))
    rw [utf8EncodeChar_return] at h
    refine ⟨String.ofList front, ?_, ?_⟩
    · rw [← String.toList_inj, hs, List.concat_eq_append, String.toList_append, String.toList_ofList]
      rfl
    · rw [encode_eq_flatMap, String.toList_ofList]
      exact List.append_cancel_right h

/-- Bytes with a carriage return behind them are a text exactly if they are one themselves. -/
theorem decode_append_return (bytes : List UInt8) :
    decode (bytes ++ [13]) = (decode bytes).map (· ++ "\r") := by
  ext s
  rw [decode_eq_some_iff, Option.map_eq_some_iff]
  constructor
  · intro h
    obtain ⟨t, rfl, ht⟩ := exists_encode_of_encode_eq h.symm
    exact ⟨t, decode_eq_some_iff.2 ht.symm, rfl⟩
  · rintro ⟨t, ht, rfl⟩
    rw [decode_eq_some_iff.1 ht, encode_append]
    rfl

end Text
end JvmSymbols
