import JvmSymbols.Text.Lines
import Mathlib.Tactic.SplitIfs

/-! Texts as bytes, and the lines of a text that is written line by line. No byte of a character
beyond ASCII is an ASCII byte, so the line feeds among the bytes are those of the text. The bytes of texts are in
the order of the texts. -/
namespace JvmSymbols
namespace Text

theorem encode_eq_flatMap (s : String) : encode s = s.toList.flatMap String.utf8EncodeChar := by
  rw [encode, ← String.utf8Encode_toList, List.utf8Encode]
  simp

@[simp] theorem encode_append (s t : String) : encode (s ++ t) = encode s ++ encode t := by
  simp [encode]

theorem encode_join (ss : List String) : encode (String.join ss) = ss.flatMap encode := by
  induction ss with
  | nil => rfl
  | cons s ss ih => simp [String.join_cons, ih]

theorem decode_eq_some_iff {bytes : List UInt8} {s : String} :
    decode bytes = some s ↔ bytes = encode s := by
  constructor
  · intro h
    simp only [decode, String.fromUTF8?] at h
    split at h
    · cases h
      rfl
    · cases h
  · rintro rfl
    have valid : ByteArray.IsValidUTF8 ⟨(encode s).toArray⟩ := s.isValidUTF8
    simp only [decode, String.fromUTF8?, dif_pos valid]
    rfl

@[simp] theorem decode_encode (s : String) : decode (encode s) = some s :=
  decode_eq_some_iff.2 rfl

theorem toNat_eq_of_mem_utf8EncodeChar {b : UInt8} {c : Char} (h : b ∈ String.utf8EncodeChar c)
    (hb : b.toNat < 128) : c.toNat = b.toNat := by
  have hc : c.val.toNat = c.toNat := rfl
  simp only [String.utf8EncodeChar, hc] at h
  split_ifs at h <;> simp only [List.mem_cons, List.not_mem_nil, or_false] at h
  · subst h
    simp only [UInt8.toNat_ofNat']
    omega
  · rcases h with rfl | rfl <;> simp only [UInt8.toNat_ofNat'] at hb <;> omega
  · rcases h with rfl | rfl | rfl <;> simp only [UInt8.toNat_ofNat'] at hb <;> omega
  · rcases h with rfl | rfl | rfl | rfl <;> simp only [UInt8.toNat_ofNat'] at hb <;> omega

theorem mem_of_mem_encode {b : UInt8} {s : String} (hb : b.toNat < 128) (h : b ∈ encode s) :
    Char.ofNat b.toNat ∈ s.toList := by
  rw [encode_eq_flatMap] at h
  obtain ⟨c, hc, hbc⟩ := List.mem_flatMap.1 h
  rw [← toNat_eq_of_mem_utf8EncodeChar hbc hb, Char.ofNat_toNat]
  exact hc

/-- The code of a smaller character is smaller at the first byte where the codes differ, whatever follows. -/
theorem utf8EncodeChar_append_lt {c d : Char} (h : c < d) (xs ys : List UInt8) :
    String.utf8EncodeChar c ++ xs < String.utf8EncodeChar d ++ ys := by
  have hlt : c.val.toNat < d.val.toNat := h
  have hbound : d.val.toNat < 0x110000 := by
    rcases d.valid with hd | hd <;> omega
  -- A longer code has a larger first byte. Between codes of one length the digits to the base 64 decide.
  simp only [String.utf8EncodeChar]
  split_ifs <;>
    simp (disch := omega) only [List.cons_append, List.nil_append, List.cons_lt_cons_iff,
      UInt8.lt_iff_toNat_lt, ← UInt8.toNat_inj, UInt8.toNat_ofNat', Nat.mod_eq_of_lt] <;>
    omega

theorem encode_lt_encode {s t : String} (h : s < t) : encode s < encode t := by
  rw [String.lt_iff] at h
  rw [encode_eq_flatMap, encode_eq_flatMap]
  generalize s.toList = cs at h
  generalize t.toList = ds at h
  induction h with
  | @nil d ds =>
    obtain ⟨b, bs, hcode⟩ := List.exists_cons_of_ne_nil (String.utf8EncodeChar_ne_nil (c := d))
    rw [List.flatMap_nil, List.flatMap_cons, hcode]
    exact List.nil_lt_cons b _
  | rel hcd =>
    rw [List.flatMap_cons, List.flatMap_cons]
    exact utf8EncodeChar_append_lt hcd _ _
  | cons _ ih =>
    rw [List.flatMap_cons, List.flatMap_cons]
    exact List.append_left_lt ih

theorem splitOn_flatMap_snoc {α : Type} [DecidableEq α] {sep : α} {ls : List (List α)}
    (h : ∀ l ∈ ls, sep ∉ l) : (ls.flatMap (· ++ [sep])).splitOn sep = ls ++ [[]] := by
  induction ls with
  | nil => simp
  | cons l ls ih =>
    have hl := h l (by simp)
    have hls := ih (fun l' hl' => h l' (by simp [hl']))
    rw [List.flatMap_cons, List.append_assoc, List.singleton_append,
      List.splitOn_append_cons_self_of_not_mem hl, hls, List.cons_append]

theorem dropReturn_of_notMem {α : Type} [DecidableEq α] {cr : α} {l : List α} (h : cr ∉ l) :
    dropReturn cr l = l :=
  if_neg fun hl => h (List.mem_of_getLast? hl)

/-- What is written with a line feed behind each line is read as these lines. -/
theorem lines_flatMap_snoc {α : Type} [DecidableEq α] {lf cr : α} {ls : List (List α)}
    (hlf : ∀ l ∈ ls, lf ∉ l) (hcr : ∀ l ∈ ls, cr ∉ l) :
    lines lf cr (ls.flatMap (· ++ [lf])) = ls := by
  have hmap : ls.map (dropReturn cr) = ls.map id :=
    List.map_congr_left fun l hl => dropReturn_of_notMem (hcr l hl)
  simp only [lines, splitOn_flatMap_snoc hlf, List.dropLast_concat, List.getLast?_concat]
  rw [hmap, List.map_id]

/-- The lines of a text whose lines have no line feed and no carriage return of their own. -/
theorem byteLines_encode_join (ls : List String) (hlf : ∀ l ∈ ls, '\n' ∉ l.toList)
    (hcr : ∀ l ∈ ls, '\r' ∉ l.toList) :
    byteLines (encode (String.join (ls.map (· ++ "\n")))) = ls.map encode := by
  have hbytes : encode (String.join (ls.map (· ++ "\n"))) = (ls.map encode).flatMap (· ++ [10]) := by
    rw [encode_join, List.flatMap_map, List.flatMap_map]
    simp only [encode_append]
    rfl
  rw [hbytes]
  refine lines_flatMap_snoc ?_ ?_
  · intro l hl hmem
    obtain ⟨s, hs, rfl⟩ := List.mem_map.1 hl
    exact hlf s hs (mem_of_mem_encode (by decide) hmem)
  · intro l hl hmem
    obtain ⟨s, hs, rfl⟩ := List.mem_map.1 hl
    exact hcr s hs (mem_of_mem_encode (by decide) hmem)

theorem textLines_join (ls : List String) (hlf : ∀ l ∈ ls, '\n' ∉ l.toList)
    (hcr : ∀ l ∈ ls, '\r' ∉ l.toList) : textLines (String.join (ls.map (· ++ "\n"))) = ls := by
  have hchars : (String.join (ls.map (· ++ "\n"))).toList =
      (ls.map String.toList).flatMap (· ++ ['\n']) := by
    rw [String.toList_join, List.flatMap_map, List.flatMap_map]
    simp only [String.toList_append]
    rfl
  rw [textLines, hchars, lines_flatMap_snoc, List.map_map]
  · calc ls.map (String.ofList ∘ String.toList)
        = ls.map id := List.map_congr_left fun l _ => String.ofList_toList
      _ = ls := List.map_id ls
  · simpa using hlf
  · simpa using hcr

end Text
end JvmSymbols
