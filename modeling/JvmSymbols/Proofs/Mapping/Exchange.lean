import JvmSymbols.Proofs.Text.Lines
import JvmSymbols.Proofs.Text.Replacing
import JvmSymbols.Proofs.Mapping.Reading

/-! Mapping texts with their two sides exchanged. On a line that has both sides the operands change places;
the blanks between them and all other lines stay as they are. -/
namespace JvmSymbols
namespace Record

theorem lineWords_encode (s : String) : lineWords (Text.encode s) = some (Text.words s.toList) := by
  rw [lineWords, Text.decode_encode, Option.map_some]

theorem lineWords_dropReturn (bytes : List UInt8) :
    lineWords (Text.dropReturn 13 bytes) = lineWords bytes := by
  by_cases hlast : bytes.getLast? = some 13
  · obtain ⟨front, rfl⟩ := List.getLast?_eq_some_iff.1 hlast
    have hwords (t : String) : Text.words (t ++ "\r").toList = Text.words t.toList := by
      rw [String.toList_append]
      exact Text.words_concat_blank (by decide) t.toList
    have hdrop : Text.dropReturn 13 (front ++ [13]) = front := by simp [Text.dropReturn]
    rw [hdrop, lineWords, lineWords, Text.decode_append_return, Option.map_map]
    exact congrArg (Option.map · (Text.decode front)) (funext fun t => (hwords t).symm)
  · rw [Text.dropReturn, if_neg hlast]

theorem map_lineWords_encode (s : String) :
    (Text.byteLines (Text.encode s)).map lineWords =
      (Text.rawLines '\n' s.toList).map fun line => some (Text.words line) := by
  rw [Text.byteLines, Text.map_lines lineWords_dropReturn, Text.rawLines_encode, List.map_map]
  refine List.map_congr_left fun line _ => ?_
  rw [Function.comp_apply, lineWords_encode, String.toList_ofList]

/-- The words of a record with its human and its mapped side exchanged. Descriptors go with their
operands. -/
def exchangeWords : List String → List String
  | ["CL:", human, mapped] => ["CL:", mapped, human]
  | ["FD:", human, mapped] => ["FD:", mapped, human]
  | ["MD:", human, humanDescriptor, mapped, mappedDescriptor] =>
    ["MD:", mapped, mappedDescriptor, human, humanDescriptor]
  | ws => ws

theorem exchangeWords_perm (ws : List String) : (exchangeWords ws).Perm ws := by
  unfold exchangeWords
  split
  · exact (List.Perm.swap _ _ _).cons _
  · exact (List.Perm.swap _ _ _).cons _
  · rename_i h hd m md
    have hsides : ([m, md] ++ [h, hd]).Perm ([h, hd] ++ [m, md]) := List.perm_append_comm
    exact hsides.cons "MD:"
  · exact .refl _

def exchangeLine (line : List Char) : List Char :=
  Text.replaceWords line (exchangeWords (Text.words line))

theorem words_exchangeLine (line : List Char) :
    Text.words (exchangeLine line) = exchangeWords (Text.words line) := by
  have hperm := exchangeWords_perm (Text.words line)
  refine Text.words_replaceWords (fun w hw => ?_) hperm.length_eq
  exact Text.isWord_of_mem_words (hperm.mem_iff.1 hw)

theorem exchangeLine_eq_self {line : List Char}
    (h : exchangeWords (Text.words line) = Text.words line) : exchangeLine line = line := by
  rw [exchangeLine, h, Text.replaceWords_words]

theorem exchangeLine_eq_nil_iff {line : List Char} : exchangeLine line = [] ↔ line = [] := by
  constructor
  · intro h
    have hwords : exchangeWords (Text.words line) = [] := by
      rw [← words_exchangeLine, h]
      rfl
    have hnone : Text.words line = [] := by
      have hperm := exchangeWords_perm (Text.words line)
      rw [hwords] at hperm
      exact hperm.symm.eq_nil
    have hself : exchangeLine line = line := exchangeLine_eq_self (by rw [hwords, hnone])
    rw [← hself, h]
  · rintro rfl
    rfl

theorem lineFeed_notMem_exchangeLine {line : List Char} (h : '\n' ∉ line) :
    '\n' ∉ exchangeLine line := by
  intro hmem
  rcases Text.mem_replaceWords hmem with hline | ⟨w, hw, hc⟩
  · exact h hline
  · have hword := Text.isWord_of_mem_words ((exchangeWords_perm _).mem_iff.1 hw)
    have hblank := hword.not_blank _ hc
    exact absurd hblank (by decide)

end Record

namespace Dictionary

def exchange (text : String) : String :=
  String.ofList (['\n'].intercalate ((text.toList.splitOn '\n').map Record.exchangeLine))

example : exchange "CL:\ta/B  x\r\nMD: a/B/f ()V x/g ()I \nFD: a/b\nPK: . y" =
    "CL:\tx  a/B\r\nMD: x/g ()I a/B/f ()V \nFD: a/b\nPK: . y" := by decide +kernel

theorem rawLines_exchange (text : String) :
    Text.rawLines '\n' (exchange text).toList =
      (Text.rawLines '\n' text.toList).map Record.exchangeLine := by
  refine Text.rawLines_eq_map ?_ fun line => Record.exchangeLine_eq_nil_iff
  rw [exchange, String.toList_ofList]
  refine List.splitOn_intercalate _ ?_ ?_
  · intro line hline
    obtain ⟨original, horiginal, rfl⟩ := List.mem_map.1 hline
    refine Record.lineFeed_notMem_exchangeLine fun hmem => ?_
    have hpiece := Text.eq_false_of_mem_splitOnP _ _ horiginal _ hmem
    simp at hpiece
  · simp [List.splitOn_ne_nil]

theorem map_lineWords_exchange (text : String) :
    (Text.byteLines (Text.encode (exchange text))).map Record.lineWords =
      ((Text.byteLines (Text.encode text)).map Record.lineWords).map
        (Option.map Record.exchangeWords) := by
  rw [Record.map_lineWords_encode, Record.map_lineWords_encode, rawLines_exchange, List.map_map,
    List.map_map]
  refine List.map_congr_left fun line _ => ?_
  simp only [Function.comp_apply, Record.words_exchangeLine, Option.map_some]

end Dictionary
end JvmSymbols
