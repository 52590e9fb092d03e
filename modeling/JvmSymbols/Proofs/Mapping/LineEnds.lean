import JvmSymbols.Proofs.Text.LineEnds
import JvmSymbols.Proofs.Mapping.Duality

/-! Mapping texts that differ in their blanks only. The reader sees of a line no more than its words, so texts
whose lines have the same words are read alike, whatever stands between the words and at the ends of the
lines. -/
namespace JvmSymbols
namespace Dictionary

section SameWords

variable {bytes bytes' : List UInt8}

theorem readLine_congr (strict : Bool) (n : Nat) (h : Record.lineWords bytes = Record.lineWords bytes') :
    readLine strict n bytes = readLine strict n bytes' := by
  rw [readLine_eq, readLine_eq, h]

theorem addLine_congr (strict : Bool) (d : Dictionary) (n : Nat)
    (h : Record.lineWords bytes = Record.lineWords bytes') :
    addLine strict d n bytes = addLine strict d n bytes' := by
  rw [addLine, addLine, readLine_congr strict n h]

theorem readLines_congr (strict : Bool) (d : Dictionary) (n : Nat) {lines lines' : List (List UInt8)}
    (h : lines.map Record.lineWords = lines'.map Record.lineWords) :
    readLines strict d n lines = readLines strict d n lines' := by
  induction lines generalizing d n lines' with
  | nil =>
    obtain rfl : lines' = [] := List.map_eq_nil_iff.1 h.symm
    rfl
  | cons bytes rest ih =>
    obtain ⟨bytes', rest', rfl, hline, hrest⟩ := List.map_eq_cons_iff.1 h.symm
    have hnext (d' : Dictionary) : readLines strict d' (n + 1) rest = readLines strict d' (n + 1) rest' :=
      ih d' (n + 1) hrest.symm
    rw [readLines, readLines, addLine_congr strict d n hline]
    simp only [hnext]

theorem parse_congr (strict : Bool)
    (h : (Text.byteLines bytes).map Record.lineWords = (Text.byteLines bytes').map Record.lineWords) :
    parse strict bytes = parse strict bytes' := by
  rw [parse, parse, read, read, readLines_congr strict empty 1 h]

end SameWords

/-- The words on the lines of a text, whether these are taken from the text or from its bytes. -/
theorem map_lineWords_eq_textLines (s : String) :
    (Text.byteLines (Text.encode s)).map Record.lineWords =
      (Text.textLines s).map fun line => some (Text.words line.toList) := by
  have hreturn (line : List Char) :
      some (Text.words (Text.dropReturn '\r' line)) = some (Text.words line) := by
    by_cases hlast : line.getLast? = some '\r'
    · obtain ⟨front, rfl⟩ := List.getLast?_eq_some_iff.1 hlast
      rw [Text.dropReturn_append, Text.words_concat_blank (by decide)]
    · rw [Text.dropReturn_of_ne hlast]
  rw [Record.map_lineWords_encode, ← Text.map_lines hreturn, Text.textLines, List.map_map]
  simp only [Function.comp_def, String.toList_ofList]

/-- A mapping file ends in the same dictionary or the same error if each line feed becomes a carriage return and
a line feed, and if its last line is given a line feed that it lacks. So do texts whose lines have the same
words. -/
theorem parse_ignores_line_ends (strict : Bool) :
    (∀ bytes, parse strict (Text.withReturns 10 13 bytes) = parse strict bytes) ∧
    (∀ bytes, bytes ≠ [] → bytes.getLast? ≠ some 10 → parse strict (bytes ++ [10]) = parse strict bytes) ∧
    ∀ s t : String,
      ((Text.textLines s).map fun line => Text.words line.toList) =
        ((Text.textLines t).map fun line => Text.words line.toList) →
      parse strict (Text.encode s) = parse strict (Text.encode t) := by
  have hreturn : (13 : UInt8) ≠ 10 := by decide
  refine ⟨fun bytes => parse_congr strict ?_, fun bytes hempty hlast => parse_congr strict ?_,
    fun s t h => parse_congr strict ?_⟩
  · exact Text.map_lines_withReturns Record.lineWords_dropReturn hreturn bytes
  · exact Text.map_lines_append_lineFeed Record.lineWords_dropReturn hreturn hempty hlast
  · have hsome := congrArg (List.map some) h
    rw [List.map_map, List.map_map] at hsome
    rw [map_lineWords_eq_textLines, map_lineWords_eq_textLines]
    exact hsome

/-- A byte that is no text stands in front of the missing line feed, and a line in the middle ends in two carriage
returns. In the two texts other blanks stand between the words. -/
theorem parse_ignores_line_ends_unended :
    let bytes : List UInt8 := Text.encode "CL: a/B x/Y\r\r\nFD: a/B/f x/Y/g\n" ++ [0xC3, 13]
    let s := "CL: a/B x/Y\r\nFD: a/B/f x/Y/g"
    let t := "\tCL:  a/B\u00a0x/Y \n\u2003FD: a/B/f\tx/Y/g\r"
    bytes ≠ [] ∧ bytes.getLast? ≠ some 10 ∧ parse true (bytes ++ [10]) = parse true bytes ∧
      ((Text.textLines s).map fun line => Text.words line.toList) =
        ((Text.textLines t).map fun line => Text.words line.toList) ∧
      parse true (Text.encode s) = parse true (Text.encode t) := by
  intro bytes s t
  obtain ⟨_, hended, hwords⟩ := parse_ignores_line_ends true
  have hempty : bytes ≠ [] := by decide +kernel
  have hlast : bytes.getLast? ≠ some 10 := by decide +kernel
  have hsame : ((Text.textLines s).map fun line => Text.words line.toList) =
      ((Text.textLines t).map fun line => Text.words line.toList) := by decide +kernel
  exact ⟨hempty, hlast, hended bytes hempty hlast, hsame, hwords s t hsame⟩

end Dictionary
end JvmSymbols
