import JvmSymbols.Proofs.Member
import JvmSymbols.Proofs.Mapping.RoundTrip
import JvmSymbols.Proofs.Mapping.Acceptance

/-! What is written of a file that was read. Each of its records is written on a line of its own, once, with
classes and owners in their internal spelling; records of a kind stand together and in the order of their human
names. -/
namespace JvmSymbols

namespace Member

/-- The texts that a member is ordered by, one after the other. A field has no descriptor and comes before the
methods of its name. -/
def orderKey (m : Member) : List String := m.owner :: m.name :: m.descriptor.toList

/-- The operand with slashes for the dots of its owner. The name behind the last slash is left as it is. -/
def normalOperand (operand : String) : String :=
  match Text.splitLast '/' operand.toList with
  | some (owner, name) => ClassName.toInternal (String.ofList owner) ++ "/" ++ String.ofList name
  | none => operand

theorem Spelled.operand_eq {operand : String} {descriptor : Option String} {m : Member}
    (h : Spelled operand descriptor m) : m.operand = normalOperand operand := by
  obtain ⟨owner, name, hcut, rfl⟩ := h
  have hsplit := (cut_iff_splitLast.1 hcut).1
  rw [Member.operand, normalOperand, hsplit, ClassName.toInternal_toBinary]
  simp

end Member

namespace Text

theorem encode_lt_of_compare {s t : String} (h : compare s t = .lt) : encode s < encode t :=
  encode_lt_encode (compareOfLessAndEq_eq_lt.1 h)

end Text

/-- Members are ordered by the bytes of owner, name and descriptor. -/
theorem Member.orderKey_lt {m n : Member} (h : Ord.compare m n = .lt) :
    m.orderKey.map Text.encode < n.orderKey.map Text.encode := by
  have hparts : (Ord.compare m.owner n.owner).then
      ((Ord.compare m.name n.name).then (Ord.compare m.descriptor n.descriptor)) = .lt := h
  simp only [Ordering.then_eq_lt, Std.LawfulEqOrd.compare_eq_iff_eq] at hparts
  simp only [orderKey, List.map_cons, List.cons_lt_cons_iff]
  rcases hparts with howner | ⟨howner, hname | ⟨hname, hdescriptor⟩⟩
  · exact .inl (Text.encode_lt_of_compare howner)
  · exact .inr ⟨by rw [howner], .inl (Text.encode_lt_of_compare hname)⟩
  · refine .inr ⟨by rw [howner], .inr ⟨by rw [hname], ?_⟩⟩
    cases hm : m.descriptor with
    | none =>
      cases hn : n.descriptor with
      | none => simp [hm, hn] at hdescriptor
      | some d => exact List.nil_lt_cons _ _
    | some c =>
      cases hn : n.descriptor with
      | none => simp [hm, hn] at hdescriptor
      | some d =>
        rw [hm, hn] at hdescriptor
        exact List.cons_lt_cons_iff.2 (.inl (Text.encode_lt_of_compare hdescriptor))

namespace Record

/-- The words of a record as they are written: classes and owners have slashes for dots, all else is left as it
is. -/
def normalWords : List String → List String
  | ["CL:", human, mapped] => ["CL:", ClassName.toInternal human, ClassName.toInternal mapped]
  | ["FD:", human, mapped] => ["FD:", Member.normalOperand human, Member.normalOperand mapped]
  | ["MD:", human, humanDescriptor, mapped, mappedDescriptor] =>
    ["MD:", Member.normalOperand human, humanDescriptor, Member.normalOperand mapped, mappedDescriptor]
  | words => words

def normalLine? (bytes : List UInt8) : Option String :=
  match lineWords bytes with
  | some (tag :: operands) =>
    if tag ∈ tags then some (" ".intercalate (normalWords (tag :: operands))) else none
  | _ => none

theorem normalLine?_eq {strict : Bool} {bytes : List UInt8} {r : Record} (h : SpelledOn strict bytes r) :
    normalLine? bytes = if r.isOther then none else some r.line := by
  obtain ⟨words, hwords, hspelled⟩ := h
  cases hspelled with
  | ofClass human mapped =>
    simp [normalLine?, hwords, tags, normalWords, isOther, line, toWords, ClassName.toInternal_toBinary]
  | ofField hh hm =>
    simp [normalLine?, hwords, tags, normalWords, isOther, line, toWords, hh.operand_eq, hm.operand_eq]
  | ofMethod valid hh hm =>
    simp [normalLine?, hwords, tags, normalWords, isOther, line, toWords, hh.operand_eq, hm.operand_eq,
      hh.descriptor_eq, hm.descriptor_eq]
  | other operands htag => simp [normalLine?, hwords, htag, isOther]

theorem filterMap_normalLine? {strict : Bool} {lines : List (List UInt8)} {rs : List Record}
    (h : List.Forall₂ (SpelledOn strict) lines rs) :
    lines.filterMap normalLine? = (rs.filter fun r => !r.isOther).map line := by
  induction h with
  | nil => rfl
  | @cons l r ls rs hline _ ih =>
    have hnormal := normalLine?_eq hline
    cases hother : r.isOther with
    | true => simp [hnormal, hother, ih]
    | false => simp [hnormal, hother, ih]

theorem perm_kinds (rs : List Record) :
    ((rs.filterMap classPair?).map (fun p => ofClass p.1 p.2) ++
      (rs.filterMap fieldPair?).map (fun p => ofField p.1 p.2) ++
      (rs.filterMap methodPair?).map fun p => ofMethod p.1 p.2).Perm (rs.filter fun r => !r.isOther) := by
  induction rs with
  | nil => exact .nil
  | cons r rs ih =>
    cases r with
    | ofClass human mapped => exact ih.cons _
    | ofField human mapped =>
      rw [List.append_assoc] at ih ⊢
      exact List.perm_middle.trans (ih.cons _)
    | ofMethod human mapped => exact List.perm_middle.trans (ih.cons _)
    | other tag => exact ih

end Record

namespace Dictionary

open Record

/-- The lines are records of one kind. From line to line, what the human sides are ordered by increases,
text by text and byte by byte. -/
def Increasing {α : Type} (Line : List UInt8 → α → α → Prop) (key : α → List String)
    (lines : List String) : Prop :=
  ∃ pairs : List (α × α), List.Forall₂ (fun l p => Line (Text.encode l) p.1 p.2) lines pairs ∧
    pairs.Pairwise fun p q => (key p.1).map Text.encode < (key q.1).map Text.encode

theorem increasing_sorted {α : Type} [Ord α] [Std.TransOrd α] [Std.LawfulEqOrd α]
    {Line : List UInt8 → α → α → Prop} {key : α → List String} {record : α → α → Record}
    {t : OneToOne α α}
    (hkey : ∀ a b, compare a b = .lt → (key a).map Text.encode < (key b).map Text.encode)
    (hline : ∀ p ∈ t.sorted, Line (Text.encode (record p.1 p.2).line) p.1 p.2) :
    Increasing Line key (t.sorted.map fun p => (record p.1 p.2).line) := by
  refine ⟨t.sorted, ?_, t.pairwise_sorted_lt.imp fun hlt => hkey _ _ hlt⟩
  rw [List.forall₂_map_left_iff, List.forall₂_same]
  exact hline

theorem textLines_toText {strict : Bool} {d : Dictionary} (h : ∀ r ∈ d.records, Writable strict r) :
    Text.textLines d.toText = d.records.map line := by
  have hfeed := notMem_of_mem_lines h (c := '\n') (by decide) (by decide)
  have hreturn := notMem_of_mem_lines h (c := '\r') (by decide) (by decide)
  have hlines := Text.textLines_join (d.records.map line) hfeed hreturn
  simpa [toText, Function.comp_def] using hlines

/-- A dictionary has the records that filled it, save those that no table is for. -/
theorem Grown.perm_records {rs : List Record} {d : Dictionary} (h : Grown empty rs d) :
    d.records.Perm (rs.filter fun r => !r.isOther) := by
  have pairs {α β : Type} [Ord α] {t : OneToOne α β} {ps : List (α × β)} (ht : t.pairs = ps.reverse) :
      t.sorted.Perm ps :=
    t.perm_sorted.trans (ht ▸ List.reverse_perm ps)
  obtain ⟨hclasses, hfields, hmethods⟩ := Grown.empty_iff.1 h
  refine List.Perm.trans ?_ (perm_kinds rs)
  exact (((pairs hclasses).map _).append ((pairs hfields).map _)).append ((pairs hmethods).map _)

section Kinds

variable {strict : Bool} {d : Dictionary}

theorem increasing_classes (h : ∀ r ∈ d.records, Writable strict r) :
    Increasing ClassLine (fun name => [name]) (d.classes.sorted.map fun p => (ofClass p.1 p.2).line) := by
  apply increasing_sorted
  · intro a b hlt
    exact List.cons_lt_cons_iff.2 (.inl (Text.encode_lt_of_compare hlt))
  · intro p hp
    have hrecord : ofClass p.1 p.2 ∈ d.records := by simp [records, hp]
    exact (h _ hrecord).spelledOn.classLine_iff.2 rfl

theorem increasing_fields (h : ∀ r ∈ d.records, Writable strict r) :
    Increasing FieldLine Member.orderKey (d.fields.sorted.map fun p => (ofField p.1 p.2).line) := by
  apply increasing_sorted
  · exact fun _ _ hlt => Member.orderKey_lt hlt
  · intro p hp
    have hrecord : ofField p.1 p.2 ∈ d.records := by simp [records, hp]
    exact (h _ hrecord).spelledOn.fieldLine_iff.2 rfl

theorem increasing_methods (h : ∀ r ∈ d.records, Writable strict r) :
    Increasing MethodLine Member.orderKey (d.methods.sorted.map fun p => (ofMethod p.1 p.2).line) := by
  apply increasing_sorted
  · exact fun _ _ hlt => Member.orderKey_lt hlt
  · intro p hp
    have hrecord : ofMethod p.1 p.2 ∈ d.records := by simp [records, hp]
    exact (h _ hrecord).spelledOn.methodLine_iff.2 rfl

end Kinds

/-- A dictionary that was read is written class by class, field by field and method by method, each kind in
the order of the human names. What is written are the records of the file, each once and in its written
form. -/
theorem toText_lines (strict : Bool) (bytes : List UInt8) (d : Dictionary) (h : parse strict bytes = .ok d) :
    (∃ classes fields methods, Text.textLines d.toText = classes ++ fields ++ methods ∧
      Increasing ClassLine (fun name => [name]) classes ∧
      Increasing FieldLine Member.orderKey fields ∧
      Increasing MethodLine Member.orderKey methods) ∧
    (Text.textLines d.toText).Perm ((Text.byteLines bytes).filterMap normalLine?) := by
  have hwritable := writable_of_mem_records h
  rw [textLines_toText hwritable]
  constructor
  · refine ⟨_, _, _, ?_, increasing_classes hwritable, increasing_fields hwritable,
      increasing_methods hwritable⟩
    simp only [records, List.map_append, List.map_map, Function.comp_def]
  · obtain ⟨rs, hlines, hgrown⟩ := parse_eq_ok_iff.1 h
    rw [filterMap_normalLine? hlines]
    exact hgrown.perm_records.map line

/-- Records of all kinds, out of order. The inner class's field comes first in the text but last by its owner. -/
def mixedText : String :=
  "FD:\ta$b/c x/1\r\nMD: p.B/r.n ()V x.Y/f ()V\nPK: . y\nCL: p.B  x/Y\nFD: a/z x/2"

theorem toText_lines_mixed :
    ∃ d, parse true (Text.encode mixedText) = .ok d ∧
      (Text.textLines d.toText).Perm
        ["FD: a$b/c x/1", "MD: p/B/r.n ()V x/Y/f ()V", "CL: p/B x/Y", "FD: a/z x/2"] := by
  have hread : (parse true (Text.encode mixedText)).map (fun _ => ()) = .ok () := by decide +kernel
  obtain ⟨d, hd, _⟩ := Except.map_eq_ok_iff.1 hread
  obtain ⟨_, hperm⟩ := toText_lines true _ d hd
  have hlines : (Text.byteLines (Text.encode mixedText)).filterMap normalLine? =
      ["FD: a$b/c x/1", "MD: p/B/r.n ()V x/Y/f ()V", "CL: p/B x/Y", "FD: a/z x/2"] := by decide +kernel
  exact ⟨d, hd, hlines ▸ hperm⟩

end Dictionary
end JvmSymbols
