import JvmSymbols.Proofs.Text.FirstLines
import JvmSymbols.Proofs.Mapping.Acceptance
import JvmSymbols.Proofs.Mapping.Duality

/-! The first line at fault. What is wrong with a mapping file is decided by the first line that cannot be
taken, and by what the lines before it have put into the tables; the lines after it have no say. -/
namespace JvmSymbols

namespace OneToOne

variable {α β : Type} [DecidableEq α] [DecidableEq β] {t : OneToOne α β} {a : α} {b : β}

theorem insert_eq_error_iff {clash : Clash} :
    t.insert a b = .error clash ↔
      (clash = .key ∧ ∃ y, t.get? a = some y) ∨
      (clash = .value ∧ (¬ ∃ y, t.get? a = some y) ∧ ∃ x, t.keyOf? b = some x) := by
  have hkey : a ∈ t.pairs.map Prod.fst ↔ ∃ y, t.get? a = some y := by
    simp [get?_eq_some_iff]
  have hvalue : b ∈ t.pairs.map Prod.snd ↔ ∃ x, t.keyOf? b = some x := by
    simp [keyOf?_eq_some_iff]
  rw [insert, ← hkey, ← hvalue]
  split_ifs with ha hb
  · simp [ha, eq_comm]
  · simp [ha, hb, eq_comm]
  · simp [ha, hb]

end OneToOne

def Record.table? : Record → Option Table
  | .ofClass _ _ => some .classes
  | .ofField _ _ => some .fields
  | .ofMethod _ _ => some .methods
  | .other _ => none

def MappingError.line? : MappingError → Option Nat
  | .unopenable _ _ => none
  | .unreadable line _ | .malformed line _ | .duplicate line _ _ _ => some line

namespace Dictionary

/-- The human side of the record is the human side of a pair in its table. -/
def HasHuman (d : Dictionary) : Record → Prop
  | .ofClass human _ => ∃ mapped, d.mappedClass? human = some mapped
  | .ofField human _ => ∃ mapped, d.mappedField? human = some mapped
  | .ofMethod human _ => ∃ mapped, d.mappedMethod? human = some mapped
  | .other _ => False

def HasMapped (d : Dictionary) : Record → Prop
  | .ofClass _ mapped => ∃ human, d.humanClass? mapped = some human
  | .ofField _ mapped => ∃ human, d.humanField? mapped = some human
  | .ofMethod _ mapped => ∃ human, d.humanMethod? mapped = some human
  | .other _ => False

variable {strict : Bool} {d : Dictionary} {n : Nat} {line : List UInt8} {record : Record}
  {table : Table} {clash : Clash} {e : MappingError}

/-- A record is refused for its human name if that is in its table, and for its mapped name if only that
is. -/
theorem add_eq_error_iff :
    d.add record = .error (table, clash) ↔ record.table? = some table ∧
      ((clash = .key ∧ d.HasHuman record) ∨
        (clash = .value ∧ ¬ d.HasHuman record ∧ d.HasMapped record)) := by
  cases record with
  | ofClass human mapped =>
    rw [add_ofClass, Except.mapError_mk_eq_error_iff, Except.map_eq_error_iff,
      OneToOne.insert_eq_error_iff, Record.table?, Option.some.injEq]
    rfl
  | ofField human mapped =>
    rw [add_ofField, Except.mapError_mk_eq_error_iff, Except.map_eq_error_iff,
      OneToOne.insert_eq_error_iff, Record.table?, Option.some.injEq]
    rfl
  | ofMethod human mapped =>
    rw [add_ofMethod, Except.mapError_mk_eq_error_iff, Except.map_eq_error_iff,
      OneToOne.insert_eq_error_iff, Record.table?, Option.some.injEq]
    rfl
  | other tag => simp [add, Record.table?]

/-- What is wrong with a line that comes after lines which have filled `d`. -/
inductive Fault (strict : Bool) (d : Dictionary) (n : Nat) (line : List UInt8) : MappingError → Prop
  | unreadable (htext : Text.decode line = none) : Fault strict d n line (.unreadable n .notUtf8)
  | malformed {text : String} {flaw : Flaw} (htext : Text.decode line = some text)
    (hflaw : Record.ofWords strict (Text.words text.toList) = .error flaw) :
    Fault strict d n line (.malformed n flaw)
  | repeatedName {record : Record} {table : Table} (hspelled : Record.SpelledOn strict line record)
    (htable : record.table? = some table) (hhuman : d.HasHuman record) :
    Fault strict d n line (.duplicate n table .key record)
  | repeatedMappedName {record : Record} {table : Table} (hspelled : Record.SpelledOn strict line record)
    (htable : record.table? = some table) (hhuman : ¬ d.HasHuman record) (hmapped : d.HasMapped record) :
    Fault strict d n line (.duplicate n table .value record)

theorem addLine_eq_error_iff : addLine strict d n line = .error e ↔ Fault strict d n line e := by
  constructor
  · intro h
    rw [addLine] at h
    split at h
    · rename_i hread
      cases h
      rw [readLine] at hread
      split at hread
      · rename_i htext
        cases hread
        exact .unreadable htext
      · rename_i text htext
        split at hread
        · rename_i flaw hflaw
          cases hread
          exact .malformed htext hflaw
        · cases hread
    · rename_i record hread
      have hspelled := readLine_eq_ok_iff.1 hread
      split at h
      · rename_i table clash hadd
        cases h
        obtain ⟨htable, ⟨rfl, hhuman⟩ | ⟨rfl, hhuman, hmapped⟩⟩ := add_eq_error_iff.1 hadd
        · exact .repeatedName hspelled htable hhuman
        · exact .repeatedMappedName hspelled htable hhuman hmapped
      · cases h
  · intro h
    cases h with
    | unreadable htext => simp [addLine, readLine, htext]
    | malformed htext hflaw => simp [addLine, readLine, htext, hflaw]
    | repeatedName hspelled htable hhuman =>
      have hadd := add_eq_error_iff.2 ⟨htable, .inl ⟨rfl, hhuman⟩⟩
      simp [addLine, readLine_eq_ok_iff.2 hspelled, hadd]
    | repeatedMappedName hspelled htable hhuman hmapped =>
      have hadd := add_eq_error_iff.2 ⟨htable, .inr ⟨rfl, hhuman, hmapped⟩⟩
      simp [addLine, readLine_eq_ok_iff.2 hspelled, hadd]

/-- A run fails exactly if the lines before one of its lines are taken and that line is refused. -/
theorem readLines_eq_error_iff {lines : List (List UInt8)} :
    (readLines strict d n lines).outcome = .error e ↔ ∃ front line back d', lines = front ++ line :: back ∧
      (readLines strict d n front).outcome = .ok d' ∧ Fault strict d' (n + front.length) line e := by
  induction lines generalizing d n with
  | nil => simp [readLines]
  | cons first rest ih =>
    rw [outcome_readLines_cons]
    constructor
    · intro h
      split at h
      · rename_i hfirst
        cases h
        exact ⟨[], first, rest, d, rfl, rfl, addLine_eq_error_iff.1 hfirst⟩
      · rename_i d₁ r hfirst
        obtain ⟨front, line, back, d', rfl, hfront, hfault⟩ := ih.1 h
        refine ⟨first :: front, line, back, d', rfl, ?_, ?_⟩
        · rw [outcome_readLines_cons, hfirst]
          exact hfront
        · rw [List.length_cons, Nat.add_comm front.length, ← Nat.add_assoc]
          exact hfault
    · rintro ⟨front, line, back, d', hlines, hfront, hfault⟩
      cases front with
      | nil =>
        cases hlines
        cases hfront
        rw [List.length_nil, Nat.add_zero] at hfault
        rw [addLine_eq_error_iff.2 hfault]
      | cons first' front =>
        cases hlines
        rw [outcome_readLines_cons] at hfront
        cases hfirst : addLine strict d n first with
        | error e' => simp [hfirst] at hfront
        | ok next =>
          rw [hfirst] at hfront
          rw [List.length_cons, Nat.add_comm front.length, ← Nat.add_assoc] at hfault
          exact ih.2 ⟨front, line, back, d', rfl, hfront, hfault⟩

/-- The line alone is a record of the table, and one of its sides is there already. -/
structure Repeats (strict : Bool) (d : Dictionary) (line : List UInt8) (table : Table) (record : Record) :
    Prop where
  spelled : Record.SpelledOn strict line record
  table_eq : record.table? = some table
  repeated : d.HasHuman record ∨ d.HasMapped record

theorem decode_ne_none_of_spelledOn (h : Record.SpelledOn strict line record) :
    Text.decode line ≠ none := by
  intro htext
  obtain ⟨words, hwords, _⟩ := h
  simp [Record.lineWords, htext] at hwords

theorem not_spelledOn_of_flaw {text : String} {flaw : Flaw} (htext : Text.decode line = some text)
    (hflaw : Record.ofWords strict (Text.words text.toList) = .error flaw) :
    ¬ Record.SpelledOn strict line record := by
  rintro ⟨words, hwords, hspelled⟩
  rw [Record.lineWords, htext, Option.map_some, Option.some.injEq] at hwords
  subst hwords
  cases hflaw.symm.trans (Record.ofWords_eq_ok_iff.2 hspelled)

namespace Fault

theorem line?_eq (h : Fault strict d n line e) : e.line? = some n := by
  cases h <;> rfl

theorem unreadable_iff (h : Fault strict d n line e) :
    (∃ cause, e = .unreadable n cause) ↔ Text.decode line = none := by
  cases h with
  | unreadable htext => simp [htext]
  | malformed htext => simp [htext]
  | repeatedName hspelled | repeatedMappedName hspelled => simp [decode_ne_none_of_spelledOn hspelled]

theorem repeats (h : Fault strict d n line (.duplicate n table clash record)) :
    Repeats strict d line table record ∧ (clash = .key ↔ d.HasHuman record) := by
  cases h with
  | repeatedName hspelled htable hhuman =>
    exact ⟨⟨hspelled, htable, .inl hhuman⟩, fun _ => hhuman, fun _ => rfl⟩
  | repeatedMappedName hspelled htable hhuman hmapped =>
    exact ⟨⟨hspelled, htable, .inr hmapped⟩, nofun, fun h => absurd h hhuman⟩

theorem duplicate_iff (h : Fault strict d n line e) :
    (∃ clash record, e = .duplicate n table clash record) ↔ ∃ record, Repeats strict d line table record := by
  constructor
  · rintro ⟨clash, record, rfl⟩
    exact ⟨record, h.repeats.1⟩
  · rintro ⟨record, hspelled, htable, _⟩
    cases h with
    | unreadable htext => exact absurd htext (decode_ne_none_of_spelledOn hspelled)
    | malformed htext hflaw => exact absurd hspelled (not_spelledOn_of_flaw htext hflaw)
    | repeatedName hspelled' htable' | repeatedMappedName hspelled' htable' =>
      obtain rfl := hspelled.unique hspelled'
      cases htable.symm.trans htable'
      exact ⟨_, _, rfl⟩

theorem malformed_iff (h : Fault strict d n line e) :
    (∃ flaw, e = .malformed n flaw) ↔
      Text.decode line ≠ none ∧ ¬ ∃ table record, Repeats strict d line table record := by
  cases h with
  | unreadable htext => simp [htext]
  | malformed htext hflaw =>
    refine ⟨fun _ => ⟨by simp [htext], ?_⟩, fun _ => ⟨_, rfl⟩⟩
    rintro ⟨table, record, hrepeats⟩
    exact not_spelledOn_of_flaw htext hflaw hrepeats.spelled
  | repeatedName hspelled htable hhuman =>
    have hrepeats := Repeats.mk hspelled htable (.inl hhuman)
    exact ⟨nofun, fun ⟨_, hnone⟩ => absurd ⟨_, _, hrepeats⟩ hnone⟩
  | repeatedMappedName hspelled htable _ hmapped =>
    have hrepeats := Repeats.mk hspelled htable (.inr hmapped)
    exact ⟨nofun, fun ⟨_, hnone⟩ => absurd ⟨_, _, hrepeats⟩ hnone⟩

end Fault

/-- What a refused file is refused for: the first line at fault, numbered `k + 1`, after `k` lines that are
read into a dictionary. Every file that begins with the same lines is refused with the same error. -/
theorem parse_error_of_first_fault (strict : Bool) (bytes : List UInt8) (e : MappingError)
    (h : parse strict bytes = .error e) :
    ∃ k line d front, e.line? = some (k + 1) ∧ (Text.byteLines bytes)[k]? = some line ∧
      front <+: bytes ∧ Text.byteLines front = (Text.byteLines bytes).take k ∧
      parse strict front = .ok d ∧
      (∀ bytes', (Text.byteLines bytes').take (k + 1) = (Text.byteLines bytes).take (k + 1) →
        parse strict bytes' = .error e) ∧
      ((∃ cause, e = .unreadable (k + 1) cause) ↔ Text.decode line = none) ∧
      (∀ table, (∃ clash record, e = .duplicate (k + 1) table clash record) ↔
        ∃ record, Repeats strict d line table record) ∧
      (∀ table clash record, e = .duplicate (k + 1) table clash record →
        Repeats strict d line table record ∧ (clash = .key ↔ d.HasHuman record) ∧
        e.message = "line " ++ (k + 1).repr ++ ": duplicate " ++ table.noun ++ " mapping " ++
          record.display ++ " (repeated " ++ (if clash = .key then "name" else "mapped name") ++ ")") ∧
      ((∃ flaw, e = .malformed (k + 1) flaw) ↔
        Text.decode line ≠ none ∧ ¬ ∃ table record, Repeats strict d line table record) := by
  -- Only the lines up to the one at fault enter the description of the fault.
  obtain ⟨front, line, back, d, hlines, hfront, hfault⟩ := readLines_eq_error_iff.1 h
  rw [Nat.add_comm] at hfault
  have htake : (Text.byteLines bytes).take (front.length + 1) = front ++ [line] := by
    rw [hlines, List.take_append, List.take_of_length_le (by omega)]
    simp
  have hfirst : Text.byteLines (Text.firstLines 10 front.length bytes) =
      (Text.byteLines bytes).take front.length := Text.lines_firstLines 10 13 _ _
  refine ⟨front.length, line, d, _, hfault.line?_eq, by simp [hlines], Text.firstLines_prefix 10 _ _,
    hfirst, ?_, ?_, hfault.unreadable_iff, fun _ => hfault.duplicate_iff, ?_, hfault.malformed_iff⟩
  · rw [parse, read, hfirst, hlines, List.take_left]
    exact hfront
  · intro bytes' hsame
    have hlines' : Text.byteLines bytes' =
        front ++ line :: (Text.byteLines bytes').drop (front.length + 1) := by
      rw [← List.singleton_append, ← List.append_assoc, ← htake, ← hsame, List.take_append_drop]
    refine readLines_eq_error_iff.2 ⟨front, line, _, d, hlines', hfront, ?_⟩
    rw [Nat.add_comm]
    exact hfault
  · rintro table clash record rfl
    exact ⟨hfault.repeats.1, hfault.repeats.2, by cases clash <;> rfl⟩

/-- A text whose third line repeats a mapped name, and whose last line is no better. -/
def repeatingText : String := "CL: a/B x/Y\nPK: .\nCL: a/C x/Y\nFD: f\n"

/-- The third line of the text is at fault, whatever comes after it. -/
theorem parse_error_of_first_fault_repeating :
    let e : MappingError := .duplicate 3 .classes .value (.ofClass "a.C" "x.Y")
    parse false (Text.encode repeatingText) = .error e ∧
      ∀ bytes, (Text.byteLines bytes).take 3 = (Text.byteLines (Text.encode repeatingText)).take 3 →
        parse false bytes = .error e := by
  intro e
  have hfault : (parse false (Text.encode repeatingText)).map (fun _ => ()) = .error e := by
    decide +kernel
  have herror : parse false (Text.encode repeatingText) = .error e := Except.map_eq_error_iff.1 hfault
  obtain ⟨k, line, d, front, hk, _, _, _, _, hsame, _⟩ := parse_error_of_first_fault _ _ e herror
  obtain rfl : k = 2 := by simpa [e, MappingError.line?] using hk
  exact ⟨herror, hsame⟩

end Dictionary
end JvmSymbols
