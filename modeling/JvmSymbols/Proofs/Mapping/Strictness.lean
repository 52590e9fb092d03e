import JvmSymbols.Proofs.Descriptor.Refusal
import JvmSymbols.Proofs.Mapping.Fault

/-! What a strict reader does differently. It stops at the first method record that has an invalid descriptor, if
it comes that far; up to there it fills the same tables as a reader that is not strict, and refuses the same
lines. -/
namespace JvmSymbols

namespace Record

theorem checkDescriptor_of_not_accepts {descriptor : String} (h : ¬ MethodType.Accepts descriptor) :
    checkDescriptor descriptor = .error (.badDescriptor (.invalid descriptor)) := by
  rw [checkDescriptor]
  cases hparse : MethodType.parse descriptor with
  | ok t => exact absurd ⟨t, hparse⟩ h
  | error e => rw [MethodType.eq_invalid_of_parse_eq_error hparse]

/-- The words are a method record with all four operands, and the descriptor is the first of its two that is
invalid. -/
inductive BadDescriptor : List String → String → Prop
  | human {h hd m md : String} (hbad : ¬ MethodType.Accepts hd) : BadDescriptor ["MD:", h, hd, m, md] hd
  | mapped {h hd m md : String} (hgood : MethodType.Accepts hd) (hbad : ¬ MethodType.Accepts md) :
    BadDescriptor ["MD:", h, hd, m, md] md

theorem readMethod_true (h hd m md : String) :
    readMethod true [h, hd, m, md] = (do
      checkDescriptor hd
      checkDescriptor md
      readMethod false [h, hd, m, md]) := rfl

theorem readMethod_strict (operands : List String) :
    readMethod true operands = readMethod false operands ∨
      ∃ bad, BadDescriptor ("MD:" :: operands) bad ∧
        readMethod true operands = .error (.badDescriptor (.invalid bad)) := by
  match operands with
  | [h, hd, m, md] =>
    rw [readMethod_true]
    by_cases hhuman : MethodType.Accepts hd
    · have hok : checkDescriptor hd = .ok () := checkDescriptor_eq_ok_iff.2 hhuman
      rw [hok]
      by_cases hmapped : MethodType.Accepts md
      · have hok' : checkDescriptor md = .ok () := checkDescriptor_eq_ok_iff.2 hmapped
        rw [hok']
        exact .inl rfl
      · rw [checkDescriptor_of_not_accepts hmapped]
        exact .inr ⟨md, .mapped hhuman hmapped, rfl⟩
    · rw [checkDescriptor_of_not_accepts hhuman]
      exact .inr ⟨hd, .human hhuman, rfl⟩
  | [] | [_] | [_, _] | [_, _, _] | _ :: _ :: _ :: _ :: _ :: _ => exact .inl rfl

theorem ofWords_strict (words : List String) :
    ofWords true words = ofWords false words ∨
      ∃ bad, BadDescriptor words bad ∧ ofWords true words = .error (.badDescriptor (.invalid bad)) := by
  cases words with
  | nil => exact .inl rfl
  | cons tag operands =>
    rw [ofWords, ofWords]
    by_cases hmethod : tag = "MD:"
    · subst hmethod
      exact readMethod_strict operands
    · simp only [if_neg hmethod, true_or]

def DescriptorsValid (bytes : List UInt8) : Prop :=
  ∀ h hd m md, lineWords bytes = some ["MD:", h, hd, m, md] →
    MethodType.Accepts hd ∧ MethodType.Accepts md

theorem SpelledOn.descriptorsValid {bytes : List UInt8} {r : Record} (h : SpelledOn true bytes r) :
    DescriptorsValid bytes := by
  intro human hd mapped md hwords
  obtain ⟨tag, operands, hwords', hwell⟩ := exists_spelledOn_iff.1 ⟨r, h⟩
  cases hwords'.symm.trans hwords
  exact hwell.methodDescriptors rfl _ _ _ _ rfl rfl

theorem DescriptorsValid.not_badDescriptor {bytes : List UInt8} {words : List String} {bad : String}
    (h : DescriptorsValid bytes) (hwords : lineWords bytes = some words) : ¬ BadDescriptor words bad := by
  intro hbad
  cases hbad with
  | human hbad => exact hbad (h _ _ _ _ hwords).1
  | mapped _ hbad => exact hbad (h _ _ _ _ hwords).2

end Record

namespace Dictionary

open Record

/-- What only a strict reader refuses: a method record one of whose descriptors is invalid. The fault names the
line and the descriptor. -/
inductive DescriptorFault (lines : List (List UInt8)) : MappingError → Prop
  | intro {i : Nat} {line : List UInt8} {words : List String} {bad : String} (hline : lines[i]? = some line)
    (hwords : lineWords line = some words) (hbad : BadDescriptor words bad) :
    DescriptorFault lines (.malformed (i + 1) (.badDescriptor (.invalid bad)))

/-- On one line the readers do the same, or the strict one finds an invalid descriptor. -/
theorem addLine_strict (d : Dictionary) (n : Nat) (line : List UInt8) :
    addLine true d n line = addLine false d n line ∨
      ∃ words bad, lineWords line = some words ∧ BadDescriptor words bad ∧
        addLine true d n line = .error (.malformed n (.badDescriptor (.invalid bad))) := by
  rw [addLine, addLine, readLine_eq, readLine_eq]
  cases hwords : lineWords line with
  | none => exact .inl rfl
  | some words =>
    rcases ofWords_strict words with hsame | ⟨bad, hbad, herror⟩
    · simp only [hsame, true_or]
    · exact .inr ⟨words, bad, rfl, hbad, by simp only [herror]⟩

theorem outcome_readLines_append {strict : Bool} {front back : List (List UInt8)} {d d' : Dictionary} {n : Nat}
    (h : (readLines strict d n front).outcome = .ok d') :
    (readLines strict d n (front ++ back)).outcome =
      (readLines strict d' (n + front.length) back).outcome := by
  induction front generalizing d n with
  | nil =>
    cases h
    rfl
  | cons line front ih =>
    rw [outcome_readLines_cons] at h
    rw [List.cons_append, outcome_readLines_cons]
    cases hline : addLine strict d n line with
    | error e => simp [hline] at h
    | ok next =>
      rw [hline] at h
      rw [List.length_cons, Nat.add_comm front.length, ← Nat.add_assoc]
      exact ih h

/-- The readers come to the same end, or they part at an invalid descriptor: the lines before it are taken by both,
and the strict reader goes no further. -/
theorem readLines_strict (d : Dictionary) (n : Nat) (lines : List (List UInt8)) :
    (readLines true d n lines).outcome = (readLines false d n lines).outcome ∨
      ∃ front line back d' words bad, lines = front ++ line :: back ∧
        (readLines false d n front).outcome = .ok d' ∧ lineWords line = some words ∧ BadDescriptor words bad ∧
        (readLines true d n lines).outcome =
          .error (.malformed (n + front.length) (.badDescriptor (.invalid bad))) := by
  induction lines generalizing d n with
  | nil => exact .inl rfl
  | cons first rest ih =>
    rw [outcome_readLines_cons, outcome_readLines_cons]
    rcases addLine_strict d n first with hsame | ⟨words, bad, hwords, hbad, herror⟩
    · rw [hsame]
      cases hfirst : addLine false d n first with
      | error e => exact .inl rfl
      | ok next =>
        rcases ih next.1 (n + 1) with
          hrest | ⟨front, line, back, d', words, bad, rfl, hfront, hwords, hbad, herror⟩
        · exact .inl hrest
        · refine .inr ⟨first :: front, line, back, d', words, bad, rfl, ?_, hwords, hbad, ?_⟩
          · rw [outcome_readLines_cons, hfirst]
            exact hfront
          · rw [List.length_cons, Nat.add_comm front.length, ← Nat.add_assoc]
            exact herror
    · exact .inr ⟨[], first, rest, d, words, bad, rfl, rfl, hwords, hbad, by rw [herror]; rfl⟩

/-- A file is read alike by both, or the strict reader stops at an invalid descriptor. Then the other reader
finds no fault before that line. -/
theorem parse_true_eq_or (bytes : List UInt8) :
    parse true bytes = parse false bytes ∨
      ∃ e k, parse true bytes = .error e ∧ e.line? = some k ∧ DescriptorFault (Text.byteLines bytes) e ∧
        ∀ e', parse false bytes = .error e' → ∃ k', e'.line? = some k' ∧ k ≤ k' := by
  rcases readLines_strict empty 1 (Text.byteLines bytes) with
    hsame | ⟨front, line, back, d, words, bad, hlines, hfront, hwords, hbad, herror⟩
  · exact .inl hsame
  · rw [Nat.add_comm] at herror
    have hline : (Text.byteLines bytes)[front.length]? = some line := by simp [hlines]
    refine .inr ⟨_, front.length + 1, herror, rfl, .intro hline hwords hbad, fun e' h => ?_⟩
    have hback : (readLines false d (1 + front.length) (line :: back)).outcome = .error e' := by
      rw [← outcome_readLines_append hfront, ← hlines]
      exact h
    obtain ⟨front', _, _, _, _, _, hfault⟩ := readLines_eq_error_iff.1 hback
    exact ⟨_, hfault.line?_eq, by omega⟩

theorem exists_line_of_parse_eq_error {strict : Bool} {bytes : List UInt8} {e : MappingError}
    (h : parse strict bytes = .error e) : ∃ k, e.line? = some k := by
  obtain ⟨_, _, _, _, _, _, hfault⟩ := readLines_eq_error_iff.1 h
  exact ⟨_, hfault.line?_eq⟩

theorem not_descriptorFault_of_valid {lines : List (List UInt8)} {e : MappingError}
    (h : ∀ line ∈ lines, DescriptorsValid line) : ¬ DescriptorFault lines e := by
  rintro ⟨hline, hwords, hbad⟩
  exact (h _ (List.mem_of_getElem? hline)).not_badDescriptor hwords hbad

/-- A strict reader reads a file exactly if it is read without strictness and all descriptors are valid, and
then it reads the same dictionary. A file that is refused without strictness is refused by it no later. If it
stops earlier, for another reason or alone, then it stops at an invalid descriptor. -/
theorem parse_strict_refines (bytes : List UInt8) :
    (∀ d, parse true bytes = .ok d ↔
      parse false bytes = .ok d ∧ ∀ line ∈ Text.byteLines bytes, DescriptorsValid line) ∧
    (∀ e, parse false bytes = .error e → ∃ k e' k', e.line? = some k ∧ parse true bytes = .error e' ∧
      e'.line? = some k' ∧ k' ≤ k ∧ (k' < k ∨ e' ≠ e → DescriptorFault (Text.byteLines bytes) e')) ∧
    ∀ d e, parse false bytes = .ok d → parse true bytes = .error e →
      DescriptorFault (Text.byteLines bytes) e := by
  have hvalid : ∀ d, parse true bytes = .ok d → ∀ line ∈ Text.byteLines bytes, DescriptorsValid line := by
    intro d h line hline
    obtain ⟨rs, hlines, _⟩ := parse_eq_ok_iff.1 h
    obtain ⟨r, _, hspelled⟩ := exists_mem_right_of_forall₂ hlines line hline
    exact hspelled.descriptorsValid
  rcases parse_true_eq_or bytes with hsame | ⟨e', k', herror, hk', hfault, hlater⟩
  · rw [hsame] at hvalid ⊢
    refine ⟨fun d => ⟨fun h => ⟨h, hvalid d h⟩, And.left⟩, fun e h => ?_, fun d e hok herror => ?_⟩
    · obtain ⟨k, hk⟩ := exists_line_of_parse_eq_error h
      refine ⟨k, e, k, hk, h, hk, Nat.le_refl k, ?_⟩
      rintro (hlt | hne)
      · exact absurd hlt (Nat.lt_irrefl k)
      · exact absurd rfl hne
    · cases hok.symm.trans herror
  · rw [herror]
    refine ⟨fun d => ⟨nofun, fun h => absurd hfault (not_descriptorFault_of_valid h.2)⟩, fun e h => ?_, ?_⟩
    · obtain ⟨k, hk, hle⟩ := hlater e h
      exact ⟨k, e', k', hk, rfl, hk', hle, fun _ => hfault⟩
    · rintro d e - ⟨⟩
      exact hfault

/-- Both readers take a text with valid descriptors. At an invalid one the strict reader stops, a line before
the other or alone. -/
theorem parse_strict_refines_departing :
    let valid := Text.encode "PK: .\nMD: a/b (I)V c/d ()V\n"
    let departing := Text.encode "CL: a x\nMD: a/B/m (V)V c/D/n ()V\nFD: f\n"
    let start := Text.encode "CL: a x\nMD: a/B/m (V)V c/D/n ()V\n"
    (∃ d, parse false valid = .ok d ∧ (∀ line ∈ Text.byteLines valid, DescriptorsValid line) ∧
      parse true valid = .ok d) ∧
    (∃ e e', parse false departing = .error e ∧ e.line? = some 3 ∧ parse true departing = .error e' ∧
      e'.line? = some 2 ∧ DescriptorFault (Text.byteLines departing) e') ∧
    ∃ d e, parse false start = .ok d ∧ parse true start = .error e ∧
      DescriptorFault (Text.byteLines start) e := by
  intro valid departing start
  obtain ⟨hrefines, _, _⟩ := parse_strict_refines valid
  obtain ⟨_, hearlier, _⟩ := parse_strict_refines departing
  obtain ⟨_, _, hstops⟩ := parse_strict_refines start
  refine ⟨?_, ?_, ?_⟩
  · have hread : (parse false valid).map (fun _ => ()) = .ok () := by decide +kernel
    have hwords : (Text.byteLines valid).map lineWords =
        [some ["PK:", "."], some ["MD:", "a/b", "(I)V", "c/d", "()V"]] := by decide +kernel
    have hhuman : MethodType.Accepts "(I)V" :=
      ⟨⟨[.primitive .int], .primitive .void⟩, MethodType.parse_eq_ok_iff.2 ⟨by decide, by decide⟩⟩
    have hmapped : MethodType.Accepts "()V" :=
      ⟨⟨[], .primitive .void⟩, MethodType.parse_eq_ok_iff.2 ⟨by decide, by decide⟩⟩
    have hvalid : ∀ line ∈ Text.byteLines valid, DescriptorsValid line := by
      intro line hline h hd m md hmethod
      have hmem : lineWords line ∈ (Text.byteLines valid).map lineWords := List.mem_map_of_mem hline
      rw [hwords, hmethod] at hmem
      simp only [List.mem_cons, Option.some.injEq, List.cons.injEq, List.not_mem_nil, or_false] at hmem
      rcases hmem with ⟨htag, _⟩ | ⟨_, _, rfl, _, rfl, _⟩
      · exact absurd htag (by decide)
      · exact ⟨hhuman, hmapped⟩
    obtain ⟨d, hd, _⟩ := Except.map_eq_ok_iff.1 hread
    exact ⟨d, hd, hvalid, (hrefines d).2 ⟨hd, hvalid⟩⟩
  · have hlenient : parse false departing = .error (.malformed 3 (.operandCount "FD:" 2 1)) :=
      (Except.map_eq_error_iff (f := fun _ => ())).1 (by decide +kernel)
    have hstrict : parse true departing = .error (.malformed 2 (.badDescriptor (.invalid "(V)V"))) :=
      (Except.map_eq_error_iff (f := fun _ => ())).1 (by decide +kernel)
    obtain ⟨_, e', _, _, he', _, _, hfault⟩ := hearlier _ hlenient
    cases hstrict.symm.trans he'
    exact ⟨_, _, hlenient, rfl, hstrict, rfl, hfault (.inr (by decide))⟩
  · have hread : (parse false start).map (fun _ => ()) = .ok () := by decide +kernel
    have hstrict : parse true start = .error (.malformed 2 (.badDescriptor (.invalid "(V)V"))) :=
      (Except.map_eq_error_iff (f := fun _ => ())).1 (by decide +kernel)
    obtain ⟨d, hd, _⟩ := Except.map_eq_ok_iff.1 hread
    exact ⟨d, _, hd, hstrict, hstops d _ hd hstrict⟩

end Dictionary
end JvmSymbols
