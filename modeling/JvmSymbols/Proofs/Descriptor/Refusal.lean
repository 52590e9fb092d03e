import JvmSymbols.Proofs.Descriptor.Composition

/-! What a refused descriptor is reported with. The reader of field types knows only the text that it has come
to, so a refusal inside an array names what stands behind the brackets. A method descriptor and a text to be
renamed are always named whole. -/
namespace JvmSymbols

namespace JType

section Reading

variable {cs : List Char} {descriptor : String} {e : DescriptorError}

/-- The text at which the reader gives up is what stands behind the leading brackets, however many there are. -/
theorem eq_invalid_of_read_eq_error (h : read cs = .error e) :
    e = .invalid (String.ofList (cs.dropWhile (· = '['))) := by
  fun_induction read cs with
  | case1 =>
    cases h
    rfl
  | case2 cs ih =>
    rw [List.dropWhile_cons_of_pos (by decide)]
    exact ih (Except.map_eq_error_iff.1 h)
  | case3 => cases h
  | case4 cs hsplit =>
    cases h
    rw [List.dropWhile_cons_of_neg (by decide)]
  | case5 => cases h
  | case6 c cs ha ho hkind =>
    cases h
    rw [List.dropWhile_cons_of_neg (by simpa using ha)]

def StartsWithType (s : String) : Prop := ∃ t rest, WellFormed t ∧ s = t.verbatim ++ rest

theorem startsWithType_iff : StartsWithType descriptor ↔ ∃ p, read descriptor.toList = .ok p := by
  constructor
  · rintro ⟨t, rest, hwell, rfl⟩
    exact ⟨(t, rest.toList), read_eq_ok_iff.2 ⟨hwell, by simp⟩⟩
  · rintro ⟨⟨t, rest⟩, hread⟩
    obtain ⟨hwell, htext⟩ := read_eq_ok_iff.1 hread
    refine ⟨t, String.ofList rest, hwell, ?_⟩
    rw [← String.toList_inj, htext]
    simp

def behindBrackets (s : String) : String := String.ofList (s.toList.dropWhile (· = '['))

theorem behindBrackets_eq_self_iff {s : String} :
    behindBrackets s = s ↔ s.toList.head? ≠ some '[' := by
  rw [behindBrackets, ← String.toList_inj, String.toList_ofList]
  cases s.toList with
  | nil => simp
  | cons c cs =>
    by_cases hc : c = '['
    · subst hc
      have hshorter : (cs.dropWhile fun c => decide (c = '[')).length ≤ cs.length :=
        (List.dropWhile_suffix _).length_le
      rw [List.dropWhile_cons_of_pos (by decide), List.head?_cons]
      constructor
      · intro heq
        have hlength := congrArg List.length heq
        rw [List.length_cons] at hlength
        omega
      · intro hne
        exact absurd rfl hne
    · simp [hc]

theorem parse_eq_error_iff :
    parse descriptor = .error e ↔
      (StartsWithType descriptor ∧ (¬ ∃ t, parse descriptor = .ok t) ∧ e = .invalid descriptor) ∨
      (¬ StartsWithType descriptor ∧ e = .invalid (behindBrackets descriptor)) := by
  rw [startsWithType_iff, parse]
  cases hread : read descriptor.toList with
  | error fault =>
    obtain rfl := eq_invalid_of_read_eq_error hread
    simp [behindBrackets, eq_comm]
  | ok p =>
    obtain ⟨t, rest⟩ := p
    cases rest <;> simp [eq_comm]

end Reading

end JType

theorem MethodType.eq_invalid_of_parse_eq_error {descriptor : String} {e : DescriptorError}
    (h : parse descriptor = .error e) : e = .invalid descriptor := by
  rw [parse] at h
  split at h
  · cases h
  · cases h
    rfl

namespace Descriptor

/-- A refused field descriptor is reported whole exactly if it begins with a type or with no bracket; otherwise what
stands behind its brackets is reported. A refused method descriptor and a text that is not renamed are reported
whole, whatever the replacement gives and remembers. -/
theorem refused_reported (descriptor : String) :
    (∀ e, JType.parse descriptor = .error e →
      (e = .invalid descriptor ↔
        JType.StartsWithType descriptor ∨ descriptor.toList.head? ≠ some '[') ∧
      (JType.StartsWithType descriptor ∨ e = .invalid (JType.behindBrackets descriptor))) ∧
    (∀ e, MethodType.parse descriptor = .error e → e = .invalid descriptor) ∧
    (∀ (f : String → Option String) (e : DescriptorError), rename f descriptor = .error e →
      e = .invalid descriptor) ∧
    ∀ (f : List String → String → Option String) (e : DescriptorError),
      ((renameM (recalling f) descriptor).run []).1 = .error e → e = .invalid descriptor := by
  refine ⟨fun e h => ?_, fun e h => MethodType.eq_invalid_of_parse_eq_error h, fun f e h => ?_, fun f e h => ?_⟩
  · rcases JType.parse_eq_error_iff.1 h with ⟨htype, _, rfl⟩ | ⟨hnone, rfl⟩
    · exact ⟨by simp [htype], .inl htype⟩
    · have hwhole : DescriptorError.invalid (JType.behindBrackets descriptor) = .invalid descriptor ↔
          descriptor.toList.head? ≠ some '[' := by
        rw [DescriptorError.invalid.injEq, JType.behindBrackets_eq_self_iff]
      exact ⟨by rw [hwhole]; simp [hnone], .inr rfl⟩
  · rw [rename_eq] at h
    by_cases hclosed : (mentions descriptor.toList).isClosed = true
    · simp [hclosed] at h
    · simpa [hclosed, eq_comm] using h
  · rw [run_renameM_recalling] at h
    by_cases hclosed : (mentions descriptor.toList).isClosed = true
    · simp [hclosed] at h
    · simpa [hclosed, eq_comm] using h

/-- Text behind an array type is reported with the array, but an array of a class that does not end is not reported
whole. -/
theorem refused_reported_sample :
    let f : String → Option String := fun _ => none
    let g : List String → String → Option String := fun asked _ => asked.head?
    (∃ e, JType.parse "[IV" = .error e ∧ e = .invalid "[IV") ∧
      (∃ e, JType.parse "[[La/b" = .error e ∧ ¬ JType.StartsWithType "[[La/b" ∧ e = .invalid "La/b") ∧
      (∃ e, MethodType.parse "([Q)V" = .error e ∧ e = .invalid "([Q)V") ∧
      (∃ e, rename f "(La;[La/b" = .error e ∧ e = .invalid "(La;[La/b") ∧
      ∃ e, ((renameM (recalling g) "(La;[La/b").run []).1 = .error e ∧ e = .invalid "(La;[La/b" := by
  intro f g
  have hbehind : JType.parse "[IV" = .error (.invalid "[IV") := rfl
  have hinside : JType.parse "[[La/b" = .error (.invalid "La/b") := rfl
  have hparams : MethodType.read "([Q)V".toList = none := by decide +kernel
  have hmethod : MethodType.parse "([Q)V" = .error (.invalid "([Q)V") := by rw [MethodType.parse, hparams]
  have hopen : ¬ (mentions "(La;[La/b".toList).isClosed = true := by decide +kernel
  have hrename : rename f "(La;[La/b" = .error (.invalid "(La;[La/b") := by rw [rename_eq, if_neg hopen]
  have hrecalling : ((renameM (recalling g) "(La;[La/b").run []).1 = .error (.invalid "(La;[La/b") := by
    rw [run_renameM_recalling, if_neg hopen]
  obtain ⟨harray, _, _, _⟩ := refused_reported "[IV"
  obtain ⟨hclass, _, _, _⟩ := refused_reported "[[La/b"
  obtain ⟨_, hwhole, _, _⟩ := refused_reported "([Q)V"
  obtain ⟨_, _, hplain, hmemory⟩ := refused_reported "(La;[La/b"
  have hstarts : JType.StartsWithType "[IV" := ⟨.array (.primitive .int), "V", by decide, by decide⟩
  have hnone : ¬ JType.StartsWithType "[[La/b" := fun hstarts =>
    absurd ((hclass _ hinside).1.2 (.inl hstarts)) (by decide)
  refine ⟨⟨_, hbehind, (harray _ hbehind).1.2 (.inl hstarts)⟩, ⟨_, hinside, hnone, ?_⟩,
    ⟨_, hmethod, hwhole _ hmethod⟩, ⟨_, hrename, hplain f _ hrename⟩, ⟨_, hrecalling, hmemory g _ hrecalling⟩⟩
  exact (hclass _ hinside).2.resolve_left hnone

/-- An array of something that is no type is not reported whole. -/
theorem refused_array_not_whole :
    ¬ ∀ descriptor e, JType.parse descriptor = .error e → e = .invalid descriptor := by
  intro hwhole
  have hrefused : JType.parse "[Q" = .error (.invalid "Q") := rfl
  exact absurd (hwhole "[Q" _ hrefused) (by decide)

end Descriptor
end JvmSymbols
