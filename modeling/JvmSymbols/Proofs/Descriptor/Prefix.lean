import JvmSymbols.Proofs.Descriptor.Spelling

/-! Types at the front of a text. A text begins with the spelling of one well-formed type at most, so no spelling
is the beginning of another one. The reader of field types takes the type that is there and stops at its end,
whatever follows; it gives up only on a text that begins with none. -/
namespace JvmSymbols
namespace JType

variable {t u : JType} {cs : List Char}

theorem eq_of_verbatim_prefix (ht : t.WellFormed) (hu : u.WellFormed) (htcs : t.verbatim.toList <+: cs)
    (hucs : u.verbatim.toList <+: cs) : t = u := by
  obtain ⟨rest, rfl⟩ := htcs
  obtain ⟨after, hafter⟩ := hucs
  -- Reading the common text gives both types.
  have hread := read_verbatim_append hu after
  rw [hafter, read_verbatim_append ht rest, Except.ok.injEq, Prod.mk.injEq] at hread
  exact hread.1

theorem not_prefix_of_read_eq_error {e : DescriptorError} (h : read cs = .error e) (hu : u.WellFormed) :
    ¬ u.verbatim.toList <+: cs := by
  rintro ⟨rest, rfl⟩
  rw [read_verbatim_append hu rest] at h
  cases h

/-- A well-formed type is read off the front of a text, whatever follows its spelling. What is read is well-formed
and the only type that the text begins with; its spelling is taken off, which is one character at least, and the
rest is left as it is. A text on which the reader fails begins with no well-formed type. -/
theorem read_decodes_prefix :
    (∀ t : JType, t.WellFormed → ∀ s : String, read (t.verbatim ++ s).toList = .ok (t, s.toList)) ∧
    (∀ (w r : String) (t : JType), read w.toList = .ok (t, r.toList) →
      t.WellFormed ∧ w = t.verbatim ++ r ∧ r.length < w.length ∧
        ∀ u : JType, u.WellFormed → u.verbatim.toList <+: w.toList → u = t) ∧
    ∀ (w : String) (e : DescriptorError), read w.toList = .error e →
      ∀ u : JType, u.WellFormed → ¬ u.verbatim.toList <+: w.toList := by
  refine ⟨?_, ?_, ?_⟩
  · intro t ht s
    rw [String.toList_append]
    exact read_verbatim_append ht s.toList
  · intro w r t hread
    obtain ⟨hwell, hchars⟩ := read_eq_ok_iff.1 hread
    have hw : w = t.verbatim ++ r := by
      apply String.toList_inj.1
      rw [hchars, String.toList_append]
    have hshorter : r.length < w.length := read_length_lt hread
    refine ⟨hwell, hw, hshorter, ?_⟩
    intro u hu hprefix
    exact eq_of_verbatim_prefix hu hwell hprefix ⟨r.toList, hchars.symm⟩
  · intro w e hread u hu
    exact not_prefix_of_read_eq_error hread hu

/-- What follows may look like more of the type: a semicolon, brackets or another class. A class whose name does not
end is none. -/
theorem read_decodes_prefix_sample :
    read ("[[Lp.L(V)[$é;" ++ ";[La;é").toList = .ok (.array (.array (.object "p.L(V)[$é")), ";[La;é".toList) ∧
    (read "[I[Q".toList = .ok (.array (.primitive .int), "[Q".toList) ∧
      (JType.array (.primitive .int)).WellFormed ∧
      "[I[Q" = (JType.array (.primitive .int)).verbatim ++ "[Q" ∧ "[Q".length < "[I[Q".length ∧
      ∀ u : JType, u.WellFormed → u.verbatim.toList <+: "[I[Q".toList → u = .array (.primitive .int)) ∧
    read "[[La/b".toList = .error (.invalid "La/b") ∧
      ∀ u : JType, u.WellFormed → ¬ u.verbatim.toList <+: "[[La/b".toList := by
  obtain ⟨htaken, hleft, hfails⟩ := read_decodes_prefix
  have hnested : (JType.array (.array (.object "p.L(V)[$é"))).verbatim = "[[Lp.L(V)[$é;" := by decide
  have hfound : read "[I[Q".toList = .ok (.array (.primitive .int), "[Q".toList) := rfl
  have hrefused : read "[[La/b".toList = .error (.invalid "La/b") := rfl
  refine ⟨?_, ⟨hfound, hleft _ _ _ hfound⟩, hrefused, hfails _ _ hrefused⟩
  rw [← hnested]
  exact htaken _ (by decide) _

end JType
end JvmSymbols
