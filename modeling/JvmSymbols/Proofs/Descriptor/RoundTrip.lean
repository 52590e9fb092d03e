import JvmSymbols.Proofs.Descriptor.Spelling

/-! Types survive the way through their descriptors, and descriptors the way through their types. What
changes is the spelling of class names only: a descriptor is written with slashes. -/
namespace JvmSymbols

namespace JType

variable {t : JType} {f : String → String}

theorem WellFormed.isHoldable (h : t.WellFormed) : ∀ name ∈ t.names, ClassName.IsHoldable name := by
  induction t with
  | primitive kind => simp [names]
  | array t ih => exact ih h
  | object name =>
    have hname : ClassName.IsHoldable name := h
    simpa [names] using hname

theorem WellFormed.mapNames (h : t.WellFormed) (hf : ∀ name ∈ t.names, ClassName.IsHoldable (f name)) :
    (t.mapNames f).WellFormed := by
  induction t with
  | primitive kind => exact h
  | array t ih => exact ih h hf
  | object name => exact hf name (by simp [names])

theorem IsResult.isHoldable (h : t.IsResult) : ∀ name ∈ t.names, ClassName.IsHoldable name := by
  rcases h with rfl | h
  · simp [names]
  · exact h.isHoldable

theorem IsResult.mapNames (h : t.IsResult) (hf : ∀ name ∈ t.names, ClassName.IsHoldable (f name)) :
    (t.mapNames f).IsResult := by
  rcases h with rfl | h
  · exact .inl rfl
  · exact .inr (h.mapNames hf)

theorem parse_spell (h : t.WellFormed) (hf : ∀ name ∈ t.names, ClassName.IsHoldable (f name)) :
    parse (t.spell f) = .ok (t.mapNames f) :=
  parse_eq_ok_iff.2 ⟨h.mapNames hf, (t.verbatim_mapNames f).symm⟩

end JType

namespace MethodType

variable {m : MethodType} {f : String → String}

theorem WellFormed.isHoldable (h : m.WellFormed) :
    ∀ name ∈ m.names, ClassName.IsHoldable name := by
  intro name hname
  rw [names, List.mem_append, List.mem_flatMap] at hname
  rcases hname with ⟨t, ht, hname⟩ | hname
  · exact (h.params t ht).isHoldable name hname
  · exact h.result.isHoldable name hname

theorem WellFormed.mapNames (h : m.WellFormed)
    (hf : ∀ name ∈ m.names, ClassName.IsHoldable (f name)) : (m.mapNames f).WellFormed := by
  constructor
  · intro t' ht'
    obtain ⟨t, ht, rfl⟩ := List.mem_map.1 ht'
    refine (h.params t ht).mapNames fun name hname => hf name ?_
    exact List.mem_append_left _ (List.mem_flatMap.2 ⟨t, ht, hname⟩)
  · exact h.result.mapNames fun name hname => hf name (List.mem_append_right _ hname)

theorem parse_spell (h : m.WellFormed) (hf : ∀ name ∈ m.names, ClassName.IsHoldable (f name)) :
    parse (m.spell f) = .ok (m.mapNames f) :=
  parse_eq_ok_iff.2 ⟨h.mapNames hf, (m.verbatim_mapNames f).symm⟩

end MethodType

namespace Descriptor

/-- A type is read back from its descriptor with its class name in the internal spelling; so is a
method type, `void` standing for an absent result. A descriptor that was read is written again with
slashes for its dots. -/
theorem parse_descriptor_roundTrip :
    (∀ t : JType, t.WellFormed →
      JType.parse t.descriptor = .ok (t.mapNames ClassName.toInternal)) ∧
    (∀ (params : List JType) (result : Option JType), (∀ t ∈ params, t.WellFormed) →
      (∀ t ∈ result, t.IsResult) →
      MethodType.parse (methodDescriptor params result) =
        .ok ⟨params.map (JType.mapNames ClassName.toInternal),
          (result.getD (.primitive .void)).mapNames ClassName.toInternal⟩) ∧
    (∀ (descriptor : String) (t : JType), JType.parse descriptor = .ok t →
      t.descriptor = ClassName.toInternal descriptor) ∧
    (∀ (descriptor : String) (m : MethodType), MethodType.parse descriptor = .ok m →
      m.descriptor = ClassName.toInternal descriptor) := by
  refine ⟨fun t h => ?_, fun params result hparams hresult => ?_, fun descriptor t h => ?_,
    fun descriptor m h => ?_⟩
  · exact JType.parse_spell h fun name hname => (h.isHoldable name hname).toInternal
  · have hwell : MethodType.WellFormed ⟨params, result.getD (.primitive .void)⟩ := by
      refine ⟨hparams, ?_⟩
      cases result with
      | none => exact .inl rfl
      | some t => exact hresult t rfl
    rw [MethodType.methodDescriptor_eq_spell]
    exact MethodType.parse_spell hwell fun name hname => (hwell.isHoldable name hname).toInternal
  · obtain ⟨_, rfl⟩ := JType.parse_eq_ok_iff.1 h
    exact t.toInternal_verbatim.symm
  · obtain ⟨_, rfl⟩ := MethodType.parse_eq_ok_iff.1 h
    exact m.toInternal_verbatim.symm

theorem parse_descriptor_roundTrip_sample :
    JType.parse (JType.array (.object "p.L(V)[$é")).descriptor = .ok (.array (.object "p/L(V)[$é")) ∧
    MethodType.parse (methodDescriptor [.array (.object "p.L(V)[$é"), .primitive .long] none) =
      .ok ⟨[.array (.object "p/L(V)[$é"), .primitive .long], .primitive .void⟩ ∧
    (JType.object "p.Q").descriptor = ClassName.toInternal "Lp.Q;" ∧
    MethodType.descriptor ⟨[.object "p.Q"], .primitive .void⟩ = ClassName.toInternal "(Lp.Q;)V" := by
  obtain ⟨hfield, hmethod, hfieldBack, hmethodBack⟩ := parse_descriptor_roundTrip
  have hspelling : ClassName.toInternal "p.L(V)[$é" = "p/L(V)[$é" := by decide +kernel
  refine ⟨?_, ?_, ?_, ?_⟩
  · have h := hfield (.array (.object "p.L(V)[$é")) (by decide)
    rwa [JType.mapNames, JType.mapNames, hspelling] at h
  · have h := hmethod [.array (.object "p.L(V)[$é"), .primitive .long] none (by decide) (by simp)
    simpa [JType.mapNames, hspelling] using h
  · exact hfieldBack _ _ (JType.parse_eq_ok_iff.2 ⟨by decide, by decide⟩)
  · exact hmethodBack _ _ (MethodType.parse_eq_ok_iff.2 ⟨by decide, by decide⟩)

end Descriptor
end JvmSymbols
