import JvmSymbols.Proofs.Descriptor.Renaming

/-! Renaming the classes of a descriptor and renaming them again. The descriptor comes back exactly if each
of its names does. This is shown once for all kinds of descriptors, of which there are two. -/
namespace JvmSymbols
namespace Descriptor

/-- A kind of descriptors: how they are parsed and spelled, and what is known of their names. -/
structure Kind (τ : Type) where
  parse : String → Except DescriptorError τ
  names : τ → List String
  mapNames : (String → String) → τ → τ
  spell : (String → String) → τ → String
  eq_spell : ∀ {s t}, parse s = .ok t → s = spell id t
  isHoldable : ∀ {s t}, parse s = .ok t → ∀ name ∈ names t, ClassName.IsHoldable name
  subset : ∀ {s t}, parse s = .ok t → ∀ name ∈ names t, name.toList ⊆ s.toList
  rename_eq : ∀ {s t}, parse s = .ok t → ∀ f, rename f s = .ok (spell (orSame f) t)
  parse_spell : ∀ {s t}, parse s = .ok t → ∀ f, (∀ name ∈ names t, ClassName.IsHoldable (f name)) →
    parse (spell f t) = .ok (mapNames f t)
  spell_mapNames : ∀ f g t, spell g (mapNames f t) = spell (g ∘ f) t
  mapNames_congr : ∀ {f g t}, (∀ name ∈ names t, f name = g name) → mapNames f t = mapNames g t
  mapNames_eq_self_iff : ∀ {f t}, mapNames f t = t ↔ ∀ name ∈ names t, f name = name

theorem Kind.rename_back {τ : Type} (k : Kind τ) {f g : String → Option String} {s : String} {t : τ}
    (h : k.parse s = .ok t) (hf : ∀ name ∈ k.names t, ClassName.IsHoldable (orSame f name))
    (hg : ∀ name ∈ k.names t, ClassName.IsHoldable (orSame g (orSame f name))) :
    ∃ e, rename f s = .ok e ∧ k.parse e = .ok (k.mapNames (orSame f) t) ∧
      (rename g e = .ok s ↔ ∀ name ∈ k.names t, orSame g (orSame f name) = name) := by
  have hparse := k.parse_spell h (orSame f) hf
  have hback : rename g (k.spell (orSame f) t) = .ok (k.spell (orSame g ∘ orSame f) t) := by
    rw [k.rename_eq hparse, k.spell_mapNames]
  refine ⟨k.spell (orSame f) t, k.rename_eq h f, hparse, ?_⟩
  rw [hback, Except.ok.injEq]
  constructor
  · intro hsame
    -- The same text is parsed as `t` and as `t` with its names renamed twice.
    have hagain := k.parse_spell h (orSame g ∘ orSame f) hg
    rw [hsame, h] at hagain
    exact k.mapNames_eq_self_iff.1 (Except.ok.inj hagain).symm
  · intro hnames
    have hself : k.mapNames (orSame g ∘ orSame f) t = t := k.mapNames_eq_self_iff.2 hnames
    calc k.spell (orSame g ∘ orSame f) t
        = k.spell id (k.mapNames (orSame g ∘ orSame f) t) := (k.spell_mapNames _ id t).symm
      _ = s := by rw [hself, ← k.eq_spell h]

end Descriptor

namespace JType

variable {t : JType} {f g : String → String}

theorem mapNames_eq_self_iff : t.mapNames f = t ↔ ∀ name ∈ t.names, f name = name := by
  induction t with
  | primitive kind => simp [mapNames, names]
  | array t ih => simpa [mapNames, names] using ih
  | object name => simp [mapNames, names]

theorem mapNames_congr (h : ∀ name ∈ t.names, f name = g name) : t.mapNames f = t.mapNames g := by
  induction t with
  | primitive kind => rfl
  | array t ih => rw [mapNames, mapNames, ih h]
  | object name => rw [mapNames, mapNames, h name (by simp [names])]

theorem subset_verbatim {name : String} (h : name ∈ t.names) : name.toList ⊆ t.verbatim.toList := by
  unfold verbatim
  induction t with
  | primitive kind => simp [names] at h
  | array t ih =>
    rw [toList_spell_array]
    exact List.subset_cons_of_subset _ (ih h)
  | object other =>
    obtain rfl : name = other := by simpa [names] using h
    rw [toList_spell_object, id]
    exact List.subset_cons_of_subset _ (List.subset_append_left _ _)

def descriptorKind : Descriptor.Kind JType where
  parse := parse
  names := names
  mapNames := mapNames
  spell := spell
  eq_spell h := (parse_eq_ok_iff.1 h).2
  isHoldable h := (parse_eq_ok_iff.1 h).1.isHoldable
  subset h name hname := by
    obtain ⟨_, rfl⟩ := parse_eq_ok_iff.1 h
    exact subset_verbatim hname
  rename_eq h f := by
    obtain ⟨hwell, rfl⟩ := parse_eq_ok_iff.1 h
    exact ((scans hwell.isHoldable).rename_eq_ok f).1
  parse_spell h f hf := JType.parse_spell (parse_eq_ok_iff.1 h).1 hf
  spell_mapNames f g t := t.spell_mapNames g f
  mapNames_congr := mapNames_congr
  mapNames_eq_self_iff := mapNames_eq_self_iff

end JType

namespace MethodType

variable {m : MethodType} {f g : String → String}

theorem mapNames_congr (h : ∀ name ∈ m.names, f name = g name) : m.mapNames f = m.mapNames g := by
  simp only [names, List.mem_append, List.mem_flatMap] at h
  simp only [mapNames, mk.injEq]
  constructor
  · refine List.map_congr_left fun t ht => JType.mapNames_congr fun name hname => ?_
    exact h name (.inl ⟨t, ht, hname⟩)
  · exact JType.mapNames_congr fun name hname => h name (.inr hname)

theorem mapNames_eq_self_iff : m.mapNames f = m ↔ ∀ name ∈ m.names, f name = name := by
  have hparams : m.params.map (JType.mapNames f) = m.params ↔
      ∀ t ∈ m.params, ∀ name ∈ t.names, f name = name := by
    calc m.params.map (JType.mapNames f) = m.params
        ↔ m.params.map (JType.mapNames f) = m.params.map id := by rw [List.map_id]
      _ ↔ ∀ t ∈ m.params, t.mapNames f = t := List.map_inj_left
      _ ↔ ∀ t ∈ m.params, ∀ name ∈ t.names, f name = name := by
        simp only [JType.mapNames_eq_self_iff]
  have hparts : m.mapNames f = m ↔
      m.params.map (JType.mapNames f) = m.params ∧ m.result.mapNames f = m.result := by
    cases m
    simp [mapNames]
  rw [hparts, hparams, JType.mapNames_eq_self_iff]
  simp only [names, List.mem_append, List.mem_flatMap]
  constructor
  · rintro ⟨hp, hr⟩ name (⟨t, ht, hname⟩ | hname)
    · exact hp t ht name hname
    · exact hr name hname
  · intro h
    exact ⟨fun t ht name hname => h name (.inl ⟨t, ht, hname⟩), fun name hname => h name (.inr hname)⟩

theorem subset_verbatim {name : String} (h : name ∈ m.names) : name.toList ⊆ m.verbatim.toList := by
  intro c hc
  rw [names, List.mem_append, List.mem_flatMap] at h
  rw [toList_verbatim, List.mem_cons, List.mem_append, List.mem_cons, List.mem_flatMap]
  rcases h with ⟨t, ht, hname⟩ | hname
  · exact .inr (.inl ⟨t, ht, JType.subset_verbatim hname hc⟩)
  · exact .inr (.inr (.inr (JType.subset_verbatim hname hc)))

def descriptorKind : Descriptor.Kind MethodType where
  parse := parse
  names := names
  mapNames := mapNames
  spell := spell
  eq_spell h := (parse_eq_ok_iff.1 h).2
  isHoldable h := (parse_eq_ok_iff.1 h).1.isHoldable
  subset h name hname := by
    obtain ⟨_, rfl⟩ := parse_eq_ok_iff.1 h
    exact subset_verbatim hname
  rename_eq h f := by
    obtain ⟨hwell, rfl⟩ := parse_eq_ok_iff.1 h
    exact (hwell.scans.rename_eq_ok f).1
  parse_spell h f hf := MethodType.parse_spell (parse_eq_ok_iff.1 h).1 hf
  spell_mapNames := spell_mapNames
  mapNames_congr := mapNames_congr
  mapNames_eq_self_iff := mapNames_eq_self_iff

end MethodType

end JvmSymbols
