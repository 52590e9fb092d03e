import JvmSymbols.Proofs.Mapping.Exchange

/-! The two sides of a mapping text are treated alike. If they are exchanged, the text is read or refused as
before, a fault is found on the same line, and the dictionary answers from the other side. -/
namespace JvmSymbols

/-- Two computations that succeed or fail together, with values that are related by `R` or faults that are
related by `E`. -/
inductive Alike {ε α β : Type} (E : ε → ε → Prop) (R : α → β → Prop) : Except ε α → Except ε β → Prop
  | ok {a : α} {b : β} (h : R a b) : Alike E R (.ok a) (.ok b)
  | error {e f : ε} (h : E e f) : Alike E R (.error e) (.error f)

namespace Alike

variable {ε α β : Type} {x : Except ε α} {y : Except ε β}

theorem of_ok {s : α → β} (hxy : ∀ a, x = .ok a → y = .ok (s a)) (hyx : ∀ b, y = .ok b → ∃ a, x = .ok a) :
    Alike (fun _ _ => True) (fun a b => b = s a) x y := by
  cases x with
  | ok a =>
    rw [hxy a rfl]
    exact .ok rfl
  | error e =>
    cases y with
    | ok b =>
      obtain ⟨a, ha⟩ := hyx b rfl
      cases ha
    | error f => exact .error trivial

theorem mono {E : ε → ε → Prop} {R S : α → β → Prop} (h : Alike E R x y)
    (hRS : ∀ a b, R a b → S a b) : Alike E S x y := by
  cases h with
  | ok hab => exact .ok (hRS _ _ hab)
  | error he => exact .error he

theorem map_mapError {ε' α' β' : Type} {E : ε → ε → Prop} {R : α → β → Prop} {E' : ε' → ε' → Prop}
    {S : α' → β' → Prop} {f : α → α'} {g : β → β'} {failed : ε → ε'} (h : Alike E R x y)
    (hok : ∀ a b, R a b → S (f a) (g b)) (herror : ∀ e e', E e e' → E' (failed e) (failed e')) :
    Alike E' S ((x.map f).mapError failed) ((y.map g).mapError failed) := by
  cases h with
  | ok hab => exact .ok (hok _ _ hab)
  | error he => exact .error (herror _ _ he)

theorem exists_or {E : ε → ε → Prop} {R : α → β → Prop} (h : Alike E R x y) :
    (∃ a b, R a b ∧ x = .ok a ∧ y = .ok b) ∨ ∃ e f, E e f ∧ x = .error e ∧ y = .error f := by
  cases h with
  | ok hab => exact .inl ⟨_, _, hab, rfl, rfl⟩
  | error he => exact .inr ⟨_, _, he, rfl, rfl⟩

end Alike

namespace OneToOne

variable {α β : Type} [DecidableEq α] [DecidableEq β]

theorem insert_swap_eq_ok {t u : OneToOne α β} {a : α} {b : β} (h : t.insert a b = .ok u) :
    t.swap.insert b a = .ok u.swap := by
  rw [insert_eq_ok_iff] at h ⊢
  simp [swap, h]

theorem insert_swap (t : OneToOne α β) (a : α) (b : β) :
    Alike (fun _ _ => True) (fun u v => v = u.swap) (t.insert a b) (t.swap.insert b a) := by
  -- Where both names clash, the one that is found first depends on the side: nothing is said of the clashes.
  refine .of_ok (fun u hu => insert_swap_eq_ok hu) fun u hu => ⟨u.swap, ?_⟩
  have hback := insert_swap_eq_ok hu
  rwa [swap_swap] at hback

end OneToOne

namespace Record

def swap : Record → Record
  | ofClass human mapped => ofClass mapped human
  | ofField human mapped => ofField mapped human
  | ofMethod human mapped => ofMethod mapped human
  | other tag => other tag

theorem exchangeWords_of_notMem {tag : String} (h : tag ∉ tags) (operands : List String) :
    exchangeWords (tag :: operands) = tag :: operands := by
  have hne {other : String} {others : List String} (hmem : other ∈ tags) :
      tag :: operands ≠ other :: others := fun heq => h ((List.cons.inj heq).1 ▸ hmem)
  exact exchangeWords.eq_4 _ (fun _ _ => hne (by decide)) (fun _ _ => hne (by decide))
    fun _ _ _ _ => hne (by decide)

theorem exchangeWords_exchangeWords (ws : List String) : exchangeWords (exchangeWords ws) = ws := by
  rw [exchangeWords.eq_def ws]
  split
  · rfl
  · rfl
  · rfl
  · rename_i hc hf hm
    exact exchangeWords.eq_4 ws hc hf hm

theorem Spelled.exchange {strict : Bool} {ws : List String} {r : Record} (h : Spelled strict ws r) :
    Spelled strict (exchangeWords ws) r.swap := by
  cases h with
  | ofClass human mapped => exact .ofClass mapped human
  | ofField hh hm => exact .ofField hm hh
  | ofMethod valid hh hm => exact .ofMethod (fun hs => (valid hs).symm) hm hh
  | other operands htag =>
    rw [exchangeWords_of_notMem htag]
    exact .other operands htag

theorem ofWords_exchange (strict : Bool) (ws : List String) :
    Alike (fun _ _ => True) (fun r r' => r' = r.swap) (ofWords strict ws)
      (ofWords strict (exchangeWords ws)) := by
  refine .of_ok (fun r hr => ?_) (fun r hr => ⟨r.swap, ?_⟩)
  · exact ofWords_eq_ok_iff.2 (ofWords_eq_ok_iff.1 hr).exchange
  · have hback := (ofWords_eq_ok_iff.1 hr).exchange
    rw [exchangeWords_exchangeWords] at hback
    exact ofWords_eq_ok_iff.2 hback

end Record

namespace Dictionary

/-- A record is taken from either side, or refused by the same table. -/
theorem add_swap (d : Dictionary) (r : Record) :
    Alike (fun e f => e.1 = f.1) (fun e f => f = e.swap) (d.add r) (d.swap.add r.swap) := by
  cases r with
  | ofClass human mapped =>
    rw [add_ofClass, Record.swap, add_ofClass]
    exact (d.classes.insert_swap human mapped).map_mapError (fun u v huv => huv ▸ rfl) fun _ _ _ => rfl
  | ofField human mapped =>
    rw [add_ofField, Record.swap, add_ofField]
    exact (d.fields.insert_swap human mapped).map_mapError (fun u v huv => huv ▸ rfl) fun _ _ _ => rfl
  | ofMethod human mapped =>
    rw [add_ofMethod, Record.swap, add_ofMethod]
    exact (d.methods.insert_swap human mapped).map_mapError (fun u v huv => huv ▸ rfl) fun _ _ _ => rfl
  | other tag => exact .ok rfl

/-- The same fault on the same line, of the same table if it is of one. -/
inductive SameFault : MappingError → MappingError → Prop
  | unreadable (line : Nat) (cause : FileFailure) :
    SameFault (.unreadable line cause) (.unreadable line cause)
  | malformed (line : Nat) (flaw flaw' : Flaw) :
    SameFault (.malformed line flaw) (.malformed line flaw')
  | duplicate (line : Nat) (table : Table) (clash clash' : Clash) (record record' : Record) :
    SameFault (.duplicate line table clash record) (.duplicate line table clash' record')

def Exchanged (bytes bytes' : List UInt8) : Prop :=
  Record.lineWords bytes' = (Record.lineWords bytes).map Record.exchangeWords

section Reading

variable {strict : Bool} {bytes bytes' : List UInt8}

theorem readLine_eq (strict : Bool) (n : Nat) (bytes : List UInt8) :
    readLine strict n bytes =
      match Record.lineWords bytes with
      | none => .error (.unreadable n .notUtf8)
      | some ws =>
        match Record.ofWords strict ws with
        | .ok record => .ok record
        | .error flaw => .error (.malformed n flaw) := by
  rw [readLine, Record.lineWords]
  cases Text.decode bytes with
  | none => rfl
  | some text => cases h : Record.ofWords strict (Text.words text.toList) <;> simp [h]

theorem readLine_exchanged (strict : Bool) (n : Nat) (h : Exchanged bytes bytes') :
    Alike SameFault (fun r r' => r' = r.swap) (readLine strict n bytes) (readLine strict n bytes') := by
  rw [readLine_eq, readLine_eq, h]
  cases Record.lineWords bytes with
  | none => exact .error (.unreadable n _)
  | some ws =>
    rcases (Record.ofWords_exchange strict ws).exists_or with ⟨r, _, rfl, hr, hr'⟩ | ⟨f, f', _, hf, hf'⟩
    · simp only [Option.map_some, hr, hr']
      exact .ok rfl
    · simp only [Option.map_some, hf, hf']
      exact .error (.malformed n f f')

theorem addLine_exchanged (strict : Bool) (d : Dictionary) (n : Nat) (h : Exchanged bytes bytes') :
    Alike SameFault (fun p q => q = (p.1.swap, p.2.swap)) (addLine strict d n bytes)
      (addLine strict d.swap n bytes') := by
  rw [addLine, addLine]
  rcases (readLine_exchanged strict n h).exists_or with ⟨r, _, rfl, hr, hr'⟩ | ⟨e, e', he, hr, hr'⟩
  · simp only [hr, hr']
    rcases (d.add_swap r).exists_or with
      ⟨f, _, rfl, hf, hf'⟩ | ⟨⟨table, clash⟩, ⟨table', clash'⟩, htable, hf, hf'⟩
    · simp only [hf, hf']
      exact .ok rfl
    · obtain rfl : table = table' := htable
      simp only [hf, hf']
      exact .error (.duplicate n table clash clash' r r.swap)
  · simp only [hr, hr']
    exact .error he

/-- A run over exchanged lines ends as the run over the lines does, with the dictionary read from the
other side. -/
theorem readLines_exchanged (strict : Bool) (d : Dictionary) (n : Nat) {lines lines' : List (List UInt8)}
    (h : List.Forall₂ Exchanged lines lines') :
    Alike SameFault (fun e f => f = e.swap) (readLines strict d n lines).outcome
      (readLines strict d.swap n lines').outcome := by
  -- Line by line; what carries on is that one dictionary is the other from the other side.
  induction h generalizing d n with
  | nil => exact .ok rfl
  | cons hline _ ih =>
    rw [outcome_readLines_cons, outcome_readLines_cons]
    rcases (addLine_exchanged strict d n hline).exists_or with
      ⟨⟨d', r⟩, _, rfl, hd, hd'⟩ | ⟨e, e', he, hd, hd'⟩
    · simp only [hd, hd']
      exact ih d' (n + 1)
    · simp only [hd, hd']
      exact .error he

end Reading

/-- The second dictionary answers as the first does when it is asked from the other side. -/
structure MirrorAnswers (d e : Dictionary) : Prop where
  mappedClass : ∀ name, e.mappedClass? name = d.humanClass? name
  humanClass : ∀ name, e.humanClass? name = d.mappedClass? name
  mappedField : ∀ m, e.mappedField? m = d.humanField? m
  humanField : ∀ m, e.humanField? m = d.mappedField? m
  mappedMethod : ∀ m, e.mappedMethod? m = d.humanMethod? m
  humanMethod : ∀ m, e.humanMethod? m = d.mappedMethod? m
  mappedDescriptor : ∀ s, e.toMappedDescriptor s = d.toHumanDescriptor s
  humanDescriptor : ∀ s, e.toHumanDescriptor s = d.toMappedDescriptor s

theorem mirrorAnswers_swap (d : Dictionary) : MirrorAnswers d d.swap := by
  have back {α β : Type} [DecidableEq α] (t : OneToOne α β) (a : α) : t.swap.keyOf? a = t.get? a := by
    rw [OneToOne.keyOf?_eq_get?_swap, OneToOne.swap_swap]
  have hmapped (name : String) : d.swap.mappedClass? name = d.humanClass? name :=
    (d.classes.keyOf?_eq_get?_swap name).symm
  have hhuman (name : String) : d.swap.humanClass? name = d.mappedClass? name := back d.classes name
  refine ⟨hmapped, hhuman, fun m => (d.fields.keyOf?_eq_get?_swap m).symm, back d.fields,
    fun m => (d.methods.keyOf?_eq_get?_swap m).symm, back d.methods, fun s => ?_, fun s => ?_⟩
  · simp only [toMappedDescriptor, toHumanDescriptor, hmapped]
  · simp only [toMappedDescriptor, toHumanDescriptor, hhuman]

/-- A text and the text with its sides exchanged are both read or both refused. Refused, they have the same
fault on the same line; read, their dictionaries answer each as the other does from the other side. -/
theorem parse_exchange (strict : Bool) (text : String) :
    Alike SameFault MirrorAnswers (parse strict (Text.encode text))
      (parse strict (Text.encode (exchange text))) := by
  have hlines : List.Forall₂ Exchanged (Text.byteLines (Text.encode text))
      (Text.byteLines (Text.encode (exchange text))) := by
    have h := map_lineWords_exchange text
    rw [← List.forall₂_eq_eq_eq, List.forall₂_map_left_iff, List.map_map, List.forall₂_map_right_iff] at h
    exact h.flip
  have hrun := readLines_exchanged strict empty 1 hlines
  have hempty : empty.swap = empty := rfl
  rw [hempty] at hrun
  exact hrun.mono fun d e he => he ▸ mirrorAnswers_swap d

end Dictionary
end JvmSymbols
