/-! Numerals: the values of digit strings, the decimal texts that spell a number, and the one that a number is
written as. -/
namespace JvmSymbols
namespace Numeral

/-- The value of a hexadecimal digit, which covers the digits of every smaller base. -/
def digitValue (c : Char) : Nat :=
  if c.isDigit then c.toNat - '0'.toNat
  else if 'a' ≤ c ∧ c ≤ 'f' then c.toNat - 'a'.toNat + 10
  else c.toNat - 'A'.toNat + 10

def value (base : Nat) (digits : List Char) : Nat :=
  digits.foldl (fun n c => base * n + digitValue c) 0

def limit64 : Nat := 18446744073709551616

/-- The number below `limit64` that decimal digits spell. One plus sign may precede them. -/
def unsigned64? (cs : List Char) : Option Nat :=
  let digits := if cs.head? = some '+' then cs.tail else cs
  if !digits.isEmpty && digits.all Char.isDigit && value 10 digits < limit64 then
    some (value 10 digits)
  else none

theorem value_eq_ofDigitChars {digits : List Char} (h : ∀ c ∈ digits, c.isDigit) (n : Nat) :
    digits.foldl (fun n c => 10 * n + digitValue c) n = Nat.ofDigitChars 10 digits n := by
  induction digits generalizing n with
  | nil => rfl
  | cons c cs ih =>
    have hc : digitValue c = c.toNat - '0'.toNat := by
      simp [digitValue, h c (by simp)]
    rw [List.foldl_cons, ih fun c hc => h c (List.mem_cons_of_mem _ hc), Nat.ofDigitChars_cons, hc]

theorem unsigned64?_eq_some_iff_of_digits {cs digits : List Char} {n : Nat}
    (h : (if cs.head? = some '+' then cs.tail else cs) = digits) :
    unsigned64? cs = some n ↔
      digits ≠ [] ∧ (∀ c ∈ digits, c.isDigit) ∧ value 10 digits = n ∧ n < limit64 := by
  simp only [unsigned64?, h, Option.ite_none_right_eq_some, Bool.and_eq_true, Bool.not_eq_true',
    List.isEmpty_eq_false_iff, List.all_eq_true, decide_eq_true_eq, Option.some.injEq]
  constructor
  · rintro ⟨⟨⟨hne, hdigits⟩, hlt⟩, hn⟩
    exact ⟨hne, hdigits, hn, hn ▸ hlt⟩
  · rintro ⟨hne, hdigits, hn, hlt⟩
    exact ⟨⟨⟨hne, hdigits⟩, hn ▸ hlt⟩, hn⟩

theorem unsigned64?_eq_some_iff {cs : List Char} {n : Nat} :
    unsigned64? cs = some n ↔
      ∃ digits, (cs = digits ∨ cs = '+' :: digits) ∧ digits ≠ [] ∧ (∀ c ∈ digits, c.isDigit) ∧
        value 10 digits = n ∧ n < limit64 := by
  constructor
  · intro h
    refine ⟨_, ?_, (unsigned64?_eq_some_iff_of_digits rfl).1 h⟩
    by_cases hplus : cs.head? = some '+'
    · obtain ⟨rest, rfl⟩ := List.head?_eq_some_iff.1 hplus
      exact .inr rfl
    · exact .inl (if_neg hplus).symm
  · rintro ⟨digits, hcs, h⟩
    refine (unsigned64?_eq_some_iff_of_digits ?_).2 h
    rcases hcs with rfl | rfl
    · -- A plus sign is no digit, so none stands in front.
      refine if_neg fun hplus => ?_
      have hdigit := h.2.1 '+' (List.mem_of_mem_head? hplus)
      simp at hdigit
    · rfl

theorem isDigit_of_mem_repr {n : Nat} {c : Char} (h : c ∈ n.repr.toList) : c.isDigit := by
  rw [Nat.toList_repr] at h
  exact Nat.isDigit_of_mem_toDigits (by omega) (by omega) h

theorem value_repr (n : Nat) : value 10 n.repr.toList = n := by
  rw [value, value_eq_ofDigitChars fun _ => isDigit_of_mem_repr, Nat.toList_repr,
    Nat.ofDigitChars_ten_toDigits]

theorem unsigned64?_repr {n : Nat} (h : n < limit64) : unsigned64? n.repr.toList = some n := by
  rw [unsigned64?_eq_some_iff]
  refine ⟨n.repr.toList, .inl rfl, ?_, fun _ => isDigit_of_mem_repr, value_repr n, h⟩
  rw [Nat.toList_repr]
  exact Nat.toDigits_ne_nil

end Numeral
end JvmSymbols
