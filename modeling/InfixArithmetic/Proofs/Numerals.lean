import InfixArithmetic.Proofs.TokenText

namespace InfixArithmetic.Value

/-- Decimal digits, at least one. -/
def IsDigits (digits : List Char) : Prop :=
  digits ≠ [] ∧ ∀ c ∈ digits, c.isDigit

/-- The words that write an integer, with or without a sign. -/
inductive Numeral : List Char → Int → Prop where
  | unsigned {digits : List Char} :
      IsDigits digits → Numeral digits (Nat.ofDigitChars 10 digits 0)
  | plus {digits : List Char} :
      IsDigits digits → Numeral ('+' :: digits) (Nat.ofDigitChars 10 digits 0)
  | minus {digits : List Char} :
      IsDigits digits → Numeral ('-' :: digits) (-(Nat.ofDigitChars 10 digits 0 : Int))

/-- The digits without the zeros in front, down to the last digit. -/
def stripZeros : List Char → List Char
  | '0' :: c :: rest => stripZeros (c :: rest)
  | digits => digits

/-- A numeral without a plus sign, without superfluous zeros and without a sign of zero. -/
def canonicalForm : List Char → List Char
  | '+' :: digits => stripZeros digits
  | '-' :: digits =>
      if stripZeros digits = ['0'] then ['0'] else '-' :: stripZeros digits
  | digits => stripZeros digits

/-- The word writes an integer in range. -/
def IsLiteral (word : List Char) : Prop :=
  ∃ v : Value, Numeral word v.toInt

variable {digits word : List Char}

theorem magnitude?_eq_some_iff {n : Nat} :
    magnitude? digits = some n ↔ IsDigits digits ∧ Nat.ofDigitChars 10 digits 0 = n := by
  simp [magnitude?, IsDigits]

theorem integer?_eq_some_iff {n : Int} : integer? word = some n ↔ Numeral word n := by
  constructor
  · intro h
    unfold integer? at h
    split at h
    all_goals
      simp only [Option.map_eq_some_iff, Option.bind_eq_bind, Option.bind_eq_some_iff,
        Option.pure_def, Option.some.injEq] at h
      obtain ⟨_, ⟨magnitude, hmagnitude, rfl⟩, rfl⟩ := h
      obtain ⟨hdigits, rfl⟩ := magnitude?_eq_some_iff.mp hmagnitude
    · exact .minus hdigits
    · exact .plus hdigits
    · exact .unsigned hdigits
  · intro h
    cases h with
    | unsigned hdigits =>
        rw [integer?_of_isDigit hdigits.2, magnitude?_eq_some_iff.mpr ⟨hdigits, rfl⟩]
        rfl
    | plus hdigits =>
        rw [integer?, magnitude?_eq_some_iff.mpr ⟨hdigits, rfl⟩]
        rfl
    | minus hdigits =>
        rw [integer?, magnitude?_eq_some_iff.mpr ⟨hdigits, rfl⟩]
        rfl

theorem ofDecimal?_eq_some_iff {v : Value} : ofDecimal? word = some v ↔ Numeral word v.toInt := by
  rw [ofDecimal?, Option.bind_eq_some_iff]
  constructor
  · rintro ⟨n, hn, hv⟩
    rw [ofInt?_eq_some_iff] at hv
    rw [hv]
    exact integer?_eq_some_iff.mp hn
  · intro h
    exact ⟨v.toInt, integer?_eq_some_iff.mpr h, ofInt?_toInt v⟩

theorem isSome_ofDecimal?_iff : (ofDecimal? word).isSome ↔ IsLiteral word := by
  rw [Option.isSome_iff_exists]
  exact exists_congr fun _ => ofDecimal?_eq_some_iff

instance : DecidablePred IsLiteral := fun _ => decidable_of_iff _ isSome_ofDecimal?_iff

theorem exists_digitChar_of_isDigit {c : Char} (h : c.isDigit) : ∃ d < 10, c = Nat.digitChar d := by
  have hrange : 48 ≤ c.toNat ∧ c.toNat ≤ 57 := Char.isDigit_iff_toNat.mp h
  refine ⟨c.toNat - 48, by omega, ?_⟩
  apply Char.toNat_inj.mp
  rw [Nat.toNat_digitChar_of_lt_ten (by omega)]
  omega

theorem toDigits_append {n : Nat} (hpos : 0 < n) (h : ∀ c ∈ digits, c.isDigit) :
    Nat.toDigits 10 n ++ digits = Nat.toDigits 10 (Nat.ofDigitChars 10 digits n) := by
  induction digits generalizing n with
  | nil => rw [List.append_nil, Nat.ofDigitChars_nil]
  | cons c digits ih =>
      obtain ⟨hc, hdigits⟩ := List.forall_mem_cons.mp h
      obtain ⟨d, hd, rfl⟩ := exists_digitChar_of_isDigit hc
      rw [Nat.ofDigitChars_cons_digitChar_of_lt_ten hd, ← ih (by omega) hdigits,
        ← Nat.toDigits_append_toDigits (by decide) hpos hd, Nat.toDigits_of_lt_base hd,
        List.append_assoc, List.singleton_append]

theorem toDigits_ofDigitChars (h : IsDigits digits) :
    Nat.toDigits 10 (Nat.ofDigitChars 10 digits 0) = stripZeros digits := by
  obtain ⟨hnonempty, hdigits⟩ := h
  fun_induction stripZeros digits with
  | case1 c rest ih =>
      rw [Nat.ofDigitChars_cons]
      exact ih (List.cons_ne_nil c rest) (List.forall_mem_cons.mp hdigits).2
  | case2 digits hkept =>
      cases digits with
      | nil => exact absurd rfl hnonempty
      | cons c rest =>
          obtain ⟨hc, hrest⟩ := List.forall_mem_cons.mp hdigits
          obtain ⟨d, hd, rfl⟩ := exists_digitChar_of_isDigit hc
          rcases Nat.eq_zero_or_pos d with rfl | hpos
          · -- A zero in front has been kept only if no digit follows it.
            cases rest with
            | nil => rfl
            | cons c' rest' => exact absurd rfl (hkept c' rest')
          · rw [Nat.ofDigitChars_cons_digitChar_of_lt_ten hd, Nat.mul_zero, Nat.zero_add,
              ← toDigits_append hpos hrest, Nat.toDigits_of_lt_base hd, List.singleton_append]

theorem canonicalForm_of_isDigit (h : ∀ c ∈ digits, c.isDigit) :
    canonicalForm digits = stripZeros digits := by
  unfold canonicalForm
  split
  next => simp at h
  next => simp at h
  next => rfl

theorem toList_repr_natCast (n : Nat) : (n : Int).repr.toList = Nat.toDigits 10 n := by
  rw [← Nat.toList_repr]
  rfl

theorem Numeral.toList_repr {n : Int} (h : Numeral word n) :
    n.repr.toList = canonicalForm word := by
  cases h with
  | unsigned hdigits =>
      rw [toList_repr_natCast, toDigits_ofDigitChars hdigits, canonicalForm_of_isDigit hdigits.2]
  | plus hdigits => rw [toList_repr_natCast, toDigits_ofDigitChars hdigits, canonicalForm]
  | @minus digits hdigits =>
      rw [canonicalForm, ← toDigits_ofDigitChars hdigits]
      cases Nat.ofDigitChars 10 digits 0 with
      | zero => rfl
      | succ magnitude =>
          have hpositive : Nat.toDigits 10 (magnitude + 1) ≠ ['0'] := by
            intro hzero
            have hread := Nat.ofDigitChars_ten_toDigits (n := magnitude + 1)
            rw [hzero] at hread
            cases hread
          rw [if_neg hpositive]
          exact toList_repr_neg magnitude

end InfixArithmetic.Value
