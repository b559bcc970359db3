import InfixArithmetic.Tokenize

namespace InfixArithmetic

namespace Value

theorem magnitude?_toDigits (n : Nat) : magnitude? (Nat.toDigits 10 n) = some n := by
  have hnonempty : (Nat.toDigits 10 n).isEmpty = false := by
    rw [List.isEmpty_eq_false_iff]
    exact Nat.toDigits_ne_nil
  have hdigits : (Nat.toDigits 10 n).all Char.isDigit = true := by
    rw [List.all_eq_true]
    intro c hc
    exact Nat.isDigit_of_mem_toDigits (by decide) (by decide) hc
  rw [magnitude?, hnonempty, hdigits, Nat.ofDigitChars_toDigits (by decide) (by decide)]
  rfl

theorem integer?_of_isDigit {digits : List Char} (h : ∀ c ∈ digits, c.isDigit) :
    integer? digits = (magnitude? digits).map fun n => (n : Int) := by
  unfold integer?
  split
  next => simp at h
  next => simp at h
  next => rfl

theorem toList_repr_neg (n : Nat) :
    (Int.repr (Int.negSucc n)).toList = '-' :: Nat.toDigits 10 (n + 1) := by
  rw [Int.repr, String.toList_append, Nat.toList_repr]
  rfl

theorem integer?_repr (n : Int) : integer? n.repr.toList = some n := by
  cases n with
  | ofNat n =>
      rw [Int.repr, Nat.toList_repr, integer?_of_isDigit, magnitude?_toDigits]
      · rfl
      · intro c hc
        exact Nat.isDigit_of_mem_toDigits (by decide) (by decide) hc
  | negSucc n =>
      rw [toList_repr_neg, integer?, magnitude?_toDigits]
      rfl

theorem ofDecimal?_decimal (v : Value) : ofDecimal? v.decimal.toList = some v := by
  rw [ofDecimal?, decimal, integer?_repr, Option.bind_some, ofInt?_toInt]

theorem eq_minus_or_isDigit_of_mem_decimal {v : Value} {c : Char} (h : c ∈ v.decimal.toList) :
    c = '-' ∨ c.isDigit := by
  rw [decimal] at h
  cases hv : v.toInt with
  | ofNat n =>
      rw [hv, Int.repr, Nat.toList_repr] at h
      exact .inr (Nat.isDigit_of_mem_toDigits (by decide) (by decide) h)
  | negSucc n =>
      rw [hv, toList_repr_neg, List.mem_cons] at h
      exact h.imp_right (Nat.isDigit_of_mem_toDigits (by decide) (by decide))

theorem decimal_ne_nil (v : Value) : v.decimal.toList ≠ [] := by
  intro h
  have hread := ofDecimal?_decimal v
  rw [h] at hread
  cases hread

end Value

namespace Text

/-- A word that stays whole in any text where blanks stand around it. -/
def IsAtom (word : List Char) : Prop :=
  word ≠ [] ∧ ∀ c ∈ word, isBlank c = false

theorem isBlank_of_isDigit {c : Char} (h : c.isDigit) : isBlank c = false := by
  have hrange : 48 ≤ c.toNat ∧ c.toNat ≤ 57 := Char.isDigit_iff_toNat.mp h
  simp only [isBlank, Bool.or_eq_false_iff, Bool.and_eq_false_iff, decide_eq_false_iff_not,
    beq_eq_false_iff_ne]
  omega

theorem atoms_cons_of_blank {blank : Char} (h : isBlank blank = true) (rest : List Char) :
    atoms (blank :: rest) = atoms rest := by
  rw [atoms, if_pos h]

theorem atoms_append_blank {word : List Char} (h : IsAtom word) {blank : Char}
    (hblank : isBlank blank = true) (rest : List Char) :
    atoms (word ++ blank :: rest) = word :: atoms rest := by
  obtain ⟨hnonempty, hword⟩ := h
  induction word with
  | nil => exact absurd rfl hnonempty
  | cons c word ih =>
      obtain ⟨hc, hword⟩ := List.forall_mem_cons.mp hword
      cases word with
      | nil =>
          rw [List.singleton_append, atoms, atoms_cons_of_blank hblank]
          cases atoms rest <;> simp [hc, hblank]
      | cons c' word =>
          have hc' := hword c' (List.mem_cons_self)
          rw [List.cons_append, atoms, ih (List.cons_ne_nil _ _) hword]
          simp [hc, hc']

theorem atoms_of_isAtom {word : List Char} (h : IsAtom word) : atoms word = [word] := by
  obtain ⟨hnonempty, hword⟩ := h
  induction word with
  | nil => exact absurd rfl hnonempty
  | cons c word ih =>
      obtain ⟨hc, hword⟩ := List.forall_mem_cons.mp hword
      cases word with
      | nil => simp [atoms, hc]
      | cons c' word =>
          have hc' := hword c' (List.mem_cons_self)
          rw [atoms, ih (List.cons_ne_nil _ _) hword]
          simp [hc, hc']

theorem atoms_intercalate {words : List (List Char)} (h : ∀ word ∈ words, IsAtom word) :
    atoms ([' '].intercalate words) = words := by
  induction words with
  | nil => rfl
  | cons word rest ih =>
      obtain ⟨hword, hrest⟩ := List.forall_mem_cons.mp h
      cases rest with
      | nil => rw [List.intercalate_singleton, atoms_of_isAtom hword]
      | cons next rest =>
          rw [List.intercalate_cons_cons, List.append_assoc, List.singleton_append,
            atoms_append_blank hword (by rfl), ih hrest]

end Text

namespace Token

/-- The token can be told from its text, also next to others. -/
def Legible (t : Token) : Prop :=
  Text.IsAtom t.text.toList ∧ ofText t.text = t

theorem ofText_of_ofDecimal? {text : String} {v : Value}
    (h : Value.ofDecimal? text.toList = some v) : ofText text = literal v := by
  unfold ofText
  split
  -- None of the symbols is a number, so only the last case is left.
  case h_7 => rw [h]
  all_goals
    next htext =>
      rw [htext] at h
      cases h

theorem legible_literal (v : Value) : (literal v).Legible := by
  refine ⟨⟨v.decimal_ne_nil, ?_⟩, ofText_of_ofDecimal? v.ofDecimal?_decimal⟩
  intro c hc
  rcases Value.eq_minus_or_isDigit_of_mem_decimal hc with rfl | hdigit
  · rfl
  · exact Text.isBlank_of_isDigit hdigit

theorem toList_text_operator (op : Operator) : (operator op).text.toList = [op.symbol] := by
  cases op <;> rfl

theorem isBlank_symbol (op : Operator) : Text.isBlank op.symbol = false := by
  cases op <;> rfl

theorem legible_operator (op : Operator) : (operator op).Legible := by
  refine ⟨⟨?_, ?_⟩, ?_⟩
  · rw [toList_text_operator]
    exact List.cons_ne_nil _ _
  · rw [toList_text_operator, List.forall_mem_singleton]
    exact isBlank_symbol op
  · cases op <;> rfl

end Token

theorem outcome_tokenize_of_atoms {text : String} {ts : List Token} (hnonempty : ts ≠ [])
    (h : (Text.atoms text.toList).map (fun atom => Token.ofText (String.ofList atom)) = ts) :
    (tokenize text).outcome = .ok ts := by
  have hsome : ts.isEmpty = false := List.isEmpty_eq_false_iff.mpr hnonempty
  simp only [tokenize, h, hsome]
  rfl

theorem outcome_tokenize_joinText {ts : List Token} (hnonempty : ts ≠ [])
    (h : ∀ t ∈ ts, t.Legible) : (tokenize (Token.joinText ts)).outcome = .ok ts := by
  have hwords : ∀ word ∈ ts.map fun t => t.text.toList, Text.IsAtom word := by
    intro word hword
    obtain ⟨t, ht, rfl⟩ := List.mem_map.mp hword
    exact (h t ht).1
  have hatoms : Text.atoms (Token.joinText ts).toList = ts.map fun t => t.text.toList := by
    rw [Token.joinText, String.toList_intercalate, List.map_map]
    exact Text.atoms_intercalate hwords
  apply outcome_tokenize_of_atoms hnonempty
  rw [hatoms, List.map_map, List.map_congr_left (g := id), List.map_id]
  intro t ht
  rw [Function.comp_apply, String.ofList_toList]
  exact (h t ht).2

end InfixArithmetic
