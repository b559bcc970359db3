import InfixArithmetic.Proofs.Numerals

namespace InfixArithmetic

namespace Text

/-- The words that make up a text, together with any blanks around them and at least one between
two of them. -/
inductive Separated : List Char → List (List Char) → Prop where
  | nil : Separated [] []
  | blank {c : Char} {rest : List Char} {words : List (List Char)} :
      isBlank c → Separated rest words → Separated (c :: rest) words
  | last {word : List Char} : IsAtom word → Separated word [word]
  | word {word rest : List Char} {c : Char} {words : List (List Char)} :
      IsAtom word → isBlank c → Separated rest words →
      Separated (word ++ c :: rest) (word :: words)

/-- The word as its token is written: literals in canonical form, other words as they are. -/
def normalForm (word : List Char) : List Char :=
  if Value.IsLiteral word then Value.canonicalForm word else word

variable {text word : List Char} {words : List (List Char)}

theorem IsAtom.singleton {c : Char} (h : isBlank c = false) : IsAtom [c] :=
  ⟨List.cons_ne_nil c [], List.forall_mem_singleton.mpr h⟩

theorem IsAtom.cons {c : Char} (h : isBlank c = false) (hword : IsAtom word) :
    IsAtom (c :: word) :=
  ⟨List.cons_ne_nil c word, List.forall_mem_cons.mpr ⟨h, hword.2⟩⟩

theorem Separated.atoms_eq (h : Separated text words) : atoms text = words := by
  induction h with
  | nil => rfl
  | blank hblank _ ih => rw [atoms_cons_of_blank hblank, ih]
  | last hword => exact atoms_of_isAtom hword
  | word hword hblank _ ih => rw [atoms_append_blank hword hblank, ih]

theorem Separated.isAtom (h : Separated text words) : ∀ word ∈ words, IsAtom word := by
  induction h with
  | nil => exact List.forall_mem_nil _
  | blank _ _ ih => exact ih
  | last hword => exact List.forall_mem_singleton.mpr hword
  | word hword _ _ ih => exact List.forall_mem_cons.mpr ⟨hword, ih⟩

theorem exists_separated (text : List Char) : ∃ words, Separated text words := by
  induction text with
  | nil => exact ⟨[], .nil⟩
  | cons c rest ih =>
      obtain ⟨words, hrest⟩ := ih
      cases hc : isBlank c with
      | true => exact ⟨words, .blank hc hrest⟩
      | false =>
          -- The character is a word of its own unless the rest starts with a word.
          cases hrest with
          | nil => exact ⟨[[c]], .last (.singleton hc)⟩
          | blank hblank hrest => exact ⟨_, .word (.singleton hc) hblank hrest⟩
          | last hword => exact ⟨_, .last (hword.cons hc)⟩
          | word hword hblank hrest => exact ⟨_, .word (hword.cons hc) hblank hrest⟩

theorem separated_atoms (text : List Char) : Separated text (atoms text) := by
  obtain ⟨words, h⟩ := exists_separated text
  rw [h.atoms_eq]
  exact h

theorem Separated.isBlank_of_eq_nil (h : Separated text words) (hnone : words = []) :
    ∀ c ∈ text, isBlank c := by
  induction h with
  | nil => exact List.forall_mem_nil _
  | blank hblank _ ih => exact List.forall_mem_cons.mpr ⟨hblank, ih hnone⟩
  | last _ => cases hnone
  | word _ _ _ _ => cases hnone

theorem atoms_eq_nil_iff : atoms text = [] ↔ ∀ c ∈ text, isBlank c := by
  constructor
  · exact (separated_atoms text).isBlank_of_eq_nil
  · intro h
    induction text with
    | nil => rfl
    | cons c rest ih =>
        obtain ⟨hc, hrest⟩ := List.forall_mem_cons.mp h
        rw [atoms_cons_of_blank hc, ih hrest]

end Text

namespace Token

theorem text_ofText_of_ofDecimal?_eq_none {text : String}
    (h : Value.ofDecimal? text.toList = none) : (ofText text).text = text := by
  unfold ofText
  split
  case h_7 =>
    rw [h]
    rfl
  all_goals
    next htext =>
      apply String.toList_injective
      rw [htext]
      rfl

theorem text_ofText (word : List Char) :
    (ofText (String.ofList word)).text = String.ofList (Text.normalForm word) := by
  have hword : (String.ofList word).toList = word := String.toList_ofList
  by_cases h : Value.IsLiteral word
  · rw [Text.normalForm, if_pos h]
    obtain ⟨v, hv⟩ := h
    have hread : Value.ofDecimal? (String.ofList word).toList = some v := by
      rw [hword]
      exact Value.ofDecimal?_eq_some_iff.mpr hv
    rw [ofText_of_ofDecimal? hread, ← hv.toList_repr, String.ofList_toList]
    rfl
  · rw [Text.normalForm, if_neg h]
    apply text_ofText_of_ofDecimal?_eq_none
    rw [hword, ← Option.not_isSome_iff_eq_none, Value.isSome_ofDecimal?_iff]
    exact h

theorem eq_of_ofText_eq_unrecognized {text text' : String} (h : ofText text = unrecognized text') :
    text' = text := by
  cases hread : Value.ofDecimal? text.toList with
  | some v =>
      rw [ofText_of_ofDecimal? hread] at h
      cases h
  | none =>
      have hsame := text_ofText_of_ofDecimal?_eq_none hread
      rw [h] at hsame
      exact hsame

theorem legible_of_isParenthesis {t : Token} (h : t.isParenthesis) : t.Legible := by
  cases t with
  | openParen => exact ⟨Text.IsAtom.singleton rfl, rfl⟩
  | closeParen => exact ⟨Text.IsAtom.singleton rfl, rfl⟩
  | _ => cases h

theorem legible_ofText {text : String} (h : Text.IsAtom text.toList) : (ofText text).Legible := by
  cases htoken : ofText text with
  | literal v => exact legible_literal v
  | operator op => exact legible_operator op
  | openParen => exact legible_of_isParenthesis rfl
  | closeParen => exact legible_of_isParenthesis rfl
  | unrecognized text' =>
      obtain rfl := eq_of_ofText_eq_unrecognized htoken
      exact ⟨h, htoken⟩

end Token

theorem outcome_tokenize_of_atoms_eq_nil {text : String} (h : Text.atoms text.toList = []) :
    (tokenize text).outcome = .error .emptyInput := by
  simp only [tokenize, h]
  rfl

theorem outcome_tokenize_eq_ok_iff {text : String} {ts : List Token} :
    (tokenize text).outcome = .ok ts ↔
      ts ≠ [] ∧
        (Text.atoms text.toList).map (fun word => Token.ofText (String.ofList word)) = ts := by
  constructor
  · intro h
    by_cases hnone : Text.atoms text.toList = []
    · rw [outcome_tokenize_of_atoms_eq_nil hnone] at h
      cases h
    · rw [outcome_tokenize_of_atoms (mt List.map_eq_nil_iff.mp hnone) rfl] at h
      cases h
      exact ⟨mt List.map_eq_nil_iff.mp hnone, rfl⟩
  · rintro ⟨hsome, htokens⟩
    exact outcome_tokenize_of_atoms hsome htokens

theorem outcome_tokenize_eq_error_iff {text : String} {error : ParseError} :
    (tokenize text).outcome = .error error ↔
      error = .emptyInput ∧ ∀ c ∈ text.toList, Text.isBlank c := by
  rw [← Text.atoms_eq_nil_iff]
  by_cases hnone : Text.atoms text.toList = []
  · rw [outcome_tokenize_of_atoms_eq_nil hnone, and_iff_left hnone, Except.error.injEq, eq_comm]
  · rw [outcome_tokenize_of_atoms (mt List.map_eq_nil_iff.mp hnone) rfl]
    exact iff_of_false nofun fun h => hnone h.2

theorem legible_of_outcome_tokenize {text : String} {ts : List Token}
    (h : (tokenize text).outcome = .ok ts) : ∀ t ∈ ts, t.Legible := by
  intro t ht
  rw [← (outcome_tokenize_eq_ok_iff.mp h).2] at ht
  obtain ⟨word, hword, rfl⟩ := List.mem_map.mp ht
  apply Token.legible_ofText
  rw [String.toList_ofList]
  exact (Text.separated_atoms text.toList).isAtom word hword

/-- Tokens that are written and read again are the same tokens, and what is written is the text that
they were read from, up to its blanks and the form of its literals. Only a text of blanks has no
tokens. -/
theorem joinText_reads_back (text : String) :
    (∀ ts, (tokenize text).outcome = .ok ts →
      (tokenize (Token.joinText ts)).outcome = .ok ts ∧
      ∃ words, Text.Separated text.toList words ∧
        Token.joinText ts =
          " ".intercalate (words.map fun word => String.ofList (Text.normalForm word))) ∧
    (∀ error, (tokenize text).outcome = .error error ↔
      error = .emptyInput ∧ ∀ c ∈ text.toList, Text.isBlank c) := by
  refine ⟨?_, fun _ => outcome_tokenize_eq_error_iff⟩
  intro ts h
  obtain ⟨hsome, htokens⟩ := outcome_tokenize_eq_ok_iff.mp h
  refine ⟨outcome_tokenize_joinText hsome (legible_of_outcome_tokenize h),
    Text.atoms text.toList, Text.separated_atoms text.toList, ?_⟩
  rw [Token.joinText, ← htokens, List.map_map]
  congr 1
  exact List.map_congr_left fun word _ => Token.text_ofText word

theorem joinText_reads_back_of_odd_words :
    let text := " +007\t-0\u3000- -002147483648 02147483648 ( +x"
    let ts : List Token := [.literal { toInt := 7 }, .literal 0, .operator .subtract,
      .literal { toInt := -2147483648 }, .unrecognized "02147483648", .openParen,
      .unrecognized "+x"]
    (tokenize text).outcome = .ok ts ∧
      (tokenize (Token.joinText ts)).outcome = .ok ts ∧
      ∃ words, Text.Separated text.toList words ∧
        Token.joinText ts =
          " ".intercalate (words.map fun word => String.ofList (Text.normalForm word)) := by
  intro text ts
  have htokens : (tokenize text).outcome = .ok ts :=
    outcome_tokenize_of_atoms (List.cons_ne_nil _ _) (by decide)
  exact ⟨htokens, (joinText_reads_back text).1 ts htokens⟩

end InfixArithmetic
