import InfixArithmetic.Bracket

namespace InfixArithmetic

theorem getElem?_of_drop_eq_cons {tokens rest : List Token} {position : Nat} {token : Token}
    (h : tokens.drop position = token :: rest) : tokens[position]? = some token := by
  have hhead : (tokens.drop position)[0]? = some token := by rw [h]; rfl
  rwa [List.getElem?_drop] at hhead

theorem drop_eq_cons_of_getElem? {tokens : List Token} {position : Nat} {token : Token}
    (h : tokens[position]? = some token) :
    tokens.drop position = token :: tokens.drop (position + 1) := by
  obtain ⟨hlt, rfl⟩ := List.getElem?_eq_some_iff.mp h
  exact List.drop_eq_getElem_cons hlt

theorem drop_add_of_drop_eq_append {tokens first rest : List Token} {position : Nat}
    (h : tokens.drop position = first ++ rest) :
    tokens.drop (position + first.length) = rest := by
  rw [← List.drop_drop, h, List.drop_left]

theorem take_succ_of_getElem? {tokens : List Token} {position : Nat} {token : Token}
    (h : tokens[position]? = some token) :
    tokens.take (position + 1) = tokens.take position ++ [token] := by
  rw [List.take_add_one, h, Option.toList_some]

theorem extract_of_drop_eq_group {tokens inside rest : List Token} {position : Nat}
    (h : tokens.drop position = .openParen :: (inside ++ .closeParen :: rest)) :
    tokens.extract (position + 1) (position + 1 + inside.length) = inside := by
  rw [List.extract_eq_take_drop, Nat.add_sub_cancel_left, ← List.drop_drop, h, List.drop_one,
    List.tail_cons, List.take_left]

theorem extract_group_of_drop_eq_group {tokens inside rest : List Token} {position : Nat}
    (h : tokens.drop position = .openParen :: (inside ++ .closeParen :: rest)) :
    tokens.extract position (position + 1 + inside.length + 1) =
      .openParen :: inside ++ [.closeParen] := by
  have hlength : position + 1 + inside.length + 1 - position =
      (Token.openParen :: inside ++ [Token.closeParen]).length := by
    simp only [List.length_append, List.length_cons, List.length_nil]
    omega
  have hgroup : Token.openParen :: (inside ++ .closeParen :: rest) =
      (Token.openParen :: inside ++ [Token.closeParen]) ++ rest := by
    simp
  rw [List.extract_eq_take_drop, h, hlength, hgroup, List.take_left]

theorem take_of_drop_eq_group {tokens inside rest : List Token} {position : Nat}
    (h : tokens.drop position = .openParen :: (inside ++ .closeParen :: rest)) :
    tokens.take (position + 1 + inside.length + 1) =
      tokens.take position ++ (Token.openParen :: inside ++ [Token.closeParen]) := by
  have hlength : position + 1 + inside.length + 1 = position + (inside.length + 2) := by omega
  rw [← extract_group_of_drop_eq_group h, List.extract_eq_take_drop, hlength,
    Nat.add_sub_cancel_left, List.take_add]

theorem drop_close_of_drop_eq_group {tokens inside rest : List Token} {position : Nat}
    (h : tokens.drop position = .openParen :: (inside ++ .closeParen :: rest)) :
    tokens.drop (position + 1 + inside.length) = .closeParen :: rest := by
  have hinside : tokens.drop (position + 1) = inside ++ .closeParen :: rest := by
    rw [← List.drop_drop, h, List.drop_one, List.tail_cons]
  exact drop_add_of_drop_eq_append hinside

theorem drop_of_drop_eq_group {tokens inside rest : List Token} {position : Nat}
    (h : tokens.drop position = .openParen :: (inside ++ .closeParen :: rest)) :
    tokens.drop (position + 1 + inside.length + 1) = rest := by
  rw [← List.drop_drop, drop_close_of_drop_eq_group h, List.drop_one, List.tail_cons]

namespace Bracket

/-- The number of open groups after several tokens, or nothing if one of them closes a group that
was never opened. -/
def depthThrough (depth : Nat) (tokens : List Token) : Option Nat :=
  tokens.foldlM depthAfter depth

@[simp] theorem depthThrough_nil (depth : Nat) : depthThrough depth [] = some depth := rfl

@[simp] theorem depthThrough_cons (depth : Nat) (token : Token) (rest : List Token) :
    depthThrough depth (token :: rest) =
      (depthAfter depth token).bind fun depth' => depthThrough depth' rest := rfl

@[simp] theorem depthThrough_append (depth : Nat) (first second : List Token) :
    depthThrough depth (first ++ second) =
      (depthThrough depth first).bind fun depth' => depthThrough depth' second :=
  List.foldlM_append

theorem depthAfter_eq_none_iff {depth : Nat} {token : Token} :
    depthAfter depth token = none ↔ token = .closeParen ∧ depth = 0 := by
  cases token <;> simp [depthAfter]

theorem depthAfter_add_of_eq_some {depth depth' : Nat} {token : Token} (extra : Nat)
    (h : depthAfter depth token = some depth') :
    depthAfter (depth + extra) token = some (depth' + extra) := by
  cases token with
  | openParen =>
      simp only [depthAfter, Option.some.injEq] at h ⊢
      omega
  | closeParen =>
      simp only [depthAfter, Option.ite_none_left_eq_some, Option.some.injEq] at h ⊢
      omega
  | _ => simp_all [depthAfter]

theorem forall_take_cons_iff {P : List Token → Prop} {token : Token} {rest : List Token}
    (hnil : P []) : (∀ n, P ((token :: rest).take n)) ↔ ∀ n, P (token :: rest.take n) := by
  constructor
  · intro h n
    exact h (n + 1)
  · rintro h (_ | n)
    · exact hnil
    · exact h n

/-- A depth is reached exactly when it accounts for all parentheses and no prefix closes more
groups than are open. -/
theorem depthThrough_eq_some_iff {depth depth' : Nat} {tokens : List Token} :
    depthThrough depth tokens = some depth' ↔
      depth + tokens.count .openParen = depth' + tokens.count .closeParen ∧
        ∀ n, (tokens.take n).count .closeParen ≤ depth + (tokens.take n).count .openParen := by
  induction tokens generalizing depth with
  | nil => simp
  | cons token rest ih =>
      rw [depthThrough_cons, forall_take_cons_iff (P := fun tokens =>
        tokens.count .closeParen ≤ depth + tokens.count .openParen) (by simp)]
      cases token with
      | openParen =>
          simp only [depthAfter, Option.bind_some, ih, List.count_cons_self, ne_eq, reduceCtorEq,
            not_false_eq_true, List.count_cons_of_ne]
          exact and_congr (by omega) (forall_congr' fun n => by omega)
      | closeParen =>
          cases depth with
          | zero =>
              simp only [depthAfter, if_true, Option.bind_none, reduceCtorEq, false_iff]
              rintro ⟨_, h⟩
              simpa using h 0
          | succ depth =>
              simp only [depthAfter, Nat.add_eq_zero_iff, Nat.one_ne_zero, and_false, if_false,
                Nat.add_sub_cancel, Option.bind_some, ih, List.count_cons_self, ne_eq,
                reduceCtorEq, not_false_eq_true, List.count_cons_of_ne]
              exact and_congr (by omega) (forall_congr' fun n => by omega)
      | _ => simp [depthAfter, ih]

theorem balanced_iff_depthThrough {tokens : List Token} :
    Balanced tokens ↔ depthThrough 0 tokens = some 0 := by
  simp [Balanced, depthThrough_eq_some_iff]

theorem Balanced.depthThrough {tokens : List Token} (h : Balanced tokens) (depth : Nat) :
    depthThrough depth tokens = some depth := by
  rw [depthThrough_eq_some_iff]
  refine ⟨by rw [h.1], fun n => ?_⟩
  have hprefix := h.2 n
  omega

theorem Balanced.append {first second : List Token} (h : Balanced first) (k : Balanced second) :
    Balanced (first ++ second) := by
  rw [balanced_iff_depthThrough, depthThrough_append, h.depthThrough, Option.bind_some,
    k.depthThrough]

theorem Balanced.of_append {first second : List Token} (h : Balanced first)
    (k : Balanced (first ++ second)) : Balanced second := by
  rw [balanced_iff_depthThrough, depthThrough_append, h.depthThrough, Option.bind_some] at k
  exact balanced_iff_depthThrough.mpr k

theorem not_balanced_closeParen_cons (rest : List Token) : ¬Balanced (.closeParen :: rest) := by
  rw [balanced_iff_depthThrough]
  simp [depthAfter]

theorem Balanced.not_balanced_append_closeParen {before : List Token} (h : Balanced before)
    (rest : List Token) : ¬Balanced (before ++ .closeParen :: rest) := by
  intro hwhole
  exact not_balanced_closeParen_cons rest (h.of_append hwhole)

theorem balanced_singleton {token : Token} (h : token.isParenthesis = false) :
    Balanced [token] := by
  rw [balanced_iff_depthThrough]
  cases token <;> simp_all [depthAfter, Token.isParenthesis]

theorem Balanced.group {inside : List Token} (h : Balanced inside) :
    Balanced (.openParen :: inside ++ [.closeParen]) := by
  rw [balanced_iff_depthThrough]
  simp [depthAfter, h.depthThrough]

/-- With one group more open than before, the search stops where the tokens in between have closed
the others. -/
theorem closeFrom_succ_eq_some_iff {depth index close : Nat} {tokens : List Token} :
    closeFrom (depth + 1) index tokens = some close ↔
      ∃ inside rest, tokens = inside ++ .closeParen :: rest ∧
        depthThrough depth inside = some 0 ∧ close = index + inside.length := by
  induction tokens generalizing depth index with
  | nil => simp [closeFrom]
  | cons token tokens ih =>
      cases hafter : depthAfter depth token with
      | none =>
          obtain ⟨rfl, rfl⟩ := depthAfter_eq_none_iff.mp hafter
          simp only [closeFrom, depthAfter, Nat.zero_add, Nat.one_ne_zero, if_false,
            Nat.sub_self, and_self, if_true, Option.some.injEq]
          constructor
          · rintro rfl
            exact ⟨[], tokens, rfl, rfl, rfl⟩
          · rintro ⟨_ | ⟨token, inside⟩, rest, htokens, hinside, rfl⟩
            · rfl
            · cases htokens
              simp [depthAfter] at hinside
      | some depth' =>
          rw [closeFrom, depthAfter_add_of_eq_some 1 hafter]
          simp only [Nat.add_eq_zero_iff, Nat.one_ne_zero, and_false, if_false]
          rw [ih]
          constructor
          · rintro ⟨inside, rest, rfl, hinside, rfl⟩
            refine ⟨token :: inside, rest, rfl, ?_, ?_⟩
            · rw [depthThrough_cons, hafter, Option.bind_some, hinside]
            · rw [List.length_cons]
              omega
          · rintro ⟨_ | ⟨_, inside⟩, rest, htokens, hinside, rfl⟩
            · cases htokens
              cases hinside
              simp [depthAfter] at hafter
            · cases htokens
              rw [depthThrough_cons, hafter, Option.bind_some] at hinside
              refine ⟨inside, rest, rfl, hinside, ?_⟩
              rw [List.length_cons]
              omega

theorem matchingClose?_eq_some_iff {tokens after : List Token} {start close : Nat}
    (h : tokens.drop start = .openParen :: after) :
    matchingClose? tokens start = some close ↔
      ∃ inside rest, after = inside ++ .closeParen :: rest ∧ Balanced inside ∧
        close = start + 1 + inside.length := by
  rw [matchingClose?, h, closeFrom, depthAfter]
  simp only [reduceCtorEq, false_and, if_false, closeFrom_succ_eq_some_iff,
    balanced_iff_depthThrough]

/-- The parenthesis at `close` closes the group that is opened at `start`. -/
structure Closes (tokens : List Token) (start close : Nat) : Prop where
  start_lt : start < close
  isCloseParen : tokens[close]? = some .closeParen
  balanced : Balanced (tokens.extract (start + 1) close)

theorem closes_of_drop_eq_group {tokens inside rest : List Token} {start : Nat}
    (h : tokens.drop start = .openParen :: (inside ++ .closeParen :: rest))
    (hinside : Balanced inside) : Closes tokens start (start + 1 + inside.length) where
  start_lt := by omega
  isCloseParen := getElem?_of_drop_eq_cons (drop_close_of_drop_eq_group h)
  balanced := by
    rw [extract_of_drop_eq_group h]
    exact hinside

theorem Closes.drop_eq_group {tokens : List Token} {start close : Nat}
    (h : Closes tokens start close) :
    tokens.drop (start + 1) =
      tokens.extract (start + 1) close ++ .closeParen :: tokens.drop (close + 1) := by
  have hclose : tokens.drop close = (tokens.drop (start + 1)).drop (close - (start + 1)) := by
    rw [List.drop_drop, Nat.add_sub_cancel' h.start_lt]
  rw [← drop_eq_cons_of_getElem? h.isCloseParen, List.extract_eq_take_drop, hclose,
    List.take_append_drop]

theorem Closes.eq_add_length {tokens : List Token} {start close : Nat}
    (h : Closes tokens start close) :
    close = start + 1 + (tokens.extract (start + 1) close).length := by
  have hlt := h.start_lt
  obtain ⟨hclose, -⟩ := List.getElem?_eq_some_iff.mp h.isCloseParen
  rw [List.extract_eq_take_drop, List.length_take, List.length_drop]
  omega

theorem matchingClose?_eq_some_iff_closes {tokens : List Token} {start close : Nat}
    (h : tokens[start]? = some .openParen) :
    matchingClose? tokens start = some close ↔ Closes tokens start close := by
  have hdrop := drop_eq_cons_of_getElem? h
  rw [matchingClose?_eq_some_iff hdrop]
  constructor
  · rintro ⟨inside, rest, hafter, hinside, rfl⟩
    rw [hafter] at hdrop
    exact closes_of_drop_eq_group hdrop hinside
  · intro hcloses
    exact ⟨_, _, hcloses.drop_eq_group, hcloses.balanced, hcloses.eq_add_length⟩

theorem eq_closeParen_of_depthAfter {depth : Nat} {token : Token}
    (h : depthAfter (depth + 1) token = some 0) : token = .closeParen := by
  cases token <;> simp_all [depthAfter]

theorem exists_closeFrom_drop {depth index count : Nat} {tokens : List Token}
    (h : ∀ close, closeFrom (depth + 1) index tokens = some close → index + count ≤ close) :
    ∃ depth', depthThrough (depth + 1) (tokens.take count) = some (depth' + 1) ∧
      closeFrom (depth + 1) index tokens =
        closeFrom (depth' + 1) (index + count) (tokens.drop count) := by
  induction tokens generalizing depth index count with
  | nil => exact ⟨depth, by simp, by simp [closeFrom]⟩
  | cons token rest ih =>
      cases count with
      | zero => exact ⟨depth, rfl, rfl⟩
      | succ count =>
          cases hafter : depthAfter (depth + 1) token with
          | none =>
              obtain ⟨-, hdepth⟩ := depthAfter_eq_none_iff.mp hafter
              omega
          | some depth' =>
              simp only [closeFrom, hafter] at h ⊢
              split at h
              next hclosed =>
                have hend := h index rfl
                omega
              next hopen =>
                have hdepth : depth' ≠ 0 := by
                  rintro rfl
                  exact hopen ⟨eq_closeParen_of_depthAfter hafter, rfl⟩
                obtain ⟨depth', rfl⟩ := Nat.exists_eq_succ_of_ne_zero hdepth
                have hrest : ∀ close, closeFrom (depth' + 1) (index + 1) rest = some close →
                    index + 1 + count ≤ close := by
                  intro close hclose
                  have hend := h close hclose
                  omega
                obtain ⟨depth'', hcounted, hremaining⟩ := ih hrest
                refine ⟨depth'', ?_, ?_⟩
                · rw [List.take_succ_cons, depthThrough_cons, hafter, Option.bind_some, hcounted]
                · rw [if_neg hopen, hremaining, Nat.add_assoc, Nat.add_comm 1, List.drop_succ_cons]

/-- The search for the match of `start` comes to the position `stop` with so many groups open. -/
structure SearchesAt (tokens : List Token) (start stop depth : Nat) : Prop where
  counted : depthThrough 0 (tokens.extract start stop) = some depth
  remaining : matchingClose? tokens start = closeFrom depth stop (tokens.drop stop)

theorem exists_searchesAt {tokens : List Token} {start count : Nat}
    (h : tokens[start]? = some .openParen)
    (hcount : ∀ close, matchingClose? tokens start = some close → start + count ≤ close) :
    ∃ depth, SearchesAt tokens start (start + count) depth ∧
      ∀ token ∈ tokens[start + count]?, depthAfter depth token ≠ none := by
  have hdrop := drop_eq_cons_of_getElem? h
  cases count with
  | zero =>
      refine ⟨0, ⟨?_, rfl⟩, ?_⟩
      · rw [List.extract_eq_take_drop, Nat.add_zero, Nat.sub_self, List.take_zero, depthThrough_nil]
      · rintro token htoken
        rw [Nat.add_zero, h] at htoken
        cases htoken
        exact Option.some_ne_none 1
  | succ count =>
      have hsearch : matchingClose? tokens start =
          closeFrom (0 + 1) (start + 1) (tokens.drop (start + 1)) := by
        rw [matchingClose?, hdrop]
        rfl
      have hstop : start + (count + 1) = start + 1 + count := by omega
      rw [hsearch, hstop] at hcount
      obtain ⟨depth, hcounted, hremaining⟩ := exists_closeFrom_drop hcount
      rw [hstop]
      refine ⟨depth + 1, ⟨?_, ?_⟩, ?_⟩
      · rw [List.extract_eq_take_drop, hdrop, ← hstop, Nat.add_sub_cancel_left,
          List.take_succ_cons, depthThrough_cons, ← hcounted]
        rfl
      · rw [hsearch, hremaining, List.drop_drop]
      · intro token _ hafter
        obtain ⟨-, hdepth⟩ := depthAfter_eq_none_iff.mp hafter
        omega

/-- The match of an opening parenthesis is exactly the closing one after balanced tokens. There is
at most one of these, the search fails only where there is none, and no token on its way makes its
count fall below zero. -/
theorem matchingClose?_exact {tokens : List Token} {start : Nat}
    (h : tokens[start]? = some .openParen) :
    (∀ close, matchingClose? tokens start = some close ↔ Closes tokens start close) ∧
      (∀ close close', Closes tokens start close → Closes tokens start close' → close = close') ∧
      (matchingClose? tokens start = none ↔ ∀ close, ¬Closes tokens start close) ∧
      ∀ stop ≥ start, (∀ close, matchingClose? tokens start = some close → stop ≤ close) →
        ∃ depth, SearchesAt tokens start stop depth ∧
          ∀ token ∈ tokens[stop]?, depthAfter depth token ≠ none := by
  have hcloses (close : Nat) :
      matchingClose? tokens start = some close ↔ Closes tokens start close :=
    matchingClose?_eq_some_iff_closes h
  refine ⟨hcloses, ?_, ?_, ?_⟩
  · intro close close' hclose hclose'
    rw [← hcloses] at hclose hclose'
    exact Option.some.inj (hclose.symm.trans hclose')
  · simp only [← hcloses, Option.eq_none_iff_forall_ne_some, ne_eq]
  · intro stop hstart hstop
    obtain ⟨count, rfl⟩ := Nat.exists_eq_add_of_le hstart
    exact exists_searchesAt h hstop

theorem matchingClose?_exact_among_strays :
    let one : Token := .literal { toInt := 1 }
    let tokens : List Token := [.closeParen, .openParen, .openParen, one, .closeParen, .openParen,
      .closeParen, .closeParen, .openParen, one]
    tokens[1]? = some .openParen ∧ matchingClose? tokens 1 = some 7 ∧ Closes tokens 1 7 ∧
      (∃ depth, SearchesAt tokens 1 4 depth ∧ ∀ token ∈ tokens[4]?, depthAfter depth token ≠ none) ∧
      tokens[8]? = some .openParen ∧ matchingClose? tokens 8 = none ∧
      ∀ close, ¬Closes tokens 8 close := by
  intro one tokens
  have hclosed : tokens[1]? = some .openParen := rfl
  have hstray : tokens[8]? = some .openParen := rfl
  have hmatch : matchingClose? tokens 1 = some 7 := by decide
  have hnone : matchingClose? tokens 8 = none := by decide
  obtain ⟨hcloses, -, -, hsearch⟩ := matchingClose?_exact hclosed
  obtain ⟨-, -, hunclosed, -⟩ := matchingClose?_exact hstray
  refine ⟨hclosed, hmatch, (hcloses 7).mp hmatch, ?_, hstray, hnone, hunclosed.mp hnone⟩
  apply hsearch 4 (by omega)
  intro close hclose
  rw [hmatch] at hclose
  cases hclose
  omega

/-- Every opening parenthesis has a match. There may be more closing ones. -/
def AllClosed (tokens : List Token) : Prop :=
  ∀ before after, tokens = before ++ .openParen :: after →
    ∃ inside rest, after = inside ++ .closeParen :: rest ∧ Balanced inside

theorem allClosed_iff {tokens : List Token} :
    AllClosed tokens ↔ ∀ start < tokens.length, tokens[start]? = some .openParen →
      (matchingClose? tokens start).isSome := by
  constructor
  · intro h start hlt hopen
    have hdrop := drop_eq_cons_of_getElem? hopen
    obtain ⟨inside, rest, hafter, hinside⟩ := h (tokens.take start) (tokens.drop (start + 1)) (by
      rw [← hdrop, List.take_append_drop])
    rw [Option.isSome_iff_exists]
    exact ⟨_, (matchingClose?_eq_some_iff hdrop).mpr ⟨inside, rest, hafter, hinside, rfl⟩⟩
  · rintro h before after rfl
    have hclose := h before.length (by simp) (by simp)
    obtain ⟨close, hclose⟩ := Option.isSome_iff_exists.mp hclose
    have hdrop : (before ++ .openParen :: after).drop before.length = .openParen :: after :=
      List.drop_left
    obtain ⟨inside, rest, hafter, hinside, -⟩ := (matchingClose?_eq_some_iff hdrop).mp hclose
    exact ⟨inside, rest, hafter, hinside⟩

instance : DecidablePred AllClosed := fun _ => decidable_of_iff _ allClosed_iff.symm

theorem AllClosed.of_append {first second : List Token} (h : AllClosed (first ++ second)) :
    AllClosed second := by
  intro before after hsplit
  apply h (first ++ before) after
  rw [hsplit, List.append_assoc]

theorem exists_close_of_depthThrough {depth extra depth' : Nat} {tokens : List Token}
    (h : depthThrough (depth + extra + 1) tokens = some depth') (hle : depth' ≤ extra) :
    ∃ inside rest, tokens = inside ++ .closeParen :: rest ∧
      depthThrough depth inside = some 0 := by
  induction tokens generalizing depth with
  | nil =>
      rw [depthThrough_nil, Option.some.injEq] at h
      omega
  | cons token tokens ih =>
      cases hafter : depthAfter depth token with
      | none =>
          obtain ⟨rfl, rfl⟩ := depthAfter_eq_none_iff.mp hafter
          exact ⟨[], tokens, rfl, rfl⟩
      | some depth'' =>
          have hmore : depthAfter (depth + extra + 1) token = some (depth'' + extra + 1) :=
            depthAfter_add_of_eq_some (extra + 1) hafter
          rw [depthThrough_cons, hmore, Option.bind_some] at h
          obtain ⟨inside, rest, rfl, hinside⟩ := ih h
          refine ⟨token :: inside, rest, rfl, ?_⟩
          rw [depthThrough_cons, hafter, Option.bind_some, hinside]

theorem Balanced.allClosed {tokens : List Token} (h : Balanced tokens) : AllClosed tokens := by
  rintro before after rfl
  rw [balanced_iff_depthThrough, depthThrough_append, Option.bind_eq_some_iff] at h
  obtain ⟨depth, -, hafter⟩ := h
  rw [depthThrough_cons, depthAfter, Option.bind_some, ← Nat.zero_add depth] at hafter
  obtain ⟨inside, rest, hsplit, hinside⟩ :=
    exists_close_of_depthThrough hafter (Nat.zero_le depth)
  exact ⟨inside, rest, hsplit, balanced_iff_depthThrough.mpr hinside⟩

theorem not_balanced_concat_openParen (init : List Token) : ¬Balanced (init ++ [.openParen]) := by
  intro h
  obtain ⟨inside, rest, hsplit, -⟩ := h.allClosed init [] rfl
  simp at hsplit

end Bracket

end InfixArithmetic
