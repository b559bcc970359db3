import InfixArithmetic.Proofs.RunReport
import InfixArithmetic.Proofs.TokenText

namespace InfixArithmetic

namespace Text

/-- The lines of a text. Each of them is ended by a newline, except perhaps the last one. -/
def lines : List Char → List (List Char)
  | [] => []
  | c :: cs =>
      if c = '\n' then
        [] :: lines cs
      else
        match lines cs with
        | [] => [[c]]
        | line :: rest => (c :: line) :: rest

theorem lines_append_newline {line : List Char} (h : '\n' ∉ line) (rest : List Char) :
    lines (line ++ '\n' :: rest) = line :: lines rest := by
  induction line with
  | nil => rw [List.nil_append, lines, if_pos rfl]
  | cons c line ih =>
      rw [List.mem_cons, not_or] at h
      obtain ⟨hc, hline⟩ := h
      rw [List.cons_append, lines, if_neg (Ne.symm hc), ih hline]

theorem newline_not_mem_of_isAtom {word : List Char} (h : IsAtom word) : '\n' ∉ word := by
  intro hmem
  have hblank := h.2 '\n' hmem
  cases hblank

end Text

theorem Token.newline_not_mem_joinText {ts : List Token} (h : ∀ t ∈ ts, t.Legible) :
    '\n' ∉ (joinText ts).toList := by
  rw [joinText, String.toList_intercalate]
  induction ts with
  | nil => simp
  | cons t ts ih =>
      obtain ⟨ht, hts⟩ := List.forall_mem_cons.mp h
      have htext := Text.newline_not_mem_of_isAtom ht.1
      cases ts with
      | nil => simpa using htext
      | cons t' ts =>
          have hrest := ih hts
          rw [List.map_cons, List.map_cons] at hrest ⊢
          rw [List.map_cons, List.map_cons, List.intercalate_cons_cons, List.mem_append,
            List.mem_append, not_or, not_or]
          exact ⟨⟨htext, by decide⟩, hrest⟩

/-- The line without the newline at its end. -/
def DrawingLine.row (line : DrawingLine) : List Char :=
  (String.join (line.bars.map fun bar => if bar then "│  " else "   ") ++
    (if line.isLast then "└─ " else "├─ ") ++ line.label).toList

theorem DrawingLine.toList_text (line : DrawingLine) : line.text.toList = line.row ++ ['\n'] :=
  String.toList_append

theorem DrawingLine.newline_not_mem_row {line : DrawingLine}
    (h : Text.IsAtom line.label.toList) : '\n' ∉ line.row := by
  have hlabel := Text.newline_not_mem_of_isAtom h
  have hbars :
      '\n' ∉ (String.join (line.bars.map fun bar => if bar then "│  " else "   ")).toList := by
    rw [String.toList_join, List.mem_flatMap]
    rintro ⟨group, hgroup, hmem⟩
    obtain ⟨bar, -, rfl⟩ := List.mem_map.mp hgroup
    cases bar <;> simp at hmem
  have hconnector : '\n' ∉ (if line.isLast then "└─ " else "├─ ").toList := by
    cases line.isLast <;> decide
  rw [row, String.toList_append, String.toList_append, List.mem_append, List.mem_append, not_or,
    not_or]
  exact ⟨⟨hbars, hconnector⟩, hlabel⟩

theorem DrawingLine.head?_row_ne (line : DrawingLine) : line.row.head? ≠ some 'p' := by
  obtain ⟨_ | ⟨bar, bars⟩, isLast, label⟩ := line
  · cases isLast <;> simp [row]
  · cases bar <;> simp [row]

namespace Expr

theorem isAtom_label_of_mem_drawingLines {e : Expr} {bars : List Bool} {isLast : Bool} :
    ∀ line ∈ e.drawingLines bars isLast, Text.IsAtom line.label.toList := by
  induction e generalizing bars isLast with
  | literal value =>
      rw [drawingLines, List.forall_mem_singleton]
      exact (Token.legible_literal value).1
  | operation op left right ihLeft ihRight =>
      rw [drawingLines, List.forall_mem_cons, List.forall_mem_append]
      exact ⟨(Token.legible_operator op).1, ihLeft, ihRight⟩

theorem lines_rows {drawing : List DrawingLine}
    (h : ∀ line ∈ drawing, Text.IsAtom line.label.toList) (rest : List Char) :
    Text.lines ((String.join (drawing.map DrawingLine.text)).toList ++ rest) =
      drawing.map DrawingLine.row ++ Text.lines rest := by
  rw [String.toList_join]
  induction drawing with
  | nil => rfl
  | cons line drawing ih =>
      obtain ⟨hline, hdrawing⟩ := List.forall_mem_cons.mp h
      rw [List.map_cons, List.flatMap_cons, DrawingLine.toList_text, List.append_assoc,
        List.append_assoc, List.singleton_append,
        Text.lines_append_newline (DrawingLine.newline_not_mem_row hline), ih hdrawing]
      rfl

theorem lines_drawing_append (e : Expr) (rest : List Char) :
    Text.lines (e.drawing.toList ++ rest) =
      "expression".toList :: ((e.drawingLines [] true).map DrawingLine.row ++ Text.lines rest) := by
  have hheading : "expression\n".toList = "expression".toList ++ ['\n'] := by simp
  rw [drawing_eq, String.toList_append, hheading, List.append_assoc, List.append_assoc,
    List.singleton_append, Text.lines_append_newline (by decide),
    lines_rows isAtom_label_of_mem_drawingLines]

end Expr

namespace Tree

variable {tree : Tree} {e : Expr}

theorem newline_not_mem_prefixText (h : tree.root = some e) : '\n' ∉ tree.prefixText.toList := by
  rw [prefixText, h]
  exact Token.newline_not_mem_joinText
    (Expr.forall_mem_toPrefix Token.legible_literal Token.legible_operator e)

theorem newline_not_mem_postfixText (h : tree.root = some e) : '\n' ∉ tree.postfixText.toList := by
  rw [postfixText, h]
  exact Token.newline_not_mem_joinText
    (Expr.forall_mem_toPostfix Token.legible_literal Token.legible_operator e)

theorem head?_of_mem_lines_valueLine {line : List Char}
    (h : line ∈ Text.lines tree.valueLine.toList) : line.head? = some 'v' := by
  rw [valueLine] at h
  cases hvalue : tree.evaluate with
  | error error =>
      rw [hvalue] at h
      cases h
  | ok value =>
      have hdecimal := Text.newline_not_mem_of_isAtom (Token.legible_literal value).1
      have hline : '\n' ∉ ("value:   " ++ value.decimal).toList := by
        rw [String.toList_append, List.mem_append, not_or]
        exact ⟨by decide, hdecimal⟩
      have hend : ("value:   " ++ value.decimal ++ "\n").toList =
          ("value:   " ++ value.decimal).toList ++ '\n' :: [] := String.toList_append
      rw [hvalue] at h
      simp only [hend, Text.lines_append_newline hline] at h
      cases h with
      | head => simp
      | tail _ h => cases h

end Tree

namespace Cli.Options

variable {options : Options} {tree : Tree} {e : Expr}

theorem lines_notations_append (h : tree.root = some e) (rest : List Char) :
    Text.lines ((options.notations tree).toList ++ rest) =
      (if options.showTree then
        "expression".toList :: (e.drawingLines [] true).map DrawingLine.row
      else []) ++
        ("prefix:  " ++ tree.prefixText).toList :: ("postfix: " ++ tree.postfixText).toList ::
          Text.lines rest := by
  have hprefix : '\n' ∉ ("prefix:  " ++ tree.prefixText).toList := by
    rw [String.toList_append, List.mem_append, not_or]
    exact ⟨by decide, Tree.newline_not_mem_prefixText h⟩
  have hpostfix : '\n' ∉ ("postfix: " ++ tree.postfixText).toList := by
    rw [String.toList_append, List.mem_append, not_or]
    exact ⟨by decide, Tree.newline_not_mem_postfixText h⟩
  have hnotations : (options.notations tree).toList ++ rest =
      (if options.showTree then tree.drawing else "").toList ++
        (("prefix:  " ++ tree.prefixText).toList ++ '\n' ::
          (("postfix: " ++ tree.postfixText).toList ++ '\n' :: rest)) := by
    simp [notations]
  rw [hnotations]
  split
  next =>
    rw [Tree.drawing, h]
    simp only [Expr.lines_drawing_append, Text.lines_append_newline hprefix,
      Text.lines_append_newline hpostfix, List.cons_append]
  next =>
    simp only [String.toList_empty, List.nil_append, Text.lines_append_newline hprefix,
      Text.lines_append_newline hpostfix]

theorem eq_postfixText_of_mem_lines {P : String} (h : tree.root = some e)
    (hline : ("postfix: " ++ P).toList ∈
      Text.lines (options.notations tree ++ tree.valueLine).toList) : P = tree.postfixText := by
  have hhead : ("postfix: " ++ P).toList.head? = some 'p' := by simp
  rw [String.toList_append, lines_notations_append h, List.mem_append, List.mem_cons,
    List.mem_cons] at hline
  obtain hdrawing | hprefix | hpostfix | hvalue := hline
  · split at hdrawing
    next =>
      obtain hheading | hrow := List.mem_cons.mp hdrawing
      · rw [hheading] at hhead
        simp at hhead
      · obtain ⟨line, -, hrow⟩ := List.mem_map.mp hrow
        rw [← hrow] at hhead
        exact absurd hhead line.head?_row_ne
    next => cases hdrawing
  · simp at hprefix
  · exact (String.append_right_inj _).mp (String.toList_inj.mp hpostfix)
  · rw [Tree.head?_of_mem_lines_valueLine hvalue] at hhead
    simp at hhead

end Cli.Options

end InfixArithmetic
