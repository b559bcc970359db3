import InfixArithmetic.Proofs.CollapsePositions
import InfixArithmetic.Proofs.PrefixText
import InfixArithmetic.Proofs.PrintedLines
import Mathlib.Data.List.Nodup
import Mathlib.Data.List.TakeWhile
import Mathlib.Data.Prod.Basic

namespace InfixArithmetic

namespace Expr

/-- All nodes in prefix order: the path that leads to each, and the subtree of which it is the
root. -/
def nodes : Expr → List (List Side × Expr)
  | literal value => [([], literal value)]
  | operation op left right =>
      ([], operation op left right) ::
        (left.nodes.map (Prod.map (.left :: ·) id) ++ right.nodes.map (Prod.map (.right :: ·) id))

theorem mem_nodes_iff {e part : Expr} {path : List Side} :
    (path, part) ∈ e.nodes ↔ e.subtree? path = some part := by
  induction e generalizing path with
  | literal value =>
      rcases path with _ | ⟨side, path⟩
      · simp [nodes, eq_comm]
      · simp [nodes]
  | operation op left right ihLeft ihRight =>
      rcases path with _ | ⟨_ | _, path⟩
      · simp [nodes, eq_comm]
      · simp [nodes, ihLeft]
      · simp [nodes, ihRight]

theorem nodup_nodes (e : Expr) : e.nodes.Nodup := by
  induction e with
  | literal value => exact List.nodup_singleton _
  | operation op left right ihLeft ihRight =>
      have hcons : ∀ side : Side,
          Function.Injective (Prod.map (side :: ·) id : List Side × Expr → List Side × Expr) :=
        fun side => Function.Injective.prodMap List.cons_injective Function.injective_id
      rw [nodes, List.nodup_cons, List.nodup_append]
      refine ⟨by simp, ihLeft.map (hcons .left), ihRight.map (hcons .right), ?_⟩
      intro node hleft node' hright heq
      obtain ⟨_, -, rfl⟩ := List.mem_map.mp hleft
      obtain ⟨_, -, rfl⟩ := List.mem_map.mp hright
      cases heq

theorem map_rootToken_nodes (e : Expr) :
    e.nodes.map (fun node => node.2.rootToken) = e.toPrefix := by
  induction e with
  | literal value => rfl
  | operation op left right ihLeft ihRight =>
      rw [toPrefix, ← ihLeft, ← ihRight, nodes, List.map_cons, List.map_append, List.map_map,
        List.map_map]
      rfl

end Expr

/-- The node at the end of the path has a sibling after it, since it is a left operand. -/
def HasLaterSibling (path : List Side) : Prop :=
  path.getLast? = some .left

instance : DecidablePred HasLaterSibling := fun path =>
  inferInstanceAs (Decidable (path.getLast? = some .left))

/-- The line of a node: a column for each of its ancestors, with a bar where that ancestor has a
later sibling, then the connector of the node and its label. -/
def picture (path : List Side) (label : String) : String :=
  String.join ((List.range path.length).map fun depth =>
      if HasLaterSibling (path.take depth) then "│  " else "   ") ++
    (if path = [] ∨ path.getLast? = some .right then "└─ " else "├─ ") ++ label

theorem not_hasLaterSibling_iff {path : List Side} :
    ¬HasLaterSibling path ↔ path = [] ∨ path.getLast? = some .right := by
  unfold HasLaterSibling
  rcases List.eq_nil_or_concat path with rfl | ⟨above, side, rfl⟩
  · simp
  · cases side <;> simp

theorem hasLaterSibling_concat_iff {above : List Side} {side : Side} :
    HasLaterSibling (above ++ [side]) ↔ side = .left := by
  rw [HasLaterSibling, List.getLast?_concat, Option.some.injEq]

def columns (path : List Side) : List Bool :=
  (List.range path.length).map fun depth => decide (HasLaterSibling (path.take depth))

theorem columns_concat (above : List Side) (side : Side) :
    columns (above ++ [side]) = columns above ++ [decide (HasLaterSibling above)] := by
  have hinner : ∀ depth ∈ List.range above.length,
      decide (HasLaterSibling ((above ++ [side]).take depth)) =
        decide (HasLaterSibling (above.take depth)) := by
    intro depth hdepth
    rw [List.take_append_of_le_length (Nat.le_of_lt (List.mem_range.mp hdepth))]
  rw [columns, List.length_append, List.length_singleton, List.range_succ, List.map_append,
    List.map_congr_left hinner, List.map_singleton, List.take_left]
  rfl

def lineAt (path : List Side) (label : String) : DrawingLine where
  bars := columns path
  isLast := !decide (HasLaterSibling path)
  label := label

theorem row_lineAt (path : List Side) (label : String) :
    (lineAt path label).row = (picture path label).toList := by
  rw [DrawingLine.row, lineAt, columns, picture, List.map_map]
  simp only [Function.comp_def, decide_eq_true_eq, Bool.not_eq_true', decide_eq_false_iff_not,
    not_hasLaterSibling_iff]

theorem text_lineAt (path : List Side) (label : String) :
    (lineAt path label).text = picture path label ++ "\n" := by
  apply String.toList_injective
  rw [DrawingLine.toList_text, row_lineAt, String.toList_append]
  rfl

namespace Expr

theorem drawingLines_eq_map_nodes (e : Expr) (above : List Side) :
    e.drawingLines (columns above) (!decide (HasLaterSibling above)) =
      e.nodes.map fun node => lineAt (above ++ node.1) node.2.rootToken.text := by
  induction e generalizing above with
  | literal value => simp [drawingLines, nodes, lineAt, rootToken, Token.text]
  | operation op left right ihLeft ihRight =>
      have hleft := ihLeft (above ++ [.left])
      have hright := ihRight (above ++ [.right])
      simp only [columns_concat, hasLaterSibling_concat_iff, reduceCtorEq, decide_true,
        decide_false, Bool.not_true, Bool.not_false, List.append_assoc, List.singleton_append]
        at hleft hright
      simp only [drawingLines, nodes, Bool.not_not, hleft, hright, List.map_cons, List.map_append,
        List.map_map, List.append_nil]
      rfl

theorem drawingLines_eq (e : Expr) :
    e.drawingLines [] true = e.nodes.map fun node => lineAt node.1 node.2.rootToken.text :=
  e.drawingLines_eq_map_nodes []

theorem drawing_eq_join_pictures (e : Expr) :
    e.drawing = "expression\n" ++
      String.join (e.nodes.map fun node => picture node.1 node.2.rootToken.text ++ "\n") := by
  rw [drawing_eq, drawingLines_eq, List.map_map]
  simp only [Function.comp_def, text_lineAt]

theorem lines_drawing (e : Expr) :
    Text.lines e.drawing.toList = "expression".toList ::
      e.nodes.map fun node => (picture node.1 node.2.rootToken.text).toList := by
  have hlines := e.lines_drawing_append []
  rw [List.append_nil, drawingLines_eq, List.map_map] at hlines
  simpa only [Function.comp_def, row_lineAt, Text.lines, List.append_nil] using hlines

end Expr

/-- Bars, connectors and the blanks between them. -/
def isStroke (c : Char) : Bool :=
  c ∈ [' ', '│', '├', '└', '─']

theorem isStroke_of_isDigit {c : Char} (h : c.isDigit) : isStroke c = false := by
  rw [← Bool.not_eq_true]
  intro hstroke
  simp only [isStroke, List.mem_cons, List.not_mem_nil, or_false, decide_eq_true_eq] at hstroke
  rcases hstroke with rfl | rfl | rfl | rfl | rfl <;> cases h

theorem Expr.isStroke_of_mem_text {e : Expr} {c : Char} (h : c ∈ e.rootToken.text.toList) :
    isStroke c = false := by
  cases e with
  | literal value =>
      rcases Value.eq_minus_or_isDigit_of_mem_decimal h with rfl | hdigit
      · rfl
      · exact isStroke_of_isDigit hdigit
  | operation op left right =>
      rw [rootToken, Token.toList_text_operator, List.mem_singleton] at h
      rw [h]
      cases op <;> rfl

theorem dropWhile_isStroke_picture (path : List Side) (e : Expr) :
    (picture path e.rootToken.text).toList.dropWhile isStroke = e.rootToken.text.toList := by
  have hlabel : e.rootToken.text.toList.dropWhile isStroke = e.rootToken.text.toList := by
    rw [List.dropWhile_eq_self_iff]
    intro hlength
    rw [Expr.isStroke_of_mem_text (List.getElem_mem hlength)]
    exact Bool.false_ne_true
  have hcolumn : ∀ bar : Bool, (if bar then "│  " else "   ").toList.all isStroke = true := by
    decide
  have hconnector : ∀ isLast : Bool,
      (if isLast then "└─ " else "├─ ").toList.all isStroke = true := by
    decide
  rw [← row_lineAt, DrawingLine.row, lineAt, String.toList_append, List.dropWhile_append_of_pos,
    hlabel]
  intro c hc
  rw [String.toList_append, List.mem_append] at hc
  rcases hc with hc | hc
  · rw [String.toList_join, List.mem_flatMap] at hc
    obtain ⟨_, hgroup, hc⟩ := hc
    obtain ⟨bar, -, rfl⟩ := List.mem_map.mp hgroup
    exact List.all_eq_true.mp (hcolumn bar) c hc
  · exact List.all_eq_true.mp (hconnector _) c hc

namespace Expr

theorem map_dropWhile_lines_drawing (e : Expr) :
    (Text.lines e.drawing.toList).tail.map (List.dropWhile isStroke) =
      e.toPrefix.map fun token => token.text.toList := by
  rw [lines_drawing, List.tail_cons, List.map_map, ← map_rootToken_nodes, List.map_map]
  simp only [Function.comp_def, dropWhile_isStroke_picture]

theorem drawing_inj {e e' : Expr} : e.drawing = e'.drawing ↔ e = e' := by
  constructor
  · intro h
    have hlabels := e.map_dropWhile_lines_drawing
    rw [h, map_dropWhile_lines_drawing] at hlabels
    have htexts : e.toPrefix.map Token.text = e'.toPrefix.map Token.text := by
      have hinjective : Function.Injective String.toList := fun _ _ => String.toList_injective
      apply List.map_injective_iff.mpr hinjective
      rw [List.map_map, List.map_map]
      exact hlabels.symm
    apply joinText_toPrefix_inj
    rw [Token.joinText, htexts, Token.joinText]
  · rintro rfl
    rfl

/-- A drawing is a heading and a line for each node, in prefix order. The line shows for every
ancestor, from the root on, whether it has a later sibling, and for the node itself whether it is
the last child of its parent; it ends with the token of the node. So the labels are the tokens in
prefix order, and expressions that are drawn alike are equal. -/
theorem drawing_pictures_expression (e : Expr) :
    (e.drawing = "expression\n" ++
        String.join (e.nodes.map fun node => picture node.1 node.2.rootToken.text ++ "\n") ∧
      Text.lines e.drawing.toList = "expression".toList ::
        e.nodes.map fun node => (picture node.1 node.2.rootToken.text).toList) ∧
    (e.nodes.Nodup ∧ ∀ path part, (path, part) ∈ e.nodes ↔ e.subtree? path = some part) ∧
    (e.nodes.map fun node => node.2.rootToken) = e.toPrefix ∧
    ∀ e' : Expr, e.drawing = e'.drawing ↔ e = e' :=
  ⟨⟨e.drawing_eq_join_pictures, e.lines_drawing⟩, ⟨e.nodup_nodes, fun _ _ => mem_nodes_iff⟩,
    e.map_rootToken_nodes, fun _ => drawing_inj⟩

example :
    let one := literal { toInt := 1 }
    (operation .subtract (operation .add (operation .multiply one one) one) one).drawing =
      "expression\n" ++
      "└─ -\n" ++
      "   ├─ +\n" ++
      "   │  ├─ *\n" ++
      "   │  │  ├─ 1\n" ++
      "   │  │  └─ 1\n" ++
      "   │  └─ 1\n" ++
      "   └─ 1\n" := by
  decide +kernel

end Expr

end InfixArithmetic
