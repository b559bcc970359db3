import InfixArithmetic.Expr.Basic
import InfixArithmetic.Outline
import InfixArithmetic.Value.Decimal

namespace InfixArithmetic.Expr

def addTo (builder : Outline.Builder) : Expr → Outline.Builder
  | literal value => builder.addItem value.decimal
  | operation op left right => (right.addTo (left.addTo (builder.beginItem op.text))).endItem

/-- The drawing of an expression under a common heading, of which the root is the only child. -/
def drawing (e : Expr) : String :=
  (e.addTo (.start "expression")).build.drawing

def outline : Expr → Outline
  | literal value => .item value.decimal []
  | operation op left right => .item op.text [left.outline, right.outline]

/-- The lines of a subtree whose ancestors are described by `bars`. -/
def drawingLines (bars : List Bool) (isLast : Bool) : Expr → List DrawingLine
  | literal value => [⟨bars, isLast, value.decimal⟩]
  | operation op left right =>
      let below := bars ++ [!isLast]
      ⟨bars, isLast, op.text⟩ :: (left.drawingLines below false ++ right.drawingLines below true)

theorem addTo_eq_add (e : Expr) (builder : Outline.Builder) :
    e.addTo builder = builder.add e.outline := by
  induction e generalizing builder with
  | literal value => exact builder.addItem_eq_add value.decimal
  | operation op left right ihLeft ihRight =>
      rw [addTo, ihLeft, ihRight, outline]
      exact builder.endItem_add_beginItem op.text left.outline right.outline

theorem lines_outline (e : Expr) (bars : List Bool) (isLast : Bool) :
    e.outline.lines bars isLast = e.drawingLines bars isLast := by
  induction e generalizing bars isLast with
  | literal value => rfl
  | operation op left right ihLeft ihRight =>
      simp only [outline, Outline.lines, Outline.linesBelow, drawingLines, ihLeft, ihRight,
        List.isEmpty_cons, List.isEmpty_nil, List.append_nil]

theorem drawing_eq (e : Expr) :
    e.drawing = "expression\n" ++ String.join ((e.drawingLines [] true).map DrawingLine.text) := by
  rw [drawing, addTo_eq_add, Outline.Builder.build_add_start, Outline.drawing, Outline.linesBelow,
    Outline.linesBelow, List.isEmpty_nil, List.append_nil, lines_outline]
  rfl

end InfixArithmetic.Expr
