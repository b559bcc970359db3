/-!
Outlines: items of text, each with the items below it. They are put together and drawn by a library
for printing trees. Assumed of it:

* a new item stands below the innermost open one, after the items that are there already; to end an
  item opens the one above it again, and to build the outline ends all that are open;
* the outermost item is drawn as a heading, and every other item on a line of its own, in the order
  of the outline;
* a line has three columns for each ancestor below the heading, with a bar where that ancestor has a
  sibling further down, then a connector that tells whether the item is the last one below its
  parent, then the text of the item.
-/

namespace InfixArithmetic

structure DrawingLine where
  /-- For each ancestor from the outermost on, whether it has a later sibling. -/
  bars : List Bool
  isLast : Bool
  label : String
deriving DecidableEq, Repr

def DrawingLine.text (line : DrawingLine) : String :=
  String.join (line.bars.map fun bar => if bar then "│  " else "   ") ++
    (if line.isLast then "└─ " else "├─ ") ++ line.label ++ "\n"

inductive Outline where
  | item (label : String) (below : List Outline)

namespace Outline

mutual

/-- The lines of an item whose ancestors are described by `bars`. -/
def lines (bars : List Bool) (isLast : Bool) : Outline → List DrawingLine
  | item label below => ⟨bars, isLast, label⟩ :: linesBelow (bars ++ [!isLast]) below

/-- The lines of all items below one parent. -/
def linesBelow (bars : List Bool) : List Outline → List DrawingLine
  | [] => []
  | next :: rest => next.lines bars rest.isEmpty ++ linesBelow bars rest

end

/-- The outermost item is a heading: it has no connector, and the columns start below it. -/
def drawing : Outline → String
  | item heading below =>
      heading ++ "\n" ++ String.join ((linesBelow [] below).map DrawingLine.text)

/-- An item below which further items may be added. -/
structure OpenItem where
  label : String
  /-- The items below it so far, the latest first. -/
  below : List Outline := []

namespace OpenItem

def add (parent : OpenItem) (outline : Outline) : OpenItem :=
  { parent with below := outline :: parent.below }

def close (opened : OpenItem) : Outline :=
  item opened.label opened.below.reverse

end OpenItem

/-- The innermost open item, and the open items above it, the nearest first. -/
structure Builder where
  innermost : OpenItem
  above : List OpenItem := []

namespace Builder

def start (heading : String) : Builder :=
  { innermost := { label := heading } }

def beginItem (label : String) (builder : Builder) : Builder :=
  { innermost := { label }, above := builder.innermost :: builder.above }

/-- Closes the innermost open item. The heading stays open. -/
def endItem (builder : Builder) : Builder :=
  match builder.above with
  | [] => builder
  | parent :: above => { innermost := parent.add builder.innermost.close, above }

/-- Adds an item with nothing below it. -/
def addItem (label : String) (builder : Builder) : Builder :=
  (builder.beginItem label).endItem

/-- The outline that results when every open item is closed. -/
def build (builder : Builder) : Outline :=
  builder.above.foldl (fun outline parent => (parent.add outline).close) builder.innermost.close

/-- A whole outline below the innermost open item. -/
def add (outline : Outline) (builder : Builder) : Builder :=
  { builder with innermost := builder.innermost.add outline }

theorem addItem_eq_add (label : String) (builder : Builder) :
    builder.addItem label = builder.add (item label []) := rfl

theorem endItem_add_beginItem (label : String) (first second : Outline) (builder : Builder) :
    (((builder.beginItem label).add first).add second).endItem =
      builder.add (item label [first, second]) := rfl

theorem build_add_start (heading : String) (outline : Outline) :
    ((start heading).add outline).build = item heading [outline] := rfl

end Builder

end Outline

end InfixArithmetic
