import Shellwright.Console.Markup
import Shellwright.Decimal
import Shellwright.Text.Blank
import Shellwright.Text.Cells
import Shellwright.Timing
/-!
# Tables

Tables with a title, aligned columns and a rule below the header. Cells may hold markup. A text fills a
column of some width: its words go on as many lines as they need, and a word that is too wide for a line
of its own is cut.
-/

namespace Shellwright.Console

/-! ## Wrapping -/

inductive Alignment
  | left
  | right
  deriving DecidableEq, Repr

def Alignment.label : Alignment → String
  | .left => "left"
  | .right => "right"

/-- Words with the blanks that follow them; the first has those before it as well. A text of blanks has no
words. `held` is the word so far, its last character first. -/
def words (held : List Char) (ended : Bool) : List Char → List (List Char)
  | [] => if held.all Text.isBlank then [] else [held.reverse]
  | c :: rest =>
    if Text.isBlank c then words (c :: held) (ended || !held.all Text.isBlank) rest
    else if ended then held.reverse :: words [c] false rest
    else words (c :: held) false rest

/-- Put words on lines of `width` cells; `line` holds the words of the line so far and takes `column`
cells. -/
def fillLines (width : Nat) (line : List Char) (column : Nat) : List (List Char) → List (List Char)
  | [] => [line]
  | word :: rest =>
    let needed := Text.cellCount (Text.trimEnd word)
    let taken := Text.cellCount word
    if column + needed ≤ width then fillLines width (line ++ word) (column + taken) rest
    else if line.isEmpty then fillLines width word taken rest
    else line :: fillLines width word taken rest

/-- The lines that a text takes within `width` cells. -/
def wrapLine (width : Nat) (cs : List Char) : List (List Char) :=
  match words [] false cs with
  | [] => [cs]
  | ws => fillLines width [] 0 ws

/-- Blanks at the end of a line that is too long are left out. -/
def trimExcess (width : Nat) (cs : List Char) : List Char :=
  let blanks := (cs.reverse.takeWhile Text.isBlank).length
  cs.take (cs.length - min blanks (cs.length - width))

/-- The sign for what was cut off. -/
def ellipsis : Char := '…'

/-- A line that fits, the end cut off where it is too wide. -/
def shorten (width : Nat) (cs : List Char) : List Char :=
  if width < Text.cellCount cs then Text.fitCells cs (width - 1) ++ [ellipsis] else cs

/-- A line cut or filled up to `width` cells. -/
def align (alignment : Alignment) (width : Nat) (cs : List Char) : List Char :=
  let blanks (cs : List Char) : List Char := List.replicate (width - Text.cellCount cs) ' '
  match alignment with
  | .left =>
    let cs := shorten width cs
    cs ++ blanks cs
  | .right =>
    let cs := shorten width (Text.trimEnd cs)
    blanks cs ++ cs

/-- The lines of a text in a column. -/
def columnLines (alignment : Alignment) (width : Nat) (cs : List Char) : List (List Char) :=
  (Text.editorLines cs).flatMap fun line =>
    (wrapLine width (Text.expandTabs line)).map fun cs => align alignment width (trimExcess width cs)

/-- The cells that the widest line of a text takes. -/
def widestLine (cs : List Char) : Nat :=
  ((Text.lines cs).map Text.cellCount).foldl max 0

/-! ## Tables -/

structure Column where
  header : String
  alignment : Alignment := .left
  deriving DecidableEq, Repr

structure Table where
  title : String
  columns : List Column
  rows : List (List String)
  deriving DecidableEq, Repr

/-- A table with its cells rendered. -/
structure RenderedTable where
  title : String
  columns : List Column
  rows : List (List (List Char))

/-- Render the cells, which may hold markup. -/
def Table.render (t : Table) : Except MarkupError RenderedTable := do
  return ⟨t.title, t.columns, ← t.rows.mapM fun row => row.mapM Console.render⟩

namespace RenderedTable

/-- Width of the widest cell of column `i`. -/
def widthOf (t : RenderedTable) (i : Nat) : Nat :=
  ((t.columns.map fun c => c.header.toList) :: t.rows).foldl
    (fun w cells => max w (widestLine (cells.getD i []))) 0

/-- Cells of one line each, three blanks between them and two at either end. -/
def line (cells : List (List Char)) : List Char :=
  [' ', ' '] ++ [' ', ' ', ' '].intercalate cells ++ [' ', ' ']

/-- The lines of a row, as many as its longest cell has. -/
def rowLines (t : RenderedTable) (cells : List (List Char)) : List (List Char) :=
  let columns := t.columns.mapIdx fun i c =>
    (t.widthOf i, columnLines c.alignment (t.widthOf i) (cells.getD i []))
  let height := columns.foldl (fun h c => max h c.2.length) 0
  (List.range height).map fun n =>
    line (columns.map fun c => c.2.getD n (List.replicate c.1 ' '))

def totalWidth (t : RenderedTable) : Nat :=
  (t.columns.mapIdx fun i _ => t.widthOf i).foldl (· + ·) 0 + 3 * (t.columns.length - 1) + 4

/-- The title, and then the table between two blank lines. -/
def text (t : RenderedTable) : String :=
  let blank := List.replicate t.totalWidth ' '
  let rule := ' ' :: List.replicate (t.totalWidth - 2) '━' ++ [' ']
  let table := [t.title.toList, blank] ++ t.rowLines (t.columns.map fun c => c.header.toList) ++ [rule] ++
    t.rows.flatMap t.rowLines ++ [blank]
  String.ofList (['\n'].intercalate table ++ ['\n'])

end RenderedTable

/-- The text of a table. -/
def Table.text (t : Table) : Except MarkupError String := do
  return (← t.render).text

/-- A plugin as it is listed. -/
structure PluginInfo where
  name : String
  displayName : String
  version : String
  active : Bool
  deriving DecidableEq, Repr

def yesNo (b : Bool) : String :=
  if b then "yes" else "no"

/-- All plugins, with those that can run and those that are active. -/
def pluginTable (plugins : List PluginInfo) (available : List String) : Table :=
  { title := "Plugins"
    columns := [⟨"Name", .left⟩, ⟨"Display name", .left⟩, ⟨"Version", .left⟩, ⟨"Available", .left⟩,
      ⟨"Active", .left⟩]
    rows := plugins.map fun p =>
      [p.name, p.displayName, p.version, yesNo (available.contains p.name), yesNo p.active] }

/-- A row of the timings: count, mean, least and most. -/
structure TimingRow where
  name : String
  /-- The count as it is shown. -/
  count : String
  mean : Float
  least : Float
  most : Float

def TimingRow.ofSummary (name : String) (s : TimingSummary) : TimingRow :=
  ⟨name, toString s.count, s.shownMean, s.shownLeast, s.shownMost⟩

/-- Durations with one decimal place. -/
def timingTable (rows : List TimingRow) : Table :=
  { title := "Timings"
    columns := [⟨"Metric", .left⟩, ⟨"Count", .right⟩, ⟨"Avg ms", .right⟩, ⟨"Min ms", .right⟩,
      ⟨"Max ms", .right⟩]
    rows := rows.map fun r =>
      [r.name, r.count, Decimal.fixed 1 r.mean, Decimal.fixed 1 r.least,
        Decimal.fixed 1 r.most] }

end Shellwright.Console
