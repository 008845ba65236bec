import Shellwright.Severity
import Shellwright.Text.Blank
import Shellwright.Text.Word
/-!
# Line patterns

The forms of line that the tools write, each with a reader that gives the parts of a line of that form:
findings of the linter on one line, headers and notes of its blocks, syntax errors of the formatter and
the hunk headers of a patch.
-/

namespace Shellwright.Output

open Shellwright.Text

/-- The text after `lead`, when the text begins with it. -/
def after (lead cs : List Char) : Option (List Char) :=
  if lead.isPrefixOf cs then some (cs.drop lead.length) else none

/-- A run of at least one digit, and the rest. -/
def digitRun (cs : List Char) : Option (List Char × List Char) :=
  match cs.takeWhile isDigit with
  | [] => none
  | ds => some (ds, cs.dropWhile isDigit)

/-- A run of at least one blank is passed over. -/
def skipBlanks (cs : List Char) : Option (List Char) :=
  match cs with
  | [] => none
  | c :: _ => if isBlank c then some (cs.dropWhile isBlank) else none

/-- Text on one line. -/
def isOneLine (cs : List Char) : Bool :=
  !cs.contains '\n'

/-- `:line:column: ` at the start of a text, as digits, and the rest. -/
def coordinates (cs : List Char) : Option (List Char × List Char × List Char) := do
  let cs ← after [':'] cs
  let (line, cs) ← digitRun cs
  let cs ← after [':'] cs
  let (column, cs) ← digitRun cs
  let cs ← after [':', ' '] cs
  return (line, column, cs)

/-- Try a reader at every place of a line, the first place first; the text before the place is handed
over with its nearest character first and may not go over a line feed. -/
def firstPlace {α : Type} (read : List Char → List Char → Option α) :
    (before rest : List Char) → Option α
  | before, [] => read before []
  | before, c :: rest =>
    match read before (c :: rest) with
    | some a => some a
    | none => if c = '\n' then none else firstPlace read (c :: before) rest

/-- A finding on one line: `file:line:column: level: message [SC0000]`. -/
structure FindingLine where
  file : List Char
  line : List Char
  column : List Char
  level : List Char
  message : List Char
  code : List Char
  deriving DecidableEq, Repr

/-- The words for a level that a finding may carry. -/
def levelWords : List (List Char) :=
  ["error".toList, "warning".toList, "note".toList, "info".toList, "style".toList]

/-- The last ` [SC0000]` of a text that ends with it, and what stands before. -/
def splitCode (cs : List Char) : Option (List Char × List Char) :=
  match cs.reverse with
  | ']' :: reversed =>
    match reversed.takeWhile isDigit, reversed.dropWhile isDigit with
    | d :: ds, 'C' :: 'S' :: '[' :: ' ' :: message =>
      some (message.reverse, 'S' :: 'C' :: (d :: ds).reverse)
    | _, _ => none
  | _ => none

/-- One line feed at the very end does not count. -/
def withoutFinalFeed (cs : List Char) : List Char :=
  match cs.reverse with
  | '\n' :: reversed => reversed.reverse
  | _ => cs

def levelWord (cs : List Char) : Option (List Char × List Char) :=
  levelWords.findSome? fun w => (after (w ++ [':', ' ']) cs).map (w, ·)

def FindingLine.read (cs : List Char) : Option FindingLine :=
  firstPlace (fun file rest => do
    if file.isEmpty then none
    let (line, column, rest) ← coordinates rest
    let (level, rest) ← levelWord rest
    let (message, code) ← splitCode (withoutFinalFeed rest)
    if message.isEmpty || !isOneLine message then none
    return ⟨file.reverse, line, column, level, message, code⟩) [] cs

/-- The header of a block of notes: `In file line N:`. -/
structure HeaderLine where
  file : List Char
  line : List Char
  deriving DecidableEq, Repr

def HeaderLine.read (cs : List Char) : Option HeaderLine := do
  let rest ← after "In ".toList cs
  match (withoutFinalFeed rest).reverse with
  | ':' :: reversed =>
    let (line, reversed) ← digitRun reversed
    let reversed ← after "line ".toList.reverse reversed
    let file ← after [' '] reversed
    if file.isEmpty || !isOneLine file then none
    return ⟨file.reverse, line.reverse⟩
  | _ => none

/-- A note of a block: a caret under the column, then `SC0000 (level): message`. -/
structure NoteLine where
  indent : List Char
  code : List Char
  level : Option (List Char)
  message : List Char
  deriving DecidableEq, Repr

/-- ` (level)` at the start of a text, when it is there. -/
def noteLevel (cs : List Char) : Option (List Char × List Char) := do
  let cs ← skipBlanks cs
  let cs ← after ['('] cs
  match cs.takeWhile isWord with
  | [] => none
  | word => return (word, ← after [')'] (cs.dropWhile isWord))

def NoteLine.read (cs : List Char) : Option NoteLine := do
  let indent := cs.takeWhile isBlank
  let rest ← after ['^'] (cs.dropWhile isBlank)
  let rest ← skipBlanks (rest.dropWhile fun c => c == '-' || c == '^')
  let rest ← after ['S', 'C'] rest
  let (digits, rest) ← digitRun rest
  let (level, rest) := match noteLevel rest with
    | some (word, rest) => (some word, rest)
    | none => (none, rest)
  let rest ← after [':'] rest
  let message ← skipBlanks rest
  let message := withoutFinalFeed message
  if message.isEmpty || !isOneLine message then none
  return ⟨indent, 'S' :: 'C' :: digits, level, message⟩

/-- A syntax error of the formatter: `file:line:column: message`. -/
structure ErrorLine where
  file : List Char
  line : List Char
  column : List Char
  message : List Char
  deriving DecidableEq, Repr

def ErrorLine.read (cs : List Char) : Option ErrorLine :=
  firstPlace (fun file rest => do
    let (line, column, rest) ← coordinates rest
    let message := withoutFinalFeed rest
    if message.isEmpty || !isOneLine message then none
    return ⟨file.reverse, line, column, message⟩) [] cs

/-- The length that may follow the line number of a hunk is passed over. -/
def skipLength (cs : List Char) : List Char :=
  match (after [','] cs).bind digitRun with
  | some (_, rest) => rest
  | none => cs

/-- The header of a hunk, `@@ -line,length +line,length @@`: the digits of its first line. -/
def hunkLine (cs : List Char) : Option (List Char) := do
  let rest ← after "@@ -".toList cs
  let (line, rest) ← digitRun rest
  let rest ← after " +".toList (skipLength rest)
  let (_, rest) ← digitRun rest
  let _ ← after " @@".toList (skipLength rest)
  return line

/-- Read the lines that have some form. Each line is trimmed first; blank lines and lines with one of
the given beginnings are passed over. -/
def matching {α : Type} (read : List Char → Option α) (ls : List (List Char))
    (skipped : List (List Char)) (skipBlank : Bool) : List α :=
  ls.filterMap fun raw =>
    let line := trim raw
    if (skipBlank && line.isEmpty) || skipped.any (·.isPrefixOf line) then none else read line

end Shellwright.Output
