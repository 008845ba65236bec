import Shellwright.Console.Notice
import Shellwright.Console.Style
import Shellwright.Text.Word
/-!
# Markup

Cells of tables may hold tags in brackets, which style the text up to the tag that closes them. On plain
output nothing is left of a tag; backslashes before a tag make it text.
-/

namespace Shellwright.Console

/-- Why markup cannot be rendered. -/
inductive MarkupError
  | unopened (name : String)
  | nothingOpen
  | badParameters (parameters : String)
  deriving DecidableEq, Repr

/-- A tag as it stands in a text, with the number of backslashes before it. -/
structure RawTag where
  backslashes : Nat
  body : List Char
  deriving DecidableEq, Repr

/-- Number of characters that a tag takes with its brackets and backslashes. -/
def RawTag.size (t : RawTag) : Nat :=
  t.backslashes + t.body.length + 2

def isTagStart (c : Char) : Bool :=
  ('a' ≤ c && c ≤ 'z') || c == '#' || c == '/' || c == '@'

/-- The tag at the start of a text. -/
def tagAt? (cs : List Char) : Option RawTag :=
  let slashes := (cs.takeWhile (· == '\\')).length
  match cs.drop slashes with
  | '[' :: c :: rest =>
    let body := rest.takeWhile fun c => c != '[' && c != ']'
    if isTagStart c && (rest.drop body.length).head? == some ']' then some ⟨slashes, c :: body⟩ else none
  | _ => none

inductive Fragment
  | text (content : List Char)
  | opening (name : String) (parameters : Option (List Char))
  /-- Without a name the nearest tag is closed. -/
  | closing (name : Option String)
  deriving DecidableEq, Repr

/-- A backslash before a bracket that opens no tag is left out. -/
def withoutEscapes : List Char → List Char
  | '\\' :: '[' :: rest => '[' :: withoutEscapes rest
  | c :: rest => c :: withoutEscapes rest
  | [] => []

def Fragment.ofText (cs : List Char) : Fragment :=
  .text (withoutEscapes cs)

def Fragment.ofBody (body : List Char) : Fragment :=
  let name := body.takeWhile (· != '=')
  let parameters := match body.drop name.length with
    | [] => none
    | _ :: cs => some cs
  match name with
  | '/' :: closed =>
    let closed := Text.trim closed
    .closing (if closed.isEmpty then none else some (normalName closed))
  | _ => .opening (normalName name) parameters

/-- Of two backslashes before a tag one is printed; an odd one makes the tag text. -/
def RawTag.fragments (t : RawTag) : List Fragment :=
  let printed := Fragment.text (List.replicate (t.backslashes / 2) '\\')
  if t.backslashes % 2 = 1 then [printed, .ofText ('[' :: t.body ++ [']'])]
  else [printed, .ofBody t.body]

/-- The fragments of a text; `held` is text before, its nearest character first, and `skip` characters
belong to the last tag. -/
def fragmentsFrom (held : List Char) : (skip : Nat) → List Char → List Fragment
  | _, [] => [.ofText held.reverse]
  | skip + 1, _ :: rest => fragmentsFrom held skip rest
  | 0, c :: rest =>
    match tagAt? (c :: rest) with
    | some t => .ofText held.reverse :: t.fragments ++ fragmentsFrom [] (t.size - 1) rest
    | none => fragmentsFrom (c :: held) 0 rest

/-! ## Parameters of actions -/

/-- A number or a text in quotes. -/
def isLiteral (cs : List Char) : Bool :=
  match cs with
  | [] => false
  | c :: rest =>
    if c == '\'' || c == '"' then
      rest.getLast? == some c && !(rest.dropLast.any fun x => x == c || x == '\\')
    else cs.all fun x => '0' ≤ x && x ≤ '9'

def isLiteralList (cs : List Char) : Bool :=
  (Text.trim cs).isEmpty || (Text.cutAt ',' cs).all fun item => isLiteral (Text.trim item)

/-- The name of an action, which literals in brackets may follow, or nothing but literals. -/
def areParameters (cs : List Char) : Bool :=
  let rest := cs.dropWhile fun c => Text.isWord c || c == '.'
  match rest, rest.getLast? with
  | [], _ => true
  | '(' :: inner, some ')' => isLiteralList inner.dropLast
  | _, _ => isLiteralList cs

/-! ## Rendering -/

/-- A tag that is open. -/
structure OpenTag where
  name : String
  parameters : Option (List Char)
  deriving DecidableEq, Repr

/-- Parameters of an action are read when its tag is closed. -/
def OpenTag.close (t : OpenTag) : Except MarkupError Unit :=
  match t.parameters with
  | some cs =>
    if t.name.startsWith "@" && !cs.isEmpty && !areParameters (Text.trim cs) then
      .error (.badParameters (String.ofList cs))
    else .ok ()
  | none => .ok ()

/-- The nearest open tag of a name, and the others. -/
def removeTag (name : String) : List OpenTag → Option (OpenTag × List OpenTag)
  | [] => none
  | t :: rest =>
    if t.name == name then some (t, rest) else (removeTag name rest).map fun p => (p.1, t :: p.2)

/-- The text of fragments, `opened` being the tags that are open, the nearest first. -/
def renderFragments (opened : List OpenTag) : List Fragment → Except MarkupError (List Char)
  | [] => .ok []
  | .text cs :: rest => do return printable cs ++ (← renderFragments opened rest)
  | .opening name parameters :: rest => renderFragments (⟨name, parameters⟩ :: opened) rest
  | .closing (some name) :: rest =>
    match removeTag name opened with
    | none => .error (.unopened name)
    | some (t, opened) => do
      t.close
      renderFragments opened rest
  | .closing none :: rest =>
    match opened with
    | [] => .error .nothingOpen
    | t :: opened => do
      t.close
      renderFragments opened rest

/-- A text without its markup. -/
def render (text : String) : Except MarkupError (List Char) :=
  renderFragments [] (fragmentsFrom [] 0 text.toList)

end Shellwright.Console
