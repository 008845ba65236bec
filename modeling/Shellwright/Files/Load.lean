import Shellwright.Document
import Shellwright.Files.Tree
/-!
# Documents from files
-/

namespace Shellwright.Files

/-- Language of a file that is no shell script. -/
def plainLanguage : String := "plaintext"

/-- The document of a file, under the address of the place that the path really leads to. -/
def loadDocument (t : Tree) (path : String) (language : Option String) :
    Except FileError TextDocument := do
  let place ← t.resolve path
  let text ← t.readText place
  let guessed := if FileKind.hasShellSuffix place then shellLanguage else plainLanguage
  let languageId := match language with
    | some l => if l.isEmpty then guessed else l
    | none => guessed
  return TextDocument.create (uriOf place) text languageId place 1

end Shellwright.Files
