import Shellwright.Files.Path
import Shellwright.Keyed
import Shellwright.Position
import Shellwright.Text.Lower
/-!
# Documents

Text buffers of an editor, and which of them hold shell scripts.
-/

namespace Shellwright

/-- Language of a document that the host tags as a shell script. -/
def shellLanguage : String := "shellscript"

def shellExtensions : List String :=
  [".sh", ".bash", ".zsh", ".ksh", ".bats", ".command"]

/-- A mutable buffer; `version` counts the updates. -/
structure TextDocument where
  uri : String
  text : String := ""
  languageId : String := shellLanguage
  fileName : String := ""
  version : Int := 1
  deriving DecidableEq, Repr

/-- The start of the address of a file. -/
def fileScheme : String := "file://"

/-- The file name that an address stands for when no other is known. -/
def fileNameOfUri (uri : String) : String :=
  if uri.startsWith fileScheme then String.ofList (uri.toList.drop fileScheme.length) else uri

namespace TextDocument

/-- A document without a file name takes it from its address. -/
def create (uri text languageId fileName : String) (version : Int) : TextDocument :=
  ⟨uri, text, languageId, if fileName.isEmpty then fileNameOfUri uri else fileName, version⟩

def update (d : TextDocument) (text : String) : TextDocument :=
  { d with text := text, version := d.version + 1 }

def lineCount (d : TextDocument) : Nat :=
  (Text.editorLines d.text.toList).length

end TextDocument

namespace FileKind

/-- Endings of the names of scratch, backup and version control files. -/
def skippedEndings : List String :=
  [".git", ".swp", ".swo", "~", ".tmp", ".bak"]

def skippedBeginning : String := "extension-output-"

/-- The name ends with `ending`, or does so before one last line feed. -/
def endsWith (name ending : List Char) : Bool :=
  ending.isSuffixOf name || (ending ++ ['\n']).isSuffixOf name

/-- Editor scratch, backup and version control files are never diagnosed. -/
def isSkipped (fileName : String) : Bool :=
  let base := (Path.ofString fileName).name.toList
  skippedEndings.any (fun e => endsWith base e.toList) || skippedBeginning.toList.isPrefixOf base

def lowerSuffix (fileName : String) : List Char :=
  Text.lower (Path.ofString fileName).suffix

def hasShellSuffix (fileName : String) : Bool :=
  shellExtensions.any fun e => e.toList == lowerSuffix fileName

/-- A document is diagnosed when the host tags it as a shell script or its name has one of the
extensions, in any case, unless it is skipped. -/
def isShell (fileName languageId : String) (extensions : List String) : Bool :=
  !isSkipped fileName &&
    (languageId == shellLanguage ||
      extensions.any fun e => Text.lower e.toList == lowerSuffix fileName)

end FileKind

def TextDocument.isShell (d : TextDocument) : Bool :=
  FileKind.isShell d.fileName d.languageId shellExtensions

/-- Documents of a host by the names that it has for them. -/
abbrev Buffers := Keyed String TextDocument

/-- The document of a name; an empty one for a name that the host does not know. -/
def Buffers.find (b : Buffers) (name : String) : TextDocument :=
  (Keyed.get? b name).getD ⟨"", "", shellLanguage, "", 1⟩

end Shellwright
