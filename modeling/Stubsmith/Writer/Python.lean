import Stubsmith.Text.Lines
import Stubsmith.Writer.Basic

/-!
# Python stubs

Each service becomes a class whose methods pass their request on to a connection. The comments of a
method become its docstring; quotes and backslashes in them are escaped, so no comment can end the
docstring early. Several services in one file stand two blank lines apart. A text with half a character in
it is rendered, but it cannot be written.
-/
namespace Stubsmith.Python

open Text (CodePoint)

/-- The module that belongs to a proto file: hyphens become underscores. -/
def moduleName (base : List CodePoint) : List CodePoint :=
  base.map fun p => if p = .char '-' then .char '_' else p

def fileName (base : List CodePoint) : List CodePoint := moduleName base ++ "_service.py"

def indent : List CodePoint := "    "

/-- A code point inside a docstring. -/
def escapeDoc (p : CodePoint) : List CodePoint :=
  if p = .char '\\' || p = .char '"' then [.char '\\', p] else [p]

/-- The lines of a docstring before quotes and indentation. -/
def docLines (comments : List (List CodePoint)) : List (List CodePoint) :=
  Text.lines ((Text.joinWith [.char '\n'] comments).flatMap escapeDoc)

def tripleQuote : List CodePoint := "\"\"\""

/-- The docstring of a method. There is none without a first line. -/
def docstring (comments : List (List CodePoint)) (indent : List CodePoint) : Option (List (List CodePoint)) :=
  match docLines comments with
  | [] => none
  | [l] => some [indent ++ tripleQuote ++ l ++ tripleQuote]
  | l :: ls => some ((indent ++ tripleQuote ++ l)
      :: ls.map (fun m => if m.isEmpty then [] else indent ++ m)
      ++ [indent ++ tripleQuote])

/-- The lines of a method, if its comments make a docstring. -/
def methodLines (m : Method) : Option (List (List CodePoint)) := do
  let doc ← if m.comments.isEmpty then some [] else docstring m.comments (indent ++ indent)
  return (indent ++ "def " ++ m.name ++ "(self, request):") :: doc
    ++ [indent ++ indent ++ "self.connector.createRequest(\"" ++ m.name ++ "\", request)"]

/-- The lines of a class before its methods. -/
def headLines (service : String) (base : List CodePoint) : List (List CodePoint) :=
  let className := service ++ "Service"
  [ "from . import " ++ moduleName base ++ "_pb2_grpc as importStub"
  , []
  , "class " ++ className ++ "(object):"
  , []
  , indent ++ "def __init__(self, router):"
  , indent ++ indent ++ "self.connector = router.__get__connection(" ++ className
      ++ ", importStub." ++ service ++ "Stub)" ]

/-- The text of one service, unless a method has a blank comment and no other. -/
def render (s : Service) (base : List CodePoint) : Option (List CodePoint) := do
  let methods ← s.methods.mapM methodLines
  let lines := headLines s.name base ++ methods.flatMap ([] :: ·)
  return lines.flatMap (· ++ [.char '\n'])

/-- What stands between two services in a file. -/
def separator : List CodePoint := "\n\n"

/-- What comes before a service. `position` is how far the file has been written, if that can be told. -/
def lead : (position : Option Nat) → List CodePoint
  | some n => if 0 < n then separator else []
  | none => []

/-- Appends a service. -/
def write (s : Service) (base fileName : List CodePoint) (position : Option Nat) : Emission :=
  match render s base with
  | none => { failure := some .blankComment }
  | some rendered =>
    let text := lead position ++ rendered
    match Text.encodePoints? text with
    | none => { failure := some (.unencodable text) }
    | some bytes =>
      { appended := bytes
        log := [⟨.debug, .pythonWriter, "Wrote " ++ s.name ++ " (" ++ Text.decimal s.methods.length
          ++ " methods) to " ++ fileName⟩] }

/-- The names of files are made of characters. -/
def writer : Writer where
  name := "PythonServiceWriter"
  description := "Python service classes wrapping grpc stubs behind a router."
  fileName base := Text.charText (fileName base)
  emit s base out held := write s base out (some held.length)

end Stubsmith.Python
