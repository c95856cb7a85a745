import Stubsmith.Files.FileSystem
import Stubsmith.Proto.Error
import Stubsmith.Service.Extract
import Stubsmith.Text.Lines

/-!
# Proto files as sources of services

A file is read as UTF-8, with or without a byte order mark, and its line ends are unified before it is
parsed.
-/
namespace Stubsmith.Generation

open Files (Path FileSystem FileError)

/-- The text in the bytes of a proto file. -/
def sourceText (bytes : Text.Bytes) : Except Text.Utf8Fault String :=
  (Text.decodeMarked bytes).map fun cs => String.ofList (Text.unifyNewlines cs)

/-- The syntax tree in the bytes of a file that is called `source`. -/
def parseBytes (source : String) (bytes : Text.Bytes) : Except Proto.ParseError Proto.Node :=
  match sourceText bytes with
  | .error fault => .error ⟨some source, .notUtf8 fault.reason⟩
  | .ok text => Proto.parseFrom (some source) text

/-- Why a file is no source of services. A path that holds a character that no path may hold is not
blamed on the file, nor are issues with the descriptions of its services. -/
inductive SourceError
  | parse (e : Proto.ParseError)
  | nullCharacter
  | invalid (issues : List Issue)
  deriving Repr

/-- The syntax tree of a file, with the record of it. -/
def parseFile (fs : FileSystem) (p : Path) : Except SourceError Proto.Node × List LogRecord :=
  match fs.readFile p with
  | .error .nullCharacter => (.error .nullCharacter, [])
  | .error e => (.error (.parse ⟨some p.text, .unreadable e.message⟩), [])
  | .ok bytes =>
    match parseBytes p.text bytes with
    | .error e => (.error (.parse e), [])
    | .ok tree => (.ok tree, [⟨.debug, .parsing, "Parsed " ++ p.text ++ ": "
        ++ Text.decimal tree.children.length ++ " top-level nodes"⟩])

/-- The services of a file, with the records of reading it. -/
def servicesOf (fs : FileSystem) (p : Path) :
    Except SourceError (List Service) × List LogRecord :=
  match parseFile fs p with
  | (.error e, log) => (.error e, log)
  | (.ok tree, log) =>
    let (services, more) := Service.extract tree
    (services.mapError .invalid, log ++ more)

end Stubsmith.Generation
