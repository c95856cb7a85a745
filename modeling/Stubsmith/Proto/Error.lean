import Stubsmith.Proto.Parse
import Stubsmith.Text.Quoted
import Stubsmith.Text.Utf8

/-!
# What is wrong with a proto file

A file can be unreadable, no UTF-8, or no proto text. The message names the source and, for a fault of
the text, line and column.
-/
namespace Stubsmith.Proto

def SyntaxFault.message : SyntaxFault → String
  | unexpectedToken text => "unexpected token " ++ Text.quoted (String.ofList text)
  | unexpectedChar c => "unexpected character " ++ Text.quoted (String.ofList [c])
  | unexpectedEnd => "unexpected end of input"

/-- Why a proto file yields no tree. -/
inductive Cause
  | syntaxError (e : SyntaxError)
  | notUtf8 (reason : Text.Utf8Reason)
  | unreadable (reason : String)
  deriving Repr

structure ParseError where
  source : Option String
  cause : Cause
  deriving Repr

namespace ParseError

/-- The message without its place. -/
def text (e : ParseError) : String :=
  match e.cause with
  | .syntaxError s => s.fault.message
  | .notUtf8 reason => "not valid UTF-8: " ++ reason.message
  | .unreadable reason => "cannot read file: " ++ reason

def line (e : ParseError) : Option Nat :=
  match e.cause with
  | .syntaxError s => some s.line
  | _ => none

def column (e : ParseError) : Option Nat :=
  match e.cause with
  | .syntaxError s => some s.column
  | _ => none

/-- The source, or a stand-in for a text that has none. -/
def sourceName (e : ParseError) : String :=
  match e.source with
  | some s => if s.isEmpty then "<input>" else s
  | none => "<input>"

/-- Source, line and column as far as they are known. -/
def location (e : ParseError) : String :=
  match e.cause with
  | .syntaxError s =>
    e.sourceName ++ ":" ++ Text.decimal s.line ++ ":" ++ Text.decimal s.column
  | _ => e.sourceName

def message (e : ParseError) : String := e.location ++ ": " ++ e.text

end ParseError

/-- The syntax tree of a text that comes from `source`. -/
def parseFrom (source : Option String) (text : String) : Except ParseError Node :=
  (parse text).mapError fun e => ⟨source, .syntaxError e⟩

end Stubsmith.Proto
