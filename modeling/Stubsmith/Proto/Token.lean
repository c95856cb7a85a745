import Stubsmith.Text.Blank

/-!
# Tokens of a proto file

The terminals of the language, the tokens that carry them, and the recognisers of single lexemes. A
recogniser looks at the front of a text and gives the lexeme that stands there, if one does.
-/
namespace Stubsmith.Proto

inductive Keyword
  | kwSyntax
  | kwEdition
  | kwImport
  | kwWeak
  | kwPublic
  | kwPackage
  | kwOption
  | kwMessage
  | kwEnum
  | kwExtend
  | kwService
  | kwRpc
  | kwStream
  | kwReturns
  deriving DecidableEq, Repr

/-- A kind of token. -/
inductive Terminal
  | keyword (k : Keyword)
  | equals
  | semicolon
  | openBrace
  | closeBrace
  | openParen
  | closeParen
  | dot
  | ident
  | string
  | word
  deriving DecidableEq, Repr

namespace Keyword

def all : List Keyword :=
  [kwSyntax, kwEdition, kwImport, kwWeak, kwPublic, kwPackage, kwOption, kwMessage, kwEnum, kwExtend,
    kwService, kwRpc, kwStream, kwReturns]

theorem mem_all (k : Keyword) : k ∈ all := by cases k <;> decide

def spelling : Keyword → String
  | kwSyntax => "syntax"
  | kwEdition => "edition"
  | kwImport => "import"
  | kwWeak => "weak"
  | kwPublic => "public"
  | kwPackage => "package"
  | kwOption => "option"
  | kwMessage => "message"
  | kwEnum => "enum"
  | kwExtend => "extend"
  | kwService => "service"
  | kwRpc => "rpc"
  | kwStream => "stream"
  | kwReturns => "returns"

def name : Keyword → String
  | kwSyntax => "SYNTAX"
  | kwEdition => "EDITION"
  | kwImport => "IMPORT"
  | kwWeak => "WEAK"
  | kwPublic => "PUBLIC"
  | kwPackage => "PACKAGE"
  | kwOption => "OPTION"
  | kwMessage => "MESSAGE"
  | kwEnum => "ENUM"
  | kwExtend => "EXTEND"
  | kwService => "SERVICE"
  | kwRpc => "RPC"
  | kwStream => "STREAM"
  | kwReturns => "RETURNS"

end Keyword

namespace Terminal

/-- The name of the kind in a syntax tree. -/
def name : Terminal → String
  | keyword k => k.name
  | equals => "EQUAL"
  | semicolon => "SEMICOLON"
  | openBrace => "LBRACE"
  | closeBrace => "RBRACE"
  | openParen => "LPAR"
  | closeParen => "RPAR"
  | dot => "DOT"
  | ident => "IDENT"
  | string => "STRING"
  | word => "WORD"

/-- The one spelling of a keyword or a sign; names, strings and words have many. -/
def spelling? : Terminal → Option (List Char)
  | keyword k => some k.spelling.toList
  | equals => some ['=']
  | semicolon => some [';']
  | openBrace => some ['\x7b']
  | closeBrace => some ['\x7d']
  | openParen => some ['(']
  | closeParen => some [')']
  | dot => some ['.']
  | ident => none
  | string => none
  | word => none

/-- The terminals with one spelling. No spelling begins another. -/
def fixed : List Terminal :=
  Keyword.all.map keyword ++
    [equals, semicolon, openBrace, closeBrace, openParen, closeParen, dot]

end Terminal

/-- A place in a text: characters before it, and its line and column, counted from one. -/
structure Position where
  offset : Nat
  line : Nat
  column : Nat
  deriving DecidableEq, Repr

namespace Position

def start : Position := ⟨0, 1, 1⟩

/-- The place after one character. -/
def next (p : Position) (c : Char) : Position :=
  if c = '\n' then ⟨p.offset + 1, p.line + 1, 1⟩ else ⟨p.offset + 1, p.line, p.column + 1⟩

/-- The place after a text. -/
def after (p : Position) (cs : List Char) : Position := cs.foldl next p

end Position

structure Token where
  kind : Terminal
  text : List Char
  position : Position
  deriving DecidableEq, Repr

/-- The offset of the first character after the token. -/
def Token.stop (t : Token) : Nat := t.position.offset + t.text.length

structure Comment where
  text : List Char
  position : Position
  deriving DecidableEq, Repr

/-- The blanks that may stand between tokens. -/
def isSpace (c : Char) : Bool :=
  c == ' ' || c == '\t' || c == '\x0c' || c == '\r' || c == '\n'

/-- The text up to the end of a block comment, the end included. -/
def blockCommentTail : List Char → Option (List Char)
  | [] => none
  | '*' :: '/' :: _ => some ['*', '/']
  | c :: cs => (blockCommentTail cs).map (c :: ·)

/-- A comment to the end of the line, or up to the first end mark of a block comment. -/
def comment? : List Char → Option (List Char)
  | '/' :: '/' :: cs => some ('/' :: '/' :: cs.takeWhile (· != '\n'))
  | '/' :: '*' :: cs => (blockCommentTail cs).map ('/' :: '*' :: ·)
  | _ => none

/-- The text up to the closing quote `q`, the quote included. A backslash takes the character after it
along; no character of a string is a newline. -/
def stringTail (q : Char) : List Char → Option (List Char)
  | [] => none
  | '\\' :: c :: cs => if c = '\n' then none else (stringTail q cs).map ('\\' :: c :: ·)
  | c :: cs =>
    if c = q then some [c]
    else if c = '\n' || c = '\\' then none
    else (stringTail q cs).map (c :: ·)

/-- A string in double quotes or in apostrophes. -/
def string? : List Char → Option (List Char)
  | c :: cs => if c = '"' || c = '\x27' then (stringTail c cs).map (c :: ·) else none
  | [] => none

/-- A word cannot go on with `c` if `cs` comes after it: `c` is blank, a brace, a quote, a semicolon
or the beginning of a comment. -/
def endsWord (c : Char) (cs : List Char) : Bool :=
  Text.isBlank c || c == ';' || c == '\x7b' || c == '\x7d' || c == '"' || c == '\x27'
    || (c == '/' && (cs.head? == some '/' || cs.head? == some '*'))

/-- The longest run of word characters at the front. -/
def wordRun : List Char → List Char
  | [] => []
  | c :: cs => if endsWord c cs then [] else c :: wordRun cs

/-- The lexeme unless it is empty. -/
def nonempty? (cs : List Char) : Option (List Char) := if cs.isEmpty then none else some cs

def word? (cs : List Char) : Option (List Char) := nonempty? (wordRun cs)

def isIdentStart (c : Char) : Bool := c.isAlpha || c == '_'

def isIdentRest (c : Char) : Bool := c.isAlphanum || c == '_'

def ident? : List Char → Option (List Char)
  | c :: cs => if isIdentStart c then some (c :: cs.takeWhile isIdentRest) else none
  | [] => none

def space? (cs : List Char) : Option (List Char) := nonempty? (cs.takeWhile isSpace)

/-- The terminal has one spelling and it stands at the front. -/
def Terminal.stands (t : Terminal) (cs : List Char) : Bool :=
  match t.spelling? with
  | some s => s.isPrefixOf cs
  | none => false

end Stubsmith.Proto
