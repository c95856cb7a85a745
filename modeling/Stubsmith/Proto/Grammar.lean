import Stubsmith.Proto.Token

/-!
# The grammar of proto files

Each rule has a shape: a regular expression over terminals and rules that says which sequences of
children a node of this rule may have. `Shape.Matches` states that, and `Shape.after` gives what may
still come once one child has been read. Bodies of messages, enumerations and extensions, and values
of options, are opaque: balanced braces around words, strings and semicolons.
-/
namespace Stubsmith.Proto

inductive Rule
  | file
  | syntaxDecl
  | editionDecl
  | importDecl
  | packageDecl
  | optionDecl
  | emptyDecl
  | definition
  | messageDef
  | enumDef
  | extendDef
  | serviceDef
  | serviceName
  | method
  | methodName
  | messageType
  | dottedName
  | block
  deriving DecidableEq, Repr

/-- The name of the rule in a syntax tree. -/
def Rule.name : Rule → String
  | file => "proto"
  | syntaxDecl => "syntax"
  | editionDecl => "edition"
  | importDecl => "import_statement"
  | packageDecl => "package_statement"
  | optionDecl => "option_statement"
  | emptyDecl => "empty_statement"
  | definition => "top_level_def"
  | messageDef => "message_def"
  | enumDef => "enum_def"
  | extendDef => "extend_def"
  | serviceDef => "service_def"
  | serviceName => "service_name"
  | method => "rpc"
  | methodName => "rpc_name"
  | messageType => "message_type"
  | dottedName => "full_ident"
  | block => "block"

/-- What a child of a node can be. -/
inductive Piece
  | token (t : Terminal)
  | rule (r : Rule)
  deriving DecidableEq, Repr

/-- A regular expression over pieces. -/
inductive Shape
  | never
  | empty
  | piece (p : Piece)
  | seq (a b : Shape)
  | alt (a b : Shape)
  | many (a : Shape)
  deriving DecidableEq, Repr

namespace Shape

/-- The sequences of pieces that a shape describes. -/
inductive Matches : Shape → List Piece → Prop
  | empty : Matches empty []
  | piece (p : Piece) : Matches (piece p) [p]
  | seq {a b : Shape} {u v : List Piece} : Matches a u → Matches b v → Matches (seq a b) (u ++ v)
  | altLeft {a b : Shape} {u : List Piece} : Matches a u → Matches (alt a b) u
  | altRight {a b : Shape} {u : List Piece} : Matches b u → Matches (alt a b) u
  | manyNil {a : Shape} : Matches (many a) []
  | manyCons {a : Shape} {u v : List Piece} :
      Matches a u → Matches (many a) v → Matches (many a) (u ++ v)

/-- The shape describes the empty sequence. -/
def nullable : Shape → Bool
  | never => false
  | empty => true
  | piece _ => false
  | seq a b => a.nullable && b.nullable
  | alt a b => a.nullable || b.nullable
  | many _ => true

/-- A sequence of two shapes, simplified where the first is trivial. -/
def followedBy : Shape → Shape → Shape
  | never, _ => never
  | empty, b => b
  | a, b => seq a b

/-- A choice of two shapes, simplified where one of them is impossible. -/
def orElse : Shape → Shape → Shape
  | never, b => b
  | a, never => a
  | a, b => alt a b

/-- What may come after the piece `p`. -/
def after (p : Piece) : Shape → Shape
  | never => never
  | empty => never
  | piece q => if q = p then empty else never
  | seq a b =>
    orElse ((a.after p).followedBy b) (if a.nullable then b.after p else never)
  | alt a b => orElse (a.after p) (b.after p)
  | many a => (a.after p).followedBy (many a)

/-- The pieces that may come first. -/
def firsts : Shape → List Piece
  | never => []
  | empty => []
  | piece p => [p]
  | seq a b => if a.nullable then a.firsts ++ b.firsts else a.firsts
  | alt a b => a.firsts ++ b.firsts
  | many a => a.firsts

def token (t : Terminal) : Shape := piece (.token t)

def keyword (k : Keyword) : Shape := piece (.token (.keyword k))

def rule (r : Rule) : Shape := piece (.rule r)

/-- The shapes one after the other. -/
def sequence : List Shape → Shape
  | [] => empty
  | [a] => a
  | a :: b :: as => seq a (sequence (b :: as))

/-- One of the shapes. -/
def oneOf : List Shape → Shape
  | [] => never
  | [a] => a
  | a :: b :: as => alt a (oneOf (b :: as))

def optional (a : Shape) : Shape := alt a empty

/-- The later components of a dotted name. -/
def dottedTail : Shape := many (sequence [token .dot, token .ident])

/-- A dotted name: a component and perhaps more of them behind dots. -/
def dotted : Shape :=
  sequence [token .ident, optional (sequence [token .dot, token .ident, dottedTail])]

end Shape

namespace Rule

open Shape in
/-- The shape of the children of a node. -/
def shape : Rule → Shape
  | file => many (oneOf [rule syntaxDecl, rule editionDecl, rule importDecl, rule packageDecl,
      rule optionDecl, rule definition, rule emptyDecl])
  | syntaxDecl => sequence [keyword .kwSyntax, token .equals, token .string, token .semicolon]
  | editionDecl => sequence [keyword .kwEdition, token .equals, token .string, token .semicolon]
  | importDecl => sequence [keyword .kwImport, optional (oneOf [keyword .kwWeak, keyword .kwPublic]),
      token .string, token .semicolon]
  | packageDecl => sequence [keyword .kwPackage, rule dottedName, token .semicolon]
  | optionDecl =>
    let part := oneOf [token .word, token .string, rule block]
    sequence [keyword .kwOption, part, many part, token .semicolon]
  | emptyDecl => token .semicolon
  | definition => oneOf [rule messageDef, rule enumDef, rule extendDef, rule serviceDef]
  | messageDef => sequence [keyword .kwMessage, token .ident, rule block]
  | enumDef => sequence [keyword .kwEnum, token .ident, rule block]
  | extendDef => sequence [keyword .kwExtend, rule dottedName, rule block]
  | serviceDef => sequence [keyword .kwService, rule serviceName, token .openBrace,
      many (oneOf [rule method, rule optionDecl, token .semicolon]), token .closeBrace]
  | serviceName => token .ident
  | method =>
    let type := sequence [token .openParen, optional (keyword .kwStream), rule messageType,
      token .closeParen]
    sequence [keyword .kwRpc, rule methodName, type, keyword .kwReturns, type,
      oneOf [rule block, token .semicolon]]
  | methodName => token .ident
  | messageType => sequence [optional (token .dot), dotted]
  | dottedName => dotted
  | block => sequence [token .openBrace,
      many (oneOf [token .word, token .string, token .semicolon, rule block]), token .closeBrace]

/-- The terminals that open a statement at the top of a file. -/
def statementStarts : List Terminal :=
  [.keyword .kwEdition, .keyword .kwEnum, .keyword .kwExtend, .keyword .kwImport, .keyword .kwMessage,
    .keyword .kwOption, .keyword .kwPackage, .semicolon, .keyword .kwService, .keyword .kwSyntax]

/-- The terminals with which a node of the rule can begin. -/
def starts : Rule → List Terminal
  | file => statementStarts
  | syntaxDecl => [.keyword .kwSyntax]
  | editionDecl => [.keyword .kwEdition]
  | importDecl => [.keyword .kwImport]
  | packageDecl => [.keyword .kwPackage]
  | optionDecl => [.keyword .kwOption]
  | emptyDecl => [.semicolon]
  | definition =>
    [.keyword .kwMessage, .keyword .kwEnum, .keyword .kwExtend, .keyword .kwService]
  | messageDef => [.keyword .kwMessage]
  | enumDef => [.keyword .kwEnum]
  | extendDef => [.keyword .kwExtend]
  | serviceDef => [.keyword .kwService]
  | serviceName => [.ident]
  | method => [.keyword .kwRpc]
  | methodName => [.ident]
  | messageType => [.dot, .ident]
  | dottedName => [.ident]
  | block => [.openBrace]

/-- The terminals that can stand behind a node of the rule, anywhere in a file. -/
def follows : Rule → List Terminal
  | file => []
  | optionDecl => .keyword .kwRpc :: .closeBrace :: statementStarts
  | serviceName => [.openBrace]
  | method => [.keyword .kwOption, .keyword .kwRpc, .closeBrace, .semicolon]
  | methodName => [.openParen]
  | messageType => [.closeParen]
  | dottedName => [.openBrace, .semicolon]
  | block =>
    .keyword .kwRpc :: .openBrace :: .closeBrace :: .string :: .word :: statementStarts
  | _ => statementStarts

end Rule

/-- The piece can begin with the terminal. -/
def Piece.begins (t : Terminal) : Piece → Bool
  | token u => u = t
  | rule r => r.starts.contains t

/-- The piece that the terminal begins, among those that may come first. -/
def Shape.choose (s : Shape) (t : Terminal) : Option Piece := s.firsts.find? (·.begins t)

end Stubsmith.Proto
