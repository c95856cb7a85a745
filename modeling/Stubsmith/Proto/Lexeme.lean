import Stubsmith.Proto.Token

/-!
# Lexemes under an offer

Which lexeme stands at the front of a text depends on the terminals that the grammar offers there. The
recognisers are tried in a fixed order and the first that succeeds decides, even when a later one
would have read more: comments, strings, words, names, blanks, keywords and signs. A word or a name
that spells an offered keyword or sign is that keyword or sign.
-/
namespace Stubsmith.Proto

/-- What stands at the front of a text. -/
inductive Lexeme
  | space (text : List Char)
  | comment (text : List Char)
  | token (kind : Terminal) (text : List Char)
  deriving DecidableEq, Repr

def Lexeme.text : Lexeme → List Char
  | space t => t
  | comment t => t
  | token _ t => t

/-- A set of terminals. -/
abbrev Offer := Terminal → Bool

/-- All terminals are offered. -/
def Offer.everything : Offer := fun _ => true

/-- The kind of a word or a name: an offered terminal with this spelling, else the given kind. -/
def Offer.classify (offer : Offer) (kind : Terminal) (text : List Char) : Terminal :=
  (Terminal.fixed.find? fun t => offer t && t.spelling? == some text).getD kind

/-- The lexeme of the given kind, if the kind is offered and its recogniser succeeds. -/
def Offer.lexed? (offer : Offer) (kind : Terminal) (found : Option (List Char)) : Option Lexeme :=
  if offer kind then found.map fun text => .token (offer.classify kind text) text else none

/-- The offered keyword or sign at the front. -/
def Offer.fixed? (offer : Offer) (cs : List Char) : Option Lexeme :=
  (Terminal.fixed.find? fun t => offer t && t.stands cs).bind fun t =>
    t.spelling?.map (.token t)

/-- The lexeme at the front of a text. -/
def Offer.lexeme? (offer : Offer) (cs : List Char) : Option Lexeme :=
  ((comment? cs).map .comment)
    <|> offer.lexed? .string (string? cs)
    <|> offer.lexed? .word (word? cs)
    <|> offer.lexed? .ident (ident? cs)
    <|> ((space? cs).map .space)
    <|> offer.fixed? cs

end Stubsmith.Proto
