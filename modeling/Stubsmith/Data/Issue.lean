/-!
# Issues

What can be wrong with data that is checked against the shape it ought to have. A check reports every
issue it finds, each with the way to the part it concerns.
-/
namespace Stubsmith

/-- One step on the way to a part of a value. -/
inductive Step
  | field (name : String)
  | index (i : Int)
  deriving DecidableEq, Repr

/-- What can be wrong with a part of a value. -/
inductive IssueKind
  | missing
  | stringType
  | stringUnicode
  | stringTooShort
  | tupleType
  | modelType (model : String)
  | frozen
  | pathType
  | boolParsing
  | boolType
  | extraForbidden
  | invalidKey
  deriving DecidableEq, Repr

namespace IssueKind

def code : IssueKind → String
  | missing => "missing"
  | stringType => "string_type"
  | stringUnicode => "string_unicode"
  | stringTooShort => "string_too_short"
  | tupleType => "tuple_type"
  | modelType _ => "model_type"
  | frozen => "frozen_instance"
  | pathType => "path_type"
  | boolParsing => "bool_parsing"
  | boolType => "bool_type"
  | extraForbidden => "extra_forbidden"
  | invalidKey => "invalid_key"

def message : IssueKind → String
  | missing => "Field required"
  | stringType => "Input should be a valid string"
  | stringUnicode => "Input should be a valid string, unable to parse raw data as a unicode string"
  | stringTooShort => "String should have at least 1 character"
  | tupleType => "Input should be a valid tuple"
  | modelType m => "Input should be a valid dictionary or instance of " ++ m
  | frozen => "Instance is frozen"
  | pathType => "Input is not a valid path for <class 'pathlib.Path'>"
  | boolParsing => "Input should be a valid boolean, unable to interpret input"
  | boolType => "Input should be a valid boolean"
  | extraForbidden => "Extra inputs are not permitted"
  | invalidKey => "Keys should be strings"

end IssueKind

/-- Something wrong with the part of a value that `path` leads to. -/
structure Issue where
  kind : IssueKind
  path : List Step
  deriving DecidableEq, Repr

/-- The issue seen from one level up. -/
def Issue.under (step : Step) (i : Issue) : Issue := { i with path := step :: i.path }

/-- A value or all that is wrong with it. -/
abbrev Checked (α : Type) := Except (List Issue) α

namespace Checked

/-- Both results, or the issues of both. -/
def both {α β : Type} (a : Checked α) (b : Checked β) : Checked (α × β) :=
  match a, b with
  | .ok x, .ok y => .ok (x, y)
  | .ok _, .error es => .error es
  | .error es, .ok _ => .error es
  | .error es, .error fs => .error (es ++ fs)

/-- The issues seen from one level up. -/
def under {α : Type} (step : Step) (a : Checked α) : Checked α := a.mapError (·.map (·.under step))

end Checked

end Stubsmith
