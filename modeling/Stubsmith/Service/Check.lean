import Stubsmith.Data.Value
import Stubsmith.Service.Basic

/-!
# Checked services

Descriptions of services and methods are checked as they are made: a name is a text of characters that
is not empty. They are made from the parts at hand or read from plain data. All issues are reported, those
of a description in the order of its fields; unknown fields are ignored.
-/
namespace Stubsmith.Service

open Text (CodePoint)

/-- A name is a text of characters that is not empty. -/
def checkName (ps : List CodePoint) : Checked { s : String // s ≠ "" } :=
  match Text.plain? ps with
  | none => .error [⟨.stringUnicode, []⟩]
  | some s => if h : s = "" then .error [⟨.stringTooShort, []⟩] else .ok ⟨s, h⟩

/-- The method with these parts, if its name is one. -/
def describeMethod (name request response : List CodePoint) (comments : List (List CodePoint)) :
    Checked Method :=
  (Checked.under (.field "name") (checkName name)).map fun n => ⟨n.1, request, response, comments, n.2⟩

/-- The service with these parts, if its name is one. -/
def describeService (name : List CodePoint) (methods : List Method) : Checked Service :=
  (Checked.under (.field "name") (checkName name)).map fun n => ⟨n.1, methods, n.2⟩

def checkText : Value → Checked (List CodePoint)
  | .text ps => .ok ps
  | _ => .error [⟨.stringType, []⟩]

/-- The field of a mapping under a check. -/
def required {α : Type} (check : Value → Checked α) (name : String) (es : List (String × Value)) :
    Checked α :=
  match es.lookup name with
  | some v => Checked.under (.field name) (check v)
  | none => .error [⟨.missing, [.field name]⟩]

/-- A field with a list in it, empty if it is absent. -/
def listField {α : Type} (check : Value → Checked α) (name : String) (es : List (String × Value)) :
    Checked (List α) :=
  match es.lookup name with
  | some (.list vs) => Checked.under (.field name) (Checked.each check 0 vs)
  | some _ => .error [⟨.tupleType, [.field name]⟩]
  | none => .ok []

/-- The field with the name of a description. -/
def nameField (es : List (String × Value)) : Checked { s : String // s ≠ "" } :=
  required (fun v => checkText v >>= checkName) "name" es

def checkMethod : Value → Checked Method
  | .mapping es =>
    ((nameField es).both <| (required checkText "request_type" es).both <|
      (required checkText "response_type" es).both <| listField checkText "comments" es).map
    fun (name, request, response, comments) => ⟨name.1, request, response, comments, name.2⟩
  | _ => .error [⟨.modelType "MethodDescription", []⟩]

def checkService : Value → Checked Service
  | .mapping es =>
    ((nameField es).both (listField checkMethod "methods" es)).map
    fun (name, methods) => ⟨name.1, methods, name.2⟩
  | _ => .error [⟨.modelType "ServiceDescription", []⟩]

/-- Descriptions do not change: an attempt to set a field is an issue of that field. A name that begins
with an underscore belongs to no description and may be set. -/
def assignmentIssue? (name : String) : Option Issue :=
  if name.toList.head? = some '_' then none else some ⟨.frozen, [.field name]⟩

end Stubsmith.Service
