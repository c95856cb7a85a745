import Stubsmith.Text.CodePoint

/-!
# Services

The view of a proto service that stub writers work from. Names are made of characters and never empty;
types are written as they stand in the source and are not resolved.
-/
namespace Stubsmith

open Text (CodePoint)

/-- One method of a service, with the comments that stand before it. -/
structure Method where
  name : String
  request : List CodePoint
  response : List CodePoint
  comments : List (List CodePoint)
  name_ne : name ≠ ""
  deriving DecidableEq, Repr

/-- A service with its methods in the order of declaration; a name may occur twice. -/
structure Service where
  name : String
  methods : List Method
  name_ne : name ≠ ""
  deriving DecidableEq, Repr

def Service.methodNames (s : Service) : List String := s.methods.map (·.name)

end Stubsmith
