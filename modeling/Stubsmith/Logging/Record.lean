import Stubsmith.Text.CodePoint

/-!
# Log records

What the parts of the program have to say while they work. A record has a level, an origin and a
message, which may quote a text with half characters in it; it is returned as data and shown, or not, by
whoever asked for the work.
-/
namespace Stubsmith

inductive Level
  | debug
  | info
  | warning
  | error
  /-- An error that is shown together with what caused it. -/
  | failure
  deriving DecidableEq, Repr

def Level.name : Level → String
  | debug => "DEBUG"
  | info => "INFO"
  | warning => "WARNING"
  | error => "ERROR"
  | failure => "ERROR"

/-- The weight of a level; a threshold lets through what weighs at least as much. -/
def Level.weight : Level → Nat
  | debug => 10
  | info => 20
  | warning => 30
  | error => 40
  | failure => 40

/-- The part of the program that a record comes from. -/
inductive Origin
  | parsing
  | extraction
  | discovery
  | generation
  | running
  | configuration
  | registry
  | pythonWriter
  deriving DecidableEq, Repr

/-- The channel of an origin, below the channel of the program. -/
def Origin.channel : Origin → String
  | parsing => "core.services.proto_parser"
  | extraction => "core.services.extractor"
  | discovery => "core.services.file_discovery"
  | generation => "core.services.generator"
  | running => "core.use_cases.generate"
  | configuration => "core.config.loader"
  | registry => "adapters.registry"
  | pythonWriter => "adapters.writers.python"

structure LogRecord where
  level : Level
  origin : Origin
  message : List Text.CodePoint
  deriving DecidableEq, Repr

end Stubsmith
