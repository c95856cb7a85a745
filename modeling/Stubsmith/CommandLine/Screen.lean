import Stubsmith.Data.Json
import Stubsmith.Generation.Run

/-!
# What the command shows

Reports and lists of writers, as text for readers and as data for programs.
-/
namespace Stubsmith.CommandLine

open Files (Route)
open Text (CodePoint)
open Generation (Status Outcome Report RunResult)

/-- The mark in front of an input file. -/
def marker : Status → String
  | .generated => "✓"
  | .existing => "•"
  | .noServices => "⚠️ "
  | _ => "✗"

/-- What became of an input file, in words. -/
def label : Status → String
  | .generated => "generated"
  | .existing => "exists, left untouched"
  | .noServices => "no services"
  | .parseError => "parse error"
  | .createError => "cannot create output"
  | .writeError => "write failed"
  | .other code => code

/-- The text without the blanks at its end. -/
def trimEnd (s : String) : String := String.ofList (Text.trimRight s.toList)

/-- The input of an outcome, and what became of it with a line for what went wrong: two pieces. -/
def outcomeText (o : Outcome) : List (List CodePoint) :=
  let target := match o.output with
    | some p => "→ " ++ p.text
    | none => ""
  let trouble := match o.error with
    | some e => if e = "" then "" else "       " ++ e ++ "\n"
    | none => ""
  ["   " ++ marker o.status ++ " " ++ o.input.text ++ " ",
    trimEnd ("(" ++ label o.status ++ ") " ++ target) ++ "\n" ++ trouble]

/-- How many files there were, and how many of each status. -/
def totals (r : Report) : String :=
  let spaced (code : String) := String.ofList (code.toList.map fun c => if c = '_' then ' ' else c)
  let parts := r.sortedCounts.map fun (s, n) => Text.decimal n ++ " " ++ spaced s.code
  "   Files: " ++ Text.decimal r.total
    ++ if parts.isEmpty then "" else " (" ++ String.intercalate ", " parts ++ ")"

/-- The report of a run, in pieces. A quiet one shows only what went wrong. -/
def reportText (quiet : Bool) (writer : String) (input out : Route) (r : Report) :
    List (List CodePoint) :=
  let head : List CodePoint := if quiet then "" else
    "\n📦 " ++ writer ++ "\n   " ++ input.text ++ " → " ++ out.text ++ "\n\n"
  let none : List CodePoint := if r.total = 0 then "   ⚠️  No proto files found\n" else ""
  let shown := if quiet then r.outcomes.filter (!·.ok) else r.outcomes
  let foot : List CodePoint := if quiet then "" else "\n" ++ totals r ++ "\n\n"
  [head, none] ++ shown.flatMap outcomeText ++ [foot]

/-- The list of writers; the first is the one used by default. -/
def writersText (all : List Registry.Status) : String :=
  let line (isFirst : Bool) (s : Registry.Status) : String :=
    trimEnd ("   • " ++ s.name ++ (if isFirst then " (default)" else "") ++ "  " ++ s.description) ++ "\n"
  match all with
  | [] => "No writers registered\n"
  | first :: others =>
    "Available writers:\n" ++ line true first ++ String.join (others.map (line false))

def optionValue (s : Option String) : Value :=
  match s with
  | some t => .text t
  | none => .null

def outcomeValue (o : Outcome) : Value :=
  .mapping [("input", .text o.input.text), ("status", .text o.status.code),
    ("output", optionValue (o.output.map (·.text))), ("services", .number o.services 0),
    ("error", optionValue o.error)]

def reportValue (r : Report) : Value :=
  .mapping [("total", .number r.total 0),
    ("counts", .mapping (r.counts.map fun (s, n) => (s.code, .number n 0))),
    ("files", .list (r.outcomes.map outcomeValue))]

/-- The JSON of a message about what went wrong. -/
def errorJson (message : List CodePoint) : String :=
  Value.jsonParts "\x7b" "\x7d" 0 ["\"error\": " ++ Value.jsonPoints message]

/-- The JSON of a result. The routes of a run that was not refused are paths. -/
def resultJson (r : RunResult) : String :=
  match r.report with
  | .error e => errorJson e.message
  | .ok report => (Value.mapping [("proto", .text (Text.spelled r.request.input.text)),
      ("out", .text (Text.spelled r.request.out.text)),
      ("writer", optionValue (r.writer.map (·.name))), ("report", reportValue report)]).json

def writersValue (all : List Registry.Status) : Value :=
  .mapping (all.map fun s => (s.name, .mapping [("name", .text s.name), ("type", .text s.typeName),
    ("module", .text s.module), ("description", .text s.description)]))

end Stubsmith.CommandLine
