import RitualGate.Command.Report
import RitualGate.Host.Basic
import RitualGate.Statement.Reader
import RitualGate.Statement.View

/-!
# Reading programs

A program is a file or, for a dash, the standard input. `parseCommand` shows each of its statements
without running it.
-/

namespace RitualGate

namespace Command

/-- The name that stands for the standard input. -/
def stdinName : String := "-"

/-- Whether a name has the extension of ritual programs, or is the standard input. -/
def hasProgramExtension (file : String) : Bool :=
  file == stdinName || (Path.ofText file).extension? == some "spiral"

variable {m : Type → Type} [Monad m] [Host m]

/-- The text of a program. -/
def readProgram (file : String) : m (Except Failure String) := do
  if file = stdinName then
    match Text.decode? (← Host.input) with
    | some s => return .ok s
    | none => return .error ["Failed to read program from stdin", IoError.notText.message]
  else
    match ← Host.readText (.ofText file) with
    | .ok s => return .ok s
    | .error e => return .error ["Failed to read ritual program " ++ file, e.message]

/-- A statement as it is shown. -/
def shownStatement (canonical : Bool) (s : Statement) : String :=
  if canonical then s.canonical else Data.Json.compact (StatementView.ofStatement s none).toValue

/-- Shows a line of a program. -/
def showLine (canonical : Bool) (r : Report) (l : ParsedLine) : Report :=
  match l.result with
  | .ok s => r.print (shownStatement canonical s)
  | .error e => r.printError e.message

/-- The number of lines that hold no statement. -/
def countErrors (ls : List ParsedLine) : Nat :=
  (ls.filter fun l => !l.result.isOk).length

/-- Shows the statements of a program, as data or in canonical text. -/
def parseCommand (file : String) (canonical : Bool) : m Report := do
  match ← readProgram file with
  | .error f => return .failed f
  | .ok program =>
    let parsed := parseProgram program
    let report := parsed.foldl (showLine canonical) .empty
    if countErrors parsed = 0 then return report
    else return report.fail [Text.numeral (countErrors parsed) ++ " line(s) failed to parse"]

end Command

end RitualGate
