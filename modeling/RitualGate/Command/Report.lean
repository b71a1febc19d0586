import RitualGate.Failure

/-!
# Reports of commands

A command prints to two channels and ends well or with a failure. A failure is shown as what was
tried, and under it the causes: one cause as it is, several with numbers.
-/

namespace RitualGate

/-- What a command prints and how it ends. -/
structure Report where
  out : String
  err : String
  /-- The failure, empty if there was none. -/
  failure : Failure
deriving DecidableEq, Repr

namespace Report

/-- Nothing printed. -/
def empty : Report := ⟨"", "", []⟩

/-- A failure before anything is printed. -/
def failed (f : Failure) : Report := ⟨"", "", f⟩

/-- Adds a line to what is printed. -/
def print (r : Report) (line : String) : Report :=
  { r with out := r.out ++ line ++ "\n" }

/-- Adds a line to what is printed about errors. -/
def printError (r : Report) (line : String) : Report :=
  { r with err := r.err ++ line ++ "\n" }

/-- Adds lines to what is printed. -/
def printAll (r : Report) (lines : List String) : Report :=
  lines.foldl print r

/-- Ends with a failure. -/
def fail (r : Report) (f : Failure) : Report :=
  { r with failure := f }

/-- Whether the command ended well. -/
def succeeded (r : Report) : Bool :=
  r.failure.isEmpty

/-- The status with which the program ends. -/
def status (r : Report) : UInt32 :=
  if r.succeeded then 0 else 1

/-- A cause in an indented block: the first line behind a mark, the others under it. -/
def indent (mark : String) (cause : String) : String :=
  let margin := String.ofList (mark.toList.map fun _ => ' ')
  mark ++ String.ofList (cause.toList.flatMap fun c =>
    if c = '\n' then '\n' :: margin.toList else [c])

/-- The mark of the cause with a number. -/
def numberMark (n : Nat) : String :=
  let digits := Text.numeral n
  String.ofList (List.replicate (5 - digits.length) ' ') ++ digits ++ ": "

/-- The causes of a failure, each on a line of its own. -/
def causeLines : List String → List String
  | [] => []
  | [cause] => [indent "    " cause]
  | causes => causes.zipIdx.map fun (cause, n) => indent (numberMark n) cause

/-- A failure as it is shown at the end. -/
def failureText : Failure → String
  | [] => ""
  | [outer] => "Error: " ++ outer ++ "\n"
  | outer :: causes =>
    "Error: " ++ outer ++ "\n\nCaused by:\n" ++ "\n".intercalate (causeLines causes) ++ "\n"

/-- All that is printed about errors. -/
def errorText (r : Report) : String :=
  r.err ++ failureText r.failure

end Report

end RitualGate
