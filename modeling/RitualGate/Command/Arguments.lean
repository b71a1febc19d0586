import RitualGate.Command.Audit
import RitualGate.Command.Create
import RitualGate.Command.Project
import RitualGate.Command.Run

/-!
# Command lines

A command line names a command, its operands and its options. An option is written as one word with
an equals sign or as two words, in any order with the operands, and at most once. Behind a double
dash everything is an operand. The switch for debugging may stand anywhere before the double dash.
-/

namespace RitualGate

namespace Command

/-- The version of the program. -/
def version : String := "0.1.0"

/-- What a command line asks for. -/
inductive Invocation where
  | run (options : RunOptions)
  | parse (file : String) (canonical : Bool)
  | create (e : Example) (output : String) (force : Bool)
  | verifyAudit (log : String) (json : Bool)
  | initProject (root : String) (name : Option String)
  | projectInfo (root : String) (json : Bool)
  | addCard (root id topic content : String)
  | listCards (root : String) (json : Bool)
deriving DecidableEq, Repr

namespace Invocation

/-- Does what is asked for. -/
def perform {m : Type → Type} [Monad m] [Host m] : Invocation → m Report
  | run options => runCommand options
  | parse file canonical => parseCommand file canonical
  | create e output force => createCommand e output force
  | verifyAudit log json => verifyAuditCommand log json
  | initProject root name => initProjectCommand root name
  | projectInfo root json => projectInfoCommand root json
  | addCard root id topic content => addCardCommand root id topic content
  | listCards root json => listCardsCommand root json

/-- What is to be said before that. -/
def warnings : Invocation → List String
  | run options => options.warnings
  | _ => []

end Invocation

/-- Why a command line asks for nothing. -/
inductive Usage where
  /-- It cannot be understood. -/
  | wrong
  | help
  | version
deriving DecidableEq, Repr

namespace Usage

/-- What is printed. -/
def text : Usage → String
  | version => "spirallogic " ++ Command.version ++ "\n"
  | _ => "Usage: spirallogic [--debug] <COMMAND>\n\nCommands:\n  run\n  parse\n  create\n" ++
    "  verify-audit\n  init-project\n  project-info\n  add-card\n  list-cards\n"

/-- The status with which the program ends. -/
def status : Usage → UInt32
  | wrong => 2
  | _ => 0

end Usage

/-! ## Words of a command -/

/-- What a command takes. -/
structure Shape where
  operands : Nat
  /-- The options with a value. -/
  options : List String
  /-- The options without a value. -/
  switches : List String
deriving DecidableEq, Repr

/-- What a command line gives to a command. -/
structure Given where
  operands : List String
  options : List (String × String)
  switches : List String
deriving DecidableEq, Repr

namespace Given

/-- Nothing given. -/
def empty : Given := ⟨[], [], []⟩

/-- One more operand, if the command takes one more. -/
def addOperand (g : Given) (s : Shape) (word : String) : Except Usage Given :=
  if g.operands.length < s.operands then .ok { g with operands := g.operands ++ [word] }
  else .error .wrong

/-- One more option, if it is not there yet. -/
def addOption (g : Given) (name value : String) : Except Usage Given :=
  if (g.options.lookup name).isSome then .error .wrong
  else .ok { g with options := g.options ++ [(name, value)] }

/-- One more switch, if it is not there yet. -/
def addSwitch (g : Given) (name : String) : Except Usage Given :=
  if g.switches.contains name then .error .wrong
  else .ok { g with switches := g.switches ++ [name] }

/-- Operands only. -/
def addOperands (s : Shape) (g : Given) (words : List String) : Except Usage Given :=
  words.foldlM (fun g w => g.addOperand s w) g

/-- The value of an option. -/
def option? (g : Given) (name : String) : Option String :=
  g.options.lookup name

/-- Whether a switch is given. -/
def has (g : Given) (name : String) : Bool :=
  g.switches.contains name

end Given

/-- Whether a word cannot be an operand or a value because it begins like an option. -/
def isDashed (word : String) : Bool :=
  match word.toList with
  | '-' :: _ :: _ => true
  | _ => false

/-- An option written with an equals sign, as its name and its value. -/
def splitOption (word : String) : String × Option String :=
  match Text.splitOnce '=' word.toList with
  | some (name, value) => (String.ofList name, some (String.ofList value))
  | none => (word, none)

/-- Reads the words behind the name of a command. -/
def readWords (s : Shape) : List String → Given → Except Usage Given
  | [], g => .ok g
  | word :: rest, g =>
    if word = "--" then Given.addOperands s g rest
    else if !isDashed word then
      match g.addOperand s word with
      | .ok g => readWords s rest g
      | .error e => .error e
    else if word = "-h" ∨ word = "--help" then .error .help
    else
      match splitOption word with
      | (name, some value) =>
        if s.options.contains name then
          match g.addOption name value with
          | .ok g => readWords s rest g
          | .error e => .error e
        else .error .wrong
      | (name, none) =>
        if s.switches.contains name then
          match g.addSwitch name with
          | .ok g => readWords s rest g
          | .error e => .error e
        else if s.options.contains name then
          match rest with
          | [] => .error .wrong
          | value :: rest =>
            if isDashed value then .error .wrong
            else
              match g.addOption name value with
              | .ok g => readWords s rest g
              | .error e => .error e
        else .error .wrong

/-! ## Commands -/

/-- The switch for debugging. -/
def debugSwitch : String := "--debug"

/-- A command with some operands, options and switches of its own. -/
def shape (operands : Nat) (options switches : List String) : Shape :=
  ⟨operands, options, debugSwitch :: switches⟩

/-- The root of a project: the current directory if nothing is said. -/
def rootOf (g : Given) : String :=
  (g.option? "--root").getD "."

/-- The names of the commands. -/
def commandNames : List String :=
  ["run", "parse", "create", "verify-audit", "init-project", "project-info", "add-card",
    "list-cards", "help"]

/-- What a request for help with some commands comes to. -/
def readHelp : List String → Usage
  | [] => .help
  | [name] => if commandNames.contains name then .help else .wrong
  | _ => .wrong

/-- Reads the command line of the command with a name. -/
def readCommand (name : String) (words : List String) : Except Usage (Invocation × Given) := do
  match name with
  | "run" =>
    let g ← readWords (shape 1 ["--root", "--config", "--audit-log"] ["--json"]) words .empty
    match g.operands with
    | [file] =>
      return (.run ⟨file, g.option? "--root", g.option? "--config", g.option? "--audit-log",
        g.has "--json"⟩, g)
    | _ => throw .wrong
  | "parse" =>
    let g ← readWords (shape 1 [] ["--canonical"]) words .empty
    match g.operands with
    | [file] => return (.parse file (g.has "--canonical"), g)
    | _ => throw .wrong
  | "create" =>
    let g ← readWords (shape 1 ["--output"] ["--force"]) words .empty
    match g.operands.map Example.ofName? with
    | [some e] => return (.create e ((g.option? "--output").getD ".") (g.has "--force"), g)
    | _ => throw .wrong
  | "verify-audit" =>
    let g ← readWords (shape 1 [] ["--json"]) words .empty
    match g.operands with
    | [log] => return (.verifyAudit log (g.has "--json"), g)
    | _ => throw .wrong
  | "init-project" =>
    let g ← readWords (shape 0 ["--root", "--name"] []) words .empty
    return (.initProject (rootOf g) (g.option? "--name"), g)
  | "project-info" =>
    let g ← readWords (shape 0 ["--root"] ["--json"]) words .empty
    return (.projectInfo (rootOf g) (g.has "--json"), g)
  | "add-card" =>
    let g ← readWords (shape 0 ["--root", "--id", "--topic", "--content"] []) words .empty
    match g.option? "--id", g.option? "--topic", g.option? "--content" with
    | some id, some topic, some content => return (.addCard (rootOf g) id topic content, g)
    | _, _, _ => throw .wrong
  | "list-cards" =>
    let g ← readWords (shape 0 ["--root"] ["--json"]) words .empty
    return (.listCards (rootOf g) (g.has "--json"), g)
  | "help" => throw (readHelp words)
  | _ => throw .wrong

/-- Reads a command line, with whether it asks for debugging. -/
def readCommandLine (debug : Bool) : List String → Except Usage (Invocation × Bool)
  | [] => .error .wrong
  | word :: rest =>
    if word = "-h" ∨ word = "--help" then .error .help
    else if word = "-V" ∨ word = "--version" then .error .version
    else if word = debugSwitch then
      if debug then .error .wrong else readCommandLine true rest
    else
      match readCommand word rest with
      | .ok (invocation, g) => .ok (invocation, debug || g.has debugSwitch)
      | .error e => .error e

end Command

end RitualGate
