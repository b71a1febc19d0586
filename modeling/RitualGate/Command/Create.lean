import RitualGate.Command.Report
import RitualGate.Host.Basic

/-!
# Example programs
-/

namespace RitualGate

namespace Command

/-- The programs that can be created. -/
inductive Example where
  | hello
  | healing
  | containment
  | archive
deriving DecidableEq, Repr

namespace Example

/-- The name of an example. -/
def name : Example → String
  | hello => "hello"
  | healing => "healing"
  | containment => "containment"
  | archive => "archive"

/-- Every example. -/
def all : List Example := [hello, healing, containment, archive]

/-- The example with a name. -/
def ofName? (s : String) : Option Example :=
  all.find? fun e => e.name == s

/-- The lines of an example. -/
def lines : Example → List String
  | hello => [
    "// Hello ritual: the smallest complete program.",
    "voice.use \"@companion\"",
    "ritual.engage \"hello_world\" | greeting:\"Hello from SpiralLogic\"",
    "ritual.complete \"hello_world\""]
  | healing => [
    "// Healing session: consent first, then a gentle voice.",
    "anchor.require \"consent:explicit\"",
    "bandwidth.set \"medium\"",
    "voice.use \"@healer\"",
    "ritual.engage \"healing_session\" | pace:gentle",
    "companion.summon \"healing_presence\" | voice:@healer",
    "ritual.complete \"healing_session\""]
  | containment => [
    "// Containment: once engaged, every voice routes to the safe handle.",
    "anchor.engage \"safe_containment\"",
    "voice.use \"@sage\"",
    "ritual.engage \"grounding\" | breath:slow",
    "ritual.complete \"grounding\""]
  | archive => [
    "// Archive: pull recent and relevant memory cards into a reflection.",
    "bandwidth.set \"high\"",
    "archive.access \"reflection\" [card:latest-3, card:top-2-relevant]",
    "ritual.engage \"reflection\" [card:topic-relevant] | voice:@mirror",
    "ritual.complete \"reflection\""]

/-- The text of an example. -/
def source (e : Example) : String :=
  String.join (e.lines.map fun l => l ++ "\n")

end Example

variable {m : Type → Type} [Monad m] [Host m]

/-- Writes an example to a file of its name, and only on demand over one that is there. -/
def createCommand (e : Example) (output : String) (force : Bool) : m Report := do
  let dir ← Host.locate (.ofText output)
  match ← Host.makeDirs dir with
  | .error err => return .failed ["Failed to create output dir: " ++ dir.text, err.message]
  | .ok () =>
    let path := dir.child (e.name ++ ".spiral")
    if (← Host.hasEntry path) && !force then
      return .failed [path.text ++ " already exists (use --force to overwrite)"]
    match ← Host.write path (Text.encode e.source) with
    | .error err => return .failed ["Failed to write example program: " ++ path.text, err.message]
    | .ok () =>
      return Report.empty.printAll [
        "Created " ++ e.name ++ " example: " ++ path.text,
        "Run it with: spirallogic run " ++ path.text]

end Command

end RitualGate
