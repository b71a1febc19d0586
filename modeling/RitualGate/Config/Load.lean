import RitualGate.Config.Codec
import RitualGate.Data.Json.Reader
import RitualGate.Data.Yaml
import RitualGate.Failure
import RitualGate.Host.Basic

/-!
# Configuration files

A file whose extension says so is YAML, and every other file is JSON. Of YAML one document is read,
with block and flow collections, plain and quoted scalars and comments. A file with anchors,
aliases, tags, block scalars, directives, complex keys or several documents is refused as if it were
malformed.
-/

namespace RitualGate

namespace Config

/-- Whether a path is that of a YAML file. -/
def isYaml (p : Path) : Bool :=
  p.extension? == some "yaml" || p.extension? == some "yml"

/-- Reads a configuration from JSON. -/
def ofJson? (s : String) : Option Config :=
  match Data.Json.parse? s with
  | none => none
  | some v => (ofValue v).toOption

/-- Reads a configuration from YAML. -/
def ofYaml? (s : String) : Option Config :=
  match Data.Yaml.parse? s with
  | none => none
  | some v => (ofValue v).toOption

/-- Reads a configuration file. -/
def load {m : Type → Type} [Monad m] [Host m] (p : Path) : m (Except Failure Config) := do
  match ← Host.readText p with
  | .error e => return .error ["Failed to read interpreter config " ++ p.text, e.message]
  | .ok s =>
    if isYaml p then
      match ofYaml? s with
      | some c => return .ok c
      | none => return .error ["Failed to parse YAML config " ++ p.text, yamlCause]
    else
      match ofJson? s with
      | some c => return .ok c
      | none => return .error ["Failed to parse JSON config " ++ p.text, jsonCause]

end Config

end RitualGate
