import RitualGate.Data.Value
import RitualGate.Statement.Canonical

/-!
# Statements as data

Arguments and sets of anchors as data.
`StatementView` is what reports show of a statement that was run or read.
-/

namespace RitualGate

open Data (Value)

/-- A table of arguments. -/
def Args.toValue (args : Args) : Value :=
  .table (args.entries.map fun (k, v) => (k, .text v))

/-- A list of anchors. -/
def AnchorSet.toValue (s : AnchorSet) : Value :=
  .texts (s.toList.map Anchor.text)

/-- What a report shows of a statement. -/
structure StatementView where
  kind : String
  name : String
  args : Args
  anchors : List String
  voice : Option String
  bandwidth : Option String
  memoryPack : List String
  /-- The mark of the audit record of the statement, once there is one. -/
  hashbrown : Option String
deriving DecidableEq

namespace StatementView

/-- The view of a statement. -/
def ofStatement (s : Statement) (hashbrown : Option String) : StatementView where
  kind := s.keyword
  name := s.subject
  args := s.args
  anchors := s.anchors.toList.map Anchor.text
  voice := s.voice.map Persona.token
  bandwidth := s.bandwidth.map Level.name
  memoryPack := s.cards.map CardRef.token
  hashbrown

/-- The data of a view. -/
def toValue (v : StatementView) : Value :=
  .table [
    ("type", .text v.kind),
    ("name", .text v.name),
    ("args", v.args.toValue),
    ("anchors", .texts v.anchors),
    ("voice", .option .text v.voice),
    ("bandwidth", .option .text v.bandwidth),
    ("memory_pack", .texts v.memoryPack),
    ("hashbrown", .option .text v.hashbrown)]

end StatementView

end RitualGate
