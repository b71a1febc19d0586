import RitualGate.Data.Decode
import RitualGate.Statement.View

/-!
# Reading statements from data

The parts of a statement are read by the rules of the vocabulary: a family, a verb, an intent and a
level by their exact names, an anchor, a persona and a card reference as they may stand in a line.
-/

namespace RitualGate

open Data (Value Decoder Fields)
open Data.Decode

/-- Reads an anchor. -/
def Anchor.ofValue : Decoder Anchor := word Anchor.ofText

/-- Reads a persona. -/
def Persona.ofValue : Decoder Persona := word Persona.ofText

/-- Reads a card reference. -/
def CardRef.ofValue : Decoder CardRef := word CardRef.ofWord

/-- Reads a level. -/
def Level.ofValue : Decoder Level := variant Level.ofName?

/-- Reads an intent. -/
def Intent.ofValue : Decoder Intent := variant Intent.ofName?

/-- Reads a set of anchors. -/
def AnchorSet.ofValue : Decoder AnchorSet := fun v =>
  match list Anchor.ofValue v with
  | .ok as => .ok (AnchorSet.ofList as)
  | .error e => .error e

/-- Reads a table of arguments. -/
def Args.ofValue : Decoder Args := fun v =>
  match Data.Decode.entries text text v with
  | .ok es => .ok (Args.ofList es)
  | .error e => .error e

namespace Statement

/-- The names of the fields of a statement. -/
def fieldNames : List String :=
  ["family", "verb", "subject", "intent", "args", "anchors", "voice", "bandwidth", "memory_refs"]

/-- The fields of a statement. -/
def fields : Fields Statement :=
  (Fields.pure Statement.mk)
    |>.seq (.required "family" (variant Family.ofName?))
    |>.seq (.required "verb" (variant Verb.ofName?))
    |>.seq (.required "subject" text)
    |>.seq (.optional "intent" Intent.ofValue)
    |>.seq (.required "args" Args.ofValue)
    |>.seq (.required "anchors" AnchorSet.ofValue)
    |>.seq (.optional "voice" Persona.ofValue)
    |>.seq (.optional "bandwidth" Level.ofValue)
    |>.seq (.required "memory_refs" (list CardRef.ofValue))

/-- Reads a statement from its data. -/
def ofValue : Decoder Statement :=
  Fields.decode fieldNames fields

/-- The data of a statement. -/
def toValue (s : Statement) : Value :=
  .table [
    ("family", .text s.family.name),
    ("verb", .text s.verb.name),
    ("subject", .text s.subject),
    ("intent", .option (fun i => .text i.name) s.intent),
    ("args", s.args.toValue),
    ("anchors", s.anchors.toValue),
    ("voice", .option (fun p => .text p.token) s.voice),
    ("bandwidth", .option (fun l => .text l.name) s.bandwidth),
    ("memory_refs", .texts (s.cards.map CardRef.token))]

end Statement

end RitualGate
