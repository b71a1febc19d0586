import RitualGate.Statement.Args
import RitualGate.Vocabulary.Anchor
import RitualGate.Vocabulary.CardRef
import RitualGate.Vocabulary.Intent
import RitualGate.Vocabulary.Keyword
import RitualGate.Vocabulary.Level
import RitualGate.Vocabulary.Persona

/-!
# Statements

A statement is one line of a ritual program, read. Nothing here ties the verb to the family or the
subject to the other fields: that is what reading a line guarantees.
-/

namespace RitualGate

/-- One line of a ritual program, read. -/
structure Statement where
  family : Family
  verb : Verb
  subject : String
  /-- How delicate the statement is, if that is a question for it. -/
  intent : Option Intent
  /-- The named arguments that have no meaning of their own. -/
  args : Args
  /-- The anchors that the statement gives or asks for. -/
  anchors : AnchorSet
  voice : Option Persona
  bandwidth : Option Level
  /-- The memory cards that the statement refers to. -/
  cards : List CardRef
deriving DecidableEq

namespace Statement

/-- The keyword of a statement. -/
def keyword (s : Statement) : String :=
  RitualGate.keyword s.family s.verb

/-- Whether a statement calls on a voice or the archive. -/
def isDispatch (s : Statement) : Bool :=
  match s.family, s.verb with
  | .ritual, .engage => true
  | .companion, .summon => true
  | .archive, .access => true
  | _, _ => false

/-- Whether a statement puts the session into containment. -/
def engagesContainment (s : Statement) : Bool :=
  decide (s.family = .anchor) && decide (s.verb = .engage) &&
    s.anchors.toList.any fun a => decide (a.kind = .containment)

end Statement

end RitualGate
