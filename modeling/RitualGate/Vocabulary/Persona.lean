import RitualGate.Text.Alphanumeric
import RitualGate.Vocabulary.Error

/-!
# Personas

A persona is a token `@name` whose name is a run of letters, numbers, underscores and hyphens.
-/

namespace RitualGate

/-- The characters of a persona's name. -/
def isPersonaChar (c : Char) : Bool :=
  Text.isAlphanumeric c || c == '_' || c == '-'

/-- The shape of a persona token. -/
def isPersonaToken (s : String) : Bool :=
  match s.toList with
  | '@' :: name => !name.isEmpty && name.all isPersonaChar
  | _ => false

/-- A persona, known by its token. -/
structure Persona where
  token : String
  isToken : isPersonaToken token = true
deriving DecidableEq

namespace Persona

/-- Reads a persona token. -/
def ofText (s : String) : Except VocabularyError Persona :=
  if h : isPersonaToken s = true then .ok ⟨s, h⟩
  else if s.toList.head? = some '@' then .error (.invalidPersonaName s)
  else .error (.personaWithoutSign s)

end Persona

end RitualGate
