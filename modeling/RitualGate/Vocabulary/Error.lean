/-!
# Words that are not understood

The ways in which a word of the language fails to name anything, and how each is reported.
-/

namespace RitualGate

/-- Why a word names nothing. -/
inductive VocabularyError where
  | unknownAnchorKind (kind : String)
  | unknownAnchorMode (mode : String)
  | unknownLevel (level : String)
  | personaWithoutSign (persona : String)
  | invalidPersonaName (persona : String)
  | emptyCardRef
  | zeroBound (selector : String)
  | unknownIntent (tag : String)
deriving DecidableEq, Repr

namespace VocabularyError

/-- The wording of the complaint. -/
def message : VocabularyError → String
  | unknownAnchorKind kind => "unknown anchor kind '" ++ kind ++ "'"
  | unknownAnchorMode mode => "unknown anchor mode '" ++ mode ++ "'"
  | unknownLevel level => "unknown bandwidth level '" ++ level ++ "'"
  | personaWithoutSign persona => "persona '" ++ persona ++ "' must start with '@'"
  | invalidPersonaName persona => "invalid persona name '" ++ persona ++ "'"
  | emptyCardRef => "empty card reference"
  | zeroBound selector => "selector '" ++ selector ++ "' must request at least one card"
  | unknownIntent tag => "unknown intent tag '" ++ tag ++ "'"

end VocabularyError

end RitualGate
