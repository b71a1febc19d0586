import RitualGate.Text.Numeral
import RitualGate.Vocabulary.Error

/-!
# Errors in a line

`Fault` is what is wrong with a line, `SyntaxError` adds where: the text at fault, the column where
it stands, and the line if that is known.
-/

namespace RitualGate

/-- What is wrong with a line. -/
inductive Fault where
  | emptyStatement
  | unterminatedQuote
  | expectedKeyword
  | unknownFamily (family : String)
  | unknownVerb (verb family : String)
  | unexpectedToken
  | unterminatedCards
  | expectedCard
  | expectedCardEnd
  | expectedPairs
  | expectedPairEnd
  | expectedKey
  | emptyKey
  | missingSubject (keyword what : String)
  | missingCards
  | conflictingVoice (persona : String)
  | conflictingBandwidth (level : String)
  | duplicateArgument (key : String)
  | vocabulary (e : VocabularyError)
deriving DecidableEq, Repr

namespace Fault

/-- The wording of a fault. -/
def message : Fault → String
  | emptyStatement => "empty statement"
  | unterminatedQuote => "unterminated quoted segment"
  | expectedKeyword => "expected family.verb"
  | unknownFamily family => "unknown family '" ++ family ++ "'"
  | unknownVerb verb family => "unknown verb '" ++ verb ++ "' for family '" ++ family ++ "'"
  | unexpectedToken => "unexpected token"
  | unterminatedCards => "unterminated card list"
  | expectedCard => "expected card reference"
  | expectedCardEnd => "expected ',' or ']'"
  | expectedPairs => "expected key:value pairs after '|'"
  | expectedPairEnd => "expected ',' between pairs"
  | expectedKey => "expected key"
  | emptyKey => "empty key"
  | missingSubject keyword what => keyword ++ " requires a quoted " ++ what
  | missingCards => "archive.access requires at least one card reference"
  | conflictingVoice persona => "conflicting voice '" ++ persona ++ "'"
  | conflictingBandwidth level => "conflicting bandwidth '" ++ level ++ "'"
  | duplicateArgument key => "duplicate argument '" ++ key ++ "'"
  | vocabulary e => e.message

end Fault

/-- A fault and where it lies. Columns count characters from one. -/
structure SyntaxError where
  fault : Fault
  token : String
  column : Nat
  line : Option Nat := none
deriving DecidableEq, Repr

namespace SyntaxError

/-- The report of an error. -/
def message (e : SyntaxError) : String :=
  let place := match e.line with
    | some n => " on line " ++ Text.numeral n
    | none => ""
  "syntax error" ++ place ++ " at column " ++ Text.numeral e.column ++ ": " ++ e.fault.message ++
    " (near '" ++ e.token ++ "')"

/-- An error on a known line. -/
def onLine (e : SyntaxError) (n : Nat) : SyntaxError :=
  { e with line := some n }

end SyntaxError

end RitualGate
