import RitualGate.Bandwidth
import RitualGate.Gate
import RitualGate.Statement.Error

/-!
# What stops a statement

`RitualError` collects the reasons for which a statement is not accepted, and `ErrorKind` names them
in records and reports.
-/

namespace RitualGate

/-- How a voice or an archive fails. -/
inductive DispatchError where
  | cancelled
  | timedOut (afterMs : Nat)
  | failed (reason : String)
deriving DecidableEq, Repr

namespace DispatchError

/-- The wording of a failure. -/
def message : DispatchError → String
  | cancelled => "dispatch cancelled"
  | timedOut afterMs => "dispatch timed out after " ++ Text.numeral afterMs ++ " ms"
  | failed reason => "collaborator failed: " ++ reason

end DispatchError

/-- The kinds of errors. -/
inductive ErrorKind where
  | syntaxError
  | anchor
  | bandwidth
  | unknownPersona
  | notFound
  | cancelled
  | timedOut
  | collaboratorFailed
  | sessionClosed
deriving DecidableEq, Repr

namespace ErrorKind

/-- The name of a kind. -/
def name : ErrorKind → String
  | syntaxError => "syntax"
  | anchor => "anchor"
  | bandwidth => "bandwidth"
  | unknownPersona => "unknown_persona"
  | notFound => "not_found"
  | cancelled => "cancelled"
  | timedOut => "timed_out"
  | collaboratorFailed => "collaborator_failed"
  | sessionClosed => "session_closed"

/-- Every kind. -/
def all : List ErrorKind :=
  [syntaxError, anchor, bandwidth, unknownPersona, notFound, cancelled, timedOut,
    collaboratorFailed, sessionClosed]

/-- The kind with a name. -/
def ofName? (s : String) : Option ErrorKind :=
  all.find? fun k => k.name == s

end ErrorKind

/-- Why a statement is not accepted. -/
inductive RitualError where
  | syntaxError (e : SyntaxError)
  | anchor (e : MissingAnchors)
  | bandwidth (e : BandwidthError)
  | unknownPersona (persona : Persona)
  | cardNotFound (id : String)
  | dispatch (e : DispatchError)
  | sessionClosed
deriving DecidableEq

namespace RitualError

/-- The kind of an error. -/
def kind : RitualError → ErrorKind
  | syntaxError _ => .syntaxError
  | anchor _ => .anchor
  | bandwidth _ => .bandwidth
  | unknownPersona _ => .unknownPersona
  | cardNotFound _ => .notFound
  | dispatch .cancelled => .cancelled
  | dispatch (.timedOut _) => .timedOut
  | dispatch (.failed _) => .collaboratorFailed
  | sessionClosed => .sessionClosed

/-- The wording of an error. -/
def message : RitualError → String
  | syntaxError e => e.message
  | anchor e => e.message
  | bandwidth e => e.message
  | unknownPersona persona => "unknown persona '" ++ persona.token ++ "'"
  | cardNotFound id => "memory card '" ++ id ++ "' not found"
  | dispatch e => e.message
  | sessionClosed => "session is closed"

end RitualError

end RitualGate
