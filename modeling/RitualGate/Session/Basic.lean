import RitualGate.Archive.Resolve
import RitualGate.Audit.Trail
import RitualGate.Voice

/-!
# Sessions

A session holds what earlier statements have brought about: the anchors given, the bandwidth
consumed, the voice and the ritual that are active, and the audit trail. The voices and the archive
that it calls on are not part of it.
-/

namespace RitualGate

/-- Where a session is between its start and its end. -/
inductive Phase where
  | idle
  | processing
  | closed
deriving DecidableEq, Repr

/-- What a session calls on. -/
structure Collaborators where
  responder : Responder
  archive : Archive

/-- One call on a collaborator. -/
inductive Call where
  | lookup (ref : CardRef) (topic : String)
  | respond (handle : VoiceHandle) (args : Args)
deriving DecidableEq

/-- The state of a session. -/
structure Session where
  policy : AnchorPolicy
  grants : Grants
  governor : Governor
  router : Router
  /-- The persona that speaks if neither the statement nor the session names one. -/
  defaultPersona : Persona
  trail : Trail
  /-- The persona that speaks if the statement names none. -/
  voice : Option Persona
  /-- The subject of the ritual that is engaged. -/
  ritual : Option String
  phase : Phase

namespace Session

/-- A session at its start. -/
def ofConfig (c : Config) (trail : Trail) : Session where
  policy := c.policy
  grants := .empty
  governor := .new c.bandwidth.capacities c.bandwidth.costs c.bandwidth.initialLevel
  router := ⟨c.personas, c.containmentHandle⟩
  defaultPersona := c.defaultPersona
  trail
  voice := none
  ritual := none
  phase := .idle

/-- Starts a session: checks the configuration and goes on with its log. -/
def start {m : Type → Type} [Monad m] [Host m] (c : Config) : m (Except InitError Session) := do
  match c.validate with
  | .error e => return .error (.config e)
  | .ok () =>
    match c.audit.logPath with
    | none => return .ok (ofConfig c .empty)
    | some path =>
      match ← Trail.resume path with
      | .error e => return .error e
      | .ok trail => return .ok (ofConfig c trail)

/-- Ends containment. -/
def clearContainment (s : Session) : Session :=
  { s with grants := s.grants.clearContainment }

/-- Takes the session back to its start, except for the trail and the phase. -/
def reset (s : Session) : Session :=
  { s with
    grants := .empty
    governor := s.governor.reset
    voice := none
    ritual := none }

/-- Ends the session. -/
def close (s : Session) : Session :=
  { s with phase := .closed }

end Session

end RitualGate
