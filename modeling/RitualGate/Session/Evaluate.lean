import RitualGate.Session.Basic

/-!
# Evaluating statements

A statement passes the gate, then the level that it declares is compared with the current one, and
then it does what its keyword says. A dispatch finds its voice and pays its cost before it calls on
anyone: first on the archive for each card, then on the voice.

An evaluation keeps what was found before a failure, and every call that was made.
-/

namespace RitualGate

/-- What the evaluation of a statement yields. -/
structure Evaluation where
  session : Session
  result : Except RitualError Outcome
  /-- The voice that was called on, or was to be. -/
  handle : Option VoiceHandle
  response : Option String
  cards : List ResolvedCard
  /-- Why a statement that was accepted ended in failure. -/
  reason : Option String
  /-- The calls that were made, in order. -/
  calls : List Call

namespace Evaluation

/-- An evaluation without a dispatch. -/
def plain (s : Session) (result : Except RitualError Outcome) : Evaluation where
  session := s
  result
  handle := none
  response := none
  cards := []
  reason := none
  calls := []

/-- How the statement ended. -/
def outcome (e : Evaluation) : Outcome :=
  match e.result with
  | .ok o => o
  | .error _ => .failed

/-- Why the statement was not accepted. -/
def error? (e : Evaluation) : Option RitualError :=
  match e.result with
  | .ok _ => none
  | .error err => some err

/-- What the record of the statement says beyond the outcome. -/
def detail (e : Evaluation) : OutcomeDetail where
  errorKind := e.error?.map RitualError.kind
  reason :=
    match e.result with
    | .ok _ => e.reason
    | .error err => some err.message
  handle := e.handle.map VoiceHandle.name
  substituted := e.handle.any VoiceHandle.substituted

end Evaluation

namespace Session

/-- The persona that speaks for a statement. -/
def speaker (s : Session) (st : Statement) : Persona :=
  (st.voice.or s.voice).getD s.defaultPersona

/-- The voice that a dispatch goes to. A look into the archive has none. -/
def voiceFor (s : Session) (st : Statement) : Except RitualError (Option VoiceHandle) :=
  if st.family = .archive then .ok none
  else
    match s.router.resolve (s.speaker st) s.grants.containment with
    | .ok h => .ok (some h)
    | .error e => .error e

/-- The topic that cards are looked up for. -/
def topicOf (st : Statement) : String :=
  (st.args.get? "topic").getD st.subject

/-- A session after a dispatch: a ritual is engaged from now on. -/
def engaged (s : Session) (st : Statement) : Session :=
  if st.family = .ritual then { s with ritual := some st.subject } else s

/-- Asks the voice, once the cards are there. -/
def speak (s : Session) (c : Collaborators) (st : Statement) (handle : Option VoiceHandle)
    (cards : List ResolvedCard) (calls : List Call) : Evaluation :=
  match handle with
  | none =>
    { session := s.engaged st, result := .ok .completed, handle, response := none, cards
      reason := none, calls }
  | some h =>
    match c.responder h st.args with
    | .error e =>
      { session := s, result := .error (.dispatch e), handle, response := none, cards
        reason := none, calls := calls ++ [.respond h st.args] }
    | .ok text =>
      { session := s.engaged st, result := .ok .completed, handle, response := some text, cards
        reason := none, calls := calls ++ [.respond h st.args] }

/-- Asks the archive and then the voice, once the cost is paid. -/
def consult (s : Session) (c : Collaborators) (st : Statement) (handle : Option VoiceHandle) :
    Evaluation :=
  let topic := topicOf st
  let (asked, found) := resolve c.archive topic st.cards
  let calls := asked.map fun r => Call.lookup r topic
  match found with
  | .error e =>
    { session := s, result := .error e, handle, response := none, cards := [], reason := none
      calls }
  | .ok cards => s.speak c st handle cards calls

/-- Finds the voice, pays the cost and calls on the collaborators. -/
def dispatch (s : Session) (c : Collaborators) (st : Statement) : Evaluation :=
  match s.voiceFor st with
  | .error e => .plain s (.error e)
  | .ok handle =>
    match s.governor.charge (s.governor.costOf st) with
    | .error e => .plain s (.error (.bandwidth e))
    | .ok governor => { s with governor }.consult c st handle

/-- Takes a persona as the voice of the session. -/
def useVoice (s : Session) (st : Statement) : Evaluation :=
  match st.voice with
  | none => .plain s (.ok .completed)
  | some p =>
    match s.router.validate p with
    | .error e => .plain s (.error e)
    | .ok () => .plain { s with voice := some p } (.ok .completed)

/-- Sets the level that a statement names. -/
def setLevel (s : Session) (st : Statement) : Session :=
  match st.bandwidth with
  | none => s
  | some level => { s with governor := s.governor.set level }

/-- The reason of a declared failure. -/
def declaredReason (st : Statement) : String :=
  (st.args.get? "reason").getD "declared failure"

/-- Does what the keyword of a statement says. -/
def perform (s : Session) (c : Collaborators) (st : Statement) : Evaluation :=
  match st.family, st.verb with
  | .anchor, _ => .plain { s with grants := s.grants.accept st } (.ok .completed)
  | .voice, .use => s.useVoice st
  | .bandwidth, .set => .plain (s.setLevel st) (.ok .completed)
  | .ritual, .complete => .plain { s with ritual := none } (.ok .completed)
  | .ritual, .fail =>
    { Evaluation.plain { s with ritual := none } (.ok .failed) with
      reason := some (declaredReason st) }
  | _, _ => s.dispatch c st

/-- Lets a statement pass if the current level is not below the one that it declares. What a
bandwidth statement declares is the level that it sets. -/
def checkLevel (s : Session) (st : Statement) : Except BandwidthError Unit :=
  if st.family = .bandwidth then .ok () else s.governor.checkLevel st

/-- Evaluates a statement: gate, level, and what the keyword says. -/
def evaluate (s : Session) (c : Collaborators) (st : Statement) : Evaluation :=
  match s.policy.check st s.grants with
  | .error e => .plain s (.error (.anchor e))
  | .ok () =>
    match s.checkLevel st with
    | .error e => .plain s (.error (.bandwidth e))
    | .ok () => s.perform c st

end Session

end RitualGate
