import RitualGate.Error

/-!
# Voices

The router turns a persona into the handle under which a responder knows it. While containment
holds, every persona gets the containment handle, and the handle says that it was put in place of
another. Otherwise only the personas of the allow-set have handles.
-/

namespace RitualGate

/-- A voice as a responder knows it. -/
structure VoiceHandle where
  name : String
  requested : Persona
  /-- Whether the name stands in place of the requested persona. -/
  substituted : Bool
deriving DecidableEq

/-- What answers for a voice. -/
abbrev Responder := VoiceHandle → Args → Except DispatchError String

/-- The personas that may speak, and the handle that speaks under containment. -/
structure Router where
  personas : List Persona
  containmentHandle : String

namespace Router

/-- The personas without repetition, in the order of their tokens. -/
def allowed (r : Router) : List Persona :=
  r.personas.eraseDups.mergeSort fun p q => decide (p.token ≤ q.token)

/-- Whether a persona may speak. -/
def allows (r : Router) (p : Persona) : Bool :=
  r.personas.contains p

/-- Lets the personas of the allow-set pass. -/
def validate (r : Router) (p : Persona) : Except RitualError Unit :=
  if r.allows p then .ok () else .error (.unknownPersona p)

/-- The handle of a persona. -/
def resolve (r : Router) (p : Persona) (containment : Bool) : Except RitualError VoiceHandle :=
  if containment then .ok ⟨r.containmentHandle, p, true⟩
  else if r.allows p then .ok ⟨p.token, p, false⟩
  else .error (.unknownPersona p)

end Router

/-- A responder with prepared replies and failures, by handle. -/
structure Script where
  replies : List (String × String)
  failures : List (String × DispatchError)

namespace Script

/-- Nothing prepared. -/
def empty : Script := ⟨[], []⟩

/-- Answers by the script: a prepared failure, a prepared reply, or that the voice is there. -/
def respond (s : Script) : Responder := fun handle _ =>
  match s.failures.lookup handle.name with
  | some e => .error e
  | none => .ok ((s.replies.lookup handle.name).getD (handle.name ++ " is present."))

end Script

end RitualGate
