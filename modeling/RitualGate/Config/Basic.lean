import RitualGate.Bandwidth
import RitualGate.Gate
import RitualGate.Path
import RitualGate.Text.Blank

/-!
# Configuration

What a session is set up with: the personas that may speak, the bandwidth, the policy of the gate
and the audit. Everything has a default. `validate` says whether a session can start.
-/

namespace RitualGate

/-- The bandwidth of a session. -/
structure BandwidthConfig where
  capacities : Capacities
  initialLevel : Level
  costs : CostTable

/-- The audit of a session. -/
structure AuditConfig where
  /-- The name of the digest that hashes records. -/
  digest : String
  /-- The file that records go to, if any. -/
  logPath : Option Path
deriving DecidableEq, Repr

/-- What a session is set up with. -/
structure Config where
  personas : List Persona
  /-- The persona that speaks if neither the statement nor the session names one. -/
  defaultPersona : Persona
  /-- The handle that speaks for every persona under containment. -/
  containmentHandle : String
  bandwidth : BandwidthConfig
  policy : AnchorPolicy
  audit : AuditConfig

namespace BandwidthConfig

/-- The usual bandwidth. -/
def default : BandwidthConfig := ⟨.default, .medium, .default⟩

end BandwidthConfig

namespace AuditConfig

/-- The one digest there is. -/
def sha256 : String := "sha256"

/-- An audit in memory. -/
def default : AuditConfig := ⟨sha256, none⟩

end AuditConfig

/-- Why a session cannot start with a configuration. -/
inductive ConfigError where
  | unsupportedDigest (name : String)
  | noPersonas
  | unknownDefault (persona : Persona)
  | blankHandle
  | capacities (c : Capacities)
deriving DecidableEq

namespace ConfigError

/-- The report of a setting with which a session cannot start. -/
def invalid (reason : String) : String :=
  "invalid interpreter configuration: " ++ reason

/-- The wording of an error. -/
def message : ConfigError → String
  | unsupportedDigest name =>
    "unsupported digest algorithm '" ++ name ++ "'; only sha256 is available"
  | noPersonas => invalid "persona allow-set is empty"
  | unknownDefault persona =>
    invalid ("default persona " ++ persona.token ++ " is not in the allow-set")
  | blankHandle => invalid "containment handle is empty"
  | capacities c =>
    invalid ("bandwidth capacities must increase strictly (low " ++ Text.numeral c.low.toNat ++
      " < medium " ++ Text.numeral c.medium.toNat ++ " < high " ++ Text.numeral c.high.toNat ++ ")")

end ConfigError

namespace Config

/-- The persona with a token that is known to be one. -/
def persona (token : String) (h : isPersonaToken token = true) : Persona := ⟨token, h⟩

/-- The usual personas. -/
def defaultPersonas : List Persona :=
  [persona "@healer" (by decide), persona "@sage" (by decide), persona "@mirror" (by decide),
    persona "@companion" (by decide)]

/-- The usual settings. -/
def default : Config where
  personas := defaultPersonas
  defaultPersona := persona "@companion" (by decide)
  containmentHandle := Anchor.safeContainment
  bandwidth := .default
  policy := .default
  audit := .default

/-- Whether a name means the digest, in upper or lower case. -/
def isSha256 (name : String) : Bool :=
  name.toList.map Char.toLower == AuditConfig.sha256.toList

/-- Checks, in this order, the digest, the personas, the default among them, the handle and the
capacities. -/
def validate (c : Config) : Except ConfigError Unit :=
  if !isSha256 c.audit.digest then .error (.unsupportedDigest c.audit.digest)
  else if c.personas.isEmpty then .error .noPersonas
  else if !c.personas.contains c.defaultPersona then .error (.unknownDefault c.defaultPersona)
  else if Text.isBlankText c.containmentHandle then .error .blankHandle
  else if !c.bandwidth.capacities.isMonotonic then .error (.capacities c.bandwidth.capacities)
  else .ok ()

end Config

end RitualGate
