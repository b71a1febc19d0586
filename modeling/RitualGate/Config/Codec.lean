import RitualGate.Config.Basic
import RitualGate.Statement.Codec

/-!
# Configurations as data

A configuration is a table in which every setting may be missing. A missing table of costs is the
usual one; a table that is there has no costs but those that it names.
-/

namespace RitualGate

open Data (Value Decoder Fields)
open Data.Decode

namespace Capacities

/-- The data of capacities. -/
def toValue (c : Capacities) : Value :=
  .table [("low", .nat c.low.toNat), ("medium", .nat c.medium.toNat), ("high", .nat c.high.toNat)]

/-- Reads capacities. -/
def ofValue : Decoder Capacities :=
  Fields.decode ["low", "medium", "high"]
    ((Fields.pure Capacities.mk)
      |>.seq (.defaulted "low" word32 default.low)
      |>.seq (.defaulted "medium" word32 default.medium)
      |>.seq (.defaulted "high" word32 default.high))

end Capacities

namespace CostTable

/-- The data of costs. -/
def toValue (t : CostTable) : Value :=
  .table [("default", .nat t.base.toNat),
    ("families", .table (t.toList.map fun (f, c) => (f.name, .nat c.toNat)))]

/-- Reads costs. -/
def ofValue : Decoder CostTable :=
  Fields.decode ["default", "families"]
    ((Fields.pure CostTable.ofList)
      |>.seq (.defaulted "default" word32 defaultBase)
      |>.seq (.defaulted "families" (Data.Decode.entries (variantKey Family.ofName?) word32) []))

end CostTable

namespace BandwidthConfig

/-- The data of the settings of bandwidth. -/
def toValue (b : BandwidthConfig) : Value :=
  .table [("capacities", b.capacities.toValue), ("initial_level", .text b.initialLevel.name),
    ("costs", b.costs.toValue)]

/-- Reads the settings of bandwidth. -/
def ofValue : Decoder BandwidthConfig :=
  Fields.decode ["capacities", "initial_level", "costs"]
    ((Fields.pure BandwidthConfig.mk)
      |>.seq (.defaulted "capacities" Capacities.ofValue default.capacities)
      |>.seq (.defaulted "initial_level" Level.ofValue default.initialLevel)
      |>.seq (.defaulted "costs" CostTable.ofValue default.costs))

end BandwidthConfig

namespace AnchorPolicy

/-- The data of a policy. -/
def toValue (p : AnchorPolicy) : Value :=
  .table (p.toList.map fun (i, s) => (i.name, s.toValue))

/-- Reads a policy. -/
def ofValue : Decoder AnchorPolicy := fun v =>
  match Data.Decode.entries (variantKey Intent.ofName?) AnchorSet.ofValue v with
  | .ok rules => .ok (ofList rules)
  | .error e => .error e

end AnchorPolicy

namespace AuditConfig

/-- The data of the settings of the audit, in which a path stands as it is shown. Only settings with
a path that is a text are written. -/
def toValue (a : AuditConfig) : Value :=
  .table (("digest", .text a.digest) ::
    a.logPath.toList.map fun p => ("log_path", .text p.text))

/-- Reads a path. -/
def path : Decoder Path := fun v =>
  match text v with
  | .ok s => .ok (.ofText s)
  | .error e => .error e

/-- Reads the settings of the audit. -/
def ofValue : Decoder AuditConfig :=
  Fields.decode ["digest", "log_path"]
    ((Fields.pure AuditConfig.mk)
      |>.seq (.defaulted "digest" text default.digest)
      |>.seq (.optional "log_path" path))

end AuditConfig

namespace Config

/-- The data of a configuration. -/
def toValue (c : Config) : Value :=
  .table [
    ("personas", .texts (c.personas.map Persona.token)),
    ("default_persona", .text c.defaultPersona.token),
    ("containment_handle", .text c.containmentHandle),
    ("bandwidth", c.bandwidth.toValue),
    ("policy", c.policy.toValue),
    ("audit", c.audit.toValue)]

/-- The names of the settings. -/
def fieldNames : List String :=
  ["personas", "default_persona", "containment_handle", "bandwidth", "policy", "audit"]

/-- Reads a configuration. -/
def ofValue : Decoder Config :=
  Fields.decode fieldNames
    ((Fields.pure Config.mk)
      |>.seq (.defaulted "personas" (list Persona.ofValue) default.personas)
      |>.seq (.defaulted "default_persona" Persona.ofValue default.defaultPersona)
      |>.seq (.defaulted "containment_handle" text default.containmentHandle)
      |>.seq (.defaulted "bandwidth" BandwidthConfig.ofValue default.bandwidth)
      |>.seq (.defaulted "policy" AnchorPolicy.ofValue default.policy)
      |>.seq (.defaulted "audit" AuditConfig.ofValue default.audit))

end Config

end RitualGate
