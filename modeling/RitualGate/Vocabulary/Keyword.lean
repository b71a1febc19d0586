/-!
# Keywords

A statement begins with a keyword `family.verb`. `Family.allows` says which verbs a family has.
-/

namespace RitualGate

/-- What a statement is about. -/
inductive Family where
  | ritual
  | anchor
  | voice
  | archive
  | bandwidth
  | companion
deriving DecidableEq, Repr

/-- What a statement does. -/
inductive Verb where
  | engage
  | complete
  | fail
  | require
  | use
  | set
  | access
  | summon
deriving DecidableEq, Repr

namespace Verb

/-- The word for a verb. -/
def name : Verb → String
  | engage => "engage"
  | complete => "complete"
  | fail => "fail"
  | require => "require"
  | use => "use"
  | set => "set"
  | access => "access"
  | summon => "summon"

/-- Every verb, in the order of declaration. -/
def all : List Verb := [engage, complete, fail, require, use, set, access, summon]

/-- The verb that a word names. -/
def ofName? (s : String) : Option Verb :=
  all.find? fun v => v.name == s

end Verb

namespace Family

/-- The word for a family. -/
def name : Family → String
  | ritual => "ritual"
  | anchor => "anchor"
  | voice => "voice"
  | archive => "archive"
  | bandwidth => "bandwidth"
  | companion => "companion"

/-- Every family, in the order of declaration. -/
def all : List Family := [ritual, anchor, voice, archive, bandwidth, companion]

/-- The family that a word names. -/
def ofName? (s : String) : Option Family :=
  all.find? fun f => f.name == s

/-- The verbs of a family. -/
def verbs : Family → List Verb
  | ritual => [.engage, .complete, .fail]
  | anchor => [.require, .engage]
  | voice => [.use]
  | archive => [.access]
  | bandwidth => [.set]
  | companion => [.summon]

/-- Whether a verb belongs to a family. -/
def allows (f : Family) (v : Verb) : Bool :=
  f.verbs.contains v

end Family

/-- The keyword of a family and a verb. -/
def keyword (f : Family) (v : Verb) : String :=
  f.name ++ "." ++ v.name

end RitualGate
