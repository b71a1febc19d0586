import RitualGate.Statement.Basic
import RitualGate.Text.Numeral

/-!
# Bandwidth

A session has a level, and each level a capacity. Dispatches consume capacity until the level is set
anew. A charge that would exceed the capacity fails and changes nothing. The arithmetic is that of
words of thirty-two bits, and a sum that does not fit is taken for the largest word.
-/

namespace RitualGate

/-- The capacity of each level. -/
structure Capacities where
  low : UInt32
  medium : UInt32
  high : UInt32
deriving DecidableEq, Repr

namespace Capacities

/-- The usual capacities. -/
def default : Capacities := ⟨3, 6, 12⟩

/-- The capacity of a level. -/
def of (c : Capacities) : Level → UInt32
  | .low => c.low
  | .medium => c.medium
  | .high => c.high

/-- Whether a higher level has a larger capacity. -/
def isMonotonic (c : Capacities) : Bool :=
  decide (c.low < c.medium) && decide (c.medium < c.high)

end Capacities

/-- What a dispatch of each family costs. -/
structure CostTable where
  /-- The cost of a family without one of its own. -/
  base : UInt32
  ofFamily : Family → Option UInt32

namespace CostTable

/-- The cost of a family if nothing is said. -/
def defaultBase : UInt32 := 1

/-- The costs of some families; of several for one family, the last counts. -/
def ofList (base : UInt32) (costs : List (Family × UInt32)) : CostTable where
  base
  ofFamily f := costs.reverse.lookup f

/-- The usual costs. -/
def default : CostTable := ofList defaultBase [(.archive, 2), (.companion, 3)]

/-- The costs of the families that have one of their own, in the order of the families. -/
def toList (t : CostTable) : List (Family × UInt32) :=
  Family.all.filterMap fun f => (t.ofFamily f).map fun c => (f, c)

/-- The cost of a statement. -/
def costOf (t : CostTable) (s : Statement) : UInt32 :=
  (t.ofFamily s.family).getD t.base

end CostTable

/-- Why bandwidth stops a statement. -/
inductive BandwidthError where
  | exceeded (level : Level) (capacity consumed cost : UInt32)
  | levelTooLow (required current : Level)
deriving DecidableEq, Repr

namespace BandwidthError

/-- The wording of the complaint. -/
def message : BandwidthError → String
  | exceeded level capacity consumed cost =>
    "bandwidth exceeded at level " ++ level.name ++ ": " ++ Text.numeral consumed.toNat ++ " + " ++
      Text.numeral cost.toNat ++ " > capacity " ++ Text.numeral capacity.toNat
  | levelTooLow required current =>
    "statement needs bandwidth level " ++ required.name ++ ", session is at " ++ current.name

end BandwidthError

/-- The level of a session and what it consumed since the level was set. -/
structure BandwidthState where
  current : Level
  consumed : UInt32
deriving DecidableEq, Repr

/-- What keeps the bandwidth of a session. -/
structure Governor where
  capacities : Capacities
  costs : CostTable
  /-- The level at the start. -/
  initial : Level
  state : BandwidthState

namespace Governor

/-- The sum of two words, or the largest word if that is too small. -/
def addSat (a b : UInt32) : UInt32 :=
  if a.toNat + b.toNat < 4294967296 then a + b else 4294967295

/-- A governor at its initial level. -/
def new (capacities : Capacities) (costs : CostTable) (initial : Level) : Governor :=
  { capacities, costs, initial, state := ⟨initial, 0⟩ }

/-- The capacity of the current level. -/
def capacity (g : Governor) : UInt32 :=
  g.capacities.of g.state.current

/-- What can still be consumed. -/
def remaining (g : Governor) : UInt32 :=
  if g.state.consumed ≤ g.capacity then g.capacity - g.state.consumed else 0

/-- The cost of a statement. -/
def costOf (g : Governor) (s : Statement) : UInt32 :=
  g.costs.costOf s

/-- Sets the level and forgets what was consumed. -/
def set (g : Governor) (level : Level) : Governor :=
  { g with state := ⟨level, 0⟩ }

/-- Goes back to the initial level. -/
def reset (g : Governor) : Governor :=
  g.set g.initial

/-- Lets a statement pass if the level that it declares is not above the current one. -/
def checkLevel (g : Governor) (s : Statement) : Except BandwidthError Unit :=
  match s.bandwidth with
  | none => .ok ()
  | some required =>
    if required ≤ g.state.current then .ok ()
    else .error (.levelTooLow required g.state.current)

/-- Consumes a cost, if the capacity allows. -/
def charge (g : Governor) (cost : UInt32) : Except BandwidthError Governor :=
  let next := addSat g.state.consumed cost
  if next ≤ g.capacity then .ok { g with state := ⟨g.state.current, next⟩ }
  else .error (.exceeded g.state.current g.capacity g.state.consumed cost)

end Governor

end RitualGate
