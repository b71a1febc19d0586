import RitualGate.Statement.Basic

/-!
# The gate

A policy says which anchors each intent asks for. `Grants` is what a session has been given: a set
of anchors, which only grows until the session starts over, and whether containment holds. A
statement passes the gate if everything that it needs has been given, in the same mode or a stronger
one.
-/

namespace RitualGate

/-- The anchors that each intent asks for. An intent without a rule asks for none. -/
structure AnchorPolicy where
  rule : Intent → Option AnchorSet

/-- The anchors that a statement lacks. -/
structure MissingAnchors where
  missing : AnchorSet
deriving DecidableEq

namespace MissingAnchors

/-- The report of what is missing. -/
def message (e : MissingAnchors) : String :=
  "missing required anchors: " ++ ", ".intercalate (e.missing.toList.map Anchor.text)

end MissingAnchors

/-- What a session has been given. -/
structure Grants where
  granted : AnchorSet
  containment : Bool
deriving DecidableEq

namespace Grants

/-- Nothing given. -/
def empty : Grants := ⟨.empty, false⟩

/-- Whether something given satisfies a requirement. -/
def satisfies (g : Grants) (required : Anchor) : Bool :=
  g.granted.toList.any fun a => a.satisfies required

/-- Gives one more anchor. -/
def grant (g : Grants) (a : Anchor) : Grants :=
  { g with granted := g.granted.insert a }

/-- Ends containment and keeps the anchors. -/
def clearContainment (g : Grants) : Grants :=
  { g with containment := false }

/-- The anchors of a statement that a session does not have yet. -/
def newFrom (g : Grants) (s : Statement) : List Anchor :=
  if s.family = .anchor then s.anchors.toList.filter fun a => !g.granted.has a else []

/-- Takes the anchors of an anchor statement, and engages containment if it says so. -/
def accept (g : Grants) (s : Statement) : Grants :=
  if s.family = .anchor then
    { granted := g.granted.union s.anchors
      containment := g.containment || s.engagesContainment }
  else g

end Grants

namespace AnchorPolicy

/-- No rules. -/
def empty : AnchorPolicy := ⟨fun _ => none⟩

/-- Explicit consent for healing and therapy, and review by a human besides in a crisis. -/
def default : AnchorPolicy where
  rule
    | .healing => some (.ofList [⟨.consent, .explicit⟩])
    | .therapeutic => some (.ofList [⟨.consent, .explicit⟩])
    | .crisis => some (.ofList [⟨.consent, .explicit⟩, ⟨.review, .human⟩])
    | .general => some .empty

/-- The policy with the rules of a list; of several for one intent, the last counts. -/
def ofList (rules : List (Intent × AnchorSet)) : AnchorPolicy where
  rule i := rules.reverse.lookup i

/-- The rules, in the order of the intents. -/
def toList (p : AnchorPolicy) : List (Intent × AnchorSet) :=
  Intent.all.filterMap fun i => (p.rule i).map fun s => (i, s)

/-- The anchors that an intent asks for. -/
def required (p : AnchorPolicy) (i : Intent) : AnchorSet :=
  (p.rule i).getD .empty

/-- The anchors that the policy asks for because of the intent of a dispatch. -/
def requiredByIntent (p : AnchorPolicy) (s : Statement) : AnchorSet :=
  match s.intent with
  | some i => if s.isDispatch then p.required i else .empty
  | none => .empty

/-- The anchors that must be given before a statement. An anchor statement gives its anchors and
asks for none. -/
def requiredFor (p : AnchorPolicy) (s : Statement) : AnchorSet :=
  if s.family = .anchor then .empty else (p.requiredByIntent s).union s.anchors

/-- The anchors that a statement lacks. -/
def missing (p : AnchorPolicy) (s : Statement) (g : Grants) : AnchorSet :=
  (p.requiredFor s).filter fun a => !g.satisfies a

/-- Lets a statement pass if it lacks nothing. -/
def check (p : AnchorPolicy) (s : Statement) (g : Grants) : Except MissingAnchors Unit :=
  if (p.missing s g).isEmpty then .ok () else .error ⟨p.missing s g⟩

end AnchorPolicy

end RitualGate
