import RitualGate.Text.Blank
import RitualGate.Text.Cut
import RitualGate.Vocabulary.Error

/-!
# Anchors

An anchor is a kind of safeguard and the mode in which it was given. A stronger mode of a kind
satisfies a weaker one. `AnchorSet` is a set of anchors; its members are listed by kind, then mode.
-/

namespace RitualGate

/-- What an anchor safeguards. -/
inductive AnchorKind where
  | consent
  | review
  | containment
deriving DecidableEq, Repr

/-- How an anchor was given, the weakest mode first. -/
inductive AnchorMode where
  | implicit
  | explicit
  | human
deriving DecidableEq, Repr

/-- A safeguard in one of its modes. -/
structure Anchor where
  kind : AnchorKind
  mode : AnchorMode
deriving DecidableEq, Repr

namespace AnchorKind

/-- The word for a kind. -/
def name : AnchorKind → String
  | consent => "consent"
  | review => "review"
  | containment => "containment"

/-- Every kind, in order. -/
def all : List AnchorKind := [consent, review, containment]

/-- The kind that a word names. -/
def ofName? (s : String) : Option AnchorKind :=
  all.find? fun k => k.name == s

end AnchorKind

namespace AnchorMode

/-- The word for a mode. -/
def name : AnchorMode → String
  | implicit => "implicit"
  | explicit => "explicit"
  | human => "human"

/-- The strength of a mode. -/
def rank : AnchorMode → Nat
  | implicit => 0
  | explicit => 1
  | human => 2

/-- Every mode, the weakest first. -/
def all : List AnchorMode := [implicit, explicit, human]

instance : LE AnchorMode := ⟨fun a b => a.rank ≤ b.rank⟩

instance (a b : AnchorMode) : Decidable (a ≤ b) := inferInstanceAs (Decidable (a.rank ≤ b.rank))

/-- The mode that a word names. -/
def ofName? (s : String) : Option AnchorMode :=
  all.find? fun m => m.name == s

end AnchorMode

namespace Anchor

/-- Every anchor, by kind and then by mode. -/
def all : List Anchor :=
  AnchorKind.all.flatMap fun k => AnchorMode.all.map fun m => ⟨k, m⟩

/-- The written form `kind:mode`. -/
def text (a : Anchor) : String :=
  a.kind.name ++ ":" ++ a.mode.name

/-- The word that stands for explicit containment. -/
def safeContainment : String := "safe_containment"

/-- Reads a kind with its mode. A kind alone is explicit. -/
def ofParts (kind : String) (mode : Option String) : Except VocabularyError Anchor :=
  match AnchorKind.ofName? kind with
  | none => .error (.unknownAnchorKind kind)
  | some k =>
    match mode with
    | none => .ok ⟨k, .explicit⟩
    | some m =>
      match AnchorMode.ofName? m with
      | some m => .ok ⟨k, m⟩
      | none => .error (.unknownAnchorMode m)

/-- Reads an anchor, blanks around it aside: `kind`, `kind:mode` or the word for safe
containment. -/
def ofText (s : String) : Except VocabularyError Anchor :=
  let s := Text.trim s
  if s = safeContainment then .ok ⟨.containment, .explicit⟩
  else
    match Text.splitOnce ':' s.toList with
    | some (kind, mode) => ofParts (String.ofList kind) (some (String.ofList mode))
    | none => ofParts s none

/-- An anchor satisfies a requirement of its kind in the same or a weaker mode. -/
def satisfies (a required : Anchor) : Bool :=
  decide (a.kind = required.kind) && decide (required.mode ≤ a.mode)

theorem mem_all (a : Anchor) : a ∈ all := by
  rcases a with ⟨k, m⟩
  cases k <;> cases m <;> decide

end Anchor

/-- A set of anchors. -/
structure AnchorSet where
  has : Anchor → Bool

namespace AnchorSet

@[ext]
theorem ext {s t : AnchorSet} (h : ∀ a, s.has a = t.has a) : s = t := by
  cases s; cases t
  exact congrArg _ (funext h)

/-- The set without members. -/
def empty : AnchorSet := ⟨fun _ => false⟩

/-- The set of the anchors in a list. -/
def ofList (as : List Anchor) : AnchorSet := ⟨fun a => as.contains a⟩

/-- A set with one more member. -/
def insert (s : AnchorSet) (a : Anchor) : AnchorSet := ⟨fun b => decide (b = a) || s.has b⟩

/-- The members of either set. -/
def union (s t : AnchorSet) : AnchorSet := ⟨fun a => s.has a || t.has a⟩

/-- The members that pass a test. -/
def filter (s : AnchorSet) (p : Anchor → Bool) : AnchorSet := ⟨fun a => s.has a && p a⟩

/-- The members, by kind and then by mode. -/
def toList (s : AnchorSet) : List Anchor := Anchor.all.filter s.has

/-- Whether a set has no members. -/
def isEmpty (s : AnchorSet) : Bool := s.toList.isEmpty

instance : DecidableEq AnchorSet := fun s t =>
  if h : ∀ a ∈ Anchor.all, s.has a = t.has a then
    isTrue (ext fun a => h a (Anchor.mem_all a))
  else isFalse fun e => h fun _ _ => e ▸ rfl

@[simp]
theorem mem_toList {s : AnchorSet} {a : Anchor} : a ∈ s.toList ↔ s.has a = true := by
  simp [toList, Anchor.mem_all]

end AnchorSet

end RitualGate
