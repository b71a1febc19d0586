import RitualGate.Text.Blank
import RitualGate.Vocabulary.Error

/-!
# Bandwidth levels

Three levels, each above the one before it.
-/

namespace RitualGate

/-- A bandwidth level. -/
inductive Level where
  | low
  | medium
  | high
deriving DecidableEq, Repr

namespace Level

/-- The word for a level. -/
def name : Level → String
  | low => "low"
  | medium => "medium"
  | high => "high"

/-- The place of a level in the order. -/
def rank : Level → Nat
  | low => 0
  | medium => 1
  | high => 2

/-- Every level, the lowest first. -/
def all : List Level := [low, medium, high]

instance : LE Level := ⟨fun a b => a.rank ≤ b.rank⟩

instance (a b : Level) : Decidable (a ≤ b) := inferInstanceAs (Decidable (a.rank ≤ b.rank))

/-- The level that a word names exactly. -/
def ofName? (s : String) : Option Level :=
  all.find? fun l => l.name == s

/-- Reads a level, blanks around it aside. -/
def ofText (s : String) : Except VocabularyError Level :=
  match ofName? (Text.trim s) with
  | some l => .ok l
  | none => .error (.unknownLevel (Text.trim s))

end Level

end RitualGate
