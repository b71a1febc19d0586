import RitualGate.Text.Lowercase
import RitualGate.Vocabulary.Error
import RitualGate.Vocabulary.Keyword

/-!
# Intents

An intent says how delicate a dispatch is. It is read off the words of the subject unless the
statement names one.
-/

namespace RitualGate

/-- How delicate a dispatch is. -/
inductive Intent where
  | healing
  | crisis
  | therapeutic
  | general
deriving DecidableEq, Repr

namespace Intent

/-- The word for an intent. -/
def name : Intent → String
  | healing => "healing"
  | crisis => "crisis"
  | therapeutic => "therapeutic"
  | general => "general"

/-- Every intent, in the order of declaration. -/
def all : List Intent := [healing, crisis, therapeutic, general]

/-- The intent that a word names. -/
def ofName? (s : String) : Option Intent :=
  all.find? fun i => i.name == s

/-- Reads an intent exactly. -/
def ofText (s : String) : Except VocabularyError Intent :=
  match ofName? s with
  | some i => .ok i
  | none => .error (.unknownIntent s)

/-- Whether one of the words is in a vocabulary. -/
def mentions (words : List (List Char)) (vocabulary : List String) : Bool :=
  words.any fun w => vocabulary.any fun v => v.toList == w

/-- The intent that some words call for, the gravest first. -/
def ofWords (words : List (List Char)) : Intent :=
  if mentions words ["crisis"] then crisis
  else if mentions words ["heal", "healing"] then healing
  else if mentions words ["therapy", "therapeutic"] then therapeutic
  else general

/-- The intent of a subject, from its whole words in any case. -/
def classify (subject : String) : Intent :=
  ofWords (Text.words (Text.lowercase subject.toList))

/-- The intent of a statement that names none. Only rituals and companions have one. -/
def default (family : Family) (subject : String) : Option Intent :=
  match family with
  | .ritual => some (classify subject)
  | .companion => some (classify subject)
  | _ => none

end Intent

end RitualGate
