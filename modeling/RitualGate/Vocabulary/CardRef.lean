import RitualGate.Text.Cut
import RitualGate.Text.Numeral
import RitualGate.Vocabulary.Error

/-!
# Card references

A reference names one memory card or selects several: the latest ones, those relevant to a topic, or
the most relevant ones. A word that is no selector is an id.
-/

namespace RitualGate

/-- A reference to memory cards. -/
inductive CardRef where
  /-- The card with an id. -/
  | id (text : String)
  /-- The last cards, the newest first. -/
  | latest (n : Nat)
  /-- Every card that the topic touches. -/
  | topicRelevant
  /-- The cards that the topic touches most. -/
  | topRelevant (k : Nat)
deriving DecidableEq, Repr

namespace CardRef

/-- The written form without the `card:` in front. -/
def text : CardRef → String
  | id text => text
  | latest n => "latest-" ++ Text.numeral n
  | topicRelevant => "topic-relevant"
  | topRelevant k => "top-" ++ Text.numeral k ++ "-relevant"

/-- The written form. -/
def token (c : CardRef) : String :=
  "card:" ++ c.text

/-- The most cards that a reference may yield. -/
def limit : CardRef → Option Nat
  | id _ => some 1
  | latest n => some n
  | topicRelevant => none
  | topRelevant k => some k

/-- The count in `latest-N`. -/
def latestCount? (word : List Char) : Option Nat :=
  Text.stripHead? "latest-".toList word >>= Text.readNumeral? Text.wordMax

/-- The count in `top-K-relevant`. -/
def topCount? (word : List Char) : Option Nat :=
  Text.stripHead? "top-".toList word >>= Text.stripTail? "-relevant".toList >>=
    Text.readNumeral? Text.wordMax

/-- A word without the `card:` in front, if it has one. -/
def stripMark (word : String) : String :=
  match Text.stripHead? "card:".toList word.toList with
  | some rest => String.ofList rest
  | none => word

/-- Reads a reference from a word without its mark. -/
def ofUnmarked (word : String) : Except VocabularyError CardRef :=
  if word = "" then .error .emptyCardRef
  else if word = "topic-relevant" then .ok .topicRelevant
  else
    match latestCount? word.toList with
    | some 0 => .error (.zeroBound word)
    | some n => .ok (.latest n)
    | none =>
      match topCount? word.toList with
      | some 0 => .error (.zeroBound word)
      | some k => .ok (.topRelevant k)
      | none => .ok (.id word)

/-- Reads a reference, with or without `card:` in front. -/
def ofWord (word : String) : Except VocabularyError CardRef :=
  ofUnmarked (stripMark word)

/-- Whether a word reads as the id that it spells. -/
def readsAsId (text : String) : Bool :=
  match ofWord text with
  | .ok (.id t) => decide (t = text)
  | _ => false

/-- The reference that a quoted text makes: always an id. -/
def ofQuoted (text : String) : Except VocabularyError CardRef :=
  if text = "" then .error .emptyCardRef else .ok (.id text)

end CardRef

end RitualGate
