import RitualGate.Archive.Card
import RitualGate.Text.Cut
import RitualGate.Text.Lowercase

/-!
# Relevance

A card is relevant to a topic by the number of the topic's words that occur in it. Words of fewer
than three characters do not count, and case does not matter. `rank` lists the relevant cards, the
most relevant first, and keeps cards of equal relevance in their order.
-/

namespace RitualGate

/-- The words of a topic that count, in lower case. -/
def topicWords (topic : String) : List (List Char) :=
  ((Text.words topic.toList).filter fun w => decide (3 ≤ w.length)).map Text.lowercase

namespace Card

/-- The number of the topic's words that occur in a card. -/
def relevance (c : Card) (topic : String) : Nat :=
  let haystack := Text.lowercase (c.topic ++ " " ++ c.content).toList
  (topicWords topic).countP fun w => Text.occursIn w haystack

end Card

/-- The relevant cards, the most relevant first. -/
def rank (cards : List Card) (topic : String) : List Card :=
  let scored := cards.map fun c => (c.relevance topic, c)
  ((scored.filter fun s => decide (0 < s.1)).mergeSort fun a b => decide (b.1 ≤ a.1)).map Prod.snd

end RitualGate
