import RitualGate.Archive.Relevance
import RitualGate.Archive.Resolve

/-!
# Cards in memory

A shelf is a list of cards, the oldest first, that answers references.
-/

namespace RitualGate

/-- Cards kept in memory, the oldest first. -/
abbrev Shelf := List Card

namespace Shelf

/-- The cards that a reference asks for. -/
def select (cards : Shelf) (topic : String) : CardRef → List Card
  | .id text => (cards.filter fun c => c.id == text).take 1
  | .latest n => cards.reverse.take n
  | .topicRelevant => rank cards topic
  | .topRelevant k => (rank cards topic).take k

/-- A shelf as an archive. -/
def archive (cards : Shelf) : Archive := fun r topic =>
  .ok (cards.select topic r)

end Shelf

end RitualGate
