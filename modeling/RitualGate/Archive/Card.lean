import RitualGate.Data.Decode

/-!
# Memory cards
-/

namespace RitualGate

open Data (Value Decoder Fields)

/-- A card of the memory archive. -/
structure Card where
  id : String
  topic : String
  content : String
  createdAt : String
deriving DecidableEq, Repr

namespace Card

/-- The data of a card. -/
def toValue (c : Card) : Value :=
  .table [("id", .text c.id), ("topic", .text c.topic), ("content", .text c.content),
    ("created_at", .text c.createdAt)]

/-- Reads a card from its data. -/
def ofValue : Decoder Card :=
  Fields.decode ["id", "topic", "content", "created_at"]
    ((Fields.pure Card.mk)
      |>.seq (.required "id" Data.Decode.text)
      |>.seq (.required "topic" Data.Decode.text)
      |>.seq (.required "content" Data.Decode.text)
      |>.seq (.required "created_at" Data.Decode.text))

end Card

end RitualGate
