import RitualGate.Archive.Card

/-!
# The table of cards

A table keeps cards in numbered rows. A new row gets the number behind the largest one that a row
ever had, and the first row the number one; once there is no number left, the table is full. Rows
that were there already may have any numbers, also below zero. No two rows hold cards of one id. A
query says in which order it wants the rows.
-/

namespace RitualGate

open Data (Value Decoder Fields)

/-- A card in a table. -/
structure Row where
  number : Int
  card : Card
deriving DecidableEq, Repr

namespace Row

/-- The data of a row. -/
def toValue (r : Row) : Value :=
  .table [("number", .int r.number), ("card", r.card.toValue)]

/-- The largest number of a row, and the largest limit of a query: sixty-four bits with a sign. -/
def maxNumber : Nat := 9223372036854775807

/-- The smallest number of a row. -/
def minNumber : Int := -9223372036854775808

/-- Reads a row. -/
def ofValue : Decoder Row :=
  Fields.decode ["number", "card"]
    ((Fields.pure Row.mk)
      |>.seq (.required "number" (Data.Decode.int minNumber maxNumber))
      |>.seq (.required "card" Card.ofValue))

end Row

/-- Why a table does not take a card. -/
inductive TableFault where
  /-- A row holds a card of the same id. -/
  | notUnique
  /-- There is no number left. -/
  | full
deriving DecidableEq, Repr

namespace TableFault

/-- The wording of a fault. -/
def message : TableFault → String
  | notUnique => "UNIQUE constraint failed: cards.card_id"
  | full => "database or disk is full"

end TableFault

/-- Cards in rows. -/
structure Table where
  /-- The rows, in any order. -/
  rows : List Row
  /-- The largest number that a row has had, or zero. -/
  lastNumber : Nat
deriving DecidableEq, Repr

namespace Table

/-- A table without rows. -/
def empty : Table := ⟨[], 0⟩

/-- The row of the card with an id. -/
def find? (t : Table) (id : String) : Option Row :=
  t.rows.find? fun r => r.card.id == id

/-- The rows by their numbers, the smallest first. -/
def ascending (t : Table) : List Row :=
  t.rows.mergeSort fun a b => decide (a.number ≤ b.number)

/-- The rows by their numbers, the largest first. -/
def descending (t : Table) : List Row :=
  t.rows.mergeSort fun a b => decide (b.number ≤ a.number)

/-- Adds a row for a card, and returns its number. -/
def insert (t : Table) (c : Card) : Except TableFault (Nat × Table) :=
  if t.rows.any fun r => r.card.id == c.id then .error .notUnique
  else if t.lastNumber < Row.maxNumber then
    let number := t.lastNumber + 1
    .ok (number, ⟨t.rows ++ [⟨number, c⟩], number⟩)
  else .error .full

/-- The data of a table. -/
def toValue (t : Table) : Value :=
  .table [("rows", .list (t.rows.map Row.toValue)), ("last_number", .nat t.lastNumber)]

/-- Reads a table. -/
def ofValue : Decoder Table :=
  Fields.decode ["rows", "last_number"]
    ((Fields.pure Table.mk)
      |>.seq (.required "rows" (Data.Decode.list Row.ofValue))
      |>.seq (.required "last_number" (Data.Decode.nat Row.maxNumber)))

end Table

end RitualGate
