/-!
# Cutting texts

Cuts at the first occurrence of a character or a byte, at a known beginning or end, and into lines.
-/

namespace RitualGate.Text

/-- The parts before and after the first `c`, if there is one. -/
def splitOnce {α : Type} [DecidableEq α] (c : α) : List α → Option (List α × List α)
  | [] => none
  | d :: ds =>
    if d = c then some ([], ds)
    else (splitOnce c ds).map fun (before, after) => (d :: before, after)

/-- What follows `head`, if the text begins with it. -/
def stripHead? : (head : List Char) → List Char → Option (List Char)
  | [], cs => some cs
  | _ :: _, [] => none
  | h :: hs, c :: cs => if h = c then stripHead? hs cs else none

/-- What precedes `tail`, if the text ends with it. -/
def stripTail? (tail cs : List Char) : Option (List Char) :=
  (stripHead? tail.reverse cs.reverse).map List.reverse

/-- The lines of a text. A line ends at `lf`, which takes a `cr` just before it along; the last
line may lack its end, and an end with nothing after it starts no line. -/
def splitLines {α : Type} [DecidableEq α] (cr lf : α) : List α → List (List α)
  | [] => []
  | c :: cs =>
    if c = lf then [] :: splitLines cr lf cs
    else
      match cs with
      | [] => [[c]]
      | d :: _ =>
        if c = cr ∧ d = lf then splitLines cr lf cs
        else
          match splitLines cr lf cs with
          | [] => [[c]]
          | l :: ls => (c :: l) :: ls

/-- The lines of a text, ended by a line feed or by a carriage return and a line feed. -/
def lines (s : String) : List String :=
  (splitLines '\r' '\n' s.toList).map String.ofList

/-- Whether `part` occurs in `cs`. -/
def occursIn (part : List Char) : List Char → Bool
  | [] => part.isEmpty
  | c :: cs => (stripHead? part (c :: cs)).isSome || occursIn part cs

end RitualGate.Text
