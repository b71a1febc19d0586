import RitualGate.Archive.Card
import RitualGate.Error

/-!
# Resolving references

An archive answers a reference with cards. `resolve` asks it for each reference in turn, cuts every
answer to what the reference may yield, and stops at the first failure. An id that has no card is a
failure; a selector that selects nothing is not.
-/

namespace RitualGate

/-- What answers references to memory cards, given the topic at hand. -/
abbrev Archive := CardRef → String → Except DispatchError (List Card)

/-- A card and the reference that asked for it. -/
structure ResolvedCard where
  requested : CardRef
  card : Card
deriving DecidableEq, Repr

/-- An answer cut to the limit of its reference. -/
def CardRef.cut (r : CardRef) (cards : List Card) : List Card :=
  match r.limit with
  | some n => cards.take n
  | none => cards

/-- Whether a reference is an id. -/
def CardRef.id? : CardRef → Option String
  | .id text => some text
  | _ => none

/-- The cards of one reference. -/
def resolveOne (archive : Archive) (topic : String) (r : CardRef) :
    Except RitualError (List ResolvedCard) :=
  match archive r topic with
  | .error e => .error (.dispatch e)
  | .ok cards =>
    match r.id?, cards with
    | some id, [] => .error (.cardNotFound id)
    | _, _ => .ok ((r.cut cards).map fun c => ⟨r, c⟩)

/-- The references that were asked for, and the cards or the first failure. -/
def resolve (archive : Archive) (topic : String) :
    List CardRef → List CardRef × Except RitualError (List ResolvedCard)
  | [] => ([], .ok [])
  | r :: rs =>
    match resolveOne archive topic r with
    | .error e => ([r], .error e)
    | .ok cards =>
      let (asked, rest) := resolve archive topic rs
      match rest with
      | .error e => (r :: asked, .error e)
      | .ok more => (r :: asked, .ok (cards ++ more))

end RitualGate
