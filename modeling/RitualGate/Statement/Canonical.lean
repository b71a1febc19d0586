import RitualGate.Sha256
import RitualGate.Statement.Basic
import RitualGate.Statement.Token

/-!
# The canonical text

Every statement has one canonical text, which the audit trail digests. What the keyword and the
subject already say is left out, and the rest stands in a fixed order.
-/

namespace RitualGate

namespace Statement

/-- A text between quotes, with a backslash before every quote and backslash. -/
def quote (cs : List Char) : List Char :=
  '"' :: (cs.flatMap (fun c => if c = '"' ∨ c = '\\' then ['\\', c] else [c]) ++ ['"'])

/-- A text that can stand as a word. -/
def isPlain (cs : List Char) : Bool :=
  !cs.isEmpty && cs.all Token.isWordChar

/-- A value, as a word if it can stand as one. -/
def valueChars (v : String) : List Char :=
  if isPlain v.toList then v.toList else quote v.toList

/-- A card reference. An id is quoted unless it reads back as itself. -/
def cardChars : CardRef → List Char
  | .id text =>
    if isPlain text.toList && CardRef.readsAsId text then
      (CardRef.id text).token.toList
    else quote text.toList
  | c => c.token.toList

/-- The pairs of a statement, in order: voice, bandwidth, anchors, intent and arguments. -/
def pairChars (s : Statement) : List (List Char) :=
  let voice := match s.voice with
    | some p => if s.family = .voice ∧ s.verb = .use then [] else ["voice:".toList ++ p.token.toList]
    | none => []
  let bandwidth := match s.bandwidth with
    | some l =>
      if s.family = .bandwidth ∧ s.verb = .set then [] else ["bandwidth:".toList ++ l.name.toList]
    | none => []
  let subjectAnchor : Option Anchor :=
    if s.family = .anchor then (Anchor.ofText s.subject).toOption else none
  let anchors := (s.anchors.toList.filter fun a => decide (some a ≠ subjectAnchor)).map
    fun a => "anchor:".toList ++ a.text.toList
  let intent := match s.intent with
    | some i =>
      if s.intent = Intent.default s.family s.subject then [] else ["intent:".toList ++ i.name.toList]
    | none => []
  let args := s.args.entries.map fun (k, v) =>
    if v = "true" then k.toList else k.toList ++ ':' :: valueChars v
  voice ++ bandwidth ++ anchors ++ intent ++ args

/-- The characters of the canonical text. -/
def canonicalChars (s : Statement) : List Char :=
  let subject := if s.subject = "" then [] else ' ' :: quote s.subject.toList
  let cards :=
    if s.cards = [] then []
    else ' ' :: '[' :: (", ".toList.intercalate (s.cards.map cardChars) ++ [']'])
  let pairs :=
    if s.pairChars = [] then [] else " | ".toList ++ ", ".toList.intercalate s.pairChars
  s.keyword.toList ++ subject ++ cards ++ pairs

/-- The canonical text. -/
def canonical (s : Statement) : String :=
  String.ofList s.canonicalChars

/-- The digest of the canonical text. -/
def digest (s : Statement) : String :=
  Sha256.hexOfText s.canonical

end Statement

end RitualGate
