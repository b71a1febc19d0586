import RitualGate.Statement.Basic
import RitualGate.Statement.Outline

/-!
# Reading statements

`Statement.parse` reads a line. A blank line and a comment say nothing; any other line is a
statement or an error. `parseProgram` reads every line of a text.
-/

namespace RitualGate

namespace Outline

/-- The subject that a keyword needs. -/
def requireSubject (o : Outline) (what : String) : Except SyntaxError (String × Token) :=
  match o.subject with
  | some s => .ok s
  | none => .error (o.head.fail (.missingSubject o.head.describe what))

/-- Reads the subject as a word of the vocabulary. -/
def subjectAs {α : Type} (o : Outline) (what : String)
    (ofText : String → Except VocabularyError α) : Except SyntaxError α := do
  let (text, t) ← o.requireSubject what
  match ofText text with
  | .ok a => return a
  | .error e => .error (t.fail (.vocabulary e))

/-- The statement of an outline without its pairs. -/
def base (o : Outline) : Statement :=
  let subject := (o.subject.map Prod.fst).getD ""
  { family := o.family
    verb := o.verb
    subject
    intent := Intent.default o.family subject
    args := .empty
    anchors := .empty
    voice := none
    bandwidth := none
    cards := o.cards }

/-- What the keyword makes of the subject: a voice, a level or an anchor. -/
def withSubject (o : Outline) : Except SyntaxError Statement :=
  match o.family, o.verb with
  | .voice, .use => do
    let p ← o.subjectAs "persona" Persona.ofText
    return { o.base with voice := some p }
  | .bandwidth, .set => do
    let l ← o.subjectAs "level" Level.ofText
    return { o.base with bandwidth := some l }
  | .anchor, _ => do
    let a ← o.subjectAs "anchor" Anchor.ofText
    return { o.base with anchors := AnchorSet.empty.insert a }
  | .archive, .access =>
    if o.cards = [] then .error (o.head.fail .missingCards) else .ok o.base
  | _, _ => .ok o.base

end Outline

namespace Pair

/-- The error that lies at a pair. -/
def fail (p : Pair) (fault : Fault) : SyntaxError :=
  { fault, token := p.key ++ ":" ++ p.value, column := p.column }

/-- Reads the value of a pair as a word of the vocabulary. -/
def valueAs {α : Type} (p : Pair) (ofText : String → Except VocabularyError α) :
    Except SyntaxError α :=
  match ofText p.value with
  | .ok a => .ok a
  | .error e => .error (p.fail (.vocabulary e))

/-- Adds a pair to a statement. A voice or a level may be repeated but not changed, an anchor is one
more anchor, the last intent counts, and any other key is an argument that may stand once. -/
def apply (s : Statement) (p : Pair) : Except SyntaxError Statement :=
  if p.key = "voice" then do
    let persona ← p.valueAs Persona.ofText
    if s.voice.any (· != persona) then .error (p.fail (.conflictingVoice persona.token))
    else return { s with voice := some persona }
  else if p.key = "bandwidth" then do
    let level ← p.valueAs Level.ofText
    if s.bandwidth.any (· != level) then .error (p.fail (.conflictingBandwidth level.name))
    else return { s with bandwidth := some level }
  else if p.key = "anchor" then do
    let a ← p.valueAs Anchor.ofText
    return { s with anchors := s.anchors.insert a }
  else if p.key = "intent" then do
    let i ← p.valueAs Intent.ofText
    return { s with intent := some i }
  else if s.args.contains p.key then .error (p.fail (.duplicateArgument p.key))
  else .ok { s with args := s.args.insert p.key p.value }

end Pair

namespace Outline

/-- Adds pairs to a statement, up to the first that does not go with it. -/
def applyPairs (s : Statement) : List Pair → Except SyntaxError Statement
  | [] => .ok s
  | p :: ps => do
    let s ← p.apply s
    applyPairs s ps

/-- The statement of an outline. -/
def build (o : Outline) : Except SyntaxError Statement := do
  let s ← o.withSubject
  applyPairs s o.pairs

end Outline

namespace Statement

/-- Whether a line says nothing: blanks, or a comment behind them. -/
def isRemark (line : List Char) : Bool :=
  match Text.trimStart line with
  | [] => true
  | '#' :: _ => true
  | '/' :: '/' :: _ => true
  | _ => false

/-- The statement that some tokens make. -/
def ofTokens (ts : List Token) : Except SyntaxError Statement := do
  let o ← Outline.ofTokens ts
  o.build

/-- Reads a line. -/
def parse (line : String) : Except SyntaxError (Option Statement) :=
  if isRemark line.toList then .ok none
  else do
    let ts ← Token.scan line
    let s ← ofTokens ts
    return some s

end Statement

/-- A line of a program that says something, by its number. -/
structure ParsedLine where
  line : Nat
  result : Except SyntaxError Statement

/-- Reads lines that are numbered from `n`. -/
def parseLines (n : Nat) : List String → List ParsedLine
  | [] => []
  | l :: ls =>
    match Statement.parse l with
    | .ok none => parseLines (n + 1) ls
    | .ok (some s) => ⟨n, .ok s⟩ :: parseLines (n + 1) ls
    | .error e => ⟨n, .error (e.onLine n)⟩ :: parseLines (n + 1) ls

/-- Reads every line of a program, leaving out those that say nothing. -/
def parseProgram (text : String) : List ParsedLine :=
  parseLines 1 (Text.lines text)

end RitualGate
