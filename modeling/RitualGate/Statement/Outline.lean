import RitualGate.Statement.Token
import RitualGate.Text.Cut
import RitualGate.Vocabulary.CardRef
import RitualGate.Vocabulary.Keyword

/-!
# Outlines

An outline is what the tokens of a line say before anyone asks whether the parts go together: a
keyword, perhaps a quoted subject, perhaps a list of card references, perhaps pairs behind a bar.

    keyword ["subject"] ["[" card ("," card)* "]"] ["|" pair ("," pair)* [","]]
-/

namespace RitualGate

/-- A key and its value, as they stand behind the bar. -/
structure Pair where
  key : String
  value : String
  column : Nat
deriving DecidableEq, Repr

/-- The parts of a line. -/
structure Outline where
  head : Token
  family : Family
  verb : Verb
  /-- The text of the subject and its token. -/
  subject : Option (String × Token)
  cards : List CardRef
  pairs : List Pair
deriving DecidableEq, Repr

namespace Outline

/-! ## The keyword -/

/-- Reads a keyword. -/
def keywordOf (head : Token) : Except SyntaxError (Family × Verb) :=
  match head.kind with
  | .word cs =>
    match Text.splitOnce '.' cs with
    | none => .error (head.fail .expectedKeyword)
    | some (f, v) =>
      let familyText := String.ofList f
      let verbText := String.ofList v
      match Family.ofName? familyText with
      | none =>
        .error { fault := .unknownFamily familyText, token := familyText, column := head.column }
      | some family =>
        match (Verb.ofName? verbText).filter family.allows with
        | none =>
          .error {
            fault := .unknownVerb verbText familyText
            token := verbText
            column := head.column + f.length + 1 }
        | some verb => .ok (family, verb)
  | _ => .error (head.fail .expectedKeyword)

/-! ## Card references -/

/-- Reads a reference for which a token answers. -/
def cardAt (t : Token) (card : Except VocabularyError CardRef) : Except SyntaxError CardRef :=
  match card with
  | .ok c => .ok c
  | .error e => .error (t.fail (.vocabulary e))

/-- The word that announces a reference in the token behind it. -/
def cardMark : List Char := "card:".toList

mutual

/-- Reads the references of a list behind its opening bracket. -/
def readCards (opening : Token) (first : Bool) :
    List Token → Except SyntaxError (List CardRef × List Token)
  | [] => .error (opening.fail .unterminatedCards)
  | t :: ts =>
    match t.kind with
    | .closeBracket => if first then .ok ([], ts) else .error (t.fail .expectedCard)
    | .quoted q => do
      let c ← cardAt t (CardRef.ofQuoted (String.ofList q))
      let (cs, rest) ← readCardEnd opening ts
      return (c :: cs, rest)
    | .word w =>
      if w = cardMark then
        match ts with
        | [] => .error (t.fail .expectedCard)
        | u :: us =>
          match u.kind with
          | .word w => do
            let c ← cardAt t (CardRef.ofWord (String.ofList w))
            let (cs, rest) ← readCardEnd opening us
            return (c :: cs, rest)
          | .quoted q => do
            let c ← cardAt t (CardRef.ofQuoted (String.ofList q))
            let (cs, rest) ← readCardEnd opening us
            return (c :: cs, rest)
          | _ => .error (t.fail .expectedCard)
      else do
        let c ← cardAt t (CardRef.ofWord (String.ofList w))
        let (cs, rest) ← readCardEnd opening ts
        return (c :: cs, rest)
    | _ => .error (t.fail .expectedCard)

/-- Reads what follows a reference: a comma and more of them, or the closing bracket. -/
def readCardEnd (opening : Token) : List Token → Except SyntaxError (List CardRef × List Token)
  | [] => .error (opening.fail .unterminatedCards)
  | t :: ts =>
    match t.kind with
    | .comma => readCards opening false ts
    | .closeBracket => .ok ([], ts)
    | _ => .error (t.fail .expectedCardEnd)

end

/-! ## Pairs -/

/-- The tokens of a pair, and the comma behind them if there is one. -/
structure Segment where
  tokens : List Token
  comma : Option Token
deriving DecidableEq, Repr

/-- Cuts tokens at their commas. -/
def segments : List Token → List Segment
  | [] => [⟨[], none⟩]
  | t :: ts =>
    if t.kind = .comma then ⟨[], some t⟩ :: segments ts
    else
      match segments ts with
      | [] => [⟨[t], none⟩]
      | s :: ss => ⟨t :: s.tokens, s.comma⟩ :: ss

/-- The value behind a colon: the rest of the word, else the next word or quoted text, else
nothing. -/
def valueAfter (rest : List Char) (ts : List Token) : List Char × List Token :=
  if rest = [] then
    match ts with
    | [] => ([], [])
    | t :: us =>
      match t.kind with
      | .word w => (w, us)
      | .quoted q => (q, us)
      | _ => ([], t :: us)
  else (rest, ts)

/-- A key, its value and the tokens behind them. A key without a colon is true. -/
def keyAndValue (w : List Char) (ts : List Token) : List Char × List Char × List Token :=
  match Text.splitOnce ':' w with
  | some (key, rest) => (key, valueAfter rest ts)
  | none =>
    match ts with
    | [] => (w, "true".toList, [])
    | t :: us =>
      match t.kind with
      | .word (':' :: rest) => (w, valueAfter rest us)
      | _ => (w, "true".toList, t :: us)

/-- Reads the pair of a segment. Behind the last comma there need not be one. -/
def Segment.pair? (s : Segment) : Except SyntaxError (Option Pair) :=
  match s.tokens with
  | [] =>
    match s.comma with
    | none => .ok none
    | some c => .error (c.fail .expectedKey)
  | t :: ts =>
    match t.kind with
    | .word w =>
      let (key, value, rest) := keyAndValue w ts
      if key = [] then .error (t.fail .emptyKey)
      else
        match rest with
        | [] => .ok (some ⟨String.ofList key, String.ofList value, t.column⟩)
        | u :: _ => .error (u.fail .expectedPairEnd)
    | _ => .error (t.fail .expectedKey)

/-- Reads the pairs of some segments, up to the first fault. -/
def pairsOf : List Segment → Except SyntaxError (List Pair)
  | [] => .ok []
  | s :: ss => do
    let p ← s.pair?
    let ps ← pairsOf ss
    return p.toList ++ ps

/-- Reads the pairs behind a bar, at least one. -/
def readPairs (bar : Token) (ts : List Token) : Except SyntaxError (List Pair) :=
  if ts = [] then .error (bar.fail .expectedPairs) else pairsOf (segments ts)

/-! ## The line -/

/-- The subject that some tokens begin with. -/
def takeSubject : List Token → Option (String × Token) × List Token
  | [] => (none, [])
  | t :: ts =>
    match t.kind with
    | .quoted q => (some (String.ofList q, t), ts)
    | _ => (none, t :: ts)

/-- The card references that some tokens begin with. -/
def takeCards : List Token → Except SyntaxError (List CardRef × List Token)
  | [] => .ok ([], [])
  | t :: ts => if t.kind = .openBracket then readCards t true ts else .ok ([], t :: ts)

/-- The pairs that some tokens consist of. -/
def takePairs : List Token → Except SyntaxError (List Pair)
  | [] => .ok []
  | t :: ts => if t.kind = .pipe then readPairs t ts else .error (t.fail .unexpectedToken)

/-- The outline of a line. -/
def ofTokens : List Token → Except SyntaxError Outline
  | [] => .error { fault := .emptyStatement, token := "", column := 1 }
  | head :: ts => do
    let (family, verb) ← keywordOf head
    let (subject, ts) := takeSubject ts
    let (cards, ts) ← takeCards ts
    let pairs ← takePairs ts
    return { head, family, verb, subject, cards, pairs }

end Outline

end RitualGate
