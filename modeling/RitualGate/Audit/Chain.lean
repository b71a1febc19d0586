import RitualGate.Audit.Record
import RitualGate.Sha256

/-!
# Chains of records

Records form a chain: they are numbered from zero by machine words, each holds the hash of its
predecessor, the first a hash of zeros, and each hash is that of the record's own fields. `verify`
finds the first record at which a list stops being a chain.
-/

namespace RitualGate

/-- The hash that the first record of a chain holds for its predecessor. -/
def genesisHash : String :=
  String.ofList (List.replicate 64 '0')

/-- The hash of a record with some fields. -/
def chainHash (prevHash statementDigest : String) (outcome : Outcome) (timestamp : String) :
    String :=
  Sha256.hexOfText (prevHash ++ statementDigest ++ outcome.name ++ timestamp)

namespace AuditRecord

/-- The hash that a record should have. -/
def expectedHash (r : AuditRecord) : String :=
  chainHash r.prevHash r.statementDigest r.outcome r.timestamp

end AuditRecord

/-- What is wrong with a record. -/
inductive ChainFault where
  | sequence (expected : Nat)
  | prevHash
  | selfHash
deriving DecidableEq, Repr

namespace ChainFault

/-- The wording of a fault. -/
def message : ChainFault → String
  | sequence expected => "expected sequence " ++ Text.numeral expected
  | prevHash => "prev_hash does not match the preceding record"
  | selfHash => "self_hash does not match record contents"

end ChainFault

/-- The first record that does not fit into a chain. -/
structure ChainError where
  /-- The number that the record has. -/
  sequence : Nat
  fault : ChainFault
deriving DecidableEq, Repr

namespace ChainError

/-- The report of a broken chain. -/
def message (e : ChainError) : String :=
  "audit chain broken at sequence " ++ Text.numeral e.sequence ++ ": " ++ e.fault.message

end ChainError

namespace Chain

/-- What is wrong with a record at a place of a chain, if something is. -/
def fault? (index : Nat) (prevHash : String) (r : AuditRecord) : Option ChainFault :=
  if r.sequence ≠ Text.word index then some (.sequence (Text.word index))
  else if r.prevHash ≠ prevHash then some .prevHash
  else if r.selfHash ≠ r.expectedHash then some .selfHash
  else none

/-- Checks the part of a chain that begins at an index, behind a record with some hash. -/
def verifyFrom (index : Nat) (prevHash : String) : List AuditRecord → Except ChainError Unit
  | [] => .ok ()
  | r :: rs =>
    match fault? index prevHash r with
    | some fault => .error ⟨r.sequence, fault⟩
    | none => verifyFrom (index + 1) r.selfHash rs

/-- Checks a chain. -/
def verify (rs : List AuditRecord) : Except ChainError Unit :=
  verifyFrom 0 genesisHash rs

/-- Whether some records are a chain. -/
def isValid (rs : List AuditRecord) : Bool :=
  (verify rs).isOk

end Chain

end RitualGate
