import Mathlib.Data.List.Basic
import Mathlib.Data.List.Induction
import RitualGate.Proofs.Chain
import RitualGate.Proofs.Text

/-!
# A hash commits to its chain

What is hashed for a record is four texts without anything between them. Nevertheless the fields of
a genuine record can be told apart in it (`fields_of_hashed`): the hash of the predecessor has a
fixed length, and the name of an outcome has a character that neither a digest nor a time nor the
other name has. So whoever changes a field that the hash covers, and still has a chain with the same
last hash, has found two messages with the same digest (`tamper_evident`).
-/

namespace RitualGate

/-! ## The characters of genuine fields -/

/-- The digits of a digest. -/
def hexDigits : List Char := "0123456789abcdef".toList

/-- The characters of a time. -/
def stampChars : List Char := "0123456789-:T.Z".toList

theorem Sha256.mem_hexDigits {message : Bytes} {c : Char} (h : c ∈ (Sha256.hex message).toList) :
    c ∈ hexDigits := by
  have digit : ∀ n < 16, Sha256.hexDigit n ∈ hexDigits := by decide
  have word {w : UInt32} (h : c ∈ Sha256.hexWord w) : c ∈ hexDigits := by
    obtain ⟨shift, -, rfl⟩ := List.mem_map.1 h
    refine digit _ ?_
    have hle : ((w >>> shift) &&& 15).toNat ≤ 15 := by
      rw [UInt32.toNat_and]
      exact Nat.and_le_right
    omega
  rw [Sha256.hex, String.toList_ofList] at h
  simp only [Sha256.State.hexChars, List.mem_append] at h
  rcases h with ((((((h | h) | h) | h) | h) | h) | h) | h <;> exact word h

theorem Instant.mem_padded {width n : Nat} {c : Char} (h : c ∈ Instant.padded width n) :
    c ∈ stampChars := by
  have digit : ∀ n < 10, Nat.digitChar n ∈ stampChars := by decide
  induction width generalizing n with
  | zero => cases h
  | succ width ih =>
    rcases List.mem_append.1 h with h | h
    · exact ih h
    · obtain rfl := List.mem_singleton.1 h
      exact digit _ (Nat.mod_lt n (by decide))

theorem Instant.mem_stamp (t : Instant) : ∀ c ∈ t.stamp.toList, c ∈ stampChars := by
  have number (width n : Nat) : ∀ c ∈ Instant.padded width n, c ∈ stampChars :=
    fun _ h => Instant.mem_padded h
  have marks : '-' ∈ stampChars ∧ ':' ∈ stampChars ∧ 'T' ∈ stampChars ∧ '.' ∈ stampChars ∧
      'Z' ∈ stampChars := by decide
  simp only [Instant.stamp, Instant.secondChars, String.toList_ofList, List.forall_mem_append,
    List.forall_mem_cons, List.append_assoc, List.cons_append]
  simp only [marks, List.not_mem_nil, IsEmpty.forall_iff, implies_true, true_and, and_true]
  exact ⟨number _ _, number _ _, number _ _, number _ _, number _ _, number _ _, number _ _⟩

/-! ## The fields in what is hashed -/

namespace Outcome

/-- The character of the name that tells an outcome. -/
def mark : Outcome → Char
  | completed => 'm'
  | failed => 'i'

/-- The name up to its mark. -/
def front : Outcome → List Char
  | completed => "co".toList
  | failed => "fa".toList

/-- The name behind its mark. -/
def back : Outcome → List Char
  | completed => "pleted".toList
  | failed => "led".toList

theorem toList_name (o : Outcome) : o.name.toList = o.front ++ o.mark :: o.back := by
  cases o <;> rfl

theorem mark_injective {o p : Outcome} (h : o.mark = p.mark) : o = p := by
  cases o <;> cases p <;> first | rfl | cases h

theorem mark_notMem (o p : Outcome) :
    o.mark ∉ p.front ∧ o.mark ∉ p.back ∧ o.mark ∉ hexDigits ∧ o.mark ∉ stampChars := by
  cases o <;> cases p <;> decide

end Outcome

/-- A digest, an outcome and a time can be told apart where they follow each other, whatever the
other texts are. -/
theorem parts_of_text {d d' t t' : List Char} {o o' : Outcome} (hd : ∀ c ∈ d, c ∈ hexDigits)
    (ht : ∀ c ∈ t, c ∈ stampChars) (h : d ++ o.name.toList ++ t = d' ++ o'.name.toList ++ t') :
    d = d' ∧ o = o' ∧ t = t' := by
  obtain ⟨hfront, hback, hhex, hstamp⟩ := o'.mark_notMem o
  have notFront : o'.mark ∉ d ++ o.front := by
    rw [List.mem_append, not_or]
    exact ⟨fun hc => hhex (hd _ hc), hfront⟩
  have notBack : o'.mark ∉ o.back ++ t := by
    rw [List.mem_append, not_or]
    exact ⟨hback, fun hc => hstamp (ht _ hc)⟩
  rw [o.toList_name, o'.toList_name] at h
  have h : (d ++ o.front) ++ o.mark :: (o.back ++ t) =
      (d' ++ o'.front) ++ o'.mark :: (o'.back ++ t') := by simpa using h
  -- the mark stands once in a genuine text, so both texts are cut at the same place
  obtain ⟨hleft, hmark, hright⟩ := (List.append_cons_inj_of_notMem notFront notBack).1 h
  obtain rfl := Outcome.mark_injective hmark
  exact ⟨List.append_cancel_right hleft, rfl, List.append_cancel_left hright⟩

namespace AuditRecord

/-- The message that is hashed for a record. -/
def hashed (r : AuditRecord) : Bytes :=
  Text.encode (r.prevHash ++ r.statementDigest ++ r.outcome.name ++ r.timestamp)

theorem expectedHash_eq (r : AuditRecord) : r.expectedHash = Sha256.hex r.hashed := rfl

/-- A record whose digest and time have the characters that digests and times have. -/
structure Genuine (r : AuditRecord) : Prop where
  digest : ∀ c ∈ r.statementDigest.toList, c ∈ hexDigits
  time : ∀ c ∈ r.timestamp.toList, c ∈ stampChars

/-- The fields of a genuine record can be told from what is hashed for it. -/
theorem fields_of_hashed {r r' : AuditRecord} (hr : r.Genuine)
    (hlength : r.prevHash.length = r'.prevHash.length) (h : r.hashed = r'.hashed) :
    r.prevHash = r'.prevHash ∧ r.statementDigest = r'.statementDigest ∧ r.outcome = r'.outcome ∧
      r.timestamp = r'.timestamp := by
  have htext := congrArg String.toList (Text.encode_injective h)
  simp only [String.toList_append, List.append_assoc] at htext
  have hlists : r.prevHash.toList.length = r'.prevHash.toList.length := by
    rw [String.length_toList, String.length_toList, hlength]
  obtain ⟨hprev, hrest⟩ := List.append_inj htext hlists
  obtain ⟨hdigest, houtcome, htime⟩ := parts_of_text hr.digest hr.time (by simpa using hrest)
  exact ⟨String.toList_injective hprev, String.toList_injective hdigest, houtcome,
    String.toList_injective htime⟩

/-- The fields that the hash of a record covers, its number and the hash. -/
def covered (r : AuditRecord) : Nat × String × String × Outcome × String × String :=
  (r.sequence, r.prevHash, r.statementDigest, r.outcome, r.timestamp, r.selfHash)

end AuditRecord

namespace Chain

/-! ## Two chains with the same last hash -/

/-- Two different messages with the same digest, one hashed for a record of each list. -/
def Collision (rs rs' : List AuditRecord) : Prop :=
  ∃ r ∈ rs, ∃ r' ∈ rs', r.hashed ≠ r'.hashed ∧ Sha256.hex r.hashed = Sha256.hex r'.hashed

theorem Collision.concat {rs rs' : List AuditRecord} (h : Collision rs rs') (r r' : AuditRecord) :
    Collision (rs ++ [r]) (rs' ++ [r']) := by
  obtain ⟨q, hq, q', hq', hne, heq⟩ := h
  exact ⟨q, List.mem_append_left _ hq, q', List.mem_append_left _ hq', hne, heq⟩

theorem length_genesisHash : genesisHash.length = 64 := by
  unfold genesisHash
  rw [String.length_ofList]
  exact List.length_replicate

theorem length_headOf {rs : List AuditRecord} (h : verify rs = .ok ()) :
    (headOf rs).length = 64 := by
  rcases List.eq_nil_or_concat' rs with rfl | ⟨rs, r, rfl⟩
  · exact length_genesisHash
  · obtain ⟨-, hfits⟩ := verify_concat_iff.1 h
    rw [headOf_concat, hfits.selfHash, AuditRecord.expectedHash_eq, Sha256.length_hex]

/-- A record whose hash is that of a genuine one, at the same place, is the same as far as the hash
goes. -/
theorem covered_of_fits {index : Nat} {prev prev' : String} {r r' : AuditRecord} (hg : r.Genuine)
    (hr : Fits index prev r) (hr' : Fits index prev' r') (hlength : prev.length = prev'.length)
    (hhash : r.selfHash = r'.selfHash) (hmessage : r.hashed = r'.hashed) :
    prev = prev' ∧ r.covered = r'.covered := by
  have hprevs : r.prevHash.length = r'.prevHash.length := by rw [hr.prevHash, hr'.prevHash, hlength]
  obtain ⟨hprev, hdigest, houtcome, htime⟩ := AuditRecord.fields_of_hashed hg hprevs hmessage
  refine ⟨by rw [← hr.prevHash, hprev, hr'.prevHash], ?_⟩
  rw [AuditRecord.covered, AuditRecord.covered, hr.sequence, hr'.sequence, hprev, hdigest, houtcome,
    htime, hhash]

/-- Chains of the same length with the same last hash are the same as far as their hashes go, unless
two messages collide. The proof goes from the last record to the first. -/
theorem covered_eq_or_collision {rs rs' : List AuditRecord} (hg : ∀ r ∈ rs, r.Genuine)
    (hv : verify rs = .ok ()) (hv' : verify rs' = .ok ()) (hlength : rs'.length = rs.length)
    (hhead : headOf rs = headOf rs') :
    rs.map AuditRecord.covered = rs'.map AuditRecord.covered ∨ Collision rs rs' := by
  induction rs using List.reverseRecOn generalizing rs' with
  | nil =>
    obtain rfl := List.eq_nil_of_length_eq_zero hlength
    exact .inl rfl
  | append_singleton rs r ih =>
    rcases List.eq_nil_or_concat' rs' with rfl | ⟨rs', r', rfl⟩
    · simp at hlength
    · have hlength : rs'.length = rs.length := by simpa using hlength
      obtain ⟨hv, hfits⟩ := verify_concat_iff.1 hv
      obtain ⟨hv', hfits'⟩ := verify_concat_iff.1 hv'
      rw [headOf_concat, headOf_concat] at hhead
      rw [hlength] at hfits'
      -- the last hashes are equal: either they are hashes of one message, or two messages collide
      by_cases hmessage : r.hashed = r'.hashed
      · have hheads : (headOf rs).length = (headOf rs').length := by
          rw [length_headOf hv, length_headOf hv']
        obtain ⟨hprev, hcovered⟩ :=
          covered_of_fits (hg r (by simp)) hfits hfits' hheads hhead hmessage
        rcases ih (fun q hq => hg q (List.mem_append_left _ hq)) hv hv' hlength hprev with h | h
        · left
          rw [List.map_append, List.map_append, h, List.map_singleton, List.map_singleton, hcovered]
        · exact .inr (h.concat r r')
      · right
        refine ⟨r, by simp, r', by simp, hmessage, ?_⟩
        rw [← AuditRecord.expectedHash_eq, ← AuditRecord.expectedHash_eq, ← hfits.selfHash,
          ← hfits'.selfHash, hhead]

end Chain

namespace Trail

/-! ## Trails that have grown from nothing -/

/-- A trail that began empty and to which records were added, at whatever times. -/
inductive Grown : Trail → Prop
  | empty : Grown .empty
  | append {t : Trail} (h : Grown t) (st : Statement) (o : Outcome) (d : OutcomeDetail)
      (w : World) :
    Grown (StateT.run (t.append st o d : StateM World _) w).1.2

theorem genuine_next (t : Trail) (st : Statement) (o : Outcome) (d : OutcomeDetail)
    (now : Instant) : (t.next st o d now).Genuine where
  digest _ hc := Sha256.mem_hexDigits hc
  time := now.mem_stamp

theorem Grown.genuine_chain {t : Trail} (h : t.Grown) :
    (∀ r ∈ t.records, r.Genuine) ∧ Chain.verify t.records = .ok () := by
  induction h with
  | empty => exact ⟨nofun, rfl⟩
  | @append t _ st o d w ih =>
    obtain ⟨now, written, w', hrun⟩ := t.append_run st o d w
    rw [hrun]
    refine ⟨fun r hr => ?_, verify_push ih.2 st o d now written⟩
    rw [push_records] at hr
    rcases List.mem_append.1 hr with hr | hr
    · exact ih.1 r hr
    · obtain rfl := List.mem_singleton.1 hr
      exact t.genuine_next st o d now

/-- Whatever else is a chain of the same length with the same last hash has the same records, as far
as their hashes go, or two messages that were hashed for them collide. -/
theorem tamper_evident {t : Trail} (ht : t.Grown) {rs : List AuditRecord}
    (hlength : rs.length = t.records.length) (hchain : Chain.verify rs = .ok ())
    (hlast : rs.getLast?.map AuditRecord.selfHash = t.records.getLast?.map AuditRecord.selfHash) :
    t.records.map AuditRecord.covered = rs.map AuditRecord.covered ∨
      Chain.Collision t.records rs := by
  obtain ⟨hgenuine, hverify⟩ := ht.genuine_chain
  have hhead : Chain.headOf t.records = Chain.headOf rs := by
    rw [Chain.headOf, Chain.headOf, hlast]
  exact Chain.covered_eq_or_collision hgenuine hverify hchain hlength hhead

/-- Two records, each under another keyword and with another detail. -/
theorem tamper_evident_keyword :
    let st : Statement :=
      { family := .ritual, verb := .complete, subject := "", intent := some .general
        args := .empty, anchors := .empty, voice := none, bandwidth := none, cards := [] }
    let w : World := ⟨.empty, [], [], fun n => ⟨n⟩, 0, fun _ => none, 0, fun _ _ => false⟩
    let first := StateT.run (Trail.empty.append st .completed .empty : StateM World _) w
    let second := StateT.run (first.1.2.append st .failed .empty : StateM World _) first.2
    let t := second.1.2
    let forge (r : AuditRecord) : AuditRecord :=
      { r with keyword := "ritual.fail", detail := ⟨none, some "forged", none, true⟩ }
    let forged := [forge first.1.1, forge second.1.1]
    t.Grown ∧ t.records.length = 2 ∧ Chain.verify forged = .ok () ∧
      (t.records.map AuditRecord.covered = forged.map AuditRecord.covered ∨
        Chain.Collision t.records forged) := by
  intro st w first second t forge forged
  have ht : t.Grown := (Grown.empty.append st .completed .empty w).append st .failed .empty first.2
  have hfirst : Chain.Fits 0 genesisHash (forge first.1.1) := ⟨rfl, rfl, rfl⟩
  have hsecond : Chain.Fits 1 (forge first.1.1).selfHash (forge second.1.1) := ⟨rfl, rfl, rfl⟩
  have hchain : Chain.verify forged = .ok () :=
    Chain.verifyFrom_cons_iff.2 ⟨hfirst, Chain.verifyFrom_cons_iff.2 ⟨hsecond, rfl⟩⟩
  have hlength : forged.length = t.records.length := rfl
  have hlast : forged.getLast?.map AuditRecord.selfHash =
      t.records.getLast?.map AuditRecord.selfHash := rfl
  exact ⟨ht, rfl, hchain, tamper_evident ht hlength hchain hlast⟩

end Trail

end RitualGate
