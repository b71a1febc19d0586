import Mathlib.Data.List.Induction
import RitualGate.Proofs.Chain

/-!
# The verdict on a chain

`Chain.verify` accepts a list exactly if every record fits at its index (`verify_eq_ok_iff`), and
otherwise reports the first record that does not, by the first of the three checks that it fails
(`verify_eq_error_iff`). The loop carries the hash of the record that it has just passed, so it is
taken apart at any place by `verify_append`, with `headOf` as the hash that is carried there. What
stands behind the first break, and the fields that no check reads, have no say (`verify_exact`).
-/

namespace RitualGate

namespace Chain

/-! ## Places in a list -/

/-- The hash that the record at an index has to hold for its predecessor: that of the record before
it, and at the start the hash of zeros. -/
def linkAt (rs : List AuditRecord) : Nat → String
  | 0 => genesisHash
  | i + 1 => (rs[i]?.map AuditRecord.selfHash).getD genesisHash

theorem linkAt_congr {rs rs' : List AuditRecord} {i : Nat} (h : ∀ j < i, rs'[j]? = rs[j]?) :
    linkAt rs' i = linkAt rs i := by
  cases i with
  | zero => rfl
  | succ i => rw [linkAt, linkAt, h i (Nat.lt_succ_self i)]

theorem headOf_take {rs : List AuditRecord} {i : Nat} (h : i ≤ rs.length) :
    headOf (rs.take i) = linkAt rs i := by
  cases i with
  | zero => rfl
  | succ i =>
    rw [List.take_succ_eq_append_getElem h, headOf_concat, linkAt, List.getElem?_eq_getElem h]
    rfl

/-- The record `r` passes every check at the index `i` of a list. -/
def FitsAt (rs : List AuditRecord) (i : Nat) (r : AuditRecord) : Prop :=
  Fits i (linkAt rs i) r

theorem FitsAt.congr {rs rs' : List AuditRecord} {i : Nat} {r : AuditRecord} (h : FitsAt rs i r)
    (hsame : ∀ j < i, rs'[j]? = rs[j]?) : FitsAt rs' i r := by
  rw [FitsAt, linkAt_congr hsame]
  exact h

/-- `Breaks i prevHash r f`: at the index `i`, behind a record with the hash `prevHash`, the record
`r` fails a check, and `f` is the first that it fails. -/
inductive Breaks (i : Nat) (prevHash : String) (r : AuditRecord) : ChainFault → Prop
  | sequence (h : r.sequence ≠ Text.word i) : Breaks i prevHash r (.sequence (Text.word i))
  | prevHash (hs : r.sequence = Text.word i) (h : r.prevHash ≠ prevHash) :
    Breaks i prevHash r .prevHash
  | selfHash (hs : r.sequence = Text.word i) (hp : r.prevHash = prevHash)
      (h : r.selfHash ≠ r.expectedHash) : Breaks i prevHash r .selfHash

theorem fault?_eq_some_iff {i : Nat} {prevHash : String} {r : AuditRecord} {f : ChainFault} :
    fault? i prevHash r = some f ↔ Breaks i prevHash r f := by
  unfold fault?
  constructor
  · intro h
    split at h
    · rename_i hs
      cases h
      exact .sequence hs
    · rename_i hs
      split at h
      · rename_i hp
        cases h
        exact .prevHash (Decidable.not_not.1 hs) hp
      · rename_i hp
        split at h
        · rename_i hh
          cases h
          exact .selfHash (Decidable.not_not.1 hs) (Decidable.not_not.1 hp) hh
        · cases h
  · rintro (hs | ⟨hs, hp⟩ | ⟨hs, hp, hh⟩)
    · rw [if_pos hs]
    · rw [if_neg (not_not_intro hs), if_pos hp]
    · rw [if_neg (not_not_intro hs), if_neg (not_not_intro hp), if_pos hh]

/-- `FirstBreak rs i e`: the record at the index `i` is the first of the list that fails a check,
and `e` reports it. -/
structure FirstBreak (rs : List AuditRecord) (i : Nat) (e : ChainError) : Prop where
  earlier : ∀ j < i, ∀ q, rs[j]? = some q → FitsAt rs j q
  broken : ∃ r, rs[i]? = some r ∧ e.sequence = r.sequence ∧ Breaks i (linkAt rs i) r e.fault

theorem FirstBreak.congr {rs rs' : List AuditRecord} {i : Nat} {e : ChainError}
    (h : FirstBreak rs i e) (hsame : ∀ j ≤ i, rs'[j]? = rs[j]?) : FirstBreak rs' i e := by
  obtain ⟨r, hr, hsequence, hbreaks⟩ := h.broken
  refine ⟨fun j hj q hq => ?_, r, ?_, hsequence, ?_⟩
  · rw [hsame j (Nat.le_of_lt hj)] at hq
    exact (h.earlier j hj q hq).congr fun k hk => hsame k (by omega)
  · rw [hsame i (Nat.le_refl i), hr]
  · rw [linkAt_congr fun j hj => hsame j (Nat.le_of_lt hj)]
    exact hbreaks

/-! ## The loop -/

theorem verify_take {rs : List AuditRecord} (h : verify rs = .ok ()) (n : Nat) :
    verify (rs.take n) = .ok () := by
  rw [← List.take_append_drop n rs, verify_append] at h
  cases hfront : verify (rs.take n) with
  | ok _ => rfl
  | error e =>
    rw [hfront] at h
    cases h

theorem getElem?_concat_iff {α : Type} {l : List α} {a b : α} {i : Nat} :
    (l ++ [a])[i]? = some b ↔ l[i]? = some b ∨ i = l.length ∧ b = a := by
  rcases Nat.lt_trichotomy i l.length with hi | rfl | hi
  · rw [List.getElem?_append_left hi]
    simp [Nat.ne_of_lt hi]
  · simp [eq_comm]
  · rw [List.getElem?_eq_none (by simp; omega), List.getElem?_eq_none (Nat.le_of_lt hi)]
    simp [Nat.ne_of_gt hi]

/-- A list is a chain if every record fits at its index. -/
theorem verify_eq_ok_iff {rs : List AuditRecord} :
    verify rs = .ok () ↔ ∀ i r, rs[i]? = some r → FitsAt rs i r := by
  induction rs using List.reverseRecOn with
  | nil => simp [verify, verifyFrom]
  | append_singleton rs r ih =>
    have hfits {i : Nat} (hi : i ≤ rs.length) (q : AuditRecord) :
        FitsAt (rs ++ [r]) i q ↔ FitsAt rs i q := by
      rw [FitsAt, FitsAt, linkAt_congr]
      exact fun j hj => List.getElem?_append_left (by omega)
    have hlast : Fits rs.length (headOf rs) r ↔ FitsAt (rs ++ [r]) rs.length r := by
      rw [hfits (Nat.le_refl _), FitsAt, ← headOf_take (Nat.le_refl _), List.take_length]
    rw [verify_concat_iff, ih, hlast]
    constructor
    · rintro ⟨hall, hr⟩ i q hq
      rcases getElem?_concat_iff.1 hq with hq | ⟨rfl, rfl⟩
      · exact (hfits (Nat.le_of_lt (List.getElem?_eq_some_iff.1 hq).1) q).2 (hall i q hq)
      · exact hr
    · intro hall
      refine ⟨fun i q hq => ?_, hall _ _ (getElem?_concat_iff.2 (.inr ⟨rfl, rfl⟩))⟩
      rw [← hfits (Nat.le_of_lt (List.getElem?_eq_some_iff.1 hq).1)]
      exact hall i q (getElem?_concat_iff.2 (.inl hq))

theorem verify_of_firstBreak {rs : List AuditRecord} {i : Nat} {e : ChainError}
    (h : FirstBreak rs i e) : verify rs = .error e := by
  obtain ⟨r, hr, hsequence, hbreaks⟩ := h.broken
  obtain ⟨hi, rfl⟩ := List.getElem?_eq_some_iff.1 hr
  have hfront : verify (rs.take i) = .ok () := by
    refine verify_eq_ok_iff.2 fun j q hq => ?_
    have hj : j < i := by
      have := (List.getElem?_eq_some_iff.1 hq).1
      rw [List.length_take] at this
      omega
    rw [List.getElem?_take_of_lt hj] at hq
    exact (h.earlier j hj q hq).congr fun k hk => List.getElem?_take_of_lt (by omega)
  rw [← headOf_take (Nat.le_of_lt hi), ← fault?_eq_some_iff] at hbreaks
  calc verify rs
      = verify (rs.take i ++ rs[i] :: rs.drop (i + 1)) := by
        rw [← List.drop_eq_getElem_cons hi, List.take_append_drop]
    _ = verifyFrom i (headOf (rs.take i)) (rs[i] :: rs.drop (i + 1)) := by
        rw [verify_append, hfront, List.length_take_of_le (Nat.le_of_lt hi)]
        rfl
    _ = .error e := by
        rw [verifyFrom, hbreaks, ← hsequence]

/-- A list is refused at the first record that fails a check. -/
theorem verify_eq_error_iff {rs : List AuditRecord} {e : ChainError} :
    verify rs = .error e ↔ ∃ i, FirstBreak rs i e := by
  refine ⟨fun h => ?_, fun ⟨i, h⟩ => verify_of_firstBreak h⟩
  induction rs using List.reverseRecOn with
  | nil => cases h
  | append_singleton rs r ih =>
    have hsame {i : Nat} (hi : i < rs.length) : ∀ j ≤ i, (rs ++ [r])[j]? = rs[j]? :=
      fun j hj => List.getElem?_append_left (by omega)
    rw [verify_append] at h
    cases hrs : verify rs with
    | error e' =>
      rw [hrs] at h
      cases h
      obtain ⟨i, hbreak⟩ := ih hrs
      obtain ⟨q, hq, -⟩ := hbreak.broken
      exact ⟨i, hbreak.congr (hsame (List.getElem?_eq_some_iff.1 hq).1)⟩
    | ok _ =>
      -- all of them fit, so it is the record behind them that does not
      rw [hrs] at h
      have h : verifyFrom rs.length (headOf rs) [r] = .error e := h
      rw [verifyFrom] at h
      cases hfault : fault? rs.length (headOf rs) r with
      | none =>
        rw [hfault] at h
        cases h
      | some f =>
        rw [hfault] at h
        cases h
        have hlink : headOf rs = linkAt (rs ++ [r]) rs.length := by
          rw [linkAt_congr fun j hj => hsame hj j (Nat.le_refl j), ← headOf_take (Nat.le_refl _),
            List.take_length]
        refine ⟨rs.length, fun j hj q hq => ?_, r, List.getElem?_concat_length, rfl, ?_⟩
        · rw [hsame hj j (Nat.le_refl j)] at hq
          exact (verify_eq_ok_iff.1 hrs j q hq).congr fun k hk => hsame hj k (Nat.le_of_lt hk)
        · rw [← hlink]
          exact fault?_eq_some_iff.1 hfault

/-! ## What has no say -/

/-- `Relabels r r'`: the record `r'` is `r` with another keyword and another detail. -/
def Relabels (r r' : AuditRecord) : Prop :=
  ∃ keyword detail, r' = { r with keyword, detail }

theorem verifyFrom_relabel {rs rs' : List AuditRecord} (h : List.Forall₂ Relabels rs rs')
    (index : Nat) (prevHash : String) :
    verifyFrom index prevHash rs' = verifyFrom index prevHash rs := by
  induction h generalizing index prevHash with
  | nil => rfl
  | @cons r r' rs rs' hr _ ih =>
    obtain ⟨keyword, detail, rfl⟩ := hr
    have hfault : fault? index prevHash { r with keyword, detail } = fault? index prevHash r := rfl
    rw [verifyFrom, verifyFrom, hfault]
    cases fault? index prevHash r with
    | none => exact ih _ _
    | some f => rfl

/-- A list is accepted exactly if every record has its index for its number, the hash of the record
before it, and the hash of its own fields; otherwise the report names the first record that has not,
and the first of the three that it lacks. Indices are machine words, which for a list that has no
more records than there are words are the indices themselves. -/
theorem verify_exact (rs : List AuditRecord) :
    (verify rs = .ok () ↔ ∀ i r, rs[i]? = some r → FitsAt rs i r) ∧
    (∀ e, verify rs = .error e ↔ ∃ i, FirstBreak rs i e) ∧
    (rs.length ≤ Text.wordMax + 1 → ∀ i < rs.length, Text.word i = i) ∧
    (verify rs = .ok () → ∀ n, verify (rs.take n) = .ok ()) ∧
    (∀ i e, FirstBreak rs i e → ∀ rs', (∀ j ≤ i, rs'[j]? = rs[j]?) → verify rs' = verify rs) ∧
    ∀ rs', List.Forall₂ Relabels rs rs' → verify rs' = verify rs := by
  refine ⟨verify_eq_ok_iff, fun e => verify_eq_error_iff, fun hlength i hi => ?_, verify_take,
    fun i e h rs' hsame => ?_, fun rs' h => verifyFrom_relabel h 0 genesisHash⟩
  · exact Nat.mod_eq_of_lt (Nat.lt_of_lt_of_le hi hlength)
  · rw [verify_of_firstBreak h, verify_of_firstBreak (h.congr hsame)]

/-- The second of three records has a hash that nothing has: the first is a chain, and neither
another third record nor another keyword changes the verdict. -/
theorem verify_exact_forged :
    let st : Statement :=
      { family := .ritual, verb := .complete, subject := "", intent := some .general
        args := .empty, anchors := .empty, voice := none, bandwidth := none, cards := [] }
    let first := Trail.empty.next st .completed .empty ⟨0⟩
    let second := (Trail.empty.push first (.ok ())).next st .failed .empty ⟨1⟩
    let forged : AuditRecord := { second with selfHash := "forged" }
    let relabeled : AuditRecord := { first with keyword := "ritual.fail" }
    verify [first, second] = .ok () ∧ verify ([first, second].take 1) = .ok () ∧
      verify [first, forged, first] = .error ⟨1, .selfHash⟩ ∧
      verify [first, forged, second] = .error ⟨1, .selfHash⟩ ∧
      verify [relabeled, forged, first] = .error ⟨1, .selfHash⟩ := by
  intro st first second forged relabeled
  have hchain : verify [first, second] = .ok () :=
    verifyFrom_cons_iff.2 ⟨⟨rfl, rfl, rfl⟩, verifyFrom_cons_iff.2 ⟨⟨rfl, rfl, rfl⟩, rfl⟩⟩
  obtain ⟨-, -, -, htake, -, -⟩ := verify_exact [first, second]
  have hbroken : forged.selfHash ≠ forged.expectedHash := by
    intro h
    have hlength : "forged".length = 64 := by
      rw [show "forged" = forged.expectedHash from h]
      exact Sha256.length_hex _
    exact absurd hlength (by decide)
  have hbreak : FirstBreak [first, forged, first] 1 ⟨1, .selfHash⟩ := by
    refine ⟨fun j hj q hq => ?_, forged, rfl, rfl, .selfHash rfl rfl hbroken⟩
    obtain rfl : j = 0 := by omega
    cases hq
    exact ⟨rfl, rfl, rfl⟩
  obtain ⟨-, herror, -, -, hbehind, hlabels⟩ := verify_exact [first, forged, first]
  have hverdict := (herror _).2 ⟨1, hbreak⟩
  refine ⟨hchain, htake hchain 1, hverdict, ?_, ?_⟩
  · rw [hbehind 1 _ hbreak _ fun j hj => ?_, hverdict]
    obtain rfl | rfl : j = 0 ∨ j = 1 := by omega
    · rfl
    · rfl
  · rw [hlabels _ (.cons ⟨_, _, rfl⟩ (.cons ⟨_, _, rfl⟩ (.cons ⟨_, _, rfl⟩ .nil))), hverdict]

end Chain

end RitualGate
