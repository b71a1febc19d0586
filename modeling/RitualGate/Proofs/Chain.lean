import RitualGate.Audit.Trail
import RitualGate.Host.World

/-!
# Chains from their end

What is put behind a list is checked from the last hash of the list on (`verify_append`). So a list
is a chain if it is one without its last record and the last record follows what stands before it
(`verify_concat_iff`). This is the form in which chains grow, so the next record of a trail keeps
its records a chain (`verify_push`), and the form in which a hash commits to everything before it.
-/

namespace RitualGate

namespace Chain

/-- The hash that a record behind some records holds for its predecessor. -/
def headOf (rs : List AuditRecord) : String :=
  (rs.getLast?.map AuditRecord.selfHash).getD genesisHash

theorem headOf_concat (rs : List AuditRecord) (r : AuditRecord) :
    headOf (rs ++ [r]) = r.selfHash := by
  simp [headOf]

/-- A record that fits at a place of a chain. -/
structure Fits (index : Nat) (prevHash : String) (r : AuditRecord) : Prop where
  sequence : r.sequence = Text.word index
  prevHash : r.prevHash = prevHash
  selfHash : r.selfHash = r.expectedHash

theorem fault?_eq_none_iff {index : Nat} {prevHash : String} {r : AuditRecord} :
    fault? index prevHash r = none ↔ Fits index prevHash r := by
  unfold fault?
  constructor
  · intro h
    split at h
    · cases h
    · split at h
      · cases h
      · split at h
        · cases h
        · exact ⟨by simp_all, by simp_all, by simp_all⟩
  · rintro ⟨hs, hp, hh⟩
    rw [if_neg (by simp [hs]), if_neg (by simp [hp]), if_neg (by simp [hh])]

theorem verifyFrom_cons_iff {index : Nat} {prevHash : String} {r : AuditRecord}
    {rs : List AuditRecord} : verifyFrom index prevHash (r :: rs) = .ok () ↔
      Fits index prevHash r ∧ verifyFrom (index + 1) r.selfHash rs = .ok () := by
  rw [verifyFrom, ← fault?_eq_none_iff]
  cases fault? index prevHash r <;> simp

theorem sequence_le_of_verifyFrom {index : Nat} {prevHash : String} {rs : List AuditRecord}
    (h : verifyFrom index prevHash rs = .ok ()) : ∀ r ∈ rs, r.sequence ≤ Text.wordMax := by
  induction rs generalizing index prevHash with
  | nil => exact List.forall_mem_nil _
  | cons r rs ih =>
    obtain ⟨hfits, hrest⟩ := verifyFrom_cons_iff.1 h
    refine List.forall_mem_cons.2 ⟨?_, ih hrest⟩
    rw [hfits.sequence]
    exact Text.word_le index

theorem verifyFrom_append (index : Nat) (prevHash : String) (rs more : List AuditRecord) :
    verifyFrom index prevHash (rs ++ more) = verifyFrom index prevHash rs >>= fun _ =>
      verifyFrom (index + rs.length) ((rs.getLast?.map AuditRecord.selfHash).getD prevHash)
        more := by
  induction rs generalizing index prevHash with
  | nil => rfl
  | cons r rs ih =>
    have hlast : ((r :: rs).getLast?.map AuditRecord.selfHash).getD prevHash =
        (rs.getLast?.map AuditRecord.selfHash).getD r.selfHash := by
      rw [List.getLast?_cons]
      cases rs.getLast? <;> rfl
    rw [List.cons_append, verifyFrom, verifyFrom, hlast, List.length_cons]
    cases fault? index prevHash r with
    | some f => rfl
    | none =>
      dsimp only
      rw [ih, Nat.add_assoc, Nat.add_comm 1]

/-- The rest of a list is checked behind what comes before it, if that is a chain. -/
theorem verify_append (rs more : List AuditRecord) :
    verify (rs ++ more) = verify rs >>= fun _ => verifyFrom rs.length (headOf rs) more := by
  rw [verify, verifyFrom_append, Nat.zero_add]
  rfl

/-- A chain with one more record is a chain if the record follows the others. -/
theorem verify_concat_iff {rs : List AuditRecord} {r : AuditRecord} :
    verify (rs ++ [r]) = .ok () ↔ verify rs = .ok () ∧ Fits rs.length (headOf rs) r := by
  rw [verify_append]
  cases verify rs with
  | error e => exact ⟨nofun, nofun⟩
  | ok u =>
    exact verifyFrom_cons_iff.trans ⟨fun h => ⟨rfl, h.1⟩, fun h => ⟨h.2, rfl⟩⟩

end Chain

namespace Trail

/-- Writes a record to the log of a trail, if it has one. -/
def writeOut (t : Trail) (r : AuditRecord) : StateM World (Except IoError Unit) :=
  match t.sink with
  | none => return .ok ()
  | some path => writeRecord path r

theorem writeOut_run_detached {t : Trail} (ht : t.sink = none) (r : AuditRecord) (w : World) :
    StateT.run (t.writeOut r) w = (.ok (), w) := by
  simp only [writeOut, ht]
  rfl

theorem append_run_eq (t : Trail) (st : Statement) (o : Outcome) (d : OutcomeDetail) (w : World) :
    StateT.run (t.append st o d : StateM World _) w =
      let r := t.next st o d (w.clock w.ticks)
      let written := StateT.run (t.writeOut r) { w with ticks := w.ticks + 1 }
      ((r, t.push r written.1), written.2) := by
  cases hsink : t.sink <;> simp only [Trail.append, writeOut, hsink] <;> rfl

/-- Adding a record to a trail takes the time that the clock shows, and writes the record or not. -/
theorem append_run (t : Trail) (st : Statement) (o : Outcome) (d : OutcomeDetail) (w : World) :
    ∃ now written w', StateT.run (t.append st o d : StateM World _) w =
      ((t.next st o d now, t.push (t.next st o d now) written), w') :=
  ⟨_, _, _, t.append_run_eq st o d w⟩

theorem push_records (t : Trail) (r : AuditRecord) (written : Except IoError Unit) :
    (t.push r written).records = t.records ++ [r] := by
  unfold push
  split <;> rfl

theorem fits_next (t : Trail) (st : Statement) (o : Outcome) (d : OutcomeDetail) (now : Instant) :
    Chain.Fits t.records.length (Chain.headOf t.records) (t.next st o d now) :=
  ⟨rfl, rfl, rfl⟩

/-- The next record keeps the records of a trail a chain. -/
theorem verify_push {t : Trail} (h : Chain.verify t.records = .ok ()) (st : Statement)
    (o : Outcome) (d : OutcomeDetail) (now : Instant) (written : Except IoError Unit) :
    Chain.verify (t.push (t.next st o d now) written).records = .ok () := by
  rw [push_records, Chain.verify_concat_iff]
  exact ⟨h, t.fits_next st o d now⟩

end Trail

end RitualGate
