import RitualGate.Proofs.ArchiveUse
import RitualGate.Proofs.StatementData

/-!
# Archives in files that are there already

An archive may be opened on any file, and on a device. What opening can do is said once
(`filedAt_of_openFile`): the archive is then in the current version, its table can be written down
(`Store.Sound`), and its path leads to a file that holds it (`Store.FiledAt`). Such an archive is
opened again without a change (`FiledAt.openFile`).

An archive begins with a banner, which begins no JSON, so settings are no archive and an archive is
no log (`decode_settings`, `Log.parse_archive`).
-/

namespace RitualGate

open Data (Value)
open Session (bind_run)

/-! ## Tables that were read -/

namespace Data

variable {α β : Type} {m : Members}

theorem Decode.le_of_nat {limit n : Nat} {v : Value} (h : Decode.nat limit v = .ok n) :
    n ≤ limit := by
  unfold Decode.nat at h
  split at h
  · split at h
    · cases h
      assumption
    · cases h
  · split at h
    · split at h
      · cases h
        assumption
      · cases h
    · cases h
  · cases h

theorem Decode.between_of_int {least greatest n : Int} {v : Value}
    (h : Decode.int least greatest v = .ok n) : least ≤ n ∧ n ≤ greatest := by
  unfold Decode.int at h
  split at h
  · split at h
    · cases h
      assumption
    · cases h
  · cases h

/-- Every item of a list was read from something. -/
theorem Decode.exists_of_list {d : Decoder α} {v : Value} {as : List α}
    (h : Decode.list d v = .ok as) : ∀ a ∈ as, ∃ u, d u = .ok a := by
  unfold Decode.list at h
  split at h
  · intro a ha
    obtain ⟨i, hi, rfl⟩ := List.mem_iff_getElem.1 ha
    obtain ⟨hlength, hall⟩ := List.forall₂_iff_get.1 (Decode.each_eq_ok_iff.1 h)
    exact ⟨_, hall i (hlength ▸ hi) hi⟩
  · cases h

theorem Fields.seq_eq_ok_iff {f : Fields (α → β)} {x : Fields α} {b : β} :
    f.seq x m = .ok b ↔ ∃ g a, f m = .ok g ∧ x m = .ok a ∧ g a = b := by
  unfold Fields.seq
  cases f m <;> cases x m <;> simp

theorem Fields.exists_of_required {name : String} {d : Decoder α} {a : α}
    (h : Fields.required name d m = .ok a) : ∃ v, d v = .ok a := by
  unfold Fields.required Fields.withDefault at h
  split at h
  · split at h
    · cases h
      exact ⟨_, ‹_›⟩
    · cases h
  · cases h

theorem Fields.exists_of_optional {name : String} {d : Decoder α} {a : α}
    (h : Fields.optional name d m = .ok (some a)) : ∃ v, d v = .ok a := by
  unfold Fields.optional Fields.withDefault Decode.option at h
  split at h
  · split at h
    · rename_i v _ _ _ hb
      split at hb
      · cases hb
        cases h
      · split at hb
        · cases hb
          cases h
          exact ⟨v, ‹_›⟩
        · cases hb
    · cases h
  · cases h

theorem Fields.exists_of_decode {names : List String} {f : Fields α} {v : Value} {a : α}
    (h : Fields.decode names f v = .ok a) : ∃ m, f m = .ok a := by
  unfold Fields.decode at h
  split at h
  · cases h
  · split at h
    · cases h
    · split at h
      · cases h
      · cases h
        exact ⟨_, ‹_›⟩

end Data

open Data Fields in
theorem Row.inRange_of_ofValue {v : Value} {r : Row} (h : ofValue v = .ok r) :
    minNumber ≤ r.number ∧ r.number ≤ maxNumber := by
  obtain ⟨m, h⟩ := exists_of_decode h
  obtain ⟨g, card, hg, -, rfl⟩ := seq_eq_ok_iff.1 h
  obtain ⟨f, number, hf, hnumber, rfl⟩ := seq_eq_ok_iff.1 hg
  cases hf
  obtain ⟨u, hu⟩ := exists_of_required hnumber
  exact Decode.between_of_int hu

open Data Fields in
theorem Table.inRange_of_ofValue {v : Value} {t : Table} (h : ofValue v = .ok t) : t.InRange := by
  obtain ⟨m, h⟩ := exists_of_decode h
  obtain ⟨g, lastNumber, hg, hlast, rfl⟩ := seq_eq_ok_iff.1 h
  obtain ⟨f, rows, hf, hrows, rfl⟩ := seq_eq_ok_iff.1 hg
  cases hf
  obtain ⟨u, hu⟩ := exists_of_required hlast
  obtain ⟨us, hus⟩ := exists_of_required hrows
  refine ⟨fun r hr => ?_, Decode.le_of_nat hu⟩
  obtain ⟨u, hu⟩ := Decode.exists_of_list hus r hr
  exact Row.inRange_of_ofValue hu

namespace Store

/-- A store in the current version whose table can be written down. -/
structure Sound (s : Store) : Prop where
  version : s.version = currentVersion
  inRange : ∀ t, s.table = some t → t.InRange

open Data Fields in
theorem inRange_of_ofValue {v : Value} {s : Store} (h : ofValue v = .ok s) :
    ∀ t, s.table = some t → t.InRange := by
  obtain ⟨m, h⟩ := exists_of_decode h
  obtain ⟨g, table, hg, htable, rfl⟩ := seq_eq_ok_iff.1 h
  obtain ⟨f, version, hf, -, rfl⟩ := seq_eq_ok_iff.1 hg
  cases hf
  intro t ht
  cases ht
  obtain ⟨u, hu⟩ := exists_of_optional htable
  exact Table.inRange_of_ofValue hu

theorem decode_eq_ok {bytes : Bytes} {s : Store} (h : decode bytes = .ok s) :
    bytes = [] ∧ s = fresh ∨ ∃ rest v, Text.decode? bytes = some (banner ++ rest) ∧
      Data.Json.parse? rest = some v ∧ ofValue v = .ok s := by
  unfold decode at h
  split at h
  · rename_i hempty
    cases h
    exact .inl ⟨List.isEmpty_iff.1 hempty, rfl⟩
  right
  split at h
  · cases h
  rename_i rest hrest
  obtain ⟨text, htext, hstrip⟩ := Option.bind_eq_some_iff.1 hrest
  split at h
  · cases h
  rename_i v hv
  split at h
  · rename_i hs
    cases h
    refine ⟨String.ofList rest, v, ?_, hv, hs⟩
    rw [htext, Option.some.injEq, ← String.toList_inj, String.toList_append, String.toList_ofList]
    exact Text.stripHead?_eq_some_iff.1 hstrip
  · cases h

theorem Sound.ne_nil {bytes : Bytes} {s : Store} (h : s.Sound) (hdecode : decode bytes = .ok s) :
    bytes ≠ [] := by
  rintro rfl
  cases hdecode
  exact absurd h.version (by decide)

/-- What was read can be written down. -/
theorem inRange_of_decode {bytes : Bytes} {s : Store} (h : decode bytes = .ok s) :
    ∀ t, s.table = some t → t.InRange := by
  obtain ⟨-, rfl⟩ | ⟨rest, v, -, -, hv⟩ := decode_eq_ok h
  · exact nofun
  · exact inRange_of_ofValue hv

theorem inRange_withTable {s : Store} (h : ∀ t, s.table = some t → t.InRange) (version : Int) :
    ∀ t, (s.withTable version).table = some t → t.InRange := by
  intro t ht
  cases ht
  cases htable : s.table with
  | none => exact ⟨nofun, Nat.zero_le _⟩
  | some t => exact h t htable

/-! ## What is no archive -/

/-- The banner of an archive begins no JSON. -/
theorem parse?_banner (rest : String) : Data.Json.parse? (banner ++ rest) = none := by
  have hread (n : Nat) : Data.Json.readValue (n + 1) (banner ++ rest).toList = none := by
    rw [String.toList_append]
    rfl
  simp only [Data.Json.parse?, hread]

/-- What is JSON is no archive. -/
theorem decode_settings {bytes : Bytes} {text : String} {v : Value} {s : Store}
    (htext : Text.decode? bytes = some text) (hv : Data.Json.parse? text = some v) :
    decode bytes ≠ .ok s := by
  intro h
  obtain ⟨rfl, -⟩ | ⟨rest, -, hrest, -⟩ := decode_eq_ok h
  · obtain rfl : text = "" := (Option.some.inj htext).symm
    cases hv
  · rw [htext] at hrest
    cases hrest
    rw [parse?_banner] at hv
    cases hv

end Store

/-- An archive is no log. -/
theorem Log.parse_archive {bytes : Bytes} {s : Store} (hdecode : Store.decode bytes = .ok s)
    (hne : bytes ≠ []) (rs : List AuditRecord) : Log.parse bytes ≠ .ok rs := by
  intro h
  let title := "memory archive"
  obtain ⟨rest, hrest⟩ : ∃ rest, bytes = Text.encode title ++ 0x0A :: rest := by
    obtain ⟨hempty, -⟩ | ⟨rest, -, htext, -⟩ := Store.decode_eq_ok hdecode
    · exact absurd hempty hne
    have hbanner : Text.encode Store.banner = Text.encode title ++ [0x0A] := by decide +kernel
    rw [Text.eq_encode_of_decode? htext, Text.encode_append, hbanner, List.append_assoc]
    exact ⟨_, rfl⟩
  have hlf : 0x0A ∉ Text.encode title := by decide +kernel
  have hcr : (Text.encode title).getLast? ≠ some 0x0D := by decide +kernel
  rw [hrest, Log.parse, Text.byteLines, Text.splitLines_line hlf hcr, Log.parseLines_cons_iff] at h
  obtain ⟨as, -, ⟨text, htext, hholds⟩, -, -⟩ := h
  rw [Text.decode?_encode, Option.some.injEq] at htext
  subst htext
  obtain ⟨hblank, -⟩ | ⟨-, r, hr, -⟩ := hholds
  · exact absurd hblank (by decide)
  · have hnone : Log.parseRecord? title = none := by decide +kernel
    rw [hnone] at hr
    cases hr

namespace Store

variable {w w' : World} {path : Path} {place : Place} {s : Store}

/-! ## Files -/

/-- A store is what its path leads to. A device keeps nothing, so it stands for an empty store. -/
structure FiledAt (s : Store) (w : World) (path : Path) (place : Place) : Prop where
  openPlace : w.tree.openPlace w.directory path = .ok place
  entry : (∃ bytes, w.tree.entry place = some (.file bytes) ∧ decode bytes = .ok s) ∨
    w.tree.entry place = some (.device .null) ∧ s = .ofCards []

theorem Opening.sound {s₀ : Store} {refuses : Store → Bool} {behind : Store → World}
    (h : Opening s₀ w refuses behind (.ok s) w') (hs₀ : ∀ t, s₀.table = some t → t.InRange) :
    s.Sound := by
  cases h with
  | current hversion => exact ⟨hversion, hs₀⟩
  | migrated => exact ⟨rfl, inRange_withTable hs₀ 2⟩

/-- An archive that was opened in a file can be read from it. -/
theorem Opening.exists_file {s₀ : Store} {refuses : Store → Bool} {content : Bytes}
    (h : Opening s₀ (w.withFile place content) refuses (fun s => w.withFile place s.encode)
      (.ok s) w') (hdecode : decode content = .ok s₀) :
    ∃ bytes, decode bytes = .ok s ∧ w' = w.withFile place bytes := by
  cases h with
  | current => exact ⟨content, hdecode, rfl⟩
  | migrated => exact ⟨_, decode_encode (inRange_withTable (inRange_of_decode hdecode) 2), rfl⟩

/-- An archive that was opened is in its file, in the current version. If there was a file before,
then that was an archive, and nothing else has changed. -/
theorem filedAt_of_openFile (h : StateT.run (openFile path : StateM World _) w = (.ok s, w')) :
    s.Sound ∧ ∃ place t', w' = { w with tree := t' } ∧ s.FiledAt w' path place ∧
      (∀ old, w.tree.entry place = some (.file old) → ∃ s₀, decode old = .ok s₀) ∧
      FileTree.KeepsDirectories w.tree t' ∧ ∀ q, q ≠ place → t'.entry q = w.tree.entry q := by
  obtain ⟨content, s₀, w₁, hload, hdecode⟩ := openFile_eq_ok h
  have hs₀ := inRange_of_decode hdecode
  obtain ⟨place, hopen, hfile | ⟨⟨d, hdevice⟩, rfl, rfl⟩⟩ := load_eq_ok hload
  · have hopening := opening_place hopen hfile hdecode
    rw [h] at hopening
    have hsound := hopening.sound hs₀
    obtain ⟨bytes, hbytes, rfl⟩ := hopening.exists_file hdecode
    have hfileAt := World.fileAt_withFile hopen bytes
    obtain ⟨-, -, -, -, -, hdirectory⟩ := FileTree.openPlace_eq_ok_iff.1 hopen
    refine ⟨hsound, place, _, rfl, ⟨hfileAt.openPlace, .inl ⟨bytes, hfileAt.entry, hbytes⟩⟩, ?_,
      FileTree.keepsDirectories_put hdirectory _, fun q hq => if_neg hq⟩
    intro old hold
    obtain ⟨hnone, -⟩ | hsome := hfile
    · rw [hnone] at hold
      cases hold
    · rw [hsome] at hold
      cases hold
      exact ⟨s₀, hdecode⟩
  · have hopening := opening_openFile hload hdecode (commits_device hopen hdevice)
    rw [h] at hopening
    have hsound := hopening.sound hs₀
    cases hdecode
    -- a device is never in the current version, so the migration was taken by it
    cases hopening with
    | current hversion => cases hversion
    | migrated _ _ hindex =>
      have hnull : d = .null := by
        cases d with
        | null => rfl
        | full => cases hindex
      subst hnull
      refine ⟨hsound, place, w'.tree, rfl, ⟨hopen, .inr ⟨hdevice, rfl⟩⟩, ?_, fun _ => id,
        fun _ _ => rfl⟩
      intro old hold
      rw [hdevice] at hold
      cases hold

/-- An archive that is in its file is opened without a change. -/
theorem FiledAt.openFile (h : s.FiledAt w path place) (hsound : s.Sound) :
    StateT.run (Store.openFile path : StateM World _) w = (.ok s, w) := by
  obtain ⟨hopen, ⟨bytes, hentry, hdecode⟩ | ⟨hdevice, rfl⟩⟩ := h
  · exact openFile_current ⟨hopen, hentry⟩ hdecode hsound.version
  · have hopening := opening_openFile (load_device hopen hdevice) rfl (commits_device hopen hdevice)
    obtain ⟨hanswer, hworld⟩ := hopening.of_fresh fun _ => rfl
    exact Prod.ext hanswer hworld

end Store

end RitualGate
