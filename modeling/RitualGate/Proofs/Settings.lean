import RitualGate.Proofs.Reopening

/-!
# Settings that are read back

The settings of a project are written as a table of tables. Some of their fields are left out if
they are empty, and most fields have a default, but none of the defaults is ever taken for what was
written: every part of the settings is read back from its data as it was, the empty ones included
(`Config.ofValue_toValue`, `ProjectConfig.ofValue_toValue`), as long as the path of the log is a
text. A cost or a rule that is missing stays missing, since a table that is there has no entries but
its own (`CostTable.ofList_toList`, `AnchorPolicy.ofList_toList`).

`settings_faithful` says so of the file: settings that were written to the path of a project, in
either form of JSON, are what the project is loaded with, unless the path leads to a device.
-/

namespace RitualGate

open Data (Value)
open FileTree (placeOf)

/-! ## Words and tables -/

namespace Data

theorem Decode.word32_nat (n : UInt32) : Decode.word32 (.nat n.toNat) = .ok n := by
  have hle : n.toNat ≤ 4294967295 := Nat.le_of_lt_succ n.toNat_lt
  rw [Decode.word32, Decode.nat_nat hle]
  exact congrArg Except.ok UInt32.ofNat_toNat

theorem Decode.variantKey_text {α : Type} {ofName? : String → Option α} {s : String} {a : α}
    (h : ofName? s = some a) : Decode.variantKey ofName? (.text s) = .ok a := by
  simp only [Decode.variantKey, h]

end Data

/-- Among the keys of a list that have a value, each with it, a key is found with its value. -/
theorem lookup_filterMap_key {α β : Type} [DecidableEq α] (g : α → Option β) (a : α) (as : List α) :
    (as.filterMap fun a => (g a).map fun b => (a, b)).lookup a = if a ∈ as then g a else none := by
  induction as with
  | nil => rfl
  | cons a' as ih =>
    by_cases heq : a = a'
    · subst heq
      cases hg : g a <;> simp [hg, ih]
    · have hne : (a == a') = false := beq_false_of_ne heq
      cases hg : g a' <;> simp [hg, ih, heq, List.lookup_cons, hne]

/-- The same of the list from its end, where the last value of a key counts. -/
theorem lookup_reverse_key {α β : Type} [DecidableEq α] (g : α → Option β) {a : α} {as : List α}
    (ha : a ∈ as) : (as.filterMap fun a => (g a).map fun b => (a, b)).reverse.lookup a = g a := by
  rw [← List.filterMap_reverse, lookup_filterMap_key, if_pos (List.mem_reverse.2 ha)]

/-! ## Costs and rules -/

open Data.Fields in
theorem Capacities.ofValue_toValue (c : Capacities) : ofValue c.toValue = .ok c := by
  obtain ⟨low, medium, high⟩ := c
  refine decode_eq_ok rfl rfl ?_
  refine seq_eq_ok ?_ (withDefault_eq_ok rfl (Data.Decode.word32_nat high))
  refine seq_eq_ok ?_ (withDefault_eq_ok rfl (Data.Decode.word32_nat medium))
  exact seq_eq_ok rfl (withDefault_eq_ok rfl (Data.Decode.word32_nat low))

theorem Capacities.writable_toValue (c : Capacities) : c.toValue.Writable := by
  simp [toValue]

namespace CostTable

theorem ofList_toList (t : CostTable) : ofList t.base t.toList = t := by
  have hofFamily : (ofList t.base t.toList).ofFamily = t.ofFamily := by
    funext f
    have hall : f ∈ Family.all := by cases f <;> decide
    exact lookup_reverse_key t.ofFamily hall
  cases t
  exact congrArg (mk _) hofFamily

open Data.Fields in
theorem ofValue_toValue (t : CostTable) : ofValue t.toValue = .ok t := by
  have hkey (f : Family) : Data.Decode.variantKey Family.ofName? (.text f.name) = .ok f :=
    Data.Decode.variantKey_text f.ofName?_name
  have hcosts := Data.Decode.entries_map hkey Data.Decode.word32_nat t.toList
  have hread : ofValue t.toValue = .ok (ofList t.base t.toList) := by
    refine decode_eq_ok rfl rfl ?_
    refine seq_eq_ok ?_ (withDefault_eq_ok rfl hcosts)
    exact seq_eq_ok rfl (withDefault_eq_ok rfl (Data.Decode.word32_nat t.base))
  rw [hread, ofList_toList]

theorem writable_toValue (t : CostTable) : t.toValue.Writable := by
  simp [toValue, Value.writable_table_map]

end CostTable

open Data.Fields in
theorem BandwidthConfig.ofValue_toValue (b : BandwidthConfig) : ofValue b.toValue = .ok b := by
  obtain ⟨capacities, level, costs⟩ := b
  have hlevel : Level.ofValue (.text level.name) = .ok level := by cases level <;> rfl
  refine decode_eq_ok rfl rfl ?_
  refine seq_eq_ok ?_ (withDefault_eq_ok rfl costs.ofValue_toValue)
  refine seq_eq_ok ?_ (withDefault_eq_ok rfl hlevel)
  exact seq_eq_ok rfl (withDefault_eq_ok rfl capacities.ofValue_toValue)

theorem BandwidthConfig.writable_toValue (b : BandwidthConfig) : b.toValue.Writable := by
  simp [toValue, Capacities.writable_toValue, CostTable.writable_toValue]

namespace AnchorPolicy

theorem ofList_toList (p : AnchorPolicy) : ofList p.toList = p := by
  have hrule : (ofList p.toList).rule = p.rule := by
    funext i
    have hall : i ∈ Intent.all := by cases i <;> decide
    exact lookup_reverse_key p.rule hall
  cases p
  exact congrArg mk hrule

theorem ofValue_toValue (p : AnchorPolicy) : ofValue p.toValue = .ok p := by
  have hkey (i : Intent) : Data.Decode.variantKey Intent.ofName? (.text i.name) = .ok i := by
    cases i <;> rfl
  have hrules : Data.Decode.entries (Data.Decode.variantKey Intent.ofName?) AnchorSet.ofValue
      p.toValue = .ok p.toList := Data.Decode.entries_map hkey AnchorSet.ofValue_toValue p.toList
  rw [ofValue, hrules]
  exact congrArg Except.ok p.ofList_toList

theorem writable_toValue (p : AnchorPolicy) : p.toValue.Writable :=
  Value.writable_table_map (fun _ => Value.writable_texts _) _

end AnchorPolicy

/-! ## Configurations -/

/-- The path of the log is a text, if there is one. -/
def AuditConfig.TextPath (a : AuditConfig) : Prop :=
  ∀ p, a.logPath = some p → Text.IsText p.bytes

theorem AuditConfig.ofValue_toValue {a : AuditConfig} (h : a.TextPath) :
    ofValue a.toValue = .ok a := by
  obtain ⟨digest, logPath⟩ := a
  cases logPath with
  | none => rfl
  | some p =>
    have hpath : Path.ofText p.text = p := congrArg Path.mk (Text.isText_iff.1 (h p rfl))
    have hread : ofValue (toValue ⟨digest, some p⟩) = .ok ⟨digest, some (.ofText p.text)⟩ := rfl
    rw [hread, hpath]

theorem AuditConfig.writable_toValue (a : AuditConfig) : a.toValue.Writable := by
  simp [toValue, Value.writable_table_map]

open Data.Fields in
/-- What a session is set up with is read back from its data. -/
theorem Config.ofValue_toValue {c : Config} (h : c.audit.TextPath) : ofValue c.toValue = .ok c := by
  obtain ⟨personas, persona, handle, bandwidth, policy, audit⟩ := c
  have hpersona (p : Persona) : Persona.ofValue (.text p.token) = .ok p :=
    Data.Decode.word_text.2 p.ofText_token
  have hpersonas : Data.Decode.list Persona.ofValue (.texts (personas.map Persona.token)) =
      .ok personas := by
    rw [Value.texts, List.map_map]
    exact Data.Decode.list_map fun p _ => hpersona p
  refine decode_eq_ok rfl rfl ?_
  refine seq_eq_ok ?_ (withDefault_eq_ok rfl (AuditConfig.ofValue_toValue h))
  refine seq_eq_ok ?_ (withDefault_eq_ok rfl policy.ofValue_toValue)
  refine seq_eq_ok ?_ (withDefault_eq_ok rfl bandwidth.ofValue_toValue)
  refine seq_eq_ok ?_ (withDefault_eq_ok rfl rfl)
  refine seq_eq_ok ?_ (withDefault_eq_ok rfl (hpersona persona))
  exact seq_eq_ok rfl (withDefault_eq_ok rfl hpersonas)

theorem Config.writable_toValue (c : Config) : c.toValue.Writable := by
  simp [toValue, BandwidthConfig.writable_toValue, AnchorPolicy.writable_toValue,
    AuditConfig.writable_toValue]

namespace ProjectConfig

open Data.Fields in
/-- The settings of a project are read back from their data. -/
theorem ofValue_toValue {c : ProjectConfig} (h : c.interpreter.audit.TextPath) :
    ofValue c.toValue = .ok c := by
  obtain ⟨name, description, version, archive, auditLog, interpreter⟩ := c
  have harchive : archiveOfValue (.table [("path", .text archive)]) = .ok archive := rfl
  -- a description that is none is left out, which moves the fields behind it
  cases description
  all_goals
    refine decode_eq_ok rfl rfl ?_
    refine seq_eq_ok ?_ (withDefault_eq_ok rfl (Config.ofValue_toValue h))
    refine seq_eq_ok ?_ (withDefault_eq_ok rfl rfl)
    refine seq_eq_ok ?_ (withDefault_eq_ok rfl harchive)
    refine seq_eq_ok ?_ (withDefault_eq_ok rfl rfl)
    exact seq_eq_ok (seq_eq_ok rfl (withDefault_eq_ok rfl rfl)) rfl

theorem writable_toValue (c : ProjectConfig) : c.toValue.Writable := by
  cases hdescription : c.description <;>
    simp [toValue, hdescription, Config.writable_toValue]

/-- The bytes of either form of JSON hold the settings that they were written for. -/
theorem heldBy_encode {form : Value → String}
    (hform : form = Data.Json.compact ∨ form = Data.Json.pretty) {c : ProjectConfig}
    (h : c.interpreter.audit.TextPath) : c.HeldBy (Text.encode (form c.toValue)) := by
  have hparse : Data.Json.parse? (form c.toValue) = some c.toValue := by
    rcases hform with rfl | rfl
    · exact Data.Json.parse?_compact c.writable_toValue
    · exact Data.Json.parse?_pretty c.writable_toValue
  exact ⟨_, _, Text.decode?_encode _, hparse, ofValue_toValue h⟩

end ProjectConfig

/-! ## Files of settings -/

namespace Project

variable {w w' : World} {l : ProjectLayout} {form : Value → String}

/-- Settings whose log has a text for its path and that were written to the path of a project, in
either form of JSON, are loaded as they were. The only place that does not keep them is a device. -/
theorem settings_faithful (c : ProjectConfig) (hpath : c.interpreter.audit.TextPath)
    (hform : form = Data.Json.compact ∨ form = Data.Json.pretty)
    (hwrite : StateT.run (Host.write l.configPath (Text.encode (form c.toValue)) :
      StateM World _) w = (.ok (), w')) :
    StateT.run (loadConfig l : StateM World _) w' = (.ok c, w') ↔
      w.tree.kind? w.directory l.configPath ≠ some .device := by
  obtain ⟨t, ht, rfl⟩ := World.change_eq_ok_iff.1 hwrite
  have hread := FileTree.read_of_write ht
  rw [loadConfig_eq_ok_iff]
  constructor
  · rintro ⟨-, bytes, hbytes, hheld⟩ hdevice
    rw [if_pos hdevice] at hread
    exact hheld.ne_nil (Except.ok.inj (hbytes.symm.trans hread))
  · intro hkept
    rw [if_neg hkept] at hread
    exact ⟨rfl, _, hread, ProjectConfig.heldBy_encode hform hpath⟩

/-- Settings of which no part is the default: no persona is allowed, the one family with a cost has
the largest, and the one intent with a rule has an empty one. -/
theorem settings_faithful_bare :
    let l : ProjectLayout := ⟨.ofText "/"⟩
    let w : World :=
      { tree := FileTree.empty.put (placeOf [".spiral"]) .directory, directory := [], input := []
        clock := fun n => ⟨n⟩, ticks := 0, faults := fun _ => none, appends := 0
        refuses := fun _ _ => false }
    let c : ProjectConfig :=
      { name := "", description := some "", version := "\"\n\\", archive := "../päth"
        auditLog := ""
        interpreter :=
          { personas := [], defaultPersona := Config.persona "@b" (by decide)
            containmentHandle := " "
            bandwidth := ⟨⟨4294967295, 0, 7⟩, .low, .ofList 0 [(.voice, 4294967295)]⟩
            policy := .ofList [(.crisis, .empty)], audit := ⟨"md5", some (.ofText "")⟩ } }
    ∃ w', StateT.run (Host.write l.configPath (Text.encode (Data.Json.pretty c.toValue)) :
        StateM World _) w = (.ok (), w') ∧
      StateT.run (loadConfig l : StateM World _) w' = (.ok c, w') := by
  intro l w c
  have htarget : w.tree.target w.directory l.configPath =
      .ok ⟨placeOf [".spiral"], some (Text.encode "project.json"), false⟩ := by decide +kernel
  have hentry : w.tree.entry (placeOf [".spiral", "project.json"]) = none := by decide +kernel
  have hopen : w.tree.openPlace w.directory l.configPath =
      .ok (placeOf [".spiral", "project.json"]) :=
    FileTree.openPlace_eq_ok_iff.2 ⟨_, htarget, nofun, rfl, rfl, by simp [hentry]⟩
  have hpath : c.interpreter.audit.TextPath := by
    intro p hp
    cases hp
    exact Text.isText_encode ""
  have hwrite : StateT.run (Host.write l.configPath (Text.encode (Data.Json.pretty c.toValue)) :
      StateM World _) w = _ :=
    World.change_eq_ok_iff.2 ⟨_, FileTree.write_of_openPlace hopen (.inl hentry) _, rfl⟩
  refine ⟨_, hwrite, (settings_faithful c hpath (.inr rfl) hwrite).2 ?_⟩
  simp [FileTree.kind?_of_missing hopen hentry]

end Project

end RitualGate
