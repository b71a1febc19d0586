import RitualGate.Proofs.Containment
import RitualGate.Proofs.Rejection

/-!
# Personas that nobody knows

A persona outside the allow-set is met in two places: a statement takes it as the voice of the
session, or a dispatch asks the router for its handle. A dispatch that names no persona falls back
on the voice of the session and then on the default, and both are in the allow-set at all times
(`fallbacks_run`): a configuration is refused if its default is not, and a voice is checked before
it is taken. So only a persona that the statement itself names is ever unknown
(`evaluate_unknownPersona_iff`), and `strangers_rejected` says so of every state that a session can
come to.
-/

namespace RitualGate

/-- The allow-set has the personas that may speak. -/
theorem Router.mem_allowed {r : Router} {p : Persona} : p ∈ r.allowed ↔ r.allows p = true := by
  simp [allowed, allows]

theorem Config.defaultPersona_mem {c : Config} (h : c.validate = .ok ()) :
    c.defaultPersona ∈ c.personas := by
  unfold validate at h
  split at h
  · cases h
  · split at h
    · cases h
    · split at h
      · cases h
      · rename_i hdefault
        simpa using hdefault

namespace Session

/-! ## The personas that a session falls back on -/

/-- The default and the voice of a session are in its allow-set. -/
structure FallbacksKnown (s : Session) : Prop where
  default : s.defaultPersona ∈ s.router.allowed
  voice : ∀ p, s.voice = some p → p ∈ s.router.allowed

/-- An evaluation leaves the voice as it is, or takes one that may speak. -/
theorem evaluate_voice (s : Session) (c : Collaborators) (st : Statement) :
    (s.evaluate c st).session.voice = s.voice ∨
      ∃ p, (s.evaluate c st).session.voice = some p ∧ p ∈ s.router.allowed := by
  have course := evaluate_course s c st
  generalize s.evaluate c st = e at course
  have engaged (g : Governor) : ({ s with governor := g }.engaged st).voice = s.voice := by
    unfold engaged
    split <;> rfl
  cases course with
  | @voiceTaken p _ _ _ _ hp =>
    refine .inr ⟨p, rfl, Router.mem_allowed.2 ?_⟩
    unfold Router.validate at hp
    split at hp
    · assumption
    · cases hp
  | levelSet =>
    left
    simp only [Evaluation.plain, setLevel]
    split <;> rfl
  | fetched => exact .inl (engaged _)
  | answered => exact .inl (engaged _)
  | _ => exact .inl rfl

theorem FallbacksKnown.evaluate {s : Session} (h : s.FallbacksKnown) (c : Collaborators)
    (st : Statement) : (s.evaluate c st).session.FallbacksKnown := by
  have hkept := evaluate_kept s c st
  refine ⟨?_, fun p hp => ?_⟩
  · rw [hkept.defaultPersona, hkept.router]
    exact h.default
  · rw [hkept.router]
    rcases evaluate_voice s c st with hsame | ⟨q, hq, hknown⟩
    · exact h.voice p (hsame ▸ hp)
    · cases hq.symm.trans hp
      exact hknown

theorem fallbacks_step {s s' : Session} {op : Operation}
    {answer : Except RitualError (Option Execution)} (h : s.FallbacksKnown)
    (hstep : Step s op s' answer) : s'.FallbacksKnown := by
  cases hstep with
  | @executed _ k st =>
    have heval := FallbacksKnown.evaluate (s := { s with phase := .processing })
      ⟨h.default, h.voice⟩ k st
    exact ⟨heval.default, heval.voice⟩
  | reset => exact ⟨h.default, nofun⟩
  | clearContainment => exact ⟨h.default, h.voice⟩
  | close => exact ⟨h.default, h.voice⟩
  | _ => exact h

theorem fallbacks_run {c : Config} (hc : c.validate = .ok ()) (t : Trail) (w : World)
    (ops : List Operation) : ((ofConfig c t).run w ops).session.FallbacksKnown := by
  have hstart : (ofConfig c t).FallbacksKnown := by
    refine ⟨Router.mem_allowed.2 ?_, nofun⟩
    exact List.contains_iff_mem.2 (Config.defaultPersona_mem hc)
  exact run_induction (P := fun _ s => s.FallbacksKnown) hstart fallbacks_step w ops

/-! ## Statements that name a stranger -/

/-- `s.NamesStranger st`: the statement names a persona outside the allow-set, to take it for a
voice or to call on it while containment does not put another in its place. -/
def NamesStranger (s : Session) (st : Statement) : Prop :=
  ∃ p, st.voice = some p ∧ p ∉ s.router.allowed ∧
    ((st.family = .voice ∧ st.verb = .use) ∨ (CallsVoice st ∧ s.grants.containment = false))

section Evaluate

variable {s : Session} {c : Collaborators} {st : Statement}

theorem evaluate_of_admits (ha : s.Admits st) : s.evaluate c st = s.perform c st := by
  rw [evaluate, ha.1]
  simp only [ha.2]

theorem voiceFor_eq_error_iff {e : RitualError} : s.voiceFor st = .error e ↔
    st.family ≠ .archive ∧ s.grants.containment = false ∧ s.speaker st ∉ s.router.allowed ∧
      e = .unknownPersona (s.speaker st) := by
  unfold voiceFor Router.resolve
  rw [Router.mem_allowed]
  by_cases hf : st.family = .archive
  · simp [hf]
  · cases hc : s.grants.containment <;> by_cases ha : s.router.allows (s.speaker st) = true <;>
      simp [hf, ha, eq_comm]

/-- A speaker that is not known is the one that the statement names. -/
theorem voice_of_speaker (h : s.FallbacksKnown) (hs : s.speaker st ∉ s.router.allowed) :
    st.voice = some (s.speaker st) := by
  cases hv : st.voice with
  | some p => simp [speaker, hv]
  | none =>
    cases hvoice : s.voice with
    | some p => exact absurd (h.voice p hvoice) (by simpa [speaker, hv, hvoice] using hs)
    | none => exact absurd h.default (by simpa [speaker, hv, hvoice] using hs)

theorem namesStranger_of_evaluate (h : s.FallbacksKnown) (hl : st.family.allows st.verb = true)
    (herror : (s.evaluate c st).error?.map RitualError.kind = some .unknownPersona) :
    s.Admits st ∧ s.NamesStranger st := by
  have course := evaluate_course s c st
  generalize s.evaluate c st = e at course herror
  have paid {e : RitualError} (hkind : e.kind ∈ ErrorKind.paid) : e.kind ≠ .unknownPersona := by
    rintro heq
    rw [heq] at hkind
    exact absurd hkind (by decide)
  cases course with
  | @voiceUnknown p e ha hf hv hp hvalidate =>
    refine ⟨ha, p, hp, fun hknown => ?_, .inl ⟨hf, hv⟩⟩
    rw [Router.validate, if_pos (Router.mem_allowed.1 hknown)] at hvalidate
    cases hvalidate
  | speakerUnknown ha ho hvoice =>
    obtain ⟨hf, hcontainment, hspeaker, -⟩ := voiceFor_eq_error_iff.1 hvoice
    refine ⟨ha, _, voice_of_speaker h hspeaker, hspeaker, .inr ⟨?_, hcontainment⟩⟩
    rw [Statement.reachesOut_eq_isDispatch hl] at ho
    rcases Statement.isDispatch_iff.1 ho with hd | hd | ⟨harchive, -⟩
    · exact .inl hd
    · exact .inr hd
    · exact absurd harchive hf
  | cardsFailed _ hr => exact absurd (Option.some.inj herror) (paid (resolve_eq_error hr))
  | voiceFailed => exact absurd (Option.some.inj herror) (paid (DispatchError.kind_mem_paid _))
  | _ => cases herror

theorem evaluate_of_namesStranger (ha : s.Admits st) (h : s.NamesStranger st) :
    ∃ p, (s.evaluate c st).error? = some (.unknownPersona p) := by
  obtain ⟨p, hp, hstranger, ⟨hf, hv⟩ | ⟨hcalls, hcontainment⟩⟩ := h
  · rw [Router.mem_allowed] at hstranger
    refine ⟨p, ?_⟩
    rw [evaluate_of_admits ha]
    simp [perform, hf, hv, useVoice, hp, Router.validate, hstranger, Evaluation.plain,
      Evaluation.error?]
  · have hspeaker : s.speaker st = p := by simp [speaker, hp]
    have ho : st.reachesOut = true := by
      rcases hcalls with ⟨hf, hv⟩ | ⟨hf, hv⟩ <;> simp [Statement.reachesOut, hf, hv]
    have hvoice : s.voiceFor st = .error (.unknownPersona p) :=
      voiceFor_eq_error_iff.2 ⟨hcalls.family_ne, hcontainment, hspeaker ▸ hstranger, hspeaker ▸ rfl⟩
    refine ⟨p, ?_⟩
    rw [evaluate_of_admits ha, perform_eq_dispatch ho, dispatch, hvoice]
    rfl

/-- A statement of the language fails for an unknown persona exactly if it passes both checks and
names a stranger. -/
theorem evaluate_unknownPersona_iff (h : s.FallbacksKnown) (hl : st.family.allows st.verb = true) :
    (s.evaluate c st).error?.map RitualError.kind = some .unknownPersona ↔
      s.Admits st ∧ s.NamesStranger st := by
  refine ⟨namesStranger_of_evaluate h hl, fun ⟨ha, hstranger⟩ => ?_⟩
  obtain ⟨p, hp⟩ := evaluate_of_namesStranger (c := c) ha hstranger
  rw [hp]
  rfl

end Evaluate

/-! ## Every state -/

/-- The error that an answer to a statement reports: the session refuses to process it, or it was
processed and not accepted. -/
def refusal? : Except RitualError Execution → Option RitualError
  | .error e => some e
  | .ok x => x.error

theorem process_unknownPersona_iff {s : Session} (h : s.FallbacksKnown) (k : Collaborators)
    {st : Statement} (hl : st.family.allows st.verb = true) (w : World) :
    (refusal? (StateT.run (s.process k st : StateM World _) w).1.2).map RitualError.kind =
        some .unknownPersona ↔
      s.phase ≠ .closed ∧ s.Admits st ∧ s.NamesStranger st := by
  by_cases hc : s.phase = .closed
  · rw [process_closed_run s k st w hc]
    simp [refusal?, RitualError.kind, hc]
  · obtain ⟨now, written, w', hrun⟩ := process_run s k st w hc
    rw [hrun]
    have heval := evaluate_unknownPersona_iff (s := { s with phase := .processing }) (c := k)
      ⟨h.default, h.voice⟩ hl
    rw [and_iff_right hc]
    exact heval

/-- Whatever a session has been through, its default persona and its voice are in the allow-set that
it was configured with, and it rejects a statement of the language for an unknown persona exactly if
the checks of anchors and level are made and passed, which a closed session does not come to, and
the statement itself names a stranger. A dispatch that names no persona is never rejected for
one. -/
theorem strangers_rejected {c : Config} {s₀ : Session} {w₀ w : World}
    (hstart : StateT.run (start c : StateM World _) w₀ = (.ok s₀, w)) (ops : List Operation) :
    let s := (s₀.run w ops).session
    (∀ p, p ∈ s.router.allowed ↔ p ∈ c.personas) ∧
    s.defaultPersona ∈ s.router.allowed ∧ (∀ p, s.voice = some p → p ∈ s.router.allowed) ∧
    ∀ (k : Collaborators) (st : Statement) (w₁ : World), st.family.allows st.verb = true →
      let kind? := (refusal? (StateT.run (s.process k st : StateM World _) w₁).1.2).map
        RitualError.kind
      (kind? = some .unknownPersona ↔ s.phase ≠ .closed ∧ s.Admits st ∧ s.NamesStranger st) ∧
      (st.isDispatch = true → st.voice = none → kind? ≠ some .unknownPersona) := by
  intro s
  obtain ⟨hvalid, t, -, rfl⟩ := start_run hstart
  obtain ⟨hrouter, -⟩ := equipped_run (c := c) (t := t) w ops
  have hknown : s.FallbacksKnown := fallbacks_run hvalid t w ops
  refine ⟨fun p => ?_, hknown.default, hknown.voice, fun k st w₁ hl => ?_⟩
  · rw [Router.mem_allowed, hrouter]
    exact List.contains_iff_mem
  · have hiff := process_unknownPersona_iff hknown k hl w₁
    refine ⟨hiff, fun _ hunnamed hkind => ?_⟩
    obtain ⟨-, -, p, hp, -⟩ := hiff.1 hkind
    cases hunnamed.symm.trans hp

/-- The sage speaks for the session. A companion is summoned by a stranger and rejected; summoned
without a name it is the sage's. -/
theorem strangers_rejected_summons :
    let k : Collaborators := ⟨Script.empty.respond, fun _ _ => .ok []⟩
    let sage : Persona := ⟨"@sage", by decide⟩
    let stranger : Persona := ⟨"@stranger", by decide⟩
    let use : Statement :=
      { family := .voice, verb := .use, subject := "@sage", intent := none, args := .empty
        anchors := .empty, voice := some sage, bandwidth := none, cards := [] }
    let summon : Statement :=
      { use with
        family := .companion, verb := .summon, subject := "walk", intent := some .general
        voice := none }
    let w : World := ⟨.empty, [], [], fun _ => ⟨0⟩, 0, fun _ => none, 0, fun _ _ => false⟩
    let s := ((ofConfig .default .empty).run w [.process k use]).session
    let kind? (st : Statement) :=
      (refusal? (StateT.run (s.process k st : StateM World _) w).1.2).map RitualError.kind
    s.voice = some sage ∧ sage ∈ s.router.allowed ∧
      kind? { summon with voice := some stranger } = some .unknownPersona ∧
      kind? summon ≠ some .unknownPersona := by
  intro k sage stranger use summon w s kind?
  have hstart : StateT.run (start .default : StateM World _) w =
      (.ok (ofConfig .default .empty), w) := rfl
  have hvoice : s.voice = some sage := by
    dsimp only [s, w, k, use]
    rfl
  obtain ⟨hallowed, -, hknown, hprocess⟩ := strangers_rejected hstart [.process k use]
  have hadmits : s.Admits { summon with voice := some stranger } := by
    dsimp only [s, w, k, summon, use]
    exact ⟨rfl, rfl⟩
  have hstranger : stranger ∉ s.router.allowed := by
    rw [hallowed]
    decide
  have hopen : s.phase ≠ .closed := by
    dsimp only [s, w, k, use]
    exact nofun
  refine ⟨hvoice, hknown sage hvoice, ?_, (hprocess k summon w rfl).2 rfl rfl⟩
  exact (hprocess k { summon with voice := some stranger } w rfl).1.2
    ⟨hopen, hadmits, stranger, rfl, hstranger, .inr ⟨.inr ⟨rfl, rfl⟩, rfl⟩⟩

end Session

end RitualGate
