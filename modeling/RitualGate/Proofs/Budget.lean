import RitualGate.Bandwidth

/-!
# What a window has room for

A window of a governor is open from one setting of the level to the next. `Metered` is a governor
beside the exact sum of what was charged in its window, and `run` takes actions one after the other.

A governor adds words and not numbers: where the sum of two words is no word, the largest word
stands for it (`toNat_addSat`). A capacity below the largest word is exceeded by that too, so the
sum is never mistaken and the charges that succeed are exactly those that there is room for
(`Metered.exact_of_lt`). Against a capacity that is the largest word nothing counts as too much.
`charges_exact` says both for every run, and `sated_window_charged` shows a window that takes more
than its capacity.
-/

namespace RitualGate

namespace Governor

/-- The largest word. -/
def maxWord : Nat := 4294967295

theorem toNat_addSat (a b : UInt32) : (addSat a b).toNat = min (a.toNat + b.toNat) maxWord := by
  unfold addSat maxWord
  split
  · rename_i hlt
    rw [UInt32.toNat_add, Nat.mod_eq_of_lt hlt]
    omega
  · rename_i hge
    show 4294967295 = _
    omega

/-- What a charge does. -/
theorem charge_cases (g : Governor) (cost : UInt32) :
    (min (g.state.consumed.toNat + cost.toNat) maxWord ≤ g.capacity.toNat ∧
      ∃ next, next.toNat = min (g.state.consumed.toNat + cost.toNat) maxWord ∧
        g.charge cost = .ok { g with state := ⟨g.state.current, next⟩ }) ∨
    (g.capacity.toNat < min (g.state.consumed.toNat + cost.toNat) maxWord ∧
      ∃ e, g.charge cost = .error e) := by
  rw [← toNat_addSat]
  by_cases h : addSat g.state.consumed cost ≤ g.capacity
  · refine .inl ⟨UInt32.le_iff_toNat_le.1 h, _, rfl, ?_⟩
    simp only [charge, if_pos h]
  · refine .inr ⟨?_, _, by simp only [charge, if_neg h]; rfl⟩
    rw [UInt32.le_iff_toNat_le] at h
    omega

end Governor

/-- One thing that can be done with the bandwidth of a session. -/
inductive BandwidthAction where
  | set (level : Level)
  | charge (cost : UInt32)
  | reset
deriving DecidableEq, Repr

/-- A governor, and the sum of the charges that succeeded since its window was opened. -/
structure Metered where
  governor : Governor
  spent : Nat

namespace Metered

open Governor (maxWord)

/-- A new governor, in whose window nothing is charged yet. -/
def new (capacities : Capacities) (costs : CostTable) (initial : Level) : Metered :=
  ⟨.new capacities costs initial, 0⟩

/-- Takes one action. A charge that fails leaves everything as it is. -/
def step (m : Metered) : BandwidthAction → Metered
  | .set level => ⟨m.governor.set level, 0⟩
  | .reset => ⟨m.governor.reset, 0⟩
  | .charge cost =>
    match m.governor.charge cost with
    | .ok governor => ⟨governor, m.spent + cost.toNat⟩
    | .error _ => m

/-- Takes actions one after the other. -/
def run (m : Metered) (as : List BandwidthAction) : Metered :=
  as.foldl step m

/-- A charge succeeds. -/
def Accepts (m : Metered) (cost : UInt32) : Prop :=
  (m.governor.charge cost).isOk = true

/-- What is consumed is what was charged, and there is room for exactly what is left. -/
def Exact (m : Metered) : Prop :=
  m.governor.state.consumed.toNat = m.spent ∧
    ∀ cost, m.Accepts cost ↔ m.spent + cost.toNat ≤ m.governor.capacity.toNat

theorem accepts_iff {m : Metered} {cost : UInt32} : m.Accepts cost ↔
    min (m.governor.state.consumed.toNat + cost.toNat) maxWord ≤ m.governor.capacity.toNat := by
  unfold Accepts
  rcases m.governor.charge_cases cost with ⟨hle, _, -, heq⟩ | ⟨hlt, _, heq⟩
  · rw [heq]
    exact ⟨fun _ => hle, fun _ => rfl⟩
  · rw [heq]
    exact ⟨nofun, fun hle => absurd hle (Nat.not_le.2 hlt)⟩

/-- What every action keeps: the governor has consumed what was charged, as far as a word can say,
and no more than its capacity. -/
structure Sound (capacities : Capacities) (m : Metered) : Prop where
  capacities : m.governor.capacities = capacities
  consumed : m.governor.state.consumed.toNat = min m.spent maxWord
  within : m.governor.state.consumed.toNat ≤ m.governor.capacity.toNat

section Run

variable {capacities : Capacities} {m : Metered}

/-- A window that was just opened is empty. -/
theorem sound_set (h : m.governor.capacities = capacities) (level : Level) :
    Sound capacities ⟨m.governor.set level, 0⟩ where
  capacities := h
  consumed := rfl
  within := Nat.zero_le _

theorem sound_step (h : Sound capacities m) (a : BandwidthAction) :
    Sound capacities (m.step a) := by
  cases a with
  | set level => exact sound_set h.capacities level
  | reset => exact sound_set h.capacities m.governor.initial
  | charge cost =>
    rcases m.governor.charge_cases cost with ⟨hle, next, hnext, heq⟩ | ⟨-, e, heq⟩
    · simp only [step, heq]
      refine ⟨h.capacities, ?_, ?_⟩
      · have hconsumed := h.consumed
        show next.toNat = min (m.spent + cost.toNat) maxWord
        omega
      · show next.toNat ≤ m.governor.capacity.toNat
        omega
    · simp only [step, heq]
      exact h

theorem sound_run (capacities : Capacities) (costs : CostTable) (initial : Level)
    (as : List BandwidthAction) : Sound capacities ((new capacities costs initial).run as) := by
  have hrun : ∀ m, Sound capacities m → Sound capacities (m.run as) := by
    induction as with
    | nil => exact fun _ h => h
    | cons a as ih => exact fun m h => ih (m.step a) (sound_step h a)
  exact hrun _ ⟨rfl, rfl, Nat.zero_le _⟩

/-- Below the largest word a sum that is no word is too large in any case. -/
theorem exact_of_lt (h : Sound capacities m) (hlt : m.governor.capacity.toNat < maxWord) :
    m.Exact := by
  have hconsumed := h.consumed
  have hwithin := h.within
  refine ⟨by omega, fun cost => ?_⟩
  rw [accepts_iff]
  omega

/-- Only the highest level can have the largest word for its capacity. -/
theorem current_eq_high (h : Sound capacities m) (hmono : capacities.isMonotonic = true)
    (htop : m.governor.capacity.toNat = maxWord) : m.governor.state.current = .high := by
  simp only [Capacities.isMonotonic, Bool.and_eq_true, decide_eq_true_eq,
    UInt32.lt_iff_toNat_lt] at hmono
  have hhigh := capacities.high.toNat_lt
  rw [Governor.capacity, h.capacities] at htop
  unfold maxWord at htop
  cases hcurrent : m.governor.state.current with
  | high => rfl
  | low =>
    rw [hcurrent] at htop
    change capacities.low.toNat = _ at htop
    omega
  | medium =>
    rw [hcurrent] at htop
    change capacities.medium.toNat = _ at htop
    omega

end Run

/-- In every window of every run the budget is exact, unless its capacity is the largest word. That
can only be at the highest level. There every charge succeeds, and what is consumed is what was
charged up to the largest word. A charge that fails changes nothing. -/
theorem charges_exact {capacities : Capacities} (hmono : capacities.isMonotonic = true)
    (costs : CostTable) (initial : Level) (as : List BandwidthAction) :
    let m := (new capacities costs initial).run as
    m.governor.capacity = capacities.of m.governor.state.current ∧
      (m.governor.capacity.toNat < maxWord → m.Exact) ∧
      (m.governor.capacity.toNat = maxWord → m.governor.state.current = .high ∧
        m.governor.state.consumed.toNat = min m.spent maxWord ∧ ∀ cost, m.Accepts cost) ∧
      ∀ cost, ¬ m.Accepts cost → m.step (.charge cost) = m := by
  intro m
  have hsound : Sound capacities m := sound_run capacities costs initial as
  refine ⟨?_, exact_of_lt hsound, fun htop => ⟨current_eq_high hsound hmono htop, hsound.consumed,
    fun cost => ?_⟩, fun cost hrefused => ?_⟩
  · rw [Governor.capacity, hsound.capacities]
  · rw [accepts_iff, htop]
    exact Nat.min_le_right _ _
  · rcases m.governor.charge_cases cost with ⟨hle, -⟩ | ⟨-, e, heq⟩
    · exact absurd (accepts_iff.2 hle) hrefused
    · simp only [step, heq]

/-- A window one below the largest word, filled to the brim. -/
theorem charges_exact_brim :
    let capacities : Capacities := ⟨1, 2, 4294967294⟩
    let m := (new capacities .default .high).run [.charge 4294967290, .charge 5, .charge 4]
    capacities.isMonotonic = true ∧ m.spent = 4294967294 ∧ m.Exact ∧ ¬ m.Accepts 1 := by
  intro capacities m
  have hmono : capacities.isMonotonic = true := by decide
  have hspent : m.spent = 4294967294 := by decide +kernel
  have hcapacity : m.governor.capacity.toNat = 4294967294 := by decide +kernel
  have hexact : m.Exact :=
    (charges_exact hmono .default .high [.charge 4294967290, .charge 5, .charge 4]).2.1
      (by rw [hcapacity]; decide)
  refine ⟨hmono, hspent, hexact, ?_⟩
  rw [hexact.2, hspent, hcapacity]
  decide

/-- A window whose capacity is the largest word takes a charge when it is full, and no longer says
what was charged. -/
theorem sated_window_charged :
    let capacities : Capacities := ⟨1, 2, 4294967295⟩
    let m := (new capacities .default .high).run [.charge 4294967295]
    capacities.isMonotonic = true ∧ m.spent = 4294967295 ∧ m.Accepts 1 ∧
      ¬ m.spent + (1 : UInt32).toNat ≤ m.governor.capacity.toNat ∧
      (m.step (.charge 1)).spent = 4294967296 ∧
      (m.step (.charge 1)).governor.state.consumed.toNat = 4294967295 := by
  unfold Accepts
  decide +kernel

end Metered

end RitualGate
