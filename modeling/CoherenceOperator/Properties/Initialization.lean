import CoherenceOperator.Phases.Runs

/-!
# Leaving the phase Initialized

The phase `Initialized` is not entered again once it was left, as long as it is not left without its
condition: `ensureInitialized` goes by the condition, not by the phase. A phase `Initialized` that `StatusManager` wrote comes without
the condition, `ensureInitialized` does not add it while this is the phase, and the first operation that
moves on leaves it unrecorded; the next one then goes back.
-/

namespace CoherenceOperator

open Effect

/-- A status, and whether its phase has left `Initialized`. -/
structure History where
  status : CoherenceResourceStatus := {}
  left : Bool := false

namespace History

/-- The history after an operation. -/
def step (op : Operator) (h : History) (o : ℕ × StatusOp) : History where
  status := StatusOp.step op h.status o
  left := h.left ||
    (decide (h.status.phase = some .initialized) && decide ((StatusOp.step op h.status o).phase ≠ some .initialized))

/-- The phase that was left is not the phase, and its condition was recorded. -/
def IsBehind (h : History) : Prop :=
  h.left = true → h.status.phase ≠ some .initialized ∧ h.status.conditions.Has .initialized

end History

namespace StatusOp

/-- An explicit request for the phase `Initialized`. -/
def RequestsInitialized : StatusOp → Prop
  | .phase p => p = .initialized
  | .call (.setCondition _ c) => c.type = .initialized
  | _ => False

/-- The operation asks for another phase. -/
def MovesOn (s : CoherenceResourceStatus) : StatusOp → Prop
  | .phase p => p ≠ .initialized
  | .call (.setCondition _ c) => c.type ≠ .initialized
  | .call (.update c sts) => c.IsReady sts ∨ Coherence.IsUpgrading sts ∨ c.IsStopped
  | .call (.updateFromJob c job _) => c.IsReady s job ∨ CoherenceJob.IsComplete job ∨ c.IsStopped

variable {op : Operator} {now : ℕ} {s : CoherenceResourceStatus} {o : StatusOp}

/-- What a call asks for is another phase, unless `Initialized` is requested. -/
theorem initialized_notMem_targets {c : StatusCall} (h : ¬ (call c).RequestsInitialized) : .initialized ∉ c.targets s := by
  cases c with
  | setCondition d c => simpa [StatusCall.targets] using Ne.symm h
  | update c sts => simp only [StatusCall.targets, Coherence.targets]; split_ifs <;> simp
  | updateFromJob c job probes => simp only [StatusCall.targets, CoherenceJob.targets]; split_ifs <;> simp

theorem targets_eq_nil_iff {c : StatusCall} (h : ¬ (call c).RequestsInitialized) :
    c.targets s = [] ↔ ¬ (call c).MovesOn s := by
  cases c with
  | setCondition d c =>
    have ht : c.type ≠ .initialized := h
    simp [StatusCall.targets, MovesOn, ht]
  | update c sts => simp [StatusCall.targets, Coherence.targets, MovesOn]
  | updateFromJob c job probes => simp [StatusCall.targets, CoherenceJob.targets, MovesOn]

/-- The condition that was recorded stays. -/
theorem has_step (h : s.conditions.Has .initialized) : (step op s (now, o)).conditions.Has .initialized := by
  show (step op s (now, o)).lights.introduced
  rw [lights_step]
  cases o with
  | phase p => exact h
  | call c => exact Lights.introduced_moveTo_of_introduced h

/-- With the condition recorded, only a request enters `Initialized`. -/
theorem phase_step_ne (hphase : s.phase ≠ some .initialized) (h : s.conditions.Has .initialized)
    (ho : ¬ o.RequestsInitialized) : (step op s (now, o)).phase ≠ some .initialized := by
  show (step op s (now, o)).lights.phase ≠ some .initialized
  rw [lights_step]
  cases o with
  | phase p =>
    have hp : p ≠ .initialized := ho
    simpa using hp
  | call c =>
    dsimp only
    rw [StatusCall.moves, if_pos h, List.nil_append, Ne, Lights.phase_moveTo_eq_initialized (initialized_notMem_targets ho)]
    exact fun hl => hphase hl.1

/-- In the phase `Initialized` without its condition: an operation moves on, and does not record it. -/
theorem step_of_not_has (op : Operator) (now : ℕ) (o : StatusOp) (hphase : s.phase = some .initialized) (h : ¬ s.conditions.Has .initialized) :
    ((step op s (now, o)).phase ≠ some .initialized ↔ o.MovesOn s) ∧
      ¬ ((step op s (now, o)).phase ≠ some .initialized ∧ (step op s (now, o)).conditions.Has .initialized) := by
  have hphase' : (step op s (now, o)).phase = (step op s (now, o)).lights.phase := rfl
  have hhas' : (step op s (now, o)).conditions.Has .initialized = (step op s (now, o)).lights.introduced := rfl
  rw [hphase', hhas', lights_step]
  cases o with
  | phase p => exact ⟨by simp [MovesOn], fun hm => h hm.2⟩
  | call c =>
    have hmove : s.lights.moveTo (c.moves s) = s.lights.moveTo (c.targets s) := by
      rw [StatusCall.moves, if_neg h, List.singleton_append, Lights.moveTo_cons, Lights.move_self hphase]
    dsimp only
    rw [hmove]
    by_cases hr : (call c).RequestsInitialized
    · cases c with
      | setCondition d c =>
        have ht : c.type = .initialized := hr
        have hstay : s.lights.moveTo (StatusCall.targets s (.setCondition d c)) = s.lights := by
          rw [StatusCall.targets, Lights.moveTo_cons, Lights.moveTo_nil, ht, Lights.move_self hphase]
        rw [hstay]
        exact ⟨by simp [MovesOn, ht, CoherenceResourceStatus.lights, hphase], fun hm => h hm.2⟩
      | update | updateFromJob => exact hr.elim
    · rw [Ne, Lights.phase_moveTo_eq_initialized (initialized_notMem_targets hr),
        Lights.introduced_moveTo (initialized_notMem_targets hr), targets_eq_nil_iff hr]
      exact ⟨by simp [CoherenceResourceStatus.lights, hphase], fun hm => h hm.2⟩

end StatusOp

namespace History

/-- **One operation**: the phase stays behind exactly if no operation moves on from an `Initialized` phase that has no
condition. -/
theorem isBehind_step {op : Operator} {h : History} {o : ℕ × StatusOp} (hh : h.IsBehind)
    (ho : h.left = true → ¬ o.2.RequestsInitialized) : (h.step op o).IsBehind ↔
      (h.status.phase = some .initialized → ¬ h.status.conditions.Has .initialized → ¬ o.2.MovesOn h.status) := by
  by_cases hphase : h.status.phase = some .initialized
  · have hleft : h.left = false := by
      by_contra hl
      exact (hh (by simpa using hl)).1 hphase
    by_cases hhas : h.status.conditions.Has .initialized
    · have hhas' : (StatusOp.step op h.status o).conditions.Has .initialized := StatusOp.has_step hhas
      simp [IsBehind, step, hphase, hleft, hhas, hhas']
    · obtain ⟨hmoves, hnot⟩ := StatusOp.step_of_not_has op o.1 o.2 hphase hhas
      rw [← hmoves]
      simp only [IsBehind, step, hphase, hleft, hhas, decide_true, Bool.true_and, Bool.false_or, decide_eq_true_eq,
        not_false_eq_true, forall_const]
      constructor
      · exact fun hb hne => hnot (by exact ⟨hne, (hb hne).2⟩)
      · exact fun hb hne => absurd hne hb
  · have hkeep : h.left = true → (StatusOp.step op h.status o).phase ≠ some .initialized ∧
        (StatusOp.step op h.status o).conditions.Has .initialized := by
      intro hl
      exact ⟨StatusOp.phase_step_ne hphase (hh hl).2 (ho hl), StatusOp.has_step (hh hl).2⟩
    simp only [IsBehind, step, hphase, decide_false, Bool.false_and, Bool.or_false, false_implies, iff_true]
    exact hkeep

end History

end CoherenceOperator
