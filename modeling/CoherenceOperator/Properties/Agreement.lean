import CoherenceOperator.Phases.Runs

/-!
# The phase and the conditions agree

Of the conditions that exclude each other the one that the phase names is true, and no other, as long as `Failed`
is not left behind, nothing exclusive is asked for after the completion, and `StatusManager` does not put a
phase beside a condition that is true. `setPhase` turns off the condition of the old phase unless this is `Failed`, and it
does not leave `Completed` but turns the new condition on all the same.
-/

namespace CoherenceOperator

open Effect

namespace CoherenceResourceStatus

/-- At most one of the exclusive conditions is true, and it is the one that the phase names. -/
def Agrees (s : CoherenceResourceStatus) : Prop :=
  (∀ t u, isExclusive t = true → isExclusive u = true → s.conditions.IsTrue t → s.conditions.IsTrue u → t = u) ∧
    ∀ t, isExclusive t = true → s.conditions.IsTrue t → s.phase = some t

theorem agrees_iff_lights {s : CoherenceResourceStatus} : s.Agrees ↔ s.lights.Agrees := by
  constructor
  · exact fun h t ht => h.2 t ht.1 ht.2
  · intro h
    refine ⟨fun t u ht hu htrue hutrue => ?_, fun t ht htrue => h t ⟨ht, htrue⟩⟩
    have h₁ : s.phase = some t := h t ⟨ht, htrue⟩
    have h₂ : s.phase = some u := h u ⟨hu, hutrue⟩
    rw [h₁, Option.some.injEq] at h₂
    exact h₂

/-- The resource failed, and its conditions say so. -/
def IsFailed (s : CoherenceResourceStatus) : Prop := s.phase = some .failed ∧ s.conditions.IsTrue .failed

end CoherenceResourceStatus

/-- What the operation is not to ask for. -/
def StatusOp.KeepsAgreement (s : CoherenceResourceStatus) : StatusOp → Prop
  | .phase p => ∀ t, isExclusive t = true → s.conditions.IsTrue t → t = p
  | .call (.setCondition _ c) =>
    (s.phase = some .completed → isExclusive c.type = false) ∧ (s.IsFailed → c.type = .failed)
  | .call (.update c sts) =>
    (s.phase = some .completed → ¬ c.IsReady sts ∧ ¬ Coherence.IsUpgrading sts ∧ ¬ c.IsStopped) ∧
      (s.IsFailed → s.conditions.Has .initialized ∧ ¬ c.IsReady sts ∧ ¬ Coherence.IsUpgrading sts ∧ ¬ c.IsStopped)
  | .call (.updateFromJob c job _) =>
    (s.phase = some .completed → ¬ c.IsReady s job ∧ ¬ c.IsStopped) ∧
      (s.IsFailed → s.conditions.Has .initialized ∧ ¬ c.IsReady s job ∧ ¬ CoherenceJob.IsComplete job ∧ ¬ c.IsStopped) ∧
      (CoherenceJob.IsComplete job → ¬ c.IsStopped)

section

variable {op : Operator} {now : ℕ} {s : CoherenceResourceStatus} {d : CoherenceResource} {t : ConditionType}

/-- When the lights agree, `Failed` is on exactly in the phase `Failed`. -/
theorem on_failed_iff (h : s.Agrees) : s.lights.on .failed ↔ s.IsFailed :=
  ⟨fun hon => ⟨h.2 .failed rfl hon.2, hon.2⟩, fun hf => ⟨rfl, hf.2⟩⟩

theorem keepsAgreement_setCondition (hs : s.Agrees) :
    (s.lights.moveTo ((StatusCall.setCondition d c).moves s)).Agrees ↔
      (StatusOp.call (.setCondition d c)).KeepsAgreement s := by
  have hl := CoherenceResourceStatus.agrees_iff_lights.1 hs
  simp only [StatusOp.KeepsAgreement, StatusCall.moves, StatusCall.targets]
  generalize c.type = t
  by_cases ht : t = .failed
  · subst ht
    have hex : isExclusive .failed = true := rfl
    by_cases hhas : s.conditions.Has .initialized
    · rw [if_pos hhas, List.nil_append, Lights.moveTo_cons, Lights.moveTo_nil,
        Lights.agrees_move_failed fun t ht => Or.inl (hl t ht)]
      simp [hex, CoherenceResourceStatus.lights]
    · rw [if_neg hhas, List.singleton_append, Lights.moveTo_cons, Lights.moveTo_cons, Lights.moveTo_nil,
        Lights.agrees_move_failed fun t ht => Lights.on_move_of_agrees hl rfl ht, Ne,
        Lights.phase_move_eq_completed (by decide)]
      simp [hex, CoherenceResourceStatus.lights]
  · have hmem : .failed ∉ (if s.conditions.Has .initialized then [] else [.initialized]) ++ [t] := by
      split <;> simp [Ne.symm ht]
    rw [Lights.agrees_moveTo hl hmem, on_failed_iff hs]
    split <;> simp [Lights.Finishes, ht, CoherenceResourceStatus.lights, and_comm, isExclusive]

theorem keepsAgreement_update {c : Coherence} {sts : Option StatefulSetStatus} (hs : s.Agrees) :
    (s.lights.moveTo ((StatusCall.update c sts).moves s)).Agrees ↔
      (StatusOp.call (.update c sts)).KeepsAgreement s := by
  have hl := CoherenceResourceStatus.agrees_iff_lights.1 hs
  simp only [StatusOp.KeepsAgreement, StatusCall.moves, StatusCall.targets, Coherence.targets]
  rw [Lights.agrees_moveTo hl (by split_ifs <;> simp), on_failed_iff hs]
  have hphase : s.lights.phase = s.phase := rfl
  by_cases hhas : s.conditions.Has .initialized <;> by_cases hready : c.IsReady sts <;>
    by_cases hup : Coherence.IsUpgrading sts <;> by_cases hstop : c.IsStopped <;>
      simp [hhas, hready, hup, hstop, hphase, Lights.Finishes, isExclusive, and_comm]

theorem keepsAgreement_updateFromJob {c : CoherenceJob} {job : Option JobStatus}
    {probes : List CoherenceJobProbeStatus} (hs : s.Agrees) :
    (s.lights.moveTo ((StatusCall.updateFromJob c job probes).moves s)).Agrees ↔
      (StatusOp.call (.updateFromJob c job probes)).KeepsAgreement s := by
  have hl := CoherenceResourceStatus.agrees_iff_lights.1 hs
  simp only [StatusOp.KeepsAgreement, StatusCall.moves, StatusCall.targets, CoherenceJob.targets]
  rw [Lights.agrees_moveTo hl (by split_ifs <;> simp), on_failed_iff hs]
  have hphase : s.lights.phase = s.phase := rfl
  by_cases hhas : s.conditions.Has .initialized <;> by_cases hready : c.IsReady s job <;>
    by_cases hdone : CoherenceJob.IsComplete job <;> by_cases hstop : c.IsStopped <;>
      simp [hhas, hready, hdone, hstop, hphase, Lights.Finishes, isExclusive, and_comm]

/-- **One operation** keeps the agreement exactly if it does not ask for what breaks it. -/
theorem agrees_step (hs : s.Agrees) (o : StatusOp) : (StatusOp.step op s (now, o)).Agrees ↔ o.KeepsAgreement s := by
  rw [CoherenceResourceStatus.agrees_iff_lights, StatusOp.lights_step]
  cases o with
  | phase p =>
    constructor
    · intro h t ht htrue
      have hp := h t ⟨ht, htrue⟩
      exact (Option.some.inj hp).symm
    · intro h t ht
      rw [h t ht.1 ht.2]
  | call c =>
    cases c with
    | setCondition d c => exact keepsAgreement_setCondition hs
    | update c sts => exact keepsAgreement_update hs
    | updateFromJob c job probes => exact keepsAgreement_updateFromJob hs

end

/-- **Runs**: in a run that starts from an empty status, the phase and the conditions agree at every time exactly if no
operation asks for what breaks the agreement. -/
theorem always_agrees_iff (op : Operator) (ops : List (ℕ × StatusOp)) :
    Always (StatusOp.step op) CoherenceResourceStatus.Agrees {} ops ↔
      Along (StatusOp.step op) (fun s o => o.2.KeepsAgreement s) {} ops := by
  refine always_iff_along (P := fun _ _ => True) (fun s o hs _ => agrees_step hs o.2)
    (along_of_forall (fun _ _ => trivial) _ _) ?_
  rw [CoherenceResourceStatus.agrees_iff_lights]
  rintro t ⟨-, c, hc, -⟩
  cases hc

/-- A resource that fails and gets ready again: `Failed` stays true beside `Ready`. -/
theorem not_forall_always_agrees :
    ¬ ∀ (op : Operator) (ops : List (ℕ × StatusOp)),
      Always (StatusOp.step op) CoherenceResourceStatus.Agrees {} ops := by
  intro h
  let c : Coherence := { metadata := { ns := "default", name := "storage" } }
  have hagrees := h default [(1, .call (.setCondition c.toResource { type := .failed, status := .true })),
    (2, .call (.update c (some { readyReplicas := 3, currentReplicas := 3 })))] 2
  exact absurd (hagrees.2 .failed rfl ⟨_, rfl, rfl⟩) (by decide)

end CoherenceOperator
