import CoherenceOperator.Phases.Calls

/-!
# Writing the status twice

After a call that looks at the pods, the same call with the same observation is to change nothing. It changes nothing
exactly if the phases the observation asks for do not undo each other, the resource is not complete while the
observation says otherwise, and the `Initialized` condition was recorded.
-/

namespace CoherenceOperator

namespace CoherenceResourceStatus

variable {op : Operator} {now later : ℕ} {s : CoherenceResourceStatus} {d : CoherenceResource} {ts : List ConditionType}

theorem firstChanges_moveTo : (s.moveTo now ts).FirstChanges d ↔ s.FirstChanges d := by
  rw [moveTo_eq]
  exact Iff.rfl

theorem laterChanges_moveTo (hts : .versioned ∉ ts) : (s.moveTo now ts).LaterChanges op d ↔ s.LaterChanges op d := by
  have hversion : (s.moveTo now ts).conditions.Records (versionedBy op) ↔ s.conditions.Records (versionedBy op) :=
    records_moveTo rfl hts
  unfold LaterChanges
  rw [hversion, moveTo_eq]

/-- After the moves of a call `ensureInitialized` has nothing more to do, but perhaps to introduce the phase. -/
theorem ensureInitialized_moveTo {r : CoherenceResourceStatus} (hts : .versioned ∉ ts)
    (hr : r.FirstChanges d ↔ (s.begun op now d).FirstChanges d)
    (hr' : r.LaterChanges op d ↔ (s.begun op now d).LaterChanges op d)
    (hintro : (r.moveTo now ts).conditions.Has .initialized ∨ (r.moveTo now ts).phase = some .initialized) :
    (r.moveTo now ts).ensureInitialized op later d = (r.moveTo now ts, false) := by
  obtain ⟨hfirst, hlater⟩ := not_changes_begun op now s d
  refine ensureInitialized_eq_self hintro ?_ ?_
  · rwa [firstChanges_moveTo, hr]
  · rwa [laterChanges_moveTo hts, hr']

end CoherenceResourceStatus

namespace StatusCall

/-- The same call, later, on the status that it left changes nothing and says so. -/
def Settles (op : Operator) (now later : ℕ) (s : CoherenceResourceStatus) (call : StatusCall) : Prop :=
  call.apply op later (call.apply op now s).1 = ((call.apply op now s).1, false)

end StatusCall

/-- The phase `Initialized` has no condition. -/
def IsUnrecorded (s : CoherenceResourceStatus) : Prop :=
  s.phase = some .initialized ∧ ¬ s.conditions.Has .initialized

/-- What a StatefulSet asks for is undone by the next call: it is stopped as well, or the resource is complete, or the
phase `Initialized` was not recorded. -/
def Coherence.IsUndone (c : Coherence) (sts : Option StatefulSetStatus) (s : CoherenceResourceStatus) : Prop :=
  (c.IsStopped ∧ (c.IsReady sts ∨ Coherence.IsUpgrading sts)) ∨
    ((s.phase = some .completed ∨ IsUnrecorded s) ∧ (c.IsReady sts ∨ Coherence.IsUpgrading sts ∨ c.IsStopped))

/-- What a Job asks for is undone by the next call. -/
def CoherenceJob.IsUndone (c : CoherenceJob) (job : Option JobStatus) (s : CoherenceResourceStatus) : Prop :=
  (c.IsStopped ∧ (c.IsReady s job ∨ CoherenceJob.IsComplete job ∨ s.phase = some .completed)) ∨
    (c.IsReady s job ∧ ¬ (s.phase = some .completed ↔ CoherenceJob.IsComplete job)) ∨
    (IsUnrecorded s ∧ (c.IsReady s job ∨ CoherenceJob.IsComplete job ∨ c.IsStopped))

section

variable {op : Operator} {now later : ℕ} {s : CoherenceResourceStatus}

open CoherenceResourceStatus

theorem has_initialized_or_of_flag {d : CoherenceResource} (h : (s.ensureInitialized op now d).2 = false) :
    s.conditions.Has .initialized ∨ s.phase = some .initialized := by
  rw [ensureInitialized_snd_eq_false] at h
  by_cases hhas : s.conditions.Has .initialized
  · exact Or.inl hhas
  · rw [if_neg hhas] at h
    exact Or.inr h.1

theorem versioned_notMem_targets {c : Coherence} {sts : Option StatefulSetStatus} : .versioned ∉ c.targets sts := by
  rw [Coherence.targets]
  split_ifs <;> simp

/-- The second call is settled exactly if the phase was introduced and is the one that is asked for. -/
theorem settles_update_iff_phase (c : Coherence) (sts : Option StatefulSetStatus) :
    let s' := ((s.begun op now c.toResource).observe (currentOf sts) (readyCountOf sts)).moveTo now (c.targets sts)
    (StatusCall.update c sts).Settles op now later s ↔
      (s'.conditions.Has .initialized ∨ s'.phase = some .initialized) ∧ ∀ t ∈ c.targets sts, s'.phase = some t := by
  intro s'
  have hfirst : (StatusCall.update c sts).apply op now s = (s', ((StatusCall.update c sts).apply op now s).2) := by
    rw [StatusCall.apply, update_eq]
  rw [StatusCall.Settles, hfirst]
  show s'.update op later c sts = (s', false) ↔ _
  rw [update_eq]
  have hens : (s'.conditions.Has .initialized ∨ s'.phase = some .initialized) →
      s'.ensureInitialized op later c.toResource = (s', false) :=
    ensureInitialized_moveTo versioned_notMem_targets Iff.rfl Iff.rfl
  have hcurrent : s'.currentReplicas = currentOf sts := congrArg (·.currentReplicas) (moveTo_eq now _ (c.targets sts))
  have hready : s'.readyReplicas = readyCountOf sts := congrArg (·.readyReplicas) (moveTo_eq now _ (c.targets sts))
  have hobserve : s'.observe (currentOf sts) (readyCountOf sts) = s' := observe_eq_self hcurrent hready
  constructor
  · intro h
    have hflag := congrArg Prod.snd h
    dsimp only at hflag
    rw [Bool.or_eq_false_iff, step_eq_false, step_eq_false, movesTo_eq_false] at hflag
    obtain ⟨⟨⟨hfalse, -⟩, -⟩, hphase⟩ := hflag
    have hintro := has_initialized_or_of_flag hfalse
    have hbegun : s'.begun op later c.toResource = s' :=
      ensureInitialized_fst.symm.trans (congrArg Prod.fst (hens hintro))
    rw [hbegun, hobserve] at hphase
    exact ⟨hintro, hphase⟩
  · rintro ⟨hintro, hphase⟩
    have hbegun : s'.begun op later c.toResource = s' :=
      ensureInitialized_fst.symm.trans (congrArg Prod.fst (hens hintro))
    rw [hbegun, hobserve, moveTo_of_phase hphase, hens hintro, movesTo_eq_false.2 hphase, hcurrent, hready]
    simp [step]

/-- **Phases that stay**: after the moves to what is asked for, the phase was introduced and is each of those that were asked
for, exactly if these do not undo each other and were recorded. -/
theorem phase_moveTo_settled (now : ℕ) {r : CoherenceResourceStatus} {a b c : Prop} [Decidable a] [Decidable b] [Decidable c]
    (hhas : r.conditions.Has .initialized ↔ s.conditions.Has .initialized ∨ s.phase ≠ some .initialized)
    (hphase : r.phase = if s.conditions.Has .initialized then s.phase else s.next .initialized) (hone : a → ¬ b) :
    let ts : List ConditionType := (if a then [.ready] else []) ++ (if b then [.rollingUpgrade] else []) ++
      if c then [.stopped] else []
    (((r.moveTo now ts).conditions.Has .initialized ∨ (r.moveTo now ts).phase = some .initialized) ∧
      ∀ t ∈ ts, (r.moveTo now ts).phase = some t) ↔
        ¬ ((c ∧ (a ∨ b)) ∨ ((s.phase = some .completed ∨ IsUnrecorded s) ∧ (a ∨ b ∨ c))) := by
  intro ts
  have hhas' : (r.moveTo now ts).conditions.Has .initialized ↔ _ := (has_moveTo rfl (by simp only [ts]; split_ifs <;> simp)).trans hhas
  rw [hhas']
  unfold IsUnrecorded
  by_cases hcompleted : s.phase = some .completed
  · have hr : r.phase = some .completed := by
      rw [hphase, next, hcompleted]
      simp
    by_cases ha : a <;> by_cases hb : b <;> by_cases hc : c <;>
      simp [ts, ha, hb, hc, hcompleted, hr, phase_setPhase, next]
  · have hr : r.phase ≠ some .completed := by
      rw [hphase, next, if_neg hcompleted]
      split
      · exact hcompleted
      · decide
    have hinit : r.phase = some .initialized ↔ s.phase = some .initialized ∨ ¬ s.conditions.Has .initialized := by
      rw [hphase, next, if_neg hcompleted]
      split <;> simp_all
    clear hphase hhas hhas'
    by_cases ha : a <;> by_cases hb : b <;> by_cases hc : c <;>
      simp [ts, ha, hb, hc, hcompleted, hr, phase_setPhase, next, hinit] <;> tauto

theorem settles_update (c : Coherence) (sts : Option StatefulSetStatus) :
    (StatusCall.update c sts).Settles op now later s ↔ ¬ c.IsUndone sts s := by
  refine (settles_update_iff_phase c sts).trans ?_
  refine phase_moveTo_settled now (has_begun op now s c.toResource) (phase_begun op now s c.toResource) ?_
  rintro ⟨o, ho, hrev, -⟩ ⟨o', ho', hrev'⟩
  rw [Option.mem_unique ho' ho] at hrev'
  exact hrev' hrev

theorem versioned_notMem_jobTargets {c : CoherenceJob} {job : Option JobStatus} : .versioned ∉ c.targets s job := by
  rw [CoherenceJob.targets]
  split_ifs <;> simp

/-- The status that the first call leaves. -/
def afterJob (op : Operator) (now : ℕ) (s : CoherenceResourceStatus) (c : CoherenceJob) (job : Option JobStatus) :
    CoherenceResourceStatus :=
  (((s.begun op now c.toResource).observe (countOf job) (s.jobReadyOf job)).moveTo now (c.targets s job)).tally
    (job.getD {}).active (job.getD {}).succeeded (job.getD {}).failed

/-- What the second call sees is what the first one saw. -/
theorem afterJob_spec {c : CoherenceJob} {job : Option JobStatus} {s' : CoherenceResourceStatus}
    (hs' : s' = afterJob op now s c job) :
    ¬ s'.FirstChanges c.toResource ∧ ¬ s'.LaterChanges op c.toResource ∧ s'.currentReplicas = countOf job ∧
      s'.readyReplicas = s.jobReadyOf job ∧ s'.jobReadyOf job = s.jobReadyOf job ∧ (c.IsReady s' job ↔ c.IsReady s job) ∧
      s'.active = (job.getD {}).active ∧ s'.succeeded = (job.getD {}).succeeded ∧ s'.failed = (job.getD {}).failed := by
  set r := (s.begun op now c.toResource).observe (countOf job) (s.jobReadyOf job)
  have hfields := moveTo_eq now r (c.targets s job)
  obtain ⟨hfirst, hlater⟩ := not_changes_begun op now s c.toResource
  have hready : s'.readyReplicas = s.jobReadyOf job := by
    rw [hs']
    exact congrArg (·.readyReplicas) hfields
  have hof : s'.jobReadyOf job = s.jobReadyOf job := by
    cases job with
    | none => rfl
    | some o =>
      show o.ready.getD s'.readyReplicas = o.ready.getD s.readyReplicas
      cases ho : o.ready with
      | some n => rfl
      | none =>
        rw [hready]
        show o.ready.getD s.readyReplicas = s.readyReplicas
        rw [ho]
        rfl
  refine ⟨?_, ?_, ?_, hready, hof, ?_, ?_, ?_, ?_⟩
  · rw [hs']
    exact (firstChanges_moveTo (s := r)).not.2 hfirst
  · rw [hs']
    exact (laterChanges_moveTo (s := r) versioned_notMem_jobTargets).not.2 hlater
  · rw [hs']
    exact congrArg (·.currentReplicas) hfields
  · cases job with
    | none => simp [CoherenceJob.IsReady]
    | some o =>
      have hreadyOf : s'.readyOf o = s.readyOf o := hof
      unfold CoherenceJob.IsReady
      simp [hreadyOf]
  · rw [hs']
    rfl
  · rw [hs']
    rfl
  · rw [hs']
    rfl

/-- Of a Job that is complete, the second call looks at the same completion. -/
theorem settles_complete {c : CoherenceJob} {job : Option JobStatus} (hdone : CoherenceJob.IsComplete job)
    {s' : CoherenceResourceStatus} (hs' : s' = afterJob op now s c job) :
    s'.updateFromJob op later c job [] = (s', false) ↔
      ¬ c.IsStopped ∧ s'.conditions.Has .initialized ∧ (c.IsReady s job → s'.conditions.Records readyCondition) := by
  obtain ⟨hnofirst, hnolater, hcurrent, hrr, hof, hisready, hactive, hsucceeded, hfailed⟩ := afterJob_spec hs'
  have hphase : s'.phase = some .completed := by
    rw [hs']
    show (moveTo now _ _).phase = _
    rw [CoherenceJob.targets, if_pos hdone, moveTo_append, moveTo_append,
      phase_moveTo_eq_completed (by split_ifs <;> simp), moveTo_cons, moveTo_nil, phase_setPhase, next]
    exact ite_self _
  rw [updateFromJob_eq, updateProbes_nil]
  set ready : List ConditionType := if c.IsReady s' job then [.ready] else [] with hready
  set r := (s'.begun op later c.toResource).observe (countOf job) (s'.jobReadyOf job) with hr
  have hrphase : (r.moveTo later ready).phase = some .completed := by
    rw [phase_moveTo_eq_completed (by rw [hready]; split_ifs <;> simp)]
    exact (phase_begun_eq_completed op later c.toResource).2 hphase
  have hstay : r.moveTo later (ready ++ [.completed]) = r.moveTo later ready := by
    rw [moveTo_append, moveTo_cons, setPhase_self hrphase, moveTo_nil]
  have hself : r.moveTo later ready = s' ↔ s'.conditions.Has .initialized ∧
      (c.IsReady s job → s'.conditions.Records readyCondition) := by
    rw [moveTo_ready_eq_self_iff op later c job hphase]
    simp [CoherenceJob.ChangesBeforeCompletion, hnofirst, hnolater, hcurrent, hrr, hof, hisready]
  rw [jobFlag_of_completed hdone hrphase, if_pos hdone, hstay, ← hself]
  by_cases hstop : c.IsStopped
  · have hmoves : (r.moveTo later ready).movesTo later [.stopped] = true := by
      rw [movesTo_cons, hrphase]
      rfl
    rw [if_pos hstop, hmoves, Bool.or_true]
    simp [hstop]
  · have htargets : c.targets s' job = ready ++ [.completed] := by
      rw [CoherenceJob.targets, if_pos hdone, if_neg hstop, List.append_nil]
    rw [htargets, hstay, if_neg hstop, movesTo_nil, Bool.or_false, Prod.mk.injEq, step_eq_false, step_eq_false, step_eq_false]
    have hfields := moveTo_eq later r ready
    have htally : (r.moveTo later ready).tally (job.getD {}).active (job.getD {}).succeeded (job.getD {}).failed =
        r.moveTo later ready := by
      rw [hfields]
      exact tally_eq_self hactive hsucceeded hfailed
    rw [htally]
    simp [hstop, hactive, hsucceeded, hfailed]

/-- Of a Job that is not complete, the second call is settled exactly if the phase was introduced and is the one that is
asked for. -/
theorem settles_incomplete {c : CoherenceJob} {job : Option JobStatus} (hdone : ¬ CoherenceJob.IsComplete job)
    {s' : CoherenceResourceStatus} (hs' : s' = afterJob op now s c job) :
    s'.updateFromJob op later c job [] = (s', false) ↔
      (s'.conditions.Has .initialized ∨ s'.phase = some .initialized) ∧ ∀ t ∈ c.targets s job, s'.phase = some t := by
  obtain ⟨hnofirst, hnolater, hcurrent, hrr, hof, hisready, hactive, hsucceeded, hfailed⟩ := afterJob_spec hs'
  have htargets : c.targets s job = (if c.IsReady s' job then [.ready] else []) ++ if c.IsStopped then [.stopped] else [] := by
    simp only [CoherenceJob.targets, if_neg hdone, List.append_nil, hisready]
  have hobserve : s'.observe (countOf job) (s'.jobReadyOf job) = s' := observe_eq_self hcurrent (hrr.trans hof.symm)
  have htally : s'.tally (job.getD {}).active (job.getD {}).succeeded (job.getD {}).failed = s' :=
    tally_eq_self hactive hsucceeded hfailed
  have hbegun : (s'.conditions.Has .initialized ∨ s'.phase = some .initialized) → s'.begun op later c.toResource = s' :=
    fun h => begun_eq_self h hnofirst hnolater
  rw [updateFromJob_eq, updateProbes_nil, jobFlag, if_neg hdone, if_neg hdone, List.append_nil, CoherenceJob.targets,
    if_neg hdone, List.append_nil, htargets]
  constructor
  · intro h
    have hflag := congrArg Prod.snd h
    dsimp only at hflag
    rw [Bool.or_eq_false_iff, step_eq_false, step_eq_false, step_eq_false, Bool.or_eq_false_iff, step_eq_false,
      step_eq_false] at hflag
    obtain ⟨⟨⟨⟨⟨⟨⟨hfalse, -⟩, -⟩, hmoves⟩, -⟩, -⟩, -⟩, hstop⟩ := hflag
    have hintro := has_initialized_or_of_flag hfalse
    rw [hbegun hintro, hobserve] at hmoves hstop
    have hall : s'.movesTo later ((if c.IsReady s' job then [.ready] else []) ++ if c.IsStopped then [.stopped] else []) =
        false := by
      rw [movesTo_append, hmoves, hstop]
      rfl
    exact ⟨hintro, movesTo_eq_false.1 hall⟩
  · rintro ⟨hintro, hphase⟩
    have hall : s'.movesTo later ((if c.IsReady s' job then [.ready] else []) ++ if c.IsStopped then [.stopped] else []) =
        false := movesTo_eq_false.2 hphase
    rw [movesTo_append, Bool.or_eq_false_iff] at hall
    rw [hbegun hintro, hobserve, moveTo_of_phase hphase, htally, ensureInitialized_eq_self hintro hnofirst hnolater,
      hall.1, hall.2]
    simp [step, hcurrent, hrr, hof, hactive, hsucceeded, hfailed]

/-- A Job that is ready and complete leaves a `Ready` condition that is true, if the resource was complete already. -/
theorem records_ready_completed {c : CoherenceJob} {job : Option JobStatus} {s' : CoherenceResourceStatus}
    (hs' : s' = afterJob op now s c job) (htargets : c.targets s job = [.ready, .completed]) :
    s'.conditions.Records readyCondition ↔ s.phase = some .completed := by
  rw [hs', afterJob, htargets]
  set r := (s.begun op now c.toResource).observe (countOf job) (s.jobReadyOf job)
  have hr : r.phase = some .completed ↔ s.phase = some .completed := phase_begun_eq_completed op now c.toResource
  show (((r.setPhase now .ready).1.setPhase now .completed).1.conditions.Records readyCondition) ↔ _
  by_cases h : s.phase = some .completed
  · have hphase : (r.setPhase now .ready).1.phase = some .completed := by
      rw [phase_setPhase, next_of_completed (hr.2 h)]
    rw [setPhase_self hphase]
    refine iff_of_true (records_setPhase_self ?_) h
    rw [hr.2 h]
    decide
  · have hphase : (r.setPhase now .ready).1.phase = some .ready := by
      rw [phase_setPhase, next_of_ne_completed (hr.not.2 h)]
    refine iff_of_false (fun hrec => ?_) h
    have htrue := Conditions.isTrue_of_records hrec rfl
    rw [isTrue_setPhase (by rw [hphase]; decide)] at htrue
    rcases htrue with hready | ⟨-, hoff⟩
    · cases hready
    · exact hoff ⟨hphase, rfl⟩

theorem settles_updateFromJob (c : CoherenceJob) (job : Option JobStatus) :
    (StatusCall.updateFromJob c job []).Settles op now later s ↔ ¬ c.IsUndone job s := by
  obtain ⟨u, hfirst⟩ : ∃ u, (StatusCall.updateFromJob c job []).apply op now s = (afterJob op now s c job, u) := by
    rw [StatusCall.apply, updateFromJob_eq]
    exact ⟨_, rfl⟩
  rw [StatusCall.Settles, hfirst]
  obtain ⟨s', hs'⟩ : ∃ s', s' = afterJob op now s c job := ⟨_, rfl⟩
  rw [← hs']
  show s'.updateFromJob op later c job [] = (s', false) ↔ _
  have hhas : s'.conditions.Has .initialized ↔ s.conditions.Has .initialized ∨ s.phase ≠ some .initialized := by
    rw [hs', ← has_begun op now s c.toResource]
    refine has_moveTo rfl ?_
    rw [CoherenceJob.targets]
    split_ifs <;> simp
  by_cases hdone : CoherenceJob.IsComplete job
  · rw [settles_complete hdone hs', hhas]
    unfold CoherenceJob.IsUndone IsUnrecorded
    by_cases hstop : c.IsStopped
    · simp [hstop, hdone]
    · have hrecords : c.IsReady s job → (s'.conditions.Records readyCondition ↔ s.phase = some .completed) := by
        intro hready
        have htargets : c.targets s job = [.ready, .completed] := by
          rw [CoherenceJob.targets, if_pos hready, if_pos hdone, if_neg hstop]
          rfl
        exact records_ready_completed hs' htargets
      by_cases hready : c.IsReady s job
      · simp [hstop, hdone, hready, hrecords hready]
        tauto
      · simp [hstop, hdone, hready]
        tauto
  · have htargets : c.targets s job = (if c.IsReady s job then [.ready] else []) ++
        (if False then [.rollingUpgrade] else []) ++ if c.IsStopped then [.stopped] else [] := by
      rw [CoherenceJob.targets, if_neg hdone, if_neg not_false]
    have hiff := phase_moveTo_settled (a := c.IsReady s job) (b := False) (c := c.IsStopped)
      (r := (s.begun op now c.toResource).observe (countOf job) (s.jobReadyOf job)) now (has_begun op now s c.toResource) (phase_begun op now s c.toResource) (fun _ h => h)
    rw [settles_incomplete hdone hs', htargets]
    refine (Iff.trans ?_ hiff).trans ?_
    · rw [hs', afterJob, htargets]
      exact Iff.rfl
    · unfold CoherenceJob.IsUndone
      by_cases hready : c.IsReady s job <;> by_cases hstop : c.IsStopped <;> simp [hdone, hready, hstop]

/-- **Twice is once**: the second call changes nothing and says so, exactly if what is asked for is not undone. -/
theorem settles_iff (op : Operator) (now later : ℕ) (s : CoherenceResourceStatus) :
    (∀ (c : Coherence) (sts : Option StatefulSetStatus),
      (StatusCall.update c sts).Settles op now later s ↔ ¬ c.IsUndone sts s) ∧
    ∀ (c : CoherenceJob) (job : Option JobStatus),
      (StatusCall.updateFromJob c job []).Settles op now later s ↔ ¬ c.IsUndone job s :=
  ⟨settles_update, settles_updateFromJob⟩

/-- A StatefulSet that was scaled to zero: every update goes to `Ready` and to `Stopped` again. -/
theorem not_forall_settles :
    ¬ ∀ (op : Operator) (now later : ℕ) (s : CoherenceResourceStatus) (c : Coherence) (sts : Option StatefulSetStatus),
      (StatusCall.update c sts).Settles op now later s := by
  intro h
  have hsettles := h default 1 2 {} { metadata := { ns := "default", name := "storage" }, spec := { replicas := some 0 } }
    (some {})
  exact absurd (congrArg Prod.snd hsettles) (by decide)

end

end CoherenceOperator
