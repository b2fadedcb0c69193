import CoherenceOperator.Phases.Moves

/-!
# The calls that write the status

What the deployment and the observation ask of the status (`targets`), and every function that writes the
status as the moves to its targets, one after the other (`apply_fst`). The flag and the other fields go
along: `update_eq` and `updateFromJob_eq` say what they are.
-/

namespace CoherenceOperator

namespace CoherenceResourceStatus

variable {op : Operator} {now : ℕ} {s : CoherenceResourceStatus} {p t : ConditionType}

/-- The status with the counts of the pods. -/
def observe (s : CoherenceResourceStatus) (current ready : ℤ) : CoherenceResourceStatus :=
  { s with currentReplicas := current, readyReplicas := ready }

/-- The status with the counts of a Job. -/
def tally (s : CoherenceResourceStatus) (active succeeded failed : ℤ) : CoherenceResourceStatus :=
  { s with active, succeeded, failed }

/-- Move from phase to phase. -/
def moveTo (now : ℕ) (s : CoherenceResourceStatus) (ts : List ConditionType) : CoherenceResourceStatus :=
  ts.foldl (fun s t => (s.setPhase now t).1) s

@[simp] theorem moveTo_nil : s.moveTo now [] = s := rfl

@[simp] theorem moveTo_cons (ts : List ConditionType) : s.moveTo now (t :: ts) = (s.setPhase now t).1.moveTo now ts := rfl

theorem moveTo_append (ts us : List ConditionType) : s.moveTo now (ts ++ us) = (s.moveTo now ts).moveTo now us :=
  List.foldl_append

/-- Moves change the phase and the conditions only. -/
theorem moveTo_eq (now : ℕ) (s : CoherenceResourceStatus) (ts : List ConditionType) :
    s.moveTo now ts = { s with phase := (s.moveTo now ts).phase, conditions := (s.moveTo now ts).conditions } := by
  induction ts generalizing s with
  | nil => rfl
  | cons t ts ih =>
    obtain ⟨phase, cs, hs'⟩ : ∃ phase cs, (s.setPhase now t).1 = { s with phase := phase, conditions := cs } :=
      ⟨_, _, setPhase_fst⟩
    rw [moveTo_cons, ih, hs']

/-- Entering a phase is a move to it, which is flagged. -/
theorem enter_eq (updated : Bool) :
    s.enter now t updated = ((s.setPhase now t).1, updated || decide (s.phase ≠ some t)) := by
  unfold enter
  by_cases h : s.phase = some t
  · rw [setPhase_self h]
    simp [h]
  · rw [if_pos h, setPhase_of_ne h]
    simp [h]

/-- Entering a phase in which the status is not yet, if something holds. -/
theorem enterIf_eq {q : Prop} [Decidable q] (updated : Bool) (hq : q) :
    (if s.phase ≠ some t ∧ q then s.setPhase now t else (s, updated)) =
      ((s.setPhase now t).1, updated || decide (s.phase ≠ some t)) := by
  rw [← enter_eq, enter]
  simp [hq]

/-- The flag of the moves: is there one that changes something? -/
def movesTo (now : ℕ) (s : CoherenceResourceStatus) : List ConditionType → Bool
  | [] => false
  | t :: ts => decide (s.phase ≠ some t) || (s.setPhase now t).1.movesTo now ts

end CoherenceResourceStatus

/-! ### What is asked for -/

/-- The StatefulSet has reached the revision it is to have, with all pods there and ready. -/
def Coherence.IsReady (c : Coherence) (sts : Option StatefulSetStatus) : Prop :=
  ∃ o ∈ sts, o.currentRevision = o.updateRevision ∧ c.getReplicas = o.readyReplicas ∧ c.getReplicas = o.currentReplicas

/-- The StatefulSet is on the way to another revision. -/
def Coherence.IsUpgrading (sts : Option StatefulSetStatus) : Prop := ∃ o ∈ sts, o.currentRevision ≠ o.updateRevision

/-- No pod is wanted. -/
def Coherence.IsStopped (c : Coherence) : Prop := c.spec.getReplicas = 0

/-- The pods that a Job has ready: what it does not tell stays as it was. -/
def CoherenceResourceStatus.readyOf (s : CoherenceResourceStatus) (job : JobStatus) : ℤ := job.ready.getD s.readyReplicas

/-- All pods of the Job are there and ready. -/
def CoherenceJob.IsReady (c : CoherenceJob) (s : CoherenceResourceStatus) (job : Option JobStatus) : Prop :=
  ∃ o ∈ job, c.spec.getJobReplicas = s.readyOf o ∧ c.spec.getJobReplicas = o.active + o.succeeded

/-- The Job is complete. -/
def CoherenceJob.IsComplete (job : Option JobStatus) : Prop := ∃ o ∈ job, o.completionTime.isSome

/-- No pod is wanted. -/
def CoherenceJob.IsStopped (c : CoherenceJob) : Prop := c.spec.getJobReplicas = 0

instance (c : Coherence) (sts : Option StatefulSetStatus) : Decidable (c.IsReady sts) :=
  inferInstanceAs (Decidable (∃ o ∈ sts, _))

instance (sts : Option StatefulSetStatus) : Decidable (Coherence.IsUpgrading sts) :=
  inferInstanceAs (Decidable (∃ o ∈ sts, _))

instance (c : Coherence) : Decidable c.IsStopped := inferInstanceAs (Decidable (_ = _))

instance (c : CoherenceJob) (s : CoherenceResourceStatus) (job : Option JobStatus) : Decidable (c.IsReady s job) :=
  inferInstanceAs (Decidable (∃ o ∈ job, _))

instance (job : Option JobStatus) : Decidable (CoherenceJob.IsComplete job) :=
  inferInstanceAs (Decidable (∃ o ∈ job, _))

instance (c : CoherenceJob) : Decidable c.IsStopped := inferInstanceAs (Decidable (_ = _))

/-- The phases that a StatefulSet asks for. -/
def Coherence.targets (c : Coherence) (sts : Option StatefulSetStatus) : List ConditionType :=
  (if c.IsReady sts then [.ready] else []) ++ (if Coherence.IsUpgrading sts then [.rollingUpgrade] else []) ++
    if c.IsStopped then [.stopped] else []

/-- The phases that a Job asks for. -/
def CoherenceJob.targets (c : CoherenceJob) (s : CoherenceResourceStatus) (job : Option JobStatus) : List ConditionType :=
  (if c.IsReady s job then [.ready] else []) ++ (if CoherenceJob.IsComplete job then [.completed] else []) ++
    if c.IsStopped then [.stopped] else []

namespace CoherenceResourceStatus

variable {op : Operator} {now : ℕ} {s : CoherenceResourceStatus} {p t : ConditionType}

/-- The counts of a StatefulSet that is not there are zero. -/
def currentOf (sts : Option StatefulSetStatus) : ℤ := (sts.map (·.currentReplicas)).getD 0

def readyCountOf (sts : Option StatefulSetStatus) : ℤ := (sts.map (·.readyReplicas)).getD 0

@[simp] theorem movesTo_nil : s.movesTo now [] = false := rfl

@[simp] theorem movesTo_cons (ts : List ConditionType) :
    s.movesTo now (t :: ts) = (decide (s.phase ≠ some t) || (s.setPhase now t).1.movesTo now ts) := rfl

theorem movesTo_append (ts us : List ConditionType) :
    s.movesTo now (ts ++ us) = (s.movesTo now ts || (s.moveTo now ts).movesTo now us) := by
  induction ts generalizing s with
  | nil => simp
  | cons t ts ih => simp [ih, Bool.or_assoc]

/-- No move changes anything if each is to the phase. -/
theorem movesTo_eq_false {ts : List ConditionType} : s.movesTo now ts = false ↔ ∀ t ∈ ts, s.phase = some t := by
  induction ts with
  | nil => simp
  | cons t ts ih =>
    by_cases h : s.phase = some t
    · rw [movesTo_cons, setPhase_self h]
      simpa [h] using ih
    · simp [h]

theorem moveTo_of_phase {ts : List ConditionType} (h : ∀ t ∈ ts, s.phase = some t) : s.moveTo now ts = s := by
  induction ts with
  | nil => rfl
  | cons t ts ih =>
    rw [List.forall_mem_cons] at h
    rw [moveTo_cons, setPhase_self h.1]
    exact ih h.2

/-- `Completed` is not left, and entered only when it is asked for. -/
theorem phase_moveTo_eq_completed {ts : List ConditionType} (hts : .completed ∉ ts) :
    (s.moveTo now ts).phase = some .completed ↔ s.phase = some .completed := by
  induction ts generalizing s with
  | nil => rfl
  | cons t ts ih =>
    rw [List.mem_cons, not_or] at hts
    rw [moveTo_cons, ih hts.2, phase_setPhase, next]
    by_cases h : s.phase = some .completed
    · simp [h]
    · simp [h, Ne.symm hts.1]

theorem phase_begun_eq_completed (op : Operator) (now : ℕ) (d : CoherenceResource) :
    (s.begun op now d).phase = some .completed ↔ s.phase = some .completed := by
  rw [phase_begun, next]
  split
  · rfl
  · by_cases h : s.phase = some .completed <;> simp [h]

/-- The condition of a phase that is entered is recorded. -/
theorem records_setPhase_self (h : s.phase ≠ some p) :
    (s.setPhase now p).1.conditions.Records { type := p, status := .true } := by
  rw [setPhase_of_ne h]
  exact Conditions.records_setCondition_self _ _ _

theorem records_moveTo {c : Condition} {ts : List ConditionType} (hc : isTransient c.type = false) (hts : c.type ∉ ts) :
    (s.moveTo now ts).conditions.Records c ↔ s.conditions.Records c := by
  induction ts generalizing s with
  | nil => rfl
  | cons t ts ih =>
    rw [List.mem_cons, not_or] at hts
    rw [moveTo_cons, ih hts.2, records_setPhase hc hts.1]

theorem has_moveTo {ts : List ConditionType} (ht : isTransient t = false) (hts : t ∉ ts) :
    (s.moveTo now ts).conditions.Has t ↔ s.conditions.Has t := by
  induction ts generalizing s with
  | nil => rfl
  | cons u ts ih =>
    rw [List.mem_cons, not_or] at hts
    rw [moveTo_cons, ih hts.2, has_setPhase ht]
    simp [hts.1]

/-- On a resource that is complete, a phase whose condition is recorded is entered without a trace. -/
theorem setPhase_of_completed (hphase : s.phase = some .completed)
    (hrec : s.conditions.Records { type := p, status := .true }) : (s.setPhase now p).1 = s := by
  by_cases h : s.phase = some p
  · rw [setPhase_self h]
  · have hleave : s.leave now = s := by
      rw [leave, hphase]
      rfl
    rw [setPhase_of_ne h, hleave, next_of_completed hphase, mark, Conditions.setCondition_of_records hrec, ← hphase]

/-- The counts that are there already change nothing. -/
theorem observe_eq_self {current ready : ℤ} (hcurrent : s.currentReplicas = current) (hready : s.readyReplicas = ready) :
    s.observe current ready = s := by
  subst hcurrent hready
  rfl

theorem tally_eq_self {active succeeded failed : ℤ} (ha : s.active = active) (hs : s.succeeded = succeeded)
    (hf : s.failed = failed) : s.tally active succeeded failed = s := by
  subst ha hs hf
  rfl

theorem step_eq_false {α : Type} [DecidableEq α] {old new : α} {updated : Bool} :
    step old new updated = false ↔ updated = false ∧ old = new := by
  simp [step]

/-- **What `Update` does.** -/
theorem update_eq (c : Coherence) (sts : Option StatefulSetStatus) :
    let s' := (s.begun op now c.toResource).observe (currentOf sts) (readyCountOf sts)
    s.update op now c sts = (s'.moveTo now (c.targets sts),
      step s.readyReplicas (readyCountOf sts)
        (step s.currentReplicas (currentOf sts) (s.ensureInitialized op now c.toResource).2) ||
          s'.movesTo now (c.targets sts)) := by
  intro s'
  have hbegun : s.ensureInitialized op now c.toResource =
      (s.begun op now c.toResource, (s.ensureInitialized op now c.toResource).2) := by
    rw [ensureInitialized_eq]
  have hstop : ∀ (r : CoherenceResourceStatus) (v : Bool),
      (if c.spec.getReplicas = 0 then r.enter now .stopped v else (r, v)) =
        (r.moveTo now (if c.IsStopped then [.stopped] else []),
          v || r.movesTo now (if c.IsStopped then [.stopped] else [])) := by
    intro r v
    by_cases h : c.spec.getReplicas = 0
    · rw [if_pos h, if_pos (show c.IsStopped from h), enter_eq]
      simp
    · rw [if_neg h, if_neg (show ¬ c.IsStopped from h)]
      simp
  unfold update
  rw [hbegun]
  generalize (s.ensureInitialized op now c.toResource).2 = u
  simp only [hstop, Coherence.targets, moveTo_append, movesTo_append]
  cases sts with
  | none =>
    simp only [Coherence.IsReady, Coherence.IsUpgrading, Option.not_mem_none, false_and, exists_false, if_false]
    rfl
  | some o =>
    by_cases hrev : o.currentRevision = o.updateRevision
    · have hup : ¬ Coherence.IsUpgrading (some o) := by
        rintro ⟨_, ⟨⟩, h⟩
        exact h hrev
      by_cases hready : c.getReplicas = o.readyReplicas ∧ c.getReplicas = o.currentReplicas
      · have hr : c.IsReady (some o) := ⟨o, rfl, hrev, hready⟩
        simp only [hrev, hr, hup, if_true, if_false, moveTo_cons, moveTo_nil, movesTo_cons, movesTo_nil,
          Bool.or_false, ← Bool.or_assoc]
        exact congrArg (fun r : CoherenceResourceStatus × Bool => (r.1.moveTo now (if c.IsStopped then [.stopped] else []),
          r.2 || r.1.movesTo now (if c.IsStopped then [.stopped] else []))) (enterIf_eq (s := s') _ hready)
      · have hr : ¬ c.IsReady (some o) := by
          rintro ⟨_, ⟨⟩, _, h⟩
          exact hready h
        simp only [hrev, hr, hup, if_true, if_false]
        rw [if_neg fun h => hready h.2]
        rfl
    · have hr : ¬ c.IsReady (some o) := by
        rintro ⟨_, ⟨⟩, h, _⟩
        exact hrev h
      have hup : Coherence.IsUpgrading (some o) := ⟨o, rfl, hrev⟩
      simp only [hrev, hr, hup, if_true, if_false, enter_eq, moveTo_cons, moveTo_nil, movesTo_cons,
        movesTo_nil, Bool.or_false, ← Bool.or_assoc]
      rfl

/-- The pods that a Job has, running or done. -/
def countOf (job : Option JobStatus) : ℤ := (job.getD {}).active + (job.getD {}).succeeded

/-- The pods that are ready when there is a Job, or none. -/
def jobReadyOf (s : CoherenceResourceStatus) (job : Option JobStatus) : ℤ := (job.map s.readyOf).getD 0

theorem setPhase_tally (active succeeded failed : ℤ) : (s.tally active succeeded failed).setPhase now p =
    ((s.setPhase now p).1.tally active succeeded failed, (s.setPhase now p).2) := by
  obtain ⟨phase, cs, hs'⟩ : ∃ phase cs, (s.setPhase now p).1 = { s with phase := phase, conditions := cs } :=
    ⟨_, _, setPhase_fst⟩
  rw [setPhase_of_same (s := s) now p (s.tally active succeeded failed) rfl rfl, hs']
  rfl

/-- The flag when the Job was looked at for its readiness and its completion: the completion assigns it. -/
def jobFlag (now : ℕ) (r : CoherenceResourceStatus) (job : Option JobStatus)
    (ready : List ConditionType) (updated : Bool) : Bool :=
  if CoherenceJob.IsComplete job then decide ((r.moveTo now ready).phase ≠ some .completed)
  else updated || r.movesTo now ready

/-- **What `UpdateFromJob` does.** -/
theorem updateFromJob_eq (c : CoherenceJob) (job : Option JobStatus) (probes : List CoherenceJobProbeStatus) :
    let s' := (s.begun op now c.toResource).observe (countOf job) (s.jobReadyOf job)
    let o := job.getD {}
    s.updateFromJob op now c job probes =
      ((s'.moveTo now (c.targets s job)).tally o.active o.succeeded o.failed).updateProbes probes
        (step s.failed o.failed (step s.succeeded o.succeeded (step s.active o.active
          (s'.jobFlag now job (if c.IsReady s job then [.ready] else []) (step s.readyReplicas (s.jobReadyOf job) (step s.currentReplicas (countOf job)
            (s.ensureInitialized op now c.toResource).2))))) ||
          (s'.moveTo now ((if c.IsReady s job then [.ready] else []) ++
            if CoherenceJob.IsComplete job then [.completed] else [])).movesTo now (if c.IsStopped then [.stopped] else [])) := by
  intro s' o
  have hbegun : s.ensureInitialized op now c.toResource =
      (s.begun op now c.toResource, (s.ensureInitialized op now c.toResource).2) := by
    rw [ensureInitialized_eq]
  have hstop : ∀ (r : CoherenceResourceStatus) (v : Bool),
      (if c.spec.getJobReplicas = 0 then (r.tally o.active o.succeeded o.failed).enter now .stopped v
        else (r.tally o.active o.succeeded o.failed, v)) =
        ((r.moveTo now (if c.IsStopped then [.stopped] else [])).tally o.active o.succeeded o.failed,
          v || r.movesTo now (if c.IsStopped then [.stopped] else [])) := by
    intro r v
    by_cases h : c.spec.getJobReplicas = 0
    · rw [if_pos h, if_pos (show c.IsStopped from h), enter_eq, setPhase_tally]
      simp only [moveTo_cons, moveTo_nil, movesTo_cons, movesTo_nil, Bool.or_false]
      rfl
    · rw [if_neg h, if_neg (show ¬ c.IsStopped from h)]
      simp
  unfold updateFromJob
  rw [hbegun]
  generalize (s.ensureInitialized op now c.toResource).2 = u
  simp only [CoherenceJob.targets, moveTo_append]
  have hprobes : ∀ (r : CoherenceResourceStatus × Bool) (s : CoherenceResourceStatus) (v : Bool), r = (s, v) →
      r.1.updateProbes probes r.2 = s.updateProbes probes v := by
    rintro _ _ _ rfl
    rfl
  cases job with
  | none =>
    simp only [CoherenceJob.IsReady, CoherenceJob.IsComplete, Option.not_mem_none, false_and, exists_false, if_false,
      jobFlag, moveTo_nil, movesTo_nil, Bool.or_false]
    exact hprobes _ _ _ (hstop s' _)
  | some j =>
    set ready : List ConditionType := if c.IsReady s (some j) then [.ready] else [] with hready
    have hmove : ∀ v, (if s'.phase ≠ some ConditionType.ready ∧ s'.replicas = s'.readyReplicas ∧ s'.replicas = s'.currentReplicas
        then s'.setPhase now ConditionType.ready else (s', v)) = (s'.moveTo now ready, v || s'.movesTo now ready) := by
      intro v
      by_cases h : s'.replicas = s'.readyReplicas ∧ s'.replicas = s'.currentReplicas
      · rw [enterIf_eq _ h, hready, if_pos (show c.IsReady s (some j) from ⟨j, rfl, h⟩)]
        simp only [moveTo_cons, moveTo_nil, movesTo_cons, movesTo_nil, Bool.or_false]
      · have hr : ¬ c.IsReady s (some j) := by
          rintro ⟨_, ⟨⟩, hr⟩
          exact h hr
        rw [if_neg fun h' => h h'.2, hready, if_neg hr]
        simp
    have hcomplete : ∀ (r : CoherenceResourceStatus) (v : Bool),
        (if j.completionTime.isSome then r.setPhase now .completed else (r, v)) =
          (r.moveTo now (if CoherenceJob.IsComplete (some j) then [.completed] else []),
            if CoherenceJob.IsComplete (some j) then decide (r.phase ≠ some .completed) else v) := by
      intro r v
      by_cases h : j.completionTime.isSome = true
      · rw [if_pos h, if_pos (show CoherenceJob.IsComplete (some j) from ⟨j, rfl, h⟩),
          if_pos (show CoherenceJob.IsComplete (some j) from ⟨j, rfl, h⟩)]
        rw [moveTo_cons, moveTo_nil, ← setPhase_snd now]
      · have hc : ¬ CoherenceJob.IsComplete (some j) := by
          rintro ⟨_, ⟨⟩, hc⟩
          exact h hc
        rw [if_neg h, if_neg hc, if_neg hc]
        simp
    let counted := step s.readyReplicas (s.jobReadyOf (some j)) (step s.currentReplicas (countOf (some j)) u)
    let r₁ := if s'.phase ≠ some ConditionType.ready ∧ s'.replicas = s'.readyReplicas ∧ s'.replicas = s'.currentReplicas
      then s'.setPhase now ConditionType.ready else (s', counted)
    let r₂ := if j.completionTime.isSome then r₁.1.setPhase now .completed else r₁
    let updated := step r₂.1.failed j.failed (step r₂.1.succeeded j.succeeded (step r₂.1.active j.active r₂.2))
    refine Eq.trans ?_ (hprobes (if c.spec.getJobReplicas = 0 then (r₂.1.tally j.active j.succeeded j.failed).enter now .stopped updated
      else (r₂.1.tally j.active j.succeeded j.failed, updated)) _ _ ((hstop r₂.1 updated).trans ?_))
    · rfl
    · have h₁ : r₁ = (s'.moveTo now ready, counted || s'.movesTo now ready) := hmove counted
      have h₂ : r₂ = (r₁.1.moveTo now (if CoherenceJob.IsComplete (some j) then [.completed] else []),
          s'.jobFlag now (some j) ready counted) := by
        refine (hcomplete r₁.1 r₁.2).trans ?_
        rw [h₁, jobFlag]
      have hfields : r₂.1.failed = s.failed ∧ r₂.1.succeeded = s.succeeded ∧ r₂.1.active = s.active := by
        rw [h₂, h₁, moveTo_eq, moveTo_eq now s' ready]
        exact ⟨rfl, rfl, rfl⟩
      simp only [updated, hfields.1, hfields.2.1, hfields.2.2]
      rw [h₂, h₁]
      rfl

/-- The condition that a ready resource has. -/
def readyCondition : Condition := { type := .ready, status := .true }

end CoherenceResourceStatus

/-- What `UpdateFromJob` changes before it looks at the completion of the Job. -/
def CoherenceJob.ChangesBeforeCompletion (op : Operator) (c : CoherenceJob) (job : Option JobStatus)
    (s : CoherenceResourceStatus) : Prop :=
  ¬ s.conditions.Has .initialized ∨ s.FirstChanges c.toResource ∨ s.LaterChanges op c.toResource ∨
    s.currentReplicas ≠ CoherenceResourceStatus.countOf job ∨ s.readyReplicas ≠ s.jobReadyOf job ∨
    (c.IsReady s job ∧ ¬ s.conditions.Records CoherenceResourceStatus.readyCondition)

namespace CoherenceResourceStatus

variable {op : Operator} {now : ℕ} {s : CoherenceResourceStatus} {p t : ConditionType}

/-- On a resource that is complete: the status before the completion of the Job is looked at is the old one exactly if
nothing changes. -/
theorem moveTo_ready_eq_self_iff (op : Operator) (now : ℕ) (c : CoherenceJob) (job : Option JobStatus) (hphase : s.phase = some .completed) :
    ((s.begun op now c.toResource).observe (countOf job) (s.jobReadyOf job)).moveTo now
        (if c.IsReady s job then [.ready] else []) = s ↔ ¬ c.ChangesBeforeCompletion op job s := by
  set r := (s.begun op now c.toResource).observe (countOf job) (s.jobReadyOf job) with hr
  set ready : List ConditionType := if c.IsReady s job then [.ready] else [] with hready
  simp only [CoherenceJob.ChangesBeforeCompletion, not_or, not_not, not_and]
  constructor
  · intro h
    have hfields := moveTo_eq now r ready
    rw [h] at hfields
    have hnot : ∀ t : ConditionType, t ≠ .ready → t ∉ ready := by
      intro t ht
      rw [hready]
      split <;> simp [ht]
    have hhas : s.conditions.Has .initialized := by
      rw [← h, has_moveTo rfl (hnot _ (by decide))]
      exact (has_begun op now s c.toResource).2 (Or.inr (by rw [hphase]; decide))
    have hversion : s.conditions.Records (versionedBy op) := by
      rw [← h, records_moveTo rfl (hnot _ (fun h => by cases h))]
      exact Conditions.records_setCondition_self _ _ _
    refine ⟨hhas, ?_, ?_, congrArg (·.currentReplicas) hfields, congrArg (·.readyReplicas) hfields, ?_⟩
    · rintro (hh | hh | hh)
      · exact hh (congrArg (·.hash) hfields)
      · exact hh (congrArg (·.replicas) hfields)
      · exact hh (congrArg (·.coherenceCluster) hfields)
    · rintro (hh | hh | hh | hh)
      · have hsel := congrArg (·.selector) hfields
        rw [hh] at hsel
        exact selectorOf_ne c.toResource hsel.symm
      · exact hh (congrArg (·.role) hfields)
      · exact hh (congrArg (·.type) hfields)
      · exact hh hversion
    · intro hisready
      rw [hready, if_pos hisready] at h
      rw [← h]
      refine records_setPhase_self ?_
      have hr' : r.phase = some .completed := (phase_begun_eq_completed op now c.toResource).2 hphase
      rw [hr']
      decide
  · rintro ⟨hhas, hfirst, hlater, hcurrent, hrr, hrec⟩
    have hself : r = s := by
      rw [hr, begun_eq_self (Or.inl hhas) hfirst hlater, observe_eq_self hcurrent hrr]
    rw [hself, hready]
    split
    · rename_i h
      exact setPhase_of_completed hphase (hrec h)
    · rfl

theorem updateProbes_nil (updated : Bool) : s.updateProbes [] updated = (s, updated) := rfl

/-- The flag at the completion of a resource that is complete. -/
theorem jobFlag_of_completed {job : Option JobStatus} {ready : List ConditionType} {updated : Bool}
    (hdone : CoherenceJob.IsComplete job) (h : (s.moveTo now ready).phase = some .completed) :
    s.jobFlag now job ready updated = false := by
  rw [jobFlag, if_pos hdone, h]
  rfl

/-- **What `SetCondition` does.** -/
theorem setCondition_eq (d : CoherenceResource) (c : Condition) : setCondition op now d c =
    ((d.status.begun op now d).moveTo now [c.type],
      (d.status.begun op now d).movesTo now [c.type] || (d.status.ensureInitialized op now d).2) := by
  have hbegun : d.status.ensureInitialized op now d =
      (d.status.begun op now d, (d.status.ensureInitialized op now d).2) := by
    rw [ensureInitialized_eq]
  unfold setCondition
  rw [hbegun]
  by_cases h : (d.status.begun op now d).phase = some c.type
  · simp [h, setPhase_self h]
  · simp [h, setPhase_of_ne h]

theorem conditions_updateProbes (probes : List CoherenceJobProbeStatus) (updated : Bool) :
    (s.updateProbes probes updated).1.phase = s.phase ∧ (s.updateProbes probes updated).1.conditions = s.conditions := by
  unfold updateProbes
  split
  · exact ⟨rfl, rfl⟩
  · split <;> exact ⟨rfl, rfl⟩

end CoherenceResourceStatus

/-! ### The calls -/

/-- A call that writes the status of a deployment, with what it is given. -/
inductive StatusCall where
  | setCondition (d : CoherenceResource) (c : Condition)
  | update (c : Coherence) (sts : Option StatefulSetStatus)
  | updateFromJob (c : CoherenceJob) (job : Option JobStatus) (probes : List CoherenceJobProbeStatus)

namespace StatusCall

variable (op : Operator) (now : ℕ) (s : CoherenceResourceStatus)

/-- The deployment of the call, with its status. -/
def resource : StatusCall → CoherenceResource
  | setCondition d _ => { d with status := s }
  | update c _ => c.toResource
  | updateFromJob c _ _ => c.toResource

/-- The new status and the flag. `SetCondition` starts from the status of the deployment. -/
def apply : StatusCall → CoherenceResourceStatus × Bool
  | setCondition d c => CoherenceResourceStatus.setCondition op now { d with status := s } c
  | update c sts => s.update op now c sts
  | updateFromJob c job probes => s.updateFromJob op now c job probes

/-- The phases that the call asks for, the first one apart. -/
def targets : StatusCall → List ConditionType
  | setCondition _ c => [c.type]
  | update c sts => c.targets sts
  | updateFromJob c job _ => c.targets s job

/-- **What a call does to the phase and the conditions**: it moves to its targets. -/
theorem apply_eq (call : StatusCall) : ∃ r : CoherenceResourceStatus,
    r.phase = (s.begun op now (call.resource s)).phase ∧ r.conditions = (s.begun op now (call.resource s)).conditions ∧
      (call.apply op now s).1.phase = (r.moveTo now (call.targets s)).phase ∧
      (call.apply op now s).1.conditions = (r.moveTo now (call.targets s)).conditions := by
  cases call with
  | setCondition d c =>
    refine ⟨s.begun op now { d with status := s }, rfl, rfl, ?_⟩
    rw [apply, CoherenceResourceStatus.setCondition_eq]
    exact ⟨rfl, rfl⟩
  | update c sts =>
    refine ⟨(s.begun op now c.toResource).observe (CoherenceResourceStatus.currentOf sts) (CoherenceResourceStatus.readyCountOf sts), rfl, rfl, ?_⟩
    rw [apply, CoherenceResourceStatus.update_eq]
    exact ⟨rfl, rfl⟩
  | updateFromJob c job probes =>
    refine ⟨(s.begun op now c.toResource).observe (CoherenceResourceStatus.countOf job) (s.jobReadyOf job), rfl, rfl, ?_⟩
    rw [apply, CoherenceResourceStatus.updateFromJob_eq]
    exact CoherenceResourceStatus.conditions_updateProbes _ _

end StatusCall

end CoherenceOperator
