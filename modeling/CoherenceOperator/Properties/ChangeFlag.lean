import CoherenceOperator.Phases.Calls

/-!
# The flag of a change

The flag that a call returns misses a change in two ways. `ensureInitialized` assigns it when the
`Initialized` condition is missing, and the move to the phase that is there already returns false: the changes before are
forgotten. `UpdateFromJob` assigns it when the Job is complete: on a resource that is complete already, everything before is
forgotten.
-/

namespace CoherenceOperator

namespace StatusCall

variable (op : Operator) (now : ℕ)

/-- The status of the deployment of the call. -/
def status : StatusCall → CoherenceResourceStatus
  | setCondition d _ => d.status
  | update c _ => c.status
  | updateFromJob c _ _ => c.status

/-- If the call changes a copy of the status of its deployment, the flag says so. -/
def IsFlagged (call : StatusCall) : Prop :=
  (call.apply op now call.status).1 ≠ call.status → (call.apply op now call.status).2 = true

/-- The changes of the number of replicas and of the cluster are forgotten, and nothing changes after them. -/
def ForgetsFirst (s : CoherenceResourceStatus) (d : CoherenceResource) : Prop :=
  s.phase = some .initialized ∧ ¬ s.conditions.Has .initialized ∧ s.FirstChanges d ∧ ¬ s.LaterChanges op d

end StatusCall

namespace CoherenceResourceStatus

variable {op : Operator} {now : ℕ} {s : CoherenceResourceStatus} {d : CoherenceResource}

/-- `ensureInitialized` returns false: nothing changed, or the first changes are forgotten. -/
theorem ensureInitialized_snd_eq_false_iff : (s.ensureInitialized op now d).2 = false ↔
    s.begun op now d = s ∨ StatusCall.ForgetsFirst op s d := by
  rw [ensureInitialized_snd_eq_false, begun_eq_self_iff, StatusCall.ForgetsFirst]
  by_cases hhas : s.conditions.Has .initialized
  · simp [hhas]
  · by_cases hfirst : s.FirstChanges d <;> simp [hhas, hfirst]

/-- What is forgotten is a change. -/
theorem begun_ne_of_forgetsFirst (h : StatusCall.ForgetsFirst op s d) : s.begun op now d ≠ s := by
  rw [Ne, begun_eq_self_iff]
  exact fun hself => hself.2.1 h.2.2.1

/-! ### Probes -/

/-- A probe status that is not taken over leaves the list as it is. -/
theorem updateProbe_of_false {p : CoherenceJobProbeStatus} {ps : List CoherenceJobProbeStatus}
    (h : (updateProbe p ps).2 = false) : (updateProbe p ps).1 = ps := by
  induction ps with
  | nil => cases h
  | cons q qs ih =>
    unfold updateProbe at h ⊢
    by_cases hpod : q.pod = p.pod
    · have hkeep : ∀ later : Bool, (if later = true then ({ p with pod := q.pod } :: qs, true) else (q :: qs, false)).2 = false →
          (if later = true then ({ p with pod := q.pod } :: qs, true) else (q :: qs, false)).1 = q :: qs := by
        intro later hl
        cases later with
        | true => cases hl
        | false => rfl
      rw [if_pos hpod] at h ⊢
      exact hkeep _ h
    · rw [if_neg hpod] at h ⊢
      exact congrArg (q :: ·) (ih h)

/-- The probe statuses that `UpdateFromJob` takes over: there is one that is new, or later. -/
def ProbesChange (s : CoherenceResourceStatus) (probes : List CoherenceJobProbeStatus) : Prop :=
  (s.updateProbes probes false).2 = true

/-- The fold over the probe statuses: its flag, and what it keeps when this is false. -/
theorem foldl_updateProbe (ps : List CoherenceJobProbeStatus) (acc : List CoherenceJobProbeStatus × Bool)
    (h : (ps.foldl (fun (acc : List CoherenceJobProbeStatus × Bool) p =>
      ((updateProbe p acc.1).1, acc.2 || (updateProbe p acc.1).2)) acc).2 = false) :
    acc.2 = false ∧ (ps.foldl (fun (acc : List CoherenceJobProbeStatus × Bool) p =>
      ((updateProbe p acc.1).1, acc.2 || (updateProbe p acc.1).2)) acc).1 = acc.1 := by
  induction ps generalizing acc with
  | nil => exact ⟨h, rfl⟩
  | cons p ps ih =>
    rw [List.foldl_cons] at h ⊢
    obtain ⟨hflag, hlist⟩ := ih _ h
    rw [Bool.or_eq_false_iff] at hflag
    exact ⟨hflag.1, hlist.trans (updateProbe_of_false hflag.2)⟩

/-- Which probes change something is a matter of the list that is there. -/
theorem probesChange_congr {s' : CoherenceResourceStatus} {probes : List CoherenceJobProbeStatus}
    (h : s.jobProbes = s'.jobProbes) : s.ProbesChange probes ↔ s'.ProbesChange probes := by
  unfold ProbesChange updateProbes
  rw [h]
  split_ifs <;> rfl

/-- The flag from before and that of the probes. -/
theorem updateProbes_snd {probes : List CoherenceJobProbeStatus} (updated : Bool) :
    (s.updateProbes probes updated).2 = false ↔ updated = false ∧ ¬ s.ProbesChange probes := by
  unfold ProbesChange updateProbes
  split_ifs <;> simp

/-- Probes that change nothing leave the status as it is. -/
theorem updateProbes_fst {probes : List CoherenceJobProbeStatus} (h : ¬ s.ProbesChange probes) (updated : Bool) :
    (s.updateProbes probes updated).1 = s := by
  unfold ProbesChange updateProbes at h
  unfold updateProbes
  split_ifs at h ⊢ with hnil hprobes
  · rfl
  · exact absurd rfl h
  · simp only [Bool.false_or, Bool.not_eq_true] at h
    exact congrArg (fun qs => { s with jobProbes := qs }) (foldl_updateProbe probes (s.jobProbes, false) h).2

/-- A change that the flag does not tell, with the probes at the end. -/
theorem updateProbes_unflagged {s' : CoherenceResourceStatus} {probes : List CoherenceJobProbeStatus} {updated : Bool} :
    ((s.updateProbes probes updated).2 = false ∧ (s.updateProbes probes updated).1 ≠ s') ↔
      (updated = false ∧ ¬ s.ProbesChange probes) ∧ s ≠ s' := by
  rw [updateProbes_snd]
  refine and_congr_right fun h => ?_
  rw [updateProbes_fst h.2]

end CoherenceResourceStatus

/-! ### What is not flagged -/

namespace StatusCall

/-- The counts of the Job are those of the status. -/
def IsTallied (s : CoherenceResourceStatus) (job : Option JobStatus) : Prop :=
  s.active = (job.getD {}).active ∧ s.succeeded = (job.getD {}).succeeded ∧ s.failed = (job.getD {}).failed

/-- The call asks for nothing after `ensureInitialized`: no phase but `Initialized`, and no other count. -/
def IsQuiet : StatusCall → Prop
  | setCondition _ c => c.type = .initialized
  | update c sts => c.status.currentReplicas = CoherenceResourceStatus.currentOf sts ∧
      c.status.readyReplicas = CoherenceResourceStatus.readyCountOf sts ∧
      ¬ c.IsReady sts ∧ ¬ Coherence.IsUpgrading sts ∧ ¬ c.IsStopped
  | updateFromJob c job probes => c.status.currentReplicas = CoherenceResourceStatus.countOf job ∧
      c.status.readyReplicas = c.status.jobReadyOf job ∧ IsTallied c.status job ∧ ¬ c.status.ProbesChange probes ∧
      ¬ c.IsReady c.status job ∧ ¬ CoherenceJob.IsComplete job ∧ ¬ c.IsStopped

/-- The changes that `ensureInitialized` makes first are forgotten, and nothing changes after it. -/
def ForgetsAtStart (op : Operator) (call : StatusCall) : Prop :=
  ForgetsFirst op call.status (call.resource call.status) ∧ call.IsQuiet

/-- The resource is complete and so is its Job; something changes before this is looked at, and nothing after it. -/
def ForgetsAtCompletion (op : Operator) : StatusCall → Prop
  | updateFromJob c job probes =>
    (c.status.phase = some .completed ∧ CoherenceJob.IsComplete job ∧ c.ChangesBeforeCompletion op job c.status) ∧
      IsTallied c.status job ∧ ¬ c.IsStopped ∧ ¬ c.status.ProbesChange probes
  | _ => False

end StatusCall

section

variable {op : Operator} {now : ℕ} {s : CoherenceResourceStatus}

theorem isFlagged_iff {call : StatusCall} : call.IsFlagged op now ↔
    ¬ ((call.apply op now call.status).2 = false ∧ (call.apply op now call.status).1 ≠ call.status) := by
  unfold StatusCall.IsFlagged
  rw [not_and', Bool.not_eq_false]

/-- What `ensureInitialized` and the moves after it do without a flag. -/
theorem forgets_iff (op : Operator) (now : ℕ) (s : CoherenceResourceStatus) (d : CoherenceResource)
    (ts : List ConditionType) :
    (((s.ensureInitialized op now d).2 = false ∧ ∀ t ∈ ts, (s.begun op now d).phase = some t) ∧ s.begun op now d ≠ s) ↔
      StatusCall.ForgetsFirst op s d ∧ ∀ t ∈ ts, t = .initialized := by
  rw [CoherenceResourceStatus.ensureInitialized_snd_eq_false_iff]
  constructor
  · rintro ⟨⟨hforgets, hphase⟩, hne⟩
    have hf : StatusCall.ForgetsFirst op s d := hforgets.resolve_left hne
    refine ⟨hf, fun t ht => ?_⟩
    have hp := hphase t ht
    rw [CoherenceResourceStatus.phase_begun, if_neg hf.2.1, CoherenceResourceStatus.next, hf.1,
      if_neg (by decide), Option.some.injEq] at hp
    exact hp.symm
  · rintro ⟨hf, hts⟩
    refine ⟨⟨Or.inr hf, fun t ht => ?_⟩, CoherenceResourceStatus.begun_ne_of_forgetsFirst hf⟩
    rw [CoherenceResourceStatus.phase_begun, if_neg hf.2.1, CoherenceResourceStatus.next, hf.1, if_neg (by decide),
      hts t ht]

theorem isFlagged_setCondition (d : CoherenceResource) (c : Condition) :
    (StatusCall.setCondition d c).IsFlagged op now ↔ ¬ (StatusCall.setCondition d c).ForgetsAtStart op := by
  rw [isFlagged_iff, StatusCall.apply, CoherenceResourceStatus.setCondition_eq]
  refine not_congr ?_
  show _ ↔ StatusCall.ForgetsFirst op d.status d ∧ c.type = .initialized
  have h := forgets_iff op now d.status d [c.type]
  rw [List.forall_mem_singleton, List.forall_mem_singleton] at h
  rw [← h]
  dsimp only
  rw [Bool.or_eq_false_iff, CoherenceResourceStatus.movesTo_eq_false, List.forall_mem_singleton, and_comm (a := _ = some c.type)]
  refine and_congr_right fun hquiet => ?_
  rw [CoherenceResourceStatus.moveTo_of_phase (by simpa using hquiet.2)]
  rfl

theorem isFlagged_update (c : Coherence) (sts : Option StatefulSetStatus) :
    (StatusCall.update c sts).IsFlagged op now ↔ ¬ (StatusCall.update c sts).ForgetsAtStart op := by
  rw [isFlagged_iff, StatusCall.apply, CoherenceResourceStatus.update_eq]
  refine not_congr ?_
  show _ ↔ StatusCall.ForgetsFirst op c.status c.toResource ∧ (StatusCall.update c sts).IsQuiet
  have h := forgets_iff op now c.status c.toResource (c.targets sts)
  have htargets : (∀ t ∈ c.targets sts, t = .initialized) ↔ ¬ c.IsReady sts ∧ ¬ Coherence.IsUpgrading sts ∧ ¬ c.IsStopped := by
    simp only [Coherence.targets]
    split_ifs <;> simp_all
  rw [StatusCall.IsQuiet, ← htargets]
  dsimp only [StatusCall.status]
  rw [Bool.or_eq_false_iff, CoherenceResourceStatus.movesTo_eq_false, CoherenceResourceStatus.step_eq_false, CoherenceResourceStatus.step_eq_false]
  constructor
  · rintro ⟨⟨⟨⟨hflag, hcurrent⟩, hready⟩, hphase⟩, hne⟩
    rw [CoherenceResourceStatus.moveTo_of_phase hphase, CoherenceResourceStatus.observe_eq_self (by exact hcurrent) (by exact hready)] at hne
    obtain ⟨hforgets, htargets⟩ := h.1 ⟨⟨hflag, hphase⟩, hne⟩
    exact ⟨hforgets, hcurrent, hready, htargets⟩
  · rintro ⟨hforgets, hcurrent, hready, htargets⟩
    obtain ⟨⟨hflag, hphase⟩, hne⟩ := h.2 ⟨hforgets, htargets⟩
    refine ⟨⟨⟨⟨hflag, hcurrent⟩, hready⟩, hphase⟩, ?_⟩
    rw [CoherenceResourceStatus.observe_eq_self (by exact hcurrent) (by exact hready),
      CoherenceResourceStatus.moveTo_of_phase hphase]
    exact hne

theorem isFlagged_updateFromJob (c : CoherenceJob) (job : Option JobStatus) (probes : List CoherenceJobProbeStatus) :
    (StatusCall.updateFromJob c job probes).IsFlagged op now ↔
      ¬ (StatusCall.updateFromJob c job probes).ForgetsAtStart op ∧
        ¬ (StatusCall.updateFromJob c job probes).ForgetsAtCompletion op := by
  rw [isFlagged_iff, ← not_or]
  refine not_congr ?_
  show (c.status.updateFromJob op now c job probes).2 = false ∧ (c.status.updateFromJob op now c job probes).1 ≠ c.status ↔ _
  rw [CoherenceResourceStatus.updateFromJob_eq, CoherenceResourceStatus.updateProbes_unflagged, Bool.or_eq_false_iff,
    CoherenceResourceStatus.step_eq_false, CoherenceResourceStatus.step_eq_false, CoherenceResourceStatus.step_eq_false]
  set r := (c.status.begun op now c.toResource).observe (CoherenceResourceStatus.countOf job) (c.status.jobReadyOf job) with hr
  set ready : List ConditionType := if c.IsReady c.status job then [.ready] else [] with hready
  have hprobes : ((r.moveTo now (c.targets c.status job)).tally (job.getD {}).active (job.getD {}).succeeded
      (job.getD {}).failed).ProbesChange probes ↔ c.status.ProbesChange probes := by
    rw [CoherenceResourceStatus.moveTo_eq]
    exact CoherenceResourceStatus.probesChange_congr rfl
  have htally : ∀ ts : List ConditionType, StatusCall.IsTallied c.status job →
      (r.moveTo now ts).tally (job.getD {}).active (job.getD {}).succeeded (job.getD {}).failed = r.moveTo now ts := by
    intro ts h
    rw [CoherenceResourceStatus.moveTo_eq now r ts]
    exact CoherenceResourceStatus.tally_eq_self h.1 h.2.1 h.2.2
  by_cases hdone : CoherenceJob.IsComplete job
  · have hstart : ¬ (StatusCall.updateFromJob c job probes).ForgetsAtStart op := fun h => h.2.2.2.2.2.2.1 hdone
    have hnot : .completed ∉ ready := by
      rw [hready]
      split <;> simp
    have hphase : (r.moveTo now ready).phase = some .completed ↔ c.status.phase = some .completed := by
      rw [CoherenceResourceStatus.phase_moveTo_eq_completed hnot]
      exact CoherenceResourceStatus.phase_begun_eq_completed op now c.toResource
    have hstay : c.status.phase = some .completed → r.moveTo now (ready ++ [.completed]) = r.moveTo now ready := by
      intro h
      rw [CoherenceResourceStatus.moveTo_append, CoherenceResourceStatus.moveTo_cons,
        CoherenceResourceStatus.setPhase_self (hphase.2 h), CoherenceResourceStatus.moveTo_nil]
    have htargets : ¬ c.IsStopped → c.targets c.status job = ready ++ [.completed] := by
      intro h
      rw [CoherenceJob.targets, if_pos hdone, if_neg h, List.append_nil]
    rw [CoherenceResourceStatus.jobFlag, if_pos hdone, if_pos hdone, decide_eq_false_iff_not, not_not, hphase, hprobes]
    simp only [hstart, false_or, StatusCall.ForgetsAtCompletion, hdone, true_and]
    constructor
    · rintro ⟨⟨⟨⟨⟨⟨hcompleted, ha⟩, hs⟩, hf⟩, hstop⟩, hprobe⟩, hne⟩
      have hstopped : ¬ c.IsStopped := by
        intro h
        rw [if_pos h, hstay hcompleted, CoherenceResourceStatus.movesTo_eq_false, List.forall_mem_singleton,
          hphase.2 hcompleted] at hstop
        cases hstop
      rw [htally _ ⟨ha, hs, hf⟩, htargets hstopped,
        hstay hcompleted, Ne, CoherenceResourceStatus.moveTo_ready_eq_self_iff op now c job hcompleted, not_not] at hne
      exact ⟨⟨hcompleted, hne⟩, ⟨ha, hs, hf⟩, hstopped, hprobe⟩
    · rintro ⟨⟨hcompleted, hne⟩, ⟨ha, hs, hf⟩, hstopped, hprobe⟩
      refine ⟨⟨⟨⟨⟨⟨hcompleted, ha⟩, hs⟩, hf⟩, ?_⟩, hprobe⟩, ?_⟩
      · rw [if_neg hstopped, CoherenceResourceStatus.movesTo_nil]
      · rw [htally _ ⟨ha, hs, hf⟩, htargets hstopped,
          hstay hcompleted, Ne, CoherenceResourceStatus.moveTo_ready_eq_self_iff op now c job hcompleted, not_not]
        exact hne
  · have hcompletion : ¬ (StatusCall.updateFromJob c job probes).ForgetsAtCompletion op := fun h => hdone h.1.2.1
    have htargets : c.targets c.status job = ready ++ if c.IsStopped then [.stopped] else [] := by
      rw [CoherenceJob.targets, if_neg hdone, List.append_nil]
    have hquiet : (∀ t ∈ c.targets c.status job, t = .initialized) ↔ ¬ c.IsReady c.status job ∧ ¬ c.IsStopped := by
      rw [htargets, hready]
      split_ifs <;> simp_all
    have h := forgets_iff op now c.status c.toResource (c.targets c.status job)
    rw [CoherenceResourceStatus.jobFlag, if_neg hdone, if_neg hdone, List.append_nil, Bool.or_eq_false_iff, CoherenceResourceStatus.step_eq_false,
      CoherenceResourceStatus.step_eq_false, hprobes]
    simp only [hcompletion, or_false]
    show _ ↔ StatusCall.ForgetsFirst op c.status c.toResource ∧ (StatusCall.updateFromJob c job probes).IsQuiet
    rw [StatusCall.IsQuiet]
    constructor
    · rintro ⟨⟨⟨⟨⟨⟨⟨⟨⟨hflag, hcurrent⟩, hrr⟩, hmoves⟩, ha⟩, hs⟩, hf⟩, hstop⟩, hprobe⟩, hne⟩
      have hself : r = c.status.begun op now c.toResource := CoherenceResourceStatus.observe_eq_self hcurrent hrr
      have hnone : r.movesTo now (c.targets c.status job) = false := by
        rw [htargets, CoherenceResourceStatus.movesTo_append, hmoves, hstop]
        rfl
      rw [CoherenceResourceStatus.movesTo_eq_false] at hnone
      rw [htally _ ⟨ha, hs, hf⟩, CoherenceResourceStatus.moveTo_of_phase hnone, hself] at hne
      rw [hself] at hnone
      obtain ⟨hforgets, hall⟩ := h.1 ⟨⟨hflag, hnone⟩, hne⟩
      obtain ⟨hisready, hstopped⟩ := hquiet.1 hall
      exact ⟨hforgets, hcurrent, hrr, ⟨ha, hs, hf⟩, hprobe, hisready, hdone, hstopped⟩
    · rintro ⟨hforgets, hcurrent, hrr, ⟨ha, hs, hf⟩, hprobe, hisready, -, hstopped⟩
      have hself : r = c.status.begun op now c.toResource := CoherenceResourceStatus.observe_eq_self hcurrent hrr
      obtain ⟨⟨hflag, hnone⟩, hne⟩ := h.2 ⟨hforgets, hquiet.2 ⟨hisready, hstopped⟩⟩
      have hmoves : r.movesTo now ready = false ∧
          (r.moveTo now ready).movesTo now (if c.IsStopped then [.stopped] else []) = false := by
        rw [← Bool.or_eq_false_iff, ← CoherenceResourceStatus.movesTo_append, ← htargets,
          CoherenceResourceStatus.movesTo_eq_false, hself]
        exact hnone
      refine ⟨⟨⟨⟨⟨⟨⟨⟨⟨hflag, hcurrent⟩, hrr⟩, hmoves.1⟩, ha⟩, hs⟩, hf⟩, hmoves.2⟩, hprobe⟩, ?_⟩
      rw [htally _ ⟨ha, hs, hf⟩, hself, CoherenceResourceStatus.moveTo_of_phase hnone]
      exact hne

/-- **The flag**: a call tells every change exactly if it is not one of the two kinds that forget. -/
theorem statusCall_isFlagged_iff (op : Operator) (now : ℕ) (call : StatusCall) :
    call.IsFlagged op now ↔ ¬ call.ForgetsAtStart op ∧ ¬ call.ForgetsAtCompletion op := by
  cases call with
  | setCondition d c =>
    rw [isFlagged_setCondition]
    exact (and_iff_left fun h => h).symm
  | update c sts =>
    rw [isFlagged_update]
    exact (and_iff_left fun h => h).symm
  | updateFromJob c job probes => exact isFlagged_updateFromJob c job probes

/-- A job that is complete is asked for another replica: the status takes the number over, and the flag is false. -/
theorem not_forall_isFlagged : ¬ ∀ (op : Operator) (now : ℕ) (call : StatusCall), call.IsFlagged op now := by
  intro h
  let status : CoherenceResourceStatus :=
    { phase := some .completed
      coherenceCluster := "storage"
      type := some .job
      replicas := 1
      currentReplicas := 1
      succeeded := 1
      role := "storage"
      selector := "coherenceCluster=storage,coherenceDeployment=storage"
      conditions :=
        [{ type := .initialized, status := .true }, { type := .versioned, status := .true, message := "999.0.0" },
          { type := .completed, status := .true }] }
  let c : CoherenceJob := { metadata := { ns := "default", name := "storage" }, spec := { replicas := some 2 }, status }
  have hflag := h default 1 (.updateFromJob c (some { succeeded := 1, completionTime := some 1 }) [])
  exact absurd (hflag (by decide)) (by decide)

end

end CoherenceOperator
