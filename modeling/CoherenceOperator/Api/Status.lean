import CoherenceOperator.Api.Deployment

/-!
# The status of a resource

How the status changes: the phase with the conditions that go with it, and what is taken over from
the `StatefulSet` or the `Job`. Every function returns the new status and the flag that tells the
caller whether there is something to write. The flag is computed as the code does, which sometimes assigns it
where it should accumulate.
-/

namespace CoherenceOperator

namespace CoherenceResourceStatus

variable (op : Operator) (now : ℕ) (s : CoherenceResourceStatus)

/-- Set a condition of the status that has no reason and no message. -/
def mark (t : ConditionType) (status : ConditionStatus) : CoherenceResourceStatus :=
  { s with conditions := (s.conditions.setCondition now { type := t, status := status }).1 }

/-- The phases that end when the next one begins: their condition becomes false. -/
def isTransient : ConditionType → Bool
  | .ready | .scaling | .rollingUpgrade | .waiting | .stopped => true
  | _ => false

/-- `setPhase`. -/
def setPhase (phase : ConditionType) : CoherenceResourceStatus × Bool :=
  if s.phase = some phase then (s, false)
  else
    let left := match s.phase with
      | some old => if isTransient old then s.mark now old .false else s
      | none => s
    let left := if left.phase = some .completed then left else { left with phase := some phase }
    (left.mark now phase .true, true)

/-- `if in.F != v { in.F = v; updated = true }`: the flag of one such step. -/
def step {α : Type} [DecidableEq α] (old new : α) (updated : Bool) : Bool := updated || old ≠ new

/-- `ensureInitialized`. -/
def ensureInitialized (d : CoherenceResource) : CoherenceResourceStatus × Bool :=
  let updated := step s.hash d.status.hash false
  let s := { s with hash := d.status.hash }
  let updated := step s.replicas d.replicas updated
  let s := { s with replicas := d.replicas }
  let updated := step s.coherenceCluster d.clusterName updated
  let s := { s with coherenceCluster := d.clusterName }
  -- the flag is assigned here
  let (s, updated) := match s.conditions.getCondition .initialized with
    | none => s.setPhase now .initialized
    | some _ => (s, updated)
  let (s, updated) :=
    if s.selector = "" then
      ({ s with selector := s!"coherenceCluster={d.clusterName},coherenceDeployment={d.name}" }, true)
    else (s, updated)
  let updated := step s.role d.roleName updated
  let s := { s with role := d.roleName }
  let updated := step s.type (some d.type) updated
  let s := { s with type := some d.type }
  let (s, changed) := s.setVersion now op.version
  (s, updated || changed)

/-- `SetCondition`: start from the status of the deployment and move to the phase that is the type of the
condition. -/
def setCondition (d : CoherenceResource) (c : Condition) : CoherenceResourceStatus × Bool :=
  let (s, updated) := d.status.ensureInitialized op now d
  if s.phase = some c.type then (s, updated)
  else
    let (s, changed) := s.setPhase now c.type
    (s, changed || updated)

/-- Move to the phase `t` unless it is the phase; the flag is assigned. -/
def enter (t : ConditionType) (updated : Bool) : CoherenceResourceStatus × Bool :=
  if s.phase ≠ some t then s.setPhase now t else (s, updated)

/-- `Update`, from the status of the StatefulSet. -/
def update (c : Coherence) (sts : Option StatefulSetStatus) : CoherenceResourceStatus × Bool :=
  let (s, updated) := s.ensureInitialized op now c.toResource
  let (s, updated) := match sts with
    | some sts =>
      let updated := step s.currentReplicas sts.currentReplicas updated
      let updated := step s.readyReplicas sts.readyReplicas updated
      let s := { s with currentReplicas := sts.currentReplicas, readyReplicas := sts.readyReplicas }
      if sts.currentRevision = sts.updateRevision then
        if s.phase ≠ some ConditionType.ready ∧ s.replicas = s.readyReplicas ∧ s.replicas = s.currentReplicas then
          s.setPhase now ConditionType.ready
        else (s, updated)
      else s.enter now .rollingUpgrade updated
    | none =>
      let updated := step s.readyReplicas 0 (step s.currentReplicas 0 updated)
      ({ s with currentReplicas := 0, readyReplicas := 0 }, updated)
  if c.spec.getReplicas = 0 then s.enter now .stopped updated else (s, updated)

/-- One probe status of `UpdateFromJob`: append it, or take it over if it is later. -/
def updateProbe (p : CoherenceJobProbeStatus) :
    List CoherenceJobProbeStatus → List CoherenceJobProbeStatus × Bool
  | [] => ([p], true)
  | q :: qs =>
    if q.pod = p.pod then
      -- `Before` is false if one of the times is nil
      let before := match q.lastProbeTime, p.lastProbeTime with
        | some t, some t' => decide (t < t')
        | _, _ => false
      if before then ({ p with pod := q.pod } :: qs, true) else (q :: qs, false)
    else
      let (qs', changed) := updateProbe p qs
      (q :: qs', changed)

/-- The probe statuses of `UpdateFromJob`. -/
def updateProbes (ps : List CoherenceJobProbeStatus) (updated : Bool) : CoherenceResourceStatus × Bool :=
  if ps = [] then (s, updated)
  else if s.jobProbes = [] then ({ s with jobProbes := ps }, true)
  else
    let (probes, changed) := ps.foldl
      (fun (acc : List CoherenceJobProbeStatus × Bool) p =>
        let (qs, changed) := updateProbe p acc.1
        (qs, acc.2 || changed)) (s.jobProbes, false)
    ({ s with jobProbes := probes }, updated || changed)

/-- `UpdateFromJob`, from the status of the Job. -/
def updateFromJob (c : CoherenceJob) (job : Option JobStatus) (probes : List CoherenceJobProbeStatus) :
    CoherenceResourceStatus × Bool :=
  let (s, updated) := s.ensureInitialized op now c.toResource
  let (s, updated) := match job with
    | some job =>
      let count := job.active + job.succeeded
      let updated := step s.currentReplicas count updated
      let s := { s with currentReplicas := count }
      let ready := job.ready.getD s.readyReplicas
      let updated := step s.readyReplicas ready updated
      let s := { s with readyReplicas := ready }
      let (s, updated) :=
        if s.phase ≠ some ConditionType.ready ∧ s.replicas = s.readyReplicas ∧ s.replicas = s.currentReplicas then
          s.setPhase now ConditionType.ready
        else (s, updated)
      let (s, updated) := if job.completionTime.isSome then s.setPhase now .completed else (s, updated)
      let updated := step s.active job.active updated
      let updated := step s.succeeded job.succeeded updated
      let updated := step s.failed job.failed updated
      ({ s with active := job.active, succeeded := job.succeeded, failed := job.failed }, updated)
    | none =>
      let updated := step s.readyReplicas 0 (step s.currentReplicas 0 updated)
      let updated := step s.failed 0 (step s.succeeded 0 (step s.active 0 updated))
      ({ s with currentReplicas := 0, readyReplicas := 0, active := 0, succeeded := 0, failed := 0 },
        updated)
  let (s, updated) := if c.spec.getJobReplicas = 0 then s.enter now .stopped updated else (s, updated)
  s.updateProbes probes updated

/-- `FindJobProbeStatus`. -/
def findJobProbeStatus (pod : String) : CoherenceJobProbeStatus :=
  (s.jobProbes.find? fun p => p.pod = pod).getD { pod }

end CoherenceResourceStatus

end CoherenceOperator
