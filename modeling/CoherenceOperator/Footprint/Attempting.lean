import CoherenceOperator.Footprint.Errors
import CoherenceOperator.Footprint.Owners
import CoherenceOperator.Footprint.Remembering
import CoherenceOperator.Footprint.Storing
import CoherenceOperator.Footprint.Workload

/-!
# Attempts of the ready action

A reconcile of a Job attempts the ready action on the Pods that are due, and writes what comes of it into the status of the
CoherenceJob. All that it does before leaves the attempts and the statuses of the probes alone (`World.Steady`), and
what it writes in the end is what was attempted (`World.Recorded`).
-/

namespace CoherenceOperator

open Effect Prog CoherenceResourceStatus

variable {op : Operator} {env : Env} {request : NamespacedName} {w u v : World}

/-- The attempts of ready actions so far, the last one first: the Pod, and since when it was ready. -/
def World.attempts (w : World) : List (String × Option ℕ) :=
  w.log.filterMap fun
    | .attemptReadyAction pod readySince => some (pod, readySince)
    | _ => none

theorem World.attempts_act {a : Act} (h : ∀ pod readySince, a ≠ .attemptReadyAction pod readySince) :
    (Acts.act a w).attempts = w.attempts := by
  cases a with
  | attemptReadyAction pod readySince => exact absurd rfl (h pod readySince)
  | _ => rfl

@[simp] theorem World.attempts_sent {c : ApiCall} : (w.sent c).attempts = w.attempts := attempts_act fun _ _ => by simp

/-- The attempt that a status is about. -/
def CoherenceJobProbeStatus.attempt (p : CoherenceJobProbeStatus) : String × Option ℕ := (p.pod, p.lastReadyTime)

/-! ### Nothing is attempted -/

/-- No attempt was made, and the CoherenceJob has the statuses of probes it had, and is being deleted if it was. -/
structure World.Steady (request : NamespacedName) (w u : World) : Prop where
  attempts : u.attempts = w.attempts
  job : ∀ c', u.coherenceJob.get request = some c' → ∃ c, w.coherenceJob.get request = some c ∧
    (∀ pod, statusOf c'.status.jobProbes pod = statusOf c.status.jobProbes pod) ∧
    c'.metadata.deletionTimestamp = c.metadata.deletionTimestamp

/-- Acts that touch no CoherenceJob, and attempt nothing. -/
def Act.IsSteady : Act → Prop
  | .coherenceJobStatus _ _ | .coherenceJobMetadata _ _ _ | .coherenceJobReplicas _ _ | .attemptReadyAction _ _ => False
  | _ => True

namespace World.Steady

theorem refl : w.Steady request w := ⟨rfl, fun c' hc' => ⟨c', hc', fun _ => rfl, rfl⟩⟩

theorem trans (h : w.Steady request u) (h' : u.Steady request v) : w.Steady request v where
  attempts := h'.attempts.trans h.attempts
  job c' hc' := by
    obtain ⟨c₁, hc₁, hprobes₁, hdeleted₁⟩ := h'.job c' hc'
    obtain ⟨c, hc, hprobes, hdeleted⟩ := h.job c₁ hc₁
    exact ⟨c, hc, fun pod => (hprobes₁ pod).trans (hprobes pod), hdeleted₁.trans hdeleted⟩

theorem act (h : w.Steady request u) {a : Act} (ha : a.IsSteady) : w.Steady request (Acts.act a u) := by
  have hjobs : (Acts.act a u).coherenceJob = u.coherenceJob := by
    cases a with
    | coherenceJobStatus | coherenceJobMetadata | coherenceJobReplicas | attemptReadyAction => exact ha.elim
    | deleteObject | coherenceMetadata =>
      simp only [Acts.act, Act.effect]
      split <;> rfl
    | _ => rfl
  have hattempts : (Acts.act a u).attempts = u.attempts := by
    refine attempts_act ?_
    rintro _ _ rfl
    exact ha
  refine h.trans ⟨hattempts, fun c' hc' => ⟨c', ?_, fun _ => rfl, rfl⟩⟩
  rw [← hjobs]
  exact hc'

theorem sent (h : w.Steady request u) (c : ApiCall) : w.Steady request (u.sent c) := h.act (a := .call c) trivial

/-- A CoherenceJob that is changed in something else. -/
theorem modify {key : NamespacedName} {f : CoherenceJob → CoherenceJob} {a : Act} (h : w.Steady request u)
    (hf : ∀ c, (f c).key = c.key) (hjobs : (Acts.act a u).coherenceJob = u.coherenceJob.modify key f hf)
    (hattempts : (Acts.act a u).attempts = u.attempts)
    (hsame : ∀ c, u.coherenceJob.get key = some c → (f c).status.jobProbes = c.status.jobProbes ∧
      (f c).metadata.deletionTimestamp = c.metadata.deletionTimestamp) : w.Steady request (Acts.act a u) := by
  refine h.trans ⟨hattempts, fun c' hc' => ?_⟩
  rw [hjobs] at hc'
  by_cases hk : request = key
  · subst hk
    rw [Table.get_modify_self, Option.map_eq_some_iff] at hc'
    obtain ⟨c, hc, rfl⟩ := hc'
    obtain ⟨hprobes, hdeleted⟩ := hsame c hc
    refine ⟨c, hc, fun pod => ?_, hdeleted⟩
    rw [hprobes]
  · rw [Table.get_modify_of_ne hk] at hc'
    exact ⟨c', hc', fun _ => rfl, rfl⟩

theorem writeStatus (h : w.Steady request u) {key : NamespacedName} {status : CoherenceResourceStatus}
    (hstatus : ∀ c, u.coherenceJob.get key = some c → status.jobProbes = c.status.jobProbes) :
    w.Steady request (Acts.act (.coherenceJobStatus key status) u) :=
  h.modify (fun c => c.key_withStatus status) rfl rfl fun c hc => ⟨hstatus c hc, rfl⟩

theorem writeMetadata (h : w.Steady request u) {key : NamespacedName} {annotations : Labels} {finalizers : List String} :
    w.Steady request (Acts.act (.coherenceJobMetadata key annotations finalizers) u) := by
  by_cases hgone : (u.coherenceJob.get key).any fun c => isGone c.metadata finalizers
  · refine h.trans ⟨?_, fun c' hc' => ?_⟩
    · rfl
    · simp only [Acts.act, Act.effect, if_pos hgone, Table.get_erase] at hc'
      split at hc'
      · cases hc'
      · exact ⟨c', hc', fun _ => rfl, rfl⟩
  · have hjobs : (Acts.act (.coherenceJobMetadata key annotations finalizers) u).coherenceJob =
        u.coherenceJob.modify key (·.withMetadata annotations finalizers) (·.key_withMetadata annotations finalizers) := by
      simp only [Acts.act, Act.effect, if_neg hgone]
      rfl
    exact h.modify _ hjobs rfl fun _ _ => ⟨rfl, rfl⟩

end World.Steady

theorem keeps_steady {α : Type} {x : Op α} (h : Does Act.IsSteady x) : Keeps (w.Steady request) x :=
  h.keeps fun _ _ ha hu => hu.act ha

theorem isSteady_of_call {a : Act} (h : a.IsCall) : a.IsSteady := by
  cases a with
  | call => trivial
  | _ => exact h.elim

theorem keeps_steady_of_call {α : Type} {x : Op α} (h : Does Act.IsCall x) : Keeps (w.Steady request) x :=
  keeps_steady (h.mono fun _ => isSteady_of_call)

/-- Notes about a Coherence resource. -/
theorem tolerates_steady_coherence : Tolerates op env (w.Steady request) (fun _ => True) .coherence where
  sent _ c hu := hu.sent c
  latest _ _ _ _ := trivial
  annotate _ d annotations hu _ := hu.act (a := .coherenceMetadata d.key annotations d.metadata.finalizers) trivial
  condition _ d condition _ hu _ :=
    hu.act (a := .coherenceStatus d.key (CoherenceResourceStatus.setCondition op env.now d condition).1) trivial

/-- Notes about a CoherenceJob. -/
theorem tolerates_steady : Tolerates op env (w.Steady request) (fun _ => True) .coherenceJob where
  sent _ c hu := hu.sent c
  latest _ _ _ _ := trivial
  annotate _ _ _ hu _ := hu.writeMetadata
  condition u d _ _ hu hd := by
    refine hu.writeStatus fun c hc => ?_
    obtain ⟨c', hc', rfl⟩ := Option.map_eq_some_iff.1 hd
    rw [hc, Option.some.injEq] at hc'
    subst hc'
    exact CoherenceResourceStatus.remembers_setCondition.jobProbes

/-! ### The attempts -/

namespace JobReconciler

variable {st : Storage} {deployment : Deployment} {job : Job} {c : CoherenceJob} {ss : List CoherenceJobProbeStatus}

/-- The Pods that are due, with what comes of the attempts. -/
def due (env : Env) (c : CoherenceJob) : List CoherenceJobProbeStatus := env.pods.filterMap (executeProbe env c.status)

theorem executeProbe_eq_some {status : CoherenceResourceStatus} {pod : Pod} {s : CoherenceJobProbeStatus}
    (h : executeProbe env status pod = some s) :
    shouldExecuteProbe (status.findJobProbeStatus pod.name) pod = true ∧ s.pod = pod.name ∧
      s.lastReadyTime = pod.readySince ∧ s.lastProbeTime = some (env.probedAt pod) := by
  unfold executeProbe at h
  simp only at h
  split at h
  · rename_i hdue
    cases h
    refine ⟨hdue, ?_, rfl, rfl⟩
    show (status.findJobProbeStatus pod.name).pod = pod.name
    rw [findJobProbeStatus_eq]
    cases hstatus : statusOf status.jobProbes pod.name with
    | none => rfl
    | some q => exact pod_of_statusOf hstatus
  · cases h

/-- There is a status for each Pod that is due. -/
theorem mem_due {s : CoherenceJobProbeStatus} : s ∈ due env c ↔ ∃ pod ∈ env.pods, executeProbe env c.status pod = some s :=
  List.mem_filterMap

theorem nodup_due (h : (env.pods.map (·.name)).Nodup) : ((due env c).map (·.pod)).Nodup := by
  refine h.sublist ?_
  unfold due
  induction env.pods with
  | nil => exact List.Sublist.slnil
  | cons pod pods ih =>
    rw [List.filterMap_cons, List.map_cons]
    split
    · exact ih.cons _
    · rename_i s hs
      rw [List.map_cons, (executeProbe_eq_some hs).2.1]
      exact ih.cons_cons _

/-- The probes that are due are run, and that is all. -/
theorem wp_executeProbes {status : CoherenceResourceStatus} {pods : List Pod} :
    Wp (executeProbes env status pods) (fun r v => r = .ok (pods.filterMap (executeProbe env status)) ∧
      v.coherenceJob = u.coherenceJob ∧
      v.attempts = ((pods.filterMap (executeProbe env status)).map (·.attempt)).reverse ++ u.attempts) u := by
  induction pods generalizing u with
  | nil => exact ⟨rfl, rfl, rfl⟩
  | cons pod pods ih =>
    unfold executeProbes
    rw [List.filterMap_cons]
    cases hs : executeProbe env status pod with
    | none => exact ih
    | some s =>
      obtain ⟨-, hpod, hready, -⟩ := executeProbe_eq_some hs
      refine Wp.bind_ok (exec_perform _ _) ?_
      refine Wp.bind ih (fun ss v hv => ?_) fun e v hv => ?_
      · obtain ⟨hss, hjobs, hattempts⟩ := hv
        cases hss
        refine ⟨rfl, hjobs, ?_⟩
        show v.attempts = _
        rw [hattempts, List.map_cons, List.reverse_cons, List.append_assoc, CoherenceJobProbeStatus.attempt, hpod, hready]
        rfl
      · cases hv.1

/-! ### What comes of them is written down -/

/-- What is to be written down can be. -/
structure CanRecord (env : Env) (request : NamespacedName) (w : World) : Prop where
  live : ∀ c, w.coherenceJob.get request = some c → c.metadata.deletionTimestamp = none
  getJob : ∀ n, env.faults n ⟨.get, .job, request⟩ = none
  getCoherenceJob : ∀ n, env.faults n ⟨.get, .coherenceJob, request⟩ = none
  write : ∀ n, env.faults n ⟨.updateStatus, .coherenceJob, request⟩ = none

/-- The probes were attempted, and the CoherenceJob has these statuses, and those it had of other Pods. -/
structure Recorded (request : NamespacedName) (ss : List CoherenceJobProbeStatus) (w v : World) : Prop where
  attempts : v.attempts = (ss.map (·.attempt)).reverse ++ w.attempts
  job : ∀ c', v.coherenceJob.get request = some c' → ∃ c, w.coherenceJob.get request = some c ∧
    (∀ pod, statusOf c'.status.jobProbes pod = (statusOf ss pod).or (statusOf c.status.jobProbes pod)) ∧
    c'.metadata.deletionTimestamp = c.metadata.deletionTimestamp

theorem recorded_nil : Recorded request [] w u ↔ w.Steady request u := by
  constructor
  · rintro ⟨hattempts, hjob⟩
    exact ⟨hattempts, hjob⟩
  · rintro ⟨hattempts, hjob⟩
    exact ⟨hattempts, hjob⟩

theorem jobProbes_updateFromJob {j : Option JobStatus} (hnodup : (ss.map (·.pod)).Nodup)
    (h : ∀ p ∈ ss, ∀ q, statusOf c.status.jobProbes p.pod = some q → IsBefore q p) :
    (ss ≠ [] → (c.status.updateFromJob op env.now c j ss).2 = true) ∧
      ∀ pod, statusOf (c.status.updateFromJob op env.now c j ss).1.jobProbes pod =
        (statusOf ss pod).or (statusOf c.status.jobProbes pod) := by
  obtain ⟨s, updated, hs, heq⟩ : ∃ s updated, c.status.Remembers s ∧
      c.status.updateFromJob op env.now c j ss = s.updateProbes ss updated := exists_updateFromJob_eq c j ss
  rw [heq, ← hs.jobProbes]
  rw [← hs.jobProbes] at h
  exact statusOf_updateProbes hnodup h

/-- **The status of the Job is taken over**, and with it what came of the attempts. -/
theorem wp_updateDeploymentStatus (h : w.Steady request u) (hjobs : v.coherenceJob = u.coherenceJob)
    (hattempts : v.attempts = (ss.map (·.attempt)).reverse ++ u.attempts) (hnodup : (ss.map (·.pod)).Nodup)
    (hlater : ∀ c, w.coherenceJob.get request = some c → ∀ p ∈ ss, ∀ q, statusOf c.status.jobProbes p.pod = some q →
      IsBefore q p) (hcan : ss ≠ [] → CanRecord env request w) :
    Wp (updateDeploymentStatus op env request ss) (fun _ x => Recorded request ss w x) v := by
  have hattempts' : v.attempts = (ss.map (·.attempt)).reverse ++ w.attempts := by rw [hattempts, h.attempts]
  have hidle : ∀ x : World, x.coherenceJob = v.coherenceJob → x.attempts = v.attempts → ss = [] → Recorded request ss w x := by
    rintro x hx hx' rfl
    refine recorded_nil.2 (h.trans ⟨hx'.trans hattempts, fun c' hc' => ⟨c', ?_, fun _ => rfl, rfl⟩⟩)
    rw [← hjobs, ← hx]
    exact hc'
  -- a request that fails is one that nothing depends on
  have hfails : ∀ (call : ApiCall) (x : World), (CanRecord env request w → ∀ n, env.faults n call = none) →
      (∃ n f, env.faults n call = some f) → x.coherenceJob = v.coherenceJob → x.attempts = v.attempts →
      Recorded request ss w x := by
    rintro call x hnone ⟨n, f, hf⟩ hx hx'
    refine hidle x hx hx' ?_
    by_contra hss
    rw [hnone (hcan hss) n] at hf
    cases hf
  refine wp_read_bind_iff (fun e hf => hfails _ _ (·.getJob) hf rfl World.attempts_sent) ?_
  refine wp_read_bind_iff (fun e hf => hfails _ _ (·.getCoherenceJob) hf rfl (by simp)) ?_
  set y := (v.sent ⟨.get, .job, request⟩).sent ⟨.get, .coherenceJob, request⟩ with hy
  have hsent : y.attempts = v.attempts := by rw [hy, World.attempts_sent, World.attempts_sent]
  set j := ((v.sent ⟨.get, .job, request⟩).job request).map (·.status)
  have hget : y.coherenceJob.get request = v.coherenceJob.get request := rfl
  cases hc : y.coherenceJob.get request with
  | none =>
    refine ⟨hsent.trans hattempts', fun c' hc' => ?_⟩
    have hsome : y.coherenceJob.get request = some c' := hc'
    rw [hc] at hsome
    cases hsome
  | some c =>
    obtain ⟨c₀, hc₀, hprobes, hdeleted⟩ := h.job c (by rw [← hjobs, ← hget, hc])
    obtain ⟨hflag, hstatus⟩ : (ss ≠ [] → (c.status.updateFromJob op env.now c j ss).2 = true) ∧
        ∀ pod, statusOf (c.status.updateFromJob op env.now c j ss).1.jobProbes pod =
          (statusOf ss pod).or (statusOf c.status.jobProbes pod) := by
      refine jobProbes_updateFromJob hnodup fun p hp q hq => hlater c₀ hc₀ p hp q ?_
      rw [← hprobes, hq]
    rcases hr : c.status.updateFromJob op env.now c j ss with ⟨status, changed⟩
    rw [hr] at hflag hstatus
    have hwrite : Wp (writeCoherenceJobStatus env .updateStatus request status) (fun _ x => Recorded request ss w x) y := by
      refine wp_change_iff (fun e he => ?_) fun _ _ => ?_
      · rcases he with hf | hnone
        · exact hfails _ _ (·.write) hf rfl (World.attempts_sent.trans hsent)
        · have hsome : y.coherenceJob.get request = none := hnone
          rw [hc] at hsome
          cases hsome
      · refine ⟨?_, fun c' hc' => ⟨c₀, hc₀, ?_⟩⟩
        · rw [World.attempts_act fun _ _ => by simp, World.attempts_sent, hsent, hattempts']
        simp only [Acts.act, Act.effect, World.modifyCoherenceJob, Table.get_modify_self, World.coherenceJob_sent, hc,
          Option.map_some, Option.some.injEq] at hc'
        subst hc'
        refine ⟨fun pod => ?_, hdeleted⟩
        rw [← hprobes]
        exact hstatus pod
    simp only [hr]
    split
    · rename_i hsome
      refine hidle y rfl hsent ?_
      by_contra hss
      rw [hdeleted, (hcan hss).live c₀ hc₀] at hsome
      cases hsome
    · split
      · exact hwrite
      · rename_i hnot
        refine hidle y rfl hsent ?_
        by_contra hss
        exact hnot (hflag hss)

theorem keeps_updateDeploymentStatus_nil : Keeps (w.Steady request) (updateDeploymentStatus op env request []) := by
  intro u hu
  refine recorded_nil.1 (wp_updateDeploymentStatus hu rfl rfl List.nodup_nil (fun _ _ _ hp => ?_) fun hne => ?_)
  · cases hp
  · exact absurd rfl hne

/-! ### A reconcile -/

theorem keeps_handleErrAndRequeue_steady {e : GoError} : Keeps (w.Steady request) (handleErrAndRequeue op env e deployment) :=
  keeps_handleErrAndRequeue_of tolerates_steady_coherence tolerates_steady

theorem permits_steady : Permits op env (w.Steady request) request st deployment where
  call := keeps_steady_of_call
  condition _ _ := tolerates_steady.keeps_updateStatusCondition (.inr rfl)
  create _ := keeps_steady (Secondary.does_create (fun _ ha => isSteady_of_call ha) fun _ _ _ _ => trivial)
  patch _ hkind hkey := keeps_steady (does_patchObject_of (fun _ ha => isSteady_of_call ha) hkind hkey fun _ _ _ => trivial)
  handled _ := keeps_handleErrAndRequeue_steady
  report := keeps_updateDeploymentStatus_nil

theorem does_changeStatus_steady {key : NamespacedName} {f : CoherenceResourceStatus → CoherenceResourceStatus} :
    Does Act.IsSteady (changeStatus env key f) := by
  refine Does.bind (Op.does_wrapError (does_read trivial)) fun c => ?_
  cases c with
  | none => exact Does.pure _
  | some c =>
    refine Does.ite (fun _ => Does.pure _) fun _ => Op.does_wrapError (Does.ite (fun _ => Does.pure _) fun _ => ?_)
    exact does_change trivial trivial

theorem keeps_deleteJob_steady : Keeps (w.Steady request) (deleteJob env request deployment) := by
  refine keeps_steady (Does.ite (fun _ => Secondary.does_delete trivial trivial) fun _ => ?_)
  exact Does.bind (Op.does_ignoreError does_changeStatus_steady) fun _ => Secondary.does_delete trivial trivial

/-- Without a CoherenceJob nothing is attempted. -/
theorem keeps_probeAndReport_steady (h : ∀ c, deployment ≠ .coherenceJob (some c)) :
    Keeps (w.Steady request) (probeAndReport op env request deployment job) := by
  intro u hu
  cases deployment with
  | nil => exact hu
  | coherence c => cases c <;> exact hu
  | coherenceJob c =>
    cases c with
    | none => exact hu
    | some c => exact absurd rfl (h c)

/-- As many Pods of the Job are ready as the action asks for. -/
def IsCounted (c : CoherenceJob) (j : Job) : Prop :=
  ∃ action, c.spec.readyAction = some action ∧ enoughReady action c.spec.getJobReplicas j = true

/-- The ready count of a Job is reached. -/
structure IsReached (c : CoherenceJob) (j : Job) : Prop where
  replicas : c.spec.getJobReplicas ≠ 0
  incomplete : j.status.completionTime.isSome = false
  counted : IsCounted c j

/-- What comes of the attempts can be written down, and was not before. -/
structure IsFit (env : Env) (request : NamespacedName) (w : World) (c : CoherenceJob) : Prop where
  nodup : (env.pods.map (·.name)).Nodup
  later : ∀ c₀, w.coherenceJob.get request = some c₀ → ∀ p ∈ due env c, ∀ q, statusOf c₀.status.jobProbes p.pod = some q →
    IsBefore q p
  can : due env c ≠ [] → CanRecord env request w

/-- Either nothing was attempted, and if the reconcile returned then not enough Pods were ready, or all that was due was. -/
def Outcome {α : Type} (env : Env) (request : NamespacedName) (w : World) (c : CoherenceJob) (j : Option Job)
    (r : Except GoError α) (v : World) : Prop :=
  (w.Steady request v ∧ ((∃ a, r = .ok a) → ¬ ∃ x ∈ j, IsReached c x)) ∨ Recorded request (due env c) w v ∧ ∃ x ∈ j, IsReached c x

/-- Until the attempts are written down. -/
theorem wp_maybeExecuteProbe (h : w.Steady request u) :
    Wp (maybeExecuteProbe env job (.coherenceJob (some c))) (fun r v =>
      (w.Steady request v ∧ ∀ ss, r = .ok ss → ss = [] ∧ ¬ IsCounted c job) ∨
      (IsCounted c job ∧ ∃ x, w.Steady request x ∧ r = .ok (due env c) ∧ v.coherenceJob = x.coherenceJob ∧
        v.attempts = ((due env c).map (·.attempt)).reverse ++ x.attempts)) u := by
  refine Wp.bind_ok (exec_outcome _ _) ?_
  cases haction : c.spec.readyAction with
  | none =>
    simp only [haction]
    refine .inl ⟨h, ?_⟩
    rintro _ ⟨⟩
    refine ⟨rfl, ?_⟩
    rintro ⟨_, hsome, _⟩
    rw [haction] at hsome
    cases hsome
  | some action =>
    simp only [haction]
    refine Wp.bind_ok (exec_outcome _ _) ?_
    show Wp (if enoughReady action c.spec.getJobReplicas job then _ else _) _ u
    split
    · rename_i hready
      have hlisted : Wp (Op.wrapError s!"error getting list of Pods for Job {job.metadata.name}"
          (CoherenceOperator.request env ⟨.listPods, .job, job.key⟩)) (fun _ x => w.Steady request x) u := by
        rw [Wp, Op.wrapError, exec_mapError, exec_request]
        exact h.sent _
      refine Wp.bind_ends (Wp.ends hlisted) (fun _ x hx => ?_) fun e x hx => .inl ⟨hx, by rintro _ ⟨⟩⟩
      refine Wp.mono wp_executeProbes fun r v hv => .inr ⟨⟨action, haction, hready⟩, x, hx, hv⟩
    · rename_i hnot
      refine .inl ⟨h, ?_⟩
      rintro _ ⟨⟩
      refine ⟨rfl, ?_⟩
      rintro ⟨action', hsome, hready⟩
      rw [haction, Option.some.injEq] at hsome
      subst hsome
      exact hnot hready

theorem wp_updateAndProbe (h : w.Steady request u) (hkey : job.key = request) (hreplicas : c.spec.getJobReplicas ≠ 0)
    (hincomplete : job.status.completionTime.isSome = false) (hfit : IsReached c job → IsFit env request w c) :
    Wp (updateAndProbe op env request (.coherenceJob (some c)) job st) (Outcome env request w c (some job)) u := by
  have hupdate : Wp (updateJob op env (.coherenceJob (some c)) job st) (fun _ x => w.Steady request x) u :=
    keeps_updateJob permits_steady hkey u h
  refine Wp.bind_ends (Wp.ends hupdate) (fun result x hx => ?_) fun e x hx => .inl ⟨hx, by rintro ⟨_, ⟨⟩⟩⟩
  refine Wp.bind (wp_maybeExecuteProbe hx) (fun ss v hv => ?_) fun e v hv => ?_
  · rcases hv with ⟨hv, hss⟩ | ⟨hcounted, y, hy, hss, hjobs, hattempts⟩
    · obtain ⟨rfl, hnot⟩ := hss ss rfl
      have hreport : Wp (updateDeploymentStatus op env request []) (fun _ x => w.Steady request x) v :=
        keeps_updateDeploymentStatus_nil v hv
      have hreached : ¬ ∃ x ∈ some job, IsReached c x := by
        rintro ⟨_, ⟨⟩, hreached⟩
        exact hnot hreached.counted
      exact Wp.bind_ends (Wp.ends hreport) (fun _ x hx => .inl ⟨hx, fun _ => hreached⟩) fun e x hx => .inl ⟨hx, fun _ => hreached⟩
    · cases hss
      have hreached : IsReached c job := ⟨hreplicas, hincomplete, hcounted⟩
      obtain ⟨hnodup, hlater, hcan⟩ := hfit hreached
      have hrecord : Wp (updateDeploymentStatus op env request (due env c)) (fun _ x => Recorded request (due env c) w x) v :=
        wp_updateDeploymentStatus hy hjobs hattempts (nodup_due hnodup) hlater hcan
      refine Wp.bind_ends (Wp.ends hrecord) (fun _ x hx => ?_) fun e x hx => ?_
      · exact .inr ⟨hx, job, rfl, hreached⟩
      · exact .inr ⟨hx, job, rfl, hreached⟩
  · rcases hv with ⟨hv, -⟩ | ⟨_, _, _, hss, _⟩
    · exact .inl ⟨hv, by rintro ⟨_, ⟨⟩⟩⟩
    · cases hss

/-- **With a CoherenceJob** that owns the Job. -/
theorem wp_settle_steady {j : Option Job} (h : w.Steady request u) (hkey : ∀ x ∈ j, x.key = request)
    (hfit : ∀ x ∈ j, IsReached c x → IsFit env request w c) :
    Wp (settle op env request (.coherenceJob (some c)) j st) (Outcome env request w c j) u := by
  have hreport : ∀ {x : World} {result : Result}, w.Steady request x → (¬ ∃ x ∈ j, IsReached c x) →
      Wp (do updateDeploymentStatus op env request []; return result) (Outcome env request w c j) x := by
    intro x result hx hnot
    have hkeeps : Wp (updateDeploymentStatus op env request []) (fun _ y => w.Steady request y) x :=
      keeps_updateDeploymentStatus_nil x hx
    exact Wp.bind_ends (Wp.ends hkeeps) (fun _ y hy => .inl ⟨hy, fun _ => hnot⟩) fun e y hy => .inl ⟨hy, fun _ => hnot⟩
  refine Wp.bind_ok (exec_outcome _ _) ?_
  by_cases hzero : c.spec.getJobReplicas = 0
  · have hnot : ¬ ∃ x ∈ j, IsReached c x := fun ⟨_, _, hreached⟩ => hreached.replicas hzero
    rw [if_pos (by simpa using hzero)]
    cases j with
    | none => exact hreport h hnot
    | some job =>
      have hdelete : Wp (deleteJob env request (.coherenceJob (some c))) (fun _ x => w.Steady request x) u :=
        keeps_deleteJob_steady u h
      exact Wp.bind_ends (Wp.ends hdelete) (fun _ x hx => hreport hx hnot) fun e x hx => .inl ⟨hx, fun _ => hnot⟩
  · rw [if_neg (by simpa using hzero)]
    cases j with
    | none =>
      have hnot : ¬ ∃ x ∈ (none : Option Job), IsReached c x := by
        rintro ⟨_, ⟨⟩, _⟩
      have hcreate : Wp (createJob op env (.coherenceJob (some c)) st) (fun _ x => w.Steady request x) u :=
        keeps_createJob permits_steady u h
      exact Wp.bind_ends (Wp.ends hcreate) (fun _ x hx => hreport hx hnot) fun e x hx => .inl ⟨hx, fun _ => hnot⟩
    | some job =>
      show Wp (if job.status.completionTime.isSome then _ else _) _ u
      split
      · rename_i hcomplete
        refine hreport h ?_
        rintro ⟨_, ⟨⟩, hreached⟩
        rw [hreached.incomplete] at hcomplete
        cases hcomplete
      · rename_i hincomplete
        exact wp_updateAndProbe h (hkey job rfl) hzero (by simpa using hincomplete) (hfit job rfl)

/-- The Job that is looked for is there, and its ready count is reached. -/
structure Finds (request : NamespacedName) (w : World) (st : Storage) (c : CoherenceJob) (j : Job) : Prop where
  isJob : st.isJob request = true
  job : w.job request = some j
  live : j.metadata.deletionTimestamp.isSome = false
  reached : IsReached c j

/-- What comes of a reconcile: as `Outcome`, for the Job that is found. -/
def Rounded {α : Type} (env : Env) (request : NamespacedName) (w : World) (c : CoherenceJob) (found : Job → Prop)
    (r : Except GoError α) (v : World) : Prop :=
  (w.Steady request v ∧ ((∃ a, r = .ok a) → ¬ ∃ j, found j)) ∨ Recorded request (due env c) w v ∧ ∃ j, found j

theorem Outcome.rounded {α : Type} {j : Option Job} {found : Job → Prop} {r : Except GoError α}
    (h : Outcome env request w c j r v) (hj : ∀ x, found x ↔ x ∈ j ∧ IsReached c x) : Rounded env request w c found r v := by
  have hiff : (∃ x, found x) ↔ ∃ x ∈ j, IsReached c x := exists_congr hj
  rcases h with ⟨hsteady, hnot⟩ | ⟨hrecorded, hreached⟩
  · exact .inl ⟨hsteady, fun hr hfound => hnot hr (hiff.1 hfound)⟩
  · exact .inr ⟨hrecorded, hiff.2 hreached⟩

/-- **With the CoherenceJob that is passed in.** -/
theorem wp_reconcileAllResourceOfKind_steady (hfit : ∀ j, Finds request w st c j → IsFit env request w c) :
    Wp (reconcileAllResourceOfKind op env request (.coherenceJob (some c)) st)
      (Rounded env request w c (Finds request w st c)) w := by
  unfold reconcileAllResourceOfKind
  split
  · rename_i hnot
    refine .inl ⟨.refl, ?_⟩
    rintro - ⟨j, hfound⟩
    simp [hfound.isJob] at hnot
  rename_i hisJob
  have hisJob : st.isJob request = true := by simpa using hisJob
  have hrefl : w.Steady request w := .refl
  have hget := hrefl.sent ⟨.get, .job, request⟩
  refine wp_read_bind (fun e => .inl ⟨hget, by rintro ⟨_, ⟨⟩⟩⟩) ?_
  show Wp (if (w.job request).any fun j => j.metadata.deletionTimestamp.isSome then (return {} : Op Result) else
    Secondary.ownerOf env (.coherenceJob (some c)) ((w.job request).map (·.toObject)) >>= fun d =>
      settle op env request d (w.job request) st) _ _
  split
  · rename_i hdeleted
    refine .inl ⟨hget, ?_⟩
    rintro - ⟨j, hfound⟩
    rw [hfound.job, Option.any_some, hfound.live] at hdeleted
    cases hdeleted
  · rename_i hdeleted
    have hiff : ∀ x, Finds request w st c x ↔ x ∈ w.job request ∧ IsReached c x := by
      intro x
      constructor
      · exact fun hfound => ⟨hfound.job, hfound.reached⟩
      · rintro ⟨hx, hreached⟩
        rw [Option.mem_def.1 hx, Option.any_some] at hdeleted
        exact ⟨hisJob, hx, by simpa using hdeleted, hreached⟩
    refine Wp.bind_ok (u := w.sent ⟨.get, .job, request⟩) (a := .coherenceJob (some c)) rfl ?_
    refine Wp.mono (wp_settle_steady hget (fun x hx => ?_) fun x hx hreached => hfit x ((hiff x).2 ⟨hx, hreached⟩))
      fun r v hv => hv.rounded hiff
    exact (Prod.mk.inj (w.objects.filed _ _ (World.job_eq_some.1 hx))).2

/-- On an event it is the Job of an owner that is found, too. -/
structure FindsOwned (env : Env) (request : NamespacedName) (w : World) (c : CoherenceJob) (j : Job) : Prop
    extends Finds request w (Storage.stored request w) c j where
  locked : env.locked = false
  owned : ∃ owner, j.metadata.coherenceOwner = some owner ∧ w.pointer owner = .coherenceJob (some c)

/-- Where no CoherenceJob owns the Job nothing is attempted. -/
theorem wp_settle_of_ne {j : Option Job} (h : w.Steady request u) (hkey : ∀ x ∈ j, x.key = request)
    (hne : ∀ c, deployment ≠ .coherenceJob (some c)) :
    Wp (settle op env request deployment j st) (fun _ v => w.Steady request v) u :=
  keeps_settle permits_steady hkey (fun _ _ => keeps_probeAndReport_steady hne) (fun _ _ _ => keeps_deleteJob_steady) u h

/-- **On an event** of a Job. -/
theorem wp_reconcile_steady (hfit : ∀ c j, FindsOwned env request w c j → IsFit env request w c) :
    Wp (reconcile op env request) (fun r v => (w.Steady request v ∧ ((∃ a, r = .ok a) → ¬ ∃ c j, FindsOwned env request w c j)) ∨
      ∃ c j, FindsOwned env request w c j ∧ Recorded request (due env c) w v) w := by
  unfold reconcile
  split
  · rename_i hlocked
    refine .inl ⟨.refl, ?_⟩
    rintro - ⟨c, j, hfound⟩
    rw [hfound.locked] at hlocked
    cases hlocked
  rename_i hlocked
  have hrefl : w.Steady request w := .refl
  have hnew := hrefl.sent ⟨.get, .secret, request⟩
  refine wp_new_bind (fun _ => .inl ⟨hnew, by rintro ⟨_, ⟨⟩⟩⟩) ?_
  unfold reconcileAllResourceOfKind
  split
  · rename_i hnot
    refine .inl ⟨hnew, ?_⟩
    rintro - ⟨c, j, hfound⟩
    have hisJob := hfound.isJob
    rw [Storage.stored] at hisJob
    simp [hisJob] at hnot
  rename_i hisJob
  have hget := hnew.sent ⟨.get, .job, request⟩
  refine wp_read_bind (fun e => .inl ⟨hget, by rintro ⟨_, ⟨⟩⟩⟩) ?_
  have hunfound : ∀ {x : World} {r : Except GoError Result}, w.Steady request x →
      (∀ c j, w.job request = some j → ¬ FindsOwned env request w c j) →
      (w.Steady request x ∧ ((∃ a, r = .ok a) → ¬ ∃ c j, FindsOwned env request w c j)) ∨
        ∃ c j, FindsOwned env request w c j ∧ Recorded request (due env c) w x := by
    refine fun hx hnot => .inl ⟨hx, ?_⟩
    rintro - ⟨c, j, hfound⟩
    exact hnot c j hfound.job hfound
  simp only [World.job_sent]
  rcases Option.eq_none_or_eq_some (w.job request) with hj | ⟨j, hj⟩
  · simp only [hj, Option.any_none, Bool.false_eq_true, if_false]
    refine Wp.bind_ok (exec_ownerOf_of_unowned (by simp)) ?_
    refine Wp.mono (wp_settle_of_ne hget (by simp) fun c => by simp) fun r v hv => hunfound hv fun c j hj' _ => ?_
    rw [hj] at hj'
    cases hj'
  have hkey : ∀ x ∈ some j, x.key = request := by
    rintro _ ⟨⟩
    exact (Prod.mk.inj (w.objects.filed _ _ (World.job_eq_some.1 hj))).2
  simp only [hj, Option.any_some]
  split
  · rename_i hdeleted
    refine hunfound hget fun c j' hj' hfound => ?_
    rw [hj, Option.some.injEq] at hj'
    subst hj'
    rw [hfound.live] at hdeleted
    cases hdeleted
  rename_i hlive
  cases hown : j.metadata.coherenceOwner with
  | none =>
    refine Wp.bind_ok (exec_ownerOf_of_unowned ?_) ?_
    · rintro _ ⟨⟩
      exact hown
    · refine Wp.mono (wp_settle_of_ne hget hkey fun c => by simp) fun r v hv => hunfound hv fun c j' hj' hfound => ?_
      rw [hj, Option.some.injEq] at hj'
      subst hj'
      obtain ⟨owner, hsome, -⟩ := hfound.owned
      rw [hown] at hsome
      cases hsome
  | some owner =>
    have hfound := hget.sent owner.call
    refine wp_ownerOf_bind hown (fun _ => .inl ⟨hfound, by rintro ⟨_, ⟨⟩⟩⟩) ?_
    simp only [World.pointer_sent]
    have hiff : ∀ c x, FindsOwned env request w c x ↔ w.pointer owner = .coherenceJob (some c) ∧ x = j ∧ IsReached c x := by
      intro c x
      constructor
      · intro hfinds
        obtain rfl : x = j := Option.some.inj (hfinds.job.symm.trans hj)
        obtain ⟨owner', howner', hpointer⟩ := hfinds.owned
        obtain rfl : owner' = owner := Option.some.inj (howner'.symm.trans hown)
        exact ⟨hpointer, rfl, hfinds.reached⟩
      · rintro ⟨hpointer, rfl, hreached⟩
        exact ⟨⟨by simpa [Storage.stored] using hisJob, hj, by simpa using hlive, hreached⟩, by simpa using hlocked,
          owner, hown, hpointer⟩
    by_cases hjob : ∃ c, w.pointer owner = .coherenceJob (some c)
    · obtain ⟨c, hc⟩ := hjob
      rw [hc]
      refine Wp.mono (wp_settle_steady hfound hkey ?_) fun r v hv => ?_
      · rintro _ ⟨⟩ hreached
        exact hfit c j ((hiff c j).2 ⟨hc, rfl, hreached⟩)
      · rcases hv with ⟨hsteady, hnot⟩ | ⟨hrecorded, x, hx, hreached⟩
        · refine .inl ⟨hsteady, ?_⟩
          rintro hr ⟨c', x, hfinds⟩
          obtain ⟨hc', rfl, hreached⟩ := (hiff c' x).1 hfinds
          rw [hc] at hc'
          cases hc'
          exact hnot hr ⟨x, rfl, hreached⟩
        · obtain rfl : j = x := Option.some.inj hx
          exact .inr ⟨c, j, (hiff c j).2 ⟨hc, rfl, hreached⟩, hrecorded⟩
    · refine Wp.mono (wp_settle_of_ne hfound hkey fun c hc => hjob ⟨c, hc⟩) fun r v hv => hunfound hv fun c j' _ hfinds => ?_
      exact hjob ⟨c, ((hiff c j').1 hfinds).1⟩

end JobReconciler

end CoherenceOperator
