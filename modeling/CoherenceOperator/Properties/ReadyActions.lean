import CoherenceOperator.Footprint.Attempting
import CoherenceOperator.Lib.Run

/-!
# Ready actions

The ready action of a CoherenceJob is attempted on a Pod that has become ready after the last attempt on it, and what the
operator knows of these is what the status of the CoherenceJob says. So it attempts the action once for each time the Pod becomes
ready, as long as it can write that down: it does not while the CoherenceJob is being deleted, or where it does not read
it in the end, or where the clock stood still between two attempts.
-/

namespace CoherenceOperator

open Effect Prog CoherenceResourceStatus JobReconciler

variable {op : Operator} {request : NamespacedName} {second : ℕ} {w u v : World}

/-! ### Times that are persisted -/

/-- A time as it is persisted, where there are so many ticks in a second. -/
def persisted (second t : ℕ) : ℕ := t - t % second

/-- The status of a probe as it is persisted. -/
def CoherenceJobProbeStatus.persisted (second : ℕ) (p : CoherenceJobProbeStatus) : CoherenceJobProbeStatus :=
  { p with
    lastReadyTime := p.lastReadyTime.map (CoherenceOperator.persisted second)
    lastProbeTime := p.lastProbeTime.map (CoherenceOperator.persisted second) }

theorem statusOf_persisted {ps : List CoherenceJobProbeStatus} {pod : String} :
    statusOf (ps.map (·.persisted second)) pod = (statusOf ps pod).map (·.persisted second) := by
  induction ps with
  | nil => rfl
  | cons p ps ih =>
    rw [List.map_cons, statusOf_cons, statusOf_cons, ih]
    show (if p.pod = pod then _ else _) = _
    split <;> rfl

/-! ### Rounds -/

/-- A reconcile of a Job, and what happens to the cluster before it: on an event of the Job, or as a part of a reconcile of the
CoherenceJob, which passes that in with what is stored for it. -/
structure JobRound where
  change : World → World
  env : Env
  passed : Option (CoherenceJob × Storage) := none

namespace JobRound

variable {r : JobRound}

def reconcile (op : Operator) (request : NamespacedName) (r : JobRound) : Op Result :=
  match r.passed with
  | none => JobReconciler.reconcile op r.env request
  | some (c, st) => JobReconciler.reconcileAllResourceOfKind op r.env request (.coherenceJob (some c)) st

/-- What comes of the round. -/
def outcome (op : Operator) (request : NamespacedName) (w : World) (r : JobRound) : Except GoError Result × World :=
  exec (r.reconcile op request) (r.change w)

def step (op : Operator) (request : NamespacedName) (w : World) (r : JobRound) : World := (r.outcome op request w).2

/-- The Job is found, with the CoherenceJob that owns it, and its ready count is reached. -/
def Finds (request : NamespacedName) (r : JobRound) (u : World) (c : CoherenceJob) (j : Job) : Prop :=
  match r.passed with
  | none => FindsOwned r.env request u c j
  | some (c', st) => c' = c ∧ JobReconciler.Finds request u st c j

/-- What the rounds are about: nobody else attempts the action or changes the statuses of the probes, which are persisted, and a
new CoherenceJob has none. Reads see what was written, Pods become ready again at a later time, clocks do not go backwards, and
the status is written if it is to be. -/
structure IsOrderly (second : ℕ) (request : NamespacedName) (w : World) (r : JobRound) : Prop where
  attempts : (r.change w).attempts = w.attempts
  persists : ∀ c', (r.change w).coherenceJob.get request = some c' →
    (∃ c, w.coherenceJob.get request = some c ∧ c'.status.jobProbes = c.status.jobProbes.map (·.persisted second)) ∨
      w.attempts = [] ∧ c'.status.jobProbes = []
  reads : ∀ c st c', r.passed = some (c, st) → (r.change w).coherenceJob.get request = some c' →
    c.status.jobProbes = c'.status.jobProbes
  nodup : (r.env.pods.map (·.name)).Nodup
  seconds : ∀ pod ∈ r.env.pods, ∀ t ∈ pod.readySince, persisted second t = t
  later : ∀ pod ∈ r.env.pods, ∀ t ∈ pod.readySince, ∀ t', (pod.name, some t') ∈ w.attempts → t' ≤ t
  clock : ∀ c, (r.change w).coherenceJob.get request = some c → ∀ pod ∈ r.env.pods, ∀ q, statusOf c.status.jobProbes pod.name = some q →
    ∀ t ∈ q.lastProbeTime, t ≤ r.env.probedAt pod
  writes : ∀ n, r.env.faults n ⟨.updateStatus, .coherenceJob, request⟩ = none

/-- What was attempted can be written down: the CoherenceJob is the one of the name of the Job, and if a Pod is due, it is
not being deleted, it and the Job are read, and the clock has moved since the last attempt. -/
structure IsRecordable (request : NamespacedName) (r : JobRound) (u : World) (c : CoherenceJob) : Prop where
  own : ∃ c₀, u.coherenceJob.get request = some c₀ ∧ (r.passed = none → c₀ = c)
  live : due r.env c ≠ [] → ∀ c₀, u.coherenceJob.get request = some c₀ → c₀.metadata.deletionTimestamp = none
  getJob : due r.env c ≠ [] → ∀ n, r.env.faults n ⟨.get, .job, request⟩ = none
  getCoherenceJob : due r.env c ≠ [] → ∀ n, r.env.faults n ⟨.get, .coherenceJob, request⟩ = none
  clock : ∀ p ∈ due r.env c, ∀ q, statusOf c.status.jobProbes p.pod = some q → q.lastProbeTime ≠ p.lastProbeTime

/-- Whenever the Pods of the Job are looked at. -/
def IsRecorded (request : NamespacedName) (w : World) (r : JobRound) : Prop :=
  ∀ c j, r.Finds request (r.change w) c j → r.IsRecordable request (r.change w) c

/-- A Pod that is ready since then is seen with the ready count reached, by a reconcile that returns. -/
def Sees (op : Operator) (request : NamespacedName) (w : World) (r : JobRound) (pod : Pod) (t : ℕ) : Prop :=
  (∃ c j, r.Finds request (r.change w) c j) ∧ (∃ result, (r.outcome op request w).1 = .ok result) ∧ pod ∈ r.env.pods ∧
    pod.readySince = some t

/-- Each Pod that is seen was attempted. -/
def AttemptsSeen (op : Operator) (request : NamespacedName) (w : World) (r : JobRound) : Prop :=
  ∀ pod t, r.Sees op request w pod t → (pod.name, some t) ∈ (step op request w r).attempts

/-! ### One round -/

/-- Each attempt was made once, and the CoherenceJob remembers the last one on each Pod, and no others. -/
structure Remembered (second : ℕ) (request : NamespacedName) (w : World) : Prop where
  nodup : w.attempts.Nodup
  recorded : ∀ c, w.coherenceJob.get request = some c → ∀ pod t, (pod, some t) ∈ w.attempts →
    ∃ p s, statusOf c.status.jobProbes pod = some p ∧ p.lastReadyTime = some s ∧ t ≤ s
  attempted : ∀ c, w.coherenceJob.get request = some c → ∀ pod p, statusOf c.status.jobProbes pod = some p →
    (∃ t, p.lastReadyTime = some t ∧ (pod, some t) ∈ w.attempts ∧ persisted second t = t) ∧ ∃ n, p.lastProbeTime = some n

/-- What happens before the reconcile is no matter. -/
theorem Remembered.change (h : Remembered second request w) (horderly : r.IsOrderly second request w) :
    Remembered second request (r.change w) where
  nodup := by
    rw [horderly.attempts]
    exact h.nodup
  recorded c' hc' pod t ht := by
    rw [horderly.attempts] at ht
    rcases horderly.persists c' hc' with ⟨c, hc, hprobes⟩ | ⟨hnone, -⟩
    · obtain ⟨p, s, hp, hs, hle⟩ := h.recorded c hc pod t ht
      obtain ⟨⟨s', hs', -, hsecond⟩, -⟩ := h.attempted c hc pod p hp
      obtain rfl : s' = s := Option.some.inj (hs'.symm.trans hs)
      refine ⟨p.persisted second, s', ?_, ?_, hle⟩
      · rw [hprobes, statusOf_persisted, hp]
        rfl
      · rw [CoherenceJobProbeStatus.persisted, hs', Option.map_some, hsecond]
    · rw [hnone] at ht
      cases ht
  attempted c' hc' pod p' hp' := by
    rw [horderly.attempts]
    rcases horderly.persists c' hc' with ⟨c, hc, hprobes⟩ | ⟨-, hnone⟩
    · rw [hprobes, statusOf_persisted, Option.map_eq_some_iff] at hp'
      obtain ⟨p, hp, rfl⟩ := hp'
      obtain ⟨⟨t, ht, hmem, hsecond⟩, n, hn⟩ := h.attempted c hc pod p hp
      refine ⟨⟨t, ?_, hmem, hsecond⟩, persisted second n, ?_⟩
      · rw [CoherenceJobProbeStatus.persisted, ht, Option.map_some, hsecond]
      · rw [CoherenceJobProbeStatus.persisted, hn, Option.map_some]
    · rw [hnone] at hp'
      cases hp'

/-- Nor is a round that attempts nothing. -/
theorem Remembered.steady (h : Remembered second request u) (hv : u.Steady request v) : Remembered second request v where
  nodup := by
    rw [hv.attempts]
    exact h.nodup
  recorded c' hc' pod t ht := by
    rw [hv.attempts] at ht
    obtain ⟨c, hc, hprobes, -⟩ := hv.job c' hc'
    rw [hprobes]
    exact h.recorded c hc pod t ht
  attempted c' hc' pod p hp := by
    rw [hv.attempts]
    obtain ⟨c, hc, hprobes, -⟩ := hv.job c' hc'
    rw [hprobes] at hp
    exact h.attempted c hc pod p hp

variable {env : Env} {c : CoherenceJob}

/-- A Pod that is due became ready after the last attempt on it. -/
theorem exists_pod_of_mem_due {p : CoherenceJobProbeStatus} (h : p ∈ due env c) :
    ∃ pod ∈ env.pods, p.pod = pod.name ∧ p.lastProbeTime = some (env.probedAt pod) ∧ ∃ t, pod.readySince = some t ∧
      p.lastReadyTime = some t ∧ ∀ q, statusOf c.status.jobProbes p.pod = some q → ∀ s, q.lastReadyTime = some s → s < t := by
  obtain ⟨pod, hpod, hs⟩ := mem_due.1 h
  obtain ⟨hdue, hname, hready, hprobe⟩ := executeProbe_eq_some hs
  cases hsince : pod.readySince with
  | none => simp [shouldExecuteProbe, hsince] at hdue
  | some t =>
    refine ⟨pod, hpod, hname, hprobe, t, hsince, hready.trans hsince, fun q hq s hs => ?_⟩
    rw [findJobProbeStatus_eq, ← hname, hq, Option.getD_some, shouldExecuteProbe, hsince, hs] at hdue
    simpa using hdue

/-- A Pod that is not due was attempted since it became ready. -/
theorem exists_of_executeProbe_eq_none {status : CoherenceResourceStatus} {pod : Pod} {t : ℕ}
    (h : executeProbe env status pod = none) (hsince : pod.readySince = some t) :
    ∃ q s, statusOf status.jobProbes pod.name = some q ∧ q.lastReadyTime = some s ∧ t ≤ s := by
  have hnot : shouldExecuteProbe (status.findJobProbeStatus pod.name) pod = false := by
    simpa [executeProbe] using h
  rw [findJobProbeStatus_eq] at hnot
  cases hq : statusOf status.jobProbes pod.name with
  | none => simp [hq, shouldExecuteProbe, hsince] at hnot
  | some q =>
    cases hs : q.lastReadyTime with
    | none => simp [hq, shouldExecuteProbe, hsince, hs] at hnot
    | some s =>
      refine ⟨q, s, rfl, hs, ?_⟩
      simpa [hq, shouldExecuteProbe, hsince, hs] using hnot

/-- A Pod that is due was not attempted since it became ready. -/
theorem Remembered.notMem (h : Remembered second request u) {c₀ : CoherenceJob} (hc₀ : u.coherenceJob.get request = some c₀)
    (hprobes : c.status.jobProbes = c₀.status.jobProbes) {p : CoherenceJobProbeStatus} (hp : p ∈ due env c) :
    p.attempt ∉ u.attempts := by
  intro hmem
  obtain ⟨pod, -, hname, -, t, -, hready, hlast⟩ := exists_pod_of_mem_due hp
  rw [CoherenceJobProbeStatus.attempt, hready] at hmem
  obtain ⟨q, s, hq, hs, hle⟩ := h.recorded c₀ hc₀ p.pod t hmem
  rw [← hprobes] at hq
  have hlt := hlast q hq s hs
  omega

/-- What a round attempts and writes down is remembered. -/
theorem Remembered.record (h : Remembered second request u) {c₀ : CoherenceJob} (hc₀ : u.coherenceJob.get request = some c₀)
    (hprobes : c.status.jobProbes = c₀.status.jobProbes) (hnodup : (env.pods.map (·.name)).Nodup)
    (hseconds : ∀ pod ∈ env.pods, ∀ t ∈ pod.readySince, persisted second t = t) (hv : Recorded request (due env c) u v) :
    Remembered second request v where
  nodup := by
    have hpods := nodup_due (c := c) hnodup
    have hnew : ((due env c).map (·.attempt)).Nodup := by
      refine List.Nodup.of_map Prod.fst ?_
      rw [List.map_map]
      exact hpods
    rw [hv.attempts, List.nodup_append]
    refine ⟨List.nodup_reverse.2 hnew, h.nodup, fun a ha b hb => ?_⟩
    obtain ⟨p, hp, rfl⟩ := List.mem_map.1 (List.mem_reverse.1 ha)
    rintro rfl
    exact h.notMem hc₀ hprobes hp hb
  recorded c' hc' pod t ht := by
    obtain ⟨c₁, hc₁, hstatus, -⟩ := hv.job c' hc'
    obtain rfl : c₁ = c₀ := Option.some.inj (hc₁.symm.trans hc₀)
    rw [hv.attempts, List.mem_append, List.mem_reverse, List.mem_map] at ht
    rw [hstatus]
    rcases ht with ⟨p, hp, heq⟩ | ht
    · obtain ⟨rfl, hready⟩ := Prod.mk.inj heq
      refine ⟨p, t, ?_, hready, le_refl t⟩
      rw [statusOf_of_mem (nodup_due hnodup) hp]
      rfl
    · obtain ⟨q, s, hq, hs, hle⟩ := h.recorded c₁ hc₁ pod t ht
      cases hdue : statusOf (due env c) pod with
      | none => exact ⟨q, s, hq, hs, hle⟩
      | some p =>
        obtain ⟨-, -, -, -, t', -, hready, hlast⟩ := exists_pod_of_mem_due (mem_of_statusOf hdue)
        have hlt : s < t' := by
          refine hlast q ?_ s hs
          rw [pod_of_statusOf hdue, hprobes, hq]
        exact ⟨p, t', rfl, hready, by omega⟩
  attempted c' hc' pod p hp := by
    obtain ⟨c₁, hc₁, hstatus, -⟩ := hv.job c' hc'
    rw [hstatus] at hp
    rw [hv.attempts]
    cases hdue : statusOf (due env c) pod with
    | none =>
      rw [hdue, Option.none_or] at hp
      obtain ⟨⟨t, ht, hmem, hsecond⟩, hn⟩ := h.attempted c₁ hc₁ pod p hp
      exact ⟨⟨t, ht, List.mem_append_right _ hmem, hsecond⟩, hn⟩
    | some p' =>
      rw [hdue, Option.some_or, Option.some.injEq] at hp
      subst hp
      have hmem := mem_of_statusOf hdue
      obtain ⟨x, hx, -, hprobe, t, hsince, hready, -⟩ := exists_pod_of_mem_due hmem
      refine ⟨⟨t, hready, ?_, hseconds x hx t hsince⟩, _, hprobe⟩
      refine List.mem_append_left _ (List.mem_reverse.2 (List.mem_map.2 ⟨p', hmem, ?_⟩))
      rw [CoherenceJobProbeStatus.attempt, pod_of_statusOf hdue, hready]

/-- The attempts of a round can be written down where they are to be. -/
theorem isFit (h : Remembered second request (r.change w)) (horderly : r.IsOrderly second request w)
    (hrecordable : r.IsRecordable request (r.change w) c)
    (hprobes : ∀ c₀, (r.change w).coherenceJob.get request = some c₀ → c.status.jobProbes = c₀.status.jobProbes) :
    IsFit r.env request (r.change w) c where
  nodup := horderly.nodup
  later c₀ hc₀ p hp q hq := by
    obtain ⟨pod, hpod, hname, hprobe, -⟩ := exists_pod_of_mem_due hp
    obtain ⟨-, n, hn⟩ := h.attempted c₀ hc₀ p.pod q hq
    refine ⟨n, r.env.probedAt pod, hn, hprobe, ?_⟩
    have hle := horderly.clock c₀ hc₀ pod hpod q (hname ▸ hq) n hn
    have hne : n ≠ r.env.probedAt pod := by
      rintro rfl
      refine hrecordable.clock p hp q ?_ (hn.trans hprobe.symm)
      rw [hprobes c₀ hc₀, hq]
    omega
  can hdue := ⟨hrecordable.live hdue, hrecordable.getJob hdue, hrecordable.getCoherenceJob hdue, horderly.writes⟩

/-- What comes of a round, if what it attempts can be written down. -/
theorem wp_reconcile (hfit : ∀ c j, r.Finds request u c j → IsFit r.env request u c) :
    Wp (r.reconcile op request) (fun result v =>
      (u.Steady request v ∧ ((∃ a, result = .ok a) → ¬ ∃ c j, r.Finds request u c j)) ∨
        ∃ c j, r.Finds request u c j ∧ Recorded request (due r.env c) u v) u := by
  obtain ⟨change, env, passed⟩ := r
  cases passed with
  | none => exact wp_reconcile_steady hfit
  | some p =>
    obtain ⟨c, st⟩ := p
    have hfit' : ∀ j, JobReconciler.Finds request u st c j → IsFit env request u c := fun j hj => hfit c j ⟨rfl, hj⟩
    refine Wp.mono (wp_reconcileAllResourceOfKind_steady hfit') fun result v hv => ?_
    rcases hv with ⟨hsteady, hnot⟩ | ⟨hrecorded, j, hj⟩
    · refine .inl ⟨hsteady, ?_⟩
      rintro hr ⟨_, j, rfl, hj⟩
      exact hnot hr ⟨j, hj⟩
    · exact .inr ⟨c, j, ⟨rfl, hj⟩, hrecorded⟩

/-- The statuses that the reconcile reads are those of the CoherenceJob. -/
theorem jobProbes_eq (horderly : r.IsOrderly second request w) (hrecordable : r.IsRecordable request (r.change w) c)
    {j : Job} (hfinds : r.Finds request (r.change w) c j) {c₀ : CoherenceJob}
    (hc₀ : (r.change w).coherenceJob.get request = some c₀) : c.status.jobProbes = c₀.status.jobProbes := by
  obtain ⟨c₁, hc₁, hown⟩ := hrecordable.own
  obtain rfl : c₁ = c₀ := Option.some.inj (hc₁.symm.trans hc₀)
  cases hpassed : r.passed with
  | none => rw [hown hpassed]
  | some p =>
    obtain ⟨c', st⟩ := p
    rw [Finds, hpassed] at hfinds
    obtain ⟨rfl, -⟩ := hfinds
    exact horderly.reads c' st c₁ hpassed hc₀

/-- **A round** keeps what is remembered, and attempts what it sees. -/
theorem remembered_step (h : Remembered second request w) (horderly : r.IsOrderly second request w)
    (hrecorded : r.IsRecorded request w) :
    Remembered second request (step op request w r) ∧ r.AttemptsSeen op request w := by
  have hu := h.change horderly
  have hprobes : ∀ c j c₀, r.Finds request (r.change w) c j → (r.change w).coherenceJob.get request = some c₀ →
      c.status.jobProbes = c₀.status.jobProbes :=
    fun c j c₀ hfinds hc₀ => jobProbes_eq horderly (hrecorded c j hfinds) hfinds hc₀
  have hround : Wp (r.reconcile op request) _ (r.change w) :=
    wp_reconcile fun c j hfinds => isFit hu horderly (hrecorded c j hfinds) fun c₀ => hprobes c j c₀ hfinds
  rcases hround with ⟨hsteady, hnot⟩ | ⟨c, j, hfinds, hrecord⟩
  · refine ⟨hu.steady hsteady, ?_⟩
    rintro pod t ⟨hfinds, hok, -⟩
    exact absurd hfinds (hnot hok)
  · obtain ⟨c₀, hc₀, -⟩ := (hrecorded c j hfinds).own
    have hsame := hprobes c j c₀ hfinds hc₀
    refine ⟨hu.record hc₀ hsame horderly.nodup horderly.seconds hrecord, ?_⟩
    rintro pod t ⟨-, -, hpod, hsince⟩
    have hattempts : (step op request w r).attempts = ((due r.env c).map (·.attempt)).reverse ++ (r.change w).attempts :=
      hrecord.attempts
    rw [hattempts]
    cases hdue : executeProbe r.env c.status pod with
    | some p =>
      obtain ⟨-, hname, hready, -⟩ := executeProbe_eq_some hdue
      refine List.mem_append_left _ (List.mem_reverse.2 (List.mem_map.2 ⟨p, mem_due.2 ⟨pod, hpod, hdue⟩, ?_⟩))
      rw [CoherenceJobProbeStatus.attempt, hname, hready, hsince]
    | none =>
      -- the last attempt on the Pod is since it became ready, and since no later time
      refine List.mem_append_right _ ?_
      obtain ⟨q, s, hq, hs, hle⟩ := exists_of_executeProbe_eq_none hdue hsince
      rw [hsame] at hq
      obtain ⟨⟨t', ht', hmem, -⟩, -⟩ := hu.attempted c₀ hc₀ pod.name q hq
      obtain rfl : t' = s := Option.some.inj (ht'.symm.trans hs)
      have hbefore : t' ≤ t := horderly.later pod hpod t hsince t' (horderly.attempts ▸ hmem)
      obtain rfl : t = t' := by omega
      exact hmem

end JobRound

open JobRound

/-- The ready action is attempted once for each time that a Pod becomes ready, and on each Pod that is seen. -/
def OncePerReadiness (op : Operator) (request : NamespacedName) (w : World) (rs : List JobRound) : Prop :=
  Always (JobRound.step op request) (fun u => u.attempts.Nodup) w rs ∧
    Along (JobRound.step op request) (fun u r => r.AttemptsSeen op request u) w rs

/-- Nothing was attempted yet. -/
def World.Unattempted (request : NamespacedName) (w : World) : Prop :=
  w.attempts = [] ∧ ∀ c, w.coherenceJob.get request = some c → c.status.jobProbes = []

theorem remembered_of_unattempted (h : w.Unattempted request) : Remembered second request w where
  nodup := by
    rw [h.1]
    exact List.nodup_nil
  recorded _ _ _ _ ht := by
    rw [h.1] at ht
    cases ht
  attempted c hc _ _ hp := by
    rw [h.2 c hc] at hp
    cases hp

/-- **Once per readiness**, in every run whose attempts can be written down. -/
theorem oncePerReadiness {rs : List JobRound} (hw : w.Unattempted request)
    (horderly : Along (JobRound.step op request) (fun u r => r.IsOrderly second request u) w rs)
    (h : Along (JobRound.step op request) (fun u r => r.IsRecorded request u) w rs) : OncePerReadiness op request w rs := by
  have hboth : Along (JobRound.step op request) (fun u r => r.IsOrderly second request u ∧ r.IsRecorded request u) w rs :=
    horderly.and h
  have hw : Remembered second request w := remembered_of_unattempted hw
  have hstep : ∀ u (r : JobRound), Remembered second request u → r.IsOrderly second request u ∧ r.IsRecorded request u →
      Remembered second request (JobRound.step op request u r) := fun u r hu hr => (remembered_step hu hr.1 hr.2).1
  refine ⟨fun n => (hboth.always hstep hw n).nodup, ?_⟩
  exact hboth.mono_of_invariant hstep (fun u r hu hr => (remembered_step hu hr.1 hr.2).2) hw

/-- The API server keeps the statuses of the probes of a CoherenceJob. -/
def World.persist (second : ℕ) (request : NamespacedName) (w : World) : World :=
  w.modifyCoherenceJob request
    (fun c => c.withStatus { c.status with jobProbes := c.status.jobProbes.map (·.persisted second) }) fun c => c.key_withStatus _

/-- A round on an event, with one Pod that is ready, where nothing else happened. -/
theorem isOrderly_persist {env : Env} {pod : Pod} {t : ℕ} (henv : env.Reliable) (hpods : env.pods = [pod])
    (hsince : pod.readySince = some t) (hsecond : persisted second t = t)
    (hlater : (w.attempts.all fun a => a.2.all (· ≤ t)) = true)
    (hclock : ((w.persist second request).coherenceJob.get request).all (fun c => c.status.jobProbes.all fun q =>
      q.lastProbeTime.all (· ≤ env.probedAt pod)) = true) :
    JobRound.IsOrderly second request w { change := World.persist second request, env } where
  attempts := rfl
  persists c' hc' := by
    simp only [World.persist, World.modifyCoherenceJob, Table.get_modify_self, Option.map_eq_some_iff] at hc'
    obtain ⟨c, hc, rfl⟩ := hc'
    exact .inl ⟨c, hc, rfl⟩
  reads := by
    rintro _ _ _ ⟨⟩
  nodup := by simp [hpods]
  seconds := by simpa [hpods, hsince] using hsecond
  later := by
    intro p hp t' ht' t'' hmem
    have hp' : p = pod := by simpa [hpods] using hp
    subst hp'
    rw [hsince] at ht'
    cases ht'
    simpa using List.all_eq_true.1 hlater _ hmem
  clock := by
    intro c hc p hp q hq n hn
    have hp' : p = pod := by simpa [hpods] using hp
    subst hp'
    rw [hc, Option.all_some] at hclock
    have hq' := List.all_eq_true.1 hclock q (mem_of_statusOf hq)
    rw [Option.mem_def.1 hn] at hq'
    simpa using hq'
  writes n := by
    show env.faults n _ = none
    rw [henv]

/-- A CoherenceJob with a ready action. -/
def readyJob : CoherenceJob where
  metadata := { ns := "default", name := "loader" }
  spec := { replicas := some 1, readyAction := some {} }

/-- Its Job, with a Pod that is ready. -/
def readyPods : Job where
  metadata :=
    { ns := "default"
      name := "loader"
      ownerReferences := [Owner.reference ⟨.coherenceJob, ⟨"default", "loader"⟩⟩] }
  spec := {}
  status := { ready := some 1 }

/-- The CoherenceJob, its Job and its store. -/
def readyWorld (c : CoherenceJob) : World :=
  { (default : World) with
    coherenceJob := Table.empty.put c
    objects := Table.empty.put readyPods.toObject
    stores := Table.empty.put
      { metadata := { ns := "default", name := "loader" }
        latest := some { items := [readyPods.toObject.toResource] } } }

/-- A round at a time, with the Pod that is ready since then. -/
def readyRound (readySince now : ℕ) : JobRound where
  change := World.persist 1 ⟨"default", "loader"⟩
  env := { pods := [{ name := "loader-x", readySince := some readySince }], now }

/-- The CoherenceJob, when it is being deleted. -/
def leavingJob : CoherenceJob :=
  { readyJob with
    metadata := { readyJob.metadata with deletionTimestamp := some 1, finalizers := ["foregroundDeletion"] } }

/-- The ready action is attempted in each round while the CoherenceJob is being deleted. -/
theorem not_forall_oncePerReadiness :
    ¬ ∀ (op : Operator) (second : ℕ) (request : NamespacedName) (w : World) (rs : List JobRound), w.Unattempted request →
      Along (JobRound.step op request) (fun u r => r.IsOrderly second request u) w rs → OncePerReadiness op request w rs := by
  intro h
  have hunattempted : (readyWorld leavingJob).Unattempted ⟨"default", "loader"⟩ := by
    refine ⟨rfl, fun c hc => ?_⟩
    have hsome : (readyWorld leavingJob).coherenceJob.get ⟨"default", "loader"⟩ = some leavingJob := rfl
    obtain rfl : leavingJob = c := Option.some.inj (hsome.symm.trans hc)
    rfl
  obtain ⟨hnodup, -⟩ := h default 1 ⟨"default", "loader"⟩ (readyWorld leavingJob) [readyRound 0 5, readyRound 0 6] hunattempted
    ⟨isOrderly_persist rfl rfl rfl rfl (by decide +kernel) (by decide +kernel),
      isOrderly_persist rfl rfl rfl rfl (by decide +kernel) (by decide +kernel), trivial⟩
  have htwice : (run (JobRound.step default ⟨"default", "loader"⟩) (readyWorld leavingJob)
      ([readyRound 0 5, readyRound 0 6].take 2)).attempts = [("loader-x", some 0), ("loader-x", some 0)] := by decide +kernel
  have hnot := hnodup 2
  beta_reduce at hnot
  rw [htwice] at hnot
  exact absurd hnot (by decide)

/-- A round of the CoherenceJob whose attempt can be written down. -/
theorem isRecorded_readyRound {t n : ℕ}
    (howner : ((w.persist 1 ⟨"default", "loader"⟩).job ⟨"default", "loader"⟩).all (fun j =>
      j.metadata.coherenceOwner.all (· = ⟨.coherenceJob, ⟨"default", "loader"⟩⟩)) = true)
    (hlive : ((w.persist 1 ⟨"default", "loader"⟩).coherenceJob.get ⟨"default", "loader"⟩).all (fun c =>
      c.metadata.deletionTimestamp.isNone && c.status.jobProbes.all fun q => q.lastProbeTime.all (· < n)) = true) :
    (readyRound t n).IsRecorded ⟨"default", "loader"⟩ w := by
  rintro c j hfinds
  have hfinds : JobReconciler.FindsOwned (readyRound t n).env ⟨"default", "loader"⟩ (w.persist 1 ⟨"default", "loader"⟩) c j := hfinds
  obtain ⟨owner, hown, hpointer⟩ := hfinds.owned
  rw [hfinds.job, Option.all_some, hown, Option.all_some, decide_eq_true_eq] at howner
  subst howner
  have hc : (w.persist 1 ⟨"default", "loader"⟩).coherenceJob.get ⟨"default", "loader"⟩ = some c := Deployment.coherenceJob.inj hpointer
  rw [hc, Option.all_some, Bool.and_eq_true] at hlive
  refine ⟨⟨c, hc, fun _ => rfl⟩, fun _ c₀ hc₀ => ?_, fun _ _ => rfl, fun _ _ => rfl, fun p hp q hq hsame => ?_⟩
  · obtain rfl : c₀ = c := Option.some.inj (hc₀.symm.trans hc)
    simpa using hlive.1
  · obtain ⟨pod, hpod, -, hprobe, -⟩ := JobRound.exists_pod_of_mem_due hp
    have hbefore := List.all_eq_true.1 hlive.2 q (mem_of_statusOf hq)
    have htime : (readyRound t n).env.probedAt pod = n := rfl
    rw [hsame, hprobe, htime] at hbefore
    simp at hbefore

/-- The Pod is attempted when it is ready, and when it is ready again. -/
theorem oncePerReadiness_readyJob :
    OncePerReadiness default ⟨"default", "loader"⟩ (readyWorld readyJob) [readyRound 0 5, readyRound 7 9] := by
  have hunattempted : (readyWorld readyJob).Unattempted ⟨"default", "loader"⟩ := by
    refine ⟨rfl, fun c hc => ?_⟩
    have hsome : (readyWorld readyJob).coherenceJob.get ⟨"default", "loader"⟩ = some readyJob := rfl
    obtain rfl : readyJob = c := Option.some.inj (hsome.symm.trans hc)
    rfl
  have horderly : Along (JobRound.step default ⟨"default", "loader"⟩) (fun u r => r.IsOrderly 1 ⟨"default", "loader"⟩ u)
      (readyWorld readyJob) [readyRound 0 5, readyRound 7 9] :=
    ⟨isOrderly_persist rfl rfl rfl rfl (by decide +kernel) (by decide +kernel),
      isOrderly_persist rfl rfl rfl rfl (by decide +kernel) (by decide +kernel), trivial⟩
  refine oncePerReadiness hunattempted horderly ⟨?_, ?_, trivial⟩
  · exact isRecorded_readyRound (by decide +kernel) (by decide +kernel)
  · exact isRecorded_readyRound (by decide +kernel) (by decide +kernel)

end CoherenceOperator
