import CoherenceOperator.Footprint.Acting
import CoherenceOperator.Lib.Run

/-!
# The actions of a resource that is ready

The actions of a Coherence resource are gone through by a round of its StatefulSet that reads that the resource is ready, and then the
status of the resource says that they were. As long as it says so they are not gone through again, and it says so until the resource
is scaled to zero. But the status of a resource that is being deleted is not written any more: a resource that is deleted after it has
become ready, and before its actions were gone through, has its actions gone through in every round.
-/

namespace CoherenceOperator

open Effect Prog StatefulSetReconciler

variable {op : Operator} {request : NamespacedName} {w : World}

/-- A reconcile of a StatefulSet, and what happens to the cluster before it: on an event of the StatefulSet, or as a part of a
reconcile of the Coherence resource, which passes that in with what is stored for it. -/
structure StatefulSetRound where
  change : World → World
  env : Env
  passed : Option (Coherence × Storage) := none
  /-- Is it another resource than in the round before, one that was created since? -/
  created : Bool := false

namespace StatefulSetRound

variable {r : StatefulSetRound}

def reconcile (op : Operator) (request : NamespacedName) (r : StatefulSetRound) : Op Result :=
  match r.passed with
  | none => StatefulSetReconciler.reconcile op r.env request
  | some (c, st) => StatefulSetReconciler.reconcileAllResourceOfKind op r.env request (.coherence (some c)) st

def step (op : Operator) (request : NamespacedName) (w : World) (r : StatefulSetRound) : World :=
  (exec (r.reconcile op request) (r.change w)).2

/-- The resource whose StatefulSet is reconciled: the one that is passed in, or the owner. -/
def deployment (request : NamespacedName) (w : World) (r : StatefulSetRound) : Deployment :=
  match r.passed with
  | none => ownerFound request (r.change w)
  | some (c, _) => .coherence (some c)

/-- What the rounds are about: the status can be read and written, and what it says of the actions stays until the next round, if it is
the same resource. -/
structure IsFaithful (request : NamespacedName) (w : World) (r : StatefulSetRound) : Prop where
  can : CanMark r.env request
  same : r.created = true ∨ w.coherence.Descends Coherence.Remembers request (r.change w).coherence

/-- The actions are gone through in this round. -/
def Executes (op : Operator) (request : NamespacedName) (w : World) (r : StatefulSetRound) : Prop :=
  (r.step op request w).executions ≠ (r.change w).executions

/-- They are gone through once, of a resource that is not scaled to zero, where the status says that it is ready. -/
def ExecutesWhenReady (op : Operator) (request : NamespacedName) (w : World) (r : StatefulSetRound) : Prop :=
  r.Executes op request w → (r.step op request w).executions = (r.change w).executions + 1 ∧
    (∃ d, r.deployment request w = .coherence (some d) ∧ d.getReplicas ≠ 0) ∧
    ∃ c, (r.change w).coherence.get request = some c ∧ c.status.phase = some .ready

/-- The resource is another one, or it is scaled to zero. -/
def Restarts (request : NamespacedName) (w : World) (r : StatefulSetRound) : Prop :=
  r.created = true ∨ (r.deployment request w).getReplicas = .ok 0

/-- The actions of a resource that is being deleted, is ready, and is not scaled to zero, were gone through. -/
def IsSettled (request : NamespacedName) (w : World) (r : StatefulSetRound) : Prop :=
  ∀ c, (r.change w).coherence.get request = some c → c.metadata.deletionTimestamp.isSome → c.status.phase = some .ready →
    (r.deployment request w).getReplicas ≠ .ok 0 → c.status.actionsExecuted = true

/-! ### One round -/

/-- What comes of a round. -/
theorem rounded (h : CanMark r.env request) :
    Rounded request (r.deployment request w) (r.change w) (r.step op request w) := by
  unfold step reconcile deployment
  cases r.passed with
  | none => exact wp_reconcile_acted h
  | some p => exact wp_reconcileAllResourceOfKind_acted h rfl

/-- A round in which the actions are gone through. -/
theorem acted_of_executes (h : CanMark r.env request) (hexecutes : r.Executes op request w) :
    Acted request (r.deployment request w) (r.change w) (r.step op request w) := by
  obtain hidle | ⟨-, hidle⟩ | hacted := rounded h
  · exact absurd hidle.executions hexecutes
  · exact absurd hidle.executions hexecutes
  · exact hacted

theorem executesWhenReady (h : CanMark r.env request) : r.ExecutesWhenReady op request w := by
  intro hexecutes
  obtain ⟨hcount, hreplicas, c, hc, hphase, -⟩ := acted_of_executes h hexecutes
  exact ⟨hcount, hreplicas, c, hc, hphase⟩

/-- The status of the resource, if it is there, says that the actions were gone through. -/
def IsDone (request : NamespacedName) (w : World) : Prop :=
  ∀ c, w.coherence.get request = some c → c.status.actionsExecuted = true

theorem IsDone.of_descends {u v : World} (h : IsDone request u) (hdescends : u.coherence.Descends Coherence.Remembers request v.coherence) :
    IsDone request v := by
  intro c' hc'
  obtain ⟨c, hc, hremembers⟩ := hdescends c' hc'
  exact hremembers (h c hc)

/-- After a round in which they are, unless the resource is being deleted. -/
theorem isDone_of_executes (h : r.IsFaithful request w) (hsettled : r.IsSettled request w) (hexecutes : r.Executes op request w) :
    IsDone request (r.step op request w) := by
  obtain ⟨-, ⟨d, hd, hreplicas⟩, c, hc, hphase, hflag, hmarked⟩ := acted_of_executes h.can hexecutes
  refine hmarked ?_
  by_contra hdeleted
  have hdone : c.status.actionsExecuted = true := by
    refine hsettled c hc (Option.isSome_iff_ne_none.2 hdeleted) hphase ?_
    rw [hd, Deployment.getReplicas]
    simpa using hreplicas
  rw [hdone] at hflag
  cases hflag

/-- In a round after that they are not, and the status still says so. -/
theorem isDone_step (h : r.IsFaithful request w) (hdone : IsDone request w) (hrestarts : ¬ r.Restarts request w) :
    IsDone request (r.step op request w) ∧ ¬ r.Executes op request w := by
  have hchange : IsDone request (r.change w) := by
    obtain hcreated | hsame := h.same
    · exact absurd (.inl hcreated) hrestarts
    · exact hdone.of_descends hsame
  have hrounded : Rounded request (r.deployment request w) (r.change w) (r.step op request w) := rounded h.can
  obtain hidle | ⟨hzero, -⟩ | hacted := hrounded
  · exact ⟨hchange.of_descends hidle.resource, fun hexecutes => hexecutes hidle.executions⟩
  · exact absurd (.inr hzero) hrestarts
  · obtain ⟨c, hc, -, hflag, -⟩ := hacted.resource
    rw [hchange c hc] at hflag
    cases hflag

end StatefulSetRound

/-! ### All rounds -/

open StatefulSetRound

/-- The actions are gone through only where the resource is ready and not scaled to zero, and no two rounds go through them but after
the resource was created anew or scaled to zero between them. -/
def ActionsRunOnce (op : Operator) (request : NamespacedName) (w : World) (rs : List StatefulSetRound) : Prop :=
  Along (step op request) (fun u r => r.ExecutesWhenReady op request u) w rs ∧
    ∀ i j, i < j → At (step op request) (fun u r => r.Executes op request u) w rs i →
      At (step op request) (fun u r => r.Executes op request u) w rs j →
        ∃ k, i < k ∧ k ≤ j ∧ At (step op request) (fun u r => r.Restarts request u) w rs k

/-- **The actions are gone through once**, whatever the order of the rounds, if they were before the resource is deleted. -/
theorem actions_run_once (op : Operator) (request : NamespacedName) (w : World) (rs : List StatefulSetRound)
    (h : Along (step op request) (fun u r => r.IsFaithful request u ∧ r.IsSettled request u) w rs) :
    ActionsRunOnce op request w rs := by
  constructor
  · refine Along.mono_of_invariant (I := fun _ => True) (fun _ _ _ _ => trivial) (fun u r _ hr => ?_) h trivial
    exact executesWhenReady hr.1.can
  · intro i j hij hi hj
    refine Along.exists_at_between (I := IsDone request) (fun u r hr hexecutes => ?_) (fun u r hr hdone hrestarts => ?_) h hij hi hj
    · exact isDone_of_executes hr.1 hr.2 hexecutes
    · exact isDone_step hr.1 hdone hrestarts

/-- A resource that is ready, with an action, and whether it is being deleted. -/
def loadingCoherence (deleted : Bool) : Coherence where
  metadata :=
    { ns := "default", name := "storage", finalizers := [CoherenceFinalizer]
      deletionTimestamp := if deleted then some 1 else none }
  spec := { replicas := some 3, actions := [{ name := "load" }] }
  status := { phase := some .ready }

/-- Its StatefulSet. -/
def loadingSet : StatefulSet where
  metadata := { ns := "default", name := "storage", ownerReferences := [⟨"Coherence", "storage", true⟩] }
  spec := { replicas := some 3 }

/-- A cluster with both. -/
def loadingCluster (deleted : Bool) : World :=
  { (default : World) with
    coherence := Table.empty.put (loadingCoherence deleted), objects := Table.empty.put loadingSet.toObject }

/-- A round on an event. -/
def eventRound : StatefulSetRound := { change := id, env := {} }

theorem isFaithful_eventRound : eventRound.IsFaithful request w := ⟨⟨fun _ => rfl, fun _ => rfl⟩, .inr .refl⟩

/-- A resource that is not being deleted. -/
theorem isSettled_of_live (h : ((w.coherence.get request).all fun c => c.metadata.deletionTimestamp.isNone) = true) :
    eventRound.IsSettled request w := by
  intro c hc hdeleted
  have hget : w.coherence.get request = some c := hc
  rw [hget, Option.all_some, Option.isNone_iff_eq_none] at h
  rw [h] at hdeleted
  cases hdeleted

/-- Two rounds of a resource that is not being deleted. -/
theorem actions_run_once_live : ActionsRunOnce default ⟨"default", "storage"⟩ (loadingCluster false) [eventRound, eventRound] := by
  apply actions_run_once
  refine ⟨⟨isFaithful_eventRound, isSettled_of_live ?_⟩, ⟨isFaithful_eventRound, isSettled_of_live ?_⟩, trivial⟩
  · decide +kernel
  · decide +kernel

/-- **Every round goes through the actions** of a resource that is deleted after it has become ready. -/
theorem not_forall_actionsRunOnce : ¬ ∀ op request w rs,
    Along (step op request) (fun u r => r.IsFaithful request u) w rs → ActionsRunOnce op request w rs := by
  intro h
  obtain ⟨-, honce⟩ := h default ⟨"default", "storage"⟩ (loadingCluster true) [eventRound, eventRound]
    ⟨isFaithful_eventRound, isFaithful_eventRound, trivial⟩
  have hfirst : eventRound.Executes default ⟨"default", "storage"⟩ (loadingCluster true) := by
    unfold Executes
    decide +kernel
  have hsecond : eventRound.Executes default ⟨"default", "storage"⟩ (eventRound.step default ⟨"default", "storage"⟩ (loadingCluster true)) := by
    unfold Executes
    decide +kernel
  obtain ⟨k, h0k, hk1, hat⟩ := honce 0 1 Nat.zero_lt_one (at_cons_zero.2 hfirst) (at_cons_succ.2 (at_cons_zero.2 hsecond))
  obtain rfl : k = 1 := by omega
  obtain hcreated | hzero := at_cons_zero.1 (at_cons_succ.1 hat)
  · cases hcreated
  · have hreplicas : (eventRound.deployment ⟨"default", "storage"⟩ (eventRound.step default ⟨"default", "storage"⟩ (loadingCluster true))).getReplicas =
        .ok 3 := by
      decide +kernel
    rw [hreplicas, Except.ok.injEq] at hzero
    omega

end CoherenceOperator
