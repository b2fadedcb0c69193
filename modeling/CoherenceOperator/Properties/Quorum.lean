import CoherenceOperator.Footprint.Notes

/-!
# The start quorum

An entry of a start quorum names a resource that has to be there, with as many ready Pods as the entry asks for, or, if it
asks for no number, in the phase `Ready`. What `canCreate` makes of the entries is more than that: it also asks for the phase
where there is a number.
-/

namespace CoherenceOperator

open Effect Prog

namespace StartQuorum

variable (q : StartQuorum)

/-- The resource that an entry of a resource in the namespace `ns` names. -/
def key (ns : String) : NamespacedName := ⟨if q.ns = "" then ns else q.ns, q.deployment⟩

/-- An entry is met, as the documentation has it, by what was found for it. -/
def IsMet : Except GoError (Option Coherence) → Prop
  | .ok (some dep) =>
    if q.podCount > 0 then q.podCount ≤ dep.status.readyReplicas else dep.status.phase = some .ready
  | _ => False

/-- What was found is in the phase `Ready`, if a number of Pods is asked for. -/
def IsReadyIfCounted : Except GoError (Option Coherence) → Prop
  | .ok (some dep) => q.podCount > 0 → dep.status.phase = some .ready
  | _ => True

variable {q} {found : Except GoError (Option Coherence)} {ns : String}

/-- An entry that keeps a resource from being created: it is not met, or it is met before the resource it names is `Ready`. -/
theorem unmet_eq_none_iff : q.unmet ns found = none ↔ q.IsMet found ∧ q.IsReadyIfCounted found := by
  rcases found with e | _ | dep
  · simp [unmet, IsMet]
  · simp [unmet, IsMet]
  · simp only [unmet, IsMet, IsReadyIfCounted]
    by_cases hcount : q.podCount > 0
    · by_cases hready : dep.status.readyReplicas < q.podCount
      · simp [hcount, hready]
      · simp [hcount, hready, not_lt.1 hready]
    · simp [hcount]

end StartQuorum

/-- What is found for the entries that name a resource: a request for each of them, one after the other. -/
def quorumFinds (env : Env) (ns : String) (w : World) :
    List StartQuorum → List (StartQuorum × Except GoError (Option Coherence))
  | [] => []
  | q :: qs =>
    if q.deployment = "" then quorumFinds env ns w qs
    else
      let c : ApiCall := ⟨.get, .coherence, q.key ns⟩
      (q, (w.answer c env).map fun _ => w.coherence.get (q.key ns)) :: quorumFinds env ns (w.sent c) qs

section

variable {env : Env} {ns : String} {w : World} {qs : List StartQuorum} {deployment : Deployment} {d : CoherenceResource}

/-- What a `Get` of a resource comes to: a failure is handed over, for it is no panic. -/
theorem exec_attempt_getCoherence {key : NamespacedName} :
    exec (Op.attempt (getCoherence env key)) w =
      (.ok ((w.answer ⟨.get, .coherence, key⟩ env).map fun _ => w.coherence.get key), w.sent ⟨.get, .coherence, key⟩) := by
  rw [Op.attempt, exec_attempt, getCoherence, exec_read]
  cases h : w.answer ⟨.get, .coherence, key⟩ env with
  | error e =>
    have hpanic := World.isPanic_of_answer _ _ h
    simp only [Except.map]
    rw [caught_error hpanic]
  | ok _ => rfl

variable (env ns qs) in
/-- **The entries that are not met** are those that `unmet` says so of, given what was found for them. -/
theorem exec_unmetQuorum (w : World) : ∃ u, exec (unmetQuorum env ns qs) w =
    (.ok ((quorumFinds env ns w qs).filterMap fun p => p.1.unmet (p.1.key ns).ns p.2), u) := by
  induction qs generalizing w with
  | nil => exact ⟨w, rfl⟩
  | cons q qs ih =>
    by_cases hname : q.deployment = ""
    · rw [unmetQuorum, quorumFinds, if_pos hname, if_pos hname]
      exact ih w
    · obtain ⟨u, hu⟩ := ih (w.sent ⟨.get, .coherence, q.key ns⟩)
      refine ⟨u, ?_⟩
      rw [unmetQuorum, quorumFinds, if_neg hname, if_neg hname]
      show exec (Op.attempt (getCoherence env (q.key ns)) >>= _) w = _
      rw [exec_bind_ok exec_attempt_getCoherence, exec_bind_ok hu, exec_pure, List.filterMap_cons]
      -- the entry is first among those that are not met, or it is not among them
      show (Except.ok ((q.unmet (q.key ns).ns _).toList ++ _), u) = _
      cases q.unmet (q.key ns).ns ((w.answer ⟨.get, .coherence, q.key ns⟩ env).map fun _ => w.coherence.get (q.key ns)) with
      | none => rfl
      | some _ => rfl

/-- A resource is created if no entry stands in the way. -/
theorem canCreate_iff (hd : deployment.deref = .ok d) :
    (exec (canCreate env deployment) w).1 = .ok none ↔
      ∀ p ∈ quorumFinds env d.ns w d.spec.startQuorum, p.1.IsMet p.2 ∧ p.1.IsReadyIfCounted p.2 := by
  obtain ⟨u, hu⟩ := exec_unmetQuorum env d.ns d.spec.startQuorum w
  have hfound : ∀ p : StartQuorum × Except GoError (Option Coherence),
      p.1.unmet (p.1.key d.ns).ns p.2 = none ↔ p.1.IsMet p.2 ∧ p.1.IsReadyIfCounted p.2 :=
    fun p => StartQuorum.unmet_eq_none_iff
  have hderef : exec (outcome deployment.deref : Op CoherenceResource) w = (.ok d, w) := by rw [hd, exec_outcome]
  rw [canCreate, exec_bind_ok hderef, exec_bind_ok hu]
  simp only [← hfound, ← List.filterMap_eq_nil_iff]
  generalize (quorumFinds env d.ns w d.spec.startQuorum).filterMap _ = unmet
  cases unmet with
  | nil => simp
  | cons _ _ => simp

end

/-- A resource is created exactly if every entry of its start quorum that names a resource is met. -/
def FollowsQuorum (env : Env) (deployment : Deployment) (d : CoherenceResource) (w : World) : Prop :=
  (exec (canCreate env deployment) w).1 = .ok none ↔
    ∀ p ∈ quorumFinds env d.ns w d.spec.startQuorum, p.1.IsMet p.2

/-- **The start quorum** is followed exactly if an entry is not met, or every entry that asks for a number of Pods finds a
resource that is `Ready` as a whole. -/
theorem followsQuorum_iff {env : Env} {deployment : Deployment} {d : CoherenceResource} {w : World}
    (hd : deployment.deref = .ok d) :
    FollowsQuorum env deployment d w ↔
      (∃ p ∈ quorumFinds env d.ns w d.spec.startQuorum, ¬ p.1.IsMet p.2) ∨
        ∀ p ∈ quorumFinds env d.ns w d.spec.startQuorum, p.1.IsReadyIfCounted p.2 := by
  rw [FollowsQuorum, canCreate_iff hd]
  constructor
  · intro h
    by_cases hmet : ∀ p ∈ quorumFinds env d.ns w d.spec.startQuorum, p.1.IsMet p.2
    · exact .inr fun p hp => (h.2 hmet p hp).2
    · push Not at hmet
      exact .inl hmet
  · rintro (⟨p, hp, hunmet⟩ | hready)
    · constructor
      · exact fun h => absurd (h p hp).1 hunmet
      · exact fun h => absurd (h p hp) hunmet
    · constructor
      · exact fun h p hp => (h p hp).1
      · exact fun h p hp => ⟨h p hp, hready p hp⟩

/-- The `data` of a cluster, of which one Pod is ready. -/
def partlyStarted (phase : ConditionType) : World :=
  { (default : World) with coherence := Table.empty.put {
      metadata := { ns := "default", name := "data" }
      spec := { replicas := some 3 }
      status := { phase := some phase, readyReplicas := 1 } } }

/-- Its `proxy`, which needs one Pod of them. -/
def proxy : Coherence where
  metadata := { ns := "default", name := "proxy" }
  spec := { startQuorum := [{ deployment := "data", podCount := 1 }] }

theorem followsQuorum_proxy : FollowsQuorum {} (.coherence (some proxy)) proxy.toResource (partlyStarted .ready) := by
  refine (followsQuorum_iff rfl).2 (.inr ?_)
  intro p hp
  obtain rfl := List.mem_singleton.1 hp
  exact fun _ => rfl

/-- The `proxy` is not created when one Pod of `data` is ready. -/
theorem not_forall_followsQuorum :
    ¬ ∀ (env : Env) (deployment : Deployment) (d : CoherenceResource) (w : World), deployment.deref = .ok d →
      FollowsQuorum env deployment d w := by
  intro h
  have hcreated := (h {} (.coherence (some proxy)) proxy.toResource (partlyStarted .created) rfl).2 ?_
  · cases hcreated
  · intro p hp
    obtain rfl := List.mem_singleton.1 hp
    show (1 : ℤ) ≤ 1
    exact le_rfl

end CoherenceOperator
