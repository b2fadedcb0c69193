import CoherenceOperator.Properties.Exemptions
import CoherenceOperator.Properties.Gates
import CoherenceOperator.Properties.Readiness
import CoherenceOperator.Properties.Scaling

/-!
# Members are asked before a StatefulSet is scaled

Before it takes a member away, or adds one, the operator asks the members for their HA status, and it goes on only if one of them says that all is in order. What
that member looks at are the services that it sees itself, but for those that the resource lets be endangered; their names have come to it through the
environment and the arguments of the virtual machine. So a StatefulSet of more than one member is scaled only if a member has found, in the same round,
that no service would lose data (`along_scalesWhenSafe`).
-/

namespace CoherenceOperator

open Effect Prog ArgumentFile JavaCommand ProbeActions

/-- A member, and what it finds when it is asked: the resource that its Pod was made for, and the files that its runner made. -/
structure MemberHealth where
  deployment : CoherenceResource
  machine : Machine
  others : String → String
  files : String × String
  created : createsFiles machine (exemptionEnviron deployment others) = .ok files
  sighting : Sighting

namespace MemberHealth

variable (m : MemberHealth)

/-- The response to a request for `/ha`. -/
def ha : ℤ := HealthServer.statusHA (receivedExemptions m.files.1) m.sighting

/-- The names of the services that may be endangered are ordinary ones, and the other options do not get in the way. -/
structure IsOrdinary : Prop where
  names : ∀ n ∈ m.deployment.exemptions, IsServiceName n ∧ IsUnquoted n ∧ hasReference n.toList = false
  others : Undisturbed m.machine (exemptionEnviron m.deployment m.others)

/-- All is in order, but for the services that may be endangered. -/
def FindsInOrder : Prop := m.sighting.IsHA (m.deployment.exemptions.map String.toList) ∧ m.sighting.IsIdle

variable {m}

theorem receivedExemptions_eq (h : m.IsOrdinary) : receivedExemptions m.files.1 = m.deployment.exemptions.map String.toList :=
  received_names (exemptionEnviron_eq m.deployment m.others) (fun n hn => (h.names n hn).1) (fun n hn => (h.names n hn).2.1)
    (fun n hn => (h.names n hn).2.2) h.others m.created

theorem ha_eq (h : m.IsOrdinary) : m.ha = 200 ↔ m.FindsInOrder := by
  rw [ha, receivedExemptions_eq h]
  exact HealthServer.statusHA_eq

/-- There is no response but these. -/
theorem ha_cases : m.ha = 200 ∨ m.ha = 400 ∨ m.ha = 500 := by
  have hsent : ∀ response : Except Throwable ℤ, (∀ status, response = .ok status → status = 200 ∨ status = 400) →
      HealthServer.sent response = 200 ∨ HealthServer.sent response = 400 ∨ HealthServer.sent response = 500 := by
    intro response hresponse
    cases response with
    | ok status => exact (hresponse status rfl).imp_right .inl
    | error thrown =>
      rw [HealthServer.sent, handleError]
      split
      · exact .inr (.inl rfl)
      · exact .inr (.inr rfl)
  refine hsent _ fun status hstatus => ?_
  obtain ⟨isHA, -, hstatus⟩ := bind_eq_ok.1 hstatus
  obtain ⟨isIdle, -, hstatus⟩ := bind_eq_ok.1 hstatus
  cases hstatus
  split
  · exact .inl rfl
  · exact .inr rfl

end MemberHealth

/-! ### The gate -/

section Gate

variable {env : ProbeEnv} {svc : String} {op : Operator} {sts : StatefulSet} {spec : CoherenceStatefulSetResourceSpec} {pods : List Pod} {pod : Pod}
  {health : Pod → MemberHealth} {active : Probe} {options : ProbeExecutionOptions}

/-- A request for `/ha` at the address of a Pod is answered by its member, if there is a response. -/
def LeadsToMembers (env : ProbeEnv) (health : Pod → MemberHealth) (pods : List Pod) : Prop :=
  ∀ pod ∈ pods, ∀ a url headers, a.path = "/ha" → httpGetURL env pod a = .ok url →
    ∃ response, env.httpGet url headers = doHTTPProbe response ∧ ∀ r, response = .ok r → r.statusCode = (health pod).ha

/-- The generated probe, whatever the security of the member, is a request for `/ha`. -/
theorem activeProbe_default (hs : options.suspension = false)
    (h : CoherenceProbe.activeProbe op options CoherenceStatefulSetResourceSpec.getDefaultScalingProbe pod = .ok active) :
    ∃ a, a.path = "/ha" ∧ active.http = none ∧ active.exec = none ∧ active.httpGet = some a := by
  have hdefault : CoherenceStatefulSetResourceSpec.getDefaultScalingProbe.httpGet = some { path := "/ha", port := .str "health" } := rfl
  have hsecure : ∀ {c}, CoherenceProbe.secureProbe options c CoherenceStatefulSetResourceSpec.getDefaultScalingProbe = .ok active →
      ∃ a, a.path = "/ha" ∧ active.http = none ∧ active.exec = none ∧ active.httpGet = some a := by
    intro c hc
    simp only [CoherenceProbe.secureProbe, hs, Bool.false_eq_true, if_false, hdefault] at hc
    split at hc
    · cases hc
      exact ⟨_, rfl, rfl, rfl, rfl⟩
    · cases hc
      exact ⟨_, rfl, rfl, rfl, rfl⟩
  simp only [CoherenceProbe.activeProbe] at h
  split at h
  · split at h
    · cases h
    split at h
    · cases h
    split at h
    · exact hsecure h
    · cases h
      exact ⟨_, rfl, rfl, rfl, rfl⟩
  split at h
  · cases h
  · cases h
    exact ⟨_, rfl, rfl, rfl, rfl⟩

/-- A probe that succeeds has had a response that is none to reject. -/
theorem statusCode_of_doHTTPProbe {response : Except Bool HTTPResponse} (h : doHTTPProbe response = .ok true) :
    ∃ r, response = .ok r ∧ 200 ≤ r.statusCode ∧ r.statusCode < 400 := by
  unfold doHTTPProbe at h
  split at h
  · cases h
  · rename_i r
    split at h
    · cases h
    split at h
    · rename_i hcode
      exact ⟨r, rfl, hcode⟩
    · cases h

/-- A Pod on which the generated probe succeeds has a member that answered that all is in order. -/
theorem ha_of_podOutcome (hs : options.suspension = false) (hnet : LeadsToMembers env health pods) (hpod : pod ∈ pods)
    (h : podOutcome env svc op options CoherenceStatefulSetResourceSpec.getDefaultScalingProbe pod = .ok true) : (health pod).ha = 200 := by
  obtain ⟨active, hactive, hrun⟩ := bind_eq_ok.1 h
  obtain ⟨a, hpath, hhttp, hexec, hget⟩ := activeProbe_default hs hactive
  have hnoop : active.legacyNoOpReason = none := by simp [Probe.legacyNoOpReason, hget]
  have haction : (exec (probeUsingHTTP env svc pod a) []).1 = .ok true := by
    rw [runProbe] at hrun
    split at hrun
    · cases hrun
    · simpa only [hnoop, Option.isSome_none, Bool.false_eq_true, if_false, runAction, hhttp, hexec, hget] using hrun
  rw [probeUsingHTTP] at haction
  cases hurl : httpGetURL env pod a with
  | error e =>
    rw [hurl] at haction
    cases haction
  | ok url =>
    obtain ⟨response, hresponse, hcode⟩ := hnet pod hpod a url (⟨"Host", getPodHostName env svc pod⟩ :: a.httpHeaders) hpath hurl
    have hprobe : doHTTPProbe response = .ok true := by
      rw [← hresponse]
      rw [hurl] at haction
      exact haction
    obtain ⟨r, hr, hmin, hmax⟩ := statusCode_of_doHTTPProbe hprobe
    rw [hcode r hr] at hmin hmax
    rcases (health pod).ha_cases with hha | hha | hha
    · exact hha
    · omega
    · omega

/-- **The gate** opens only if there are no Pods, or all of them are up and one of their members has found all in order. -/
theorem findsInOrder_of_gate (hgenerated : spec.scaling.bind (·.probe) = none) (hnet : LeadsToMembers env health pods)
    (hordinary : ∀ pod ∈ pods, (health pod).IsOrdinary)
    (h : (exec (ProbeActions.isStatusHA env svc op sts spec (.ok pods)) []).1 = .ok true) :
    pods = [] ∨ sts.IsUp pods ∧ ∃ pod ∈ pods, (health pod).FindsInOrder := by
  have hprobe : (resolveScalingProbe spec).probe = CoherenceStatefulSetResourceSpec.getDefaultScalingProbe := by
    rw [resolveScalingProbe_probe, CoherenceStatefulSetResourceSpec.getScalingProbe, hgenerated]
    rfl
  have hgate : ProbeActions.isStatusHA env svc op sts spec (.ok pods) =
      executeScalingProbeForSubSetOfPods env svc op sts (resolveScalingProbe spec) pods pods := by
    have hmutates : (resolveScalingProbe spec).probe.mutates = false := by
      rw [hprobe]
      rfl
    rw [ProbeActions.isStatusHA, hmutates]
    rfl
  rcases hexecuted : exec (executeProbeForPods env svc op sts (resolveScalingProbe spec).probe pods pods
    { generatedHealthProbe := (resolveScalingProbe spec).generated }) [] with ⟨result, contacts⟩
  rw [hgate, exec_executeScalingProbe hexecuted] at h
  have htrue : result = .ok true := by
    cases result with
    | error e => cases h
    | ok b =>
      cases h
      rfl
  subst htrue
  refine (trueOnlyIf (congrArg Prod.fst hexecuted)).imp_right ?_
  rintro ⟨hup, before, pod, after, hpods, -, hpod, -⟩
  have hmem : pod ∈ pods := by simp [hpods]
  rw [hprobe] at hpod
  exact ⟨hup, pod, hmem, (MemberHealth.ha_eq (hordinary pod hmem)).1 (ha_of_podOutcome rfl hnet hmem hpod)⟩

end Gate

/-! ### Rounds -/

/-- A round of `updateStatefulSet` for a Coherence resource: what the API server and the members answer, and what has become of the StatefulSet by then. -/
structure HealthRound where
  env : Env
  deployment : Coherence
  st : Storage
  status : StatefulSetStatus
  probes : ProbeEnv
  /-- The Pods that the selector of the StatefulSet matches, or why they could not be listed. -/
  found : Except GoError (List Pod)
  health : Pod → MemberHealth

namespace HealthRound

variable (op : Operator) (key : NamespacedName)

/-- `IsStatusHA` of the live StatefulSet. -/
def isStatusHA (w : World) (r : HealthRound) : Bool :=
  ((w.statefulSet key).map fun current => (exec (ProbeActions.isStatusHA r.probes r.deployment.toResource.wkaServiceName op
    { current with status := r.status } r.deployment.spec r.found) []).1.toOption.getD false).getD true

/-- The round, given what the members have answered. -/
def toScalingRound (w : World) (r : HealthRound) : ScalingRound where
  env := { r.env with isStatusHA := r.isStatusHA op key w }
  deployment := .coherence (some r.deployment)
  st := r.st
  status := r.status

/-- The cluster after the round. -/
def step (w : World) (r : HealthRound) : World := ScalingRound.step op key w (r.toScalingRound op key w)

/-- The StatefulSet is scaled under a safe policy, the scaling probe is the generated one, and its requests lead to the members. -/
structure IsGuarded (w : World) (r : HealthRound) : Prop where
  policy : ScalingRound.IsUnderSafePolicy op key w (r.toScalingRound op key w)
  generated : r.deployment.spec.scaling.bind (·.probe) = none
  leads : ∀ pods, r.found = .ok pods → LeadsToMembers r.probes r.health pods ∧ ∀ pod ∈ pods, (r.health pod).IsOrdinary

/-- A round that scales a StatefulSet of other than one member, and finds Pods of it, finds all of them up, and a member that has found all in order. -/
def ScalesWhenSafe (w : World) (r : HealthRound) : Prop :=
  ∀ current next, w.statefulSet key = some current → (r.step op key w).statefulSet key = some next →
    next.getReplicas ≠ current.getReplicas → current.getReplicas ≠ 1 →
      ∃ pods, r.found = .ok pods ∧
        (pods = [] ∨ StatefulSet.IsUp current pods ∧ ∃ pod ∈ pods, (r.health pod).FindsInOrder)

variable {op key} {w : World} {r : HealthRound}

/-- **One round.** -/
theorem scalesWhenSafe_step (hmerge : op.merge.KeepsReplicas) (h : r.IsGuarded op key w) : r.ScalesWhenSafe op key w := by
  intro current next hcurrent hnext hne hone
  obtain ⟨next', hnext', hscales⟩ := ScalingRound.isSafe_step hmerge h.policy current hcurrent
  have hsame : next' = next := Option.some.inj (hnext'.symm.trans hnext)
  subst hsame
  have hha : r.isStatusHA op key w = true := (hscales.probed hne).resolve_left hone
  rw [isStatusHA, hcurrent, Option.map_some, Option.getD_some] at hha
  have hgate : (exec (ProbeActions.isStatusHA r.probes r.deployment.toResource.wkaServiceName op { current with status := r.status }
      r.deployment.spec r.found) []).1 = .ok true := by
    generalize (exec (ProbeActions.isStatusHA r.probes r.deployment.toResource.wkaServiceName op { current with status := r.status }
      r.deployment.spec r.found) []).1 = result at hha ⊢
    cases result with
    | error e => cases hha
    | ok b => exact congrArg Except.ok hha
  cases hfound : r.found with
  | error e =>
    rw [hfound] at hgate
    simp only [ProbeActions.isStatusHA, executeScalingProbe] at hgate
    split at hgate <;> cases hgate
  | ok pods =>
    rw [hfound] at hgate
    obtain ⟨hleads, hordinary⟩ := h.leads pods hfound
    refine ⟨pods, rfl, (findsInOrder_of_gate h.generated hleads hordinary hgate).imp_right ?_⟩
    rintro ⟨hup, hpod⟩
    exact ⟨⟨hup.pods, hup.count⟩, hpod⟩

end HealthRound

/-- A service that is safe, seen by one of three members. -/
def safeSighting : Sighting :=
  let cache : CacheService :=
    { ownershipEnabledMembers := {1, 2, 3}, partitionCount := 257, ownedPartitions := 86, backupStrengthName := "NODE-SAFE", backupCount := 1 }
  let cluster : MemberCluster := { isRunning := true, memberSet := {1, 2, 3}, services := [("PartitionedCache", .safe true cache)] }
  { members := .ok (some cluster), again := .ok (some cluster), ha := .ok (some cluster), idle := .ok (some cluster) }

/-- A round with three Pods, whose members are like this one. -/
def askingRound (m : MemberHealth) : HealthRound where
  env := {}
  deployment := shrinking
  st := (shrinkingRound true).st
  status := { readyReplicas := 3 }
  probes := { httpGet := fun _ _ => doHTTPProbe (.ok { statusCode := m.ha }) }
  found := .ok (["storage-0", "storage-1", "storage-2"].map fun name =>
    { name, ns := "default", podIP := "10.0.0.7", readySince := some 0
      containers := [{ name := "coherence", ports := [{ name := "health", containerPort := 6676 }] }] })
  health := fun _ => m

theorem leadsToMembers_askingRound {m : MemberHealth} {pods : List Pod} : LeadsToMembers (askingRound m).probes (askingRound m).health pods := by
  intro pod _ a url headers _ _
  refine ⟨.ok { statusCode := m.ha }, rfl, ?_⟩
  rintro r ⟨⟩
  rfl

end CoherenceOperator
