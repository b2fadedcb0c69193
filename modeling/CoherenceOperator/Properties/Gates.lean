import CoherenceOperator.Properties.ProbeLaw

/-!
# The gates

The scaling probe is asked before a StatefulSet is scaled or updated (`isStatusHA`), and before the Pods of a node are upgraded.
Only the first of these looks at the method of the probe's request.
-/

namespace CoherenceOperator

open Effect Prog

namespace ProbeActions

/-- Where the scaling probe is executed: with the Pods that were found, or for some of them, when there are any. -/
inductive Gate where
  | isStatusHA (found : Except GoError (List Pod))
  | rollingUpgrade (pods : List Pod) (found : pods ≠ []) (update : List Pod)

/-- Execute the scaling probe. -/
def Gate.run (env : ProbeEnv) (svc : String) (op : Operator) (sts : StatefulSet) (spec : CoherenceStatefulSetResourceSpec) :
    Gate → ProbeOp Bool
  | isStatusHA found => ProbeActions.isStatusHA env svc op sts spec found
  | rollingUpgrade pods _ update => executeScalingProbeForSubSetOfPods env svc op sts (resolveScalingProbe spec) pods update

/-- A gate sends `GET` requests only, and with another request for a probe it fails without a contact. -/
structure NeverMutates (env : ProbeEnv) (svc : String) (op : Operator) (sts : StatefulSet)
    (spec : CoherenceStatefulSetResourceSpec) (gate : Gate) : Prop where
  gets : ∀ pod a req, .http pod a req ∈ (exec (gate.run env svc op sts spec) []).2 → req.method = "GET"
  fails : spec.getScalingProbe.mutates = true → exec (gate.run env svc op sts spec) [] = (.ok false, [])

section

variable {env : ProbeEnv} {svc : String} {op : Operator} {sts : StatefulSet} {spec : CoherenceStatefulSetResourceSpec}
  {resolved : ResolvedScalingProbe} {options : ProbeExecutionOptions} {p active : Probe} {a : HTTPAction} {req : HTTPRequest}
  {pod : Pod} {stsPods pods : List Pod}

/-! ### When a request is sent -/

/-- A request can be built: the action is valid, the port is found, the address is a URL, and the Secrets are read. -/
structure Buildable (env : ProbeEnv) (pod : Pod) (p : Probe) (a : HTTPAction) : Prop where
  valid : ∃ u, p.validateAction = .ok u
  url : ∃ port, findPort env pod a.port = .ok port ∧ ∃ url,
    buildHTTPProbeURL (if a.scheme = "" then "HTTP" else a.scheme)
      (if a.host = "" then getPodIpOrHostName env pod else a.host) port a.path = .ok url
  trust : ∃ config, tlsConfig env pod.ns a = .ok config
  credentials : ∃ headers, authorization env pod.ns a = .ok headers

theorem mapError_eq_ok {α : Type} {x : Except String α} {f : String → ProbeError} {r : α} :
    x.mapError f = .ok r ↔ x = .ok r := by
  cases x with
  | error e =>
    constructor
    · intro h
      cases h
    · intro h
      cases h
  | ok b =>
    constructor
    · intro h
      cases h
      rfl
    · intro h
      cases h
      rfl

variable (svc) in
/-- The request is built of its parts, with the method of the action. -/
theorem exists_buildRequest_iff :
    (∃ req, buildRequest env svc pod p a = .ok req ∧ req.method = if a.method = "" then "GET" else a.method) ↔
      Buildable env pod p a := by
  constructor
  · rintro ⟨req, h, -⟩
    rw [buildRequest] at h
    split at h
    · cases h
    rename_i hvalid
    obtain ⟨port, hport, h⟩ := bind_eq_ok.1 h
    obtain ⟨url, hurl, h⟩ := bind_eq_ok.1 h
    obtain ⟨tls, htls, h⟩ := bind_eq_ok.1 h
    obtain ⟨auth, hauth, -⟩ := bind_eq_ok.1 h
    exact ⟨⟨_, hvalid⟩, ⟨port, mapError_eq_ok.1 hport, url, mapError_eq_ok.1 hurl⟩, ⟨tls, htls⟩, ⟨auth, hauth⟩⟩
  · rintro ⟨⟨_, hvalid⟩, ⟨port, hport, url, hurl⟩, ⟨tls, htls⟩, ⟨auth, hauth⟩⟩
    rw [buildRequest, hvalid, hport]
    simp only [Except.mapError, bind, Except.bind, hurl, htls, hauth]
    exact ⟨_, rfl, rfl⟩

/-- A request that is built has the method of the action. -/
theorem method_eq (h : buildRequest env svc pod p a = .ok req) :
    req.method = (if a.method = "" then "GET" else a.method) := by
  rw [buildRequest] at h
  split at h
  · cases h
  obtain ⟨_, -, h⟩ := bind_eq_ok.1 h
  obtain ⟨_, -, h⟩ := bind_eq_ok.1 h
  obtain ⟨_, -, h⟩ := bind_eq_ok.1 h
  obtain ⟨_, -, h⟩ := bind_eq_ok.1 h
  cases h
  rfl

/-- The security of a member changes the HTTP action of a suspension only, and no other check of the probe. -/
theorem eq_of_activeProbe (hs : options.suspension = false)
    (h : CoherenceProbe.activeProbe op options p pod = .ok active) :
    active.http = p.http ∧ active.validateAction = p.validateAction := by
  have hsecure : ∀ {c}, CoherenceProbe.secureProbe options c p = .ok active →
      active.http = p.http ∧ active.validateAction = p.validateAction := by
    intro c h
    simp only [CoherenceProbe.secureProbe, hs, Bool.false_eq_true, if_false] at h
    split at h
    · rename_i hget
      split at h
      · cases h
        exact ⟨rfl, by simp only [Probe.validateAction, hget, Option.isSome_some]⟩
      · cases h
        exact ⟨rfl, rfl⟩
    · cases h
      exact ⟨rfl, rfl⟩
  simp only [CoherenceProbe.activeProbe] at h
  split at h
  · split at h
    · cases h
    split at h
    · cases h
    split at h
    · exact hsecure h
    · cases h
      exact ⟨rfl, rfl⟩
  split at h
  · cases h
  · cases h
    exact ⟨rfl, rfl⟩

theorem buildable_congr (h : active.validateAction = p.validateAction) :
    Buildable env pod active a ↔ Buildable env pod p a := by
  constructor
  · rintro ⟨hvalid, hurl, htrust, hcredentials⟩
    rw [h] at hvalid
    exact ⟨hvalid, hurl, htrust, hcredentials⟩
  · rintro ⟨hvalid, hurl, htrust, hcredentials⟩
    rw [← h] at hvalid
    exact ⟨hvalid, hurl, htrust, hcredentials⟩

variable (env svc pod) in
/-- **An HTTP action on a Pod**: its request is sent, or it fails without a contact. -/
theorem exec_runProbe_http (ha : p.http = some a) :
    (Buildable env pod p a ∧ ∃ req r, exec (runProbe env svc pod p) [] = (r, [.http pod a req]) ∧
        req.method = if a.method = "" then "GET" else a.method) ∨
      ¬ Buildable env pod p a ∧ ∃ e, exec (runProbe env svc pod p) [] = (.error e, []) := by
  by_cases hb : Buildable env pod p a
  · obtain ⟨req, hreq, hmethod⟩ := (exists_buildRequest_iff svc).2 hb
    have hnoop : p.legacyNoOpReason.isSome = false := by simp [Probe.legacyNoOpReason, ha]
    obtain ⟨_, hvalid⟩ := hb.valid
    have hrun : runProbe env svc pod p = probeUsingHTTPAction env svc pod p a := by
      simp [runProbe, hvalid, hnoop, runAction, ha]
    rw [hrun]
    rcases comes_probeUsingHTTPAction env svc pod p a with
      ⟨e, he, -⟩ | ⟨req', r, hreq', h⟩
    · rw [hreq] at he
      cases he
    · rw [hreq] at hreq'
      cases hreq'
      exact .inl ⟨hb, req, r, h [], hmethod⟩
  · obtain ⟨r, cs, hr, hran, -⟩ := comes_runProbe env svc pod p
    rw [hr, List.append_nil]
    refine .inr ⟨hb, ?_⟩
    cases hran with
    | idle herror =>
      obtain ⟨e, rfl⟩ := herror (by rw [ha]; rfl)
      exact ⟨e, rfl⟩
    | http ha' hreq =>
      rw [ha] at ha'
      cases ha'
      exact absurd ((exists_buildRequest_iff svc).1 ⟨_, hreq, method_eq hreq⟩) hb
    | other hnone =>
      rw [ha] at hnone
      cases hnone

/-- The request of an HTTP action is sent: all Pods are there and up, and on the first that is running, whose connection is
known, the request can be built. -/
def Reaches (env : ProbeEnv) (op : Operator) (sts : StatefulSet) (resolved : ResolvedScalingProbe) (stsPods pods : List Pod)
    (a : HTTPAction) : Prop :=
  sts.IsUp stsPods ∧ ∃ pod, pods.find? isRunning = some pod ∧
    (∃ active, CoherenceProbe.activeProbe op { generatedHealthProbe := resolved.generated } resolved.probe pod = .ok active) ∧
    Buildable env pod resolved.probe a

variable (env svc op sts pods) in
/-- **A probe with an HTTP action**, executed for some of the Pods: its request is sent, or it fails without a contact. -/
theorem exec_executeProbeForPods (hne : stsPods ≠ []) (ha : resolved.probe.http = some a) :
    (Reaches env op sts resolved stsPods pods a ∧ ∃ pod req r,
        exec (executeProbeForPods env svc op sts resolved.probe stsPods pods
          { generatedHealthProbe := resolved.generated }) [] = (r, [.http pod a req]) ∧
          req.method = if a.method = "" then "GET" else a.method) ∨
      ¬ Reaches env op sts resolved stsPods pods a ∧ ∃ e,
        exec (executeProbeForPods env svc op sts resolved.probe stsPods pods
          { generatedHealthProbe := resolved.generated }) [] = (.error e, []) := by
  have hfinal : isFinal { generatedHealthProbe := resolved.generated } resolved.probe = true := by simp [isFinal, ha]
  have hup : MayExecute sts resolved.probe stsPods { generatedHealthProbe := resolved.generated } ↔ sts.IsUp stsPods := by
    constructor
    · rintro ⟨-, hready, -, hcount⟩
      exact ⟨fun pod hpod => Pod.isReady_iff.1 (hready pod hpod), hcount⟩
    · intro h
      exact ⟨fun hs => absurd hs Bool.false_ne_true, fun pod hpod => Pod.isReady_iff.2 (h.pods pod hpod), hne, h.count⟩
  by_cases hmay : MayExecute sts resolved.probe stsPods { generatedHealthProbe := resolved.generated }
  swap
  · obtain ⟨e, he⟩ := exists_executeProbeForPods_eq_throw env svc op pods hne hmay
    rw [he]
    exact .inr ⟨fun h => hmay (hup.2 h.1), e, rfl⟩
  rw [executeProbeForPods_eq_executeOnPods hmay, exec_executeOnPods hfinal]
  cases hfind : pods.find? isRunning with
  | none =>
    refine .inr ⟨?_, _, rfl⟩
    rintro ⟨-, pod, hpod, -⟩
    rw [hfind] at hpod
    cases hpod
  | some pod =>
    cases hactive : CoherenceProbe.activeProbe op { generatedHealthProbe := resolved.generated } resolved.probe pod with
    | error e =>
      simp only [hactive]
      refine .inr ⟨?_, e, exec_bind_error (exec_outcome _ _)⟩
      rintro ⟨-, other, hother, ⟨active, hactive'⟩, -⟩
      rw [hfind] at hother
      cases hother
      rw [hactive] at hactive'
      cases hactive'
    | ok active =>
      obtain ⟨hhttp, hvalid⟩ := eq_of_activeProbe rfl hactive
      rw [ha] at hhttp
      have hbuildable : Buildable env pod active a ↔ Buildable env pod resolved.probe a := buildable_congr hvalid
      simp only [hactive]
      rw [exec_bind_ok (exec_outcome _ _)]
      rcases exec_runProbe_http env svc pod hhttp with ⟨hb, req, r, hrun, hmethod⟩ | ⟨hb, e, hrun⟩
      · exact .inl ⟨⟨hup.1 hmay, pod, hfind, ⟨active, hactive⟩, hbuildable.1 hb⟩, pod, req, r, hrun, hmethod⟩
      · refine .inr ⟨?_, e, hrun⟩
        rintro ⟨-, other, hother, -, hb'⟩
        rw [hfind] at hother
        cases hother
        exact hb (hbuildable.2 hb')

/-! ### The gates -/

/-- The scaling probe for some of the Pods comes to what its execution comes to, and to no when that fails. -/
theorem exec_executeScalingProbe {r : Except ProbeError Bool} {contacts : List Contact}
    (h : exec (executeProbeForPods env svc op sts resolved.probe stsPods pods
      { generatedHealthProbe := resolved.generated }) [] = (r, contacts)) :
    exec (executeScalingProbeForSubSetOfPods env svc op sts resolved stsPods pods) [] =
      (.ok (r.toOption.getD false), contacts) := by
  rw [executeScalingProbeForSubSetOfPods, exec_bind_ok (exec_observe _ _), h]
  cases r with
  | error e => rfl
  | ok ha => rfl

/-- The upgrade by node asks this probe, with what its actions come to. -/
theorem fst_exec_executeScalingProbe {upgrade : UpgradeEnv} (h : upgrade.probeAction = actionOutcome env svc) :
    (exec (executeScalingProbeForSubSetOfPods env svc op sts resolved stsPods pods) []).1 =
      .ok (UpgradeStrategy.executeScalingProbe op upgrade resolved sts stsPods pods) := by
  obtain ⟨cs, hcs, -⟩ := comes_executeProbeForPods env svc op resolved.probe
    { generatedHealthProbe := resolved.generated } pods stsPods sts
  rw [exec_executeScalingProbe (hcs []), UpgradeStrategy.executeScalingProbe, h]
  generalize CoherenceProbe.executeProbeForPods _ _ _ _ _ _ _ = r
  cases r with
  | error e => rfl
  | ok ha => rfl

/-- A probe that is a `GET` request, or none over HTTP, sends nothing else. -/
theorem method_of_mem_contacts (hp : resolved.probe.mutates = false)
    (hc : .http pod a req ∈ (exec (executeScalingProbeForSubSetOfPods env svc op sts resolved stsPods pods) []).2) :
    req.method = "GET" := by
  obtain ⟨cs, hcs, hmade, -⟩ := comes_executeProbeForPods env svc op resolved.probe
    { generatedHealthProbe := resolved.generated } pods stsPods sts
  rw [exec_executeScalingProbe (hcs []), List.append_nil] at hc
  obtain ⟨other, -, -, active, r, made, hactive, hran, hmem⟩ := hmade _ hc
  obtain ⟨hhttp, -⟩ := eq_of_activeProbe rfl hactive
  cases hran with
  | idle => cases hmem
  | http ha hreq =>
    cases List.mem_singleton.1 hmem
    rw [hhttp] at ha
    rw [Probe.mutates, ha] at hp
    rw [method_eq hreq]
    split
    · rfl
    · rename_i hmethod
      simpa [hmethod] using hp
  | other _ hother =>
    obtain rfl := List.mem_singleton.1 hmem
    exact absurd rfl (hother.2 pod a req)

theorem resolveScalingProbe_probe : (resolveScalingProbe spec).probe = spec.getScalingProbe := rfl

/-- `isStatusHA` looks at the method first. -/
theorem neverMutates_isStatusHA {found : Except GoError (List Pod)} : NeverMutates env svc op sts spec (.isStatusHA found) := by
  cases hp : (resolveScalingProbe spec).probe.mutates with
  | true =>
    have hrun : (Gate.isStatusHA found).run env svc op sts spec = pure false := by simp [Gate.run, isStatusHA, hp]
    constructor
    · intro pod a req hc
      rw [hrun] at hc
      cases hc
    · intro _
      rw [hrun, exec_pure]
  | false =>
    have hrun : (Gate.isStatusHA found).run env svc op sts spec =
        executeScalingProbe env svc op sts (resolveScalingProbe spec) found := by simp [Gate.run, isStatusHA, hp]
    constructor
    · intro pod a req hc
      rw [hrun] at hc
      cases found with
      | error e => cases hc
      | ok pods => exact method_of_mem_contacts hp hc
    · intro hmutates
      rw [← resolveScalingProbe_probe, hp] at hmutates
      cases hmutates

end

/-- The request of a scaling probe that is none to `GET` is sent before the Pods of a node are upgraded. -/
def MutatesIn (env : ProbeEnv) (op : Operator) (sts : StatefulSet) (spec : CoherenceStatefulSetResourceSpec) : Gate → Prop
  | .isStatusHA _ => False
  | .rollingUpgrade pods _ update =>
    ∃ a, spec.getScalingProbe.http = some a ∧ a.method ≠ "" ∧ a.method ≠ "GET" ∧
      Reaches env op sts (resolveScalingProbe spec) pods update a

/-- **A gate never mutates** exactly if it is not one of an upgrade by node in which the request of a probe is sent that is none to
`GET`. -/
theorem neverMutates_iff (env : ProbeEnv) (svc : String) (op : Operator) (sts : StatefulSet)
    (spec : CoherenceStatefulSetResourceSpec) (gate : Gate) :
    NeverMutates env svc op sts spec gate ↔ ¬ MutatesIn env op sts spec gate := by
  cases gate with
  | isStatusHA found => exact ⟨fun _ h => h, fun _ => neverMutates_isStatusHA⟩
  | rollingUpgrade pods hne update =>
    have hrun : (Gate.rollingUpgrade pods hne update).run env svc op sts spec =
        executeScalingProbeForSubSetOfPods env svc op sts (resolveScalingProbe spec) pods update := rfl
    constructor
    · rintro hnever ⟨a, ha, hempty, hmethod, hreaches⟩
      have hget := hnever.gets
      rw [hrun] at hget
      rcases exec_executeProbeForPods env svc op sts update hne
          (resolveScalingProbe_probe.symm ▸ ha) with ⟨-, pod, req, r, hexec, hreq⟩ | ⟨hnot, -⟩
      · rw [exec_executeScalingProbe hexec] at hget
        rw [if_neg hempty] at hreq
        exact hmethod (hreq.symm.trans (hget pod a req List.mem_cons_self))
      · exact hnot hreaches
    · intro hnot
      cases hp : (resolveScalingProbe spec).probe.mutates with
      | false =>
        refine ⟨fun pod a req hc => method_of_mem_contacts hp (hrun ▸ hc), fun hmutates => ?_⟩
        rw [← resolveScalingProbe_probe, hp] at hmutates
        cases hmutates
      | true =>
        obtain ⟨a, ha, hmethod⟩ := (Option.any_eq_true _ _).1 hp
        simp only [ne_eq, decide_not, Bool.decide_and, Bool.and_eq_true, Bool.not_eq_true', decide_eq_false_iff_not] at hmethod
        rcases exec_executeProbeForPods env svc op sts update hne ha with
          ⟨hreaches, -⟩ | ⟨-, e, hexec⟩
        · exact absurd ⟨a, ha, hmethod.1, hmethod.2, hreaches⟩ hnot
        · have hfalse := exec_executeScalingProbe hexec
          constructor
          · intro pod a req hc
            rw [hrun, hfalse] at hc
            cases hc
          · intro _
            rw [hrun, hfalse]
            rfl

/-- A scaling probe that suspends the services. -/
def suspendingSpec : CoherenceStatefulSetResourceSpec where
  scaling := some { probe := some { http := some { path := "/suspend", port := .int 6676, method := "PUT" } } }

/-- A member of a cluster, ready. -/
def readyMember : Pod where
  name := "storage-0"
  ns := "default"
  podIP := "10.0.0.7"
  readySince := some 0

/-- Its StatefulSet. -/
def oneMember : StatefulSet where
  metadata := { name := "storage", ns := "default" }
  spec := {}

/-- Before the only member is upgraded its services are suspended. -/
theorem not_forall_neverMutates :
    ¬ ∀ (env : ProbeEnv) (svc : String) (op : Operator) (sts : StatefulSet) (spec : CoherenceStatefulSetResourceSpec)
      (gate : Gate), NeverMutates env svc op sts spec gate := by
  intro h
  have hidle := (h {} "storage-wka" default oneMember suspendingSpec
    (.rollingUpgrade [readyMember] (List.cons_ne_nil _ _) [readyMember])).fails rfl
  have hsent : (exec ((Gate.rollingUpgrade [readyMember] (List.cons_ne_nil _ _) [readyMember]).run {} "storage-wka" default
      oneMember suspendingSpec) []).2.length = 1 := by decide +kernel
  rw [hidle] at hsent
  cases hsent

end ProbeActions

end CoherenceOperator
