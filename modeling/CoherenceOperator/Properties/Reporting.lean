import CoherenceOperator.Properties.ProbeLaw

/-!
# What a suspension reports

`SuspendServicesWithError` reports that the services were suspended, that there was nothing to do, or that it failed, with an
error then. That they were suspended is a report of an action that a member accepted, except that nothing is executed where no
Pods are found.
-/

namespace CoherenceOperator

open Effect Prog

namespace ProbeActions

section

variable {env : ProbeEnv} {svc : String} {op : Operator} {options : ProbeExecutionOptions} {p active : Probe}
  {sts : StatefulSet} {stsPods pods : List Pod} {pod : Pod} {contacts : List Contact} {c : Contact}

/-! ### What a member accepts -/

/-- The contact is how the action of the probe is executed on the Pod. -/
inductive Executes (env : ProbeEnv) (svc : String) (pod : Pod) (p : Probe) : Contact → Prop
  | http {a req} : p.http = some a → buildRequest env svc pod p a = .ok req → Executes env svc pod p (.http pod a req)
  | exec {command} : p.exec = some command → Executes env svc pod p (.exec pod command)
  | httpGet {a url} : p.httpGet = some a → httpGetURL env pod a = .ok url →
      Executes env svc pod p (.httpGet pod url (⟨"Host", getPodHostName env svc pod⟩ :: a.httpHeaders))
  | tcp {a address} : p.tcpSocket = some a → tcpAddress env pod a = .ok address → Executes env svc pod p (.tcp pod address)

/-- The member accepts what it is contacted for: the response is `200` and can be read, the command exits with `0`, the connection
is made. -/
def Accepts (env : ProbeEnv) : Contact → Prop
  | .http _ _ req => ∃ res, env.respond req = .ok res ∧ res.statusCode = 200 ∧ res.readable = true
  | .httpGet _ url headers => env.httpGet url headers = .ok true
  | .exec pod command => env.podExec pod command = .ok 0
  | .tcp _ address => env.dial address = .ok true

/-- An action that comes to `true` was executed and accepted. -/
def IsAccepted (env : ProbeEnv) (svc : String) (pod : Pod) (p : Probe) (contacts : List Contact) : Prop :=
  ∃ c, contacts = [c] ∧ Executes env svc pod p c ∧ Accepts env c

theorem isAccepted_of_http {a : HTTPAction} (ha : p.http = some a)
    (h : exec (probeUsingHTTPAction env svc pod p a) [] = (.ok true, contacts)) : IsAccepted env svc pod p contacts := by
  rw [probeUsingHTTPAction] at h
  cases hreq : buildRequest env svc pod p a with
  | error e =>
    rw [hreq, exec_bind_error (exec_outcome _ _)] at h
    cases h
  | ok req =>
    rw [hreq, exec_bind_ok (exec_outcome _ _)] at h
    have hres := comes_doRequest env pod a 9 req []
    cases hrespond : env.respond req with
    | error e =>
      rw [hrespond] at hres
      rw [exec_bind_error hres] at h
      cases h
    | ok res =>
      rw [hrespond] at hres
      rw [exec_bind_ok hres] at h
      split at h
      · cases h
      rename_i hstatus
      split at h
      · cases h
      rename_i hreadable
      cases h
      exact ⟨_, rfl, .http ha hreq, res, hrespond, not_not.1 hstatus, by simpa using hreadable⟩

theorem isAccepted_of_exec {command : List String} (hp : p.exec = some command)
    (h : exec (probeUsingExec env pod command) [] = (.ok true, contacts)) : IsAccepted env svc pod p contacts := by
  rw [probeUsingExec, exec_bind_ok (exec_perform _ _)] at h
  cases hexec : env.podExec pod command with
  | error e =>
    rw [hexec] at h
    cases h
  | ok exitCode =>
    rw [hexec, exec_pure] at h
    obtain ⟨hzero, rfl⟩ := Prod.mk.inj h
    have hzero : exitCode = 0 := by simpa using hzero
    exact ⟨_, rfl, .exec hp, by rw [Accepts, hexec, hzero]⟩

theorem isAccepted_of_httpGet {a : HTTPGetAction} (ha : p.httpGet = some a)
    (h : exec (probeUsingHTTP env svc pod a) [] = (.ok true, contacts)) : IsAccepted env svc pod p contacts := by
  rw [probeUsingHTTP] at h
  cases hurl : httpGetURL env pod a with
  | error e =>
    rw [hurl, exec_bind_error (exec_outcome _ _)] at h
    cases h
  | ok url =>
    rw [hurl, exec_bind_ok (exec_outcome _ _), exec_bind_ok (exec_perform _ _), exec_outcome] at h
    obtain ⟨htrue, rfl⟩ := Prod.mk.inj h
    exact ⟨_, rfl, .httpGet ha hurl, htrue⟩

theorem isAccepted_of_tcp {a : TCPSocketAction} (ha : p.tcpSocket = some a)
    (h : exec (probeUsingTCP env pod a) [] = (.ok true, contacts)) : IsAccepted env svc pod p contacts := by
  rw [probeUsingTCP] at h
  cases haddress : tcpAddress env pod a with
  | error e =>
    rw [haddress] at h
    cases h
  | ok address =>
    have hok : (tcpAddress env pod a).mapError ProbeError.other = .ok address := by rw [haddress, Except.mapError]
    rw [hok, exec_bind_ok (exec_outcome _ _), exec_bind_ok (exec_perform _ _), exec_outcome] at h
    obtain ⟨htrue, rfl⟩ := Prod.mk.inj h
    cases hdial : env.dial address with
    | error e =>
      rw [hdial] at htrue
      cases htrue
    | ok ha' =>
      rw [hdial] at htrue
      cases htrue
      exact ⟨_, rfl, .tcp ha haddress, hdial⟩

/-- **An action that comes to `true` was accepted**, if there is one. -/
theorem isAccepted_of_runProbe (hnoop : p.legacyNoOpReason = none)
    (h : exec (runProbe env svc pod p) [] = (.ok true, contacts)) : IsAccepted env svc pod p contacts := by
  rw [runProbe] at h
  split at h
  · cases h
  rw [hnoop, Option.isSome_none, if_neg Bool.false_ne_true, runAction] at h
  split at h
  · rename_i a ha
    exact isAccepted_of_http ha h
  rename_i hhttp
  split at h
  · rename_i command hexec
    exact isAccepted_of_exec hexec h
  rename_i hexec
  split at h
  · rename_i a ha
    exact isAccepted_of_httpGet ha h
  rename_i hget
  split at h
  · rename_i a ha
    exact isAccepted_of_tcp ha h
  · rename_i htcp
    rw [Probe.legacyNoOpReason, hhttp, hexec, hget, htcp] at hnoop
    simp only [Option.isSome_none, Bool.or_self, Bool.false_eq_true, if_false] at hnoop
    split at hnoop
    · cases hnoop
    · cases hnoop

/-! ### The suspend probe -/

/-- The options of a suspension. -/
def suspending : ProbeExecutionOptions := { suspension := true }

/-- There is something to execute for a member if there is for the probe. -/
theorem legacyNoOpReason_of_activeProbe (hnoop : p.legacyNoOpReason = none)
    (h : CoherenceProbe.activeProbe op suspending p pod = .ok active) : active.legacyNoOpReason = none := by
  rcases activeProbe_eq_ok h with ⟨-, -, rfl⟩ | ⟨-, connection, -, -, h⟩
  · exact hnoop
  rcases h with ⟨-, rfl⟩ | ⟨-, h⟩
  · exact hnoop
  obtain ⟨a, -, -, rfl⟩ := secureSuspend_eq_ok h
  simp [Probe.legacyNoOpReason]

/-- A member that is running accepted the probe, as its connection has it. -/
def WasAccepted (env : ProbeEnv) (svc : String) (op : Operator) (p : Probe) (pods : List Pod) (contacts : List Contact) : Prop :=
  ∃ pod ∈ pods, pod.IsUp ∧ ∃ active, CoherenceProbe.activeProbe op suspending p pod = .ok active ∧
    IsAccepted env svc pod active contacts

/-- **A suspend probe that comes to `true` was accepted**, if there is an action and there are Pods. -/
theorem wasAccepted_of_executeProbeForPods (hne : pods ≠ []) (hnoop : p.legacyNoOpReason = none)
    (h : exec (executeProbeForPods env svc op sts p pods pods suspending) [] = (.ok true, contacts)) :
    WasAccepted env svc op p pods contacts := by
  have hmay : MayExecute sts p pods suspending := by
    obtain ⟨cs, hcs, -⟩ := comes_executeProbeForPods env svc op p suspending pods pods sts
    have htrue := hcs.fst []
    rw [h] at htrue
    exact mayExecute_of_eq_ok hne htrue.symm
  rw [executeProbeForPods_eq_executeOnPods hmay, exec_executeOnPods rfl] at h
  cases hfind : pods.find? isRunning with
  | none =>
    rw [hfind] at h
    cases h
  | some pod =>
    rw [hfind] at h
    have hpod := List.mem_of_find?_eq_some hfind
    refine ⟨pod, hpod, Pod.isReady_iff.1 (hmay.2.1 pod hpod), ?_⟩
    cases hactive : CoherenceProbe.activeProbe op suspending p pod with
    | error e =>
      simp only [hactive] at h
      cases h
    | ok active =>
      simp only [hactive] at h
      exact ⟨active, rfl, isAccepted_of_runProbe (legacyNoOpReason_of_activeProbe hnoop hactive) h⟩

/-- Without Pods a valid probe comes to `true`, and nothing is executed. -/
theorem exec_executeProbeForPods_nil (hvalid : p.validateAction.isOk = true) :
    exec (executeProbeForPods env svc op sts p [] [] suspending) [] = (.ok true, []) := by
  rw [executeProbeForPods, hvalid]
  rfl

theorem isOk_of_executeProbeForPods {ha : Bool}
    (h : exec (executeProbeForPods env svc op sts p stsPods pods suspending) [] = (.ok ha, contacts)) :
    p.validateAction.isOk = true := by
  rw [executeProbeForPods] at h
  split at h
  · cases h
  · rename_i hvalid
    simpa [suspending] using hvalid

end

/-! ### The report -/

/-- What a suspension reports. -/
def report (env : ProbeEnv) (op : Operator) (deployment : Deployment) (sts : StatefulSet) (found : Except GoError (List Pod)) :
    Except ProbeError SuspensionResult × List Contact :=
  exec (suspendServicesWithError env op deployment sts found) []

/-- Nothing is to be suspended: the resource is a Job, the suspension is switched off, or its action is none that the operator can
execute. -/
def MaySkip (op : Operator) : Deployment → Prop
  | .coherence (some c) => op.skipServiceSuspend = true ∨ c.spec.isSuspendServicesOnShutdown = false ∨
      c.spec.getSuspendProbe.legacyNoOpReason.isSome = true
  | .coherenceJob _ => True
  | _ => False

/-- The suspend action was executed on a Pod of the StatefulSet, and accepted. -/
def HasSuspended (env : ProbeEnv) (op : Operator) (found : Except GoError (List Pod)) (contacts : List Contact) :
    Deployment → Prop
  | .coherence (some c) => ∃ pods, found = .ok pods ∧
      WasAccepted env c.toResource.wkaServiceName op c.spec.getSuspendProbe pods contacts
  | _ => False

/-- The report is one of three, and what is reported is so. -/
structure IsHonest (env : ProbeEnv) (op : Operator) (deployment : Deployment) (sts : StatefulSet)
    (found : Except GoError (List Pod)) : Prop where
  returns : deployment.resource.isSome = true → ∃ status e, (report env op deployment sts found).1 = .ok (status, e)
  successful : ∀ e contacts, report env op deployment sts found = (.ok (.successful, e), contacts) →
    e = none ∧ HasSuspended env op found contacts deployment
  skipped : ∀ e contacts, report env op deployment sts found = (.ok (.skipped, e), contacts) → e = none ∧ MaySkip op deployment
  failed : ∀ e contacts, report env op deployment sts found = (.ok (.failed, e), contacts) → e.isSome = true

/-- An action is to be executed for the suspension, and there are no Pods to execute it on. -/
def FindsNoPods (op : Operator) (deployment : Deployment) (found : Except GoError (List Pod)) : Prop :=
  ∃ c, deployment = .coherence (some c) ∧ op.skipServiceSuspend = false ∧ c.spec.isSuspendServicesOnShutdown = true ∧
    misconfiguration c = none ∧ found = .ok [] ∧ c.spec.getSuspendProbe.validateAction.isOk = true ∧
      c.spec.getSuspendProbe.legacyNoOpReason = none

section

variable {env : ProbeEnv} {op : Operator} {deployment : Deployment} {sts : StatefulSet} {found : Except GoError (List Pod)}
  {c : Coherence} {pods : List Pod} {contacts : List Contact}

/-- **An honest report of what the suspend probe came to**, unless there are no Pods for its action. -/
theorem suspensionResult_honest {p : Probe} {svc : String} {r : Except ProbeError Bool}
    (h : exec (executeProbeForPods env svc op sts p pods pods suspending) [] = (r, contacts)) :
    (pods = [] ∧ p.validateAction.isOk = true ∧ p.legacyNoOpReason = none ∧ suspensionResult p r = (.successful, none)) ∨
      (WasAccepted env svc op p pods contacts ∧ suspensionResult p r = (.successful, none)) ∨
      (p.legacyNoOpReason.isSome = true ∧ suspensionResult p r = (.skipped, none)) ∨
      ∃ cause, suspensionResult p r = (.failed, some ⟨cause⟩) := by
  cases r with
  | error e => exact .inr (.inr (.inr ⟨some e, rfl⟩))
  | ok ha =>
    cases ha with
    | false => exact .inr (.inr (.inr ⟨none, rfl⟩))
    | true =>
      cases hnoop : p.legacyNoOpReason with
      | some reason => exact .inr (.inr (.inl ⟨rfl, by simp [suspensionResult, hnoop]⟩))
      | none =>
        have hresult : suspensionResult p (.ok true) = (.successful, none) := by simp [suspensionResult, hnoop]
        by_cases hne : pods = []
        · exact .inl ⟨hne, isOk_of_executeProbeForPods h, rfl, hresult⟩
        · exact .inr (.inl ⟨wasAccepted_of_executeProbeForPods hne hnoop h, hresult⟩)

/-- In which way a report comes about. -/
inductive Reported (env : ProbeEnv) (op : Operator) (deployment : Deployment) (found : Except GoError (List Pod)) :
    Except ProbeError SuspensionResult → List Contact → Prop
  | panics {e cs} : deployment.resource.isSome = false → Reported env op deployment found (.error e) cs
  | skipped {cs} : MaySkip op deployment → Reported env op deployment found (.ok (.skipped, none)) cs
  | failed {e cs} : Reported env op deployment found (.ok (.failed, some e)) cs
  | suspended {cs} : HasSuspended env op found cs deployment → Reported env op deployment found (.ok (.successful, none)) cs
  | noPods : FindsNoPods op deployment found → Reported env op deployment found (.ok (.successful, none)) []

/-- The report on what the suspend probe comes to. -/
theorem report_eq (hskip : op.skipServiceSuspend = false) (hon : c.spec.isSuspendServicesOnShutdown = true)
    (hconfig : misconfiguration c = none) {r : Except ProbeError Bool}
    (h : exec (executeProbeForPods env c.toResource.wkaServiceName op sts c.spec.getSuspendProbe pods pods suspending) [] =
      (r, contacts)) :
    report env op (.coherence (some c)) sts (.ok pods) = (.ok (suspensionResult c.spec.getSuspendProbe r), contacts) := by
  have hexec := exec_observe (executeProbeForPods env c.toResource.wkaServiceName op sts c.spec.getSuspendProbe pods pods
    suspending) []
  rw [h] at hexec
  simp only [report, suspendServicesWithError, hskip, hon, hconfig, Bool.false_eq_true, if_false, Bool.not_true]
  rw [← suspending, exec_bind_ok hexec, exec_pure]

/-- The report on a resource, once the suspension is not switched off. -/
theorem report_coherence (hskip : op.skipServiceSuspend = false) (hon : c.spec.isSuspendServicesOnShutdown = true) :
    Reported env op (.coherence (some c)) found (report env op (.coherence (some c)) sts found).1
      (report env op (.coherence (some c)) sts found).2 := by
  cases hconfig : misconfiguration c with
  | some e =>
    simp only [report, suspendServicesWithError, hskip, hon, hconfig, Bool.false_eq_true, if_false, Bool.not_true]
    exact .failed
  | none =>
    cases found with
    | error e =>
      simp only [report, suspendServicesWithError, hskip, hon, hconfig, Bool.false_eq_true, if_false, Bool.not_true]
      exact .failed
    | ok pods =>
      rcases hrun : exec (executeProbeForPods env c.toResource.wkaServiceName op sts c.spec.getSuspendProbe pods pods
        suspending) [] with ⟨r, contacts⟩
      rw [report_eq hskip hon hconfig hrun]
      rcases suspensionResult_honest hrun with
        ⟨rfl, hvalid, hnoop, h⟩ | ⟨hwas, h⟩ | ⟨hnoop, h⟩ | ⟨cause, h⟩
      · rw [exec_executeProbeForPods_nil hvalid] at hrun
        cases hrun
        rw [h]
        exact .noPods ⟨c, rfl, hskip, hon, hconfig, rfl, hvalid, hnoop⟩
      · rw [h]
        exact .suspended ⟨pods, rfl, hwas⟩
      · rw [h]
        exact .skipped (.inr (.inr hnoop))
      · rw [h]
        exact .failed

/-- **Every report** comes about in one of these ways. -/
theorem reported (env : ProbeEnv) (op : Operator) (deployment : Deployment) (sts : StatefulSet)
    (found : Except GoError (List Pod)) :
    Reported env op deployment found (report env op deployment sts found).1 (report env op deployment sts found).2 := by
  cases deployment with
  | nil => exact .panics rfl
  | coherenceJob c =>
    cases c with
    | none => exact .panics rfl
    | some c => exact .skipped trivial
  | coherence c =>
    cases c with
    | none => exact .panics rfl
    | some c =>
      cases hskip : op.skipServiceSuspend with
      | true =>
        simp only [report, suspendServicesWithError, hskip, if_true]
        exact .skipped (.inl hskip)
      | false =>
        cases hon : c.spec.isSuspendServicesOnShutdown with
        | false =>
          simp only [report, suspendServicesWithError, hskip, hon, Bool.false_eq_true, if_false, Bool.not_false, if_true]
          exact .skipped (.inr (.inl hon))
        | true => exact report_coherence hskip hon

/-- What is suspended is not a resource without Pods. -/
theorem not_hasSuspended (h : FindsNoPods op deployment found) : ¬ HasSuspended env op found contacts deployment := by
  obtain ⟨c, rfl, -, -, -, rfl, -⟩ := h
  rintro ⟨pods, hpods, pod, hpod, -⟩
  cases hpods
  cases hpod

theorem report_of_findsNoPods (h : FindsNoPods op deployment found) :
    report env op deployment sts found = (.ok (.successful, none), []) := by
  obtain ⟨c, rfl, hskip, hon, hconfig, rfl, hvalid, hnoop⟩ := h
  rw [report_eq hskip hon hconfig (exec_executeProbeForPods_nil hvalid)]
  simp [suspensionResult, hnoop]

/-! ### The status in a reconcile -/

theorem isMisconfigured_eq : CoherenceProbe.isMisconfigured c = (misconfiguration c).isSome := by
  rw [CoherenceProbe.isMisconfigured, misconfiguration]
  cases c.spec.healthMutatorConnection with
  | none => rfl
  | some connection =>
    simp only [Option.any_some]
    cases hvalid : connection.validate with
    | error e => rfl
    | ok _ =>
      simp only [Except.isOk, Except.toBool, Bool.not_true, Bool.false_or]
      split
      · rename_i h
        rw [h, Option.isSome_some]
      · rename_i h
        rw [Option.isSome_none]
        simpa using h

/-- The reconcilers go by the status that is reported, with what the actions come to. -/
theorem suspensionOf_eq (hskip : op.skipServiceSuspend = false) (hon : c.spec.isSuspendServicesOnShutdown = true)
    (hconfig : CoherenceProbe.isMisconfigured c = false) : ∃ e, (report env op (.coherence (some c)) sts (.ok pods)).1 =
      .ok (CoherenceProbe.suspensionOf op (actionOutcome env c.toResource.wkaServiceName) c sts pods, e) := by
  have hnone : misconfiguration c = none := by
    rw [isMisconfigured_eq] at hconfig
    simpa using hconfig
  obtain ⟨cs, hcs, -⟩ := comes_executeProbeForPods env c.toResource.wkaServiceName op c.spec.getSuspendProbe suspending pods pods sts
  have hrun := hcs []
  rw [report_eq hskip hon hnone hrun]
  rw [CoherenceProbe.suspensionOf, ← suspending]
  cases CoherenceProbe.executeProbeForPods op (actionOutcome env c.toResource.wkaServiceName) sts c.spec.getSuspendProbe pods pods
    suspending with
  | error e => exact ⟨_, rfl⟩
  | ok ha =>
    cases ha with
    | false => exact ⟨_, rfl⟩
    | true =>
      simp only [suspensionResult]
      split
      · exact ⟨_, rfl⟩
      · exact ⟨_, rfl⟩

/-- **A report is honest** exactly if it is not one on an action to be executed without Pods. -/
theorem isHonest_iff (env : ProbeEnv) (op : Operator) (deployment : Deployment) (sts : StatefulSet)
    (found : Except GoError (List Pod)) :
    IsHonest env op deployment sts found ↔ ¬ FindsNoPods op deployment found := by
  constructor
  · intro hhonest hnone
    exact not_hasSuspended hnone (hhonest.successful _ _ (report_of_findsNoPods hnone)).2
  · intro hsome
    have h := reported env op deployment sts found
    rcases hreport : report env op deployment sts found with ⟨r, contacts⟩
    rw [hreport] at h
    simp only at h
    cases h with
    | panics hnil =>
      refine ⟨fun hthere => absurd hthere (by simp [hnil]), ?_, ?_, ?_⟩
      all_goals
        intro e contacts h
        rw [hreport] at h
        cases h
    | skipped hskip =>
      refine ⟨fun _ => ⟨_, _, by rw [hreport]⟩, ?_, ?_, ?_⟩
      all_goals
        intro e contacts h
        rw [hreport] at h
        cases h
      exact ⟨rfl, hskip⟩
    | failed =>
      refine ⟨fun _ => ⟨_, _, by rw [hreport]⟩, ?_, ?_, ?_⟩
      all_goals
        intro e contacts h
        rw [hreport] at h
        cases h
      rfl
    | suspended hsuspended =>
      refine ⟨fun _ => ⟨_, _, by rw [hreport]⟩, ?_, ?_, ?_⟩
      all_goals
        intro e contacts h
        rw [hreport] at h
        cases h
      exact ⟨rfl, hsuspended⟩
    | noPods hnone => exact absurd hnone hsome

/-- A resource in which nothing is set. -/
def plainCoherence : Coherence where
  metadata := { name := "storage", ns := "default" }
  generation := 1

/-- A StatefulSet of three, of which no Pod is there yet. -/
def noMembers : StatefulSet where
  metadata := { name := "storage", ns := "default" }
  spec := { replicas := some 3 }

/-- The services of three members that are not there are reported to be suspended. -/
theorem not_forall_isHonest :
    ¬ ∀ (env : ProbeEnv) (op : Operator) (deployment : Deployment) (sts : StatefulSet) (found : Except GoError (List Pod)),
      0 < sts.spec.replicas.getD 1 → IsHonest env op deployment sts found := by
  intro h
  have hnone : FindsNoPods default (.coherence (some plainCoherence)) (.ok []) :=
    ⟨plainCoherence, rfl, rfl, rfl, rfl, rfl, by decide +kernel, rfl⟩
  have hhonest := h {} default (.coherence (some plainCoherence)) noMembers (.ok []) (by decide)
  exact not_hasSuspended hnone (hhonest.successful _ _ (report_of_findsNoPods hnone)).2

end

end ProbeActions

end CoherenceOperator
