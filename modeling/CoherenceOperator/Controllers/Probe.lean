import CoherenceOperator.Cluster

/-!
# What the operator asks of the members

`executeProbeForPods` runs the action of a probe on one of the Pods of a StatefulSet, if all of them are there and ready;
`suspendServicesWithError` has the services of a cluster suspended that way before its members are
stopped. What comes of the action itself is up to the world.
-/

namespace CoherenceOperator

open Effect Prog

/-- `probeExecutionOptions`. -/
structure ProbeExecutionOptions where
  suspension : Bool := false
  generatedHealthProbe : Bool := false
  deriving DecidableEq, Repr

/-- `IsPodReady`: is it, and what phase it is said to be in. -/
def Pod.isReady (pod : Pod) : Bool × String :=
  if pod.deletionTimestamp.isSome ∨ pod.phase ≠ "Running" then (false, "Terminating")
  else (pod.readySince.isSome, pod.phase)

/-- `legacyNoOpReason`: why the operator cannot execute the action. -/
def Probe.legacyNoOpReason (p : Probe) : Option String :=
  if p.http.isSome || p.exec.isSome || p.httpGet.isSome || p.tcpSocket.isSome then none
  else if p.grpc.isSome then some "gRPC probe actions are not supported"
  else some "the probe handler is empty"

namespace CoherenceProbe

/-- The suspend action under the security of the member: only the generated one is sent. -/
def secureSuspend (c : HealthMutatorConnection) (p : Probe) : Except ProbeError Probe :=
  match p.http with
  | some a =>
    if a.path = "/suspend" then
      .ok { p with http := some { a with scheme := "HTTPS", basicAuth := c.basicAuth, tls := c.tls } }
    else .error (.request "managed security requires the generated suspend action")
  | none => .error (.request "managed security requires the generated suspend action")

/-- The probe under the security of the member. -/
def secureProbe (options : ProbeExecutionOptions) (c : HealthMutatorConnection) (p : Probe) : Except ProbeError Probe :=
  if options.suspension then secureSuspend c p
  else
    match p.httpGet with
    | some a =>
      if options.generatedHealthProbe then .ok { p with httpGet := some { a with scheme := "HTTPS" } } else .ok p
    | none => .ok p

/-- The probe that is run on a member: its Pod says how it is secured. -/
def activeProbe (op : Operator) (options : ProbeExecutionOptions) (p : Probe) (pod : Pod) : Except ProbeError Probe :=
  let raw := (pod.annotations.lookup HealthMutatorAnnotation).getD ""
  if raw ≠ "" then
    match op.parseConnection raw with
    | none => .error (.request "unknown active Pod connection")
    | some c =>
      match c.validate with
      | .error _ => .error (.request "invalid active Pod connection")
      | .ok _ => if c.secure then secureProbe options c p else .ok p
  else if pod.containers.any fun c => c.env.any fun e => e.name = HealthMutatorEnv then
    .error (.request "missing active Pod connection")
  else .ok p

variable (op : Operator) (action : Pod → Probe → Except ProbeError Bool)

/-- `runProbe`. -/
def runProbe (pod : Pod) (p : Probe) : Except ProbeError Bool :=
  match p.validateAction with
  | .error _ => .error (.request "configuration")
  | .ok _ => if p.legacyNoOpReason.isSome then .ok true else action pod p

/-- Run the probe on the first Pod that answers. What a request over HTTP comes to is final, as is what comes of a
suspension. -/
def executeOnPods (options : ProbeExecutionOptions) (p : Probe) : List Pod → Except ProbeError Bool
  | [] => .error .probeUnavailable
  | pod :: pods =>
    if pod.phase = "Running" then
      match activeProbe op options p pod with
      | .error e => .error e
      | .ok active =>
        match runProbe action pod active with
        | .ok ha => .ok ha
        | .error e =>
          if options.suspension || p.http.isSome || p.httpGet.isSome then .error e else executeOnPods options p pods
    else executeOnPods options p pods

/-- `executeProbeForPods`. -/
def executeProbeForPods (sts : StatefulSet) (p : Probe) (stsPods pods : List Pod) (options : ProbeExecutionOptions) :
    Except ProbeError Bool :=
  if options.suspension && !p.validateAction.isOk then .error (.request "configuration")
  else
    match stsPods.find? fun pod => !pod.isReady.1 with
    | some pod => .error (.podNotReady pod.name pod.isReady.2)
    | none =>
      if stsPods.length = 0 then .ok true
      else if (stsPods.length : ℤ) ≠ sts.spec.replicas.getD 1 then
        .error (.podCountMismatch stsPods.length (sts.spec.replicas.getD 1))
      else executeOnPods op action options p pods

variable (env : Env)

/-- The status that the suspension of the services of a resource comes to, with the Pods that were found. -/
def suspensionOf (c : Coherence) (sts : StatefulSet) (pods : List Pod) : ServiceSuspendStatus :=
  let p := c.spec.getSuspendProbe
  match executeProbeForPods op action sts p pods pods { suspension := true } with
  | .ok true => if p.legacyNoOpReason.isSome then .skipped else .successful
  | _ => .failed

/-- Is the resource set up in a way in which no services can be suspended? -/
def isMisconfigured (c : Coherence) : Bool :=
  c.spec.healthMutatorConnection.any fun connection =>
    !connection.validate.isOk || (connection.secure && c.spec.suspendProbe.isSome)

/-- `SuspendServicesWithError`: with the status `failed` comes a `SuspensionError`. -/
def suspendServicesWithError (deployment : Deployment) (sts : StatefulSet) : Op ServiceSuspendStatus :=
  match deployment with
  | .coherence (some c) =>
    if op.skipServiceSuspend then return .skipped
    else if !c.spec.isSuspendServicesOnShutdown then return .skipped
    else if isMisconfigured c then return .failed
    else do
      match ← Op.attempt (request env ⟨.listPods, .statefulSet, ⟨sts.metadata.ns, sts.metadata.name⟩⟩) with
      | .error _ => return .failed
      | .ok _ => return suspensionOf op env.probeAction c sts (env.members sts)
  | .coherenceJob (some _) => return .skipped
  | _ => throw nilDereference

end CoherenceProbe

end CoherenceOperator
