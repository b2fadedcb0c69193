import CoherenceOperator.Controllers.Probe
import CoherenceOperator.Lib.Groups

/-!
# Upgrades by node

With an upgrade by node the operator deletes the Pods that are not of the update revision itself, all those of one node,
or of one value of a label of the nodes, at a time. Which node comes first is the order of a map.

A call of `rollingUpgrade` has a state of its own: the labels of nodes that it has looked up, the requests it has sent, and
the Pods it has deleted.
-/

namespace CoherenceOperator

open Effect Prog

/-- `PodNodeIdSupplier`: a node is known by its name, or by a label of it. -/
inductive PodNodeIdSupplier where
  | nodeName
  | nodeLabel (label : String)
  deriving DecidableEq, Repr

/-- `GetUpgradeStrategy`: how nodes are told apart, if the operator is in charge. -/
def getUpgradeStrategy (spec : CoherenceStatefulSetResourceSpec) : Option PodNodeIdSupplier :=
  match spec.rollingUpdateStrategy with
  | some .node => some .nodeName
  | some .nodeLabel =>
    match spec.rollingUpdateLabel with
    | some label => some (.nodeLabel label)
    | none => some .nodeName
  | _ => none

/-- `ResolvedScalingProbe`. -/
structure ResolvedScalingProbe where
  probe : Probe
  generated : Bool
  deriving DecidableEq, Repr

/-- `ResolveScalingProbe`. -/
def resolveScalingProbe (spec : CoherenceStatefulSetResourceSpec) : ResolvedScalingProbe :=
  { probe := spec.getScalingProbe, generated := (spec.scaling.bind (·.probe)).isNone }

/-- The revision of a Pod. -/
def Pod.revision (pod : Pod) : String := (pod.labels.lookup "controller-revision-hash").getD ""

/-- What the world answers in a call of `rollingUpgrade`. -/
structure UpgradeEnv where
  isNodeLookupEnabled : Bool := true
  /-- The Pods that the selector of the StatefulSet matches, or why they could not be listed. -/
  pods : Except GoError (List Pod)
  /-- The value of a label of a node, empty if it has none. -/
  nodeLabel : String → String → String := fun _ _ => ""
  /-- Which requests fail, by their number. -/
  faults : ℕ → Option GoError := fun _ => none
  /-- The order in which the nodes of a map are gone through. -/
  order : MapOrder String
  probeAction : Pod → Probe → Except ProbeError Bool := fun _ _ => .ok true

/-- The state of a call. -/
structure UpgradeState where
  calls : ℕ := 0
  /-- `PodNodeLabel.cache`. -/
  cache : Labels := ∅
  deleted : List Pod := []

/-- A program of the upgrade. -/
abbrev UpgradeOp (α : Type) := Prog UpgradeState GoError α

namespace UpgradeStrategy

variable (op : Operator) (env : UpgradeEnv) (fn : PodNodeIdSupplier)

/-- Send a request. -/
def send : UpgradeOp Unit := do
  let s ← get
  modify fun s => { s with calls := s.calls + 1 }
  match env.faults s.calls with
  | some e => throw e
  | none => return ()

/-- `GetExactLabelForNode`. -/
def getExactLabelForNode (name label : String) : UpgradeOp String :=
  if env.isNodeLookupEnabled then do
    send env
    return env.nodeLabel name label
  else return ""

/-- `GetNodeId`. -/
def getNodeId (pod : Pod) : UpgradeOp String :=
  match fn with
  | .nodeName => return pod.nodeName
  | .nodeLabel label => do
    let s ← get
    match s.cache.lookup pod.nodeName with
    | some value => return value
    | none => do
      let value ← getExactLabelForNode env pod.nodeName label
      modify fun s => { s with cache := s.cache.set pod.nodeName value }
      return value

/-- `groupPods`, with the groups of the Pods that came before: the first are the Pods that are not of the revision, the second
are all Pods. -/
def groupPods (revision : String) : List Pod → Groups String Pod → Groups String Pod →
    UpgradeOp (Groups String Pod × Groups String Pod)
  | [], podsById, allPodsById => return (podsById, allPodsById)
  | pod :: pods, podsById, allPodsById => do
    let id ← getNodeId env fn pod
    groupPods revision pods (if revision ≠ pod.revision then Groups.add podsById id pod else podsById)
      (Groups.add allPodsById id pod)

/-- `deletePods`: stops at the first Pod that cannot be deleted. -/
def deletePods : List Pod → UpgradeOp Unit
  | [] => return ()
  | pod :: pods => do
    send env
    modify fun s => { s with deleted := s.deleted ++ [pod] }
    deletePods pods

/-- The Pods of the node that comes first, if there is another node. -/
def podsOfOneNode (revision : String) (pods : List Pod) : UpgradeOp (List Pod) := do
  let (podsById, allPodsById) ← groupPods env fn revision pods ∅ ∅
  if podsById.keys.card = 0 then return []
  else if allPodsById.keys.card = 1 then do
    forM pods.head? fun pod => do
      let _ ← getNodeId env fn pod
      return ()
    return []
  else
    match env.order.list podsById.keys with
    | node :: _ => return Groups.under podsById node
    | [] => throw indexOutOfRange

/-- The Pods that are to be upgraded. -/
def podsToUpdate (revision : String) (pods : List Pod) : UpgradeOp (List Pod) :=
  match pods with
  | [pod] => return if revision ≠ pod.revision then [pod] else []
  | _ => podsOfOneNode env fn revision pods

/-- `ExecuteScalingProbeForSubSetOfPods`. -/
def executeScalingProbe (probe : ResolvedScalingProbe) (sts : StatefulSet) (stsPods pods : List Pod) : Bool :=
  match CoherenceProbe.executeProbeForPods op env.probeAction sts probe.probe stsPods pods
    { generatedHealthProbe := probe.generated } with
  | .ok ha => ha
  | .error _ => false

/-- Delete the Pods, if the members agree. -/
def upgradePods (probe : ResolvedScalingProbe) (sts : StatefulSet) (stsPods : List Pod) : List Pod → UpgradeOp Result
  | [] => return {}
  | pods => do
    forM stsPods.head? fun pod => do
      let _ ← Prog.attempt (fun _ => false) (getNodeId env fn pod)
      return ()
    if executeScalingProbe op env probe sts stsPods pods then do
      deletePods env pods
      return {}
    else return { requeueAfter := 60 }

/-- Are the replicas of the StatefulSet ready? -/
def isReady (sts : StatefulSet) : Bool :=
  match sts.spec.replicas with
  | none => sts.status.readyReplicas ≠ 0
  | some replicas => sts.status.readyReplicas = replicas

/-- `rollingUpgrade`. -/
def rollingUpgrade (probe : ResolvedScalingProbe) (sts : StatefulSet) : UpgradeOp Result :=
  if !isReady sts then return {}
  else if sts.status.currentRevision = sts.status.updateRevision then return {}
  else if !env.isNodeLookupEnabled then return {}
  else do
    let pods ← outcome env.pods
    if pods = [] then return {}
    else if (pods.length : ℤ) ≠ sts.spec.replicas.getD 1 then return {}
    else do
      let update ← podsToUpdate env fn sts.status.updateRevision pods
      upgradePods op env fn probe sts pods update

end UpgradeStrategy

end CoherenceOperator
