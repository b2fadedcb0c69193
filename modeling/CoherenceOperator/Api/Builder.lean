import CoherenceOperator.Api.Deployment

/-!
# The resources that a spec generates

`CreateKubernetesResources`: a `Coherence` resource generates the Service for well known addresses,
a Service and possibly a ServiceMonitor for each port, the headless Service and the StatefulSet; a
`CoherenceJob` the same without the headless Service, and a Job. Scaled to zero, only what comes
after the ports is left. The template of the pods is the operator's `podTemplate`.
-/

namespace CoherenceOperator

open CoherenceResource

variable (op : Operator)

/-! ### Ports -/

/-- `GetMetricsPort`. -/
def CoherenceResourceSpec.getMetricsPort (spec : CoherenceResourceSpec) : ℤ :=
  (spec.coherence.bind (·.metricsPort)).getD 9612

/-- `GetManagementPort`. -/
def CoherenceResourceSpec.getManagementPort (spec : CoherenceResourceSpec) : ℤ :=
  (spec.coherence.bind (·.managementPort)).getD 30000

/-- `GetHealthPort`. -/
def CoherenceResourceSpec.getHealthPort (spec : CoherenceResourceSpec) : ℤ :=
  match spec.healthPort with
  | some p => if p ≤ 0 then 6676 else p
  | none => 6676

/-- `GetWkaIPFamily`; `none` is `IPFamilyUnknown`. -/
def CoherenceResourceSpec.getWkaIPFamily (spec : CoherenceResourceSpec) : Option String :=
  (spec.coherence.bind (·.wka)).bind (·.ipFamily)

/-- `RequiresWKAService`. -/
def CoherenceResourceSpec.requiresWKAService (spec : CoherenceResourceSpec) : Bool :=
  match spec.coherence.bind (·.wka) with
  | some wka => wka.deployment = ""
  | none => true

/-- `createDefaultServicePorts`. -/
def CoherenceResourceSpec.createDefaultServicePorts (spec : CoherenceResourceSpec) : List ServicePort :=
  [ { name := "coherence", protocol := "TCP", port := 7, targetPort := .int 7, appProtocol := some "tcp" },
    { name := "coh-local", protocol := "TCP", port := (spec.coherence.bind (·.localPort)).getD 7575,
      targetPort := .str "coh-local", appProtocol := some "tcp" },
    { name := "coh-cluster", protocol := "TCP", port := 7574, targetPort := .str "coh-cluster",
      appProtocol := some "tcp" },
    { name := "health", protocol := "TCP", port := spec.getHealthPort, targetPort := .str "health",
      appProtocol := some "http" } ]

namespace NamedPortSpec

variable (p : NamedPortSpec) (d : CoherenceResource)

/-- `IsEnabled`: a port without a service is. -/
def isEnabled : Bool := (p.service.bind (·.enabled)).getD true

/-- The port that a metrics or management port without a number stands for. -/
def getPort : ℤ :=
  if p.port = 0 ∧ p.name.toLower = "metrics" then d.spec.getMetricsPort
  else if p.port = 0 ∧ p.name.toLower = "management" then d.spec.getManagementPort
  else p.port

/-- `GetServicePort`. -/
def getServicePort : ℤ :=
  match p.service.bind (·.port) with
  | some port => port
  | none => p.getPort d

/-- `GetDefaultAppProtocol`. -/
def getDefaultAppProtocol : Option String :=
  if p.name.toLower = "metrics" then some "http"
  else if p.port = 0 ∧ p.name.toLower = "management" then some "http"
  else none

/-- `createServicePort`. -/
def createServicePort : ServicePort where
  name := (p.service.bind (·.portName)).getD p.name
  protocol := p.protocol.getD "TCP"
  port := p.getServicePort d
  targetPort := .int (p.getPort d)
  nodePort := p.nodePort.getD 0
  appProtocol := match p.appProtocol with
    | some a => some a
    | none => p.getDefaultAppProtocol

/-- The name of the Service, and of the ServiceMonitor, of the port. -/
def serviceName : String := (p.service.bind (·.name)).getD s!"{d.name}-{p.name}"

end NamedPortSpec

/-- `createServiceSpec`. -/
def PortServiceSpec.createServiceSpec (s : PortServiceSpec) : CoreServiceSpec where
  clusterIP := s.clusterIP.getD ""
  publishNotReadyAddresses := s.publishNotReadyAddresses.getD false
  ipFamilyPolicy := s.ipFamilyPolicy
  ipFamilies := s.ipFamilies
  fields := s.fields

/-- `CreatePodSelectorLabels`. -/
def CoherenceResource.createPodSelectorLabels (d : CoherenceResource) : Labels :=
  d.createCommonLabels.set "coherenceComponent" "coherencePod"

/-- The metadata of a generated object. -/
def CoherenceResource.metadataFor (d : CoherenceResource) (name : String) (labels : Labels)
    (annotations : Option Labels) : ObjectMeta :=
  { ns := d.ns, name, labels, annotations := annotations.getD ∅ }

/-- `CreateService`, of a port that is enabled. -/
def NamedPortSpec.createService (p : NamedPortSpec) (d : CoherenceResource) : Object :=
  let labels := d.createGlobalLabels op
  let labels := labels.set "coherenceComponent" "coherence-service"
  let labels := labels.set "coherencePort" p.name
  let spec := (p.service.map (·.createServiceSpec)).getD {}
  { metadata := d.metadataFor (p.serviceName d)
      (labels.setAll ((p.service.map (·.labels)).getD ∅))
      (some (((d.createGlobalAnnotations op).getD ∅).setAll ((p.service.map (·.annotations)).getD ∅)))
    body := .service { spec with
      ports := [p.createServicePort d]
      selector := d.createPodSelectorLabels } }

/-- `CreateServiceMonitor`, of a port whose ServiceMonitor is enabled. -/
def NamedPortSpec.createServiceMonitor (p : NamedPortSpec) (m : ServiceMonitorSpec) (d : CoherenceResource) :
    Object :=
  let labels := (d.createGlobalLabels op).set "coherenceComponent" "coherence-service-monitor"
  let selector := d.createCommonLabels.set "coherenceComponent" "coherence-service"
  let drop := if m.useDefaultLabelDrop.getD true then
      [{ action := "labeldrop", regex := "(endpoint|instance|job|service)" }]
    else []
  { metadata := d.metadataFor (p.serviceName d) (labels.setAll m.labels) (d.createGlobalAnnotations op)
    body := .serviceMonitor
      { selector := selector.set "coherencePort" p.name
        endpoints := [{ port := p.name, relabelConfigs := m.relabelings ++ drop, fields := m.endpoint }]
        fields := m.fields } }

/-- The ServiceMonitor of a port, if it is enabled. -/
def NamedPortSpec.monitor (p : NamedPortSpec) : Option ServiceMonitorSpec :=
  p.serviceMonitor.filter fun m => m.enabled.getD false

/-- An object as a resource: `Resource{Kind: kind, Name: o.GetName(), Spec: o}`. -/
def Object.toResource (o : Object) : Resource where
  kind := o.kind
  name := o.metadata.name
  spec := some o
  filed := by simp

/-- The resources of one port. -/
def NamedPortSpec.createResources (p : NamedPortSpec) (d : CoherenceResource) : List Resource :=
  if p.isEnabled then
    (p.createService op d).toResource ::
      match p.monitor with
      | some m => [(p.createServiceMonitor op m d).toResource]
      | none => []
  else []

/-! ### What both resources generate -/

namespace CoherenceResource

variable (d : CoherenceResource)

/-- `CreateWKAService`. -/
def createWKAService : Object :=
  let wka := d.spec.coherence.bind (·.wka)
  let selector : Labels := ∅
  let selector := selector.set "coherenceCluster" d.clusterName
  let selector := selector.set "coherenceComponent" "coherencePod"
  let ann := ((d.createGlobalAnnotations op).getD ∅).set
    "service.alpha.kubernetes.io/tolerate-unready-endpoints" "true"
  { metadata := d.metadataFor d.wkaServiceName
      (((d.createGlobalLabels op).set "coherenceComponent" "coherenceWkaService").setAll
        ((wka.map (·.labels)).getD ∅))
      (some (ann.setAll ((wka.map (·.annotations)).getD ∅)))
    body := .service
      { clusterIP := "None"
        publishNotReadyAddresses := true
        ports := d.spec.createDefaultServicePorts
        selector := selector.set "coherenceWKAMember" "true"
        ipFamilyPolicy := d.spec.getWkaIPFamily.map fun _ => "SingleStack"
        ipFamilies := d.spec.getWkaIPFamily.toList } }

/-- `CreateHeadlessService`. -/
def createHeadlessService : Object :=
  let exposed := d.spec.ports.filter fun p => p.exposeOnSTS.getD true
  let families := d.headlessServiceIPFamily
  { metadata := d.metadataFor d.headlessServiceName
      ((d.createGlobalLabels op).set "coherenceComponent" "coherence-headless")
      (d.createGlobalAnnotations op)
    body := .service
      { clusterIP := "None"
        publishNotReadyAddresses := true
        selector := d.createPodSelectorLabels
        ports := d.spec.createDefaultServicePorts ++ exposed.map fun p => p.createServicePort d
        ipFamilyPolicy := match families with
          | [] => none
          | [_] => some "SingleStack"
          | _ => some "PreferDualStack"
        ipFamilies := families } }

/-- `CreateServicesForPort`. -/
def createServicesForPort : List Resource := d.spec.ports.flatMap fun p => p.createResources op d

/-- `CoherenceResourceSpec.CreateKubernetesResources`. -/
def createKubernetesResources : List Resource :=
  if d.spec.getReplicas ≤ 0 then []
  else if d.spec.requiresWKAService then
    (d.createWKAService op).toResource :: d.createServicesForPort op
  else d.createServicesForPort op

end CoherenceResource

/-! ### The StatefulSet -/

/-- `CreatePersistentVolumeClaim`. -/
def PersistentStorageSpec.createPersistentVolumeClaim (s : PersistentStorageSpec) (d : CoherenceResource)
    (name : String) : Option PersistentVolumeClaim :=
  if s.volume.isSome then none
  else s.persistentVolumeClaim.map fun spec =>
    { name
      labels := (d.createGlobalLabels op).set "coherenceComponent" "coherence-volume"
      annotations := (d.createGlobalAnnotations op).getD ∅
      spec }

/-- `CreatePersistentVolumeClaims`. -/
def PersistenceSpec.createPersistentVolumeClaims (s : PersistenceSpec) (d : CoherenceResource) :
    List PersistentVolumeClaim :=
  (s.storage.createPersistentVolumeClaim op d "persistence-volume").toList ++
    (s.snapshots.bind fun s => s.createPersistentVolumeClaim op d "snapshot-volume").toList

namespace Coherence

variable (c : Coherence)

/-- `CreateAnnotations`. -/
def createAnnotations : Labels :=
  let annotations := (c.toResource.createGlobalAnnotations op).getD ∅
  match c.spec.statefulSetAnnotations with
  | some a => annotations.setAll a
  | none => annotations.setAll c.metadata.annotations

/-- The update strategy of the StatefulSet: the operator takes the upgrade over unless it is by pod. -/
def updateStrategy : UpdateStrategy :=
  match c.spec.rollingUpdateStrategy with
  | none | some .pod => { type := .rollingUpdate, rollingUpdate := some { partition := some 0 } }
  | some _ => { type := .onDelete }

/-- `CreateStatefulSet`. -/
def createStatefulSet : StatefulSet :=
  let d := c.toResource
  let claims := match c.spec.coherence.bind (·.persistence) with
    | some p => p.createPersistentVolumeClaims op d
    | none => []
  { metadata := d.metadataFor d.name ((d.createGlobalLabels op).set "coherenceComponent" "coherence")
      (some (c.createAnnotations op))
    spec :=
      { replicas := some c.spec.getReplicas
        minReadySeconds := c.spec.minReadySeconds.getD 0
        podManagementPolicy := "Parallel"
        updateStrategy := c.updateStrategy
        revisionHistoryLimit := some 5
        serviceName := d.headlessServiceName
        selector := d.createPodSelectorLabels
        template := op.podTemplate c
        volumeClaimTemplates := claims ++ c.spec.volumeClaimTemplates } }

/-- `Coherence.CreateKubernetesResources`; its error is always nil. -/
def createKubernetesResources : Resources where
  items := c.toResource.createKubernetesResources op ++
    [(c.toResource.createHeadlessService op).toResource, (c.createStatefulSet op).toObject.toResource]

end Coherence

/-! ### The Job -/

namespace CoherenceJob

variable (c : CoherenceJob)

/-- `CreateJob`. -/
def createJob : Job :=
  let d := c.toResource
  let template := op.jobPodTemplate c
  { metadata := d.metadataFor d.name ((d.createGlobalLabels op).set "coherenceComponent" "coherence")
      (d.createGlobalAnnotations op)
    spec :=
      { parallelism := some c.spec.getJobReplicas
        template := { template with
          fields := template.fields.set "restartPolicy" (c.spec.restartPolicy.getD "Never") }
        activeDeadlineSeconds := c.spec.activeDeadlineSeconds
        completions := if c.spec.syncCompletionsToReplicas.getD false then some c.spec.getJobReplicas
          else c.spec.completions
        podFailurePolicy := c.spec.podFailurePolicy
        backoffLimit := c.spec.backoffLimit
        ttlSecondsAfterFinished := c.spec.ttlSecondsAfterFinished
        completionMode := c.spec.completionMode
        suspend := c.spec.suspend } }

/-- `CoherenceJob.CreateKubernetesResources`; its error is always nil. -/
def createKubernetesResources : Resources where
  items := c.toResource.createKubernetesResources op ++ [(c.createJob op).toObject.toResource]

end CoherenceJob

end CoherenceOperator
