import CoherenceOperator.Api.Environment

/-!
# The template of the pods

`CreatePodTemplateSpec` and `ConfigureHealthMutators`: the Coherence container and the two init-containers of the operator,
to which the application, the virtual machine, Coherence, the other containers and the volumes each add their part.
What the maps of the spec come to (the labels, the annotations and the encoded services) is handed
in: the order in which these are gone through is not settled here.
-/

namespace CoherenceOperator

/-! ### Containers -/

/-- The container with a name, `EnsureContainerInPod`. -/
def PodTemplateSpec.ensureContainer (name : String) (t : PodTemplateSpec) : Container :=
  (t.containers.find? fun c => c.name = name).getD { name }

/-- `ReplaceContainerInPod`. -/
def replaceContainer (c : Container) : List Container → List Container
  | [] => [c]
  | x :: xs => if x.name = c.name then c :: xs else x :: replaceContainer c xs

/-- `CreateCommonVolumeMounts`. -/
def createCommonVolumeMounts : List VolumeMount :=
  [ { name := "coh-utils", mountPath := VolumeMountPathUtils },
    { name := "jvm", mountPath := "/coherence-operator/jvm" } ]

/-- `UpdateProbeSpec`. -/
def ReadinessProbeSpec.updateProbeSpec (s : Option ReadinessProbeSpec) (port : ℤ) (path : String) (p : ContainerProbe) :
    ContainerProbe :=
  let r := s.getD {}
  let p :=
    if r.exec.isSome then { p with exec := r.exec }
    else if r.httpGet.isSome then { p with httpGet := r.httpGet }
    else if r.tcpSocket.isSome then { p with tcpSocket := r.tcpSocket }
    else { p with httpGet := some { path, port := .int port, scheme := "HTTP" } }
  { p with
    initialDelaySeconds := r.initialDelaySeconds.getD p.initialDelaySeconds
    periodSeconds := r.periodSeconds.getD p.periodSeconds
    failureThreshold := r.failureThreshold.getD p.failureThreshold
    successThreshold := r.successThreshold.getD p.successThreshold
    timeoutSeconds := r.timeoutSeconds.getD p.timeoutSeconds
    terminationGracePeriodSeconds := if s.isSome then r.terminationGracePeriodSeconds else p.terminationGracePeriodSeconds }

/-- `CreateDefaultReadinessProbe`. -/
def createDefaultReadinessProbe : ContainerProbe :=
  { initialDelaySeconds := 30, periodSeconds := 60, timeoutSeconds := 30, successThreshold := 1, failureThreshold := 50 }

/-- `CreateDefaultLivenessProbe`. -/
def createDefaultLivenessProbe : ContainerProbe :=
  { initialDelaySeconds := 60, periodSeconds := 60, timeoutSeconds := 30, successThreshold := 1, failureThreshold := 5 }

/-- `CreatePort`. -/
def NamedPortSpec.createPort (p : NamedPortSpec) (d : CoherenceResource) : ContainerPort where
  name := p.name
  containerPort := p.getPort d
  protocol := p.protocol.getD "TCP"
  hostPort := p.hostPort.getD 0
  hostIP := p.hostIP.getD ""

/-- `PersistenceSpec.AddVolumeMounts`, without the variables. -/
def PersistenceSpec.volumeMounts (p : PersistenceSpec) : List VolumeMount :=
  (if p.storage.volume.isSome || p.storage.persistentVolumeClaim.isSome then
    [{ name := "persistence-volume", mountPath := "/coherence-operator/persistence" }] else []) ++
    if p.snapshots.any fun s => s.volume.isSome || s.persistentVolumeClaim.isSome then
      [{ name := "snapshot-volume", mountPath := "/coherence-operator/snapshot" }]
    else []

/-- `CreatePersistenceVolumes`. -/
def PersistenceSpec.createPersistenceVolumes (p : PersistenceSpec) : List Volume :=
  (p.storage.volume.toList.map fun v => { name := "persistence-volume", source := .other v }) ++
    ((p.snapshots.bind (·.volume)).toList.map fun v => { name := "snapshot-volume", source := .other v })

/-- The Secret of the certificates that `AddSSLVolumesForPod` mounts. -/
def PortSpecWithSSL.certificates (port : Option PortSpecWithSSL) : Option String :=
  ((port.filter (·.enabled = some true)).bind fun p => (p.ssl.filter (·.enabled = some true)).bind (·.secrets)).filter (· ≠ "")

/-- The mount of `AddSSLVolumesForPod`. -/
def PortSpecWithSSL.volumeMounts (port : Option PortSpecWithSSL) (name mountPath : String) : List VolumeMount :=
  (certificates port).toList.map fun _ => { name, mountPath, readOnly := true }

/-- The volume of `AddSSLVolumesForPod`. -/
def PortSpecWithSSL.volumes (port : Option PortSpecWithSSL) (name : String) : List Volume :=
  (certificates port).toList.map fun secret => { name, source := .secret secret [] (some 511) none }

namespace CoherenceResource

variable (op : Operator) (d : CoherenceResource)

/-- The image of the Coherence container. -/
def coherenceImage : String := d.spec.image.getD op.coherenceImage

/-- `CreateCoherenceContainer`. -/
def createCoherenceContainer (services : Option String) : Container :=
  let healthPort := d.spec.getHealthPort
  { name := "coherence"
    image := d.coherenceImage op
    ports :=
      [ { name := "coherence", containerPort := 7, protocol := "TCP" },
        { name := "health", containerPort := healthPort, protocol := "TCP" },
        { name := "coh-local", containerPort := (CoherenceSpec.getLocalPorts d.spec.coherence).1, protocol := "TCP" },
        { name := "coh-cluster", containerPort := 7574, protocol := "TCP" } ]
    volumeMounts := createCommonVolumeMounts
    envFrom := d.envVarFrom
    env := d.createDefaultEnv services ++ d.spec.env ++ envOfFlag "COHERENCE_OPERATOR_FORCE_EXIT" (some d.forceExit)
    readinessProbe := some (ReadinessProbeSpec.updateProbeSpec d.spec.readinessProbe healthPort "/ready"
      createDefaultReadinessProbe)
    livenessProbe := some (ReadinessProbeSpec.updateProbeSpec d.spec.livenessProbe healthPort "/healthz"
      createDefaultLivenessProbe)
    startupProbe := d.spec.startupProbe.map fun s =>
      ReadinessProbeSpec.updateProbeSpec (some s) healthPort "/healthz" createDefaultLivenessProbe
    fields := setIfPresent "securityContext" d.spec.containerSecurityContext
      (setIfPresent "imagePullPolicy" d.spec.imagePullPolicy
        (setIfPresent "resources" d.spec.resources (setIfPresent "lifecycle" d.spec.lifecycle ∅))) }

/-- `createInitContainer`. -/
def createInitContainer (name image : String) (command : List String) : Container where
  name := name
  image := image
  command := command
  volumeMounts := createCommonVolumeMounts ++
    (((d.spec.coherence.bind (·.persistence)).map (·.volumeMounts)).getD [])
  fields := setIfPresent "securityContext" d.spec.containerSecurityContext
    (setIfPresent "imagePullPolicy" d.spec.coherenceUtils (setIfPresent "resources" d.initResources ∅))

/-- `CreateOperatorInitContainer`. -/
def createOperatorInitContainer : Container :=
  d.createInitContainer "coherence-k8s-utils" op.operatorImage ["/files/runner", "init"]

/-- `CreateOperatorConfigInitContainer`. -/
def createOperatorConfigInitContainer : Container :=
  { d.createInitContainer "coherence-k8s-config" (d.coherenceImage op) [VolumeMountPathUtils ++ "/runner", "config"] with
    workingDir := (d.spec.application.bind (·.workingDir)).getD "" }

/-! ### Where the pods run -/

/-- The selector of the members of the deployment. -/
def memberSelector : String := s!"coherenceCluster in ({d.clusterName}),coherenceDeployment in ({d.name})"

/-- `CreateDefaultPodAffinity`: the preferred terms of the anti-affinity, each with its weight. -/
def createDefaultPodAffinity : String :=
  s!"podAntiAffinity 50 topology.kubernetes.io/zone {d.memberSelector}; " ++
    s!"10 oci.oraclecloud.com/fault-domain {d.memberSelector}; 1 kubernetes.io/hostname {d.memberSelector}"

/-- `CreateDefaultTopologySpreadConstraints`. -/
def createDefaultTopologySpreadConstraints : String :=
  s!"1 topology.kubernetes.io/zone ScheduleAnyway {d.memberSelector}; " ++
    s!"1 kubernetes.io/hostname ScheduleAnyway {d.memberSelector}"

/-- The fields of the pod that are taken from the spec. -/
def podFields : Labels :=
  let serviceAccountName := if d.spec.serviceAccountName = "" then "default" else d.spec.serviceAccountName
  let fields := d.spec.fields.setAll ((∅ : Labels).set "serviceAccountName" serviceAccountName)
  let fields := fields.set "topologySpreadConstraints"
    (d.spec.topologySpreadConstraints.getD d.createDefaultTopologySpreadConstraints)
  let fields := setIfPresent "activeDeadlineSeconds" (d.spec.activeDeadlineSeconds.map int32ToString) fields
  let fields := setIfPresent "restartPolicy" d.spec.restartPolicy fields
  -- `NetworkSpec.UpdatePodTemplate`
  match d.spec.network with
  | some network => fields.setAll network
  | none => fields

/-! ### Additional containers and volumes -/

/-- `processAdditionalContainer`: the common variables and mounts that are not there, and the mounts of the spec. -/
def processAdditionalContainer (c : Container) : Container :=
  let env := d.createCommonEnv.foldl (fun env e => if (findEnv e.name env).isSome then env else env ++ [e]) c.env
  let mounts := createCommonVolumeMounts.foldl
    (fun mounts m => if mounts.any fun x => x.name = m.name then mounts else mounts ++ [m]) c.volumeMounts
  { c with env, volumeMounts := mounts ++ d.spec.volumeMounts }

/-- `ProcessSideCars`. -/
def processSideCars (t : PodTemplateSpec) : PodTemplateSpec :=
  { t with
    initContainers := t.initContainers ++ d.spec.initContainers.map d.processAdditionalContainer
    containers := t.containers ++ d.spec.sideCars.map d.processAdditionalContainer }

end CoherenceResource

/-- The name of the volume. -/
def VolumeSpec.volName (v : VolumeSpec) : String := if v.volumeName = "" then v.name else v.volumeName

/-- The mount that `AddVolumeMounts` adds to a container. -/
def VolumeSpec.volumeMount (v : VolumeSpec) : VolumeMount where
  name := v.volName
  readOnly := v.readOnly
  mountPath := v.mountPath
  subPath := v.subPath
  mountPropagation := v.mountPropagation
  subPathExpr := v.subPathExpr

/-- `AddVolumes`, of a volume with this source. -/
def VolumeSpec.addVolumes (source : VolumeSource) (v : VolumeSpec) (t : PodTemplateSpec) : PodTemplateSpec :=
  let mount (c : Container) : Container := { c with volumeMounts := c.volumeMounts ++ [v.volumeMount] }
  { t with
    initContainers := t.initContainers.map mount
    containers := t.containers.map mount
    volumes := t.volumes ++ [{ name := v.volName, source }] }

/-- `ConfigMapVolumeSpec.AddVolumes`. -/
def VolumeSpec.addConfigMapVolumes (t : PodTemplateSpec) (v : VolumeSpec) : PodTemplateSpec :=
  v.addVolumes (.configMap v.name v.items v.defaultMode v.optional) t

/-- `SecretVolumeSpec.AddVolumes`. -/
def VolumeSpec.addSecretVolumes (t : PodTemplateSpec) (v : VolumeSpec) : PodTemplateSpec :=
  v.addVolumes (.secret v.name v.items v.defaultMode v.optional) t

/-! ### The template -/

/-- `JVMSpec.UpdatePodTemplate`. -/
def JVMSpec.updatePodTemplate (jvm : Option JVMSpec) (t : PodTemplateSpec) : PodTemplateSpec :=
  let c := JVMSpec.updateCoherenceContainer jvm (t.ensureContainer "coherence")
  { t with
    containers := replaceContainer c t.containers
    volumes := t.volumes ++ [{ name := "jvm", source := (jvm.bind (·.diagnosticsVolume)).getD .emptyDir }] }

/-- `CoherenceSpec.UpdatePodTemplateSpec`. -/
def CoherenceResource.updatePodTemplateSpec (d : CoherenceResource) (t : PodTemplateSpec) : PodTemplateSpec :=
  let c := t.ensureContainer "coherence"
  let s := d.spec.coherence.getD {}
  let c := { c with
    env := c.env ++ d.coherenceEnv
    volumeMounts := c.volumeMounts ++
      PortSpecWithSSL.volumeMounts s.management "management-ssl-config" "/coherence-operator/coherence/certs/management" ++
      PortSpecWithSSL.volumeMounts s.metrics "metrics-ssl-config" "/coherence-operator/coherence/certs/metrics" ++
      ((s.persistence.map (·.volumeMounts)).getD []) }
  { t with
    containers := replaceContainer c t.containers
    volumes := t.volumes ++ PortSpecWithSSL.volumes s.management "management-ssl-config" ++
      PortSpecWithSSL.volumes s.metrics "metrics-ssl-config" ++
      ((s.persistence.map (·.createPersistenceVolumes)).getD []) }

/-- `replaceEnvVar`: the first variable with the name is replaced, or removed. -/
def replaceEnvVar (name : String) (v : Option EnvVar) : List EnvVar → List EnvVar
  | [] => []
  | e :: env =>
    if e.name = name then
      match v with
      | some v => { v with name } :: env
      | none => env
    else e :: replaceEnvVar name v env

/-- The environment of the Coherence container is given to the init-containers of the operator, with the options of the
virtual machine that the spec has. -/
def PodTemplateSpec.shareEnv (jdkOptions : Option EnvVar) (t : PodTemplateSpec) : PodTemplateSpec :=
  match t.initContainers, t.containers with
  | init :: config :: others, c :: _ =>
    let share (i : Container) : Container := { i with env := replaceEnvVar EnvVarJdkOptions jdkOptions (i.env ++ c.env) }
    { t with initContainers := share init :: share config :: others }
  | _, _ => t

namespace CoherenceResource

variable (op : Operator) (d : CoherenceResource)

/-- `CreatePodTemplateSpec`, given what the maps of the spec come to. -/
def createPodTemplateSpec (labels annotations : Labels) (services : Option String) : PodTemplateSpec :=
  let c := d.createCoherenceContainer op services
  let jdkOptions := findEnv EnvVarJdkOptions c.env
  let c := ApplicationSpec.updateCoherenceContainer d.spec.application c
  let c := { c with
    ports := c.ports ++ d.spec.ports.map fun p => p.createPort d
    volumeMounts := c.volumeMounts ++ d.spec.volumeMounts }
  let addMounts (i : Container) : Container := { i with volumeMounts := i.volumeMounts ++ d.spec.volumeMounts }
  let t : PodTemplateSpec :=
    { labels
      annotations
      affinity := some (d.spec.affinity.getD d.createDefaultPodAffinity)
      fields := d.podFields
      volumes := [{ name := "coh-utils", source := .emptyDir }]
      initContainers := [addMounts (d.createOperatorInitContainer op), addMounts (d.createOperatorConfigInitContainer op)]
      containers := [c] }
  let t := JVMSpec.updatePodTemplate d.spec.jvm t
  let t := d.updatePodTemplateSpec t
  let t := d.processSideCars t
  let t := { t with volumes := t.volumes ++ d.spec.volumes }
  let t := d.spec.configMapVolumes.foldl VolumeSpec.addConfigMapVolumes t
  let t := d.spec.secretVolumes.foldl VolumeSpec.addSecretVolumes t
  t.shareEnv jdkOptions

end CoherenceResource

/-! ### Health mutators -/

/-- `IntOrString.IntValue()`. -/
def IntOrString.intValue : IntOrString → ℤ
  | .int n => n
  | .str s => s.toInt?.getD 0

/-- `isGeneratedHealthProbe`. -/
def isGeneratedHealthProbe (s : Option ReadinessProbeSpec) : Bool :=
  match s with
  | some s => s.exec.isNone && s.httpGet.isNone && s.tcpSocket.isNone
  | none => true

/-- The probe uses HTTPS, if the operator generated it. -/
def secureGeneratedProbe (healthPort : ℤ) (generated : Bool) (p : ContainerProbe) : ContainerProbe :=
  match p.httpGet with
  | some get =>
    if generated && get.port.intValue = healthPort then { p with httpGet := some { get with scheme := "HTTPS" } } else p
  | none => p

/-- The credentials that are mounted: the volume of each, and the path. -/
def HealthMutatorConnection.credentials (c : HealthMutatorConnection) : List (Volume × String) :=
  (match c.basicAuth with
    | some auth =>
      [ (⟨"health-mutator-username", .secret auth.username.name [⟨auth.username.key, "value", none⟩] none none⟩,
          "/coherence/health-auth/username"),
        (⟨"health-mutator-password", .secret auth.password.name [⟨auth.password.key, "value", none⟩] none none⟩,
          "/coherence/health-auth/password") ]
    | none => []) ++
  match c.serverTLS.bind (·.secrets) with
  | some secret => [(⟨"health-mutator-tls", .secret secret [] none none⟩, "/coherence/health-tls")]
  | none => []

/-- What `ConfigureHealthMutators` does to a container. -/
def CoherenceResourceSpec.secureContainer (spec : CoherenceResourceSpec) (data : String) (connection : HealthMutatorConnection)
    (c : Container) : Container :=
  { c with
    env := c.env ++ [{ name := HealthMutatorEnv, value := data }]
    volumeMounts := c.volumeMounts ++ connection.credentials.map fun (v, mountPath) =>
      { name := v.name, mountPath, readOnly := true }
    readinessProbe := c.readinessProbe.map
      (secureGeneratedProbe spec.getHealthPort (isGeneratedHealthProbe spec.readinessProbe))
    livenessProbe := c.livenessProbe.map
      (secureGeneratedProbe spec.getHealthPort (isGeneratedHealthProbe spec.livenessProbe))
    startupProbe := c.startupProbe.map
      (secureGeneratedProbe spec.getHealthPort
        (spec.startupProbe.isSome && isGeneratedHealthProbe spec.startupProbe)) }

/-- `ConfigureHealthMutators`. -/
def CoherenceStatefulSetResourceSpec.configureHealthMutators (op : Operator) (spec : CoherenceStatefulSetResourceSpec)
    (t : PodTemplateSpec) : PodTemplateSpec :=
  match spec.healthMutatorConnection.filter (·.secure) with
  | none => t
  | some connection =>
    let data := op.formatConnection connection
    let secure (name : String) (c : Container) : Container :=
      if c.name = name then spec.secureContainer data connection c else c
    let mounted := t.containers.any (fun c => c.name = "coherence") ||
      t.initContainers.any fun c => c.name = "coherence-k8s-config"
    { t with
      annotations := t.annotations.set HealthMutatorAnnotation data
      containers := t.containers.map (secure "coherence")
      initContainers := t.initContainers.map (secure "coherence-k8s-config")
      volumes := t.volumes ++ if mounted then connection.credentials.map Prod.fst else [] }

end CoherenceOperator
