import CoherenceOperator.Api.Conditions
import CoherenceOperator.Api.Errors
import CoherenceOperator.Api.Probe
import CoherenceOperator.Api.Resources
import CoherenceOperator.Patching

/-!
# The Coherence and CoherenceJob resources

The two custom resources: what their specs and their status hold, as far as the controllers and
the builders read it, and the methods both have behind the interface `CoherenceResource`. Fields
that are copied into the pods as they are are kept together, by path, as `fields`.

A `Deployment` is a value of that interface. A pointer that is nil is still a value of
the interface when it comes with a type: `.coherence none` is not `.nil`.
-/

namespace CoherenceOperator

/-- `DefaultReplicas`. -/
def DefaultReplicas : ℤ := 3

/-- `DefaultJobReplicas`. -/
def DefaultJobReplicas : ℤ := 1

/-- The finalizer the operator adds to a `Coherence` resource. -/
def CoherenceFinalizer : String := "coherence.oracle.com/operator"

/-! ### The specs -/

/-- `CoherenceWKASpec`. -/
structure CoherenceWKASpec where
  deployment : String := ""
  ns : String := ""
  addresses : List String := []
  labels : Labels := ∅
  annotations : Labels := ∅
  ipFamily : Option String := none
  deriving DecidableEq

/-- `PersistentStorageSpec`: a claim or a volume, by path. -/
structure PersistentStorageSpec where
  persistentVolumeClaim : Option Labels := none
  volume : Option Labels := none
  deriving DecidableEq

/-- `PersistenceSpec`. -/
structure PersistenceSpec where
  mode : Option String := none
  storage : PersistentStorageSpec := {}
  snapshots : Option PersistentStorageSpec := none
  deriving DecidableEq

/-- `PortSpecWithSSL`. -/
structure PortSpecWithSSL where
  enabled : Option Bool := none
  port : Option ℤ := none
  ssl : Option SSLSpec := none
  deriving DecidableEq

/-- `CoherenceSpec`; of `tracing` the ratio, as it is written. -/
structure CoherenceSpec where
  cacheConfig : Option String := none
  overrideConfig : Option String := none
  storageEnabled : Option Bool := none
  persistence : Option PersistenceSpec := none
  logLevel : Option ℤ := none
  management : Option PortSpecWithSSL := none
  metrics : Option PortSpecWithSSL := none
  tracing : Option String := none
  allowEndangeredForStatusHA : List String := []
  excludeFromWKA : Option Bool := none
  wka : Option CoherenceWKASpec := none
  skipVersionCheck : Option Bool := none
  enableIPMonitor : Option Bool := none
  localPort : Option ℤ := none
  localPortAdjust : Option IntOrString := none
  deriving DecidableEq

/-- `metrics.port`. -/
def CoherenceSpec.metricsPort (s : CoherenceSpec) : Option ℤ := s.metrics.bind (·.port)

/-- `management.port`. -/
def CoherenceSpec.managementPort (s : CoherenceSpec) : Option ℤ := s.management.bind (·.port)

/-- `CloudNativeBuildPackSpec`. -/
structure CloudNativeBuildPackSpec where
  enabled : Option Bool := none
  launcher : Option String := none
  deriving DecidableEq

/-- `ApplicationSpec`. -/
structure ApplicationSpec where
  type : Option String := none
  main : Option String := none
  entryPoint : List String := []
  args : List String := []
  workingDir : Option String := none
  cloudNativeBuildPack : Option CloudNativeBuildPackSpec := none
  springBootFatJar : Option String := none
  useImageEntryPoint : Option Bool := none
  useJdkJavaOptions : Option Bool := none
  alternateJdkJavaOptions : Option String := none
  deriving DecidableEq

/-- `JvmDebugSpec`. -/
structure JvmDebugSpec where
  enabled : Option Bool := none
  suspend : Option Bool := none
  attach : Option String := none
  port : Option ℤ := none
  deriving DecidableEq

/-- `JvmGarbageCollectorSpec`. -/
structure JvmGarbageCollectorSpec where
  collector : Option String := none
  args : List String := []
  deriving DecidableEq

/-- `JvmOutOfMemorySpec`. -/
structure JvmOutOfMemorySpec where
  exit : Option Bool := none
  heapDump : Option Bool := none
  deriving DecidableEq

/-- `JvmMemorySpec`; the quantities are as they are written. -/
structure JvmMemorySpec where
  heapSize : Option String := none
  initialHeapSize : Option String := none
  maxHeapSize : Option String := none
  maxRAM : Option String := none
  percentage : Option String := none
  initialRAMPercentage : Option String := none
  maxRAMPercentage : Option String := none
  minRAMPercentage : Option String := none
  stackSize : Option String := none
  metaspaceSize : Option String := none
  directMemorySize : Option String := none
  nativeMemoryTracking : Option String := none
  onOutOfMemory : Option JvmOutOfMemorySpec := none
  deriving DecidableEq

/-- `JVMSpec`. -/
structure JVMSpec where
  classpath : List String := []
  args : List String := []
  debug : Option JvmDebugSpec := none
  useContainerLimits : Option Bool := none
  gc : Option JvmGarbageCollectorSpec := none
  diagnosticsVolume : Option VolumeSource := none
  memory : Option JvmMemorySpec := none
  useJibClasspath : Option Bool := none
  java8 : Option Bool := none
  deriving DecidableEq

/-- `ReadinessProbeSpec`, with the fields of its `ProbeHandler`. -/
structure ReadinessProbeSpec where
  exec : Option (List String) := none
  httpGet : Option HTTPGetAction := none
  tcpSocket : Option TCPSocketAction := none
  initialDelaySeconds : Option ℤ := none
  timeoutSeconds : Option ℤ := none
  periodSeconds : Option ℤ := none
  successThreshold : Option ℤ := none
  failureThreshold : Option ℤ := none
  terminationGracePeriodSeconds : Option ℤ := none
  deriving DecidableEq

/-- `ConfigMapVolumeSpec` and `SecretVolumeSpec`, which have the same fields. -/
structure VolumeSpec where
  name : String
  mountPath : String
  volumeName : String := ""
  readOnly : Bool := false
  subPath : String := ""
  mountPropagation : Option String := none
  subPathExpr : String := ""
  items : List KeyToPath := []
  defaultMode : Option ℤ := none
  optional : Option Bool := none
  deriving DecidableEq

/-- The `ServiceSpec` of a port. -/
structure PortServiceSpec where
  enabled : Option Bool := none
  name : Option String := none
  portName : Option String := none
  port : Option ℤ := none
  labels : Labels := ∅
  annotations : Labels := ∅
  publishNotReadyAddresses : Option Bool := none
  clusterIP : Option String := none
  ipFamilyPolicy : Option String := none
  ipFamilies : List String := []
  fields : Labels := ∅
  deriving DecidableEq

/-- `ServiceMonitorSpec`. -/
structure ServiceMonitorSpec where
  enabled : Option Bool := none
  labels : Labels := ∅
  relabelings : List RelabelConfig := []
  useDefaultLabelDrop : Option Bool := none
  endpoint : Labels := ∅
  fields : Labels := ∅
  deriving DecidableEq

/-- `NamedPortSpec`. -/
structure NamedPortSpec where
  name : String
  port : ℤ := 0
  protocol : Option String := none
  appProtocol : Option String := none
  nodePort : Option ℤ := none
  hostPort : Option ℤ := none
  hostIP : Option String := none
  service : Option PortServiceSpec := none
  serviceMonitor : Option ServiceMonitorSpec := none
  exposeOnSTS : Option Bool := none
  deriving DecidableEq

/-- `StartQuorum`. -/
structure StartQuorum where
  deployment : String
  ns : String := ""
  podCount : ℤ := 0
  deriving DecidableEq, Repr

/-- `GlobalSpec`. -/
structure GlobalSpec where
  labels : Labels := ∅
  annotations : Option Labels := none
  deriving DecidableEq

/-- `CoherenceResourceSpec`: what the specs of both resources share. `fields` are the fields of the pod that are copied as
they are, `network` those of the `NetworkSpec`, and `coherenceUtils` is the pull policy of the `CoherenceUtilsSpec`. -/
structure CoherenceResourceSpec where
  image : Option String := none
  imagePullPolicy : Option String := none
  replicas : Option ℤ := none
  initialReplicas : Option ℤ := none
  role : String := ""
  appLabel : Option String := none
  versionLabel : Option String := none
  coherence : Option CoherenceSpec := none
  application : Option ApplicationSpec := none
  jvm : Option JVMSpec := none
  ports : List NamedPortSpec := []
  startQuorum : List StartQuorum := []
  env : List EnvVar := []
  labels : Labels := ∅
  annotations : Labels := ∅
  initContainers : List Container := []
  sideCars : List Container := []
  configMapVolumes : List VolumeSpec := []
  secretVolumes : List VolumeSpec := []
  volumes : List Volume := []
  volumeMounts : List VolumeMount := []
  affinity : Option String := none
  healthPort : Option ℤ := none
  readinessProbe : Option ReadinessProbeSpec := none
  livenessProbe : Option ReadinessProbeSpec := none
  startupProbe : Option ReadinessProbeSpec := none
  resources : Option String := none
  containerSecurityContext : Option String := none
  lifecycle : Option String := none
  network : Option Labels := none
  coherenceUtils : Option String := none
  serviceAccountName : String := ""
  operatorRequestTimeout : Option ℤ := none
  topologySpreadConstraints : Option String := none
  rackLabel : Option String := none
  siteLabel : Option String := none
  activeDeadlineSeconds : Option ℤ := none
  restartPolicy : Option String := none
  minReadySeconds : Option ℤ := none
  fields : Labels := ∅
  deriving DecidableEq

/-- `RollingUpdateStrategyType`. -/
inductive RollingUpdateStrategyType where
  | pod | node | nodeLabel | manual
  deriving DecidableEq, Repr

/-- `ScalingPolicy`. -/
inductive ScalingPolicy where
  | parallel | safe | parallelUpSafeDown
  deriving DecidableEq, Repr

/-- `ScalingSpec`. -/
structure ScalingSpec where
  policy : Option ScalingPolicy := none
  probe : Option Probe := none
  deriving DecidableEq, Repr

/-- `ActionJob`. -/
structure ActionJob where
  spec : JobSpec
  labels : Labels := ∅
  annotations : Labels := ∅
  deriving DecidableEq

/-- `Action`, without its probe, of which only the log tells how it went. -/
structure Action where
  name : String := ""
  job : Option ActionJob := none
  deriving DecidableEq

/-- `CoherenceStatefulSetResourceSpec`. -/
structure CoherenceStatefulSetResourceSpec extends CoherenceResourceSpec where
  cluster : Option String := none
  statefulSetAnnotations : Option Labels := none
  volumeClaimTemplates : List PersistentVolumeClaim := []
  scaling : Option ScalingSpec := none
  healthMutatorConnection : Option HealthMutatorConnection := none
  suspendProbe : Option Probe := none
  suspendServicesOnShutdown : Option Bool := none
  suspendServiceTimeout : Option ℤ := none
  haBeforeUpdate : Option Bool := none
  allowUnsafeDelete : Option Bool := none
  resumeServicesOnStartup : Option Bool := none
  autoResumeServices : Option (Finmap fun _ : String => Bool) := none
  actions : List Action := []
  envFrom : List Labels := []
  initResources : Option String := none
  global : Option GlobalSpec := none
  rollingUpdateStrategy : Option RollingUpdateStrategyType := none
  rollingUpdateLabel : Option String := none
  headlessServiceIpFamilies : List String := []
  deriving DecidableEq

/-- `CoherenceJobProbe`, without the probe itself. -/
structure CoherenceJobProbe where
  readyCount : Option ℤ := none
  deriving DecidableEq, Repr

/-- `CoherenceJobResourceSpec`. -/
structure CoherenceJobResourceSpec extends CoherenceResourceSpec where
  cluster : String := ""
  completions : Option ℤ := none
  syncCompletionsToReplicas : Option Bool := none
  podFailurePolicy : Option String := none
  backoffLimit : Option ℤ := none
  ttlSecondsAfterFinished : Option ℤ := none
  completionMode : Option String := none
  suspend : Option Bool := none
  readyAction : Option CoherenceJobProbe := none
  forceExit : Option Bool := none
  envFrom : List Labels := []
  initResources : Option String := none
  global : Option GlobalSpec := none
  deriving DecidableEq

/-! ### The status -/

/-- `CoherenceType`. -/
inductive CoherenceType where
  | statefulSet | job
  deriving DecidableEq, Repr

/-- `CoherenceJobProbeStatus`. -/
structure CoherenceJobProbeStatus where
  pod : String
  lastReadyTime : Option ℕ := none
  lastProbeTime : Option ℕ := none
  success : Option Bool := none
  error : Option String := none
  deriving DecidableEq, Repr

/-- `CoherenceResourceStatus`; a status without a phase has `none`. -/
structure CoherenceResourceStatus where
  phase : Option ConditionType := none
  coherenceCluster : String := ""
  type : Option CoherenceType := none
  replicas : ℤ := 0
  currentReplicas : ℤ := 0
  readyReplicas : ℤ := 0
  active : ℤ := 0
  succeeded : ℤ := 0
  failed : ℤ := 0
  role : String := ""
  selector : String := ""
  conditions : Conditions := []
  hash : String := ""
  actionsExecuted : Bool := false
  jobProbes : List CoherenceJobProbeStatus := []
  deriving DecidableEq, Repr

/-! ### The resources -/

/-- A `Coherence` resource. -/
structure Coherence where
  metadata : ObjectMeta
  generation : ℕ := 1
  spec : CoherenceStatefulSetResourceSpec := {}
  status : CoherenceResourceStatus := {}
  deriving DecidableEq

/-- A `CoherenceJob` resource. -/
structure CoherenceJob where
  metadata : ObjectMeta
  generation : ℕ := 1
  spec : CoherenceJobResourceSpec := {}
  status : CoherenceResourceStatus := {}
  deriving DecidableEq

/-- What the operator is built and started with. The code behind the last fields is taken as it
comes: `semverCompare` compares semantic versions, `formatTime` and `parseTime` write and read a time as
RFC 3339 does, `formatConnection` and `parseConnection` write and read a connection as JSON, `merge` makes and applies patches, and the others
build and check what is in the pods. -/
structure Operator where
  version : String := "999.0.0"
  globalLabels : Labels := ∅
  globalAnnotations : Option Labels := none
  restHostAndPort : String := ""
  coherenceImage : String := ""
  operatorImage : String := ""
  skipServiceSuspend : Bool := false
  statusHARetry : ℕ := 60
  semverCompare : String → String → Ordering
  formatTime : ℕ → String
  parseTime : String → Option ℕ
  formatConnection : HealthMutatorConnection → String
  parseConnection : String → Option HealthMutatorConnection
  merge : StrategicMerge
  /-- `CreatePodTemplateSpec` and `ConfigureHealthMutators`. -/
  podTemplate : Coherence → PodTemplateSpec
  /-- `CreatePodTemplateSpec`, for a job. -/
  jobPodTemplate : CoherenceJob → PodTemplateSpec
  /-- `validateHealthMutatorConfiguration`: the text of its error. -/
  validateHealthMutatorConfiguration : Coherence → Option String

/-- An operator that makes pods of one container, patches nothing and compares versions as strings. -/
instance : Inhabited Operator where
  default :=
    { semverCompare := compare
      formatTime := toString
      parseTime := String.toNat?
      formatConnection := fun c => s!"secure={c.secure}"
      parseConnection := fun _ => none
      merge := default
      podTemplate := fun c => { containers := [{ name := "coherence", image := c.spec.image.getD "coherence" }] }
      jobPodTemplate := fun c => { containers := [{ name := "coherence", image := c.spec.image.getD "coherence" }] }
      validateHealthMutatorConfiguration := fun _ => none }

end CoherenceOperator
