import CoherenceOperator.Api.Coherence

/-!
# The interface of both resources

What the builders and the status ask of a resource, whichever of the two it is
(`CoherenceResource`), the version and the generation of a resource, and a pointer to a resource as
a value of the interface (`Deployment`), on which a method may be called that follows the nil
pointer.
-/

namespace CoherenceOperator

/-- What the methods of the interface `CoherenceResource` return for a resource that is there. -/
structure CoherenceResource where
  kind : ResourceType
  type : CoherenceType
  metadata : ObjectMeta
  generation : ℕ
  clusterName : String
  replicas : ℤ
  spec : CoherenceResourceSpec
  global : Option GlobalSpec
  statefulSetSpec : Option CoherenceStatefulSetResourceSpec
  forceExit : Bool
  envVarFrom : List Labels
  initResources : Option String
  headlessServiceIPFamily : List String
  status : CoherenceResourceStatus

namespace CoherenceResource

variable (op : Operator) (d : CoherenceResource)

def name : String := d.metadata.name

def ns : String := d.metadata.ns

/-- `GetNamespacedName`. -/
def key : NamespacedName := ⟨d.ns, d.name⟩

/-- The resource as an owner. -/
def owner : Owner := ⟨d.kind, d.key⟩

/-- `GetRoleName`. -/
def roleName : String := if d.spec.role ≠ "" then d.spec.role else d.name

/-- `GetWkaServiceName`. -/
def wkaServiceName : String := d.name ++ "-wka"

/-- `GetHeadlessServiceName`. -/
def headlessServiceName : String := d.name ++ "-sts"

/-- `labels[k] = *v`, if there is a value. -/
def setIfPresent (k : String) (v : Option String) (labels : Labels) : Labels :=
  match v with
  | some v => labels.set k v
  | none => labels

/-- `CreateCommonLabels`. -/
def createCommonLabels : Labels :=
  let labels : Labels := ∅
  let labels := labels.set "coherenceDeployment" d.name
  let labels := labels.set "coherenceCluster" d.clusterName
  let labels := labels.set "coherenceRole" d.roleName
  setIfPresent "version" d.spec.versionLabel (setIfPresent "app" d.spec.appLabel labels)

/-- `CreateGlobalLabels`. -/
def createGlobalLabels : Labels :=
  let labels := match d.global with
    | some g => op.globalLabels.setAll g.labels
    | none => op.globalLabels
  labels.setAll d.createCommonLabels

/-- `CreateGlobalAnnotations`; without any the map is nil. -/
def createGlobalAnnotations : Option Labels :=
  match d.global.bind (·.annotations) with
  | some a => some ((op.globalAnnotations.getD ∅).setAll a)
  | none => op.globalAnnotations

end CoherenceResource

/-! ### Versions -/

/-- `GetOperatorVersion`: the version in the status, or else the one in the annotations. -/
def getOperatorVersion (metadata : ObjectMeta) (status : CoherenceResourceStatus) : Option String :=
  match status.conditions.getCondition .versioned with
  | some c => if c.message = "" then metadata.annotations.lookup AnnotationOperatorVersion else some c.message
  | none => metadata.annotations.lookup AnnotationOperatorVersion

/-- `if version[0] != 'v' { version = "v" + version }`: there is no first byte in an empty string. -/
def vPrefixed (version : String) : Except GoError String :=
  match version.toList with
  | [] => .error indexOutOfRange
  | c :: _ => .ok (if c = 'v' then version else "v" ++ version)

/-- `IsBeforeOrSameVersion`: also true if no version is recorded. -/
def isBeforeOrSameVersion (op : Operator) (metadata : ObjectMeta) (status : CoherenceResourceStatus)
    (version : String) : Except GoError Bool :=
  match vPrefixed version, getOperatorVersion metadata status with
  | .error e, _ => .error e
  | .ok _, none => .ok true
  | .ok v, some actual =>
    match vPrefixed actual with
    | .error e => .error e
    | .ok actual => .ok (op.semverCompare actual v != .gt)

/-- `GetGenerationString`: the hash label of a resource from 3.4.3 or before, or else the generation. -/
def getGenerationString (op : Operator) (metadata : ObjectMeta) (generation : ℕ)
    (status : CoherenceResourceStatus) : Except GoError String :=
  match isBeforeOrSameVersion op metadata status "3.4.3" with
  | .error e => .error e
  | .ok true => .ok ((metadata.labels.lookup LabelCoherenceHash).getD (toString generation))
  | .ok false => .ok (toString generation)

/-- `UpdateStatusVersion`. -/
def CoherenceResourceStatus.setVersion (now : ℕ) (v : String) (s : CoherenceResourceStatus) :
    CoherenceResourceStatus × Bool :=
  let (cs, changed) := s.conditions.setCondition now { type := .versioned, status := .true, message := v }
  ({ s with conditions := cs }, changed)

/-! ### Coherence -/

/-- `CoherenceResourceSpec.GetReplicas`. -/
def CoherenceResourceSpec.getReplicas (spec : CoherenceResourceSpec) : ℤ :=
  match spec.replicas with
  | some n => n
  | none => spec.initialReplicas.getD DefaultReplicas

namespace Coherence

variable (op : Operator) (c : Coherence)

/-- `GetReplicas`. -/
def getReplicas : ℤ :=
  if c.spec.replicas = none ∧ c.spec.initialReplicas = none ∧ c.status.replicas > 0 then c.status.replicas
  else c.spec.getReplicas

/-- The resource behind the interface. -/
def toResource : CoherenceResource where
  kind := .coherence
  type := .statefulSet
  metadata := c.metadata
  generation := c.generation
  clusterName := c.spec.cluster.getD c.metadata.name
  replicas := c.getReplicas
  spec := c.spec.toCoherenceResourceSpec
  global := c.spec.global
  statefulSetSpec := some c.spec
  forceExit := false
  envVarFrom := c.spec.envFrom
  initResources := c.spec.initResources
  headlessServiceIPFamily := c.spec.headlessServiceIpFamilies
  status := c.status

/-- `GetNamespacedName`. -/
def key : NamespacedName := ⟨c.metadata.ns, c.metadata.name⟩

/-- `IsBeforeVersion`: also true if no version is recorded. -/
def isBeforeVersion (version : String) : Except GoError Bool := do
  let version ← vPrefixed version
  match getOperatorVersion c.metadata c.status with
  | none => return true
  | some actual =>
    let actual ← vPrefixed actual
    return op.semverCompare actual version == .lt

/-- `IsBeforeOrSameVersion`. -/
def isBeforeOrSameVersion (version : String) : Except GoError Bool :=
  CoherenceOperator.isBeforeOrSameVersion op c.metadata c.status version

/-- `GetGenerationString`. -/
def getGenerationString : Except GoError String :=
  CoherenceOperator.getGenerationString op c.metadata c.generation c.status

/-- `UpdateStatusVersion`. -/
def updateStatusVersion (now : ℕ) : Coherence :=
  { c with status := (c.status.setVersion now op.version).1 }

end Coherence

namespace CoherenceStatefulSetResourceSpec

variable (spec : CoherenceStatefulSetResourceSpec)

/-- `CheckHABeforeUpdate`. -/
def checkHABeforeUpdate : Bool := spec.haBeforeUpdate.getD true

/-- `IsSuspendServicesOnShutdown`. -/
def isSuspendServicesOnShutdown : Bool := spec.suspendServicesOnShutdown.getD true

/-- `GetDefaultScalingProbe`. -/
def getDefaultScalingProbe : Probe :=
  { timeoutSeconds := some 30, httpGet := some { path := "/ha", port := .str "health" } }

/-- `GetScalingProbe`. -/
def getScalingProbe : Probe := (spec.scaling.bind (·.probe)).getD getDefaultScalingProbe

/-- `GetDefaultSuspendProbe`. -/
def getDefaultSuspendProbe : Probe :=
  { timeoutSeconds := some (spec.suspendServiceTimeout.getD 60)
    http := some { method := "PUT", path := "/suspend", port := .str "health" } }

/-- `GetSuspendProbe`. -/
def getSuspendProbe : Probe := spec.suspendProbe.getD spec.getDefaultSuspendProbe

/-- `GetEffectiveScalingPolicy`. -/
def getEffectiveScalingPolicy : ScalingPolicy :=
  match spec.scaling.bind (·.policy) with
  | some policy => policy
  | none =>
    if (spec.coherence.bind (·.storageEnabled)).getD true then .parallelUpSafeDown else .parallel

end CoherenceStatefulSetResourceSpec

/-! ### CoherenceJob -/

/-- `CoherenceJobResourceSpec.GetReplicas`. -/
def CoherenceJobResourceSpec.getJobReplicas (spec : CoherenceJobResourceSpec) : ℤ :=
  spec.replicas.getD DefaultJobReplicas

namespace CoherenceJob

variable (op : Operator) (c : CoherenceJob)

/-- The resource behind the interface. -/
def toResource : CoherenceResource where
  kind := .coherenceJob
  type := .job
  metadata := c.metadata
  generation := c.generation
  clusterName := if c.spec.cluster = "" then c.metadata.name else c.spec.cluster
  replicas := c.spec.getJobReplicas
  spec := c.spec.toCoherenceResourceSpec
  global := c.spec.global
  statefulSetSpec := none
  forceExit := c.spec.forceExit.getD false
  envVarFrom := c.spec.envFrom
  initResources := c.spec.initResources
  headlessServiceIPFamily := []
  status := c.status

/-- `GetNamespacedName`. -/
def key : NamespacedName := ⟨c.metadata.ns, c.metadata.name⟩

/-- `IsBeforeVersion`, which compares the versions as they are. -/
def isBeforeVersion (version : String) : Bool :=
  match getOperatorVersion c.metadata c.status with
  | none => true
  | some actual => op.semverCompare actual version == .lt

/-- `IsBeforeOrSameVersion`. -/
def isBeforeOrSameVersion (version : String) : Except GoError Bool :=
  CoherenceOperator.isBeforeOrSameVersion op c.metadata c.status version

/-- `GetGenerationString`. -/
def getGenerationString : Except GoError String :=
  CoherenceOperator.getGenerationString op c.metadata c.generation c.status

/-- `UpdateStatusVersion`. -/
def updateStatusVersion (now : ℕ) : CoherenceJob :=
  { c with status := (c.status.setVersion now op.version).1 }

end CoherenceJob

/-! ### The interface value -/

/-- A value of type `coh.CoherenceResource`: nil, or a pointer to one of the two resources. The
pointer itself may be nil. -/
inductive Deployment where
  | nil
  | coherence (c : Option Coherence)
  | coherenceJob (c : Option CoherenceJob)

namespace Deployment

/-- `deployment == nil`: a nil pointer with a type is not nil. -/
def isNil : Deployment → Bool
  | nil => true
  | _ => false

/-- The resource that is pointed to. -/
def resource : Deployment → Option CoherenceResource
  | nil => none
  | coherence c => c.map Coherence.toResource
  | coherenceJob c => c.map CoherenceJob.toResource

/-- Call a method that follows the pointer. -/
def deref (d : Deployment) : Except GoError CoherenceResource :=
  match d.resource with
  | some r => .ok r
  | none => .error nilDereference

/-- `GetReplicas`, which has an answer for a nil pointer, too. -/
def getReplicas : Deployment → Except GoError ℤ
  | nil => .error nilDereference
  | coherence none => .ok DefaultReplicas
  | coherence (some c) => .ok c.getReplicas
  | coherenceJob none => .ok DefaultJobReplicas
  | coherenceJob (some c) => .ok c.spec.getJobReplicas

/-- `deployment == nil || deployment.GetReplicas() == 0`. -/
def isNilOrZero : Deployment → Except GoError Bool
  | nil => .ok true
  | d => d.getReplicas.map (· == 0)

/-- `GetStatefulSetSpec`: nil and false for a job; a nil `*Coherence` gives the address of a field of
nothing, which fails at once, as `GetSpec` does. -/
def getStatefulSetSpec : Deployment → Except GoError (Option CoherenceStatefulSetResourceSpec)
  | coherence (some c) => .ok (some c.spec)
  | coherenceJob _ => .ok none
  | _ => .error nilDereference

/-- `GetJobResourceSpec`. -/
def getJobResourceSpec : Deployment → Except GoError (Option CoherenceJobResourceSpec)
  | coherenceJob (some c) => .ok (some c.spec)
  | coherence _ => .ok none
  | _ => .error nilDereference

end Deployment

end CoherenceOperator
