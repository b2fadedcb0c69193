import Mathlib.Data.Finmap
import Mathlib.Data.Int.Notation

/-!
# Kubernetes objects

The objects the operator creates and reads, with the fields its code looks at: the
metadata of every object, the body of a `StatefulSet` and of a `Job` as the reconcilers
compare and patch them, and the selectors and ports of a `Service` and a `ServiceMonitor`.
A map of strings is a `Finmap`, so two maps are equal when they have the same entries,
whatever the order in which they were filled. A pointer field is an `Option`.
-/

namespace CoherenceOperator

/-- A `map[string]string`. -/
abbrev Labels := Finmap fun _ : String => String

/-- `for k, v := range m { labels[k] = v }`. -/
def Labels.setAll (labels m : Labels) : Labels := m ∪ labels

/-- `labels[k] = v`. -/
def Labels.set (labels : Labels) (k v : String) : Labels := labels.insert k v

theorem Labels.lookup_set (labels : Labels) (k v k' : String) :
    (labels.set k v).lookup k' = if k' = k then some v else labels.lookup k' := by
  rw [Labels.set]
  by_cases h : k' = k
  · rw [if_pos h, h, Finmap.lookup_insert]
  · rw [if_neg h, Finmap.lookup_insert_of_ne _ h]

theorem Labels.lookup_setAll (labels m : Labels) (k : String) : (labels.setAll m).lookup k = (m.lookup k).or (labels.lookup k) := by
  rw [Labels.setAll]
  by_cases hk : k ∈ m
  · obtain ⟨x, hx⟩ := Finmap.mem_iff.1 hk
    rw [Finmap.lookup_union_left hk, hx]
    rfl
  · rw [Finmap.lookup_union_right hk, Finmap.lookup_eq_none.2 hk]
    rfl

/-- `types.NamespacedName`. -/
structure NamespacedName where
  ns : String
  name : String
  deriving DecidableEq, Repr

/-- The kinds of resource, `ResourceType`. -/
inductive ResourceType where
  | coherence | coherenceJob | configMap | secret | service | serviceMonitor | statefulSet | job
  deriving DecidableEq, Repr

/-- `ResourceType.Name()`. -/
def ResourceType.name : ResourceType → String
  | .coherence => "Coherence"
  | .coherenceJob => "CoherenceJob"
  | .configMap => "ConfigMap"
  | .secret => "Secret"
  | .service => "Service"
  | .serviceMonitor => "ServiceMonitor"
  | .statefulSet => "StatefulSet"
  | .job => "Job"

/-- `metav1.OwnerReference`: the kind and the name of the owner, and whether it is the controller. -/
structure OwnerReference where
  kind : String
  name : String
  controller : Bool := false
  deriving DecidableEq, Repr

/-- `metav1.ObjectMeta`. -/
structure ObjectMeta where
  ns : String
  name : String
  labels : Labels := ∅
  annotations : Labels := ∅
  ownerReferences : List OwnerReference := []
  finalizers : List String := []
  creationTimestamp : Option ℕ := none
  deletionTimestamp : Option ℕ := none
  deriving DecidableEq

/-- `intstr.IntOrString`. -/
inductive IntOrString where
  | int (n : ℤ)
  | str (s : String)
  deriving DecidableEq, Repr

/-- `IntOrString.String()`. -/
def IntOrString.toString : IntOrString → String
  | .int n => s!"{n}"
  | .str s => s

/-- `corev1.EnvVarSource`: a field of the pod, the key of a Secret, or another source by path. -/
inductive EnvVarSource where
  | fieldRef (fieldPath : String)
  | secretKeyRef (name key : String) (optional : Option Bool)
  | other (fields : Labels)
  deriving DecidableEq

/-- A container's environment variable. -/
structure EnvVar where
  name : String
  value : String := ""
  valueFrom : Option EnvVarSource := none
  deriving DecidableEq

/-- `corev1.ContainerPort`. -/
structure ContainerPort where
  name : String := ""
  containerPort : ℤ
  protocol : String := ""
  hostPort : ℤ := 0
  hostIP : String := ""
  deriving DecidableEq, Repr

/-- `corev1.VolumeMount`. -/
structure VolumeMount where
  name : String
  mountPath : String
  readOnly : Bool := false
  subPath : String := ""
  mountPropagation : Option String := none
  subPathExpr : String := ""
  deriving DecidableEq, Repr

/-- `corev1.KeyToPath`. -/
structure KeyToPath where
  key : String
  path : String
  mode : Option ℤ := none
  deriving DecidableEq, Repr

/-- `corev1.VolumeSource`; the sources that the operator does not make itself are by path. -/
inductive VolumeSource where
  | emptyDir
  | secret (secretName : String) (items : List KeyToPath) (defaultMode : Option ℤ) (optional : Option Bool)
  | configMap (name : String) (items : List KeyToPath) (defaultMode : Option ℤ) (optional : Option Bool)
  | other (fields : Labels)
  deriving DecidableEq

/-- `corev1.Volume`. -/
structure Volume where
  name : String
  source : VolumeSource
  deriving DecidableEq

/-- `HTTPActionHeader`, and `corev1.HTTPHeader`. -/
structure HTTPActionHeader where
  name : String
  value : String
  deriving DecidableEq, Repr

/-- `corev1.HTTPGetAction`. -/
structure HTTPGetAction where
  path : String := ""
  port : IntOrString
  host : String := ""
  scheme : String := ""
  httpHeaders : List HTTPActionHeader := []
  deriving DecidableEq, Repr

/-- `corev1.TCPSocketAction`. -/
structure TCPSocketAction where
  port : IntOrString
  host : String := ""
  deriving DecidableEq, Repr

/-- The probe of a container, `corev1.Probe`; of `exec` the command. -/
structure ContainerProbe where
  exec : Option (List String) := none
  httpGet : Option HTTPGetAction := none
  tcpSocket : Option TCPSocketAction := none
  initialDelaySeconds : ℤ := 0
  timeoutSeconds : ℤ := 0
  periodSeconds : ℤ := 0
  successThreshold : ℤ := 0
  failureThreshold : ℤ := 0
  terminationGracePeriodSeconds : Option ℤ := none
  deriving DecidableEq, Repr

/-- The fields of a container that the reconcilers do not look into; `fields` are those that are copied as they are, by
path. -/
structure ContainerFields where
  workingDir : String := ""
  ports : List ContainerPort := []
  envFrom : List Labels := []
  volumeMounts : List VolumeMount := []
  readinessProbe : Option ContainerProbe := none
  livenessProbe : Option ContainerProbe := none
  startupProbe : Option ContainerProbe := none
  fields : Labels := ∅
  deriving DecidableEq

/-- `corev1.Container`. -/
structure Container extends ContainerFields where
  name : String
  image : String := ""
  command : List String := []
  args : List String := []
  env : List EnvVar := []
  deriving DecidableEq

/-- The fields of the `PodSpec` that the reconcilers do not look into; `fields` are those that are copied as they are,
by path. -/
structure PodFields where
  volumes : List Volume := []
  fields : Labels := ∅
  deriving DecidableEq

/-- `corev1.PodTemplateSpec`, with the fields of its `PodSpec`. -/
structure PodTemplateSpec extends PodFields where
  labels : Labels := ∅
  annotations : Labels := ∅
  affinity : Option String := none
  initContainers : List Container := []
  containers : List Container := []
  deriving DecidableEq

/-- `corev1.Pod`; `readySince` is when its condition `Ready` became true, if it is. -/
structure Pod where
  name : String
  labels : Labels := ∅
  annotations : Labels := ∅
  deletionTimestamp : Option ℕ := none
  nodeName : String := ""
  phase : String := "Running"
  readySince : Option ℕ := none
  containers : List Container := []
  ns : String := ""
  podIP : String := ""
  hostname : String := ""
  subdomain : String := ""
  deriving DecidableEq

/-- `appsv1.StatefulSetUpdateStrategyType`. -/
inductive UpdateStrategyType where
  | rollingUpdate | onDelete
  deriving DecidableEq, Repr

/-- `appsv1.RollingUpdateStatefulSetStrategy`. -/
structure RollingUpdateStrategy where
  partition : Option ℤ := none
  deriving DecidableEq, Repr

/-- `appsv1.StatefulSetUpdateStrategy`. -/
structure UpdateStrategy where
  type : UpdateStrategyType := .rollingUpdate
  rollingUpdate : Option RollingUpdateStrategy := none
  deriving DecidableEq, Repr

/-- `corev1.PersistentVolumeClaim`: its metadata, and its spec by path. -/
structure PersistentVolumeClaim where
  name : String
  labels : Labels := ∅
  annotations : Labels := ∅
  spec : Labels := ∅
  deriving DecidableEq

/-- `appsv1.StatefulSetSpec`. -/
structure StatefulSetSpec where
  replicas : Option ℤ := none
  minReadySeconds : ℤ := 0
  podManagementPolicy : String := ""
  updateStrategy : UpdateStrategy := {}
  revisionHistoryLimit : Option ℤ := none
  serviceName : String := ""
  selector : Labels := ∅
  template : PodTemplateSpec := {}
  volumeClaimTemplates : List PersistentVolumeClaim := []
  persistentVolumeClaimRetentionPolicy : Option String := none
  deriving DecidableEq

/-- `appsv1.StatefulSetStatus`. -/
structure StatefulSetStatus where
  readyReplicas : ℤ := 0
  currentReplicas : ℤ := 0
  updatedReplicas : ℤ := 0
  currentRevision : String := ""
  updateRevision : String := ""
  deriving DecidableEq, Repr

/-- `appsv1.StatefulSet`. -/
structure StatefulSet where
  metadata : ObjectMeta
  spec : StatefulSetSpec
  status : StatefulSetStatus := {}
  deriving DecidableEq

/-- `batchv1.JobSpec`. -/
structure JobSpec where
  parallelism : Option ℤ := none
  completions : Option ℤ := none
  activeDeadlineSeconds : Option ℤ := none
  podFailurePolicy : Option String := none
  backoffLimit : Option ℤ := none
  ttlSecondsAfterFinished : Option ℤ := none
  completionMode : Option String := none
  suspend : Option Bool := none
  template : PodTemplateSpec := {}
  /-- `selector.matchLabels`. -/
  selector : Labels := ∅
  manualSelector : Option Bool := none
  deriving DecidableEq

/-- `batchv1.JobStatus`. -/
structure JobStatus where
  active : ℤ := 0
  succeeded : ℤ := 0
  failed : ℤ := 0
  ready : Option ℤ := none
  completionTime : Option ℕ := none
  deriving DecidableEq, Repr

/-- `batchv1.Job`. -/
structure Job where
  metadata : ObjectMeta
  spec : JobSpec
  status : JobStatus := {}
  deriving DecidableEq

/-- `corev1.ServicePort`. -/
structure ServicePort where
  name : String
  protocol : String := ""
  port : ℤ
  targetPort : IntOrString
  nodePort : ℤ := 0
  appProtocol : Option String := none
  deriving DecidableEq

/-- `corev1.ServiceSpec`; `fields` are those that are copied as they are, by path. -/
structure CoreServiceSpec where
  clusterIP : String := ""
  publishNotReadyAddresses : Bool := false
  selector : Labels := ∅
  ports : List ServicePort := []
  ipFamilyPolicy : Option String := none
  ipFamilies : List String := []
  fields : Labels := ∅
  deriving DecidableEq

/-- `monitoringv1.RelabelConfig`. -/
structure RelabelConfig where
  action : String
  regex : String
  deriving DecidableEq, Repr

/-- `monitoringv1.Endpoint`; `fields` are those that are copied as they are, by path. -/
structure Endpoint where
  port : String := ""
  relabelConfigs : List RelabelConfig := []
  fields : Labels := ∅
  deriving DecidableEq

/-- `monitoringv1.ServiceMonitorSpec`; `fields` are those that are copied as they are, by path. -/
structure MonitorSpec where
  /-- `selector.matchLabels`. -/
  selector : Labels := ∅
  endpoints : List Endpoint := []
  fields : Labels := ∅
  deriving DecidableEq

/-- What an object holds besides its metadata. -/
inductive Body where
  | configMap (data : Labels)
  | secret (data : Labels)
  | service (spec : CoreServiceSpec)
  | serviceMonitor (spec : MonitorSpec)
  | statefulSet (spec : StatefulSetSpec) (status : StatefulSetStatus)
  | job (spec : JobSpec) (status : JobStatus)
  deriving DecidableEq

/-- `client.Object`, for the kinds the operator manages. -/
structure Object where
  metadata : ObjectMeta
  body : Body
  deriving DecidableEq

/-- The kind of an object. -/
def Object.kind (o : Object) : ResourceType :=
  match o.body with
  | .configMap _ => .configMap
  | .secret _ => .secret
  | .service _ => .service
  | .serviceMonitor _ => .serviceMonitor
  | .statefulSet _ _ => .statefulSet
  | .job _ _ => .job

/-- The namespace and the name of an object. -/
def Object.key (o : Object) : NamespacedName := ⟨o.metadata.ns, o.metadata.name⟩

/-- What an object is found under. -/
def Object.ident (o : Object) : ResourceType × NamespacedName := (o.kind, o.key)

/-- A `StatefulSet` as an object. -/
def StatefulSet.toObject (s : StatefulSet) : Object := ⟨s.metadata, .statefulSet s.spec s.status⟩

/-- `o.(*appsv1.StatefulSet)`. -/
def Object.asStatefulSet (o : Object) : Option StatefulSet :=
  match o.body with
  | .statefulSet spec status => some ⟨o.metadata, spec, status⟩
  | _ => none

/-- A `Job` as an object. -/
def Job.toObject (j : Job) : Object := ⟨j.metadata, .job j.spec j.status⟩

/-- `o.(*batchv1.Job)`. -/
def Object.asJob (o : Object) : Option Job :=
  match o.body with
  | .job spec status => some ⟨o.metadata, spec, status⟩
  | _ => none

@[simp] theorem StatefulSet.asStatefulSet_toObject (s : StatefulSet) : s.toObject.asStatefulSet = some s := rfl

@[simp] theorem Job.asJob_toObject (j : Job) : j.toObject.asJob = some j := rfl

@[simp] theorem StatefulSet.metadata_toObject (s : StatefulSet) : s.toObject.metadata = s.metadata := rfl

/-- An object that is a `StatefulSet` is that `StatefulSet` as an object. -/
theorem Object.eq_toObject_of_asStatefulSet {o : Object} {s : StatefulSet} (h : o.asStatefulSet = some s) :
    o = s.toObject := by
  obtain ⟨m, b⟩ := o
  cases b <;> simp_all [Object.asStatefulSet, StatefulSet.toObject]
  subst h
  simp

/-- An object of the kind is a `StatefulSet`. -/
theorem Object.exists_eq_toObject_of_kind {o : Object} (h : o.kind = .statefulSet) :
    ∃ s : StatefulSet, o = s.toObject := by
  obtain ⟨m, b⟩ := o
  cases b with
  | statefulSet spec status => exact ⟨⟨m, spec, status⟩, rfl⟩
  | _ => cases h

/-- An object of the kind is a `Job`. -/
theorem Object.exists_eq_toObject_of_kind_job {o : Object} (h : o.kind = .job) : ∃ j : Job, o = j.toObject := by
  obtain ⟨m, b⟩ := o
  cases b with
  | job spec status => exact ⟨⟨m, spec, status⟩, rfl⟩
  | _ => cases h

/-- An object that is a `Job` is that `Job` as an object. -/
theorem Object.eq_toObject_of_asJob {o : Object} {j : Job} (h : o.asJob = some j) : o = j.toObject := by
  obtain ⟨m, b⟩ := o
  cases b <;> simp_all [Object.asJob, Job.toObject]
  subst h
  simp

end CoherenceOperator
