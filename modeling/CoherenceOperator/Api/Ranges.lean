import CoherenceOperator.Api.PodTemplate
import CoherenceOperator.Lib.Base64
import CoherenceOperator.Lib.Ranging

/-!
# The builders go through maps

`CreateKubernetesResources` once more, with each traversal of a map in an order of its own. All but one fill
another map; the services to resume are written one after the other into a text. What is not built from a map that is gone
through is as in `Api.Builder`.
-/

namespace CoherenceOperator

open Effect

/-! ### The services to resume -/

/-- `strings.ReplaceAll(key, "\"", "\\\"")`: a backslash before each quotation mark. -/
def escapeQuotes (key : List Char) : List Char :=
  key.flatMap fun c => if c = Char.ofNat 34 then [Char.ofNat 92, c] else [c]

/-- `"\"%s\"=%t,"`. -/
def serviceEntry (key : String) (value : Bool) : List Char :=
  Char.ofNat 34 :: (escapeQuotes key.toList ++ Char.ofNat 34 :: ("=" ++ toString value ++ ",").toList)

/-- `base64.StdEncoding.EncodeToString(b.Bytes())`. -/
def encodeBuffer (b : List Char) : String :=
  String.ofList (Base64.encode (String.ofList b).toByteArray.data.toList)

/-- What the services are encoded as, in this order. -/
def encodeServices (order : MapOrder String) (services : Finmap fun _ : String => Bool) : String :=
  encodeBuffer ((order.entries services).foldl (fun b e => b ++ serviceEntry e.1 e.2) [])

/-! ### What the maps come to -/

/-- The labels of the pods. -/
def CoherenceResource.podLabels (op : Operator) (d : CoherenceResource) : Labels :=
  let labels := ((∅ : Labels).setAll (d.createGlobalLabels op)).setAll d.createPodSelectorLabels
  let isWKAMember := (d.spec.coherence.bind (·.excludeFromWKA)) ≠ some true && d.spec.requiresWKAService
  (labels.set "coherenceWKAMember" (toString isWKAMember)).setAll d.spec.labels

/-- The annotation for Istio. -/
def istioAnnotation : Labels :=
  (∅ : Labels).set "proxy.istio.io/config" "\x7b \"holdApplicationUntilProxyStarts\": true \x7d"

/-- The annotations of the pods. -/
def CoherenceResource.podAnnotations (op : Operator) (d : CoherenceResource) : Labels :=
  (Labels.setAll istioAnnotation ((d.createGlobalAnnotations op).getD ∅)).setAll d.spec.annotations

/-- The template of the pods of the StatefulSet, given what the services are encoded as. -/
def Coherence.templateWith (op : Operator) (c : Coherence) (services : Option String) : PodTemplateSpec :=
  let d := c.toResource
  c.spec.configureHealthMutators op (d.createPodTemplateSpec op (d.podLabels op) (d.podAnnotations op) services)

/-! ### The builders -/

namespace Ranged

variable (op : Operator) (d : CoherenceResource)

/-- `for k, v := range m { labels[k] = v }`. -/
def setAll (labels m : Labels) : Ranging String Labels := rangeInsert labels m

/-- `CreateGlobalLabels`. -/
def createGlobalLabels : Ranging String Labels := do
  let labels ← match d.global with
    | some g => setAll op.globalLabels g.labels
    | none => pure op.globalLabels
  setAll labels d.createCommonLabels

/-- `CreateGlobalAnnotations`. -/
def createGlobalAnnotations : Ranging String (Option Labels) :=
  match d.global.bind (·.annotations) with
  | some a => some <$> setAll (op.globalAnnotations.getD ∅) a
  | none => pure op.globalAnnotations

/-- `CreateService`. -/
def createService (p : NamedPortSpec) : Ranging String Object := do
  let labels ← createGlobalLabels op d
  let labels := labels.set "coherenceComponent" "coherence-service"
  let labels := labels.set "coherencePort" p.name
  let labels ← match p.service with
    | some s => setAll labels s.labels
    | none => pure labels
  let annotations ← createGlobalAnnotations op d
  let annotations ← match p.service, annotations with
    | some s, some a => some <$> setAll a s.annotations
    | some s, none => pure (some s.annotations)
    | none, a => pure a
  return { metadata := d.metadataFor (p.serviceName d) labels annotations, body := (p.createService op d).body }

/-- `CreateServiceMonitor`. -/
def createServiceMonitor (p : NamedPortSpec) (m : ServiceMonitorSpec) : Ranging String Object := do
  let labels ← createGlobalLabels op d
  let labels ← setAll (labels.set "coherenceComponent" "coherence-service-monitor") m.labels
  let annotations ← createGlobalAnnotations op d
  return { metadata := d.metadataFor (p.serviceName d) labels annotations, body := (p.createServiceMonitor op m d).body }

/-- The resources of one port. -/
def createResources (p : NamedPortSpec) : Ranging String (List Resource) :=
  if p.isEnabled then do
    let service ← createService op d p
    match p.monitor with
    | some m => return [service.toResource, (← createServiceMonitor op d p m).toResource]
    | none => return [service.toResource]
  else return []

/-- `CreateWKAService`. -/
def createWKAService : Ranging String Object := do
  let labels ← createGlobalLabels op d
  let labels := labels.set "coherenceComponent" "coherenceWkaService"
  let annotations ← createGlobalAnnotations op d
  let annotations := (annotations.getD ∅).set "service.alpha.kubernetes.io/tolerate-unready-endpoints" "true"
  let (labels, annotations) ← match d.spec.coherence.bind (·.wka) with
    | some wka => do
      let labels ← setAll labels wka.labels
      let annotations ← setAll annotations wka.annotations
      pure (labels, annotations)
    | none => pure (labels, annotations)
  return { metadata := d.metadataFor d.wkaServiceName labels (some annotations), body := (d.createWKAService op).body }

/-- `CreateHeadlessService`. -/
def createHeadlessService : Ranging String Object := do
  let labels ← createGlobalLabels op d
  let annotations ← createGlobalAnnotations op d
  return {
    metadata := d.metadataFor d.headlessServiceName (labels.set "coherenceComponent" "coherence-headless") annotations
    body := (d.createHeadlessService op).body }

/-- `CoherenceResourceSpec.CreateKubernetesResources`. -/
def createSharedResources : Ranging String (List Resource) :=
  if d.spec.getReplicas ≤ 0 then return []
  else if d.spec.requiresWKAService then do
    let wka ← createWKAService op d
    let services ← d.spec.ports.mapM (createResources op d)
    return wka.toResource :: services.flatten
  else do
    let services ← d.spec.ports.mapM (createResources op d)
    return services.flatten

/-- `CreatePersistentVolumeClaim`. -/
def createPersistentVolumeClaim (s : PersistentStorageSpec) (name : String) :
    Ranging String (Option PersistentVolumeClaim) :=
  if s.volume.isSome then return none
  else
    match s.persistentVolumeClaim with
    | none => return none
    | some spec => do
      let labels ← createGlobalLabels op d
      let annotations ← createGlobalAnnotations op d
      return some {
        name
        labels := labels.set "coherenceComponent" "coherence-volume"
        annotations := annotations.getD ∅
        spec }

/-- `CreatePersistentVolumeClaims`. -/
def createPersistentVolumeClaims (s : PersistenceSpec) : Ranging String (List PersistentVolumeClaim) := do
  let claim ← createPersistentVolumeClaim op d s.storage "persistence-volume"
  let snapshots ← match s.snapshots with
    | some snapshots => createPersistentVolumeClaim op d snapshots "snapshot-volume"
    | none => pure none
  return claim.toList ++ snapshots.toList

/-- What `CreateDefaultEnv` makes of `AutoResumeServices`. -/
def createResumeServices : Ranging String (Option String) :=
  match d.statefulSetSpec.bind (·.autoResumeServices) with
  | some services => do
    let b ← rangeFold services (fun b key value => b ++ serviceEntry key value) []
    return some (encodeBuffer b)
  | none => return none

/-- `CreatePodTemplateSpec`. -/
def createPodTemplateSpec : Ranging String PodTemplateSpec := do
  let globalLabels ← createGlobalLabels op d
  let labels ← setAll ∅ globalLabels
  let labels ← setAll labels d.createPodSelectorLabels
  let globalAnnotations ← createGlobalAnnotations op d
  let annotations ← setAll istioAnnotation (globalAnnotations.getD ∅)
  let annotations ← setAll annotations d.spec.annotations
  let isWKAMember := (d.spec.coherence.bind (·.excludeFromWKA)) ≠ some true && d.spec.requiresWKAService
  let labels ← setAll (labels.set "coherenceWKAMember" (toString isWKAMember)) d.spec.labels
  let services ← createResumeServices d
  return d.createPodTemplateSpec op labels annotations services

/-! ### The StatefulSet -/

variable (c : Coherence)

/-- `CreateAnnotations`. -/
def createAnnotations : Ranging String Labels := do
  let annotations ← createGlobalAnnotations op c.toResource
  match c.spec.statefulSetAnnotations with
  | some a => setAll (annotations.getD ∅) a
  | none => setAll (annotations.getD ∅) c.metadata.annotations

/-- `CreateStatefulSet`. -/
def createStatefulSet : Ranging String StatefulSet := do
  let d := c.toResource
  let labels ← createGlobalLabels op d
  let annotations ← createAnnotations op c
  let template ← createPodTemplateSpec op d
  let claims ← match c.spec.coherence.bind (·.persistence) with
    | some p => createPersistentVolumeClaims op d p
    | none => pure []
  let sts := c.createStatefulSet op
  return {
    metadata := d.metadataFor d.name (labels.set "coherenceComponent" "coherence") (some annotations)
    spec := { sts.spec with
      template := c.spec.configureHealthMutators op template
      volumeClaimTemplates := claims ++ c.spec.volumeClaimTemplates } }

/-- `Coherence.CreateKubernetesResources`. -/
def createKubernetesResources : Ranging String Resources := do
  let shared ← createSharedResources op c.toResource
  let headless ← createHeadlessService op c.toResource
  let sts ← createStatefulSet op c
  return { items := shared ++ [headless.toResource, sts.toObject.toResource] }

end Ranged

end CoherenceOperator
