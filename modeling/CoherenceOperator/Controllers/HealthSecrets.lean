import CoherenceOperator.Api.Builder

/-!
# Events of Secrets

A Secret with the credentials of a health check concerns every resource that names it, in its spec or in the annotation of a Pod that
still runs with an earlier spec. `mapHealthSecretRequests` sorts the resources of the namespace into two maps, first by their specs and
then by the annotations of the Pods, and makes a request for each of those that are matched.
-/

namespace CoherenceOperator

/-- What the lists of all resources and of all Pods are, or why they cannot be read. -/
structure KubeLists where
  coherence : Except String (List Coherence)
  pods : Except String (List Pod)

namespace KubeLists

variable (kube : KubeLists)

/-- `List` of the resources in a namespace. -/
def listCoherence (ns : String) : Except String (List Coherence) :=
  kube.coherence.map fun resources => resources.filter fun c => c.metadata.ns = ns

/-- `List` of the Pods in a namespace that have a label. -/
def listPods (ns label value : String) : Except String (List Pod) :=
  kube.pods.map fun pods => pods.filter fun pod => pod.ns = ns ∧ pod.labels.lookup label = some value

end KubeLists

/-- `matches`: is the Secret named for the user name, for the password, for the CA or for the server? -/
def HealthMutatorConnection.references (c : HealthMutatorConnection) (secret : String) : Bool :=
  c.basicAuth.any (fun b => b.username.name = secret || b.password.name = secret) ||
    c.tls.any (fun tls => tls.caSecret.name = secret) || c.serverTLS.any (fun server => server.secrets = some secret)

/-- `matchesLabels`: a label that is not there is empty. -/
def matchesLabels (actual required : Labels) : Bool :=
  decide (∀ key ∈ required.keys, (actual.lookup key).getD "" = (required.lookup key).getD "")

/-- The maps of `mapHealthSecretRequests`: the names that are matched, and the resources that are not, by their names. -/
structure SortedResources where
  matched : Finmap fun _ : String => Bool := ∅
  unmatched : Finmap fun _ : String => Coherence := ∅

namespace SortedResources

variable (op : Operator) (secret : String)

/-- The loop over the resources. -/
def sortResource (st : SortedResources) (resource : Coherence) : SortedResources :=
  if resource.spec.healthMutatorConnection.any (·.references secret) then
    { st with matched := st.matched.insert resource.metadata.name true }
  else { st with unmatched := st.unmatched.insert resource.metadata.name resource }

/-- The loop over the Pods. -/
def sortPod (st : SortedResources) (pod : Pod) : SortedResources :=
  match st.unmatched.lookup ((pod.labels.lookup "coherenceDeployment").getD "") with
  | none => st
  | some resource =>
    if matchesLabels pod.labels resource.toResource.createPodSelectorLabels then
      if (op.parseConnection ((pod.annotations.lookup HealthMutatorAnnotation).getD "")).any (·.references secret) then
        { matched := st.matched.insert resource.metadata.name true, unmatched := st.unmatched.erase resource.metadata.name }
      else st
    else st

end SortedResources

/-- `mapHealthSecretRequests`, for a Secret of this namespace and name. -/
def mapHealthSecretRequests (op : Operator) (kube : KubeLists) (secret : NamespacedName) : List NamespacedName :=
  match kube.listCoherence secret.ns with
  | .error _ => []
  | .ok resources =>
    let st := resources.foldl (SortedResources.sortResource secret.name) {}
    let st :=
      if 0 < st.unmatched.keys.card then
        match kube.listPods secret.ns "coherenceComponent" "coherencePod" with
        | .error _ => st
        | .ok pods => pods.foldl (SortedResources.sortPod op secret.name) st
      else st
    (resources.filter fun resource => (st.matched.lookup resource.metadata.name).getD false).map
      fun resource => ⟨resource.metadata.ns, resource.metadata.name⟩

end CoherenceOperator
