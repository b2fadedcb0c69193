import CoherenceOperator.Controllers.Desired
import CoherenceOperator.Footprint.Owners

/-!
# Recreation

A Service or ConfigMap that is deleted out of band should come back: the predicate lets the event
through for this purpose. But the request has the name of the owner, and the reconciler looks for an object
of that name. If there is none it finds no owner and does nothing; if there is one it takes care of
that one. Either way the object that was deleted stays away.
-/

namespace CoherenceOperator

open Effect Prog

/-- The objects of these kinds come back by `Secondary.reconcile`. -/
def IsSimple (kind : ResourceType) : Prop := kind = .configMap ∨ kind = .service

theorem IsSimple.ne_secret {kind : ResourceType} (h : IsSimple kind) : kind ≠ .secret := by
  rcases h with rfl | rfl <;> decide

/-- Acts on one object of a kind. -/
inductive Act.On (kind : ResourceType) (request : NamespacedName) : Act → Prop
  | note {a : Act} : a.IsNote → On kind request a
  | call {c : ApiCall} : On kind request (.call c)
  | delete : On kind request (.deleteObject kind request)
  | create {o : Object} : o.metadata.name = request.name → On kind request (.createObject o)
  | update {o : Object} : o.key = request → On kind request (.updateObject o)

section

variable {op : Operator} {env : Env} {w : World} {kind : ResourceType} {request key : NamespacedName}

/-- An object that is missing is not brought back by acts on an object of another name. -/
theorem Act.On.get_eq_none {a : Act} (h : a.On kind request) (hne : request.name ≠ key.name)
    (hw : w.objects.get (kind, key) = none) : (Acts.act a w).objects.get (kind, key) = none := by
  cases h with
  | note h => rw [h.objects, hw]
  | call => exact hw
  | delete =>
    simp only [Acts.act, Act.effect]
    split
    · exact hw
    · rw [Table.get_erase, hw, ite_self]
  | @create o hname =>
    have hk : (kind, key) ≠ o.ident := fun h => hne (by rw [← hname, (Prod.mk.inj h).2]; rfl)
    exact (Table.get_put_of_ne hk).trans hw
  | @update o hkey =>
    have hk : (kind, key) ≠ o.ident := fun h => hne (by rw [← hkey, (Prod.mk.inj h).2])
    exact (Table.get_put_of_ne hk).trans hw

/-- Nothing is done for an object that is missing. -/
theorem Secondary.find_reconcile_self (h : w.find kind key = none) :
    (exec (Secondary.reconcile op env kind key) w).2.find kind key = none := by
  show Wp (Secondary.reconcile op env kind key) (fun _ v => v.find kind key = none) w
  unfold Secondary.reconcile
  split
  · exact h
  refine Wp.bind (P := fun _ v => v.find kind key = none) ?_ (fun _ u (hu : u.find kind key = none) => hu) fun _ _ hv => hv
  refine wp_read_bind (fun _ => h) ?_
  simp only [World.find_sent, h]
  refine Wp.bind_ok (exec_ownerOf_of_unowned (by simp)) ?_
  exact h

theorem Secondary.find_reconcile (hk : kind ≠ .secret) (hns : request.ns = key.ns) (h : w.find kind key = none) :
    (exec (Secondary.reconcile op env kind request) w).2.find kind key = none := by
  by_cases hr : request = key
  · subst hr
    exact Secondary.find_reconcile_self h
  · have hne : request.name ≠ key.name := fun hname => hr (by cases request; cases key; simp_all)
    rw [World.find_of_ne_secret _ hk] at h ⊢
    have hdoes : Does (Act.On kind request) (Secondary.reconcile op env kind request) :=
      Secondary.does_reconcile (fun _ h => .note h.isRemark.isNote) ⟨.call, .delete⟩ (fun _ _ => .create) fun _ _ => .update
    exact hdoes.invariant (I := fun u : World => u.objects.get (kind, key) = none)
      (fun a u ha hu => ha.get_eq_none hne hu) h

/-- The requests of an event are for the namespace of its object. -/
theorem ns_of_mem_ownerRequests {owner : ResourceType} {o : Object} (h : request ∈ ownerRequests owner o) :
    request.ns = o.metadata.ns := by
  obtain ⟨ref, -, rfl⟩ := List.mem_map.1 h
  rfl

/-- The object that was deleted stays away. -/
theorem find_processEvent {envs : NamespacedName → Env} {owner : ResourceType} {o : Object} (hk : IsSimple o.kind)
    (h : w.find o.kind o.key = none) :
    (processEvent op envs o.kind owner (.delete o) w).find o.kind o.key = none := by
  refine run_invariant (I := fun u : World => u.find o.kind o.key = none) (fun r hr u hu => ?_) h
  have hrec : reconcileSecondaryObject op (envs r) o.kind r = Secondary.reconcile op (envs r) o.kind r := by
    unfold reconcileSecondaryObject
    rcases hk with hk | hk <;> rw [hk]
  rw [hrec]
  have hmem : r ∈ ownerRequests owner o := by
    rcases hk with hk | hk <;>
      simpa [watchSecondaryResource, hk, canWatch, SecondaryPredicate.passes, enqueueRequestForOwner] using hr
  exact Secondary.find_reconcile hk.ne_secret (ns_of_mem_ownerRequests hmem) hu

/-- A Service or ConfigMap of the latest stored version of `c` was deleted, and the store is up to date. -/
structure DeletedOutOfBand (op : Operator) (c : Coherence) (o : Object) (w : World) : Prop where
  coherence : w.coherence.get c.key = some c
  replicas : 0 < c.getReplicas
  upToDate : ∃ res, c.toResource.prepare op (c.createKubernetesResources op) = .ok res ∧
    (Storage.load c.key (w.store c.key)).latest.items = res.items
  stored : ∃ r ∈ (Storage.load c.key (w.store c.key)).latest.items, r.spec = some o
  simple : IsSimple o.kind
  owned : c.key ∈ ownerRequests .coherence o
  missing : w.find o.kind o.key = none

/-- The object exists again after its event was processed, as it is stored. -/
def ComesBack (op : Operator) (envs : NamespacedName → Env) (o : Object) (w : World) : Prop :=
  ∃ live, (processEvent op envs o.kind .coherence (.delete o) w).find o.kind o.key = some live ∧ live.body = o.body

/-- **Nothing comes back** that was deleted out of band. -/
theorem not_comesBack {c : Coherence} {o : Object} {envs : NamespacedName → Env} (h : DeletedOutOfBand op c o w) :
    ¬ ComesBack op envs o w := by
  rintro ⟨live, hlive, -⟩
  rw [find_processEvent h.simple h.missing] at hlive
  cases hlive

end

/-- A resource whose objects are all gone. -/
def deprived : Coherence := { metadata := { ns := "default", name := "storage" }, spec := { replicas := some 3 } }

/-- Its Service for well known addresses, as it is stored. -/
def deprivedService : Object :=
  ((deprived.toResource.createWKAService default).withOwnerReferences [deprived.toResource.owner.reference]).setHash
    (default : Operator).version "1"

/-- What is stored for it. -/
def deprivedResources : Resources :=
  (deprived.toResource.prepare default (deprived.createKubernetesResources default)).toOption.getD {}

/-- A cluster with the resource and its store. -/
def deprivedCluster : World :=
  { (default : World) with
    coherence := Table.empty.put deprived
    stores := Table.empty.put
      { metadata := { ns := "default", name := "storage" }, latest := some deprivedResources } }

theorem deletedOutOfBand_deprived : DeletedOutOfBand default deprived deprivedService deprivedCluster where
  coherence := rfl
  replicas := by decide
  upToDate := ⟨deprivedResources, by rfl, by rfl⟩
  stored := ⟨deprivedService.toResource, by decide +kernel, by rfl⟩
  simple := .inr rfl
  owned := by decide
  missing := rfl

/-- The Service does not come back. -/
theorem not_forall_comesBack :
    ¬ ∀ (op : Operator) (envs : NamespacedName → Env) (c : Coherence) (o : Object) (w : World),
      (∀ request, (envs request).Reliable) → DeletedOutOfBand op c o w → ComesBack op envs o w := by
  intro h
  obtain ⟨live, hlive, -⟩ := h default (fun _ => {}) deprived deprivedService deprivedCluster (fun _ => rfl)
    deletedOutOfBand_deprived
  have hgone : (processEvent default (fun _ => {}) deprivedService.kind .coherence (.delete deprivedService)
      deprivedCluster).find deprivedService.kind deprivedService.key = none := by decide +kernel
  rw [hgone] at hlive
  cases hlive

/-- The Service is an object that stays away. -/
theorem not_comesBack_deprived : ¬ ComesBack default (fun _ => {}) deprivedService deprivedCluster :=
  not_comesBack deletedOutOfBand_deprived

end CoherenceOperator
