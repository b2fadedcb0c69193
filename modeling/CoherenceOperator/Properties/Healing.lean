import CoherenceOperator.Properties.Deletions
import CoherenceOperator.Properties.Presence
import CoherenceOperator.Properties.Separation

/-!
# One reconcile in which no request fails

Requests that fail leave a Coherence resource half done: an object of the version that is stored was not made, or one that was removed is
still there. A Coherence resource is stored and reconciled anew in every round, so what was not made is made up for. One reconcile in
which no request fails is enough, whatever happened before (`along_heals`): afterwards all objects of the version that is stored are there,
and the Services that this version did away with are gone.
-/

namespace CoherenceOperator

open Effect Prog Storage

/-! ### Where no request fails -/

section Reliable

variable {op : Operator} {env : Env} {key : NamespacedName} {owner : Owner} {d : CoherenceResource} {w : World} {st : Storage} {res : Resources}
  {hash : String}

/-- The operator's own Secret is seen to. -/
theorem ok_ensureOperatorSecret (henv : env.Reliable) : (exec (ensureOperatorSecret op env d) w).1 = .ok () := by
  set key : NamespacedName := ⟨d.ns, "coherence-operator-config"⟩ with hkey
  have hfaults : ∀ n c, env.faults n c = none := fun n c => by rw [henv]
  have hget : exec (getObject env .secret key) w = (.ok (w.find .secret key), w.sent ⟨.get, .secret, key⟩) := by
    rw [getObject, exec_read, World.answer_eq_ok _ _ henv]
    rfl
  cases hfind : w.find .secret key with
  | none =>
    rw [hfind] at hget
    rw [ensureOperatorSecret, ← hkey, exec_bind_ok hget]
    have hdelete : exec (Op.ignoreError (deleteObject env .secret key)) (w.sent ⟨.get, .secret, key⟩) =
        (.ok (), (w.sent ⟨.get, .secret, key⟩).sent ⟨.delete, .secret, key⟩) := exec_ignore_delete hfind
    simp only
    rw [exec_bind_ok hdelete, ServiceMonitor.exec_createObject_of_faults (hfaults _ _) hfind]
  | some s =>
    rw [hfind] at hget
    rw [ensureOperatorSecret, ← hkey, exec_bind_ok hget]
    simp only
    split
    · rfl
    · obtain ⟨-, hs⟩ := World.find_filed _ hfind
      have hthere : (w.sent ⟨.get, .secret, key⟩).find .secret s.key = some s := by rw [hs, World.find_sent, hfind]
      have hreplace : exec (replaceObject env { s with body := .secret (s.secretData.set "operatorhost" op.restHostAndPort) })
          (w.sent ⟨.get, .secret, key⟩) = (.ok (), _) := ServiceMonitor.exec_change_of_faults (hfaults _ _) hthere
      rw [hreplace]

theorem exec_getSecret (henv : env.Reliable) : exec (getSecret env key) w = (.ok (w.store key), w.sent ⟨.get, .secret, key⟩) := by
  rw [getSecret, exec_read, World.answer_eq_ok _ _ henv]
  rfl

/-- A secret of the namespace of its owner is saved. -/
theorem ok_save {desired : StoreSecret} (henv : env.Reliable) (hns : desired.metadata.ns = owner.key.ns)
    (hrefs : w.store key = none → desired.metadata.ownerReferences = []) : (exec (save env key owner desired) w).1 = .ok () := by
  have hrequest : ∀ (c : ApiCall) (u : World), exec (request env c) u = (.ok (), u.sent c) := by
    intro c u
    rw [exec_request, World.answer_eq_ok _ _ henv]
  rw [save, exec_bind_ok (exec_getSecret henv)]
  cases hstore : w.store key with
  | none =>
    have hset : setControllerReference owner desired.metadata = .ok [owner.reference] := by
      simp [setControllerReference, hns, hrefs hstore, upsertOwnerRef]
    have hset' : exec (outcome ((setControllerReference owner desired.metadata).mapError .message) : Op (List OwnerReference))
        (w.sent ⟨.get, .secret, key⟩) = (.ok [owner.reference], w.sent ⟨.get, .secret, key⟩) := by
      rw [exec_outcome, hset]
      rfl
    simp only [createSecret]
    rw [exec_bind_ok hset', exec_bind_ok (hrequest _ _)]
    rfl
  | some current =>
    simp only [patchSecret]
    split
    · rfl
    · rw [exec_bind_ok (hrequest _ _)]
      rfl

/-- Resources that are all there are marshalled. -/
theorem checkMarshal_of_isGenerated (h : res.IsGenerated owner) : checkMarshal res = .ok () := by
  have hhead : res.items.head?.any (·.isDelete) = false := by
    cases hitems : res.items with
    | nil => rfl
    | cons r rs =>
      have hr : r ∈ res.items := by
        rw [hitems]
        exact List.mem_cons_self
      simpa using (h r hr).isDelete
  rw [checkMarshal, hhead]
  rfl

/-- What is generated for a resource is stored. -/
theorem ok_store {deployment : Deployment} (henv : env.Reliable) (hderef : deployment.deref = .ok d)
    (hhash : d.generationString op = .ok hash) (hgen : res.IsGenerated d.owner) (hns : st.key.ns = d.owner.key.ns) :
    (exec (st.store op env res deployment) w).1 = .ok { st with latest := st.next res, previous := st.latest, hash := some hash } := by
  have hmarshal : checkMarshal (st.next res) = .ok () := checkMarshal_of_isGenerated (hgen.next st)
  have hkey : ((w.store st.key).getD (createSecretStruct st.key)).key = st.key := key_getD_createSecretStruct
  rw [store, exec_bind_ok (exec_getSecret henv)]
  simp only [hderef]
  rw [exec_bind_ok (exec_outcome _ _), exec_bind_ok (a := hash) (by rw [exec_outcome]; exact congrArg (·, _) hhash),
    exec_bind_ok (exec_perform _ _), exec_bind_ok (a := ()) (by rw [exec_outcome]; exact congrArg (·, _) hmarshal)]
  set u : World := Acts.act (.store deployment hash (st.next res)) (w.sent ⟨.get, .secret, st.key⟩)
  have hsaved : (exec (save env st.key d.owner (withVersion (st.next res) (withLabels op d hash
      ((w.store st.key).getD (createSecretStruct st.key))))) u).1 = .ok () := by
    refine ok_save henv ((congrArg NamespacedName.ns hkey).trans hns) fun hnone => ?_
    have hnone : w.store st.key = none := hnone
    rw [hnone]
    rfl
  obtain ⟨v, hv⟩ : ∃ v, exec (save env st.key d.owner (withVersion (st.next res) (withLabels op d hash
      ((w.store st.key).getD (createSecretStruct st.key))))) u = (.ok (), v) := ⟨_, Prod.ext hsaved rfl⟩
  exact congrArg Prod.fst (exec_bind_ok hv)

/-- A plan is made where what is stored was generated. -/
theorem exists_plan {created : Resources} (hst : st.latest.IsGenerated d.owner) (hcreated : created.IsGenerated d.owner)
    (hhash : d.generationString op = .ok hash) : ∃ res st', d.plan op created st = .ok (res, st') := by
  obtain ⟨legacy, hlegacy⟩ : ∃ b, d.isLegacy op = .ok b := by
    rw [CoherenceResource.generationString, getGenerationString] at hhash
    rw [CoherenceResource.isLegacy]
    split at hhash
    · cases hhash
    · exact ⟨true, ‹_›⟩
    · exact ⟨false, ‹_›⟩
  obtain ⟨b, huses⟩ : ∃ b, d.usesStored op st = .ok b := by
    rw [CoherenceResource.usesStored, hhash]
    simp only [bind, Except.bind]
    split
    · exact ⟨_, rfl⟩
    · split
      · exact ⟨legacy, hlegacy⟩
      · exact ⟨_, rfl⟩
  rw [CoherenceResource.plan, huses]
  simp only [bind, Except.bind]
  split
  · rw [prepare_eq_ok hst hhash]
    exact ⟨_, _, rfl⟩
  · rw [prepare_eq_ok hcreated hhash]
    exact ⟨_, _, rfl⟩

end Reliable

/-! ### A resource that is set up -/

namespace CoherenceReconciler

/-- A resource with all that a reconcile sees to before it turns to the objects: the finalizer, if it must have it, an initial status and a
number of replicas. What is stored for it is not taken to be from 3.4.3 or before. -/
structure IsSetUp (op : Operator) (env : Env) (request : NamespacedName) (w : World) (c : Coherence) : Prop extends
    Reaches op env request w c where
  unguarded : c.spec.allowUnsafeDelete = some true → CoherenceFinalizer ∉ c.metadata.finalizers
  phase : c.status.phase.isSome
  current : ∀ st : Storage, st.Loads op request w c.toResource → c.toResource.isStoredLegacy op st = .ok false

variable {op : Operator} {env : Env} {request : NamespacedName} {w : World} {c : Coherence}

/-- The finalizer is as it has to be. -/
theorem IsSetUp.exec_ensureFinalizer (h : IsSetUp op env request w c) {u : World} : exec (ensureFinalizer env c) u = (.ok false, u) := by
  rcases h.finalizer with hunsafe | hfinalizer
  · have hremoved : FinalizerManager.ensureFinalizerRemoved env c = return () := by
      rw [FinalizerManager.ensureFinalizerRemoved, if_neg (h.unguarded hunsafe)]
    rw [ensureFinalizer, if_pos hunsafe, hremoved]
    rfl
  · have hguarded : c.spec.allowUnsafeDelete ≠ some true := fun hunsafe => h.unguarded hunsafe hfinalizer
    rw [ensureFinalizer, if_neg hguarded, FinalizerManager.ensureFinalizerApplied, if_pos hfinalizer]
    rfl

/-- The reconcile of a resource that is set up gets to the resources. -/
theorem IsSetUp.wp_reconcile {Q : Except GoError Result → World → Prop} (h : IsSetUp op env request w c) (henv : env.Reliable)
    (hQ : Wp (reconcileResources op env request c) Q (w.sent ⟨.get, .coherence, request⟩)) : Wp (reconcile op env request) Q w := by
  rw [reconcile, h.unlocked]
  refine wp_read_bind_of_reliable henv ?_
  obtain ⟨phase, hphase⟩ := Option.isSome_iff_exists.1 h.phase
  obtain ⟨n, hreplicas⟩ := Option.isSome_iff_exists.1 h.replicas
  have hstatus : ensureStatus env request c = return () := by rw [ensureStatus, hphase]
  simp only [World.coherence_sent, h.found]
  rw [reconcileFound, h.live]
  simp only [Bool.false_eq_true, if_false, h.valid]
  refine Wp.bind_ok h.exec_ensureFinalizer ?_
  simp only [Bool.false_eq_true, if_false]
  refine Wp.bind_ok (a := ()) (u := w.sent ⟨.get, .coherence, request⟩) (by rw [hstatus]; rfl) ?_
  rw [hreplicas]
  exact hQ

/-- The resources are planned and stored, and the secondary reconcilers come next. -/
theorem IsSetUp.wp_storeAndReconcile {Q : Except GoError Result → World → Prop} {u : World} (h : IsSetUp op env request w c)
    (henv : env.Reliable) (hgen : (stored request w).IsGenerated request) (hbefore : Before op request c w u)
    (hcoherence : u.coherence = w.coherence)
    (hQ : ∀ hash res st st' v, Attempt op env request w c hash res st st' → Stores op request c hash (st'.next res) w v →
      v.coherence = w.coherence → Wp (reconcileStored op env request (c.updateStatusVersion op env.now) hash
        { st' with latest := st'.next res, previous := st'.latest, hash := some hash }) Q v) :
    Wp (storeAndReconcile op env request c (stored request u)) Q u := by
  have hloads := loads_stored hbefore
  have hlegacy := h.current _ hloads
  have howner : c.toResource.owner = Owner.ofRequest request := h.owner
  obtain ⟨hash, hhash⟩ : ∃ hash, c.toResource.generationString op = .ok hash := by
    rw [CoherenceResource.isStoredLegacy] at hlegacy
    obtain ⟨hash, hhash, -⟩ := bind_eq_ok.1 hlegacy
    exact ⟨hash, hhash⟩
  have hst : (stored request u).latest.IsGenerated c.toResource.owner := by
    rw [hloads.latest, howner]
    exact hgen.latest
  obtain ⟨res, st', hplan⟩ := exists_plan hst c.isGenerated_createKubernetesResources hhash
  have hattempt : Attempt op env request w c hash res (stored request u) st' := ⟨h.toReaches, hloads, hhash, hlegacy, hplan⟩
  have hres : res.IsGenerated c.toResource.owner := howner ▸ (hattempt.isGenerated hgen.latest).1
  have hkey : st'.key = request := by
    rcases plan_eq_ok hplan with ⟨-, -, rfl⟩ | ⟨-, -, rfl⟩ <;> exact hloads.key
  have hns : st'.key.ns = c.toResource.owner.key.ns := by rw [hkey, howner, Owner.ofRequest]
  have hderef : (Deployment.coherence (some c)).deref = .ok c.toResource := rfl
  have hplanned : exec (Op.operation "set_controller" (context c)
      (outcome (c.toResource.plan op (c.createKubernetesResources op) (stored request u)))) u = (.ok (res, st'), u) := by
    rw [Op.operation, exec_mapError, exec_outcome, hplan]
    rfl
  have hstore : Wp (Op.operation "store_state" (context c) (st'.store op env res (.coherence (some c))))
      (fun r v => r = .ok { st' with latest := st'.next res, previous := st'.latest, hash := some hash } ∧
        Stores op request c hash (st'.next res) w v ∧ v.coherence = w.coherence) u := by
    have hok : (exec (st'.store op env res (.coherence (some c))) u).1 =
        .ok { st' with latest := st'.next res, previous := st'.latest, hash := some hash } := ok_store henv hderef hhash hres hns
    rcases hrun : exec (st'.store op env res (.coherence (some c))) u with ⟨r, v⟩
    rw [hrun] at hok
    obtain ⟨hends, hsame⟩ := ((wp_store hkey hderef hhash).and coherence_store).elim hrun
    obtain rfl : r = .ok { st' with latest := st'.next res, previous := st'.latest, hash := some hash } := hok
    rw [Wp, Op.operation, exec_mapError, hrun]
    exact ⟨rfl, stores_of_saved hbefore hends.2, hsame.trans hcoherence⟩
  rw [CoherenceReconciler.storeAndReconcile]
  refine Wp.bind_ok (a := hash) (u := u) (by rw [exec_outcome]; exact congrArg (·, _) hhash) ?_
  refine Wp.bind_ok hplanned (Wp.bind hstore (fun stored v hv => ?_) fun _ _ hv => by cases hv.1)
  obtain ⟨hok, hstores, hsame⟩ := hv
  rw [Except.ok.inj hok]
  exact hQ _ _ _ _ _ hattempt hstores hsame

theorem IsSetUp.wp_reconcileResources {Q : Except GoError Result → World → Prop} (h : IsSetUp op env request w c)
    (henv : env.Reliable) (hgen : (stored request w).IsGenerated request)
    (hQ : ∀ hash res st st' v, Attempt op env request w c hash res st st' → Stores op request c hash (st'.next res) w v →
      v.coherence = w.coherence → Wp (reconcileStored op env request (c.updateStatusVersion op env.now) hash
        { st' with latest := st'.next res, previous := st'.latest, hash := some hash }) Q v) :
    Wp (reconcileResources op env request c) Q (w.sent ⟨.get, .coherence, request⟩) := by
  have hsecret : Wp (ensureOperatorSecret op env c.toResource)
      (fun r u => r = .ok () ∧ Before op request c w u ∧ u.coherence = w.coherence) (w.sent ⟨.get, .coherence, request⟩) := by
    have hquiet : Wp (ensureOperatorSecret op env c.toResource)
        (fun _ v => Before op request c (w.sent ⟨.get, .coherence, request⟩) v) (w.sent ⟨.get, .coherence, request⟩) :=
      quietly_ensureOperatorSecret fun _ => id
    have hbeside : Wp (ensureOperatorSecret op env c.toResource)
        (fun _ v => CoherenceJobReconciler.Before request (w.sent ⟨.get, .coherence, request⟩) v) (w.sent ⟨.get, .coherence, request⟩) :=
      CoherenceJobReconciler.before_ensureOperatorSecret
    exact ⟨ok_ensureOperatorSecret henv, (Quietly.refl.sent _).trans hquiet, hbeside.beside.1.coherence⟩
  rcases hrun : exec (ensureOperatorSecret op env c.toResource) (w.sent ⟨.get, .coherence, request⟩) with ⟨r, u⟩
  obtain ⟨rfl, hbefore, hcoherence⟩ := hsecret.elim hrun
  have hnew : exec (Storage.new env request) u = (.ok (stored request u), u.sent ⟨.get, .secret, request⟩) := exec_new_of_reliable henv
  have hloads := loads_stored (hbefore.sent ⟨.get, .secret, request⟩)
  rw [reconcileResources]
  refine Wp.bind_ok (ServiceMonitor.exec_attempt_of_ok hrun) (Wp.bind_ok (ServiceMonitor.exec_attempt_of_ok hnew) ?_)
  have hlegacy : exec (outcome (c.toResource.isStoredLegacy op (stored request u)) : Op Bool) (u.sent ⟨.get, .secret, request⟩) =
      (.ok false, u.sent ⟨.get, .secret, request⟩) := by
    rw [exec_outcome]
    exact congrArg (·, _) (h.current _ hloads)
  have hstore : Wp (storeAndReconcile op env request c (stored request u)) Q (u.sent ⟨.get, .secret, request⟩) :=
    h.wp_storeAndReconcile henv hgen (hbefore.sent _) hcoherence hQ
  exact Wp.bind_ok hlegacy hstore

/-! ### One reconcile -/

/-- Nothing stands in the way of a reconcile: no request fails, no Service and no ServiceMonitor that it wants is about to be deleted, and the start
quorum is met, or the StatefulSet is there. -/
structure IsClear (op : Operator) (env : Env) (request : NamespacedName) (w : World) (c : Coherence) : Prop where
  setUp : IsSetUp op env request w c
  reliable : env.Reliable
  replicas : 0 < c.getReplicas
  merge : op.merge.KeepsDeletion
  installed : env.hasServiceMonitor = true ∨ ∀ r, w.Plans request (c.createKubernetesResources op) r → r.kind ≠ .serviceMonitor
  live : ∀ r, w.Plans request (c.createKubernetesResources op) r → r.kind ≠ .statefulSet → w.Lives r.kind ⟨request.ns, r.name⟩
  quorum : w.find .statefulSet request = none → c.toResource.QuorumIsMet w

theorem IsClear.canMake (h : IsClear op env request w c) :
    w.CanMake op env request c.toResource (c.createKubernetesResources op) := by
  have hserves : ∀ verb kind, env.Serves verb kind := fun verb kind n key => by rw [h.reliable]
  exact ⟨h.replicas, ⟨hserves _ _, hserves _ _, hserves _ _, h.merge⟩, hserves _ _, hserves _ _, h.installed, hserves _ _, hserves _ _,
    hserves _ _, h.live, h.quorum⟩

/-- What is planned may be stored, and is not being deleted. -/
theorem Attempt.hasPlanned {hash : String} {res : Resources} {st st' : Storage} (h : Attempt op env request w c hash res st st')
    (hgen : (stored request w).IsGenerated request) (hfresh : (stored request w).latest.IsFresh) :
    w.HasPlanned request (c.createKubernetesResources op) res ∧ res.IsFresh := by
  rcases h.plan_eq hgen.latest with ⟨-, rfl⟩ | ⟨-, rfl⟩
  · refine ⟨fun r hr => ?_, hfresh.prepared⟩
    obtain ⟨r', hr', rfl⟩ := List.mem_map.1 hr
    exact ⟨r', .inr hr', rfl, rfl⟩
  · refine ⟨fun r hr => ?_, c.isFresh_createKubernetesResources.prepared⟩
    obtain ⟨r', hr', rfl⟩ := List.mem_map.1 hr
    exact ⟨r', .inl hr', rfl, rfl⟩

end CoherenceReconciler

/-- All objects of the version that is stored are there, and the Services that were in the version before it only are gone. -/
structure World.IsWhole (request : NamespacedName) (w : World) : Prop where
  made : ∀ r ∈ (stored request w).latest.items, (w.find r.kind ⟨request.ns, r.name⟩).isSome
  gone : ∀ r ∈ (stored request w).previous.items, r.kind = .service →
    (stored request w).latest.getResource .service r.name = none → w.find .service ⟨request.ns, r.name⟩ = none

/-- What is stored was generated, and is not being deleted. -/
structure World.IsSound (request : NamespacedName) (w : World) : Prop where
  generated : (stored request w).IsGenerated request
  fresh : (stored request w).latest.IsFresh

section Whole

open CoherenceReconciler

variable {op : Operator} {env : Env} {request : NamespacedName} {w : World} {c : Coherence}

/-- **One reconcile** that nothing stands in the way of. -/
theorem isWhole_reconcile (h : IsClear op env request w c) (hw : w.IsSound request) :
    (exec (reconcile op env request) w).2.IsWhole request := by
  have hwhole : Wp (reconcile op env request) (fun _ v => v.IsWhole request) w := by
    refine h.setUp.wp_reconcile h.reliable (h.setUp.wp_reconcileResources h.reliable hw.generated fun hash res st st' u hattempt hstores hsame => ?_)
    have howner : c.toResource.owner = Owner.ofRequest request := h.setUp.owner
    obtain ⟨hres, hst'⟩ := hattempt.isGenerated hw.generated.latest
    obtain ⟨hplanned, hfresh⟩ := hattempt.hasPlanned hw.generated hw.fresh
    have hnext : (st'.next res).IsGenerated (Owner.ofRequest request) := hres.next st'
    set st₁ : Storage := { st' with latest := st'.next res, previous := st'.latest, hash := some hash } with hst₁
    have hgen₁ : st₁.IsGenerated request := ⟨hnext, hst'⟩
    have hkey : c.key = request := w.coherence.filed _ _ h.setUp.found
    have hdue : st₁.IsDue request (.coherence (some (c.updateStatusVersion op env.now))) (c.updateStatusVersion op env.now).toResource := by
      have howner' : (c.updateStatusVersion op env.now).toResource.owner = Owner.ofRequest request := howner
      refine ⟨rfl, rfl, ?_, hkey, howner' ▸ hnext, howner' ▸ hst', hfresh⟩
      have hreplicas : 0 < (c.updateStatusVersion op env.now).getReplicas := h.replicas
      simp [Deployment.isNilOrZero, Deployment.getReplicas, Except.map, hreplicas.ne']
    have hobjects : ∀ kind key, kind ≠ .secret → u.find kind key = w.find kind key := by
      intro kind key hk
      rw [World.find_of_ne_secret _ hk, World.find_of_ne_secret _ hk, hstores.objects kind key hk]
    have hquorum : c.toResource.QuorumIsMet w → (c.updateStatusVersion op env.now).toResource.QuorumIsMet u := by
      intro hmet
      unfold CoherenceResource.QuorumIsMet at hmet ⊢
      rw [hsame]
      exact hmet
    have hsuffices : Suffices op env request (c.updateStatusVersion op env.now).toResource st₁.latest u :=
      h.canMake.suffices hplanned (howner ▸ hres) rfl hquorum hobjects
    have hmade : Wp (reconcileStored op env request (c.updateStatusVersion op env.now) hash st₁)
        (fun _ v => ∀ r ∈ st₁.latest.items, (v.find r.kind ⟨request.ns, r.name⟩).isSome) u :=
      CoherenceReconciler.complete_reconcileStored hdue hsuffices
    have hspares : Path Act.SparesSecrets u (exec (reconcileStored op env request (c.updateStatusVersion op env.now) hash st₁) u).2 :=
      path_reconcileStored hgen₁ u
    have hstored : stored request (exec (reconcileStored op env request (c.updateStatusVersion op env.now) hash st₁) u).2 =
        stored request u := congrArg (load request) (hspares.unchanged (f := fun x : World => x.store request) fun _ _ ha => ha.store_eq)
    have hlatest : (stored request u).latest = st'.next res := hstores.latest.trans hnext.marshal
    refine ⟨fun r hr => ?_, fun r hr hk hnone => ?_⟩
    · rw [hstored, hlatest] at hr
      exact hmade r hr
    · rw [hstored, hstores.previous] at hr
      rw [hstored, hlatest, ← hk] at hnone
      have hdeletion : r ∈ st₁.getDeletions := by
        refine List.mem_filter.2 ⟨?_, Option.isNone_iff_eq_none.2 hnone⟩
        rw [hst₁, hattempt.latest_of_removed hw.generated.latest hr hnone]
        exact hr
      have hcan : env.CanDelete .service ⟨request.ns, r.name⟩ := fun n => by
        rw [h.reliable]
        exact ⟨rfl, rfl⟩
      exact wp_reconcileStored_of_deletion hgen₁ hdeletion hk hcan
  exact hwhole

/-! ### Runs -/

/-- Nothing that is stored is being deleted, as long as only what is generated is stored. -/
theorem isSound_step (hw : w.IsSound request) (t : CoherenceTurn) : (t.step op request w).IsSound request := by
  refine ⟨CoherenceTurn.isGenerated_step hw.generated t, ?_⟩
  cases t with
  | edit | delete => exact hw.fresh
  | reconcile env =>
    have hmoved : Moved op env request w (exec (reconcile op env request) w).2 := (moved_reconcile hw.generated).1
    rcases hmoved with ⟨hlatest, -, -⟩ | ⟨hattempt, hlatest, -, -, -⟩
    · exact hlatest ▸ hw.fresh
    · exact hlatest ▸ (hattempt.hasPlanned hw.generated hw.fresh).2

theorem World.isSound_of_none (hstore : w.store request = none) : w.IsSound request := by
  refine ⟨isGenerated_of_none hstore, ?_⟩
  rw [stored, hstore]
  rintro r ⟨⟩

/-- A reconcile that nothing stands in the way of leaves everything in order. -/
def CoherenceTurn.Heals (op : Operator) (request : NamespacedName) (w : World) : CoherenceTurn → Prop
  | reconcile env => (∃ c, IsClear op env request w c) → (CoherenceTurn.step op request w (reconcile env)).IsWhole request
  | _ => True

end Whole

/-- The Service of the port cannot be created. -/
def failsCreate : Env where
  faults := fun _ c => if c = ⟨.create, .service, ⟨"default", "storage-metrics"⟩⟩ then some .internalError else none

/-- It is made in the second round. -/
example :
    let u := run (CoherenceTurn.step default ⟨"default", "storage"⟩) (tendedCluster withPort) [.reconcile failsCreate]
    let v := run (CoherenceTurn.step default ⟨"default", "storage"⟩) u [.reconcile {}]
    (u.find .service ⟨"default", "storage-metrics"⟩).isNone ∧ (v.find .service ⟨"default", "storage-metrics"⟩).isSome := by
  decide +kernel

end CoherenceOperator
