import CoherenceOperator.Footprint.Separating

/-!
# The two kinds of resources

The controllers of CoherenceJob resources share with that of Coherence resources the secret in which the versions of a resource
are stored, which goes by its name, and the functions that write its status, of which two read the resource as a `Coherence`. Where a
Coherence resource has the name of a CoherenceJob, its status gets the hash of the other, and its versions are those of the
other. The hash in the status of the CoherenceJob itself is never written.
-/

namespace CoherenceOperator

open Effect Prog Storage

variable {op : Operator} {env : Env} {request : NamespacedName} {w u v y : World}

/-! ### Names of resources that are prepared -/

theorem mem_of_mapM_eq_ok {α β ε : Type} {f : α → Except ε β} {xs : List α} {ys : List β} (h : xs.mapM f = .ok ys) {b : β}
    (hb : b ∈ ys) : ∃ a ∈ xs, f a = .ok b := by
  induction xs generalizing ys with
  | nil =>
    cases h
    cases hb
  | cons x xs ih =>
    rw [List.mapM_cons] at h
    obtain ⟨y, hy, h⟩ := bind_eq_ok.1 h
    obtain ⟨zs, hzs, h⟩ := bind_eq_ok.1 h
    cases h
    rcases List.mem_cons.1 hb with rfl | hb
    · exact ⟨x, List.mem_cons_self, hy⟩
    · obtain ⟨a, ha, hfa⟩ := ih hzs hb
      exact ⟨a, List.mem_cons_of_mem _ ha, hfa⟩

/-- A resource keeps its kind and its name when its owner is set. -/
theorem setController_named {owner : Owner} {r r' : Resource} (h : r.setController owner = .ok r') :
    r'.kind = r.kind ∧ r'.name = r.name := by
  unfold Resource.setController at h
  split at h
  · cases h
    exact ⟨rfl, rfl⟩
  · split at h
    · cases h
      exact ⟨rfl, rfl⟩
    · cases h

/-- The resources that are prepared have the kinds and the names they had. -/
theorem mem_prepare {d : CoherenceResource} {res res' : Resources} (h : d.prepare op res = .ok res') {r : Resource}
    (hr : r ∈ res'.items) : ∃ r' ∈ res.items, r.kind = r'.kind ∧ r.name = r'.name := by
  obtain ⟨hash, -, h⟩ := bind_eq_ok.1 h
  obtain ⟨owned, howned, h⟩ := bind_eq_ok.1 h
  cases h
  obtain ⟨r₁, hr₁, rfl⟩ := List.mem_map.1 hr
  cases hset : res.setController d.owner with
  | error e =>
    rw [hset] at howned
    cases howned
  | ok set =>
    rw [hset] at howned
    cases howned
    obtain ⟨items, hitems, h⟩ := bind_eq_ok.1 hset
    cases h
    obtain ⟨r', hr', hnamed⟩ := mem_of_mapM_eq_ok hitems hr₁
    obtain ⟨hkind, hname⟩ := setController_named hnamed
    exact ⟨r', hr', hkind, hname⟩

/-! ### Where the controllers are led astray -/

/-- There is no Secret of the name of a Coherence resource among the resources. -/
def World.Clear (w : World) (request : NamespacedName) (res : Resources) : Prop :=
  ∀ r ∈ res.items, r.kind = .secret → w.coherence.get ⟨request.ns, r.name⟩ = none

/-- The CoherenceJob has nothing to be done for it: the store has the hash of its generation. -/
structure CoherenceJob.IsSettled (op : Operator) (request : NamespacedName) (w : World) (c : CoherenceJob) : Prop where
  replicas : c.spec.replicas.isSome = true
  hash : ∃ hash, c.getGenerationString op = .ok hash ∧ (stored request w).hash = some hash
  current : c.toResource.isLegacy op = .ok false

/-- There is no Coherence resource of the name of the CoherenceJob, and no Secret is stored for it under the name of one. -/
structure World.Alone (w : World) (request : NamespacedName) : Prop where
  coherence : w.coherence.get request = none
  clear : w.Clear request (stored request w).latest

/-- The generation of the CoherenceJob when its number of replicas is set. -/
def CoherenceJob.nextGeneration (c : CoherenceJob) : ℕ :=
  if c.spec.replicas.isSome then c.generation else c.generation + 1

/-! ### A CoherenceJob by itself -/

namespace CoherenceJobReconciler

variable {c : CoherenceJob} {st : Storage} {hash : String} {result : Result}

theorem keeps_updateDeploymentStatusHash (h : w.coherence.get request = none) :
    Keeps w.Beside (updateDeploymentStatusHash op env request hash) := by
  refine keeps_changeStatus fun c hc => ?_
  rw [h] at hc
  cases hc

theorem keeps_finish (h : w.coherence.get request = none) : Keeps w.Beside (finish op env request c hash result) := by
  refine Keeps.bind (Keeps.ite (fun _ => ?_) fun _ => Keeps.pure _) fun _ => ?_
  · exact (keeps_updateCoherenceJobStatusCondition (by decide)).mapError
  · exact Keeps.bind (keeps_updateDeploymentStatusHash h).mapError fun _ => Keeps.pure _

/-- The objects of one kind. -/
theorem keeps_secondary {kind : ResourceType} (hprevious : w.Clear request st.previous) (hlatest : w.Clear request st.latest) :
    Keeps w.Beside (Secondary.reconcileAllResourceOfKind op env kind request (.coherenceJob (some c)) st) := by
  refine keeps_beside (Secondary.does_reconcileAllResourceOfKind rfl (fun _ ha => isBeside_of_call ha) ?_
    (fun _ _ _ => trivial) fun _ _ _ _ _ => trivial)
  rintro r hr rfl
  refine ⟨trivial, fun hsecret => ?_⟩
  rcases hr with hr | ⟨hr, -⟩
  · exact hprevious r (List.mem_filter.1 hr).1 hsecret
  · exact hlatest r hr hsecret

theorem keeps_reconcilers (h : w.coherence.get request = none) (hprevious : w.Clear request st.previous)
    (hlatest : w.Clear request st.latest) {x : Op Result} (hx : x ∈ reconcilers op env request (.coherenceJob (some c)) st) :
    Keeps w.Beside x := by
  have hmonitor : Does (Act.IsBeside w) (ServiceMonitor.reconcileAllResourceOfKind op env request (.coherenceJob (some c)) st) :=
    ServiceMonitor.does_reconcileAllResourceOfKind rfl (fun _ ha => isBeside_of_call ha)
      (fun _ _ _ => ⟨trivial, fun hk => by cases hk⟩) (fun _ _ _ => trivial) fun _ _ _ _ _ => trivial
  have hunflagged : JobReconciler.IsUnflagged request w := by
    intro c hc
    rw [h] at hc
    cases hc
  simp only [reconcilers, List.mem_cons, List.not_mem_nil, or_false] at hx
  rcases hx with rfl | rfl | rfl | rfl | rfl
  · exact keeps_secondary hprevious hlatest
  · exact keeps_secondary hprevious hlatest
  · exact keeps_secondary hprevious hlatest
  · exact keeps_beside hmonitor
  · exact JobReconciler.keeps_reconcileAll hunflagged

theorem keeps_reconcileStored (h : w.coherence.get request = none) (hprevious : w.Clear request st.previous)
    (hlatest : w.Clear request st.latest) : Keeps w.Beside (reconcileStored op env request c hash st) := by
  refine Keeps.bind (CoherenceReconciler.keeps_reconcileSecondary (fun x hx => ?_) _) fun progress => ?_
  · exact keeps_reconcilers h hprevious hlatest hx
  · split
    · exact keeps_finish h
    · exact Keeps.throw _

/-- What is planned is clear, if what is stored is. -/
theorem clear_of_plan {res : Resources} {st' : Storage} (hst : w.Clear request st.latest)
    (h : c.toResource.plan op (c.createKubernetesResources op) st = .ok (res, st')) :
    w.Clear request res ∧ w.Clear request st'.latest ∧ st'.key = st.key := by
  have hprepared : ∀ created : Resources, w.Clear request created → c.toResource.prepare op created = .ok res →
      w.Clear request res := by
    intro created hcreated hprepare r hr hk
    obtain ⟨r', hr', hkind, hname⟩ := mem_prepare hprepare hr
    rw [hname]
    exact hcreated r' hr' (hkind ▸ hk)
  have hgenerated : w.Clear request (c.createKubernetesResources op) := fun r hr hk =>
    absurd hk (c.isGenerated_createKubernetesResources r hr).kind_ne.2
  rcases CoherenceReconciler.plan_eq_ok h with ⟨-, hprepare, rfl⟩ | ⟨-, hprepare, rfl⟩
  · have hres := hprepared _ hst hprepare
    exact ⟨hres, hres, rfl⟩
  · exact ⟨hprepared _ hgenerated hprepare, hst, rfl⟩

theorem putStore_isBeside (h : w.coherence.get request = none) {s : StoreSecret} (hs : s.key = request) :
    (Act.putStore s).IsBeside w := by
  rw [← hs] at h
  exact h

/-- Storing the resources, and all that comes after it. -/
theorem keeps_reconcileWith (h : w.coherence.get request = none) (hkey : st.key = request) (hst : w.Clear request st.latest) :
    Keeps w.Beside (reconcileWith op env request c st) := by
  subst hkey
  refine Keeps.bind (Keeps.outcome _) fun hash => Keeps.bind (Keeps.outcome _) fun legacy => Keeps.ite (fun _ => ?_) fun _ =>
    Keeps.ite (fun _ => Keeps.pure _) fun _ => ?_
  · refine Keeps.bind ?_ fun _ => Keeps.bind (Keeps.outcome _) fun hashNew => ?_
    · exact (keeps_beside (does_resetHash (fun _ => trivial) fun _ hs => putStore_isBeside h hs)).mapError
    · exact Keeps.bind (keeps_updateDeploymentStatusHash h).mapError fun _ => Keeps.pure _
  · refine Keeps.bind_of (Keeps.outcome _) (Returns.outcome fun _ => id) fun p hplan => ?_
    obtain ⟨hres, hlatest, hsame⟩ := clear_of_plan hst hplan
    have hstored : Returns (p.2.store op env p.1 (.coherenceJob (some c))) fun st' =>
        st'.latest = p.2.next p.1 ∧ st'.previous = p.2.latest := by
      refine Returns.bind' fun _ => Returns.bind' fun _ => Returns.bind' fun _ => Returns.bind' fun _ => ?_
      exact Returns.bind' fun _ => Returns.bind' fun _ => Returns.pure ⟨rfl, rfl⟩
    refine Keeps.bind_of ?_ hstored.mapError fun st' hst' => ?_
    · refine (keeps_beside (does_store (fun _ => trivial) (fun s hs => ?_) fun _ _ _ => trivial)).mapError
      exact putStore_isBeside h (hs.trans hsame)
    · refine keeps_reconcileStored h ?_ ?_
      · rw [hst'.2]
        exact hlatest
      · rw [hst'.1]
        exact hres

/-- What is stored before the operator's own secret was seen to is stored after it. -/
structure Before (request : NamespacedName) (w u : World) : Prop where
  beside : w.Beside u
  latest : (stored request u).latest = (stored request w).latest
  hash : ∀ hash, (stored request w).hash = some hash → (stored request u).hash = some hash

theorem Before.refl : Before request w w := ⟨.refl, rfl, fun _ => id⟩

theorem Before.sent (h : Before request w u) (c : ApiCall) : Before request w (u.sent c) := ⟨h.beside.sent c, h.latest, h.hash⟩

/-- A secret was put among the objects, in the place of one with its metadata, or where there was none. -/
theorem Before.put {o : Object} {a : Act} (h : Before request w u) (ha : a.IsBeside w)
    (hstores : (Acts.act a u).stores = u.stores) (hobjects : (Acts.act a u).objects = u.objects.put o)
    (ho : ∀ o', u.find .secret o.key = some o' → o.metadata = o'.metadata) : Before request w (Acts.act a u) where
  beside := h.beside.act ha
  latest := (World.stored_eq_of_put hstores hobjects).1.trans h.latest
  hash hash hhash := by
    have hu := h.hash hash hhash
    rcases store_of_put request hstores hobjects with hst | ⟨rfl, hnone, hst⟩
    · rw [stored, hst]
      exact hu
    · cases hfind : u.find .secret o.key with
      | none =>
        rw [stored, store_eq_none hfind] at hu
        cases hu
      | some o' =>
        rw [stored, store_of_find hfind hnone] at hu
        rw [stored, hst, ho o' hfind]
        exact hu

/-- Seeing to the operator's own secret. -/
theorem before_ensureOperatorSecret {d : CoherenceResource} :
    Wp (ensureOperatorSecret op env d) (fun _ u => Before request w u) w := by
  have hget : Before request w w := .refl
  refine Wp.bind (P := fun r v => v = w.sent ⟨.get, .secret, ⟨d.ns, "coherence-operator-config"⟩⟩ ∧
    ∀ s, r = .ok s → s = w.find .secret ⟨d.ns, "coherence-operator-config"⟩) ?_ ?_ ?_
  · rw [Wp, getObject, exec_read]
    refine ⟨rfl, fun s hs => ?_⟩
    cases ha : w.answer ⟨.get, .secret, ⟨d.ns, "coherence-operator-config"⟩⟩ env with
    | error e => simp [ha, Except.map] at hs
    | ok _ =>
      simp only [ha, Except.map, Except.ok.injEq] at hs
      exact hs.symm
  · rintro s v ⟨rfl, hs⟩
    have hget := hget.sent ⟨.get, .secret, ⟨d.ns, "coherence-operator-config"⟩⟩
    have hs := (hs s rfl).symm
    cases s with
    | none =>
      refine Wp.bind_ok (exec_ignore_delete hs) ?_
      have hdelete := hget.sent ⟨.delete, .secret, ⟨d.ns, "coherence-operator-config"⟩⟩
      refine wp_createObject (fun _ => hdelete.sent _) fun hnone => ?_
      refine (hdelete.sent _).put trivial rfl rfl fun o' ho' => ?_
      have hsome : none = some o' := hnone.symm.trans ho'
      cases hsome
    | some s =>
      obtain ⟨-, hkey⟩ := World.find_filed _ hs
      have hrest : Wp (if s.secretData.lookup "operatorhost" = some op.restHostAndPort then (return () : Op Unit)
          else replaceObject env { s with body := .secret (s.secretData.set "operatorhost" op.restHostAndPort) })
          (fun _ u => Before request w u) (w.sent ⟨.get, .secret, ⟨d.ns, "coherence-operator-config"⟩⟩) := by
        split
        · exact hget
        · refine wp_change (fun _ => hget.sent _) fun _ _ => ?_
          refine (hget.sent _).put trivial rfl rfl fun o' ho' => ?_
          have hsame : w.find .secret s.key = some o' := ho'
          rw [hkey, hs, Option.some.injEq] at hsame
          rw [hsame]
      exact hrest
  · rintro e _ ⟨rfl, -⟩
    exact hget.sent _

/-- The CoherenceJob is not led to a Coherence resource. -/
def IsApart (op : Operator) (request : NamespacedName) (w : World) (c : CoherenceJob) : Prop :=
  w.Alone request ∨ c.IsSettled op request w

/-- From the operator's secret on. -/
theorem beside_reconcileResources (h : IsApart op request w c) :
    Wp (reconcileResources op env request c) (fun _ u => w.Beside u) w := by
  have hnil : Deployment.nil.IsBeside := trivial
  have herr : ∀ {u : World} {e : GoError}, w.Beside u → Wp (handleErrAndRequeue op env e .nil) (fun _ v => w.Beside v) u :=
    fun hu => keeps_handleErrAndRequeue_beside hnil _ hu
  have hsecret : Wp (ensureOperatorSecret op env c.toResource) (fun _ u => Before request w u) w := before_ensureOperatorSecret
  refine Wp.attempt_bind_ends (Wp.ends hsecret) (fun _ u hu => ?_) fun e u hu => ⟨herr hu.beside, hu.beside⟩
  have hnew : Wp (Storage.new env request)
      (Wp.Ends (fun st v => Before request w v ∧ st = stored request v) (Before request w)) u := by
    have hget := hu.sent ⟨.get, .secret, request⟩
    exact wp_getSecret_bind (fun _ => hget) ⟨hget, rfl⟩
  refine Wp.attempt_bind_ends hnew ?_ fun e v hv => ⟨herr hv.beside, hv.beside⟩
  rintro _ v ⟨hv, rfl⟩
  rcases h with halone | hsettled
  · have hclear : w.Clear request (stored request v).latest := by
      rw [hv.latest]
      exact halone.clear
    refine keeps_reconcileWith halone.coherence ?_ hclear v hv.beside
    rw [stored]
    cases v.store request <;> rfl
  · obtain ⟨hash, hgeneration, hstored⟩ := hsettled.hash
    have hhash := hv.hash hash hstored
    have hlegacy : c.toResource.isStoredLegacy op (stored request v) = .ok false := by
      have hgeneration' : c.toResource.generationString op = .ok hash := hgeneration
      rw [CoherenceResource.isStoredLegacy, hgeneration', hhash, hsettled.current]
      simp [bind, Except.bind]
    have hdone : exec (reconcileWith op env request c (stored request v)) v = (.ok {}, v) := by
      rw [reconcileWith, hgeneration, hlegacy, hhash]
      simp [exec_bind]
    show w.Beside (exec (reconcileWith op env request c (stored request v)) v).2
    rw [hdone]
    exact hv.beside

/-- Notes leave alone what is stored. -/
theorem Before.of_note (hbeside : w.Beside u) (p : Path Act.IsNote w u) : Before request w u := by
  have hquiet : Quietly request (fun _ => False) (fun _ => False) w u := .of_note p
  have hstores : u.stores = w.stores := p.unchanged fun _ _ ha => ha.stores
  have hobjects : u.objects = w.objects := p.unchanged fun _ _ ha => ha.objects
  refine ⟨hbeside, hquiet.latest, fun hash hhash => ?_⟩
  rw [← hhash, stored, stored, World.store, World.store, hstores, hobjects]

theorem before_ensureStatus : Wp (ensureStatus op env request c) (fun _ u => Before request w u) w := by
  have hbeside : Keeps w.Beside (ensureStatus op env request c) := by
    unfold ensureStatus
    split
    · exact Keeps.pure _
    · exact keeps_updateCoherenceJobStatusCondition (by decide)
  have hnote : Does Act.IsRemark (ensureStatus op env request c) := by
    unfold ensureStatus
    split
    · exact Does.pure _
    · exact note_updateCoherenceJobStatusCondition
  exact Before.of_note (hbeside w .refl) (note_of_remark hnote w)

/-- The resource is as apart as it was. -/
theorem IsApart.of_before (h : IsApart op request w c) (hu : Before request w u) : IsApart op request u c := by
  rcases h with ⟨hcoherence, hclear⟩ | ⟨hreplicas, ⟨hash, hgeneration, hstored⟩, hcurrent⟩
  · refine .inl ⟨?_, fun r hr hk => ?_⟩
    · rw [hu.beside.1.coherence]
      exact hcoherence
    · rw [hu.latest] at hr
      rw [hu.beside.1.coherence]
      exact hclear r hr hk
  · exact .inr ⟨hreplicas, ⟨hash, hgeneration, hu.hash hash hstored⟩, hcurrent⟩

/-- The CoherenceJob has the hash it had, and its next generation. -/
def HasHashOf (request : NamespacedName) (c : CoherenceJob) (u : World) : Prop :=
  ∀ c', u.coherenceJob.get request = some c' → c'.status.hash = c.status.hash ∧ c'.generation = c.nextGeneration

/-- With the number of replicas set. -/
theorem wp_ensureReplicas_bind {f : CoherenceJob → Op Result} {Q : Except GoError Result → World → Prop}
    (hkey : c.key = request) (hreplicas : c.spec.replicas = none) (he : ∀ e call, Q (.error e) (w.sent call))
    (hf : ∀ c' call, Wp (f c') Q (Acts.act (.coherenceJobReplicas request c.spec.getJobReplicas) (w.sent call))) :
    Wp (ensureReplicas env c >>= f) Q w := by
  subst hkey
  unfold ensureReplicas
  rw [hreplicas]
  have hpatch : Wp (Op.patching .coherenceJob c.metadata.name (change env ⟨.patch, .coherenceJob, c.key⟩
      (·.coherenceJob.get c.key) (.coherenceJobReplicas c.key c.spec.getJobReplicas)))
      (Wp.Ends (fun _ u => u = Acts.act (.coherenceJobReplicas c.key c.spec.getJobReplicas)
        (w.sent ⟨.patch, .coherenceJob, c.key⟩)) fun u => u = w.sent ⟨.patch, .coherenceJob, c.key⟩) w :=
    Wp.mapError_ends (wp_change (fun _ => rfl) fun _ _ => rfl)
  have hall : Wp (ensureReplicas env c) (Wp.Ends (fun _ u => u = Acts.act (.coherenceJobReplicas c.key c.spec.getJobReplicas)
      (w.sent ⟨.patch, .coherenceJob, c.key⟩)) fun u => u = w.sent ⟨.patch, .coherenceJob, c.key⟩) w := by
    unfold ensureReplicas
    rw [hreplicas]
    refine Wp.bind_ends hpatch ?_ fun _ _ hu => hu
    rintro _ u rfl
    exact rfl
  unfold ensureReplicas at hall
  rw [hreplicas] at hall
  refine Wp.bind_ends hall ?_ ?_
  · rintro c' u rfl
    exact hf c' _
  · rintro e u rfl
    exact he e _

theorem wp_addOrUpdate (hfound : w.coherenceJob.get request = some c) (h : IsApart op request w c) :
    Wp (addOrUpdate op env request c) (fun r u => w.Apart u ∧ ((∃ result, r = .ok result) → HasHashOf request c u)) w := by
  have hkey : c.key = request := w.coherenceJob.filed _ _ hfound
  have hstatus : Wp (ensureStatus op env request c) (fun _ u => Before request w u) w := before_ensureStatus
  refine Wp.bind_ends (Wp.ends hstatus) (fun _ x hx => ?_) fun e u hu => ⟨hu.beside.1, by rintro ⟨_, ⟨⟩⟩⟩
  have hx' := h.of_before hx
  cases hreplicas : c.spec.replicas with
  | some n =>
    have hensure : ensureReplicas env c = (return c : Op CoherenceJob) := by
      unfold ensureReplicas
      rw [hreplicas]
    rw [hensure]
    refine Wp.mono (Q := fun _ u => x.Beside u) (beside_reconcileResources hx') fun r u hu => ?_
    obtain ⟨hapart, hhashes⟩ := hx.beside.trans hu
    refine ⟨hapart, fun _ c' hc' => ?_⟩
    obtain ⟨c₀, hc₀, hhash, hgeneration⟩ := hhashes _ c' hc'
    rw [hfound, Option.some.injEq] at hc₀
    subst hc₀
    rw [CoherenceJob.nextGeneration, hreplicas]
    exact ⟨hhash, hgeneration⟩
  | none =>
    have halone : x.Alone request := hx'.resolve_right fun hsettled => by
      have hsome := hsettled.replicas
      rw [hreplicas] at hsome
      cases hsome
    refine wp_ensureReplicas_bind hkey hreplicas (fun e call => ?_) fun c₁ call => ?_
    · exact ⟨(hx.beside.sent call).1, by rintro ⟨_, ⟨⟩⟩⟩
    set y := Acts.act (.coherenceJobReplicas request c.spec.getJobReplicas) (x.sent call) with hy
    have hapart : w.Apart y := by
      obtain ⟨hpath, hcoherence, hlatest, hprevious⟩ := (hx.beside.sent call).1
      exact ⟨hpath.tail ⟨.coherenceJobReplicas request c.spec.getJobReplicas, trivial, rfl⟩, hcoherence, hlatest, hprevious⟩
    have hjobs : HasHashOf request c y := by
      intro c' hc'
      have hmodify : (x.coherenceJob.get request).map (·.withReplicas c.spec.getJobReplicas) = some c' := by
        rw [← hc', hy]
        simp [Acts.act, Act.effect, World.modifyCoherenceJob]
      obtain ⟨c₂, hc₂, rfl⟩ := Option.map_eq_some_iff.1 hmodify
      obtain ⟨c₀, hc₀, hhash, hgeneration⟩ := hx.beside.2 _ c₂ hc₂
      rw [hfound, Option.some.injEq] at hc₀
      subst hc₀
      rw [CoherenceJob.nextGeneration, hreplicas]
      exact ⟨hhash, congrArg (· + 1) hgeneration⟩
    have halone' : y.Alone request := ⟨halone.coherence, halone.clear⟩
    refine Wp.mono (Q := fun _ u => y.Beside u) (beside_reconcileResources (.inl halone')) fun r u hu => ?_
    refine ⟨hapart.trans hu.1, fun _ c' hc' => ?_⟩
    obtain ⟨c₂, hc₂, hhash, hgeneration⟩ := hu.2 _ c' hc'
    obtain ⟨hhash', hgeneration'⟩ := hjobs c₂ hc₂
    exact ⟨hhash.trans hhash', hgeneration.trans hgeneration'⟩

theorem keeps_finalize : Keeps w.Beside (finalize env c) := by
  have hwrite : Keeps w.Beside (writeCoherenceJobMetadata env .update c.key c.metadata.annotations
      (c.metadata.finalizers.filter (· ≠ CoherenceFinalizer))) := by
    intro u hu
    exact wp_change (Q := fun _ v => w.Beside v) (fun _ => hu.sent _) fun _ _ => (hu.sent _).act trivial
  refine Keeps.ite (fun _ => Keeps.bind hwrite.attempt fun r => ?_) fun _ => Keeps.pure _
  split
  · exact Keeps.pure _
  · exact Keeps.ite (fun _ => Keeps.pure _) fun _ => Keeps.throw _

/-- The generation of a CoherenceJob after it was reconciled. -/
def generationAfter (env : Env) (c : CoherenceJob) : ℕ :=
  if env.locked || c.metadata.deletionTimestamp.isSome then c.generation else c.nextGeneration

/-- A CoherenceJob that is found has the hash it had before, and it had none but one that was found. -/
def KeepsHash (env : Env) (request : NamespacedName) (w u : World) : Prop :=
  ∀ c', u.coherenceJob.get request = some c' → ∃ c, w.coherenceJob.get request = some c ∧
    c'.status.hash = c.status.hash ∧ c'.generation = generationAfter env c

/-- **Reconciling a CoherenceJob** that is not led to a Coherence resource. -/
theorem wp_reconcileDeployment (h : ∀ c, w.coherenceJob.get request = some c → env.locked = false →
    c.metadata.deletionTimestamp.isSome = false → IsApart op request w c) :
    Wp (reconcileDeployment op env request)
      (fun r u => w.Apart u ∧ ((∃ result, r = .ok result) → KeepsHash env request w u)) w := by
  have hidle : ∀ {u : World} {result : Result}, w.Beside u →
      (∀ c, w.coherenceJob.get request = some c → c.generation = generationAfter env c) →
      w.Apart u ∧ ((∃ result', (.ok result : Except GoError Result) = .ok result') → KeepsHash env request w u) := by
    intro u result hu hgeneration
    refine ⟨hu.1, fun _ c' hc' => ?_⟩
    obtain ⟨c, hc, hhash, hgen⟩ := hu.2 _ c' hc'
    exact ⟨c, hc, hhash, hgen.trans (hgeneration c hc)⟩
  unfold reconcileDeployment
  split
  · rename_i hlocked
    exact hidle .refl fun c _ => by simp [generationAfter, hlocked]
  rename_i hlocked
  have hlocked : env.locked = false := by simpa using hlocked
  have hget := World.Beside.refl.sent (w := w) ⟨.get, .coherenceJob, request⟩
  refine wp_getCoherenceJob_bind (fun _ => ⟨hget.1, by rintro ⟨_, ⟨⟩⟩⟩) ?_
  cases hc : w.coherenceJob.get request with
  | none =>
    refine hidle hget fun c hc' => ?_
    rw [hc] at hc'
    cases hc'
  | some c =>
    have hrest : Wp (if c.metadata.deletionTimestamp.isSome then finalize env c else addOrUpdate op env request c)
        (fun r u => w.Apart u ∧ ((∃ result, r = .ok result) → KeepsHash env request w u))
        (w.sent ⟨.get, .coherenceJob, request⟩) := by
      split
      · rename_i hdeleted
        refine Wp.mono (Q := fun _ u => w.Beside u) (keeps_finalize _ hget) fun r u hu => ⟨hu.1, fun _ c' hc' => ?_⟩
        obtain ⟨c₀, hc₀, hhash, hgen⟩ := hu.2 _ c' hc'
        have hsame : c₀ = c := Option.some.inj (hc₀.symm.trans hc)
        refine ⟨c₀, hc₀, hhash, ?_⟩
        rw [hgen, generationAfter, hsame, hdeleted, Bool.or_true, if_pos rfl]
      · rename_i hlive
        have hlive : c.metadata.deletionTimestamp.isSome = false := by simpa using hlive
        have hbefore : Before request w (w.sent ⟨.get, .coherenceJob, request⟩) := Before.refl.sent _
        have hapart := (h c hc hlocked hlive).of_before hbefore
        have hfound : (w.sent ⟨.get, .coherenceJob, request⟩).coherenceJob.get request = some c := hc
        refine Wp.mono (wp_addOrUpdate hfound hapart) fun r u hu => ⟨hget.1.trans hu.1, fun hr c' hc' => ?_⟩
        obtain ⟨hhash, hgen⟩ := hu.2 hr c' hc'
        refine ⟨c, hc, hhash, ?_⟩
        rw [hgen, generationAfter, hlocked, hlive]
        rfl
    exact hrest

end CoherenceJobReconciler

/-! ### Runs -/

/-- A reconcile of one of the two controllers that work for CoherenceJob resources. -/
inductive JobRequest where
  | coherenceJob (env : Env) (request : NamespacedName)
  | job (env : Env) (request : NamespacedName)

namespace JobRequest

/-- What comes of it. -/
def outcome (op : Operator) (w : World) : JobRequest → Except GoError Result × World
  | .coherenceJob env request => exec (CoherenceJobReconciler.reconcileDeployment op env request) w
  | .job env request => exec (JobReconciler.reconcile op env request) w

/-- The state after it. -/
def step (op : Operator) (w : World) (r : JobRequest) : World := (r.outcome op w).2

/-- If it is a reconcile of a CoherenceJob and ends normally, the hash in the status of that is its generation. -/
def HasOwnHash (op : Operator) (w : World) : JobRequest → Prop
  | .coherenceJob env request => (∃ result, ((JobRequest.coherenceJob env request).outcome op w).1 = .ok result) →
    ∀ c, (step op w (.coherenceJob env request)).coherenceJob.get request = some c → c.status.hash = toString c.generation
  | .job _ _ => True

/-- A CoherenceJob has the hash of the generation it will have, and neither it nor a Job leads to a Coherence resource. -/
def IsApart (op : Operator) (w : World) : JobRequest → Prop
  | .coherenceJob env request => ∀ c, w.coherenceJob.get request = some c →
    c.status.hash = toString (CoherenceJobReconciler.generationAfter env c) ∧
      (env.locked = false → c.metadata.deletionTimestamp.isSome = false → CoherenceJobReconciler.IsApart op request w c)
  | .job env request => env.locked = false → (stored request w).isJob request = true → ∀ j, w.job request = some j →
    j.metadata.deletionTimestamp.isSome = false → JobReconciler.IsApart request w j

variable {r : JobRequest}

theorem apart_step (h : r.IsApart op w) : w.Apart (step op w r) := by
  cases r with
  | coherenceJob env request =>
    exact (CoherenceJobReconciler.wp_reconcileDeployment fun c hc => (h c hc).2).1
  | job env request => exact (JobReconciler.beside_reconcile h).1

theorem hasOwnHash (h : r.IsApart op w) : r.HasOwnHash op w := by
  cases r with
  | job => trivial
  | coherenceJob env request =>
    intro hok c' hc'
    have hkeeps := (CoherenceJobReconciler.wp_reconcileDeployment fun c hc => (h c hc).2).2
    obtain ⟨c, hc, hhash, hgeneration⟩ := hkeeps hok c' hc'
    rw [hhash, hgeneration]
    exact (h c hc).1

end JobRequest

open JobRequest

/-- In every run of the two controllers the Coherence resources are left alone, and a CoherenceJob that was reconciled has its
hash. -/
def KindsAreSeparate (op : Operator) (w : World) (rs : List JobRequest) : Prop :=
  Always (JobRequest.step op) w.Apart w rs ∧ Along (JobRequest.step op) (fun u r => r.HasOwnHash op u) w rs

/-- **The two kinds are separate** in a run whose reconciles find nothing of a Coherence resource under the names they go by, and
the hash in the status of the CoherenceJob. -/
theorem kindsAreSeparate {rs : List JobRequest} (h : Along (JobRequest.step op) (fun u r => r.IsApart op u) w rs) :
    KindsAreSeparate op w rs := by
  refine ⟨h.always (fun u r hu hr => hu.trans (apart_step hr)) .refl, ?_⟩
  exact h.mono_of_invariant (I := fun _ => True) (fun _ _ _ _ => trivial) (fun _ _ _ hr => hasOwnHash hr) trivial

/-- A Coherence resource. -/
def namesake : Coherence where
  metadata := { ns := "default", name := "storage" }

/-- A CoherenceJob of the same name. -/
def namesakeJob : CoherenceJob where
  metadata := { ns := "default", name := "storage" }
  spec := { replicas := some 1 }

/-- A cluster with both. -/
def namesakeCluster : World :=
  { (default : World) with
    coherence := Table.empty.put namesake
    coherenceJob := Table.empty.put namesakeJob }

/-- The Coherence resource gets the hash of the CoherenceJob. -/
theorem not_forall_kindsAreSeparate : ¬ ∀ (op : Operator) (w : World) (rs : List JobRequest), KindsAreSeparate op w rs := by
  intro h
  obtain ⟨halways, -⟩ := h default namesakeCluster [.coherenceJob {} ⟨"default", "storage"⟩]
  have hsame := (halways 1).coherence
  have hhash : ((run (JobRequest.step default) namesakeCluster
      ([.coherenceJob {} ⟨"default", "storage"⟩].take 1)).coherence.get ⟨"default", "storage"⟩).map (·.status.hash) = some "1" := by
    decide +kernel
  rw [hsame] at hhash
  exact absurd hhash (by decide)

/-- A CoherenceJob of another name, with its hash. -/
def loaderJob : CoherenceJob :=
  { namesakeJob with
    metadata := { ns := "default", name := "loader" }
    status := { hash := "1" } }

/-- A cluster with the Coherence resource, and the CoherenceJob of the other name. -/
def loaderCluster : World :=
  { (default : World) with
    coherence := Table.empty.put namesake
    coherenceJob := Table.empty.put loaderJob }

/-- Both controllers are run for it. -/
theorem kindsAreSeparate_loader :
    KindsAreSeparate default loaderCluster [.coherenceJob {} ⟨"default", "loader"⟩, .job {} ⟨"default", "loader"⟩] := by
  refine kindsAreSeparate ⟨?_, ?_, trivial⟩
  · intro c hc
    have hc' : loaderCluster.coherenceJob.get ⟨"default", "loader"⟩ = some loaderJob := by decide
    obtain rfl : loaderJob = c := Option.some.inj (hc'.symm.trans hc)
    refine ⟨by decide, fun _ _ => .inl ⟨by decide, fun r hr => ?_⟩⟩
    cases hr
  · intro _ _ j hj _
    set u := JobRequest.step default loaderCluster (.coherenceJob {} ⟨"default", "loader"⟩) with hu
    have howner : ∀ owner, j.metadata.coherenceOwner = some owner → owner.kind = .coherenceJob := by
      have hall : (u.job ⟨"default", "loader"⟩).all fun j => j.metadata.coherenceOwner.all (·.kind = .coherenceJob) := by
        rw [hu]
        decide +kernel
      rw [hj] at hall
      intro owner howner
      simpa [howner] using hall
    have hunflagged : JobReconciler.IsUnflagged ⟨"default", "loader"⟩ u := by
      have hnone : u.coherence.get ⟨"default", "loader"⟩ = none := by
        rw [hu]
        decide +kernel
      intro c hc
      rw [hnone] at hc
      cases hc
    refine ⟨fun owner ho => ?_, fun _ _ _ => hunflagged⟩
    rw [World.pointer, howner owner ho]
    trivial

end CoherenceOperator
