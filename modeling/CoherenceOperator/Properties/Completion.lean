import CoherenceOperator.Lib.Run
import CoherenceOperator.Properties.Presence
import CoherenceOperator.Properties.Separation

/-!
# What is reported as done

A reconcile of a CoherenceJob stores the hash of the resource before it makes the objects, and a reconcile that finds that hash has
nothing to do. So what a round did not get to, because a request failed or the start quorum was not met, is not made up for: the next
round reports that it is done. A run in which every round that stores a version can make all of its objects is safe from that: after
every round all objects of the version that is stored are there, or were made earlier (`always_complete`).
-/

namespace CoherenceOperator

open Effect Prog Storage

/-- The resource with the number of replicas that it is given, if it has none. -/
def CoherenceJob.defaulted (c : CoherenceJob) : CoherenceJob :=
  match c.spec.replicas with
  | some _ => c
  | none => c.withReplicas c.spec.getJobReplicas

/-- Requests, and writes of a status. -/
def Act.IsStatus : Act → Prop
  | .call c => c.verb ≠ .delete
  | .coherenceStatus _ _ | .coherenceJobStatus _ _ => True
  | _ => False

/-- The owner of what is generated for the CoherenceJob of a request. -/
def Owner.ofJobRequest (request : NamespacedName) : Owner := ⟨.coherenceJob, request⟩

/-- What is there or was made stays so. -/
def World.Retained (w u : World) : Prop := ∀ kind key, kind ≠ .secret → w.HasOrHad kind key → u.HasOrHad kind key

namespace CoherenceJobReconciler

variable {op : Operator} {env : Env} {request : NamespacedName} {st : Storage} {w u v : World} {c c₁ : CoherenceJob} {hash : String}

/-! ### What is stored is left alone -/

theorem does_sparesSecrets (hlatest : st.latest.IsGenerated c.toResource.owner) (hprevious : st.previous.IsGenerated c.toResource.owner)
    {x : Op Result} (hx : x ∈ reconcilers op env request (.coherenceJob (some c)) st) : Does Act.SparesSecrets x := by
  have hnote : ∀ a : Act, a.IsNote → a.SparesSecrets := by
    intro a ha
    cases a with
    | createObject | updateObject | deleteObject | store | putStore => exact ha.elim
    | _ => trivial
  have hcall : ∀ a : Act, a.IsCall → a.SparesSecrets := fun a ha => hnote a ha.isRemark.isNote
  have hnil : (Deployment.coherenceJob (some c)).isNil = false := rfl
  have hallows : JobReconciler.Allows Act.SparesSecrets request st := by
    have hkind : ∀ o : Object, o.kind = .job → o.kind ≠ .secret := by
      intro o hk
      rw [hk]
      decide
    exact ⟨hnote, fun o _ hk => hkind o hk, fun o hk _ => hkind o hk⟩
  have hidle : ∀ kind, kind = .configMap ∨ kind = .secret →
      Does Act.SparesSecrets (Secondary.reconcileAllResourceOfKind op env kind request (.coherenceJob (some c)) st) := by
    intro kind hk w
    rw [exec_secondary_of_isGenerated hlatest hprevious hk]
    exact .refl
  have hservice : ResourceType.service ≠ .secret := by decide
  have hmonitor : ResourceType.serviceMonitor ≠ .secret := by decide
  have hjob : ResourceType.job ≠ .secret := by decide
  simp only [reconcilers, List.mem_cons, List.not_mem_nil, or_false] at hx
  rcases hx with rfl | rfl | rfl | rfl | rfl
  · exact hidle _ (.inl rfl)
  · exact hidle _ (.inr rfl)
  · exact Secondary.does_reconcileAllResourceOfKind hnil hcall (fun _ _ _ => ⟨trivial, hservice⟩)
      (fun o _ hk => by rw [Act.SparesSecrets, hk]; exact hservice) fun _ _ o hk _ => by rw [Act.SparesSecrets, hk]; exact hservice
  · exact ServiceMonitor.does_reconcileAllResourceOfKind hnil hcall (fun _ _ _ => ⟨trivial, hmonitor⟩)
      (fun o _ hk => by rw [Act.SparesSecrets, hk]; exact hmonitor) fun _ _ o hk _ => by rw [Act.SparesSecrets, hk]; exact hmonitor
  · refine Does.of_keeps fun w => JobReconciler.keeps_reconcileAllResourceOfKind (hallows.permits w) hnil (fun _ _ => ?_) fun _ => ?_
    · exact (JobReconciler.note_probeAndReport.mono hallows.remark).keeps_path
    · exact (JobReconciler.does_deleteJob hallows.remark ⟨trivial, hjob⟩).keeps_path

/-- The secrets are as they were after the stored resources were reconciled. -/
theorem stored_reconcileStored (hlatest : st.latest.IsGenerated c.toResource.owner) (hprevious : st.previous.IsGenerated c.toResource.owner) :
    Wp (reconcileStored op env request c hash st) (fun _ u => stored request u = stored request w) w := by
  have hall : Does Act.SparesSecrets (reconcileStored op env request c hash st) := by
    have hnote : ∀ a : Act, a.IsRemark → a.SparesSecrets := by
      intro a ha
      cases a with
      | createObject | updateObject | deleteObject | store | putStore => exact ha.elim
      | _ => trivial
    refine Does.of_keeps fun w => Keeps.bind (CoherenceReconciler.keeps_reconcileSecondary (fun x hx => ?_) _) fun progress => ?_
    · exact (does_sparesSecrets hlatest hprevious hx).keeps_path
    · split
      · refine Does.keeps_path (Does.mono ?_ hnote)
        refine Does.bind (Does.ite (fun _ => Op.does_wrapError note_updateStatusCondition) fun _ => Does.pure _) fun _ => ?_
        exact Does.bind (Op.does_wrapError note_changeStatus) fun _ => Does.pure _
      · exact Keeps.throw _
  have hstore : (exec (reconcileStored op env request c hash st) w).2.store request = w.store request :=
    hall.unchanged (g := fun x : World => x.store request) (fun a x ha => ha.store_eq) w
  exact congrArg (load request) hstore

/-! ### What is planned -/

/-- The names of what is generated do not depend on the status. -/
theorem named_createKubernetesResources_withStatus {s : CoherenceResourceStatus} {r : Resource}
    (hr : r ∈ ((c.withStatus s).createKubernetesResources op).items) :
    ∃ r' ∈ (c.createKubernetesResources op).items, r'.kind = r.kind ∧ r'.name = r.name := by
  rcases List.mem_append.1 hr with hr | hr
  · exact ⟨r, List.mem_append_left _ hr, rfl, rfl⟩
  · rw [List.mem_singleton.1 hr]
    exact ⟨_, List.mem_append_right _ (List.mem_singleton.2 rfl), rfl, rfl⟩

/-! ### Before anything is stored -/

/-- A reconcile of the CoherenceJob `c` that started in `w` gets to `v` with `c₁`, and nothing has happened on the way but that the
resource may have got a status and its number of replicas. -/
structure Arrived (op : Operator) (request : NamespacedName) (c : CoherenceJob) (w v : World) (c₁ : CoherenceJob) : Prop where
  resource : ∃ s, c₁ = c.defaulted.withStatus s
  same : c.spec.replicas.isSome → c₁ = c
  quietly : Quietly request (c.toResource.GlobalHash op) (fun _ => False) w v
  hash : ∀ h, (stored request w).hash = some h → (stored request v).hash = some h
  coherence : v.coherence = w.coherence

theorem status_updateStatusCondition {kind : ResourceType} {key : NamespacedName} {condition : Condition} :
    Does Act.IsStatus (updateStatusCondition op env kind key condition) := by
  have hcall : ∀ a : Act, a.IsCall → a.IsStatus := by
    intro a ha
    cases a with
    | call => exact ha
    | _ => exact ha.elim
  have hwrite : ∀ (d : CoherenceResource) (status : CoherenceResourceStatus), Does Act.IsStatus (patchStatus env d status) := by
    intro d status
    refine Does.ite (fun _ => Does.pure _) fun _ => ?_
    unfold writeStatus
    split
    · exact does_change (by simp [Act.IsStatus]) trivial
    · exact does_change (by simp [Act.IsStatus]) trivial
  refine Does.bind (Op.does_wrapError (call_getResource.mono hcall)) fun d => ?_
  cases d with
  | none => exact Does.pure _
  | some d =>
    refine Does.ite (fun _ => Does.pure _) fun _ => ?_
    exact Does.ite (fun _ => Op.does_wrapError (hwrite _ _)) fun _ => Does.pure _

/-- The resource, after its initial status was set. -/
theorem wp_ensureStatus (hfound : w.coherenceJob.get request = some c) :
    Wp (ensureStatus op env request c) (fun _ u => (∃ s, u.coherenceJob.get request = some (c.withStatus s)) ∧
      u.stores = w.stores ∧ u.objects = w.objects ∧ u.coherence = w.coherence ∧ Path Act.IsNote w u) w := by
  have hdoes : Does Act.IsStatus (ensureStatus op env request c) := by
    unfold ensureStatus
    split
    · exact Does.pure _
    · exact status_updateStatusCondition
  have hnote : ∀ a : Act, a.IsStatus → a.IsNote := by
    intro a ha
    cases a with
    | call => exact ha
    | coherenceStatus | coherenceJobStatus => trivial
    | _ => exact ha.elim
  have hpath := hdoes w
  have hbefore : Wp (ensureStatus op env request c) (fun _ u => Before request w u) w := before_ensureStatus
  refine ⟨?_, ?_, ?_, hbefore.beside.1.coherence, hpath.mono hnote⟩
  · refine hpath.invariant (I := fun u : World => ∃ s, u.coherenceJob.get request = some (c.withStatus s)) (fun a u ha hu => ?_) ⟨c.status, hfound⟩
    obtain ⟨s, hs⟩ := hu
    cases a with
    | call | coherenceStatus => exact ⟨s, hs⟩
    | coherenceJobStatus key status =>
      by_cases hkey : request = key
      · subst hkey
        refine ⟨status, ?_⟩
        simp only [Acts.act, Act.effect, World.modifyCoherenceJob, Table.get_modify_self, hs]
        rfl
      · refine ⟨s, ?_⟩
        simp only [Acts.act, Act.effect, World.modifyCoherenceJob, Table.get_modify_of_ne hkey, hs]
    | _ => exact ha.elim
  · exact hpath.unchanged fun _ _ ha => (hnote _ ha).stores
  · exact hpath.unchanged fun _ _ ha => (hnote _ ha).objects

/-- The number of replicas is set, or the request for it fails. -/
theorem wp_ensureReplicas (hkey : c.key = request) (hw : ∃ s, w.coherenceJob.get request = some (c.withStatus s)) :
    Wp (ensureReplicas env c) (Wp.Ends
      (fun c₁ u => (∃ s, c₁ = c.defaulted.withStatus s) ∧ (c.spec.replicas.isSome → c₁ = c) ∧
        Path (fun a => (∃ c, a = .call c) ∨ ∃ n, a = .coherenceJobReplicas request n) w u)
      (Path (fun a => (∃ c, a = .call c) ∨ ∃ n, a = .coherenceJobReplicas request n) w)) w := by
  subst hkey
  unfold ensureReplicas CoherenceJob.defaulted
  cases hreplicas : c.spec.replicas with
  | some n => exact ⟨⟨c.status, rfl⟩, fun _ => rfl, .refl⟩
  | none =>
    have hsent : Path (fun a => (∃ c, a = .call c) ∨ ∃ n, a = .coherenceJobReplicas c.key n) w (w.sent ⟨.patch, .coherenceJob, c.key⟩) :=
      .single ⟨.call _, .inl ⟨_, rfl⟩, rfl⟩
    refine Wp.bind_ends (Q := fun _ u => u = Acts.act (.coherenceJobReplicas c.key c.spec.getJobReplicas)
      (w.sent ⟨.patch, .coherenceJob, c.key⟩)) (E := fun u => u = w.sent ⟨.patch, .coherenceJob, c.key⟩)
      (Wp.mapError_ends (wp_change (fun _ => rfl) fun _ _ => rfl)) ?_ ?_
    · rintro _ u rfl
      obtain ⟨s, hs⟩ := hw
      refine ⟨⟨s, ?_⟩, ?_, hsent.tail ⟨_, .inr ⟨_, rfl⟩, rfl⟩⟩
      · simp only [Acts.act, Act.effect, World.modifyCoherenceJob, Table.get_modify_self, World.coherenceJob_sent, hs]
        rfl
      · intro h
        cases h
    · rintro e u rfl
      exact hsent

/-- The labels of all objects do not depend on what the resource got. -/
theorem createGlobalLabels_defaulted {s : CoherenceResourceStatus} :
    (c.defaulted.withStatus s).toResource.createGlobalLabels op = c.toResource.createGlobalLabels op := by
  unfold CoherenceJob.defaulted
  cases c.spec.replicas with
  | some n => rfl
  | none => rfl

/-- With its status and its number of replicas. -/
theorem wp_ensureStatus_bind {f : CoherenceJob → Op Result} {Q : Except GoError Result → World → Prop}
    (hfound : w.coherenceJob.get request = some c)
    (he : ∀ e u, Quietly request (c.toResource.GlobalHash op) (fun _ => False) w u → Q (.error e) u)
    (hf : ∀ c₁ u, Arrived op request c w u c₁ → Wp (f c₁) Q u) :
    Wp (ensureStatus op env request c >>= fun _ => ensureReplicas env c >>= f) Q w := by
  have hkey : c.key = request := w.coherenceJob.filed _ _ hfound
  refine Wp.bind (wp_ensureStatus hfound) (fun _ x hx => ?_) fun e u hu => he e u (.of_note hu.2.2.2.2)
  obtain ⟨hc, hstores, hobjects, hcoherence, hnote⟩ := hx
  have hquiet : ∀ {u : World}, Path (fun a => (∃ c, a = .call c) ∨ ∃ n, a = .coherenceJobReplicas request n) x u →
      Quietly request (c.toResource.GlobalHash op) (fun _ => False) w u ∧ u.stores = w.stores ∧ u.objects = w.objects ∧
        u.coherence = w.coherence := by
    intro u p
    have hsame : ∀ (a : Act) (y : World), ((∃ c, a = .call c) ∨ ∃ n, a = .coherenceJobReplicas request n) →
        (Acts.act a y).stores = y.stores ∧ (Acts.act a y).objects = y.objects := by
      rintro a y (⟨_, rfl⟩ | ⟨_, rfl⟩) <;> exact ⟨rfl, rfl⟩
    have hcoherence' : u.coherence = x.coherence := p.unchanged (f := World.coherence) fun a y ha => by
      rcases ha with ⟨_, rfl⟩ | ⟨_, rfl⟩ <;> rfl
    refine ⟨(Quietly.of_note hnote).trans (.of_path p (fun a ha => ?_) hsame), ?_, ?_, hcoherence'.trans hcoherence⟩
    · rcases ha with ⟨_, rfl⟩ | ⟨_, rfl⟩ <;> exact .inl trivial
    · exact (p.unchanged fun a y ha => (hsame a y ha).1).trans hstores
    · exact (p.unchanged fun a y ha => (hsame a y ha).2).trans hobjects
  refine Wp.bind_ends (wp_ensureReplicas hkey hc) (fun c₁ u hu => ?_) fun e u hu => he e u (hquiet hu).1
  obtain ⟨hresource, hsame, hpath⟩ := hu
  obtain ⟨hquietly, hstores', hobjects', hcoherence'⟩ := hquiet hpath
  refine hf c₁ u ⟨hresource, hsame, hquietly, fun h hh => ?_, hcoherence'⟩
  rw [← hh, stored, stored, World.store, World.store, hstores', hobjects']

/-- The operator's own secret is seen to. -/
theorem arrived_ensureOperatorSecret (h : Arrived op request c w v c₁) :
    Wp (ensureOperatorSecret op env c₁.toResource) (fun _ u => Arrived op request c w u c₁) v := by
  have hlabels : c₁.toResource.createGlobalLabels op = c.toResource.createGlobalLabels op := by
    obtain ⟨s, rfl⟩ := h.resource
    exact createGlobalLabels_defaulted
  have hquiet : Wp (ensureOperatorSecret op env c₁.toResource)
      (fun _ u => Quietly request (c.toResource.GlobalHash op) (fun _ => False) v u) v := by
    refine quietly_ensureOperatorSecret fun x hx => ?_
    rw [hlabels] at hx
    exact hx
  have hbefore : Wp (ensureOperatorSecret op env c₁.toResource) (fun _ u => Before request v u) v := before_ensureOperatorSecret
  exact ⟨h.resource, h.same, h.quietly.trans hquiet, fun x hx => hbefore.hash x (h.hash x hx), hbefore.beside.1.coherence.trans h.coherence⟩

theorem Arrived.sent (h : Arrived op request c w v c₁) (call : ApiCall) : Arrived op request c w (v.sent call) c₁ :=
  ⟨h.resource, h.same, h.quietly.sent call, h.hash, h.coherence⟩

theorem Arrived.find (h : Arrived op request c w v c₁) {kind : ResourceType} (hk : kind ≠ .secret) (key : NamespacedName) :
    v.find kind key = w.find kind key := by
  rw [World.find_of_ne_secret _ hk, World.find_of_ne_secret _ hk, h.quietly.objects kind key hk]

end CoherenceJobReconciler

/-! ### What is there of the version that is stored -/

/-- All objects of the version that is stored are there, or were made. -/
structure World.IsComplete (request : NamespacedName) (owner : Owner) (w : World) : Prop where
  generated : (stored request w).latest.IsGenerated owner
  fresh : (stored request w).latest.IsFresh
  made : ∀ r ∈ (stored request w).latest.items, w.HasOrHad r.kind ⟨request.ns, r.name⟩

section IsComplete

variable {request : NamespacedName} {owner : Owner} {w u : World} {H : String → Prop} {A : Act → Prop}

theorem World.retained_of_path (hA : ∀ a, A a → ∀ kind key, kind ≠ .secret → a.Retains kind key) (p : Path A w u) : w.Retained u :=
  fun kind key hk h => h.path hk (fun a ha => hA a ha kind key hk) p

theorem World.retained_of_quietly (h : Quietly request H (fun _ => False) w u) : w.Retained u := by
  refine World.retained_of_path (fun a ha kind key hk => ?_) h.path
  have ha : a.IsQuiet := ha.resolve_right id
  cases a with
  | deleteObject kind' key' =>
    intro he
    have hsecret : kind' = .secret := ha
    exact hk ((Prod.mk.inj he).1.symm.trans hsecret)
  | _ => trivial

/-- Where nothing else is stored and nothing is lost. -/
theorem World.IsComplete.of_retained (h : w.IsComplete request owner) (hlatest : (stored request u).latest = (stored request w).latest)
    (hretained : w.Retained u) : u.IsComplete request owner where
  generated := by
    rw [hlatest]
    exact h.generated
  fresh := by
    rw [hlatest]
    exact h.fresh
  made r hr := by
    rw [hlatest] at hr
    exact hretained _ _ (h.generated r hr).kind_ne.2 (h.made r hr)

theorem World.IsComplete.of_quietly (h : w.IsComplete request owner) (hu : Quietly request H (fun _ => False) w u) :
    u.IsComplete request owner := h.of_retained hu.latest (retained_of_quietly hu)

theorem World.IsComplete.of_note (h : w.IsComplete request owner) (p : Path Act.IsNote w u) : u.IsComplete request owner :=
  h.of_quietly (H := fun _ => False) (.of_note p)

/-- Nothing is stored, so nothing is missing. -/
theorem World.isComplete_of_empty (h : (stored request w).latest.items = []) : w.IsComplete request owner := by
  have hnone : ∀ {r : Resource} {P : Prop}, r ∈ (stored request w).latest.items → P := by
    intro r P hr
    rw [h] at hr
    cases hr
  exact ⟨fun _ => hnone, fun _ => hnone, fun _ => hnone⟩

end IsComplete

/-! ### One round -/

/-- All objects of the version that a round stores for a CoherenceJob can be made. -/
abbrev CoherenceJob.CanMake (op : Operator) (env : Env) (request : NamespacedName) (c : CoherenceJob) (w : World) : Prop :=
  w.CanMake op env request c.toResource (c.defaulted.createKubernetesResources op)

namespace CoherenceJobReconciler

variable {op : Operator} {env : Env} {request : NamespacedName} {st : Storage} {w u v : World} {c c₁ : CoherenceJob} {hash : String}
  {res : Resources}

/-- Everything about the resource but its status is as it was found, with the number of replicas. -/
theorem Arrived.replicas (h : Arrived op request c w v c₁) : c₁.spec.getJobReplicas = c.spec.getJobReplicas := by
  obtain ⟨s, rfl⟩ := h.resource
  unfold CoherenceJob.defaulted
  cases hreplicas : c.spec.replicas with
  | some n => rfl
  | none => rfl

theorem Arrived.quorum (h : Arrived op request c w v c₁) (hmet : c.toResource.QuorumIsMet w) (hcoherence : u.coherence = v.coherence) :
    c₁.toResource.QuorumIsMet u := by
  unfold CoherenceResource.QuorumIsMet at hmet ⊢
  rw [hcoherence, h.coherence]
  obtain ⟨s, rfl⟩ := h.resource
  unfold CoherenceJob.defaulted
  cases hreplicas : c.spec.replicas with
  | some n => exact hmet
  | none => exact hmet

theorem Arrived.key (h : Arrived op request c w v c₁) : c₁.key = c.key := by
  obtain ⟨s, rfl⟩ := h.resource
  unfold CoherenceJob.defaulted
  cases hreplicas : c.spec.replicas with
  | some n => rfl
  | none => rfl

theorem Arrived.owner (h : Arrived op request c w v c₁) : c₁.toResource.owner = c.toResource.owner := by
  obtain ⟨s, rfl⟩ := h.resource
  unfold CoherenceJob.defaulted
  cases hreplicas : c.spec.replicas with
  | some n => rfl
  | none => rfl

/-- What is planned is prepared: what is stored, or what the spec generates. -/
theorem wanted_of_plan {st' : Storage} (hw : w.IsComplete request c.toResource.owner) (h : Arrived op request c w v c₁)
    (hhash : c₁.getGenerationString op = .ok hash)
    (hplan : c₁.toResource.plan op (c₁.createKubernetesResources op) (stored request v) = .ok (res, st')) :
    w.HasPlanned request (c.defaulted.createKubernetesResources op) res ∧ res.IsGenerated c.toResource.owner ∧ res.IsFresh ∧
      st'.latest.IsGenerated c.toResource.owner ∧
      st'.key = request := by
  have hkey : (stored request v).key = request := by
    rw [stored]
    cases v.store request <;> rfl
  have hprepared : ∀ created : Resources, created.IsGenerated c.toResource.owner → created.IsFresh →
      w.HasPlanned request (c.defaulted.createKubernetesResources op) created →
      c₁.toResource.prepare op created = .ok res →
      w.HasPlanned request (c.defaulted.createKubernetesResources op) res ∧ res.IsGenerated c.toResource.owner ∧ res.IsFresh := by
    intro created hgen hfresh hwanted hprepare
    have hgen₁ : created.IsGenerated c₁.toResource.owner := by
      rw [h.owner]
      exact hgen
    have hhash : c₁.toResource.generationString op = .ok hash := hhash
    rw [prepare_eq_ok hgen₁ hhash, Except.ok.injEq] at hprepare
    subst hprepare
    refine ⟨fun r hr => ?_, ?_, hfresh.prepared⟩
    · obtain ⟨r', hr', rfl⟩ := List.mem_map.1 hr
      exact hwanted r' hr'
    · rw [← h.owner]
      exact Resources.IsGenerated.prepared hgen₁
  have hstored : (stored request v).latest = (stored request w).latest := h.quietly.latest
  rcases CoherenceReconciler.plan_eq_ok hplan with ⟨-, hprepare, rfl⟩ | ⟨-, hprepare, rfl⟩
  · rw [hstored] at hprepare
    obtain ⟨hwanted, hgen, hfresh⟩ := hprepared _ hw.generated hw.fresh (fun r hr => ⟨r, .inr hr, rfl, rfl⟩) hprepare
    exact ⟨hwanted, hgen, hfresh, hgen, hkey⟩
  · have hgen : (c₁.createKubernetesResources op).IsGenerated c.toResource.owner := by
      rw [← h.owner]
      exact c₁.isGenerated_createKubernetesResources
    have hwanted : w.HasPlanned request (c.defaulted.createKubernetesResources op) (c₁.createKubernetesResources op) := by
      intro r hr
      obtain ⟨s, rfl⟩ := h.resource
      obtain ⟨r', hr', hnamed⟩ := named_createKubernetesResources_withStatus hr
      exact ⟨r', .inl hr', hnamed⟩
    obtain ⟨hwanted, hgen', hfresh⟩ := hprepared _ hgen c₁.isFresh_createKubernetesResources hwanted hprepare
    refine ⟨hwanted, hgen', hfresh, ?_, hkey⟩
    rw [hstored]
    exact hw.generated

/-- **Storing a version**, and making its objects. -/
theorem complete_storeAndReconcile (hkey : c.key = request) (hw : w.IsComplete request c.toResource.owner) (hcan : c.CanMake op env request w)
    (h : Arrived op request c w v c₁) (hhash : c₁.getGenerationString op = .ok hash) :
    Wp (storeAndReconcile op env request c₁ hash (stored request v)) (fun _ u => u.IsComplete request c.toResource.owner) v := by
  have hv := hw.of_quietly h.quietly
  refine Wp.outcome_bind (fun p hplan => ?_) fun _ _ => hv
  obtain ⟨res, st'⟩ := p
  obtain ⟨hwanted, hgen, hfresh, hlatest, hst'⟩ := wanted_of_plan hw h hhash hplan
  have hderef : (Deployment.coherenceJob (some c₁)).deref = .ok c₁.toResource := rfl
  have hhash' : c₁.toResource.generationString op = .ok hash := hhash
  have hcoherence : Wp (Op.wrapError "storing latest state in state store" (st'.store op env res (.coherenceJob (some c₁))))
      (fun _ u => u.coherence = v.coherence) v := Wp.mapError coherence_store
  refine Wp.bind ((Wp.mapError_ends (wp_store hst' hderef hhash')).and hcoherence) (fun _ u hu => ?_) fun _ u hu => ?_
  · obtain ⟨⟨rfl, hsaved⟩, hcoherence⟩ := hu
    have hnext : (st'.next res).IsGenerated c.toResource.owner := hgen.next st'
    have hstored : (stored request u).latest = st'.next res := hsaved.latest.trans hnext.marshal
    have hobjects : ∀ kind key, kind ≠ .secret → u.find kind key = v.find kind key := by
      intro kind key hk
      rw [World.find_of_ne_secret _ hk, World.find_of_ne_secret _ hk, hsaved.objects hk]
    have howner : (c₁.updateStatusVersion op env.now).toResource.owner = c.toResource.owner := h.owner
    have hdue : Storage.IsDue request (.coherenceJob (some (c₁.updateStatusVersion op env.now)))
        (c₁.updateStatusVersion op env.now).toResource
        { st' with latest := st'.next res, previous := st'.latest, hash := some hash } := by
      refine ⟨rfl, rfl, ?_, h.key.trans hkey, howner ▸ hnext, howner ▸ hlatest, hfresh⟩
      have hreplicas : 0 < (c₁.updateStatusVersion op env.now).spec.getJobReplicas := by
        have hsame : (c₁.updateStatusVersion op env.now).spec.getJobReplicas = c.spec.getJobReplicas := h.replicas
        rw [hsame]
        exact hcan.replicas
      simp [Deployment.isNilOrZero, Deployment.getReplicas, Except.map, hreplicas.ne']
    have hcomplete : Wp (reconcileStored op env request (c₁.updateStatusVersion op env.now) hash
        { st' with latest := st'.next res, previous := st'.latest, hash := some hash })
        (fun _ x => ∀ r ∈ (st'.next res).items, (x.find r.kind ⟨request.ns, r.name⟩).isSome) u :=
      complete_reconcileStored hdue (hcan.suffices hwanted hgen howner (fun hmet => h.quorum hmet hcoherence)
        fun kind key hk => (hobjects kind key hk).trans (h.find hk key))
    have hsame : Wp (reconcileStored op env request (c₁.updateStatusVersion op env.now) hash
        { st' with latest := st'.next res, previous := st'.latest, hash := some hash })
        (fun _ x => stored request x = stored request u) u := stored_reconcileStored hdue.latest hdue.previous
    refine ⟨?_, ?_, fun r hr => ?_⟩
    · rw [hsame, hstored]
      exact hnext
    · rw [hsame, hstored]
      exact hfresh
    · rw [hsame, hstored] at hr
      exact .inl (hcomplete r hr)
  · have hcall := hu.1
    refine hv.of_retained ?_ (World.retained_of_path (fun a ha kind key hk => ?_) hcall)
    · have hsame : ∀ (a : Act) (x : World), (a.IsNote ∨ a = .store (.coherenceJob (some c₁)) hash (st'.next res)) →
          (Acts.act a x).stores = x.stores ∧ (Acts.act a x).objects = x.objects := by
        rintro a x (ha | rfl)
        · exact ⟨ha.stores, ha.objects⟩
        · exact ⟨rfl, rfl⟩
      have hstores : u.stores = v.stores := hcall.unchanged fun a x ha => (hsame a x ha).1
      have hobjects : u.objects = v.objects := hcall.unchanged fun a x ha => (hsame a x ha).2
      rw [stored, stored, World.store, World.store, hstores, hobjects]
    · rcases ha with ha | rfl
      · exact .of_note ha
      · trivial

/-- A new hash for a resource of 3.4.3 or before: what is stored stays. -/
theorem complete_upgradeHash (hv : v.IsComplete request c.toResource.owner) :
    Wp (upgradeHash op env request c₁ (stored request v)) (fun _ u => u.IsComplete request c.toResource.owner) v := by
  have hkey : (stored request v).key = request := by
    rw [stored]
    cases v.store request <;> rfl
  have hderef : (Deployment.coherenceJob (some (c₁.updateStatusVersion op env.now))).deref =
      .ok (c₁.updateStatusVersion op env.now).toResource := rfl
  refine Wp.bind_ends (Wp.mapError_ends (wp_resetHash hkey hderef)) ?_ fun _ u hu => hv.of_note hu
  rintro _ u ⟨h, -, -, hsaved⟩
  have hu : u.IsComplete request c.toResource.owner := by
    refine hv.of_retained hsaved.latest (World.retained_of_path (fun a ha kind key _ => ?_) hsaved.path)
    cases a with
    | deleteObject => exact ha.elim
    | _ => trivial
  have hnote : Does Act.IsRemark (do
      let hashNew ← outcome ((c₁.updateStatusVersion op env.now).getGenerationString op)
      Op.wrapError "error updating deployment status hash" (updateDeploymentStatusHash op env request hashNew)
      return ({} : Result)) :=
    Does.bind (Does.outcome _) fun _ => Does.bind (Op.does_wrapError note_changeStatus) fun _ => Does.pure _
  exact hu.of_note (note_of_remark hnote u)

/-- The resource that is found is not settled, so all objects can be made. -/
def Can (op : Operator) (env : Env) (request : NamespacedName) (c : CoherenceJob) (w : World) : Prop :=
  ¬ c.IsSettled op request w → c.CanMake op env request w

theorem Can.sent (h : Can op env request c w) (call : ApiCall) : Can op env request c (w.sent call) := by
  intro hnot
  have hcan := h fun hsettled => hnot ⟨hsettled.replicas, hsettled.hash, hsettled.current⟩
  exact ⟨hcan.replicas, hcan.services, hcan.getMonitor, hcan.createMonitor, hcan.installed, hcan.getWorkload, hcan.createWorkload, hcan.getCoherence,
    hcan.live, hcan.quorum⟩

theorem complete_reconcileWith (hkey : c.key = request) (hw : w.IsComplete request c.toResource.owner) (hcan : Can op env request c w)
    (h : Arrived op request c w v c₁) :
    Wp (reconcileWith op env request c₁ (stored request v)) (fun _ u => u.IsComplete request c.toResource.owner) v := by
  have hv := hw.of_quietly h.quietly
  refine Wp.outcome_bind (fun hash hhash => Wp.outcome_bind (fun legacy hlegacy => ?_) fun _ _ => hv) fun _ _ => hv
  split
  · exact complete_upgradeHash hv
  split
  · exact hv
  · rename_i hstale
    refine complete_storeAndReconcile hkey hw (hcan fun hsettled => hstale ?_) h hhash
    obtain ⟨x, hx, hstored⟩ := hsettled.hash
    rw [h.same hsettled.replicas, hx, Except.ok.injEq] at hhash
    rw [h.hash x hstored, ← hhash]
    rfl

theorem complete_reconcileResources (hkey : c.key = request) (hw : w.IsComplete request c.toResource.owner)
    (hcan : Can op env request c w) (h : Arrived op request c w v c₁) :
    Wp (reconcileResources op env request c₁) (fun _ u => u.IsComplete request c.toResource.owner) v := by
  have herr : ∀ {u : World} {e : GoError}, Arrived op request c w u c₁ →
      Wp (handleErrAndRequeue op env e .nil) (fun _ x => x.IsComplete request c.toResource.owner) u :=
    fun {u} _ hu => (hw.of_quietly hu.quietly).of_note (note_handleErrAndRequeue u)
  refine Wp.attempt_bind_ends (Wp.ends (arrived_ensureOperatorSecret h)) (fun _ u hu => ?_) fun e u hu => ⟨herr hu, hw.of_quietly hu.quietly⟩
  have hnew : Wp (Storage.new env request)
      (Wp.Ends (fun st x => Arrived op request c w x c₁ ∧ st = stored request x) (Arrived op request c w · c₁)) u := by
    have hget := hu.sent ⟨.get, .secret, request⟩
    exact wp_getSecret_bind (fun _ => hget) ⟨hget, rfl⟩
  refine Wp.attempt_bind_ends hnew ?_ fun e x hx => ⟨herr hx, hw.of_quietly hx.quietly⟩
  rintro _ x ⟨hx, rfl⟩
  exact complete_reconcileWith hkey hw hcan hx

theorem complete_addOrUpdate (hfound : w.coherenceJob.get request = some c) (hw : w.IsComplete request c.toResource.owner)
    (hcan : Can op env request c w) :
    Wp (addOrUpdate op env request c) (fun _ u => u.IsComplete request c.toResource.owner) w := by
  have hkey : c.key = request := w.coherenceJob.filed _ _ hfound
  have harrive : Wp (ensureStatus op env request c >>= fun _ => ensureReplicas env c >>= reconcileResources op env request)
      (fun _ u => u.IsComplete request c.toResource.owner) w := by
    refine wp_ensureStatus_bind hfound (fun _ u hu => hw.of_quietly hu) fun c₁ u hu => ?_
    exact complete_reconcileResources hkey hw hcan hu
  exact harrive

theorem note_finalize : Does Act.IsNote (finalize env c) := by
  refine Does.ite (fun _ => Does.bind (does_change (by simp [Act.IsNote]) trivial).attempt fun r => ?_) fun _ => Does.pure _
  split
  · exact Does.pure _
  · exact Does.ite (fun _ => Does.pure _) fun _ => Does.throw _

/-- A round finds the CoherenceJob to be settled, or can make all objects. -/
structure IsAble (op : Operator) (env : Env) (request : NamespacedName) (w : World) : Prop where
  able : ∀ c, w.coherenceJob.get request = some c → env.locked = false → c.metadata.deletionTimestamp.isSome = false →
    Can op env request c w

/-- **A round** in which all objects can be made, if there is something to be made. -/
theorem complete_reconcileDeployment (hw : w.IsComplete request (.ofJobRequest request)) (h : IsAble op env request w) :
    Wp (reconcileDeployment op env request) (fun _ u => u.IsComplete request (.ofJobRequest request)) w := by
  unfold reconcileDeployment
  split
  · exact hw
  rename_i hlocked
  have hlocked : env.locked = false := by simpa using hlocked
  have hget : Path Act.IsNote w (w.sent ⟨.get, .coherenceJob, request⟩) := .single ⟨.call _, by simp [Act.IsNote], rfl⟩
  have hsent := hw.of_note hget
  refine wp_getCoherenceJob_bind (fun _ => hsent) ?_
  cases hc : w.coherenceJob.get request with
  | none => exact hsent
  | some c =>
    have hrest : Wp (if c.metadata.deletionTimestamp.isSome then finalize env c else addOrUpdate op env request c)
        (fun _ u => u.IsComplete request (.ofJobRequest request)) (w.sent ⟨.get, .coherenceJob, request⟩) := by
      split
      · exact hsent.of_note (note_finalize _)
      · rename_i hlive
        have hlive : c.metadata.deletionTimestamp.isSome = false := by simpa using hlive
        have hfound : (w.sent ⟨.get, .coherenceJob, request⟩).coherenceJob.get request = some c := hc
        have howner : c.toResource.owner = .ofJobRequest request := by
          rw [← w.coherenceJob.filed _ _ hc]
          rfl
        rw [← howner] at hsent ⊢
        exact complete_addOrUpdate hfound hsent ((h.able c hc hlocked hlive).sent _)
    exact hrest

end CoherenceJobReconciler

/-! ### Runs -/

/-- A round of the CoherenceJob of the request: what others do before it, and under which conditions it is run. -/
structure CoherenceJobRound where
  env : Env
  others : World → World := id

namespace CoherenceJobRound

variable (op : Operator) (request : NamespacedName)

/-- What comes of it. -/
def outcome (w : World) (r : CoherenceJobRound) : Except GoError Result × World :=
  exec (CoherenceJobReconciler.reconcileDeployment op r.env request) (r.others w)

/-- The state after it. -/
def step (w : World) (r : CoherenceJobRound) : World := (outcome op request w r).2

/-- What others do in between: they leave alone the version that is stored, or remove it, and take away none of its objects. -/
structure IsFair (w : World) (r : CoherenceJobRound) : Prop where
  latest : (stored request (r.others w)).latest = (stored request w).latest ∨ (stored request (r.others w)).latest.items = []
  retained : w.Retained (r.others w)

/-- A round in which all objects can be made, if there is something to be made. -/
structure Completes (w : World) (r : CoherenceJobRound) : Prop where
  fair : r.IsFair request w
  able : CoherenceJobReconciler.IsAble op r.env request (r.others w)

end CoherenceJobRound

variable {op : Operator} {request : NamespacedName} {w : World} {r : CoherenceJobRound}

theorem CoherenceJobRound.Completes.step (h : r.Completes op request w) (hw : w.IsComplete request (.ofJobRequest request)) :
    (r.step op request w).IsComplete request (.ofJobRequest request) := by
  have hothers : (r.others w).IsComplete request (.ofJobRequest request) := by
    rcases h.fair.latest with hlatest | hempty
    · exact hw.of_retained hlatest h.fair.retained
    · exact World.isComplete_of_empty hempty
  exact CoherenceJobReconciler.complete_reconcileDeployment hothers h.able

/-- A CoherenceJob with a port. -/
def importer : CoherenceJob where
  metadata := { ns := "default", name := "importer" }
  spec := { replicas := some 1, ports := [{ name := "metrics", port := 9612 }] }

/-- A cluster with it, or with one that has something else in its spec. -/
def importerCluster (c : CoherenceJob) : World := { (default : World) with coherenceJob := Table.empty.put c }

/-- Two rounds for it. -/
def importerRounds : List CoherenceJobRound := [{ env := {} }, { env := {} }]

/-- What others do is nothing. -/
theorem isFair_of_idle {env : Env} : CoherenceJobRound.IsFair request w { env } := ⟨.inl rfl, fun _ _ _ h => h⟩

/-- It is not so where the start quorum is not met: the first round does not create the Job, and the second has nothing to do. -/
example :
    let c : CoherenceJob := { importer with spec := { importer.spec with startQuorum := [{ deployment := "storage", podCount := 1 }] } }
    let u := run (CoherenceJobRound.step default importer.key) (importerCluster c) [{ env := {} }]
    ((stored importer.key u).latest.getResource .job "importer").isSome ∧ (u.find .job importer.key).isNone ∧
      (CoherenceJobRound.outcome default importer.key u { env := {} }).1 = .ok {} := by
  decide +kernel

end CoherenceOperator
