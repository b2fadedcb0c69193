import CoherenceOperator.Controllers.Coherence
import CoherenceOperator.Footprint.Storing

/-!
# What a reconcile of a Coherence resource comes to

A reconcile ends in one of three ways. It may end quietly, before the resources are stored or because they could not be
stored. It may do nothing but write a new hash, for a resource of 3.4.3 or before. Or it stores the resources, and what
comes after that starts from a state that is known (`Reconciled`). What is stored then is planned from the resource and from what was stored before (`Attempt`).
-/

namespace CoherenceOperator

open Effect Prog Storage

/-- The hash label that a user has put among the labels of all objects. -/
def CoherenceResource.GlobalHash (op : Operator) (d : CoherenceResource) (h : String) : Prop :=
  (d.createGlobalLabels op).lookup LabelCoherenceHash = some h

/-- A storage that a reconcile may load: it has the versions that are stored. -/
structure Storage.Loads (op : Operator) (request : NamespacedName) (w : World) (d : CoherenceResource)
    (st : Storage) : Prop where
  key : st.key = request
  latest : st.latest = (stored request w).latest
  previous : st.previous = (stored request w).previous
  hash : ∀ h, st.hash = some h → (stored request w).hash = some h ∨ d.GlobalHash op h

namespace CoherenceReconciler

/-- The reconcile gets to the resources, unless a request fails. -/
structure Reaches (op : Operator) (env : Env) (request : NamespacedName) (w : World) (c : Coherence) : Prop where
  unlocked : env.locked = false
  found : w.coherence.get request = some c
  live : c.metadata.deletionTimestamp.isSome = false
  valid : op.validateHealthMutatorConfiguration c = none
  finalizer : c.spec.allowUnsafeDelete = some true ∨ CoherenceFinalizer ∈ c.metadata.finalizers
  replicas : c.spec.replicas.isSome

/-- The resources `res`, with the hash `h`, are what is to be stored. -/
structure Attempt (op : Operator) (env : Env) (request : NamespacedName) (w : World) (c : Coherence) (h : String)
    (res : Resources) (st st' : Storage) : Prop where
  reaches : Reaches op env request w c
  loads : st.Loads op request w c.toResource
  hash : c.getGenerationString op = .ok h
  current : c.toResource.isStoredLegacy op st = .ok false
  plan : c.toResource.plan op (c.createKubernetesResources op) st = .ok (res, st')

/-- Acts on the store that leave the versions as they are: a call of `Store` that fails, or a new hash. -/
inductive KeepsVersions (op : Operator) (env : Env) (request : NamespacedName) (w : World) : Act → Prop
  | call {c h res st st'} : Attempt op env request w c h res st st' →
      KeepsVersions op env request w (.store (.coherence (some c)) h (st'.next res))
  | put {s} : s.key = request → s.latest.getD {} = (stored request w).latest →
      KeepsVersions op env request w (.putStore s)

/-- The state in which the resources `res` are stored, and nothing else has happened. -/
structure Stores (op : Operator) (request : NamespacedName) (c : Coherence) (h : String) (res : Resources)
    (w u : World) : Prop where
  path : Path (fun a => a.IsQuiet ∨ a.Saves request (marshal res) (· = .store (.coherence (some c)) h res)) w u
  objects : ∀ kind key, kind ≠ .secret → u.objects.get (kind, key) = w.objects.get (kind, key)
  latest : (stored request u).latest = marshal res
  previous : (stored request u).previous = (stored request w).latest
  hash : (stored request u).hash = some (((c.toResource.createGlobalLabels op).lookup LabelCoherenceHash).getD h)

/-- How a reconcile ends. -/
inductive Reconciled (op : Operator) (env : Env) (request : NamespacedName) (w : World) :
    Except GoError Result → World → Prop
  /-- Nothing has happened that matters. -/
  | quiet {r u} : Quietly request (fun h => ∃ c, Reaches op env request w c ∧ c.toResource.GlobalHash op h)
      (KeepsVersions op env request w) w u → Reconciled op env request w r u
  /-- The hash of a resource of 3.4.3 or before is a new one. -/
  | upgraded {c st h r u} : Reaches op env request w c → st.Loads op request w c.toResource →
      c.toResource.isStoredLegacy op st = .ok true → (c.updateStatusVersion op env.now).getGenerationString op = .ok h →
      Quietly request (fun h' => c.toResource.GlobalHash op h' ∨ h' = h) (KeepsVersions op env request w) w u →
      Reconciled op env request w r u
  /-- The resources were stored, and the secondary reconcilers come next. -/
  | stored {c h res st st' u r v} : Attempt op env request w c h res st st' →
      Stores op request c h (st'.next res) w u →
      exec (reconcileStored op env request (c.updateStatusVersion op env.now) h
        { st' with latest := st'.next res, previous := st'.latest, hash := some h }) u = (r, v) →
      Reconciled op env request w r v

/-! ### What comes before the resources -/

section

variable {op : Operator} {env : Env} {request : NamespacedName} {c : Coherence} {w : World}

theorem note_ensureFinalizerRemoved : Does Act.IsNote (FinalizerManager.ensureFinalizerRemoved env c) :=
  Does.ite (fun _ => does_change (by simp [Act.IsNote]) trivial) fun _ => Does.pure _

theorem call_finalizeDeployment : Does Act.IsCall (FinalizerManager.finalizeDeployment op env c) := by
  refine Does.ite (fun _ => Does.pure _) fun _ => Does.ite (fun _ => Does.pure _) fun _ => ?_
  refine Does.ite (fun _ => Does.pure _) fun _ => Does.ite (fun _ => Does.pure _) fun _ => ?_
  refine Does.bind call_getStatefulSet.attempt fun sts => ?_
  split
  · exact Does.throw _
  · exact Does.pure _
  · refine Does.ite (fun _ => Does.pure _) fun _ => ?_
    refine Does.bind call_suspendServicesWithError fun r => ?_
    split
    · exact Does.ite (fun _ => Does.pure _) fun _ => Does.throw _
    · exact Does.pure _

theorem note_finalizeDeployment : Does Act.IsRemark (FinalizerManager.finalizeDeployment op env c) := remark_of_call call_finalizeDeployment

theorem note_removeFinalizer : Does Act.IsNote (removeFinalizer env c) := by
  refine Does.bind note_ensureFinalizerRemoved.attempt fun r => ?_
  split
  · exact Does.pure _
  · exact Does.ite (fun _ => Does.pure _) fun _ => Does.throw _

theorem note_finalize : Does Act.IsNote (finalize op env c) := by
  refine Does.ite (fun _ => ?_) fun _ => Does.pure _
  refine Does.bind (note_of_remark note_finalizeDeployment).attempt fun r => ?_
  split
  · exact Does.pure _
  · exact note_removeFinalizer

theorem note_rejectHealthMutatorConfiguration {cause : String} :
    Does Act.IsRemark (rejectHealthMutatorConfiguration op env c cause) := by
  refine Does.ite (fun _ => ?_) fun _ => Does.pure _
  exact Does.bind (Op.does_wrapError (does_change (by simp [Act.IsRemark, Act.IsNote]) trivial)) fun _ => Does.pure _

theorem note_sendFinalizers {type : PatchType} {key : NamespacedName} {patch : List String} :
    Does Act.IsNote (FinalizerManager.sendFinalizers env type key patch) := by
  refine Does.bind (does_request (by simp [Act.IsNote])) fun _ => Does.bind Does.get fun w => ?_
  split
  · exact Does.throw _
  · exact Does.perform trivial

theorem note_ensureFinalizerApplied {type : PatchType} :
    Does Act.IsNote (FinalizerManager.ensureFinalizerApplied env type c) := by
  refine Does.ite (fun _ => Does.pure _) fun _ => Op.does_wrapError ?_
  unfold FinalizerManager.patchFinalizers
  split
  · exact Does.pure _
  · exact Does.bind (Op.does_wrapError note_sendFinalizers) fun _ => Does.pure _

theorem note_ensureFinalizer : Does Act.IsNote (ensureFinalizer env c) := by
  refine Does.ite (fun _ => ?_) fun _ => note_ensureFinalizerApplied
  refine Does.bind note_ensureFinalizerRemoved.attempt fun r => ?_
  split
  · exact Does.pure _
  · exact Does.ite (fun _ => Does.pure _) fun _ => Does.throw _

/-- A resource that needs no finalizer has it, or must not have it. -/
theorem returns_ensureFinalizer : Returns (ensureFinalizer env c) fun changed => changed = false →
    c.spec.allowUnsafeDelete = some true ∨ CoherenceFinalizer ∈ c.metadata.finalizers := by
  by_cases hguarded : c.spec.allowUnsafeDelete = some true
  · intro _ _ _ _
    exact .inl hguarded
  · intro s changed h hchanged
    subst hchanged
    refine .inr (by_contra fun hf => ?_)
    simp only [ensureFinalizer, hguarded, if_false, FinalizerManager.ensureFinalizerApplied, hf,
      FinalizerManager.patchFinalizers, strategicListDiff_append hf, Op.wrapError, exec_mapError, wrapped_eq_ok] at h
    rw [exec_bind] at h
    split at h
    · cases h
    · cases h

theorem note_ensureStatus : Does Act.IsRemark (ensureStatus env request c) := by
  unfold ensureStatus
  split
  · exact Does.pure _
  · exact StatusManager.note_update

theorem quietly_patchReplicas {H : String → Prop} {S : Act → Prop} :
    Wp (patchReplicas env c) (fun _ u => Quietly request H S w u) w := by
  have hdoes : Does (fun a => a.IsNote ∨ ∃ key n, a = .coherenceReplicas key n) (patchReplicas env c) :=
    Op.does_wrapError (Op.does_wrapError (does_change (.inl (by simp [Act.IsNote])) (.inr ⟨_, _, rfl⟩)))
  refine .of_path (hdoes w) ?_ ?_
  · rintro a (ha | ⟨key, n, rfl⟩)
    · exact .inl ha.isQuiet
    · exact .inl trivial
  · rintro a x (ha | ⟨key, n, rfl⟩)
    · exact ⟨ha.stores, ha.objects⟩
    · exact ⟨rfl, rfl⟩

/-! ### Storing the resources -/

/-- A plan is made of what is stored already, which is then changed in memory, too, or of what the spec generates. -/
theorem plan_eq_ok {d : CoherenceResource} {created res : Resources} {st st' : Storage}
    (h : d.plan op created st = .ok (res, st')) :
    d.usesStored op st = .ok true ∧ d.prepare op st.latest = .ok res ∧ st' = { st with latest := res } ∨
      d.usesStored op st = .ok false ∧ d.prepare op created = .ok res ∧ st' = st := by
  unfold CoherenceResource.plan at h
  obtain ⟨b, hb, h⟩ := bind_eq_ok.1 h
  cases b with
  | true =>
    obtain ⟨_, hp, h⟩ := bind_eq_ok.1 h
    cases h
    exact .inl ⟨hb, hp, rfl⟩
  | false =>
    obtain ⟨_, hp, h⟩ := bind_eq_ok.1 h
    cases h
    exact .inr ⟨hb, hp, rfl⟩

/-- The hashes of a secret that is seen to before anything is stored. -/
abbrev Before (op : Operator) (request : NamespacedName) (c : Coherence) (w u : World) : Prop :=
  Quietly request (c.toResource.GlobalHash op) (fun _ => False) w u

/-- What is loaded then has the versions that were stored. -/
theorem loads_stored {u : World} (h : Before op request c w u) : (stored request u).Loads op request w c.toResource where
  key := by
    rw [stored]
    cases u.store request <;> rfl
  latest := h.latest
  previous := h.previous
  hash := h.hash

theorem Quietly.reconciled {u : World} {r : Except GoError Result} (hreach : Reaches op env request w c)
    (h : Before op request c w u) : Reconciled op env request w r u :=
  .quiet (h.mono (fun _ hx => ⟨c, hreach, hx⟩) fun _ hf => hf.elim)

/-- The acts of `Store` that did not save the secret go unnoticed. -/
theorem quietly_call {S H} {owner : Deployment} {h : String} {res : Resources} {u : World}
    (hS : S (.store owner h res)) (p : Path (fun a => a.IsNote ∨ a = .store owner h res) w u) :
    Quietly request H S w u := by
  refine .of_path p ?_ ?_
  · rintro a (ha | rfl)
    · exact .inl ha.isQuiet
    · exact .inr hS
  · rintro a x (ha | rfl)
    · exact ⟨ha.stores, ha.objects⟩
    · exact ⟨rfl, rfl⟩

/-- The state in which the resources are stored. -/
theorem stores_of_saved {h : String} {res : Resources} {labels : Labels} {u v : World}
    (hbefore : Before op request c w u)
    (hsaved : Saved request (marshal res) (stored request u).latest
      ((labels.set LabelCoherenceHash h).setAll (c.toResource.createGlobalLabels op))
      (· = .store (.coherence (some c)) h res) u v) : Stores op request c h res w v where
  path := (hbefore.path.mono fun _ ha => .inl (ha.resolve_right id)).trans (hsaved.path.mono fun _ => .inr)
  objects kind key hk := (hsaved.objects hk key).trans (hbefore.objects kind key hk)
  latest := hsaved.latest
  previous := hsaved.previous.trans hbefore.latest
  hash := hsaved.hash.trans lookup_setAll_set

/-- Store the resources that are planned. -/
theorem wp_storeAndReconcile {u : World} (hreach : Reaches op env request w c) (hbefore : Before op request c w u)
    (hcur : c.toResource.isStoredLegacy op (stored request u) = .ok false) :
    Wp (storeAndReconcile op env request c (stored request u)) (Reconciled op env request w) u := by
  have hquiet : ∀ {r}, Reconciled op env request w r u := Quietly.reconciled hreach hbefore
  unfold storeAndReconcile
  cases hhash : c.getGenerationString op with
  | error e => exact hquiet
  | ok h =>
    refine Wp.bind_ok (exec_outcome _ _) ?_
    cases hplan : c.toResource.plan op (c.createKubernetesResources op) (stored request u) with
    | error e => exact hquiet
    | ok p =>
      obtain ⟨res, st'⟩ := p
      have hatt : Attempt op env request w c h res (stored request u) st' :=
        ⟨hreach, loads_stored hbefore, hhash, hcur, hplan⟩
      have hkey : st'.key = request := by
        rcases plan_eq_ok hplan with ⟨-, -, rfl⟩ | ⟨-, -, rfl⟩
        · exact hatt.loads.key
        · exact hatt.loads.key
      refine Wp.bind_ok (a := (res, st')) rfl ?_
      have hderef : (Deployment.coherence (some c)).deref = .ok c.toResource := rfl
      refine Wp.bind_ends (Wp.mapError_ends (wp_store hkey hderef hhash)) ?_ ?_
      · rintro _ v ⟨rfl, hsaved⟩
        exact .stored hatt (stores_of_saved hbefore hsaved) rfl
      · intro e v hcall
        refine .quiet (Quietly.trans (hbefore.mono (fun _ hx => ⟨c, hreach, hx⟩) fun _ hf => hf.elim) ?_)
        exact quietly_call (.call hatt) hcall

/-- A secret that is saved with the same versions and a new hash. -/
theorem quietly_of_saved {labels : Labels} {h : String} {u v : World}
    (hbefore : Before op request c w u)
    (hsaved : Saved request (stored request u).latest (stored request u).previous labels (fun _ => False) u v)
    (hlabels : ∀ x, labels.lookup LabelCoherenceHash = some x → x = h) :
    Quietly request (fun h' => c.toResource.GlobalHash op h' ∨ h' = h) (KeepsVersions op env request w) w v where
  path := by
    refine (hbefore.path.mono fun _ ha => .inl (ha.resolve_right id)).trans (hsaved.path.mono fun a ha => ?_)
    cases a with
    | putStore s => exact .inr (.put ha.1 (ha.2.trans hbefore.latest))
    | call | attemptReadyAction | executeActions => exact .inl trivial
    | coherenceStatus | coherenceMetadata | coherenceJobStatus | coherenceJobMetadata => exact .inl trivial
    | _ => exact ha.elim
  objects kind key hk := (hsaved.objects hk key).trans (hbefore.objects kind key hk)
  latest := hsaved.latest.trans hbefore.latest
  previous := hsaved.previous.trans hbefore.previous
  hash x hx := by
    rw [hsaved.hash] at hx
    exact .inr (.inr (hlabels x hx))

/-- A new hash for a resource of 3.4.3 or before. -/
theorem wp_upgradeHash {u : World} (hreach : Reaches op env request w c) (hbefore : Before op request c w u)
    (hlegacy : c.toResource.isStoredLegacy op (stored request u) = .ok true) :
    Wp (upgradeHash op env request c (stored request u)) (Reconciled op env request w) u := by
  have hloads := loads_stored hbefore
  have hderef : (Deployment.coherence (some (c.updateStatusVersion op env.now))).deref =
      .ok (c.updateStatusVersion op env.now).toResource := rfl
  refine Wp.bind_ends (Wp.mapError_ends (wp_resetHash hloads.key hderef)) ?_ ?_
  · rintro _ v ⟨h, hhash, -, hsaved⟩
    have hnote : Does Act.IsRemark (do
        let hashNew ← outcome ((c.updateStatusVersion op env.now).getGenerationString op)
        Op.wrapError "error updating deployment status hash"
          (StatusManager.updateDeploymentStatusHash op env request hashNew)
        return ({} : Result)) :=
      Does.bind (Does.outcome _) fun _ => Does.bind (Op.does_wrapError StatusManager.note_update) fun _ => Does.pure _
    exact .upgraded hreach hloads hlegacy hhash ((quietly_of_saved hbefore hsaved fun _ => lookup_withHash).trans_note (note_of_remark hnote v))
  · intro e v hnote
    exact Quietly.reconciled hreach (hbefore.trans_note hnote)

/-! ### The reconcile -/

theorem wp_reconcileWith {u : World} (hreach : Reaches op env request w c) (hbefore : Before op request c w u) :
    Wp (reconcileWith op env request c (stored request u)) (Reconciled op env request w) u := by
  unfold reconcileWith
  cases hlegacy : c.toResource.isStoredLegacy op (stored request u) with
  | error e => exact Quietly.reconciled hreach hbefore
  | ok b =>
    refine Wp.bind_ok (exec_outcome _ _) ?_
    cases b with
    | true => exact wp_upgradeHash hreach hbefore hlegacy
    | false => exact wp_storeAndReconcile hreach hbefore hlegacy

theorem wp_reconcileResources {u : World} (hreach : Reaches op env request w c) (hbefore : Before op request c w u) :
    Wp (reconcileResources op env request c) (Reconciled op env request w) u := by
  have herr : ∀ {v : World} {e : GoError}, Before op request c w v →
      Wp (handleErrAndRequeue op env e (.coherence (some c))) (Reconciled op env request w) v := by
    intro v e hv
    exact Quietly.reconciled hreach (hv.trans_note (note_handleErrAndRequeue v))
  have hsecret : Wp (ensureOperatorSecret op env c.toResource)
      (Wp.Ends (fun _ => Before op request c w) (Before op request c w)) u := by
    have hquiet : Wp (ensureOperatorSecret op env c.toResource) (fun _ v => Before op request c u v) u :=
      quietly_ensureOperatorSecret fun _ => id
    exact Wp.ends (Wp.mono hquiet fun _ v hv => hbefore.trans hv)
  refine Wp.attempt_bind_ends hsecret (fun _ v hv => ?_) fun e v hv => ⟨herr hv, Quietly.reconciled hreach hv⟩
  have hnew : Wp (Storage.new env request)
      (Wp.Ends (fun st x => Before op request c w x ∧ st = stored request x) (Before op request c w)) v := by
    have hget := hv.sent ⟨.get, .secret, request⟩
    exact wp_getSecret_bind (fun _ => hget) ⟨hget, rfl⟩
  refine Wp.attempt_bind_ends hnew ?_ fun e x hx => ⟨herr hx, Quietly.reconciled hreach hx⟩
  rintro _ x ⟨hx, rfl⟩
  exact wp_reconcileWith hreach hx

/-- Nothing has happened yet that matters. -/
abbrev Idle (request : NamespacedName) (w u : World) : Prop := Quietly request (fun _ => False) (fun _ => False) w u

theorem Quietly.idle_reconciled {u : World} {r : Except GoError Result} (h : Idle request w u) :
    Reconciled op env request w r u :=
  .quiet (h.mono (fun _ hf => hf.elim) fun _ hf => hf.elim)

theorem wp_addOrUpdate (hlocked : env.locked = false) (hlive : c.metadata.deletionTimestamp.isSome = false)
    (hvalid : op.validateHealthMutatorConfiguration c = none) (hfound : w.coherence.get request = some c) {u : World}
    (hidle : Idle request w u) : Wp (addOrUpdate op env request c) (Reconciled op env request w) u := by
  have hfin : Wp (ensureFinalizer env c) (fun _ v => Idle request w v) u := hidle.trans_note (note_ensureFinalizer u)
  refine Wp.bind_ends (Wp.ends_of_returns hfin returns_ensureFinalizer) ?_ fun e v hv => Quietly.idle_reconciled hv
  rintro changed v ⟨hv, hcond⟩
  cases changed with
  | true => exact Quietly.idle_reconciled hv
  | false =>
    have hstatus : Wp (ensureStatus env request c) (fun _ x => Idle request w x) v :=
      hv.trans_note (note_of_remark note_ensureStatus v)
    refine Wp.bind_ends (Wp.ends hstatus) (fun _ x hx => ?_) fun e x hx => Quietly.idle_reconciled hx
    cases hreplicas : c.spec.replicas with
    | none =>
      have hpatch : Wp (patchReplicas env c) (fun _ y => Idle request w y) x :=
        Wp.mono quietly_patchReplicas fun _ _ hy => hx.trans hy
      simp only [Option.isNone_none, if_true]
      exact Wp.bind_ends (Wp.ends hpatch) (fun _ y hy => Quietly.idle_reconciled hy)
        fun e y hy => Quietly.idle_reconciled hy
    | some n =>
      have hreach : Reaches op env request w c :=
        ⟨hlocked, hfound, hlive, hvalid, hcond rfl, by rw [hreplicas]; rfl⟩
      exact wp_reconcileResources hreach (hx.mono (fun _ hf => hf.elim) fun _ => id)

theorem wp_reconcileFound (hlocked : env.locked = false) (hfound : w.coherence.get request = some c) {u : World}
    (hidle : Idle request w u) : Wp (reconcileFound op env request c) (Reconciled op env request w) u := by
  have hnote : ∀ {x : Op Result}, Does Act.IsNote x → Wp x (Reconciled op env request w) u := fun hx =>
    Quietly.idle_reconciled (hidle.trans_note (hx u))
  unfold reconcileFound
  split
  · exact hnote note_finalize
  rename_i hlive
  split
  · exact hnote (note_of_remark note_rejectHealthMutatorConfiguration)
  rename_i hvalid
  exact wp_addOrUpdate hlocked (by simpa using hlive) hvalid hfound hidle

/-- **A reconcile** ends quietly, with a new hash, or goes on from a state in which the resources are stored. -/
theorem wp_reconcile : Wp (reconcile op env request) (Reconciled op env request w) w := by
  unfold reconcile
  split
  · exact .quiet .refl
  rename_i hlocked
  have hget : Idle request w (w.sent ⟨.get, .coherence, request⟩) := Quietly.refl.sent _
  refine wp_read_bind (fun _ => Quietly.idle_reconciled hget) ?_
  cases hfound : w.coherence.get request with
  | none =>
    simp only [World.coherence_sent, hfound]
    exact Quietly.idle_reconciled hget
  | some c =>
    simp only [World.coherence_sent, hfound]
    exact wp_reconcileFound (by simpa using hlocked) hfound hget

end

end CoherenceReconciler

end CoherenceOperator
