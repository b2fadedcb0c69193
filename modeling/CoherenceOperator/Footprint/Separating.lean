import CoherenceOperator.Controllers.CoherenceJob
import CoherenceOperator.Footprint.Generated
import CoherenceOperator.Footprint.Guarding
import CoherenceOperator.Footprint.Owners
import CoherenceOperator.Footprint.Remembering

/-!
# What the controllers of one kind leave alone

A state is *apart* from an earlier one if nothing has happened on the way to the Coherence resources: no status of theirs was
written, and what is stored for them is the same. What the controllers of CoherenceJob resources do keeps that, as long as
they are not led to a Coherence resource (`World.Beside`), and it keeps the hash in the status of every CoherenceJob.
-/

namespace CoherenceOperator

open Effect Prog Storage

/-- Acts that write no status of a Coherence resource. -/
def Act.SparesStatus : Act → Prop
  | .coherenceStatus _ _ => False
  | _ => True

/-- Nothing has happened to the Coherence resources, nor to what is stored for them. -/
structure World.Apart (w u : World) : Prop where
  path : Path Act.SparesStatus w u
  coherence : u.coherence = w.coherence
  latest : ∀ key, (w.coherence.get key).isSome → (stored key u).latest = (stored key w).latest
  previous : ∀ key, (w.coherence.get key).isSome → (stored key u).previous = (stored key w).previous

/-- Every CoherenceJob has the generation it had, and the hash in its status. -/
def World.SameHashes (w u : World) : Prop :=
  ∀ key c', u.coherenceJob.get key = some c' → ∃ c, w.coherenceJob.get key = some c ∧
    c'.status.hash = c.status.hash ∧ c'.generation = c.generation

/-- Both. -/
def World.Beside (w u : World) : Prop := w.Apart u ∧ w.SameHashes u

/-- Acts that keep both, whatever the state they are done in. -/
def Act.IsBeside (w : World) : Act → Prop
  | .coherenceStatus _ _ | .coherenceMetadata _ _ _ | .coherenceReplicas _ _ | .coherenceJobStatus _ _
  | .coherenceJobReplicas _ _ => False
  | .putStore s => w.coherence.get s.key = none
  | .deleteObject kind key => kind = .secret → w.coherence.get key = none
  | _ => True

variable {op : Operator} {env : Env} {request : NamespacedName} {w u v : World}

namespace World

theorem Apart.refl : w.Apart w := ⟨.refl, rfl, fun _ _ => rfl, fun _ _ => rfl⟩

theorem Apart.trans (h : w.Apart u) (h' : u.Apart v) : w.Apart v where
  path := h.path.trans h'.path
  coherence := h'.coherence.trans h.coherence
  latest key hkey := (h'.latest key (h.coherence ▸ hkey)).trans (h.latest key hkey)
  previous key hkey := (h'.previous key (h.coherence ▸ hkey)).trans (h.previous key hkey)

theorem SameHashes.refl : w.SameHashes w := fun _ c' hc' => ⟨c', hc', rfl, rfl⟩

theorem SameHashes.trans (h : w.SameHashes u) (h' : u.SameHashes v) : w.SameHashes v := by
  intro key c' hc'
  obtain ⟨c₁, hc₁, hhash₁, hgen₁⟩ := h' key c' hc'
  obtain ⟨c, hc, hhash, hgen⟩ := h key c₁ hc₁
  exact ⟨c, hc, hhash₁.trans hhash, hgen₁.trans hgen⟩

theorem Beside.refl : w.Beside w := ⟨.refl, .refl⟩

theorem Beside.trans (h : w.Beside u) (h' : u.Beside v) : w.Beside v := ⟨h.1.trans h'.1, h.2.trans h'.2⟩

/-! ### Acts -/

/-- What is stored for a resource whose secret is the same, or is an object with no version in it. -/
theorem stored_eq_of_put {o : Object} (hstores : v.stores = u.stores) (hobjects : v.objects = u.objects.put o) :
    (stored request v).latest = (stored request u).latest ∧ (stored request v).previous = (stored request u).previous := by
  rcases store_of_put request hstores hobjects with hst | ⟨-, hnone, hst⟩
  · rw [stored, hst]
    exact ⟨rfl, rfl⟩
  · have hempty : ∀ m : Option ObjectMeta, (load request (m.map fun metadata => { metadata })).latest = {} ∧
        (load request (m.map fun metadata => { metadata })).previous = {} := by
      intro m
      cases m <;> exact ⟨rfl, rfl⟩
    have hu : u.store request = ((u.objects.get (.secret, request)).map (·.metadata)).map fun metadata => { metadata } := by
      simp only [World.store, hnone, Option.map_map]
      rfl
    obtain ⟨hlatest, hprevious⟩ := hempty ((u.objects.get (.secret, request)).map (·.metadata))
    obtain ⟨hlatest', hprevious'⟩ := hempty (some o.metadata)
    rw [stored, hst, stored, hu]
    exact ⟨hlatest'.trans hlatest.symm, hprevious'.trans hprevious.symm⟩

/-- An act that leaves the secret of a Coherence resource where it is. -/
theorem stored_act {a : Act} (ha : a.IsBeside w) (hkey : (w.coherence.get request).isSome) :
    (stored request (Acts.act a u)).latest = (stored request u).latest ∧
      (stored request (Acts.act a u)).previous = (stored request u).previous := by
  have hsame : ∀ {x : World}, x.store request = u.store request →
      (stored request x).latest = (stored request u).latest ∧ (stored request x).previous = (stored request u).previous := by
    intro x hx
    rw [stored, hx]
    exact ⟨rfl, rfl⟩
  have hne : ∀ key, w.coherence.get key = none → request ≠ key := by
    rintro key hnone rfl
    rw [hnone] at hkey
    cases hkey
  cases a with
  | createObject o | updateObject o => exact stored_eq_of_put rfl rfl
  | patchStatefulSet p result => exact stored_eq_of_put (o := result.toObject) rfl rfl
  | putStore s =>
    have hs := hne s.key ha
    refine hsame ?_
    simp only [World.store, Acts.act, Act.effect]
    rw [Table.get_put_of_ne hs, Table.get_erase_of_ne fun he => hs (Prod.mk.inj he).2]
  | deleteObject kind key =>
    refine hsame ?_
    by_cases hk : kind = .secret
    · have hs := hne key (ha hk)
      subst hk
      simp only [Acts.act, Act.effect, World.store]
      cases hstore : u.stores.get key with
      | none => simp only [Table.get_erase_of_ne fun he => hs (Prod.mk.inj he).2]
      | some s => simp only [Table.get_erase_of_ne hs]
    · have hobject : (Acts.act (.deleteObject kind key) u).stores = u.stores ∧
          (Acts.act (.deleteObject kind key) u).objects = u.objects.erase (kind, key) := by
        simp only [Acts.act, Act.effect]
        split
        · exact absurd rfl hk
        · exact ⟨rfl, rfl⟩
      have hsecret : (ResourceType.secret, request) ≠ (kind, key) := fun he => hk (Prod.mk.inj he).1.symm
      simp only [World.store, hobject, Table.get_erase_of_ne hsecret]
  | call | store | validateStatefulSet | attemptReadyAction | executeActions => exact hsame rfl
  | coherenceJobMetadata key annotations finalizers =>
    refine hsame ?_
    simp only [Acts.act, Act.effect]
    split <;> rfl
  | coherenceStatus | coherenceMetadata | coherenceReplicas | coherenceJobStatus | coherenceJobReplicas => exact ha.elim

theorem coherence_act {a : Act} (ha : a.IsBeside w) : (Acts.act a u).coherence = u.coherence := by
  cases a with
  | coherenceStatus | coherenceMetadata | coherenceReplicas => exact ha.elim
  | deleteObject | coherenceJobMetadata =>
    simp only [Acts.act, Act.effect]
    split <;> rfl
  | _ => rfl

theorem Act.IsBeside.sparesStatus {a : Act} (ha : a.IsBeside w) : a.SparesStatus := by
  cases a with
  | coherenceStatus => exact ha.elim
  | _ => trivial

theorem Apart.act (h : w.Apart u) {a : Act} (ha : a.IsBeside w) : w.Apart (Acts.act a u) where
  path := h.path.tail ⟨a, Act.IsBeside.sparesStatus ha, rfl⟩
  coherence := (coherence_act ha).trans h.coherence
  latest key hkey := (stored_act ha hkey).1.trans (h.latest key hkey)
  previous key hkey := (stored_act ha hkey).2.trans (h.previous key hkey)

theorem sameHashes_of_eq (h : v.coherenceJob = u.coherenceJob) : u.SameHashes v := fun _ c' hc' => ⟨c', h ▸ hc', rfl, rfl⟩

/-- A CoherenceJob that is changed in something else. -/
theorem sameHashes_modify {key : NamespacedName} {f : CoherenceJob → CoherenceJob} {hf : ∀ c, (f c).key = c.key}
    (h : ∀ c, u.coherenceJob.get key = some c → (f c).status.hash = c.status.hash ∧ (f c).generation = c.generation) :
    u.SameHashes (u.modifyCoherenceJob key f hf) := by
  intro k c' hc'
  by_cases hk : k = key
  · subst hk
    simp only [modifyCoherenceJob, Table.get_modify_self, Option.map_eq_some_iff] at hc'
    obtain ⟨c, hc, rfl⟩ := hc'
    exact ⟨c, hc, h c hc⟩
  · simp only [modifyCoherenceJob, Table.get_modify_of_ne hk] at hc'
    exact ⟨c', hc', rfl, rfl⟩

theorem sameHashes_act {a : Act} (ha : a.IsBeside w) : u.SameHashes (Acts.act a u) := by
  cases a with
  | coherenceJobStatus | coherenceJobReplicas => exact ha.elim
  | coherenceJobMetadata key annotations finalizers =>
    have hmodify : u.SameHashes (u.modifyCoherenceJob key (·.withMetadata annotations finalizers)
        (·.key_withMetadata _ _)) := sameHashes_modify fun _ _ => ⟨rfl, rfl⟩
    simp only [Acts.act, Act.effect]
    split
    · intro k c' hc'
      simp only [Table.get_erase] at hc'
      split at hc'
      · cases hc'
      · exact ⟨c', hc', rfl, rfl⟩
    · exact hmodify
  | deleteObject | coherenceMetadata =>
    refine sameHashes_of_eq ?_
    simp only [Acts.act, Act.effect]
    split <;> rfl
  | _ => exact sameHashes_of_eq rfl

theorem Beside.act (h : w.Beside u) {a : Act} (ha : a.IsBeside w) : w.Beside (Acts.act a u) :=
  ⟨h.1.act ha, h.2.trans (sameHashes_act ha)⟩

/-- The status of a CoherenceJob is written with the hash it has. -/
theorem Beside.writeStatus (h : w.Beside u) {key : NamespacedName} {status : CoherenceResourceStatus}
    (hstatus : ∀ c, u.coherenceJob.get key = some c → status.hash = c.status.hash) :
    w.Beside (Acts.act (.coherenceJobStatus key status) u) := by
  have hsame : u.SameHashes (u.modifyCoherenceJob key (·.withStatus status) (·.key_withStatus status)) :=
    sameHashes_modify fun c hc => ⟨hstatus c hc, rfl⟩
  refine ⟨⟨h.1.path.tail ⟨.coherenceJobStatus key status, trivial, rfl⟩, h.1.coherence, h.1.latest, h.1.previous⟩, ?_⟩
  exact h.2.trans hsame

end World

/-- A program of such acts. -/
theorem keeps_beside {α : Type} {x : Op α} (h : Does (Act.IsBeside w) x) : Keeps w.Beside x :=
  h.keeps fun _ _ ha hu => hu.act ha

theorem isBeside_of_call {a : Act} (h : a.IsCall) : a.IsBeside w := by
  cases a with
  | call => trivial
  | _ => exact h.elim

theorem keeps_call {α : Type} {x : Op α} (h : Does Act.IsCall x) : Keeps w.Beside x :=
  keeps_beside (h.mono fun _ => isBeside_of_call)

/-! ### The status of a CoherenceJob -/

section Status

variable {α β : Type} {key : NamespacedName}

/-- A CoherenceJob is read, and something is done with it. -/
theorem wp_getCoherenceJob_bind {text : String} {f : Option CoherenceJob → Op β} {Q : Except GoError β → World → Prop}
    (he : ∀ e, Q (.error e) (u.sent ⟨.get, .coherenceJob, key⟩))
    (hf : Wp (f (u.coherenceJob.get key)) Q (u.sent ⟨.get, .coherenceJob, key⟩)) :
    Wp (Op.wrapError text (getCoherenceJob env key) >>= f) Q u := wp_read_bind he hf

theorem World.Beside.sent (h : w.Beside u) (c : ApiCall) : w.Beside (u.sent c) := h.act (a := .call c) trivial

/-- The status of the CoherenceJob is written with the hash it has. -/
theorem wp_writeCoherenceJobStatus {verb : Verb} {status : CoherenceResourceStatus} (h : w.Beside u)
    (hstatus : ∀ c, u.coherenceJob.get key = some c → status.hash = c.status.hash) :
    Wp (writeCoherenceJobStatus env verb key status) (fun _ v => w.Beside v) u :=
  wp_change (fun _ => h.sent _) fun _ _ => (h.sent _).writeStatus hstatus

/-- The status of the Job is taken over. -/
theorem JobReconciler.keeps_updateDeploymentStatus {probes : List CoherenceJobProbeStatus} :
    Keeps w.Beside (JobReconciler.updateDeploymentStatus op env request probes) := by
  refine Keeps.bind (keeps_call (Op.does_wrapError call_getJob)) fun job u hu => ?_
  have hget := hu.sent ⟨.get, .coherenceJob, request⟩
  refine wp_getCoherenceJob_bind (Q := fun _ v => w.Beside v) (fun _ => hget) ?_
  cases hc : u.coherenceJob.get request with
  | none => exact hget
  | some c =>
    have hwrite : Wp (writeCoherenceJobStatus env .updateStatus request
        (c.status.updateFromJob op env.now c (job.map (·.status)) probes).1) (fun _ v => w.Beside v)
        (u.sent ⟨.get, .coherenceJob, request⟩) := by
      refine wp_writeCoherenceJobStatus hget fun c' hc' => ?_
      have hc' : u.coherenceJob.get request = some c' := hc'
      rw [hc, Option.some.injEq] at hc'
      subst hc'
      exact CoherenceResourceStatus.hash_updateFromJob
    have hrest : Wp (if c.metadata.deletionTimestamp.isSome then (return () : Op Unit) else
        if (c.status.updateFromJob op env.now c (job.map (·.status)) probes).2 then
          writeCoherenceJobStatus env .updateStatus request
            (c.status.updateFromJob op env.now c (job.map (·.status)) probes).1
        else return ()) (fun _ v => w.Beside v) (u.sent ⟨.get, .coherenceJob, request⟩) := by
      split
      · exact hget
      · split
        · exact hwrite
        · exact hget
    exact hrest

end Status

/-! ### Errors -/

section Errors

/-- What is done about an error of a CoherenceJob. -/
theorem tolerates_beside : Tolerates op env w.Beside (fun _ => True) .coherenceJob where
  sent _ c hu := hu.sent c
  latest _ _ _ _ := trivial
  annotate _ d annotations hu _ := hu.act (a := .coherenceJobMetadata d.key annotations d.metadata.finalizers) trivial
  condition u d _ _ hu hd := by
    refine hu.writeStatus fun c hc => ?_
    obtain ⟨c', hc', rfl⟩ := Option.map_eq_some_iff.1 hd
    rw [hc, Option.some.injEq] at hc'
    subst hc'
    exact CoherenceResourceStatus.remembers_setCondition.hash

theorem keeps_updateCoherenceJobStatusCondition {key : NamespacedName} {condition : Condition} (hready : condition.type ≠ .ready) :
    Keeps w.Beside (updateCoherenceJobStatusCondition op env key condition) :=
  tolerates_beside.keeps_updateStatusCondition (.inr rfl) hready

/-- The deployment is no Coherence resource that is there. -/
def Deployment.IsBeside : Deployment → Prop
  | .coherence (some _) => False
  | _ => True

/-- **Handling an error** of a CoherenceJob. -/
theorem keeps_handleErrAndRequeue_beside {e : GoError} {deployment : Deployment} (hd : deployment.IsBeside) :
    Keeps w.Beside (handleErrAndRequeue op env e deployment) := by
  refine tolerates_beside.keeps_handleErrAndRequeue (.inr rfl) fun d hderef => ?_
  cases deployment with
  | nil => cases hderef
  | coherence c =>
    cases c with
    | none => cases hderef
    | some c => exact hd.elim
  | coherenceJob c =>
    cases c with
    | none => cases hderef
    | some c => exact (Except.ok.inj hderef) ▸ rfl

end Errors

/-! ### The status of a Coherence resource -/

/-- A change that is none, or that is not made. -/
theorem keeps_changeStatus {key : NamespacedName} {f : CoherenceResourceStatus → CoherenceResourceStatus}
    (hf : ∀ c, w.coherence.get key = some c → c.metadata.deletionTimestamp.isSome = true ∨ f c.status = c.status) :
    Keeps w.Beside (changeStatus env key f) := by
  intro u hu
  have hget := hu.sent ⟨.get, .coherence, key⟩
  refine wp_read_bind (Q := fun _ v => w.Beside v) (fun _ => hget) ?_
  rw [World.coherence_sent, hu.1.coherence]
  cases hc : w.coherence.get key with
  | none => exact hget
  | some c =>
    have hrest : Wp (if c.metadata.deletionTimestamp.isSome then (return () : Op Unit) else
        Op.wrapError "updating Coherence resource status" (patchStatus env c.toResource (f c.status)))
        (fun _ v => w.Beside v) (u.sent ⟨.get, .coherence, key⟩) := by
      split
      · exact hget
      · rename_i hlive
        have hsame : f c.status = c.toResource.status := (hf c hc).resolve_left hlive
        refine Wp.mapError ?_
        rw [patchStatus, if_pos hsame]
        exact hget
    exact hrest

/-! ### The Job -/

namespace JobReconciler

variable {st : Storage} {deployment : Deployment} {job : Job}

theorem permits_beside (hd : deployment.IsBeside) : Permits op env w.Beside request st deployment where
  call := keeps_call
  condition _ _ := keeps_updateCoherenceJobStatusCondition
  create _ := keeps_beside (Secondary.does_create (fun _ ha => isBeside_of_call ha) fun _ _ _ _ => trivial)
  patch _ hkind hkey := keeps_beside (does_patchObject_of (fun _ ha => isBeside_of_call ha) hkind hkey fun _ _ _ => trivial)
  handled _ := keeps_handleErrAndRequeue_beside hd
  report := keeps_updateDeploymentStatus

theorem isBeside_of_probe {a : Act} (h : IsProbe a) : a.IsBeside w := by
  cases a with
  | call | attemptReadyAction => trivial
  | _ => exact h.elim

theorem keeps_probeAndReport : Keeps w.Beside (probeAndReport op env request deployment job) :=
  Keeps.bind (keeps_beside (does_maybeExecuteProbe.mono fun _ => isBeside_of_probe)) fun _ => keeps_updateDeploymentStatus

/-- The flag of the actions is not set on a Coherence resource of the name of the Job. -/
def IsUnflagged (request : NamespacedName) (w : World) : Prop :=
  ∀ c, w.coherence.get request = some c → c.metadata.deletionTimestamp.isSome = true ∨ c.status.actionsExecuted = false

theorem keeps_deleteJob (h : deployment.isNil = true ∨ IsUnflagged request w) :
    Keeps w.Beside (deleteJob env request deployment) := by
  have hdelete : Keeps w.Beside (Secondary.delete env .job request) :=
    keeps_beside (Secondary.does_delete trivial fun hk => by cases hk)
  refine Keeps.ite (fun _ => hdelete) fun hnil => Keeps.bind (Keeps.bind ?_ fun _ => Keeps.pure _) fun _ => hdelete
  refine (keeps_changeStatus fun c hc => ?_).attempt
  refine (h.resolve_left (by simpa using hnil) c hc).imp_right fun hflag => ?_
  rw [← hflag]

/-- With the CoherenceJob that is passed in. -/
theorem keeps_reconcileAll {c : CoherenceJob} (h : IsUnflagged request w) :
    Keeps w.Beside (reconcileAllResourceOfKind op env request (.coherenceJob (some c)) st) :=
  keeps_reconcileAllResourceOfKind (permits_beside trivial) rfl (fun _ _ => keeps_probeAndReport)
    fun _ => keeps_deleteJob (.inr h)

/-- On an event the Job does not lead to a Coherence resource: its owner is none, and if its owner has no replicas, the flag
of the actions is not set on a Coherence resource of its name. -/
structure IsApart (request : NamespacedName) (w : World) (j : Job) : Prop where
  owner : ∀ owner, j.metadata.coherenceOwner = some owner → (w.pointer owner).IsBeside
  flag : ∀ owner, j.metadata.coherenceOwner = some owner → (w.pointer owner).isNilOrZero = .ok true → IsUnflagged request w

/-- **On an event** of a Job. -/
theorem beside_reconcile (h : env.locked = false → (stored request w).isJob request = true → ∀ j, w.job request = some j →
    j.metadata.deletionTimestamp.isSome = false → IsApart request w j) :
    w.Beside (exec (reconcile op env request) w).2 := by
  have hwp : Wp (reconcile op env request) (fun _ v => w.Beside v) w := by
    unfold reconcile
    split
    · exact .refl
    rename_i hlocked
    have hnew := World.Beside.refl.sent (w := w) ⟨.get, .secret, request⟩
    refine wp_new_bind (fun _ => hnew) ?_
    unfold reconcileAllResourceOfKind
    split
    · exact hnew
    rename_i hjob
    have hget := hnew.sent ⟨.get, .job, request⟩
    refine wp_read_bind (fun _ => hget) ?_
    simp only [World.job_sent]
    have hnil : Deployment.nil.IsBeside := trivial
    rcases Option.eq_none_or_eq_some (w.job request) with hj | ⟨j, hj⟩
    · simp only [hj, Option.any_none, Bool.false_eq_true, if_false]
      refine Wp.bind_ok (exec_ownerOf_of_unowned (by simp)) ?_
      exact keeps_settle (permits_beside hnil) (by simp) (by simp) (by simp) _ hget
    · simp only [hj, Option.any_some]
      split
      · exact hget
      rename_i hlive
      have hapart := h (by simpa using hlocked) (by simpa [stored] using hjob) j hj (by simpa using hlive)
      have hkey : ∀ x ∈ some j, x.key = request := by
        rintro _ ⟨⟩
        exact (Prod.mk.inj (w.objects.filed _ _ (World.job_eq_some.1 hj))).2
      cases howner : j.metadata.coherenceOwner with
      | none =>
        refine Wp.bind_ok (exec_ownerOf_of_unowned ?_) ?_
        · rintro _ ⟨⟩
          exact howner
        · exact keeps_settle (permits_beside hnil) hkey (fun _ _ => keeps_probeAndReport)
            (fun _ _ _ => keeps_deleteJob (.inl rfl)) _ hget
      | some owner =>
        have hfound := hget.sent owner.call
        refine wp_ownerOf_bind howner (fun _ => hfound) ?_
        exact keeps_settle (permits_beside (hapart.owner owner howner)) hkey (fun _ _ => keeps_probeAndReport)
          (fun _ _ hzero => keeps_deleteJob (.inr (hapart.flag owner howner hzero))) _ hfound
  exact hwp

end JobReconciler

end CoherenceOperator
