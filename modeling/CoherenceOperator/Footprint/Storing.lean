import CoherenceOperator.Controllers.Desired
import CoherenceOperator.Footprint.Notes

/-!
# What happens to the store

Before the resources are stored little happens that matters: the operator takes notes, sets a number of
replicas, and sees to the secret with its own configuration. `Quietly` says what that comes to for one resource. What is
stored for it is the same before and after, and no object but that secret is touched.

* `World.Evolves`: whatever is done, a resource keeps its spec, or gets a new generation with a new one;
* `Quietly`: nothing has happened that matters;
* `Saved`: a secret was saved, and `wp_store`, `wp_resetHash` say which.
-/

namespace CoherenceOperator

open Effect Prog

/-! ### Resources and their generation -/

/-- The resource later on: it has the same spec, or a later generation. -/
structure Coherence.Becomes (c c' : Coherence) : Prop where
  ns : c'.metadata.ns = c.metadata.ns
  name : c'.metadata.name = c.metadata.name
  labels : c'.metadata.labels = c.metadata.labels
  spec : c'.generation = c.generation ∧ c'.spec = c.spec ∨ c.generation < c'.generation

namespace Coherence.Becomes

variable {c c' c'' : Coherence}

theorem refl : c.Becomes c := ⟨rfl, rfl, rfl, .inl ⟨rfl, rfl⟩⟩

theorem trans (h : c.Becomes c') (h' : c'.Becomes c'') : c.Becomes c'' where
  ns := h'.ns.trans h.ns
  name := h'.name.trans h.name
  labels := h'.labels.trans h.labels
  spec := by
    rcases h.spec with ⟨hg, hs⟩ | hg <;> rcases h'.spec with ⟨hg', hs'⟩ | hg'
    · exact .inl ⟨hg'.trans hg, hs'.trans hs⟩
    · exact .inr (by omega)
    · exact .inr (by omega)
    · exact .inr (by omega)

theorem generation_le (h : c.Becomes c') : c.generation ≤ c'.generation := by
  rcases h.spec with ⟨hg, -⟩ | hg <;> omega

end Coherence.Becomes

/-- A resource that is there was there before, in an earlier form. -/
def World.Evolves (request : NamespacedName) (w u : World) : Prop :=
  ∀ c', u.coherence.get request = some c' → ∃ c, w.coherence.get request = some c ∧ c.Becomes c'

/-- Changing one resource of the table. -/
theorem World.evolves_modify {w u : World} {request key : NamespacedName} {f : Coherence → Coherence}
    (hf : ∀ c, (f c).key = c.key) (hu : u.coherence = w.coherence.modify key f hf)
    (h : ∀ c : Coherence, c.Becomes (f c)) : w.Evolves request u := by
  intro c' hc'
  rw [hu] at hc'
  by_cases hk : request = key
  · subst hk
    rw [Table.get_modify_self, Option.map_eq_some_iff] at hc'
    obtain ⟨c, hc, rfl⟩ := hc'
    exact ⟨c, hc, h c⟩
  · rw [Table.get_modify_of_ne hk] at hc'
    exact ⟨c', hc', .refl⟩

/-- No act changes a spec without a new generation. -/
theorem Act.evolves {w : World} {request : NamespacedName} (a : Act) : w.Evolves request (Acts.act a w) := by
  have hself : ∀ u : World, u.coherence = w.coherence → w.Evolves request u := by
    intro u hu c' hc'
    exact ⟨c', hu ▸ hc', .refl⟩
  cases a with
  | coherenceStatus key status => exact World.evolves_modify (·.key_withStatus _) rfl fun c => ⟨rfl, rfl, rfl, .inl ⟨rfl, rfl⟩⟩
  | coherenceReplicas key replicas =>
    exact World.evolves_modify (·.key_withReplicas _) rfl fun c => ⟨rfl, rfl, rfl, .inr (Nat.lt_succ_self _)⟩
  | coherenceMetadata key annotations finalizers =>
    simp only [Acts.act, Act.effect]
    split
    · intro c' hc'
      simp only [Table.get_erase] at hc'
      split at hc'
      · cases hc'
      · exact ⟨c', hc', .refl⟩
    · exact World.evolves_modify (·.key_withMetadata _ _) rfl fun c => ⟨rfl, rfl, rfl, .inl ⟨rfl, rfl⟩⟩
  | deleteObject kind key =>
    simp only [Acts.act, Act.effect]
    split <;> exact hself _ rfl
  | coherenceJobMetadata key annotations finalizers =>
    simp only [Acts.act, Act.effect]
    split <;> exact hself _ rfl
  | _ => exact hself _ rfl

/-- Whatever is done on the way, a resource evolves. -/
theorem evolves_of_path {A : Act → Prop} {w u : World} {request : NamespacedName} (p : Path A w u) :
    w.Evolves request u := by
  induction p with
  | refl => exact fun c' hc' => ⟨c', hc', .refl⟩
  | tail _ hstep ih =>
    obtain ⟨a, -, rfl⟩ := hstep
    intro c' hc'
    obtain ⟨c₁, hc₁, h₁⟩ := a.evolves c' hc'
    obtain ⟨c, hc, h⟩ := ih c₁ hc₁
    exact ⟨c, hc, h.trans h₁⟩

/-! ### Before the resources are stored -/

/-- Acts before the resources are stored. -/
def Act.IsQuiet : Act → Prop
  | .call _ | .coherenceReplicas _ _ | .coherenceJobReplicas _ _ => True
  | .createObject o | .updateObject o => o.kind = .secret
  | .deleteObject kind _ => kind = .secret
  | a => a.IsNote

theorem Act.IsNote.isQuiet {a : Act} (h : a.IsNote) : a.IsQuiet := by
  cases a with
  | call | attemptReadyAction | executeActions => trivial
  | coherenceStatus | coherenceMetadata | coherenceJobStatus | coherenceJobMetadata => exact h
  | _ => exact h.elim

/-- A quiet act touches no object but a secret. -/
theorem Act.IsQuiet.objects {a : Act} (h : a.IsQuiet) {w : World} {kind : ResourceType} (hk : kind ≠ .secret)
    (key : NamespacedName) : (Acts.act a w).objects.get (kind, key) = w.objects.get (kind, key) := by
  cases a with
  | createObject o | updateObject o =>
    refine Table.get_put_of_ne fun he => hk ?_
    rw [(Prod.mk.inj he).1]
    exact h
  | deleteObject kind' key' =>
    have hne : (kind, key) ≠ (kind', key') := by
      intro he
      rw [(Prod.mk.inj he).1] at hk
      exact hk h
    simp only [Acts.act, Act.effect]
    split
    · rfl
    · exact Table.get_erase_of_ne hne
  | call | coherenceReplicas | coherenceJobReplicas | coherenceStatus | coherenceJobStatus | attemptReadyAction
  | executeActions => rfl
  | coherenceMetadata | coherenceJobMetadata =>
    exact congrArg (fun t : Table Object.ident => t.get (kind, key)) (Act.IsNote.objects h)
  | _ => exact h.elim

namespace Storage

/-- What is stored for the resource of the request. -/
def stored (request : NamespacedName) (w : World) : Storage := load request (w.store request)

end Storage

open Storage

/-- From `w` to `u` nothing has happened that matters to the resource of the request, but for acts of `S`: no object
is touched, and what is stored is the same. The hash of what is stored may be one of `H`. -/
structure Quietly (request : NamespacedName) (H : String → Prop) (S : Act → Prop) (w u : World) : Prop where
  path : Path (fun a => a.IsQuiet ∨ S a) w u
  objects : ∀ kind key, kind ≠ .secret → u.objects.get (kind, key) = w.objects.get (kind, key)
  latest : (stored request u).latest = (stored request w).latest
  previous : (stored request u).previous = (stored request w).previous
  hash : ∀ h, (stored request u).hash = some h → (stored request w).hash = some h ∨ H h

namespace Quietly

variable {request : NamespacedName} {H H' : String → Prop} {S S' : Act → Prop} {w u v : World}

theorem refl : Quietly request H S w w := ⟨.refl, fun _ _ _ => rfl, rfl, rfl, fun _ => .inl⟩

theorem mono (h : Quietly request H S w u) (hH : ∀ x, H x → H' x) (hS : ∀ a, S a → S' a) :
    Quietly request H' S' w u where
  path := h.path.mono fun _ => Or.imp_right (hS _)
  objects := h.objects
  latest := h.latest
  previous := h.previous
  hash x hx := (h.hash x hx).imp_right (hH x)

theorem trans (h : Quietly request H S w u) (h' : Quietly request H S u v) : Quietly request H S w v where
  path := h.path.trans h'.path
  objects kind key hk := (h'.objects kind key hk).trans (h.objects kind key hk)
  latest := h'.latest.trans h.latest
  previous := h'.previous.trans h.previous
  hash x hx := (h'.hash x hx).elim (h.hash x) .inr

/-- Acts that leave the secret alone go unnoticed. -/
theorem of_store_eq (p : Path (fun a => a.IsQuiet ∨ S a) w u)
    (hobj : ∀ kind key, kind ≠ .secret → u.objects.get (kind, key) = w.objects.get (kind, key))
    (hst : u.store request = w.store request) : Quietly request H S w u := by
  have heq : stored request u = stored request w := by rw [stored, hst, stored]
  refine ⟨p, hobj, ?_, ?_, fun x hx => .inl ?_⟩
  · rw [heq]
  · rw [heq]
  · rw [← heq, hx]

/-- Acts that leave the stores and the objects alone go unnoticed. -/
theorem of_path {A : Act → Prop} (p : Path A w u) (hA : ∀ a, A a → a.IsQuiet ∨ S a)
    (hkeep : ∀ a (x : World), A a → (Acts.act a x).stores = x.stores ∧ (Acts.act a x).objects = x.objects) :
    Quietly request H S w u := by
  have hst : u.stores = w.stores := p.unchanged fun a x ha => (hkeep a x ha).1
  have hobj : u.objects = w.objects := p.unchanged fun a x ha => (hkeep a x ha).2
  refine of_store_eq (p.mono hA) (fun _ _ _ => ?_) ?_
  · rw [hobj]
  · simp only [World.store, hst, hobj]

/-- Notes go unnoticed. -/
theorem of_note (p : Path Act.IsNote w u) : Quietly request H S w u :=
  of_path p (fun _ ha => .inl ha.isQuiet) fun _ _ ha => ⟨ha.stores, ha.objects⟩

theorem trans_note (h : Quietly request H S w u) (p : Path Act.IsNote u v) : Quietly request H S w v :=
  h.trans (of_note p)

/-- A request goes unnoticed. -/
theorem sent (h : Quietly request H S w u) (c : ApiCall) : Quietly request H S w (u.sent c) := by
  have hpath : Path (fun a => ∃ c, a = .call c) u (u.sent c) := .single ⟨.call c, ⟨c, rfl⟩, rfl⟩
  refine h.trans (of_path hpath ?_ ?_)
  · rintro _ ⟨c, rfl⟩
    exact .inl trivial
  · rintro _ _ ⟨c, rfl⟩
    exact ⟨rfl, rfl⟩

theorem evolves (h : Quietly request H S w u) : w.Evolves request u := evolves_of_path h.path

end Quietly

/-! ### The secret of the operator -/

section OperatorSecret

variable {op : Operator} {env : Env} {request : NamespacedName} {H : String → Prop} {S : Act → Prop} {w u : World}

/-- What is stored after a secret was put among the objects. -/
theorem store_of_put (request : NamespacedName) {o : Object} (hstores : u.stores = w.stores) (hobjects : u.objects = w.objects.put o) :
    u.store request = w.store request ∨
      request = o.key ∧ w.stores.get request = none ∧ u.store request = some { metadata := o.metadata } := by
  simp only [World.store, hstores, hobjects]
  cases hs : w.stores.get request with
  | some s => exact .inl rfl
  | none =>
    by_cases hk : (.secret, request) = o.ident
    · refine .inr ⟨(Prod.mk.inj hk).2, rfl, ?_⟩
      rw [hk, Table.get_put_self]
      rfl
    · rw [Table.get_put_of_ne hk]
      exact .inl rfl

/-- A secret that is not there is not a store's. -/
theorem store_eq_none {key : NamespacedName} (h : w.find .secret key = none) : w.store key = none := by
  unfold World.find at h
  split at h
  · cases h
  · rename_i hs
    simp only [World.store]
    cases hg : w.stores.get key with
    | some s => exact absurd hg (hs s rfl)
    | none => rw [h]; rfl

/-- A secret that is there has the metadata of the store. -/
theorem store_of_find {key : NamespacedName} {o : Object} (h : w.find .secret key = some o)
    (hs : w.stores.get key = none) : w.store key = some { metadata := o.metadata } := by
  unfold World.find at h
  split at h
  · rename_i s hs'
    rw [hs] at hs'
    cases hs'
  · simp only [World.store, hs, h]
    rfl

/-- Deleting what is not there does nothing. -/
theorem exec_ignore_delete {kind : ResourceType} {key : NamespacedName} (h : w.find kind key = none) :
    exec (Op.ignoreError (deleteObject env kind key)) w = (.ok (), w.sent ⟨.delete, kind, key⟩) := by
  have hfail : ∀ e : GoError, e.isPanic = false →
      exec (deleteObject env kind key) w = (.error e, w.sent ⟨.delete, kind, key⟩) →
        exec (Op.ignoreError (deleteObject env kind key)) w = (.ok (), w.sent ⟨.delete, kind, key⟩) := by
    intro e he hx
    simp only [Op.ignoreError, Op.attempt, exec_bind, exec_attempt, hx, caught_error he, exec_pure]
  cases ha : w.answer ⟨.delete, kind, key⟩ env with
  | error e =>
    refine hfail e (w.isPanic_of_answer _ ha) ?_
    simp only [deleteObject, change, exec_bind, exec_request, ha]
  | ok _ =>
    refine hfail (.notFound ⟨.delete, kind, key⟩) rfl ?_
    simp only [deleteObject, change, exec_bind, exec_request, ha, exec_get, World.find_sent, h, exec_throw]

/-- Making the secret goes unnoticed: at most it becomes an empty store. -/
theorem quietly_createObject {o : Object} (hH : ∀ h, o.metadata.labels.lookup LabelCoherenceHash = some h → H h)
    (hk : o.kind = .secret) (h : w.find .secret o.key = none) :
    Quietly request H S w (Acts.act (.createObject o) w) := by
  have hquiet : (Act.createObject o).IsQuiet := hk
  have hpath : Path (fun a => a.IsQuiet ∨ S a) w (Acts.act (.createObject o) w) := .single ⟨_, .inl hquiet, rfl⟩
  rcases store_of_put (w := w) (u := Acts.act (.createObject o) w) request rfl rfl with hst | ⟨rfl, -, hst⟩
  · exact .of_store_eq hpath (fun _ key hk => hquiet.objects hk key) hst
  · have hw := store_eq_none h
    refine ⟨hpath, fun _ key hk => hquiet.objects hk key, ?_, ?_, fun x hx => .inr (hH x ?_)⟩
    · simp only [stored, hst, hw, load, Option.getD_none]
    · simp only [stored, hst, hw, load, Option.getD_none]
    · simpa only [stored, hst, load] using hx

/-- Changing the secret goes unnoticed: its metadata stays. -/
theorem quietly_updateObject {o o' : Object} (h : w.find .secret o.key = some o') (hm : o.metadata = o'.metadata)
    (hk : o.kind = .secret) : Quietly request H S w (Acts.act (.updateObject o) w) := by
  have hquiet : (Act.updateObject o).IsQuiet := hk
  refine .of_store_eq (.single ⟨_, .inl hquiet, rfl⟩) (fun _ key hk => hquiet.objects hk key) ?_
  rcases store_of_put (w := w) (u := Acts.act (.updateObject o) w) request rfl rfl with hst | ⟨rfl, hs, hst⟩
  · exact hst
  · rw [hst, store_of_find h hs, hm]

/-- **Seeing to the secret** with the operator's configuration goes unnoticed. -/
theorem quietly_ensureOperatorSecret {d : CoherenceResource}
    (hH : ∀ h, (d.createGlobalLabels op).lookup LabelCoherenceHash = some h → H h) :
    Wp (ensureOperatorSecret op env d) (fun _ v => Quietly request H S w v) w := by
  refine Wp.bind (P := fun r v => v = w.sent ⟨.get, .secret, ⟨d.ns, "coherence-operator-config"⟩⟩ ∧
    ∀ s, r = .ok s → s = w.find .secret ⟨d.ns, "coherence-operator-config"⟩) ?_ ?_ ?_
  · rw [Wp, getObject, exec_read]
    refine ⟨rfl, fun s hs => ?_⟩
    cases ha : w.answer ⟨.get, .secret, ⟨d.ns, "coherence-operator-config"⟩⟩ env with
    | error e => simp [ha, Except.map] at hs
    | ok _ =>
      simp only [ha, Except.map, Except.ok.injEq] at hs
      exact hs.symm
  · rintro s v ⟨rfl, hs⟩
    have hget : Quietly request H S w (w.sent ⟨.get, .secret, ⟨d.ns, "coherence-operator-config"⟩⟩) :=
      Quietly.refl.sent _
    have hs := (hs s rfl).symm
    cases s with
    | none =>
      refine Wp.bind_ok (exec_ignore_delete hs) ?_
      have hdel := hget.sent ⟨.delete, .secret, ⟨d.ns, "coherence-operator-config"⟩⟩
      refine wp_createObject (fun _ => hdel.sent _) ?_
      intro hnone
      exact (hdel.sent _).trans (quietly_createObject hH rfl hnone)
    | some s =>
      obtain ⟨-, hkey⟩ := World.find_filed _ hs
      have hbody : ∀ data : Labels, w.find .secret { s with body := .secret data }.key = some s := by
        intro data
        rw [← hs, ← hkey]
        rfl
      refine Wp.mono (Q := fun _ v => Quietly request H S w v) ?_ fun _ _ => id
      by_cases hdata : s.secretData.lookup "operatorhost" = some op.restHostAndPort
      · simp only [hdata, if_true]
        exact hget
      · simp only [hdata, if_false]
        refine wp_change (fun _ => hget.sent _) ?_
        intro _ _
        exact (hget.sent _).trans (quietly_updateObject (hbody _) rfl rfl)
  · rintro e _ ⟨rfl, -⟩
    exact Quietly.refl.sent _

end OperatorSecret

/-! ### Saving the secret -/

/-- Acts that save a version of the resources of the request, with the calls of `Store` that are in `S`. -/
def Act.Saves (request : NamespacedName) (latest : Resources) (S : Act → Prop) : Act → Prop
  | .putStore s => s.key = request ∧ s.latest.getD {} = latest
  | .store owner h res => S (.store owner h res)
  | a => a.IsNote

theorem Act.IsNote.saves {a : Act} (h : a.IsNote) {request : NamespacedName} {latest : Resources} {S : Act → Prop} :
    a.Saves request latest S := by
  cases a with
  | call | coherenceStatus | coherenceMetadata | coherenceJobStatus | coherenceJobMetadata => exact h
  | attemptReadyAction | executeActions => trivial
  | _ => exact h.elim

theorem Act.Saves.objects {request : NamespacedName} {latest : Resources} {S : Act → Prop} {a : Act}
    (h : a.Saves request latest S) {w : World} {kind : ResourceType} (hk : kind ≠ .secret) (key : NamespacedName) :
    (Acts.act a w).objects.get (kind, key) = w.objects.get (kind, key) := by
  cases a with
  | putStore s => exact Table.get_erase_of_ne fun he => hk (Prod.mk.inj he).1
  | store | call | coherenceStatus | coherenceJobStatus | attemptReadyAction | executeActions => rfl
  | coherenceMetadata | coherenceJobMetadata =>
    exact congrArg (fun t : Table Object.ident => t.get (kind, key)) (Act.IsNote.objects h)
  | _ => exact h.elim

/-- The secret of the request was saved, with this version, this previous version and these labels. -/
structure Saved (request : NamespacedName) (latest previous : Resources) (labels : Labels) (S : Act → Prop)
    (w u : World) : Prop where
  path : Path (Act.Saves request latest S) w u
  latest : (stored request u).latest = latest
  previous : (stored request u).previous = previous
  hash : (stored request u).hash = labels.lookup LabelCoherenceHash

namespace Saved

variable {request : NamespacedName} {latest previous : Resources} {labels : Labels} {S : Act → Prop} {w v u : World}

theorem objects (h : Saved request latest previous labels S w u) {kind : ResourceType} (hk : kind ≠ .secret)
    (key : NamespacedName) : u.objects.get (kind, key) = w.objects.get (kind, key) :=
  h.path.unchanged (f := fun x : World => x.objects.get (kind, key)) fun _ _ ha => ha.objects hk key

theorem of_path (p : Path (Act.Saves request latest S) w v) (h : Saved request latest previous labels S v u) :
    Saved request latest previous labels S w u :=
  ⟨p.trans h.path, h.latest, h.previous, h.hash⟩

/-- The secret that is under the key is the store. -/
theorem of_store_eq {s : StoreSecret} (p : Path (Act.Saves request (s.latest.getD {}) S) w u)
    (h : u.store request = some s) : Saved request (s.latest.getD {}) (s.previous.getD {}) s.metadata.labels S w u := by
  refine ⟨p, ?_, ?_, ?_⟩ <;> rw [stored, h] <;> rfl

/-- The secret that is put under its key is the store. -/
theorem of_putStore {s : StoreSecret} (hkey : s.key = request) (hlatest : s.latest.getD {} = latest)
    (hprevious : s.previous.getD {} = previous) (hlabels : s.metadata.labels = labels) :
    Saved request latest previous labels S w (Acts.act (.putStore s) w) := by
  subst hlatest hprevious hlabels
  have hsaves : (Act.putStore s).Saves request (s.latest.getD {}) S := ⟨hkey, rfl⟩
  refine .of_store_eq (.single ⟨_, hsaves, rfl⟩) ?_
  simp only [World.store, Acts.act, Act.effect, ← hkey]
  rw [Table.get_put_self]

end Saved

section Save

variable {op : Operator} {env : Env} {request : NamespacedName} {S : Act → Prop} {w : World}

theorem path_saves_sent {latest : Resources} {c : ApiCall} (hc : c.verb ≠ .delete) :
    Path (Act.Saves request latest S) w (w.sent c) := .single ⟨.call c, hc, rfl⟩

/-- Read the secret and go on. -/
theorem wp_getSecret_bind {β : Type} {g : Option StoreSecret → Op β} {Q : Except GoError β → World → Prop}
    (he : ∀ e, Q (.error e) (w.sent ⟨.get, .secret, request⟩))
    (hg : Wp (g (w.store request)) Q (w.sent ⟨.get, .secret, request⟩)) : Wp (getSecret env request >>= g) Q w := by
  rw [Wp, exec_bind, getSecret, exec_read]
  cases w.answer ⟨.get, .secret, request⟩ env with
  | error e => exact he e
  | ok _ => exact hg

/-- `save`: the secret is as it was desired, or nothing was done but sending requests. -/
theorem wp_save {owner : Owner} {desired : StoreSecret} (hkey : desired.key = request) :
    Wp (save env request owner desired) (Wp.Ends
      (fun _ u => Saved request (desired.latest.getD {}) (desired.previous.getD {}) desired.metadata.labels S w u)
      (Path Act.IsNote w)) w := by
  have hget : (⟨.get, .secret, request⟩ : ApiCall).verb ≠ .delete := by simp
  have hnote : Path Act.IsNote w (w.sent ⟨.get, .secret, request⟩) := .single ⟨.call _, hget, rfl⟩
  refine wp_getSecret_bind (fun _ => hnote) ?_
  cases hs : w.store request with
  | none =>
    simp only [createSecret]
    cases setControllerReference owner desired.metadata with
    | error e => exact hnote
    | ok refs =>
      refine Wp.bind_ok (a := refs) rfl (wp_request_bind (fun e => ?_) ?_)
      · exact hnote.tail ⟨.call _, by simp [Act.IsNote], rfl⟩
      · refine .of_path ?_ (.of_putStore hkey rfl rfl rfl)
        exact (path_saves_sent hget).trans (path_saves_sent (by simp))
  | some current =>
    simp only [patchSecret]
    by_cases hcur : current = desired
    · subst hcur
      simp only [if_true]
      exact .of_store_eq (path_saves_sent hget) hs
    · simp only [hcur, if_false]
      refine wp_request_bind (fun e => ?_) ?_
      · exact hnote.tail ⟨.call _, by simp [Act.IsNote], rfl⟩
      · refine .of_path ?_ (.of_putStore hkey rfl rfl rfl)
        exact (path_saves_sent hget).trans (path_saves_sent (by simp))

/-- What is read as a store is under its key. -/
theorem key_of_store {s : StoreSecret} (h : w.store request = some s) : s.key = request := by
  unfold World.store at h
  split at h
  · rename_i s' hs
    cases h
    exact w.stores.filed _ _ hs
  · obtain ⟨o, ho, rfl⟩ := Option.map_eq_some_iff.1 h
    exact (Prod.mk.inj (w.objects.filed _ _ ho)).2

/-- The secret that is changed is under its key. -/
theorem key_getD_createSecretStruct : ((w.store request).getD (createSecretStruct request)).key = request := by
  cases h : w.store request with
  | none => rfl
  | some s => exact key_of_store h

/-- A secret that is not there has no versions. -/
theorem latest_getD_createSecretStruct :
    ((w.store request).getD (createSecretStruct request)).latest.getD {} = (stored request w).latest := by
  rw [stored]
  cases w.store request <;> rfl

theorem previous_getD_createSecretStruct :
    ((w.store request).getD (createSecretStruct request)).previous.getD {} = (stored request w).previous := by
  rw [stored]
  cases w.store request <;> rfl

/-- The hash that is read is the one that was set, unless a global label is put in its place. -/
theorem lookup_setAll_set {labels m : Labels} {k v : String} :
    ((labels.set k v).setAll m).lookup k = some ((m.lookup k).getD v) := by
  rw [Labels.lookup_setAll, Labels.lookup_set, if_pos rfl]
  cases m.lookup k <;> rfl

/-- The hash of a secret with labels. -/
theorem lookup_withHash {s : StoreSecret} {h x : String}
    (hx : (withHash h s).metadata.labels.lookup LabelCoherenceHash = some x) : x = h := by
  simp only [withHash] at hx
  split at hx
  · cases hx
  · rw [Labels.set, Finmap.lookup_insert, Option.some.injEq] at hx
    exact hx.symm

/-- The resources that are stored have the next version. -/
def Storage.next (st : Storage) (res : Resources) : Resources :=
  { res with version := st.latest.version + 1 }

variable {owner : Deployment} {d : CoherenceResource} {h : String} {st : Storage} {res : Resources}

/-- `Store`: the resources are the latest version, and what was the latest version is the previous one. Or `Store`
was called and nothing else was done. -/
theorem wp_store (hkey : st.key = request) (howner : owner.deref = .ok d) (hhash : d.generationString op = .ok h) :
    Wp (st.store op env res owner) (Wp.Ends
      (fun st' u => st' = { st with latest := st.next res, previous := st.latest, hash := some h } ∧
        Saved request (marshal (st.next res)) (stored request w).latest
          ((((w.store request).getD (createSecretStruct request)).metadata.labels.set LabelCoherenceHash h).setAll
            (d.createGlobalLabels op)) (· = .store owner h (st.next res)) w u)
      (Path (fun a => a.IsNote ∨ a = .store owner h (st.next res)) w)) w := by
  subst hkey
  have hget : (⟨.get, .secret, st.key⟩ : ApiCall).verb ≠ .delete := by simp
  have hnote : Path (fun a => a.IsNote ∨ a = .store owner h (st.next res)) w (w.sent ⟨.get, .secret, st.key⟩) :=
    .single ⟨.call _, .inl hget, rfl⟩
  have hcall := hnote.tail ⟨.store owner h (st.next res), .inr rfl, rfl⟩
  have hlatest : ((w.store st.key).getD (createSecretStruct st.key)).latest.getD {} = (stored st.key w).latest :=
    latest_getD_createSecretStruct
  refine wp_getSecret_bind (fun _ => hnote) ?_
  refine Wp.bind_ok (a := d) (by rw [exec_outcome, howner]) ?_
  refine Wp.bind_ok (a := h) (by rw [exec_outcome]; exact congrArg (·, _) hhash) ?_
  refine Wp.bind_ok (exec_perform _ _) ?_
  refine Wp.outcome_bind (fun _ _ => ?_) fun _ _ => hcall
  refine Wp.bind_ends (wp_save (S := (· = .store owner h (st.next res))) key_getD_createSecretStruct) ?_ ?_
  · intro _ u hsaved
    simp only [withVersion, withLabels, hlatest, Option.getD_some] at hsaved
    refine ⟨rfl, .of_path ?_ hsaved⟩
    exact (path_saves_sent hget).tail ⟨.store owner h (st.next res), rfl, rfl⟩
  · intro e u hfailed
    exact hcall.trans (hfailed.mono fun _ => .inl)

/-- `ResetHash` before the secret is saved: it was read, and nothing was done. -/
theorem wp_setHash (hkey : st.key = request) :
    Wp (st.setHash op env owner) (Wp.Ends
      (fun r u => u = w.sent ⟨.get, .secret, request⟩ ∧ ∃ d h, owner.deref = .ok d ∧ d.generationString op = .ok h ∧
        r = ({ st with hash := some h }, d.owner, withHash h ((w.store request).getD (createSecretStruct request))))
      (fun u => u = w.sent ⟨.get, .secret, request⟩)) w := by
  subst hkey
  refine wp_getSecret_bind (fun _ => rfl) ?_
  refine Wp.outcome_bind (fun d hd => ?_) fun _ _ => rfl
  refine Wp.outcome_bind (fun h hhash => ?_) fun _ _ => rfl
  exact ⟨rfl, d, h, hd, hhash, rfl⟩

/-- `ResetHash`: the versions stay. -/
theorem wp_resetHash (hkey : st.key = request) (howner : owner.deref = .ok d) :
    Wp (st.resetHash op env owner) (Wp.Ends
      (fun st' u => ∃ h, d.generationString op = .ok h ∧ st' = { st with hash := some h } ∧
        Saved request (stored request w).latest (stored request w).previous
          (withHash h ((w.store request).getD (createSecretStruct request))).metadata.labels (fun _ => False) w u)
      (Path Act.IsNote w)) w := by
  have hget : (⟨.get, .secret, request⟩ : ApiCall).verb ≠ .delete := by simp
  have hnote : Path Act.IsNote w (w.sent ⟨.get, .secret, request⟩) := .single ⟨.call _, hget, rfl⟩
  refine Wp.bind_ends (wp_setHash hkey) ?_ ?_
  · rintro _ _ ⟨rfl, d', h, hd, hhash, rfl⟩
    rw [howner] at hd
    cases hd
    subst hkey
    refine Wp.bind_ends (wp_save (S := fun _ => False) key_getD_createSecretStruct) ?_ ?_
    · intro _ u hsaved
      simp only [withHash, latest_getD_createSecretStruct, previous_getD_createSecretStruct] at hsaved
      exact ⟨h, hhash, rfl, .of_path (path_saves_sent hget) hsaved⟩
    · intro e u hfailed
      exact hnote.trans hfailed
  · rintro _ _ rfl
    exact hnote

end Save

end CoherenceOperator
