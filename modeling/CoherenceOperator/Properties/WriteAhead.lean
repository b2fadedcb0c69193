import CoherenceOperator.Footprint.Removing
import CoherenceOperator.Lib.Logs
import CoherenceOperator.Lib.Run
import CoherenceOperator.Properties.Deletions

/-!
# The store is ahead of the cluster

What the operator makes for a Coherence resource it has written down before: an object comes into being only after a version with
that object was saved in the store, so that the operator finds it again when a later version is without it. The exceptions are
the operator's own Secret and the Jobs of actions, which are in no version.
-/

namespace CoherenceOperator

open Effect Prog Storage

/-- An object that is created is in a version that was saved before. -/
def Act.IsAnnounced (request : NamespacedName) (a : Act) (log : List Act) : Prop :=
  ∀ o, a = .createObject o → o.kind ≠ .secret → o.kind ≠ .job →
    ∃ s, .putStore s ∈ log ∧ s.key = request ∧ (s.latest.getD {}).Wants o.kind o.key

/-- Every object that was created is in a version that was saved before. -/
def WriteAhead (request : NamespacedName) (log : List Act) : Prop := Preceded (Act.IsAnnounced request) log

/-- What is in the version that is stored was saved. -/
def World.HasSaved (request : NamespacedName) (w : World) : Prop :=
  ∀ kind key, (stored request w).latest.Wants kind key →
    ∃ s, .putStore s ∈ w.log ∧ s.key = request ∧ (s.latest.getD {}).Wants kind key

/-- Both. -/
structure World.IsAhead (request : NamespacedName) (w : World) : Prop where
  log : WriteAhead request w.log
  saved : w.HasSaved request

/-- Acts that create what the version wants. -/
def Act.Follows (latest : Resources) : Act → Prop
  | .createObject o => o.kind ≠ .secret → o.kind ≠ .job → latest.Wants o.kind o.key
  | _ => True

variable {op : Operator} {env : Env} {request : NamespacedName} {w u v : World} {a : Act} {latest : Resources}

/-! ### Acts -/

theorem not_wants_empty {kind : ResourceType} {key : NamespacedName} : ¬ ({} : Resources).Wants kind key := by
  rintro ⟨r, hr, -⟩
  cases hr

/-- A secret that is no store's has no version. -/
theorem versions_of_no_store (h : w.stores.get request = none) : (stored request w).latest = {} ∧ (stored request w).previous = {} := by
  rw [stored, World.store, h]
  cases w.objects.get (.secret, request) <;> exact ⟨rfl, rfl⟩

/-- An act that saves no version for a resource leaves it those it has, or leaves it without any. -/
theorem versions_act (h : ∀ s, a = .putStore s → s.key ≠ request) :
    (stored request (Acts.act a w)).latest = (stored request w).latest ∧ (stored request (Acts.act a w)).previous = (stored request w).previous ∨
      (stored request (Acts.act a w)).latest = {} ∧ (stored request (Acts.act a w)).previous = {} := by
  have hsame : (Acts.act a w).store request = w.store request → stored request (Acts.act a w) = stored request w := fun hstore => by
    rw [stored, hstore, stored]
  -- a secret that is put among the objects is a store with no version
  have hput : ∀ o : Object, (Acts.act a w).stores = w.stores → (Acts.act a w).objects = w.objects.put o →
      stored request (Acts.act a w) = stored request w ∨
        (stored request (Acts.act a w)).latest = {} ∧ (stored request (Acts.act a w)).previous = {} := by
    intro o hstores hobjects
    rcases store_of_put request hstores hobjects with hstore | ⟨-, -, hstore⟩
    · exact .inl (hsame hstore)
    · rw [stored, hstore]
      exact .inr ⟨rfl, rfl⟩
  suffices hkept : stored request (Acts.act a w) = stored request w ∨
      (stored request (Acts.act a w)).latest = {} ∧ (stored request (Acts.act a w)).previous = {} by
    refine hkept.imp_left fun heq => ?_
    rw [heq]
    exact ⟨rfl, rfl⟩
  cases a with
  | createObject o | updateObject o => exact hput o rfl rfl
  | patchStatefulSet p result => exact hput result.toObject rfl rfl
  | putStore s =>
    have hne : request ≠ s.key := Ne.symm (h s rfl)
    refine .inl (hsame ?_)
    simp only [World.store, Acts.act, Act.effect]
    rw [Table.get_put_of_ne hne, Table.get_erase_of_ne fun he => hne (Prod.mk.inj he).2]
  | deleteObject kind' key' =>
    cases hs : (Acts.act (.deleteObject kind' key') w).stores.get request with
    | none => exact .inr (versions_of_no_store hs)
    | some s =>
      have hw : w.stores.get request = some s := by
        simp only [Acts.act, Act.effect] at hs
        split at hs
        · rw [Table.get_erase] at hs
          split at hs
          · cases hs
          · exact hs
        · exact hs
      refine .inl (hsame ?_)
      rw [World.store, World.store, hs, hw]
  | call | store | validateStatefulSet | attemptReadyAction | executeActions | coherenceStatus | coherenceReplicas | coherenceJobStatus
  | coherenceJobReplicas => exact .inl (hsame rfl)
  | coherenceMetadata | coherenceJobMetadata =>
    refine .inl (hsame ?_)
    simp only [Acts.act, Act.effect]
    split <;> rfl

/-- What is stored after an act was stored before, or was saved by it. -/
theorem wants_stored_act {kind : ResourceType} {key : NamespacedName} (h : (stored request (Acts.act a w)).latest.Wants kind key) :
    (stored request w).latest.Wants kind key ∨ ∃ s, a = .putStore s ∧ s.key = request ∧ (s.latest.getD {}).Wants kind key := by
  by_cases hsave : ∃ s, a = .putStore s ∧ s.key = request
  · obtain ⟨s, rfl, rfl⟩ := hsave
    have hstore : (Acts.act (.putStore s) w).store s.key = some s := by
      simp only [World.store, Acts.act, Act.effect]
      rw [Table.get_put_self]
    rw [stored, hstore] at h
    exact .inr ⟨s, rfl, rfl, h⟩
  · obtain ⟨hlatest, -⟩ | ⟨hlatest, -⟩ := versions_act (w := w) fun s ha hkey => hsave ⟨s, ha, hkey⟩
    · rw [hlatest] at h
      exact .inl h
    · rw [hlatest] at h
      exact absurd h not_wants_empty

theorem World.HasSaved.act (h : w.HasSaved request) (a : Act) : (Acts.act a w).HasSaved request := by
  intro kind key hwants
  rcases wants_stored_act hwants with hwants | ⟨s, rfl, hkey, hwants⟩
  · obtain ⟨s, hs, hkey, hwants⟩ := h kind key hwants
    exact ⟨s, List.mem_cons_of_mem _ hs, hkey, hwants⟩
  · exact ⟨s, List.mem_cons_self, hkey, hwants⟩

/-- **One act** that creates what is stored. -/
theorem World.IsAhead.act (h : w.IsAhead request) (ha : a.Follows (stored request w).latest) : (Acts.act a w).IsAhead request := by
  refine ⟨preceded_cons.2 ⟨?_, h.log⟩, h.saved.act a⟩
  rintro o rfl hsecret hjob
  exact h.saved _ _ (ha hsecret hjob)

theorem World.IsAhead.path {A : Act → Prop} (hA : ∀ a, A a → ∀ res, a.Follows res) (p : Path A w u) (h : w.IsAhead request) :
    u.IsAhead request :=
  p.invariant (I := fun x : World => x.IsAhead request) (fun a _ ha hx => hx.act (hA a ha _)) h

/-! ### A reconcile -/

theorem follows_of_quiet (ha : a.IsQuiet) : a.Follows latest := by
  cases a with
  | createObject o =>
    intro hsecret
    exact absurd ha hsecret
  | _ => trivial

theorem follows_of_keepsVersions (ha : CoherenceReconciler.KeepsVersions op env request w a) : a.Follows latest := by
  cases ha with
  | call => trivial
  | put => trivial

theorem follows_of_saves {S : Act → Prop} {res : Resources} (ha : a.Saves request res S) : a.Follows latest := by
  cases a with
  | createObject => exact ha.elim
  | _ => trivial

/-- What is done for the version `latest`, which is stored: the secrets are left alone, and what is created is in the version. -/
def Act.IsAhead (latest : Resources) (a : Act) : Prop := a.SparesSecrets ∧ a.Follows latest

theorem serves_isAhead {st : Storage} (hst : st.IsGenerated request) : Serves (Act.IsAhead st.latest) request st := by
  have hspares : Serves Act.SparesSecrets request st := serves_sparesSecrets hst
  refine ⟨fun a ha => ⟨hspares.note a ha, ?_⟩, fun kind key hk => ?_, fun o ho => ⟨hspares.create o ho, fun _ hjob => ho.resolve_right hjob⟩,
    fun r hr o ho hkey => ⟨hspares.update r hr o ho hkey, trivial⟩, fun o ho hkey => ⟨hspares.scale o ho hkey, trivial⟩,
    fun original desired => ⟨hspares.validate original desired, trivial⟩, fun p result hkey => ⟨hspares.patch p result hkey, trivial⟩⟩
  · exact follows_of_quiet ha.isQuiet
  · obtain ⟨hcall, hdelete⟩ := hspares.delete kind key hk
    exact ⟨⟨hcall, trivial⟩, hdelete, trivial⟩

/-- **One reconcile.** -/
theorem isAhead_reconcile (hw : w.IsAhead request) (hgen : (stored request w).IsGenerated request) :
    (exec (CoherenceReconciler.reconcile op env request) w).2.IsAhead request := by
  have hquiet : ∀ {v : World} {H : String → Prop}, Quietly request H (CoherenceReconciler.KeepsVersions op env request w) w v →
      v.IsAhead request := fun hv => hw.path (fun a ha _ => ha.elim follows_of_quiet follows_of_keepsVersions) hv.path
  have hrec : Wp (CoherenceReconciler.reconcile op env request) (CoherenceReconciler.Reconciled op env request w) w :=
    CoherenceReconciler.wp_reconcile
  cases hrec with
  | quiet h => exact hquiet h
  | upgraded _ _ _ _ h => exact hquiet h
  | @stored c h res st st' u _ _ ha hs hrun =>
    obtain ⟨hres, hst'⟩ := ha.isGenerated hgen.latest
    have hu : u.IsAhead request := hw.path (fun a ha _ => ha.elim follows_of_quiet follows_of_saves) hs.path
    have hst : Storage.IsGenerated request { st' with latest := st'.next res, previous := st'.latest, hash := some h } :=
      ⟨hres.next st', hst'⟩
    have hpath : Path (Act.IsAhead (st'.next res)) u (exec (CoherenceReconciler.reconcile op env request) w).2 := by
      rw [← congrArg Prod.snd hrun]
      exact does_reconcileStored (serves_isAhead hst) hst u
    have hlatest : (stored request u).latest = st'.next res := hs.latest.trans (hres.next st').marshal
    refine (hpath.invariant (I := fun x : World => x.IsAhead request ∧ (stored request x).latest = st'.next res)
      (fun a x ha hx => ?_) ⟨hu, hlatest⟩).1
    obtain ⟨hx, hxlatest⟩ := hx
    refine ⟨hx.act (hxlatest ▸ ha.2), ?_⟩
    rw [stored, ha.1.store_eq]
    exact hxlatest

/-! ### Runs -/

namespace CoherenceTurn

/-- What a run keeps: the store is ahead, and what is in it was generated. -/
theorem isAhead_step (hw : w.IsAhead request ∧ (stored request w).IsGenerated request) (t : CoherenceTurn) :
    (t.step op request w).IsAhead request ∧ (stored request (t.step op request w)).IsGenerated request := by
  refine ⟨?_, isGenerated_step hw.2 t⟩
  cases t with
  | reconcile env => exact isAhead_reconcile hw.1 hw.2
  | edit | delete => exact ⟨hw.1.log, hw.1.saved⟩

/-- Where a reconcile does not find the resource, finds it being deleted, refused, without its finalizer or without a number of replicas, or
does not get the lock, it leaves the objects and the versions that are stored as they are. -/
def SparesTheUnfit (op : Operator) (request : NamespacedName) (w : World) : CoherenceTurn → Prop
  | reconcile env => (¬ ∃ c, CoherenceReconciler.Reaches op env request w c) →
      (∀ kind key, kind ≠ .secret → (step op request w (reconcile env)).find kind key = w.find kind key) ∧
        (stored request (step op request w (reconcile env))).latest = (stored request w).latest ∧
        (stored request (step op request w (reconcile env))).previous = (stored request w).previous
  | _ => True

theorem sparesTheUnfit (hw : (stored request w).IsGenerated request) (t : CoherenceTurn) : t.SparesTheUnfit op request w := by
  cases t with
  | edit | delete => trivial
  | reconcile env =>
    intro hunfit
    have hmoved : Moved op env request w (exec (CoherenceReconciler.reconcile op env request) w).2 := (moved_reconcile hw).1
    rcases hmoved with ⟨hlatest, hprevious, hobjects⟩ | ⟨hattempt, -, -, -, -⟩
    · refine ⟨fun kind key hk => ?_, hlatest, hprevious⟩
      rw [World.find_of_ne_secret _ hk, World.find_of_ne_secret _ hk]
      exact hobjects kind key hk
    · exact absurd ⟨_, hattempt.reaches⟩ hunfit

end CoherenceTurn

end CoherenceOperator
