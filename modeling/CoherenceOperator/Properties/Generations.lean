import CoherenceOperator.Properties.Deletions
import CoherenceOperator.Properties.MonitorUpdates

/-!
# The generation that is stored

What a reconcile stores under the hash of a generation is what the spec of that generation generates, if the version of the
operator is in the status of the resource by then. It is written there at the end of a reconcile, after the resources were
stored, and until then the resource passes for one of 3.4.3 or before, whose stored resources are used again. So where a
reconcile fails between the two, the next edit of the spec is swallowed: what is stored under its generation are the
resources of the one before.
-/

namespace CoherenceOperator

open Effect Prog Storage

variable {op : Operator} {env : Env} {request : NamespacedName} {c c' : Coherence} {st st' : Storage} {w u v : World}
  {h : String} {res : Resources} {turns : List CoherenceTurn}

theorem toString_injective {m n : ℕ} (he : toString m = toString n) : m = n := by
  have hdigits : Nat.toDigits 10 m = Nat.toDigits 10 n := by
    have hlist := congrArg String.toList he
    simpa [Nat.repr] using hlist
  rw [← Nat.ofDigitChars_toDigits (b := 10) (n := m) (by decide) (by decide), hdigits,
    Nat.ofDigitChars_toDigits (by decide) (by decide)]

/-! ### One generation -/

/-- The two are the resource at one generation: it may have changed in its status, its annotations and its finalizers. -/
structure Coherence.SameGeneration (c c' : Coherence) : Prop where
  key : c'.key = c.key
  labels : c'.metadata.labels = c.metadata.labels
  generation : c'.generation = c.generation
  spec : c'.spec = c.spec

/-- The second is the resource at the same generation or a later one. -/
structure Coherence.Later (c c' : Coherence) : Prop where
  key : c'.key = c.key
  labels : c'.metadata.labels = c.metadata.labels
  generation : c.generation ≤ c'.generation
  spec : c.generation = c'.generation → c'.spec = c.spec

namespace Coherence

theorem SameGeneration.refl : c.SameGeneration c := ⟨rfl, rfl, rfl, rfl⟩

theorem SameGeneration.later (hs : c.SameGeneration c') : c.Later c' := ⟨hs.key, hs.labels, hs.generation.ge, fun _ => hs.spec⟩

theorem Later.refl : c.Later c := SameGeneration.refl.later

theorem Later.trans {c'' : Coherence} (h₁ : c.Later c') (h₂ : c'.Later c'') : c.Later c'' where
  key := h₂.key.trans h₁.key
  labels := h₂.labels.trans h₁.labels
  generation := h₁.generation.trans h₂.generation
  spec he := by
    have hsame : c.generation = c'.generation := le_antisymm h₁.generation (he ▸ h₂.generation)
    rw [h₂.spec (hsame ▸ he), h₁.spec hsame]

/-- What was the resource at its generation once still is, if that is the generation of a later one. -/
theorem Later.sameGeneration {c₀ : Coherence} (hl : c.Later c') (hg : c.generation = c'.generation) (hs : c.SameGeneration c₀) :
    c'.SameGeneration c₀ where
  key := hs.key.trans hl.key.symm
  labels := hs.labels.trans hl.labels.symm
  generation := hs.generation.trans hg
  spec := hs.spec.trans (hl.spec hg).symm

theorem later_withMetadata {annotations : Labels} {finalizers : List String} : c.Later (c.withMetadata annotations finalizers) :=
  ⟨rfl, rfl, le_rfl, fun _ => rfl⟩

theorem later_withReplicas {replicas : ℤ} : c.Later (c.withReplicas replicas) :=
  ⟨rfl, rfl, Nat.le_succ _, fun he => absurd he (Nat.lt_succ_self _).ne⟩

theorem later_edited {spec : CoherenceStatefulSetResourceSpec} : c.Later (CoherenceTurn.edited spec c) :=
  ⟨rfl, rfl, Nat.le_succ _, fun he => absurd he (Nat.lt_succ_self _).ne⟩

end Coherence

/-- The resource of the request, if it is still there, is a later one. -/
def World.Ages (request : NamespacedName) (w u : World) : Prop :=
  ∀ c', u.coherence.get request = some c' → ∃ c, w.coherence.get request = some c ∧ c.Later c'

namespace World

theorem Ages.refl : w.Ages request w := fun c' hc' => ⟨c', hc', .refl⟩

theorem Ages.trans (h₁ : w.Ages request u) (h₂ : u.Ages request v) : w.Ages request v := by
  intro c'' hc''
  obtain ⟨c', hc', hl'⟩ := h₂ c'' hc''
  obtain ⟨c, hc, hl⟩ := h₁ c' hc'
  exact ⟨c, hc, hl.trans hl'⟩

theorem ages_modify {key : NamespacedName} {f : Coherence → Coherence} {hf : ∀ c, (f c).key = c.key} (hl : ∀ c : Coherence, c.Later (f c)) :
    w.Ages request (w.modifyCoherence key f hf) := by
  intro c' hc'
  by_cases hk : request = key
  · subst hk
    rw [modifyCoherence, Table.get_modify_self, Option.map_eq_some_iff] at hc'
    obtain ⟨c, hc, rfl⟩ := hc'
    exact ⟨c, hc, hl c⟩
  · rw [modifyCoherence, Table.get_modify_of_ne hk] at hc'
    exact ⟨c', hc', .refl⟩

/-- Whatever is done, the resource does not become an earlier one. -/
theorem ages_act (a : Act) (w : World) : w.Ages request (Acts.act a w) := by
  cases a with
  | coherenceStatus key status =>
    have hmodify : w.Ages request (w.modifyCoherence key (·.withStatus status) (·.key_withStatus _)) :=
      ages_modify fun _ => ⟨rfl, rfl, le_rfl, fun _ => rfl⟩
    exact hmodify
  | coherenceReplicas key replicas =>
    have hmodify : w.Ages request (w.modifyCoherence key (·.withReplicas replicas) (·.key_withReplicas _)) :=
      ages_modify fun _ => Coherence.later_withReplicas
    exact hmodify
  | coherenceMetadata key annotations finalizers =>
    simp only [Acts.act, Act.effect]
    split
    · intro c' hc'
      rw [Table.get_erase] at hc'
      split at hc'
      · cases hc'
      · exact ⟨c', hc', .refl⟩
    · have hmodify : w.Ages request (w.modifyCoherence key (·.withMetadata annotations finalizers) (·.key_withMetadata _ _)) :=
        ages_modify fun _ => Coherence.later_withMetadata
      exact hmodify
  | deleteObject | coherenceJobMetadata =>
    simp only [Acts.act, Act.effect]
    split <;> exact .refl
  | _ => exact .refl

theorem ages_of_path {A : Act → Prop} (p : Path A w u) : w.Ages request u :=
  p.invariant (fun a x _ hx => hx.trans (ages_act a x)) .refl

end World

/-! ### What is stored -/

theorem Object.prepared_prepared {owner : Owner} {version : String} (o : Object) :
    (o.prepared owner version h).prepared owner version h = o.prepared owner version h := by
  obtain ⟨m, b⟩ := o
  simp [Object.prepared, Object.setHash, Object.withOwnerReferences, Labels.set, Finmap.insert_insert]

theorem Resources.prepared_prepared {owner : Owner} {version : String} (res : Resources) :
    (res.prepared owner version h).prepared owner version h = res.prepared owner version h := by
  have hitem : ∀ r : Resource, (r.prepared owner version h).prepared owner version h = r.prepared owner version h := by
    intro r
    simp only [Resource.prepared, Resource.mapSpec, Option.map_map]
    congr 1
    exact Option.map_congr fun o _ => o.prepared_prepared
  simp only [Resources.prepared, List.map_map]
  congr 1
  exact List.map_congr_left fun r _ => hitem r

/-- The resources are those that the spec of the resource generates, with the owner, and with the hash of its generation. -/
def IsOf (op : Operator) (c : Coherence) (h : String) (res : Resources) : Prop :=
  ∃ c₀, c.SameGeneration c₀ ∧ res.items = ((c₀.createKubernetesResources op).prepared c.toResource.owner op.version h).items

theorem IsOf.later (ho : IsOf op c h res) (hl : c.Later c') (hg : c.generation = c'.generation) : IsOf op c' h res := by
  obtain ⟨c₀, hsame, hitems⟩ := ho
  have howner : c'.toResource.owner = c.toResource.owner := congrArg (Owner.mk .coherence) hl.key
  exact ⟨c₀, hl.sameGeneration hg hsame, by rw [hitems, howner]⟩

/-- Whenever `Store` is called with the hash of a generation, it is the generation of the resource, and the resources are those
that its spec generates. -/
def StoresGenerated (op : Operator) (request : NamespacedName) (w v : World) : Prop :=
  ∀ owner h res, .store owner h res ∈ w.since v → ∃ c, w.coherence.get request = some c ∧ h = toString c.generation ∧ IsOf op c h res

/-- What is stored under the hash of a generation was generated from the spec of that generation, and there is no hash of a
generation that is still to come. The resource has no hash label. -/
structure World.IsCurrent (op : Operator) (request : NamespacedName) (w : World) : Prop where
  generated : (stored request w).IsGenerated request
  unlabelled : ∀ c, w.coherence.get request = some c → c.metadata.labels.lookup LabelCoherenceHash = none
  hash : ∀ c x, w.coherence.get request = some c → (stored request w).hash = some x →
    ∃ g ≤ c.generation, x = toString g ∧ (g = c.generation → IsOf op c x (stored request w).latest)

/-- No label of all objects is the hash, and where another generation is stored the version of the resource is known to be
later than 3.4.3. -/
def CoherenceTurn.KnowsVersion (op : Operator) (request : NamespacedName) (w : World) : CoherenceTurn → Prop
  | reconcile _ => ∀ c, w.coherence.get request = some c → (∀ h, ¬ c.toResource.GlobalHash op h) ∧
      ∀ x, (stored request w).hash = some x → x ≠ toString c.generation → c.toResource.isLegacy op ≠ .ok true
  | _ => True

/-- Without a hash label the hash is the generation. -/
theorem getGenerationString_of_unlabelled (hlabel : c.metadata.labels.lookup LabelCoherenceHash = none)
    (hh : c.getGenerationString op = .ok h) : h = toString c.generation := by
  rw [Coherence.getGenerationString, getGenerationString] at hh
  split at hh
  · cases hh
  · rw [hlabel] at hh
    exact (Except.ok.inj hh).symm
  · exact (Except.ok.inj hh).symm

/-- The hash of a resource of 3.4.3 or before that is stored already. -/
theorem hash_of_isStoredLegacy (hlabel : c.metadata.labels.lookup LabelCoherenceHash = none)
    (hloads : st.Loads op request w c.toResource) (hglobal : ∀ h, ¬ c.toResource.GlobalHash op h)
    (hlegacy : c.toResource.isStoredLegacy op st = .ok true) : (stored request w).hash = some (toString c.generation) := by
  obtain ⟨h, hh, hlegacy⟩ := bind_eq_ok.1 hlegacy
  have hgeneration : h = toString c.generation := getGenerationString_of_unlabelled hlabel hh
  split at hlegacy
  · rename_i heq
    cases hx : st.hash with
    | none =>
      rw [hx, Option.getD_none, hgeneration] at heq
      have hlist : (toString c.generation).toList = "".toList := congrArg String.toList heq
      simp at hlist
    | some x =>
      rw [hx, Option.getD_some] at heq
      rw [(hloads.hash x hx).resolve_right (hglobal x), ← heq, hgeneration]
  · cases hlegacy

namespace CoherenceReconciler

/-- **What is planned** is of the generation that is reconciled. -/
theorem Attempt.isOf (ha : Attempt op env request w c h res st st') (hw : w.IsCurrent op request)
    (hknows : (CoherenceTurn.reconcile env).KnowsVersion op request w) : h = toString c.generation ∧ IsOf op c h res := by
  obtain ⟨hglobal, hversion⟩ := hknows c ha.reaches.found
  have hgeneration : h = toString c.generation := getGenerationString_of_unlabelled (hw.unlabelled c ha.reaches.found) ha.hash
  refine ⟨hgeneration, ?_⟩
  rcases plan_eq_ok ha.plan with ⟨huses, hprepare, -⟩ | ⟨-, hprepare, -⟩
  · have hgen : st.latest.IsGenerated c.toResource.owner := by
      rw [ha.loads.latest, ha.reaches.owner]
      exact hw.generated.latest
    rw [prepare_eq_ok hgen ha.hash, Except.ok.injEq] at hprepare
    -- the stored resources are used again only if they are stored under the same hash
    have hstored : (stored request w).hash = some h := by
      have hhash : c.toResource.generationString op = .ok h := ha.hash
      have hcurrent := ha.current
      rw [CoherenceResource.usesStored, hhash] at huses
      rw [CoherenceResource.isStoredLegacy, hhash] at hcurrent
      cases hx : st.hash with
      | none =>
        rw [hx] at huses
        cases huses
      | some x =>
        have hload := (ha.loads.hash x hx).resolve_right (hglobal x)
        by_cases hxh : x = h
        · rw [← hxh, hload]
        · rw [hgeneration] at hxh
          have hlegacy := hversion x hload hxh
          simp only [hx, bind, Except.bind, hgeneration, ne_eq, hxh, not_false_eq_true, true_or, if_true] at huses
          exact absurd huses hlegacy
    obtain ⟨g, -, hg, hof⟩ := hw.hash c h ha.reaches.found hstored
    obtain ⟨c₀, hsame, hitems⟩ := hof (toString_injective (hg.symm.trans hgeneration))
    refine ⟨c₀, hsame, ?_⟩
    rw [← hprepare, ha.loads.latest, Resources.prepared, hitems]
    have htwice : (((c₀.createKubernetesResources op).prepared c.toResource.owner op.version h).prepared
        c.toResource.owner op.version h).items = _ := congrArg Resources.items (Resources.prepared_prepared _)
    exact htwice
  · rw [prepare_eq_ok c.isGenerated_createKubernetesResources ha.hash, Except.ok.injEq] at hprepare
    exact ⟨c, .refl, by rw [hprepare]⟩

end CoherenceReconciler

/-! ### Steps and runs -/

/-- Where nothing is stored the state is as current as it was. -/
theorem World.IsCurrent.of_same (hw : w.IsCurrent op request) (hages : w.Ages request v)
    (hlatest : (stored request v).latest = (stored request w).latest)
    (hprevious : (stored request v).previous = (stored request w).previous)
    (hhash : ∀ x, (stored request v).hash = some x → (stored request w).hash = some x) : v.IsCurrent op request where
  generated := ⟨hlatest ▸ hw.generated.latest, hprevious ▸ hw.generated.previous⟩
  unlabelled c' hc' := by
    obtain ⟨c, hc, hl⟩ := hages c' hc'
    rw [hl.labels, hw.unlabelled c hc]
  hash c' x hc' hx := by
    obtain ⟨c, hc, hl⟩ := hages c' hc'
    obtain ⟨g, hle, hg, hof⟩ := hw.hash c x hc (hhash x hx)
    refine ⟨g, hle.trans hl.generation, hg, fun he => ?_⟩
    have hsame : c.generation = c'.generation := le_antisymm hl.generation (he ▸ hle)
    rw [hlatest]
    exact (hof (he.trans hsame.symm)).later hl hsame

namespace CoherenceTurn

open CoherenceReconciler in
/-- **One reconcile** of which the version is known. -/
theorem storesGenerated_reconcile (hw : w.IsCurrent op request) (hknows : (reconcile env).KnowsVersion op request w) :
    ((reconcile env).step op request w).IsCurrent op request ∧ StoresGenerated op request w ((reconcile env).step op request w) := by
  have hrec : Wp (CoherenceReconciler.reconcile op env request) (Reconciled op env request w) w := wp_reconcile
  -- what is called without being stored, and a hash that is not stored already
  have hquiet : ∀ {H : String → Prop} {v : World}, Quietly request H (KeepsVersions op env request w) w v →
      (∀ x, H x → (stored request w).hash = some x) → v.IsCurrent op request ∧ StoresGenerated op request w v := by
    intro H v hv hH
    refine ⟨hw.of_same (World.ages_of_path hv.path) hv.latest hv.previous fun x hx => (hv.hash x hx).elim id (hH x), ?_⟩
    intro owner h res hmem
    rcases mem_since_of_path hv.path hmem with hmem | hmem
    · exact hmem.elim
    · cases hmem with
      | call ha => exact ⟨_, ha.reaches.found, ha.isOf hw hknows⟩
  show (exec (CoherenceReconciler.reconcile op env request) w).2.IsCurrent op request ∧ StoresGenerated op request w _
  cases hrec with
  | quiet hv => exact hquiet hv fun x ⟨c, hreach, hx⟩ => absurd hx ((hknows c hreach.found).1 x)
  | @upgraded c st h _ _ hreach hloads hlegacy hh hv =>
    refine hquiet hv fun x hx => ?_
    have hlabel := hw.unlabelled c hreach.found
    have hnew : h = toString c.generation := getGenerationString_of_unlabelled (c := c.updateStatusVersion op env.now) hlabel hh
    obtain rfl : x = h := hx.resolve_left ((hknows c hreach.found).1 x)
    rw [hnew]
    exact hash_of_isStoredLegacy hlabel hloads (hknows c hreach.found).1 hlegacy
  | @stored c h res st st' u _ _ ha hs hrun =>
    obtain ⟨hgeneration, hof⟩ := ha.isOf hw hknows
    obtain ⟨hres, hst'⟩ := ha.isGenerated hw.generated.latest
    have hgen : Storage.IsGenerated request { st' with latest := st'.next res, previous := st'.latest, hash := some h } :=
      ⟨hres.next st', hst'⟩
    have hpath : Path Act.SparesSecrets u (exec (reconcileStored op env request (c.updateStatusVersion op env.now) h
        { st' with latest := st'.next res, previous := st'.latest, hash := some h }) u).2 := path_reconcileStored hgen u
    rw [hrun] at hpath
    have hall : Path (fun a => (a.IsQuiet ∨ a.Saves request (marshal (st'.next res)) (· = .store (.coherence (some c)) h (st'.next res))) ∨
        a.SparesSecrets) w (exec (CoherenceReconciler.reconcile op env request) w).2 :=
      (hs.path.mono fun _ => .inl).trans (hpath.mono fun _ => .inr)
    have hsame : stored request (exec (CoherenceReconciler.reconcile op env request) w).2 = stored request u := by
      have hstore : (exec (CoherenceReconciler.reconcile op env request) w).2.store request = u.store request :=
        hpath.unchanged (f := fun x : World => x.store request) fun _ _ ha => ha.store_eq
      rw [Storage.stored, hstore, Storage.stored]
    have hmarshal : marshal (st'.next res) = st'.next res := (hres.next st').marshal
    refine ⟨⟨?_, fun c' hc' => ?_, fun c' x hc' hx => ?_⟩, fun owner h' res' hmem => ?_⟩
    · exact ⟨by rw [hsame, hs.latest, hmarshal]; exact hres.next st', by rw [hsame, hs.previous]; exact hw.generated.latest⟩
    · obtain ⟨c₁, hc₁, hl⟩ := World.ages_of_path hall c' hc'
      rw [hl.labels, hw.unlabelled c₁ hc₁]
    · obtain ⟨c₁, hc₁, hl⟩ := World.ages_of_path hall c' hc'
      obtain rfl : c₁ = c := Option.some.inj (hc₁.symm.trans ha.reaches.found)
      have hglobal : (c₁.toResource.createGlobalLabels op).lookup LabelCoherenceHash = none :=
        Option.eq_none_iff_forall_ne_some.2 ((hknows c₁ hc₁).1)
      rw [hsame, hs.hash, hglobal, Option.getD_none, Option.some.injEq] at hx
      refine ⟨c₁.generation, hl.generation, by rw [← hx, hgeneration], fun he => ?_⟩
      rw [hsame, hs.latest, hmarshal, ← hx]
      have hnext : IsOf op c₁ h (st'.next res) := hof
      exact hnext.later hl he
    · rcases mem_since_of_path hall hmem with (hmem | hmem) | hmem
      · exact hmem.elim
      · cases hmem
        exact ⟨c, ha.reaches.found, hgeneration, hof⟩
      · exact hmem.elim

/-- **One turn** keeps what is stored current. -/
theorem isCurrent_step (hw : w.IsCurrent op request) {t : CoherenceTurn} (ht : t.KnowsVersion op request w) :
    (t.step op request w).IsCurrent op request ∧ StoresGenerated op request w (t.step op request w) := by
  have huser : ∀ {f : Coherence → Coherence} {hf : ∀ c, (f c).key = c.key}, (∀ c : Coherence, c.Later (f c)) →
      (w.modifyCoherence request f hf).IsCurrent op request ∧ StoresGenerated op request w (w.modifyCoherence request f hf) := by
    refine fun hl => ⟨hw.of_same (World.ages_modify hl) rfl rfl fun _ => id, fun owner h res hmem => ?_⟩
    have hnone : w.since w = [] := World.since_append rfl
    have hmem : .store owner h res ∈ w.since w := hmem
    rw [hnone] at hmem
    cases hmem
  cases t with
  | edit spec => exact huser fun _ => Coherence.later_edited
  | delete now => exact huser fun _ => ⟨rfl, rfl, le_rfl, fun _ => rfl⟩
  | reconcile env => exact storesGenerated_reconcile hw ht

end CoherenceTurn

/-- A resource that was just created, for which nothing is stored: it has no version, no hash label and no status. -/
structure World.IsCreated (request : NamespacedName) (w : World) : Prop where
  store : w.store request = none
  created : ∀ c, w.coherence.get request = some c → c.metadata.annotations.lookup AnnotationOperatorVersion = none ∧
    c.metadata.labels.lookup LabelCoherenceHash = none ∧ c.status = {}

theorem World.IsCreated.isCurrent (hw : w.IsCreated request) : w.IsCurrent op request where
  generated := by
    rw [Storage.stored, hw.store]
    exact ⟨by rintro r ⟨⟩, by rintro r ⟨⟩⟩
  unlabelled c hc := (hw.created c hc).2.1
  hash c x _ hx := by
    rw [Storage.stored, hw.store] at hx
    cases hx

/-- **What is stored under the hash of a generation** is what its spec generates, in each step of a run from the creation of the
resource in which the version is known where another generation is stored. -/
theorem along_storesGenerated (hw : w.IsCreated request)
    (h : Along (CoherenceTurn.step op request) (CoherenceTurn.KnowsVersion op request) w turns) :
    Along (CoherenceTurn.step op request) (fun w t => StoresGenerated op request w (t.step op request w)) w turns :=
  h.mono_of_invariant (I := fun w => w.IsCurrent op request) (fun _ _ hI ht => (CoherenceTurn.isCurrent_step hI ht).1)
    (fun _ _ hI ht => (CoherenceTurn.isCurrent_step hI ht).2) hw.isCurrent

/-! ### A port that is added -/

/-- The StatefulSet cannot be read. -/
def failsGetStatefulSet : Env where
  faults := fun _ c => if c = ⟨.get, .statefulSet, ⟨"default", "storage"⟩⟩ then some .internalError else none

/-- The resource is reconciled, a port is added to its spec, and it is reconciled again. -/
def portAdded (env : Env) : List CoherenceTurn := [.reconcile env, .edit withPort, .reconcile {}]

theorem isCreated_tendedCluster (spec : CoherenceStatefulSetResourceSpec) :
    (tendedCluster spec).IsCreated ⟨"default", "storage"⟩ := by
  refine ⟨rfl, fun c hc => ?_⟩
  have hself : (tendedCluster spec).coherence.get ⟨"default", "storage"⟩ = some (tendedCoherence spec) := rfl
  rw [hself, Option.some.injEq] at hc
  subst hc
  exact ⟨rfl, rfl, rfl⟩

/-- A version that is known can be seen to be. -/
theorem knowsVersion_of_forall (hall : ∀ c ∈ w.coherence.get request,
    (c.toResource.createGlobalLabels op).lookup LabelCoherenceHash = none ∧
      ((stored request w).hash = none ∨ c.toResource.isLegacy op ≠ .ok true)) :
    (CoherenceTurn.reconcile env).KnowsVersion op request w := by
  intro c hc
  obtain ⟨hglobal, hversion⟩ := hall c hc
  refine ⟨fun h hh => ?_, fun x hx _ => hversion.resolve_left fun hnone => ?_⟩
  · rw [CoherenceResource.GlobalHash, hglobal] at hh
    cases hh
  · rw [hnone] at hx
    cases hx

/-- Where no request fails the port is in what is stored. -/
theorem along_storesGenerated_portAdded :
    Along (CoherenceTurn.step ServiceMonitor.patchingOperator ⟨"default", "storage"⟩)
      (fun w t => StoresGenerated ServiceMonitor.patchingOperator ⟨"default", "storage"⟩ w
        (t.step ServiceMonitor.patchingOperator ⟨"default", "storage"⟩ w)) (tendedCluster withoutPort) (portAdded {}) := by
  refine along_storesGenerated (isCreated_tendedCluster withoutPort) ⟨?_, trivial, ?_, trivial⟩
  · exact knowsVersion_of_forall (by decide +kernel)
  · exact knowsVersion_of_forall (by decide +kernel)

/-- How many resources are stored. -/
def Act.storedCount : Act → Option ℕ
  | .store _ _ res => some res.items.length
  | _ => none

theorem Act.storedCount_eq_some {a : Act} {n : ℕ} (ha : a.storedCount = some n) :
    ∃ owner h res, a = .store owner h res ∧ res.items.length = n := by
  cases a with
  | store owner h res => exact ⟨owner, h, res, rfl, Option.some.inj ha⟩
  | _ => cases ha

/-- With the port there is one resource more. -/
theorem length_createKubernetesResources_withPort (hc : c.spec = withPort) : (c.createKubernetesResources op).items.length = 4 := by
  obtain ⟨m, g, s, status⟩ := c
  subst hc
  rfl

/-- Where a request fails after the resources were stored it is not. -/
theorem not_forall_storesGenerated :
    ¬ ∀ (op : Operator) (request : NamespacedName) (w : World) (turns : List CoherenceTurn), w.IsCreated request →
      Along (CoherenceTurn.step op request) (fun w t => StoresGenerated op request w (t.step op request w)) w turns := by
  intro h
  have hstores := (h ServiceMonitor.patchingOperator ⟨"default", "storage"⟩ (tendedCluster withoutPort)
    (portAdded failsGetStatefulSet) (isCreated_tendedCluster withoutPort)).2.2.1
  generalize hedited : CoherenceTurn.step ServiceMonitor.patchingOperator ⟨"default", "storage"⟩
    (CoherenceTurn.step ServiceMonitor.patchingOperator ⟨"default", "storage"⟩ (tendedCluster withoutPort)
      (.reconcile failsGetStatefulSet)) (.edit withPort) = edited at hstores
  have hmem : 3 ∈ (edited.since (CoherenceTurn.step ServiceMonitor.patchingOperator ⟨"default", "storage"⟩ edited
      (.reconcile {}))).filterMap Act.storedCount := by
    rw [← hedited]
    decide +kernel
  have hspec : ∀ c ∈ edited.coherence.get ⟨"default", "storage"⟩, c.spec = withPort := by
    rw [← hedited]
    decide +kernel
  obtain ⟨a, ha, hcount⟩ := List.mem_filterMap.1 hmem
  obtain ⟨owner, hash, res, rfl, hlength⟩ := Act.storedCount_eq_some hcount
  obtain ⟨c, hc, -, c₀, hsame, hitems⟩ := hstores owner hash res ha
  rw [hitems, Resources.prepared, List.length_map,
    length_createKubernetesResources_withPort (hsame.spec.trans (hspec c hc))] at hlength
  cases hlength

end CoherenceOperator
