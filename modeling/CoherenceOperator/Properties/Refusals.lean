import CoherenceOperator.Footprint.Calming
import CoherenceOperator.Properties.Deletions
import CoherenceOperator.Properties.MonitorUpdates

/-!
# Updates that are refused

An update of a field that may not change is refused, by a comparison with the version that was stored before. But what is refused
is stored already when it is compared, so the next reconcile compares it with itself: the update is valid then, and everything
but the claims is patched. The first reconcile refuses, and no other does.
-/

namespace CoherenceOperator

open Effect Prog Storage

variable {op : Operator} {env : Env} {request key : NamespacedName} {c : Coherence} {st : Storage} {w u : World} {h : String}
  {live desired old : StatefulSet}

/-- The StatefulSet of a name among the resources. -/
def Resources.statefulSet (res : Resources) (name : String) : Option StatefulSet :=
  ((res.getResource .statefulSet name).bind (·.spec)).bind Object.asStatefulSet

/-- The StatefulSet with the owner and the hash that are set before it is stored. -/
def StatefulSet.prepared (owner : Owner) (version h : String) (s : StatefulSet) : StatefulSet :=
  { s with metadata := (s.toObject.prepared owner version h).metadata }

theorem Object.asStatefulSet_prepared (owner : Owner) (version h : String) (o : Object) :
    (o.prepared owner version h).asStatefulSet = o.asStatefulSet.map (StatefulSet.prepared owner version h) := by
  obtain ⟨m, b⟩ := o
  cases b <;> rfl

theorem Resources.statefulSet_prepared {owner : Owner} {version h name : String} {res : Resources} :
    (res.prepared owner version h).statefulSet name =
      (res.statefulSet name).map (StatefulSet.prepared owner version h) := by
  have hget : (res.prepared owner version h).getResource .statefulSet name =
      (res.getResource .statefulSet name).map (Resource.prepared owner version h) := List.find?_map ..
  rw [Resources.statefulSet, hget, Resources.statefulSet]
  cases hr : res.getResource .statefulSet name with
  | none => rfl
  | some r =>
    have hspec : (r.prepared owner version h).spec = r.spec.map (Object.prepared owner version h) := rfl
    rw [Option.map_some, Option.bind_some, Option.bind_some, hspec]
    cases r.spec with
    | none => rfl
    | some o => exact Object.asStatefulSet_prepared ..

/-- What it is to refuse an update: the StatefulSet stays as it is, and nothing is patched; what is validated is found invalid;
and where the resources are stored there is an error, which is that of the validation if no request fails. -/
structure Rejects (op : Operator) (env : Env) (request : NamespacedName) (w v : World) (r : Except GoError Result) : Prop where
  same : v.statefulSet request = w.statefulSet request
  unpatched : ∀ p result, .patchStatefulSet p result ∉ w.since v
  invalid : ∀ key original desired, .validateStatefulSet key original desired ∈ w.since v →
    validateStatefulSetUpdate desired original ≠ []
  fails : (stored request v).latest ≠ (stored request w).latest → ∃ e, r = .error e
  validated : (stored request v).latest ≠ (stored request w).latest → env.Reliable →
    ∃ original desired, .validateStatefulSet request original desired ∈ w.since v

namespace CoherenceTurn

/-- The turn is a reconcile, and the spec generates a StatefulSet that differs from the one that the live StatefulSet was created
from in a field that may not change. The numbers of replicas are the same. -/
def WantsForbidden (op : Operator) (request : NamespacedName) (w : World) : CoherenceTurn → Prop
  | reconcile _ => ∃ c live s₀ desired, w.coherence.get request = some c ∧
      w.statefulSet request = some live ∧ s₀.toObject ∈ w.log.filterMap Act.created ∧ s₀.key = request ∧
      (c.createKubernetesResources op).statefulSet request.name = some desired ∧ validateStatefulSetUpdate desired s₀ ≠ [] ∧
      live.getReplicas = desired.getReplicas
  | _ => False

/-- The StatefulSet is to stay and the spec is new: neither the live StatefulSet nor, if the resource is ready, what is stored
has its hash, and the StatefulSet that it generates is no valid update of the one in the latest version that is stored. -/
def IsNew (op : Operator) (request : NamespacedName) (w : World) : CoherenceTurn → Prop
  | reconcile _ => ∀ c live, w.coherence.get request = some c → w.statefulSet request = some live →
      c.getReplicas ≠ 0 ∧ live.metadata.deletionTimestamp = none ∧ c.toResource.isLegacy op = .ok false ∧
      (∀ h, c.getGenerationString op = .ok h → live.metadata.labels.lookup LabelCoherenceHash ≠ some h ∧
        ((stored request w).hash ≠ some h ∧ ¬ c.toResource.GlobalHash op h ∨ c.status.phase ≠ some .ready)) ∧
      ∃ old, (stored request w).latest.statefulSet request.name = some old ∧
        ∀ desired, (c.createKubernetesResources op).statefulSet request.name = some desired →
          validateStatefulSetUpdate desired old ≠ []
  | _ => True

end CoherenceTurn

/-! ### The StatefulSet -/

/-- Acts that leave the StatefulSets alone. -/
def Act.SparesWorkload : Act → Prop
  | .createObject o | .updateObject o => o.kind ≠ .statefulSet
  | .deleteObject kind _ => kind ≠ .statefulSet
  | .validateStatefulSet _ _ _ | .patchStatefulSet _ _ => False
  | _ => True

theorem Act.SparesWorkload.statefulSet_eq {a : Act} (ha : a.SparesWorkload) :
    (Acts.act a w).statefulSet key = w.statefulSet key := by
  have hobjects : ∀ {x : World}, x.objects.get (.statefulSet, key) = w.objects.get (.statefulSet, key) →
      x.statefulSet key = w.statefulSet key := by
    intro x hx
    rw [World.statefulSet, World.statefulSet, hx]
  cases a with
  | createObject o | updateObject o => exact hobjects (Table.get_put_of_ne fun he => ha (Prod.mk.inj he).1.symm)
  | deleteObject kind key' =>
    simp only [Acts.act, Act.effect]
    split
    · rfl
    · exact hobjects (Table.get_erase_of_ne fun he => ha (Prod.mk.inj he).1.symm)
  | putStore s => exact hobjects (Table.get_erase_of_ne fun he => by cases (Prod.mk.inj he).1)
  | validateStatefulSet | patchStatefulSet => exact ha.elim
  | coherenceMetadata | coherenceJobMetadata =>
    simp only [Acts.act, Act.effect]
    split <;> rfl
  | _ => rfl

theorem Act.IsNote.sparesWorkload {a : Act} (ha : a.IsNote) : a.SparesWorkload := by
  cases a with
  | createObject | updateObject | deleteObject | validateStatefulSet | patchStatefulSet => exact ha.elim
  | _ => trivial

theorem Act.IsQuiet.sparesWorkload {a : Act} (ha : a.IsQuiet) : a.SparesWorkload := by
  cases a with
  | createObject o | updateObject o =>
    intro hk
    have hsecret : o.kind = .secret := ha
    rw [hk] at hsecret
    cases hsecret
  | deleteObject kind =>
    intro hk
    have hsecret : kind = .secret := ha
    rw [hk] at hsecret
    cases hsecret
  | validateStatefulSet | patchStatefulSet => exact ha.elim
  | _ => trivial

namespace StatefulSetReconciler

/-- What is refused: the desired StatefulSet, which is to take the place of one of the same size, is no valid update of the
previous one. -/
structure Refuses (request : NamespacedName) (st : Storage) (live desired old : StatefulSet) : Prop where
  isJob : st.isJob request = false
  key : live.key = request
  undeleted : live.metadata.deletionTimestamp = none
  latest : st.latest.statefulSet request.name = some desired
  previous : previousStatefulSet st request.name = some old
  replicas : live.getReplicas = desired.getReplicas
  label : hashLabelsMatch live.metadata st = false
  invalid : validateStatefulSetUpdate desired old ≠ []

/-- The StatefulSet was asked for, and refused unless the request failed. -/
def Refused (env : Env) (request : NamespacedName) (old desired : StatefulSet) (w v : World) : Prop :=
  v = w.sent ⟨.get, .statefulSet, request⟩ ∧ ¬ env.Reliable ∨
    v = Acts.act (.validateStatefulSet request old desired) (w.sent ⟨.get, .statefulSet, request⟩)

/-- **An invalid update** is refused. -/
theorem wp_refuse (hr : Refuses request st live desired old) (hlive : w.statefulSet request = some live)
    (hreplicas : c.getReplicas ≠ 0) :
    Wp (reconcileAllResourceOfKind op env request (.coherence (some c)) st)
      (fun r v => (∃ e, r = .error e ∧ e.isPanic = false) ∧ Refused env request old desired w v) w := by
  have hname : live.metadata.name = request.name := congrArg NamespacedName.name hr.key
  have hzero : (Deployment.coherence (some c)).isNilOrZero = .ok false :=
    congrArg Except.ok (by simpa using hreplicas)
  obtain ⟨o, ho, hdesired⟩ := Option.bind_eq_some_iff.1 hr.latest
  obtain ⟨r, hresource, hspec⟩ := Option.bind_eq_some_iff.1 ho
  rw [Wp, reconcileAllResourceOfKind, hr.isJob]
  simp only [Bool.false_eq_true, if_false]
  rw [exec_bind, Op.wrapError, exec_mapError, getStatefulSet, exec_read]
  cases ha : w.answer ⟨.get, .statefulSet, request⟩ env with
  | error e =>
    have hfault : ¬ env.Reliable := by
      intro henv
      rw [World.answer_eq_ok _ _ henv] at ha
      cases ha
    rw [Except.map, wrapped, w.isPanic_of_answer _ ha]
    exact ⟨⟨_, rfl, rfl⟩, .inl ⟨rfl, hfault⟩⟩
  | ok _ =>
    have hnil : (some live).any (fun s => s.metadata.deletionTimestamp.isSome) = false := by
      simp [hr.undeleted]
    have howner : Secondary.ownerOf env (.coherence (some c)) (some live.toObject) = pure (.coherence (some c)) := rfl
    simp only [Except.map, wrapped_ok, World.statefulSet_sent, hlive, hnil, Bool.false_eq_true, if_false, Option.map_some,
      howner, exec_bind, exec_pure, settle, hzero, exec_outcome, updateStatefulSet, hname, hresource, hspec, hdesired,
      hr.replicas, ne_eq, not_true_eq_false, maybePatchStatefulSet, hr.label, hr.previous, Option.getD_some, exec_perform]
    rw [hr.key]
    cases herrs : validateStatefulSetUpdate desired old with
    | nil => exact absurd herrs hr.invalid
    | cons e es => exact ⟨⟨_, rfl, rfl⟩, .inr rfl⟩

end StatefulSetReconciler

/-! ### The resource -/

namespace CoherenceReconciler

theorem tends_sparesWorkload : Tends Act.SparesWorkload where
  remark _ ha := ha.isNote.sparesWorkload
  delete _ _ hk := ⟨trivial, hk⟩
  create _ ho := ho
  update _ ho := ho

/-- A last reconciler that fails makes it fail, where the others do not panic. -/
theorem wp_reconcileSecondary_of_failing {I Q : World → Prop} {rs : List (Op Result)} {last : Op Result}
    (hrs : ∀ x ∈ rs, Keeps I x) (hcalm : ∀ x ∈ rs, Calm x)
    (hlast : ∀ u, I u → Wp last (fun r v => (∃ e, r = .error e ∧ e.isPanic = false) ∧ Q v) u) (p : Progress) (hw : I w) :
    Wp (reconcileSecondary (rs ++ [last]) p) (fun r v => (∃ q, r = .ok q ∧ q.failures ≠ []) ∧ Q v) w := by
  induction rs generalizing p w with
  | nil =>
    rcases hrun : exec last w with ⟨r, v⟩
    obtain ⟨⟨e, rfl, hpanic⟩, hQ⟩ := (hlast w hw).elim hrun
    simp only [List.nil_append, reconcileSecondary, Wp, exec_bind, Op.attempt, exec_attempt, hrun, caught_error hpanic]
    exact ⟨⟨_, rfl, by simp [Progress.failed]⟩, hQ⟩
  | cons x rs ih =>
    have hrest : ∀ p u, I u → Wp (reconcileSecondary (rs ++ [last]) p) _ u := fun p u hu =>
      ih (fun y hy => hrs y (List.mem_cons_of_mem _ hy)) (fun y hy => hcalm y (List.mem_cons_of_mem _ hy)) p hu
    have hx := hrs x List.mem_cons_self w hw
    rcases hrun : exec x w with ⟨e | result, u⟩
    · have hpanic := hcalm x List.mem_cons_self w e (by rw [hrun])
      rw [hrun] at hx
      rw [List.cons_append, reconcileSecondary, Wp, exec_bind, Op.attempt, exec_attempt, hrun, caught_error hpanic]
      exact hrest _ u hx
    · rw [hrun] at hx
      rw [List.cons_append, reconcileSecondary, Wp, exec_bind, Op.attempt, exec_attempt, hrun, caught_ok]
      exact hrest _ u hx

/-- What is stored is reconciled: the StatefulSet is refused. -/
theorem wp_reconcileStored_of_refused (hst : st.IsGenerated request)
    (hr : StatefulSetReconciler.Refuses request st live desired old) (hlive : w.statefulSet request = some live)
    (hreplicas : c.getReplicas ≠ 0) :
    Wp (reconcileStored op env request c h st)
      (fun r v => (∃ e, r = .error e) ∧
        ∃ u, Path Act.SparesWorkload w u ∧ StatefulSetReconciler.Refused env request old desired u v) w := by
  have hspec : ∀ r ∈ st.latest.items, r.spec.isSome := fun r hmem => (hst.latest r hmem).isPresent
  have hlast : ∀ u, Path Act.SparesWorkload w u →
      Wp (StatefulSetReconciler.reconcileAllResourceOfKind op env request (.coherence (some c)) st)
        (fun r v => (∃ e, r = .error e ∧ e.isPanic = false) ∧
          ∃ u, Path Act.SparesWorkload w u ∧ StatefulSetReconciler.Refused env request old desired u v) u := by
    intro u p
    have hu : u.statefulSet request = some live :=
      (p.unchanged (f := fun x : World => x.statefulSet request) fun _ _ ha => ha.statefulSet_eq).trans hlive
    exact Wp.mono (StatefulSetReconciler.wp_refuse hr hu hreplicas) fun r v hv => ⟨hv.1, u, p, hv.2⟩
  have hfirst : ∀ x ∈ firstReconcilers op env request (.coherence (some c)) st, Keeps (Path Act.SparesWorkload w) x :=
    fun x hx => (does_firstReconcilers tends_sparesWorkload hx).keeps_path
  refine Wp.bind (wp_reconcileSecondary_of_failing hfirst (fun x hx => calm_firstReconcilers hspec hx) hlast {} .refl) ?_ ?_
  · rintro progress v ⟨⟨q, hq, hfailures⟩, hv⟩
    obtain rfl := Except.ok.inj hq
    cases hprogress : progress.failures with
    | nil => exact absurd hprogress hfailures
    | cons e es => exact ⟨⟨_, rfl⟩, hv⟩
  · rintro e v ⟨⟨q, hq, -⟩, -⟩
    cases hq

end CoherenceReconciler

/-- A reconcile in which nothing is stored refuses nothing. -/
theorem rejects_of_stayed {v : World} {r : Except GoError Result} (p : Path Act.SparesWorkload w v)
    (hlatest : (stored request v).latest = (stored request w).latest) : Rejects op env request w v r where
  same := p.unchanged (f := fun x : World => x.statefulSet request) fun _ _ ha => ha.statefulSet_eq
  unpatched _ _ ha := mem_since_of_path p ha
  invalid _ _ _ ha := (mem_since_of_path p ha : False).elim
  fails hne := absurd hlatest hne
  validated hne := absurd hlatest hne

/-- A reconcile that refuses. -/
theorem rejects_of_refused {x v : World} {r : Except GoError Result} (px : Path Act.SparesWorkload w x)
    (hrefused : StatefulSetReconciler.Refused env request old desired x v)
    (hinvalid : validateStatefulSetUpdate desired old ≠ []) (herror : ∃ e, r = .error e) : Rejects op env request w v r := by
  have p : Path Act.SparesWorkload w (x.sent ⟨.get, .statefulSet, request⟩) :=
    px.tail ⟨.call ⟨.get, .statefulSet, request⟩, trivial, rfl⟩
  have hsame : (x.sent ⟨.get, .statefulSet, request⟩).statefulSet request = w.statefulSet request :=
    p.unchanged (f := fun x : World => x.statefulSet request) fun _ _ ha => ha.statefulSet_eq
  rcases hrefused with ⟨rfl, hfault⟩ | rfl
  · exact ⟨hsame, fun _ _ ha => mem_since_of_path p ha, fun _ _ _ ha => (mem_since_of_path p ha : False).elim,
      fun _ => herror, fun _ henv => absurd henv hfault⟩
  · have pall : Path (fun a => a.SparesWorkload ∨ a = .validateStatefulSet request old desired) w
        (Acts.act (.validateStatefulSet request old desired) (x.sent ⟨.get, .statefulSet, request⟩)) :=
      (p.mono fun _ => .inl).tail ⟨_, .inr rfl, rfl⟩
    refine ⟨hsame, fun _ _ ha => ?_, fun _ _ _ ha => ?_, fun _ => herror, fun _ _ => ⟨old, desired, ?_⟩⟩
    · rcases mem_since_of_path pall ha with ha | ha
      · exact ha
      · cases ha
    · rcases mem_since_of_path pall ha with ha | ha
      · exact ha.elim
      · cases ha
        exact hinvalid
    · exact (World.did_act.of_path p).mem_since

open CoherenceReconciler in
theorem KeepsVersions.sparesWorkload {a : Act} (ha : KeepsVersions op env request w a) : a.SparesWorkload := by
  cases ha with
  | call | put => trivial

open CoherenceReconciler in
/-- **One reconcile** that wants what is forbidden. -/
theorem rejects_reconcile (hw : (stored request w).IsGenerated request)
    (hforbidden : (CoherenceTurn.reconcile env).WantsForbidden op request w)
    (hnew : (CoherenceTurn.reconcile env).IsNew op request w) :
    Rejects op env request w (exec (reconcile op env request) w).2 (exec (reconcile op env request) w).1 := by
  have hrec : Wp (reconcile op env request) (Reconciled op env request w) w := wp_reconcile
  have hquiet : ∀ {H : String → Prop} {v : World}, Quietly request H (KeepsVersions op env request w) w v →
      Path Act.SparesWorkload w v := fun hv => hv.path.mono fun a ha => ha.elim (·.sparesWorkload) KeepsVersions.sparesWorkload
  cases hrec with
  | quiet hv => exact rejects_of_stayed (hquiet hv) hv.latest
  | upgraded _ _ _ _ hv => exact rejects_of_stayed (hquiet hv) hv.latest
  | @stored c h res st st' u _ _ ha hs hrun =>
    obtain ⟨c', live, -, generated, hc, hlive, -, -, hgenerated, -, hequal⟩ := hforbidden
    obtain ⟨hreplicas, hundeleted, hlegacy, hhash, old, hold, hinvalid⟩ := hnew c' live hc hlive
    obtain rfl : c' = c := Option.some.inj (hc.symm.trans ha.reaches.found)
    obtain ⟨hlabel, hstale⟩ := hhash h ha.hash
    obtain ⟨hst, hplanned⟩ := ha.eq_prepared hlegacy hstale
    obtain ⟨hres, hst'⟩ := ha.isGenerated hw.latest
    have hkey : live.key = request := (Prod.mk.inj (w.objects.filed _ _ (World.statefulSet_eq_some.1 hlive))).2
    let desired := generated.prepared c'.toResource.owner op.version h
    have hdesired : res.statefulSet request.name = some desired := by
      rw [hplanned, Resources.statefulSet_prepared, hgenerated, Option.map_some]
    have hprevious : st'.latest.statefulSet request.name = some old := hst ▸ hold
    have hinvalid : validateStatefulSetUpdate desired old ≠ [] := hinvalid generated hgenerated
    have hjob : (st'.next res).getResource .job request.name = none := by
      refine Resources.getResource_eq_none.2 fun r hr hjob => ?_
      rcases (hres r hr).kind with hk | hk | ⟨hk, -⟩
      · rw [hjob.1] at hk
        cases hk
      · rw [hjob.1] at hk
        cases hk
      · rw [hjob.1] at hk
        cases hk
    have hrefuses : StatefulSetReconciler.Refuses request
        { st' with latest := st'.next res, previous := st'.latest, hash := some h } live desired old :=
      ⟨by rw [Storage.isJob, hjob]; rfl, hkey, hundeleted, hdesired, hprevious, hequal,
        by simpa [hashLabelsMatch] using hlabel, hinvalid⟩
    have hu : u.statefulSet request = some live := by
      rw [World.statefulSet, hs.objects _ _ (by decide), ← World.statefulSet, hlive]
    have hgen : Storage.IsGenerated request { st' with latest := st'.next res, previous := st'.latest, hash := some h } :=
      ⟨hres.next st', hst'⟩
    obtain ⟨herror, x, px, hrefused⟩ := (wp_reconcileStored_of_refused hgen hrefuses hu hreplicas).elim hrun
    have pstore : Path Act.SparesWorkload w u := hs.path.mono fun a ha => by
      rcases ha with ha | ha
      · exact ha.sparesWorkload
      · cases a with
        | putStore | store => trivial
        | _ => exact Act.IsNote.sparesWorkload ha
    exact rejects_of_refused (pstore.trans px) hrefused hinvalid herror

/-- **Forbidden updates stay refused** in a run of reconciles each of which finds that what it plans is no valid update of the
latest version that is stored. -/
theorem rejects_always {turns : List CoherenceTurn} (hw : (stored request w).IsGenerated request)
    (h : Along (CoherenceTurn.step op request)
      (fun w t => t.WantsForbidden op request w ∧ t.IsNew op request w) w turns) (n : ℕ) (env : Env)
    (hn : turns[n]? = some (.reconcile env)) :
    Rejects op env request (run (CoherenceTurn.step op request) w (turns.take n))
      (exec (CoherenceReconciler.reconcile op env request) (run (CoherenceTurn.step op request) w (turns.take n))).2
      (exec (CoherenceReconciler.reconcile op env request) (run (CoherenceTurn.step op request) w (turns.take n))).1 := by
  induction turns generalizing w n with
  | nil => cases hn
  | cons t ts ih =>
    cases n with
    | zero =>
      cases hn
      exact rejects_reconcile hw h.1.1 h.1.2
    | succ n => exact ih (CoherenceTurn.isGenerated_step hw t) h.2 n hn

/-! ### A claim that is added -/

/-- What is wanted is forbidden, where all of it can be computed. -/
theorem wantsForbidden_of_exists (hex : ∃ c ∈ w.coherence.get request, ∃ live ∈ w.statefulSet request,
    ∃ desired ∈ (c.createKubernetesResources op).statefulSet request.name, live.getReplicas = desired.getReplicas ∧
      ∃ o ∈ w.log.filterMap Act.created, ∃ s₀ ∈ o.asStatefulSet, s₀.key = request ∧
        validateStatefulSetUpdate desired s₀ ≠ []) : (CoherenceTurn.reconcile env).WantsForbidden op request w := by
  obtain ⟨c, hc, live, hlive, desired, hdesired, hequal, o, ho, s₀, hs₀, hkey, hinvalid⟩ := hex
  refine ⟨c, live, s₀, desired, hc, hlive, ?_, hkey, hdesired, hinvalid, hequal⟩
  rwa [← Object.eq_toObject_of_asStatefulSet hs₀]

/-- No claims. -/
def withoutClaims : CoherenceStatefulSetResourceSpec := { replicas := some 1, haBeforeUpdate := some false }

/-- One claim. -/
def withClaim : CoherenceStatefulSetResourceSpec := { withoutClaims with volumeClaimTemplates := [{ name := "data" }] }

/-- The cluster when the StatefulSet was created, and the claim was added to the spec. -/
def claimedCluster : World :=
  run (CoherenceTurn.step ServiceMonitor.patchingOperator ⟨"default", "storage"⟩) (tendedCluster withoutClaims)
    [.reconcile {}, .edit withClaim]

theorem isGenerated_claimedCluster : (stored ⟨"default", "storage"⟩ claimedCluster).IsGenerated ⟨"default", "storage"⟩ := by
  have hempty : (stored ⟨"default", "storage"⟩ (tendedCluster withoutClaims)).IsGenerated ⟨"default", "storage"⟩ :=
    (isFresh_tendedCluster withoutClaims).isTidy.generated
  show (stored ⟨"default", "storage"⟩ (CoherenceTurn.step ServiceMonitor.patchingOperator ⟨"default", "storage"⟩
    (CoherenceTurn.step ServiceMonitor.patchingOperator ⟨"default", "storage"⟩ (tendedCluster withoutClaims) (.reconcile {}))
      (.edit withClaim))).IsGenerated _
  exact CoherenceTurn.isGenerated_step (CoherenceTurn.isGenerated_step hempty _) _

theorem wantsForbidden_claimedCluster :
    (CoherenceTurn.reconcile env).WantsForbidden ServiceMonitor.patchingOperator ⟨"default", "storage"⟩ claimedCluster :=
  wantsForbidden_of_exists (by decide +kernel)

/-- The update of the cluster is new. -/
theorem isNew_claimedCluster :
    (CoherenceTurn.reconcile env).IsNew ServiceMonitor.patchingOperator ⟨"default", "storage"⟩ claimedCluster := by
  intro c live hc hlive
  have hall : ∀ c ∈ claimedCluster.coherence.get ⟨"default", "storage"⟩,
      ∀ live ∈ claimedCluster.statefulSet ⟨"default", "storage"⟩,
        c.getReplicas ≠ 0 ∧ live.metadata.deletionTimestamp = none ∧
        c.toResource.isLegacy ServiceMonitor.patchingOperator = .ok false ∧
        c.getGenerationString ServiceMonitor.patchingOperator = .ok "2" ∧
        live.metadata.labels.lookup LabelCoherenceHash ≠ some "2" ∧ c.status.phase ≠ some .ready ∧
        ∃ old ∈ (stored ⟨"default", "storage"⟩ claimedCluster).latest.statefulSet "storage",
          ∀ desired ∈ (c.createKubernetesResources ServiceMonitor.patchingOperator).statefulSet "storage",
            validateStatefulSetUpdate desired old ≠ [] := by decide +kernel
  obtain ⟨hreplicas, hundeleted, hlegacy, hgeneration, hlabel, hphase, old, hold, hinvalid⟩ := hall c hc live hlive
  refine ⟨hreplicas, hundeleted, hlegacy, fun h hh => ?_, old, hold, hinvalid⟩
  rw [hgeneration, Except.ok.injEq] at hh
  exact ⟨hh ▸ hlabel, .inr hphase⟩

/-- The first reconcile refuses. -/
theorem rejects_claimedCluster :
    Rejects ServiceMonitor.patchingOperator {} ⟨"default", "storage"⟩ claimedCluster
      (exec (CoherenceReconciler.reconcile ServiceMonitor.patchingOperator {} ⟨"default", "storage"⟩) claimedCluster).2
      (exec (CoherenceReconciler.reconcile ServiceMonitor.patchingOperator {} ⟨"default", "storage"⟩) claimedCluster).1 :=
  have hturn : Along (CoherenceTurn.step ServiceMonitor.patchingOperator ⟨"default", "storage"⟩)
      (fun w t => t.WantsForbidden ServiceMonitor.patchingOperator ⟨"default", "storage"⟩ w ∧
        t.IsNew ServiceMonitor.patchingOperator ⟨"default", "storage"⟩ w) claimedCluster [.reconcile {}] :=
    ⟨⟨wantsForbidden_claimedCluster, isNew_claimedCluster⟩, trivial⟩
  rejects_always isGenerated_claimedCluster hturn 0 {} rfl

/-- The second reconcile patches. -/
theorem not_forall_rejects :
    ¬ ∀ (op : Operator) (request : NamespacedName) (w : World) (turns : List CoherenceTurn),
      (stored request w).IsGenerated request →
      Along (CoherenceTurn.step op request) (fun w t => t.WantsForbidden op request w) w turns →
        ∀ n env, turns[n]? = some (.reconcile env) →
          Rejects op env request (run (CoherenceTurn.step op request) w (turns.take n))
            (exec (CoherenceReconciler.reconcile op env request) (run (CoherenceTurn.step op request) w (turns.take n))).2
            (exec (CoherenceReconciler.reconcile op env request) (run (CoherenceTurn.step op request) w (turns.take n))).1 := by
  intro h
  have hagain : (CoherenceTurn.reconcile {}).WantsForbidden ServiceMonitor.patchingOperator ⟨"default", "storage"⟩
      (CoherenceTurn.step ServiceMonitor.patchingOperator ⟨"default", "storage"⟩ claimedCluster (.reconcile {})) :=
    wantsForbidden_of_exists (by decide +kernel)
  have hrejects := h ServiceMonitor.patchingOperator ⟨"default", "storage"⟩ claimedCluster [.reconcile {}, .reconcile {}]
    isGenerated_claimedCluster ⟨wantsForbidden_claimedCluster, hagain, trivial⟩ 1 {} rfl
  have hchanged : (run (CoherenceTurn.step ServiceMonitor.patchingOperator ⟨"default", "storage"⟩) claimedCluster
      [.reconcile {}, .reconcile {}]).statefulSet ⟨"default", "storage"⟩ ≠
      (run (CoherenceTurn.step ServiceMonitor.patchingOperator ⟨"default", "storage"⟩) claimedCluster
        [.reconcile {}]).statefulSet ⟨"default", "storage"⟩ := by decide +kernel
  exact hchanged hrejects.same

end CoherenceOperator
