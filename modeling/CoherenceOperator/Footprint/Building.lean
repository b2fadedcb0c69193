import CoherenceOperator.Api.Ranges

/-!
# What is built

Of all the orders in which the builders go through maps only one counts, that in which the services to resume are encoded
(`uses_createKubernetesResources`), and what these are encoded as can be read off the template of the pods
(`PodTemplateSpec.Carries`).
-/

namespace CoherenceOperator

open Effect

variable {op : Operator} {d : CoherenceResource} {c : Coherence}

/-! ### Orders that do not count -/

theorem setAll_empty (labels : Labels) : labels.setAll ∅ = labels := Finmap.empty_union

namespace Ranged

theorem yields_setAll (labels m : Labels) : Yields (setAll labels m) (labels.setAll m) := .rangeInsert labels m

theorem yields_createGlobalLabels : Yields (createGlobalLabels op d) (d.createGlobalLabels op) := by
  unfold createGlobalLabels CoherenceResource.createGlobalLabels
  cases d.global with
  | none => exact (Yields.pure _).bind (yields_setAll _ _)
  | some g => exact (yields_setAll _ _).bind (yields_setAll _ _)

theorem yields_createGlobalAnnotations : Yields (createGlobalAnnotations op d) (d.createGlobalAnnotations op) := by
  unfold createGlobalAnnotations CoherenceResource.createGlobalAnnotations
  cases d.global.bind (·.annotations) with
  | none => exact .pure _
  | some a => exact (yields_setAll _ _).map

theorem yields_createService (p : NamedPortSpec) : Yields (createService op d p) (p.createService op d) := by
  unfold createService NamedPortSpec.createService
  refine yields_createGlobalLabels.bind ?_
  cases p.service with
  | none =>
    refine (Yields.pure _).bind (yields_createGlobalAnnotations.bind ((Yields.pure _).bind ?_))
    simp only [Option.map_none, Option.getD_none, setAll_empty]
    exact .pure _
  | some s =>
    refine (yields_setAll _ _).bind (yields_createGlobalAnnotations.bind ?_)
    cases d.createGlobalAnnotations op with
    | none =>
      refine (Yields.pure (some s.annotations)).bind ?_
      have hnone : (∅ : Labels).setAll s.annotations = s.annotations := Finmap.union_empty
      simp only [Option.map_some, Option.getD_some, Option.getD_none, hnone]
      exact .pure _
    | some a => exact (yields_setAll _ _).map.bind (.pure _)

theorem yields_createServiceMonitor (p : NamedPortSpec) (m : ServiceMonitorSpec) :
    Yields (createServiceMonitor op d p m) (p.createServiceMonitor op m d) :=
  yields_createGlobalLabels.bind ((yields_setAll _ _).bind (yields_createGlobalAnnotations.bind (.pure _)))

theorem yields_createResources (p : NamedPortSpec) : Yields (createResources op d p) (p.createResources op d) := by
  unfold createResources NamedPortSpec.createResources
  by_cases henabled : p.isEnabled = true
  · rw [if_pos henabled, if_pos henabled]
    refine (yields_createService p).bind ?_
    cases p.monitor with
    | none => exact .pure _
    | some m => exact (yields_createServiceMonitor p m).bind (.pure _)
  · rw [if_neg henabled, if_neg henabled]
    exact .pure _

theorem yields_createWKAService : Yields (createWKAService op d) (d.createWKAService op) := by
  unfold createWKAService CoherenceResource.createWKAService
  refine yields_createGlobalLabels.bind (yields_createGlobalAnnotations.bind ?_)
  cases d.spec.coherence.bind (·.wka) with
  | none =>
    refine (Yields.pure _).bind ?_
    simp only [Option.map_none, Option.getD_none, setAll_empty]
    exact .pure _
  | some wka => exact (yields_setAll _ _).bind ((yields_setAll _ _).bind ((Yields.pure _).bind (.pure _)))

theorem yields_createHeadlessService : Yields (createHeadlessService op d) (d.createHeadlessService op) :=
  yields_createGlobalLabels.bind (yields_createGlobalAnnotations.bind (.pure _))

theorem yields_createSharedResources : Yields (createSharedResources op d) (d.createKubernetesResources op) := by
  have hports : Yields (d.spec.ports.mapM (createResources op d)) (d.spec.ports.map fun p => p.createResources op d) :=
    .mapM yields_createResources _
  unfold createSharedResources CoherenceResource.createKubernetesResources CoherenceResource.createServicesForPort
  rw [List.flatMap]
  by_cases hzero : d.spec.getReplicas ≤ 0
  · rw [if_pos hzero, if_pos hzero]
    exact .pure _
  rw [if_neg hzero, if_neg hzero]
  by_cases hwka : d.spec.requiresWKAService = true
  · rw [if_pos hwka, if_pos hwka]
    exact yields_createWKAService.bind (hports.bind (.pure _))
  · rw [if_neg hwka, if_neg hwka]
    exact hports.bind (.pure _)

theorem yields_createPersistentVolumeClaim (s : PersistentStorageSpec) (name : String) :
    Yields (createPersistentVolumeClaim op d s name) (s.createPersistentVolumeClaim op d name) := by
  unfold createPersistentVolumeClaim PersistentStorageSpec.createPersistentVolumeClaim
  by_cases hvolume : s.volume.isSome = true
  · rw [if_pos hvolume, if_pos hvolume]
    exact .pure _
  rw [if_neg hvolume, if_neg hvolume]
  cases s.persistentVolumeClaim with
  | none => exact .pure _
  | some spec => exact yields_createGlobalLabels.bind (yields_createGlobalAnnotations.bind (.pure _))

theorem yields_createPersistentVolumeClaims (s : PersistenceSpec) :
    Yields (createPersistentVolumeClaims op d s) (s.createPersistentVolumeClaims op d) := by
  unfold createPersistentVolumeClaims PersistenceSpec.createPersistentVolumeClaims
  refine (yields_createPersistentVolumeClaim _ _).bind ?_
  cases s.snapshots with
  | none => exact (Yields.pure none).bind (.pure _)
  | some snapshots => exact (yields_createPersistentVolumeClaim _ _).bind (.pure _)

theorem yields_createAnnotations : Yields (createAnnotations op c) (c.createAnnotations op) := by
  unfold createAnnotations Coherence.createAnnotations
  refine yields_createGlobalAnnotations.bind ?_
  cases c.spec.statefulSetAnnotations with
  | none => exact yields_setAll _ _
  | some a => exact yields_setAll _ _

/-! ### The order that counts -/

/-- What the services to resume are encoded as, in this order. -/
def resumeServices (d : CoherenceResource) (order : MapOrder String) : Option String :=
  (d.statefulSetSpec.bind (·.autoResumeServices)).map (encodeServices order)

theorem uses_createResumeServices : Uses (createResumeServices d) (resumeServices d) := by
  unfold createResumeServices resumeServices
  cases d.statefulSetSpec.bind (·.autoResumeServices) with
  | none => exact (Yields.pure none).uses
  | some services => exact (uses_rangeFold services _ []).bind fun _ => .pure _

theorem uses_createPodTemplateSpec : Uses (createPodTemplateSpec op d) fun order =>
    d.createPodTemplateSpec op (d.podLabels op) (d.podAnnotations op) (resumeServices d order) := by
  refine yields_createGlobalLabels.bind_uses ?_
  refine (yields_setAll _ _).bind_uses ((yields_setAll _ _).bind_uses ?_)
  refine yields_createGlobalAnnotations.bind_uses ?_
  refine (yields_setAll _ _).bind_uses ((yields_setAll _ _).bind_uses ((yields_setAll _ _).bind_uses ?_))
  exact uses_createResumeServices.bind fun _ => .pure _

/-- The operator whose pods carry these services. -/
def withServices (op : Operator) (c : Coherence) (services : Option String) : Operator :=
  { op with podTemplate := fun _ => c.templateWith op services }

theorem uses_createStatefulSet : Uses (createStatefulSet op c) fun order =>
    c.createStatefulSet (withServices op c (resumeServices c.toResource order)) := by
  refine yields_createGlobalLabels.bind_uses (yields_createAnnotations.bind_uses ?_)
  refine uses_createPodTemplateSpec.bind fun order => ?_
  unfold Coherence.createStatefulSet
  cases c.spec.coherence.bind (·.persistence) with
  | none => exact (Yields.pure []).bind (.pure _)
  | some p => exact (yields_createPersistentVolumeClaims p).bind (.pure _)

/-- **The resources** are those that `Api.Builder` generates, with the services encoded in one of the orders. -/
theorem uses_createKubernetesResources : Uses (createKubernetesResources op c) fun order =>
    c.createKubernetesResources (withServices op c (resumeServices c.toResource order)) :=
  yields_createSharedResources.bind_uses (yields_createHeadlessService.bind_uses
    (uses_createStatefulSet.bind fun _ => .pure _))

end Ranged

/-! ### What is read off the template -/

variable {v w : EnvVar} {env env' : List EnvVar} {x x' : Container} {t t' : PodTemplateSpec}

theorem findEnv_append (h : findEnv v.name env = some v) : findEnv v.name (env ++ env') = some v := by
  unfold findEnv at h ⊢
  rw [List.find?_append, h, Option.some_or]

theorem findEnv_setEnv (hne : w.name ≠ v.name) (h : findEnv v.name env = some v) :
    findEnv v.name (setEnv w env) = some v := by
  induction env with
  | nil => cases h
  | cons e env ih =>
    have hcons : ∀ e' env', findEnv v.name (e' :: env') = if e'.name = v.name then some e' else findEnv v.name env' := by
      intro e' env'
      by_cases he : e'.name = v.name <;> simp [findEnv, he]
    rw [hcons] at h
    unfold setEnv
    by_cases hw : e.name = w.name
    · rw [if_pos hw, hcons, if_neg hne]
      rwa [if_neg (hw ▸ hne)] at h
    · rw [if_neg hw, hcons]
      by_cases he : e.name = v.name
      · rwa [if_pos he] at h ⊢
      · rw [if_neg he] at h ⊢
        exact ih h

/-- This is the Coherence container, and the first variable of its name is `v`. -/
structure Container.Carries (v : EnvVar) (x : Container) : Prop where
  name : x.name = "coherence"
  env : findEnv v.name x.env = some v

/-- More variables, and whatever else, change nothing of it. -/
theorem Container.Carries.append (h : x.Carries v) (hname : x'.name = x.name) (henv : x'.env = x.env ++ env) :
    x'.Carries v := ⟨hname.trans h.name, henv ▸ findEnv_append h.env⟩

theorem Container.Carries.same (h : x.Carries v) (hname : x'.name = x.name) (henv : x'.env = x.env) : x'.Carries v :=
  ⟨hname.trans h.name, henv ▸ h.env⟩

theorem Container.Carries.ite {p : Prop} [Decidable p] (h : x.Carries v) (h' : x'.Carries v) :
    (if p then x else x' : Container).Carries v := by
  split
  · exact h
  · exact h'

theorem carries_updateCoherenceContainer (hne : EnvVarJdkOptions ≠ v.name) (app : Option ApplicationSpec)
    (h : x.Carries v) : (ApplicationSpec.updateCoherenceContainer app x).Carries v := by
  unfold ApplicationSpec.updateCoherenceContainer
  cases app with
  | none =>
    by_cases hcommand : x.command = []
    · simp only [hcommand, if_true]
      exact h.same rfl rfl
    · simpa only [hcommand, if_false] using h
  | some a =>
    dsimp only
    have happ : findEnv v.name (x.env ++ a.env) = some v := findEnv_append h.env
    split
    · refine ⟨h.name, findEnv_append ?_⟩
      split
      · exact findEnv_setEnv hne happ
      · exact happ
    · exact .ite ⟨h.name, happ⟩ ⟨h.name, happ⟩

theorem carries_updateDebug (debug : Option JvmDebugSpec) (h : x.Carries v) :
    (match debug with
      | some debug => debug.updateCoherenceContainer x
      | none => x : Container).Carries v := by
  cases debug with
  | none => exact h
  | some debug =>
    show (debug.updateCoherenceContainer x).Carries v
    unfold JvmDebugSpec.updateCoherenceContainer
    split
    · exact h.append rfl rfl
    · exact h

theorem carries_updateJvm (jvm : Option JVMSpec) (h : x.Carries v) : (JVMSpec.updateCoherenceContainer jvm x).Carries v := by
  have hdebug := carries_updateDebug (jvm.getD {}).debug h
  unfold JVMSpec.updateCoherenceContainer
  dsimp only
  split
  · exact ⟨hdebug.name, by simp only [List.append_assoc]; exact findEnv_append hdebug.env⟩
  · exact ⟨hdebug.name, by simp only [List.append_assoc]; exact findEnv_append hdebug.env⟩

/-- The first container is the Coherence container, and carries the variable. -/
def PodTemplateSpec.Carries (v : EnvVar) (t : PodTemplateSpec) : Prop := ∃ x xs, t.containers = x :: xs ∧ x.Carries v

theorem ensureContainer_eq {xs : List Container} (ht : t.containers = x :: xs) (h : x.Carries v) :
    t.ensureContainer "coherence" = x := by
  simp [PodTemplateSpec.ensureContainer, ht, h.name]

theorem carries_replaceContainer {xs : List Container} (ht : t.containers = x :: xs) (h : x.Carries v) (h' : x'.Carries v)
    (ht' : t'.containers = replaceContainer x' t.containers) : t'.Carries v := by
  refine ⟨x', xs, ?_, h'⟩
  rw [ht', ht, replaceContainer, if_pos (h.name.trans h'.name.symm)]

theorem carries_updatePodTemplate (jvm : Option JVMSpec) (h : t.Carries v) : (JVMSpec.updatePodTemplate jvm t).Carries v := by
  obtain ⟨x, xs, ht, hx⟩ := h
  have hx' := carries_updateJvm jvm hx
  rw [← ensureContainer_eq ht hx] at hx'
  exact carries_replaceContainer ht hx hx' rfl

theorem carries_updatePodTemplateSpec (h : t.Carries v) : (d.updatePodTemplateSpec t).Carries v := by
  obtain ⟨x, xs, ht, hx⟩ := h
  unfold CoherenceResource.updatePodTemplateSpec
  dsimp only
  rw [ensureContainer_eq ht hx]
  refine carries_replaceContainer ht hx ?_ rfl
  exact hx.append rfl rfl

theorem carries_processSideCars (h : t.Carries v) : (d.processSideCars t).Carries v := by
  obtain ⟨x, xs, ht, hx⟩ := h
  exact ⟨x, xs ++ d.spec.sideCars.map d.processAdditionalContainer, by simp [CoherenceResource.processSideCars, ht], hx⟩

/-- The containers are changed each on its own, and not their names. -/
theorem carries_map {f : Container → Container} (h : t.Carries v) (ht : t'.containers = t.containers.map f)
    (hf : ∀ x : Container, x.Carries v → (f x).Carries v) : t'.Carries v := by
  obtain ⟨x, xs, hxs, hx⟩ := h
  exact ⟨f x, xs.map f, by rw [ht, hxs, List.map_cons], hf x hx⟩

theorem carries_addVolumes {source : VolumeSource} {s : VolumeSpec} (h : t.Carries v) : (s.addVolumes source t).Carries v :=
  carries_map h rfl fun _ hx => hx.same rfl rfl

theorem carries_foldl {α : Type} {f : PodTemplateSpec → α → PodTemplateSpec} (hf : ∀ t a, t.Carries v → (f t a).Carries v)
    (as : List α) (h : t.Carries v) : (as.foldl f t).Carries v := by
  induction as generalizing t with
  | nil => exact h
  | cons a as ih => exact ih (hf t a h)

theorem carries_shareEnv {jdkOptions : Option EnvVar} (h : t.Carries v) : (t.shareEnv jdkOptions).Carries v := by
  unfold PodTemplateSpec.shareEnv
  split
  · exact h
  · exact h

theorem carries_configureHealthMutators {spec : CoherenceStatefulSetResourceSpec} (h : t.Carries v) :
    (spec.configureHealthMutators op t).Carries v := by
  unfold CoherenceStatefulSetResourceSpec.configureHealthMutators
  split
  · exact h
  · exact carries_map h rfl fun x hx => .ite (hx.append rfl rfl) hx

/-- The variable with the services. -/
def servicesVar (services : String) : EnvVar := { name := EnvVarOperatorResumeServices, value := services }

theorem carries_createCoherenceContainer (services : String) :
    (d.createCoherenceContainer op (some services)).Carries (servicesVar services) where
  name := rfl
  env := by
    have hmember : findEnv EnvVarOperatorResumeServices d.createMemberEnv = none := by
      simp only [findEnv, List.find?_eq_none, CoherenceResource.createMemberEnv, CoherenceResource.createCommonEnv, envOfText,
        envOf, EnvVarOperatorResumeServices]
      intro e he
      simp only [List.mem_append, List.mem_cons, List.not_mem_nil, or_false, List.mem_map] at he
      rcases he with (((rfl | rfl | rfl | rfl) | ⟨_, -, rfl⟩) |
        (rfl | rfl | rfl | rfl | rfl | rfl | rfl | rfl | rfl | rfl)) | he
      all_goals try simp
      split at he
      · rw [List.mem_singleton.1 he]
        simp
      · cases he
    have hresume : findEnv EnvVarOperatorResumeServices
        (envOfBool "COHERENCE_OPERATOR_ALLOW_RESUME" (d.statefulSetSpec.bind (·.resumeServicesOnStartup))) = none := by
      simp only [findEnv, List.find?_eq_none, envOfBool, envOf, EnvVarOperatorResumeServices, List.mem_map]
      rintro e ⟨_, -, rfl⟩
      simp
    have hdefault : findEnv EnvVarOperatorResumeServices (d.createDefaultEnv (some services)) = some (servicesVar services) := by
      rw [findEnv] at hmember hresume ⊢
      rw [CoherenceResource.createDefaultEnv, List.find?_append, List.find?_append, hmember, hresume]
      rfl
    show findEnv (servicesVar services).name (d.createDefaultEnv (some services) ++ d.spec.env ++ _) = _
    rw [List.append_assoc]
    exact findEnv_append hdefault

/-- **The pods carry the services** that are to be resumed. -/
theorem carries_templateWith (op : Operator) (c : Coherence) (services : String) :
    (c.templateWith op (some services)).Carries (servicesVar services) := by
  have hne : EnvVarJdkOptions ≠ (servicesVar services).name := by
    simp [EnvVarJdkOptions, servicesVar, EnvVarOperatorResumeServices]
  refine carries_configureHealthMutators (carries_shareEnv ?_)
  refine carries_foldl (fun _ _ => carries_addVolumes) _ (carries_foldl (fun _ _ => carries_addVolumes) _ ?_)
  have hsame : ∀ {t : PodTemplateSpec} {volumes : List Volume}, t.Carries (servicesVar services) →
      ({ t with volumes } : PodTemplateSpec).Carries (servicesVar services) := fun h => h
  refine hsame (carries_processSideCars (carries_updatePodTemplateSpec (carries_updatePodTemplate _ ?_)))
  have hcontainer : (c.toResource.createCoherenceContainer op (some services)).Carries (servicesVar services) :=
    carries_createCoherenceContainer services
  exact ⟨_, [], rfl, (carries_updateCoherenceContainer hne _ hcontainer).same rfl rfl⟩

end CoherenceOperator
