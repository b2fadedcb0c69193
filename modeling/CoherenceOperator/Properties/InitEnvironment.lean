import CoherenceOperator.Footprint.Template

/-!
# The environment of the init-containers

The init-containers of the operator get the environment of the Coherence container, with `JDK_JAVA_OPTIONS` as the spec has it. The
application may have added the file of the arguments to that variable in the Coherence container, or set it once more.
-/

namespace CoherenceOperator

variable {op : Operator} {d : CoherenceResource} {services : Option String} {labels annotations : Labels} {a : ApplicationSpec}
  {c c' : Container} {env more : List EnvVar} {t t' : PodTemplateSpec} {v : EnvVar}

/-! ### The template on the way -/

/-- The container has variables after those of `env`, of which none is `JDK_JAVA_OPTIONS`. -/
def Container.Extends (env : List EnvVar) (c : Container) : Prop :=
  ∃ more, c.env = env ++ more ∧ namedEnv EnvVarJdkOptions more = []

theorem Container.Extends.append (h : c.Extends env) (henv : c'.env = c.env ++ more) (hmore : namedEnv EnvVarJdkOptions more = []) :
    c'.Extends env := by
  obtain ⟨before, hbefore, hnone⟩ := h
  refine ⟨before ++ more, ?_, ?_⟩
  · rw [henv, hbefore, List.append_assoc]
  · rw [namedEnv_append, hnone, hmore, List.append_nil]

/-- The Coherence container extends the environment, and the two init-containers of the operator have no variables yet. -/
abbrev PodTemplateSpec.Extends (env : List EnvVar) (t : PodTemplateSpec) : Prop :=
  t.HeadedBy (Container.Extends env) (fun i => i.env = []) fun j => j.env = []

theorem namedEnv_debug (s : JvmDebugSpec) : namedEnv EnvVarJdkOptions s.createEnvVars = [] := by
  rw [JvmDebugSpec.createEnvVars]
  split
  · simp (disch := decide) only [namedEnv_append, namedEnv_mk_cons, namedEnv_nil, namedEnv_envOfFlag, namedEnv_envOf,
      List.append_nil]
  · rfl

theorem namedEnv_getD {α : Type} {o : Option α} {f : α → List EnvVar} (h : ∀ x, namedEnv EnvVarJdkOptions (f x) = []) :
    namedEnv EnvVarJdkOptions ((o.map f).getD []) = [] := by
  cases o with
  | none => rfl
  | some x => exact h x

theorem namedEnv_memory (s : JvmMemorySpec) : namedEnv EnvVarJdkOptions s.createEnvVars = [] := by
  have hmemory : namedEnv EnvVarJdkOptions ((s.onOutOfMemory.map (·.createEnvVars)).getD []) = [] := by
    refine namedEnv_getD fun x => ?_
    rw [JvmOutOfMemorySpec.createEnvVars]
    simp (disch := decide) only [namedEnv_append, namedEnv_envOfBool, List.append_nil]
  rw [JvmMemorySpec.createEnvVars]
  simp (disch := decide) only [namedEnv_append, apply_ite (namedEnv EnvVarJdkOptions), namedEnv_envOfText, namedEnv_envOf, hmemory,
    List.append_nil, ite_self]

theorem namedEnv_gc (s : JvmGarbageCollectorSpec) : namedEnv EnvVarJdkOptions s.createEnvVars = [] := by
  rw [JvmGarbageCollectorSpec.createEnvVars]
  simp (disch := decide) only [namedEnv_append, namedEnv_envOfList, namedEnv_envOfText, List.append_nil]

/-- The virtual machine adds variables of other names. -/
theorem Container.Extends.updateJvm (jvm : Option JVMSpec) (h : c.Extends env) :
    (JVMSpec.updateCoherenceContainer jvm c).Extends env := by
  have hdebug : ∀ j : JVMSpec, namedEnv EnvVarJdkOptions j.debugEnv = [] := fun j => namedEnv_getD namedEnv_debug
  have hoptions : ∀ j : JVMSpec, namedEnv EnvVarJdkOptions j.optionsEnv = [] := by
    intro j
    rw [JVMSpec.optionsEnv]
    simp (disch := decide) only [namedEnv_append, namedEnv_envOfList, namedEnv_getD namedEnv_memory, namedEnv_getD namedEnv_gc,
      namedEnv_mk_cons, namedEnv_nil, namedEnv_envOfBool, List.append_nil]
  obtain ⟨command, args, ports, hjvm⟩ := exists_updateCoherenceContainer_eq jvm c
  rw [hjvm]
  have hdebugged : ({ c with env := c.env ++ (jvm.getD {}).debugEnv } : Container).Extends env := h.append rfl (hdebug _)
  exact hdebugged.append rfl (hoptions _)

theorem namedEnv_ssl (s : SSLSpec) {name : String} (h : name = "COHERENCE_MANAGEMENT" ∨ name = "COHERENCE_METRICS") (mount : String) :
    namedEnv EnvVarJdkOptions (s.createEnvVars name mount) = [] := by
  rw [SSLSpec.createEnvVars]
  rcases h with rfl | rfl
  · simp (disch := decide) only [namedEnv_append, namedEnv_envOfFlag, namedEnv_envOf, namedEnv_envOfText, List.append_nil]
  · simp (disch := decide) only [namedEnv_append, namedEnv_envOfFlag, namedEnv_envOf, namedEnv_envOfText, List.append_nil]

theorem namedEnv_port (port : Option PortSpecWithSSL) {name : String}
    (h : name = "COHERENCE_MANAGEMENT" ∨ name = "COHERENCE_METRICS") (mount : String) (defaultPort : ℤ) :
    namedEnv EnvVarJdkOptions (PortSpecWithSSL.createEnvVars port name mount defaultPort) = [] := by
  have hname : ∀ suffix ∈ ["_ENABLED", "_PORT"], name ++ suffix ≠ EnvVarJdkOptions := by
    rcases h with rfl | rfl
    · decide
    · decide
  have henabled := hname "_ENABLED" (by decide)
  have hport := hname "_PORT" (by decide)
  rw [PortSpecWithSSL.createEnvVars]
  split
  · exact namedEnv_cons_neg henabled
  · rw [namedEnv_append, namedEnv_append, namedEnv_getD fun s => namedEnv_ssl s h mount]
    rw [namedEnv_mk_cons henabled, namedEnv_mk_cons hport]
    rfl

/-- Coherence adds variables of other names. -/
theorem namedEnv_coherenceEnv (d : CoherenceResource) : namedEnv EnvVarJdkOptions d.coherenceEnv = [] := by
  have hstorage : ∀ enabled, namedEnv EnvVarJdkOptions (d.storageEnv enabled) = [] := by
    intro enabled
    unfold CoherenceResource.storageEnv
    split
    · exact namedEnv_mk_cons (by decide) _ _
    split
    · exact namedEnv_mk_cons (by decide) _ _
    · rfl
  have hpersistence : ∀ p : PersistenceSpec, namedEnv EnvVarJdkOptions p.env = [] := by
    intro p
    rw [PersistenceSpec.env]
    simp (disch := decide) only [namedEnv_append, apply_ite (namedEnv EnvVarJdkOptions), namedEnv_mk_cons, namedEnv_nil, ite_self,
      List.append_nil]
  rw [CoherenceResource.coherenceEnv]
  split
  · simp (disch := decide) only [CoherenceSpec.localPortEnv, namedEnv_append, namedEnv_mk_cons, namedEnv_nil, hstorage,
      List.append_nil]
  · simp (disch := decide) only [CoherenceSpec.localPortEnv, namedEnv_append, namedEnv_mk_cons, namedEnv_nil, hstorage,
      namedEnv_envOfText, namedEnv_envOf, namedEnv_envOfBool, namedEnv_envOfList, apply_ite (namedEnv EnvVarJdkOptions), ite_self,
      namedEnv_port, namedEnv_getD hpersistence, List.append_nil]

theorem PodTemplateSpec.Extends.addVolumes (h : t.Extends env) (source : VolumeSource) (s : VolumeSpec) :
    (s.addVolumes source t).Extends env := by
  let mount (c : Container) : Container := { c with volumeMounts := c.volumeMounts ++ [s.volumeMount] }
  exact h.map (f := mount) (g := mount) (fun _ => rfl) (fun _ _ hc => hc) (fun _ hi => hi) (fun _ hj => hj) rfl rfl

/-- **The template**, before its environment is shared. -/
theorem exists_shareEnv (op : Operator) (d : CoherenceResource) (labels annotations : Labels) (services : Option String) :
    ∃ t : PodTemplateSpec, t.Extends (d.launchedContainer op services).env ∧ d.createPodTemplateSpec op labels annotations services =
      t.shareEnv (findEnv EnvVarJdkOptions (d.createCoherenceContainer op services).env) := by
  have hbase : (d.baseTemplate op labels annotations services).Extends (d.launchedContainer op services).env := by
    refine headedBy_baseTemplate (P := Container.Extends _) op d labels annotations services (fun _ => ?_) rfl rfl
      (fun _ hc => Container.Extends.updateJvm d.spec.jvm hc)
      fun _ hc => Container.Extends.append hc rfl (namedEnv_coherenceEnv d)
    exact ⟨[], (List.append_nil _).symm, rfl⟩
  refine ⟨_, ?_, createPodTemplateSpec_eq op d labels annotations services⟩
  refine PodTemplateSpec.HeadedBy.foldl (fun t s h => PodTemplateSpec.Extends.addVolumes h _ s) _ ?_
  refine PodTemplateSpec.HeadedBy.foldl (fun t s h => PodTemplateSpec.Extends.addVolumes h _ s) _ ?_
  have hsidecars := hbase.processSideCars (d := d)
  exact ⟨hsidecars.coherence, hsidecars.inits⟩

/-! ### What is expected of the environment -/

/-- The variable names the file of the arguments. -/
def EnvVar.RefersToFile (v : EnvVar) : Prop := entryPointFile.toList <:+: v.value.toList

/-- The environment of an init-container: that of the Coherence container, with the options that the spec has. -/
structure SharesEnv (d : CoherenceResource) (c init : Container) : Prop where
  others : otherEnv EnvVarJdkOptions init.env = otherEnv EnvVarJdkOptions c.env
  asSpecified : namedEnv EnvVarJdkOptions init.env = namedEnv EnvVarJdkOptions d.spec.env
  noFile : ∀ v ∈ namedEnv EnvVarJdkOptions init.env, ¬ v.RefersToFile

/-- What the spec sets `JDK_JAVA_OPTIONS` to is there in the Coherence container: the same variable, or its value with more after
it. -/
def KeepsOptions (d : CoherenceResource) (c : Container) : Prop :=
  ∀ u, effectiveEnv EnvVarJdkOptions d.spec.env = some u → ∃ v, effectiveEnv EnvVarJdkOptions c.env = some v ∧
    (v = u ∨ u.valueFrom = none ∧ v.valueFrom = none ∧ (trimSpace u.value).toList <+: v.value.toList)

/-- The environments of a template are as they should be. -/
def PodTemplateSpec.FaithfulEnv (d : CoherenceResource) (t : PodTemplateSpec) : Prop :=
  ∃ c i j, t.containers.head? = some c ∧ t.initContainers.take 2 = [i, j] ∧ SharesEnv d c i ∧ SharesEnv d c j ∧ KeepsOptions d c

/-- The alternate variable is `JDK_JAVA_OPTIONS`, which is there without it. -/
def OverridesOptions (d : CoherenceResource) : Prop :=
  ∃ a, d.spec.application = some a ∧ a.usesImageEntryPoint = true ∧ a.alternate = some EnvVarJdkOptions ∧
    (a.useJdkJavaOptions ≠ some false ∨ namedEnv EnvVarJdkOptions d.spec.env ≠ [])

/-- The only variable takes its value from somewhere, and the file is to be added to it. -/
def DropsValueFrom (d : CoherenceResource) : Prop :=
  ∃ a u, d.spec.application = some a ∧ a.usesImageEntryPoint = true ∧ a.useJdkJavaOptions ≠ some false ∧
    namedEnv EnvVarJdkOptions d.spec.env = [u] ∧ u.valueFrom ≠ none

/-! ### `JDK_JAVA_OPTIONS` -/

theorem usesJdkJavaOptions_iff : a.usesJdkJavaOptions = true ↔ a.usesImageEntryPoint = true ∧ a.useJdkJavaOptions ≠ some false := by
  rw [ApplicationSpec.usesJdkJavaOptions, Bool.and_eq_true]
  cases a.useJdkJavaOptions with
  | none => simp
  | some b => cases b <;> simp

theorem name_of_mem_namedEnv {name : String} (h : v ∈ namedEnv name env) : v.name = name := by
  simpa using (List.mem_filter.1 h).2

/-- The options in the Coherence container, with those of the spec. -/
theorem namedEnv_launchedContainer (op : Operator) (d : CoherenceResource) (services : Option String) :
    ((∀ a, d.spec.application = some a → a.usesImageEntryPoint = false) ∧
      namedEnv EnvVarJdkOptions (d.launchedContainer op services).env = namedEnv EnvVarJdkOptions d.spec.env) ∨
      ∃ a, d.spec.application = some a ∧ a.usesImageEntryPoint = true ∧
        namedEnv EnvVarJdkOptions (d.launchedContainer op services).env =
          (if a.usesJdkJavaOptions then withFile (namedEnv EnvVarJdkOptions d.spec.env)
            else namedEnv EnvVarJdkOptions d.spec.env) ++
              if a.alternate = some EnvVarJdkOptions then [{ name := EnvVarJdkOptions, value := entryPointFile }] else [] := by
  rw [CoherenceResource.launchedContainer]
  cases ha : d.spec.application with
  | none =>
    refine .inl ⟨fun a h => absurd h (Option.some_ne_none a).symm, ?_⟩
    rw [← namedEnv_createCoherenceContainer op d services]
    rfl
  | some a =>
    have henv := namedEnv_updateCoherenceContainer a (d.createCoherenceContainer op services)
    rw [namedEnv_createCoherenceContainer] at henv
    cases huses : a.usesImageEntryPoint with
    | false =>
      refine .inl ⟨?_, by simpa only [huses, Bool.false_eq_true, if_false] using henv⟩
      rintro b ⟨⟩
      exact huses
    | true => exact .inr ⟨a, rfl, huses, by simpa only [huses, if_true] using henv⟩

/-- The options of an init-container, before those of the spec are put back. -/
def givenBack (us vs : List EnvVar) : List EnvVar :=
  if vs = [] then [] else (us.head?.map fun v => { v with name := EnvVarJdkOptions }).toList ++ vs.tail

theorem givenBack_self {us : List EnvVar} (h : ∀ u ∈ us, u.name = EnvVarJdkOptions) (vs : List EnvVar) (hus : us ≠ []) :
    givenBack us (us ++ vs) = us ++ vs := by
  cases us with
  | nil => exact absurd rfl hus
  | cons u us =>
    have hu : ({ u with name := EnvVarJdkOptions } : EnvVar) = u := by
      rw [← h u List.mem_cons_self]
    simp [givenBack, hu]

theorem givenBack_withFile {us : List EnvVar} (h : ∀ u ∈ us, u.name = EnvVarJdkOptions) (vs : List EnvVar) :
    givenBack us (withFile us ++ vs) = us ++ vs := by
  cases us with
  | nil => rfl
  | cons u us =>
    have hu : ({ u with name := EnvVarJdkOptions } : EnvVar) = u := by
      rw [← h u List.mem_cons_self]
    simp [givenBack, withFile, hu]

theorem not_overridesOptions_of_not_uses (h : ∀ a, d.spec.application = some a → a.usesImageEntryPoint = false) :
    ¬ OverridesOptions d := by
  rintro ⟨a, ha, huses, -⟩
  rw [h a ha] at huses
  cases huses

theorem overridesOptions_iff (ha : d.spec.application = some a) (huses : a.usesImageEntryPoint = true) :
    OverridesOptions d ↔ a.alternate = some EnvVarJdkOptions ∧
      (a.usesJdkJavaOptions = true ∨ namedEnv EnvVarJdkOptions d.spec.env ≠ []) := by
  rw [usesJdkJavaOptions_iff]
  constructor
  · rintro ⟨b, hb, -, halternate, h⟩
    rw [ha] at hb
    cases hb
    exact ⟨halternate, h.imp_left fun h => ⟨huses, h⟩⟩
  · rintro ⟨halternate, h⟩
    exact ⟨a, ha, huses, halternate, h.imp_left fun h => h.2⟩

/-- **What the init-containers are given**: the options of the spec, and the alternate variable if it overrides them. -/
theorem givenBack_launched (op : Operator) (d : CoherenceResource) (services : Option String) :
    ∃ vs, givenBack (namedEnv EnvVarJdkOptions d.spec.env) (namedEnv EnvVarJdkOptions (d.launchedContainer op services).env) =
      namedEnv EnvVarJdkOptions d.spec.env ++ vs ∧ (vs = [] ↔ ¬ OverridesOptions d) := by
  have hnames : ∀ u ∈ namedEnv EnvVarJdkOptions d.spec.env, u.name = EnvVarJdkOptions := fun u => name_of_mem_namedEnv
  rcases namedEnv_launchedContainer op d services with ⟨hnot, h⟩ | ⟨a, ha, huses, h⟩
  · refine ⟨[], ?_, iff_of_true rfl (not_overridesOptions_of_not_uses hnot)⟩
    rw [h]
    by_cases hnone : namedEnv EnvVarJdkOptions d.spec.env = []
    · rw [hnone]
      rfl
    · have hself := givenBack_self hnames [] hnone
      rwa [List.append_nil] at hself ⊢
  rw [h, overridesOptions_iff ha huses]
  -- the alternate variable, or none, comes after the others
  by_cases halternate : a.alternate = some EnvVarJdkOptions
  · rw [if_pos halternate]
    cases hoptions : a.usesJdkJavaOptions with
    | true => exact ⟨_, givenBack_withFile hnames _, iff_of_false (List.cons_ne_nil _ _) (by simp [halternate])⟩
    | false =>
      by_cases hnone : namedEnv EnvVarJdkOptions d.spec.env = []
      · refine ⟨[], ?_, iff_of_true rfl (by simp [hnone])⟩
        rw [hnone]
        rfl
      · exact ⟨_, givenBack_self hnames _ hnone, iff_of_false (List.cons_ne_nil _ _) (by simp [halternate, hnone])⟩
  · refine ⟨[], ?_, iff_of_true rfl fun h => halternate h.1⟩
    rw [if_neg halternate]
    cases hoptions : a.usesJdkJavaOptions with
    | true => exact givenBack_withFile hnames []
    | false =>
      by_cases hnone : namedEnv EnvVarJdkOptions d.spec.env = []
      · rw [hnone]
        rfl
      · exact givenBack_self hnames [] hnone

/-- The value of a variable is kept, with the file after it. -/
theorem prefix_trimSpace (s : String) : (trimSpace s).toList <+: (trimSpace (s ++ " " ++ entryPointFile)).toList := by
  have hsuffix : ∀ l : List Char, (l.reverse.dropWhile isSpace).reverse <+: l := by
    intro l
    have h := List.reverse_prefix.2 (List.dropWhile_suffix (l := l.reverse) isSpace)
    rwa [List.reverse_reverse] at h
  rw [toList_trimSpace, trimSpace, String.toList_ofList]
  refine (hsuffix _).trans ?_
  rw [List.dropWhile_append]
  split
  · rename_i hempty
    rw [List.isEmpty_iff.1 hempty]
    exact List.nil_prefix
  · rw [List.append_assoc]
    exact List.prefix_append _ _

/-- **The options are kept** in the Coherence container exactly if no value from elsewhere is dropped, where nothing overrides
them. -/
theorem keepsOptions_iff (hnot : ¬ OverridesOptions d)
    (hc : namedEnv EnvVarJdkOptions c.env = namedEnv EnvVarJdkOptions (d.launchedContainer op services).env) :
    KeepsOptions d c ↔ ¬ DropsValueFrom d := by
  have hsame : namedEnv EnvVarJdkOptions c.env = namedEnv EnvVarJdkOptions d.spec.env → KeepsOptions d c := by
    intro h u hu
    exact ⟨u, by rw [effectiveEnv, h, ← effectiveEnv, hu], .inl rfl⟩
  rcases namedEnv_launchedContainer op d services with ⟨hnone, h⟩ | ⟨a, ha, huses, h⟩
  · refine iff_of_true (hsame (hc.trans h)) ?_
    rintro ⟨a, u, ha, huses, -⟩
    rw [hnone a ha] at huses
    cases huses
  rw [overridesOptions_iff ha huses] at hnot
  rw [← hc] at h
  cases hoptions : a.usesJdkJavaOptions with
  | false =>
    rw [hoptions] at h hnot
    have hdrops : ¬ DropsValueFrom d := by
      rintro ⟨b, u, hb, -, hon, -⟩
      rw [ha] at hb
      cases hb
      rw [usesJdkJavaOptions_iff.2 ⟨huses, hon⟩] at hoptions
      cases hoptions
    refine iff_of_true ?_ hdrops
    by_cases halternate : a.alternate = some EnvVarJdkOptions
    · intro u hu
      have hnil : namedEnv EnvVarJdkOptions d.spec.env = [] := by
        by_contra hne
        exact hnot ⟨halternate, .inr hne⟩
      rw [effectiveEnv, hnil] at hu
      cases hu
    · rw [if_neg halternate, if_neg Bool.false_ne_true, List.append_nil] at h
      exact hsame h
  | true =>
    have halternate : a.alternate ≠ some EnvVarJdkOptions := fun h => hnot ⟨h, .inl hoptions⟩
    rw [if_neg halternate, if_pos hoptions, List.append_nil] at h
    have hon := (usesJdkJavaOptions_iff.1 hoptions).2
    -- the first variable gets the file; it is the one that is seen if there is no other
    cases hus : namedEnv EnvVarJdkOptions d.spec.env with
    | nil =>
      refine iff_of_true (fun u hu => ?_) ?_
      · rw [effectiveEnv, hus] at hu
        cases hu
      · rintro ⟨b, u, -, -, -, hu, -⟩
        rw [hus] at hu
        cases hu
    | cons u us =>
      cases us with
      | nil =>
        rw [hus] at h
        have hlast : effectiveEnv EnvVarJdkOptions c.env =
            some { name := EnvVarJdkOptions, value := trimSpace (u.value ++ " " ++ entryPointFile) } := by
          rw [effectiveEnv, h]
          rfl
        constructor
        · rintro hkeeps ⟨b, u', -, -, -, hu', hfrom⟩
          rw [hus] at hu'
          cases hu'
          obtain ⟨v, hv, hvu⟩ := hkeeps u (by rw [effectiveEnv, hus]; rfl)
          rw [hlast] at hv
          cases hv
          rcases hvu with hvu | ⟨hnone, -⟩
          · exact hfrom (congrArg EnvVar.valueFrom hvu).symm
          · exact hfrom hnone
        · intro hdrops u' hu'
          rw [effectiveEnv, hus] at hu'
          cases hu'
          refine ⟨_, hlast, .inr ⟨?_, rfl, prefix_trimSpace u.value⟩⟩
          by_contra hfrom
          exact hdrops ⟨a, u, ha, huses, hon, hus, hfrom⟩
      | cons u' us =>
        refine iff_of_true ?_ ?_
        · intro x hx
          refine ⟨x, ?_, .inl rfl⟩
          rw [← hx, effectiveEnv, effectiveEnv, h, hus, withFile, List.tail_cons, List.getLast?_cons_cons, List.getLast?_cons_cons]
        · rintro ⟨b, x, -, -, -, hx, -⟩
          rw [hus] at hx
          cases hx

/-- An init-container with the shared environment. -/
theorem sharesEnv_iff {init : Container}
    (hc : namedEnv EnvVarJdkOptions c.env = namedEnv EnvVarJdkOptions (d.launchedContainer op services).env)
    (hinit : init.env = replaceEnvVar EnvVarJdkOptions (namedEnv EnvVarJdkOptions d.spec.env).head? c.env) :
    SharesEnv d c init ↔ ¬ OverridesOptions d ∧ ∀ v ∈ namedEnv EnvVarJdkOptions d.spec.env, ¬ v.RefersToFile := by
  obtain ⟨vs, hgiven, hvs⟩ := givenBack_launched op d services
  have hnamed : namedEnv EnvVarJdkOptions init.env = namedEnv EnvVarJdkOptions d.spec.env ++ vs := by
    rw [hinit, namedEnv_replaceEnvVar, hc]
    exact hgiven
  constructor
  · rintro ⟨-, hspecified, hfile⟩
    have hnil : vs = [] := List.self_eq_append_right.1 (hspecified.symm.trans hnamed)
    rw [hspecified] at hfile
    exact ⟨hvs.1 hnil, hfile⟩
  · rintro ⟨hoverrides, hfile⟩
    rw [hvs.2 hoverrides, List.append_nil] at hnamed
    refine ⟨?_, hnamed, hnamed.symm ▸ hfile⟩
    rw [hinit, otherEnv_replaceEnvVar]

/-- **The containers of the operator** in the template. -/
theorem exists_containers (op : Operator) (d : CoherenceResource) (labels annotations : Labels) (services : Option String) :
    ∃ c i j, (d.createPodTemplateSpec op labels annotations services).containers.head? = some c ∧
      (d.createPodTemplateSpec op labels annotations services).initContainers.take 2 = [i, j] ∧
      namedEnv EnvVarJdkOptions c.env = namedEnv EnvVarJdkOptions (d.launchedContainer op services).env ∧
      ∀ x ∈ [i, j], x.env = replaceEnvVar EnvVarJdkOptions (namedEnv EnvVarJdkOptions d.spec.env).head? c.env := by
  obtain ⟨t, ht, htemplate⟩ := exists_shareEnv op d labels annotations services
  obtain ⟨c, cs, hcs, -, hc⟩ := ht.coherence
  obtain ⟨i, j, is, his, hi, hj⟩ := ht.inits
  let share (x : Container) : Container :=
    { x with env := replaceEnvVar EnvVarJdkOptions (namedEnv EnvVarJdkOptions d.spec.env).head? (x.env ++ c.env) }
  have hshared : d.createPodTemplateSpec op labels annotations services =
      { t with initContainers := share i :: share j :: is } := by
    rw [htemplate, findEnv_eq_head?, namedEnv_createCoherenceContainer, PodTemplateSpec.shareEnv]
    simp only [his, hcs]
    rfl
  rw [hshared]
  refine ⟨c, share i, share j, by rw [hcs]; rfl, rfl, ?_, ?_⟩
  · obtain ⟨more, hmore, hnone⟩ := hc
    rw [hmore, namedEnv_append, hnone, List.append_nil]
  · intro x hx
    rcases List.mem_cons.1 hx with rfl | hx
    · simp only [share, hi, List.nil_append]
    obtain rfl := List.mem_singleton.1 hx
    simp only [share, hj, List.nil_append]

/-- **The environments are faithful** exactly if the options of the spec are neither overridden nor dropped, and do not name the
file of the arguments themselves. -/
theorem faithfulEnv_iff (op : Operator) (d : CoherenceResource) (labels annotations : Labels) (services : Option String) :
    (d.createPodTemplateSpec op labels annotations services).FaithfulEnv d ↔
      ¬ OverridesOptions d ∧ ¬ DropsValueFrom d ∧ ∀ v ∈ namedEnv EnvVarJdkOptions d.spec.env, ¬ v.RefersToFile := by
  obtain ⟨c, i, j, hc, hinits, hnamed, henv⟩ := exists_containers op d labels annotations services
  have hshares : ∀ x ∈ [i, j], SharesEnv d c x ↔
      ¬ OverridesOptions d ∧ ∀ v ∈ namedEnv EnvVarJdkOptions d.spec.env, ¬ v.RefersToFile := fun x hx =>
    sharesEnv_iff hnamed (henv x hx)
  constructor
  · rintro ⟨c', i', j', hc', hinits', hi', -, hkeeps⟩
    rw [hc] at hc'
    cases hc'
    rw [hinits] at hinits'
    cases hinits'
    obtain ⟨hoverrides, hfile⟩ := (hshares i List.mem_cons_self).1 hi'
    exact ⟨hoverrides, (keepsOptions_iff hoverrides hnamed).1 hkeeps, hfile⟩
  · rintro ⟨hoverrides, hdrops, hfile⟩
    exact ⟨c, i, j, hc, hinits, (hshares i List.mem_cons_self).2 ⟨hoverrides, hfile⟩,
      (hshares j (List.mem_cons_of_mem _ List.mem_cons_self)).2 ⟨hoverrides, hfile⟩,
      (keepsOptions_iff hoverrides hnamed).2 hdrops⟩

/-- Options of the virtual machine that are in a ConfigMap. -/
def optionsFromConfigMap : EnvVar where
  name := EnvVarJdkOptions
  valueFrom := some (.other ((∅ : Labels).set "configMapKeyRef" "options"))

/-- A resource with these options, that uses the entry point of its image. -/
def optionsResource : CoherenceResource :=
  ({ metadata := { name := "storage", ns := "default" }
     generation := 1
     spec := { application := some { useImageEntryPoint := some true }, env := [optionsFromConfigMap] } } : Coherence).toResource

/-- The options are gone from the Coherence container. -/
theorem not_forall_faithfulEnv :
    ¬ ∀ (op : Operator) (d : CoherenceResource) (labels annotations : Labels) (services : Option String),
      (d.createPodTemplateSpec op labels annotations services).FaithfulEnv d := by
  intro h
  obtain ⟨c, -, -, hc, -, hnamed, -⟩ := exists_containers default optionsResource ∅ ∅ none
  obtain ⟨c', -, -, hc', -, -, -, hkeeps⟩ := h default optionsResource ∅ ∅ none
  rw [hc] at hc'
  cases hc'
  have hoverrides : ¬ OverridesOptions optionsResource := by
    rintro ⟨a, ⟨⟩, -, halternate, -⟩
    cases halternate
  refine (keepsOptions_iff hoverrides hnamed).1 hkeeps ⟨_, optionsFromConfigMap, rfl, rfl, Option.some_ne_none _ ∘ Eq.symm, rfl, ?_⟩
  exact Option.some_ne_none _

end CoherenceOperator
