import CoherenceOperator.Properties.Exemptions

/-!
# Options that the runner forwards

An option that comes first stays first, whatever the steps of the runner add after it (`systemRest_prependArgs`). So options that
the runner makes of a variable stand in the file of arguments between the others (`arguments_of_createsFiles`), and the launcher finds the
property that one sets, if the other options leave this property alone (`systemProperty_of_lines`).
-/

namespace CoherenceOperator

open Effect Prog ArgumentFile JavaCommand

namespace RunDetails

section

variable {d : RunDetails} {m : Machine} {name property value path a : String} {l : List String}

/-! ### What comes before stays before -/

@[simp] theorem expandEnv_prependArgs : (prependArgs l d).expandEnv a = d.expandEnv a := rfl

@[simp] theorem getenvOrDefault_prependArgs : (prependArgs l d).getenvOrDefault name value = d.getenvOrDefault name value := rfl

@[simp] theorem getenvWithPrefix_prependArgs : (prependArgs l d).getenvWithPrefix name a = d.getenvWithPrefix name a := rfl

@[simp] theorem addSystemPropertyFromEnvVar_prependArgs :
    (prependArgs l d).addSystemPropertyFromEnvVar name property = prependArgs l (d.addSystemPropertyFromEnvVar name property) := by
  rw [addSystemPropertyFromEnvVar, addSystemPropertyFromEnvVar, getenv_prependArgs, addSystemPropertyArg_prependArgs,
    apply_ite (prependArgs l)]

@[simp] theorem setSystemPropertyFromEnvVarOrDefault_prependArgs :
    (prependArgs l d).setSystemPropertyFromEnvVarOrDefault name property value =
      prependArgs l (d.setSystemPropertyFromEnvVarOrDefault name property value) := by
  rw [setSystemPropertyFromEnvVarOrDefault, setSystemPropertyFromEnvVarOrDefault, getenv_prependArgs, addSystemPropertyArg_prependArgs,
    addSystemPropertyArg_prependArgs, apply_ite (prependArgs l)]

@[simp] theorem addClasspath_prependArgs : (prependArgs l d).addClasspath path = prependArgs l (d.addClasspath path) := by
  rw [addClasspath, addClasspath, apply_ite (prependArgs l)]
  rfl

@[simp] theorem addClasspathIfExists_prependArgs :
    (prependArgs l d).addClasspathIfExists m path = prependArgs l (d.addClasspathIfExists m path) := by
  rw [addClasspathIfExists, addClasspathIfExists, addClasspath_prependArgs, apply_ite (prependArgs l)]

@[simp] theorem addJarsToClasspath_prependArgs :
    (prependArgs l d).addJarsToClasspath m path = prependArgs l (d.addJarsToClasspath m path) := by
  have hjars : ∀ (jars : List String) (d : RunDetails), jars.foldl addClasspath (prependArgs l d) = prependArgs l (jars.foldl addClasspath d) := by
    intro jars
    induction jars with
    | nil => exact fun _ => rfl
    | cons jar jars ih => exact fun d => by rw [List.foldl_cons, List.foldl_cons, addClasspath_prependArgs, ih]
  rw [addJarsToClasspath, addJarsToClasspath, expandEnv_prependArgs, hjars, apply_ite (prependArgs l)]

theorem configureJib_prependArgs : (prependArgs l d).configureJib m = prependArgs l (d.configureJib m) := by
  rw [configureJib, configureJib, getenvOrDefault_prependArgs]
  dsimp only
  split
  · simp
  · simp

theorem configureClasspath_prependArgs : (prependArgs l d).configureClasspath m = prependArgs l (d.configureClasspath m) := by
  have hbuild : (prependArgs l d).isBuildPacks m = d.isBuildPacks m := rfl
  have hspring : (prependArgs l d).isSpringBoot = d.isSpringBoot := rfl
  have hdir : ∀ d : RunDetails, (prependArgs l d).utilsDir = d.utilsDir := fun _ => rfl
  simp only [configureClasspath, hbuild, hspring, hdir, isEnvTrueOrBlank_prependArgs, configureJib_prependArgs, addClasspath_prependArgs,
    addClasspathIfExists_prependArgs, ← apply_ite (prependArgs l)]

theorem configurePersistence_prependArgs : (prependArgs l d).configurePersistence = prependArgs l d.configurePersistence := by
  simp [configurePersistence]

theorem configureSite_prependArgs :
    (prependArgs l d).configureSite m = (prependArgs l (d.configureSite m).1, (d.configureSite m).2) := by
  rw [configureSite, configureSite, getenv_prependArgs, getenv_prependArgs]
  dsimp only
  by_cases hsite : d.getenv "COHERENCE_SITE" = ""
  · rw [if_pos hsite, if_pos hsite]
    simp only [expandEnv_prependArgs, addSystemPropertyArg_prependArgs, ← apply_ite (prependArgs l)]
  · rw [if_neg hsite, if_neg hsite]
    simp only [expandEnv_prependArgs, addSystemPropertyArg_prependArgs, ← apply_ite (prependArgs l)]

theorem configureRack_prependArgs (site : String) : (prependArgs l d).configureRack m site = prependArgs l (d.configureRack m site) := by
  simp only [configureRack, getenv_prependArgs, expandEnv_prependArgs, addSystemPropertyArg_prependArgs, ← apply_ite (prependArgs l)]
  rfl

theorem configureSiteAndRack_prependArgs : (prependArgs l d).configureSiteAndRack m = prependArgs l (d.configureSiteAndRack m) := by
  have hsite : (prependArgs l d).getSite = d.getSite := rfl
  rw [configureSiteAndRack, configureSiteAndRack, hsite]
  split
  · rw [configureSite_prependArgs]
    exact configureRack_prependArgs _
  · rfl

theorem configureOverride_prependArgs : (prependArgs l d).configureOverride = prependArgs l d.configureOverride := by
  simp [configureOverride, ← apply_ite (prependArgs l)]

theorem cohPost2206_prependArgs : (prependArgs l d).cohPost2206 = prependArgs l d.cohPost2206 := by
  have huse : (prependArgs l d).useOperatorHealth = d.useOperatorHealth := rfl
  rw [cohPost2206, cohPost2206, huse, getenvOrDefault_prependArgs]
  split
  · exact addArg_prependArgs
  split
  · exact addSystemPropertyArg_prependArgs
  · dsimp only
    rw [← setSystemPropertyFromEnvVarOrDefault_prependArgs, ← addSystemPropertyArg_prependArgs]
    rfl

theorem configureHealth_prependArgs : (prependArgs l d).configureHealth m = prependArgs l (d.configureHealth m) := by
  have hhealth : ({ prependArgs l d with resolvedOperatorHealth := true } : RunDetails) = prependArgs l { d with resolvedOperatorHealth := true } :=
    rfl
  have hversion : ∀ (d : RunDetails) version, (prependArgs l d).checkCoherenceVersion m version = d.checkCoherenceVersion m version :=
    fun _ _ => rfl
  simp only [configureHealth, hhealth, hversion, cohPost2206_prependArgs, ← apply_ite (prependArgs l)]

theorem addSSLProperty_prependArgs (before suffix valuePrefix : String) :
    (prependArgs l d).addSSLProperty before suffix property valuePrefix = prependArgs l (d.addSSLProperty before suffix property valuePrefix) := by
  simp only [addSSLProperty, getenvWithPrefix_prependArgs, addSystemPropertyArg_prependArgs, ← apply_ite (prependArgs l)]

theorem addSSL_prependArgs (before prop provider : String) :
    (prependArgs l d).addSSL before prop provider = prependArgs l (d.addSSL before prop provider) := by
  have hprefixes : (prependArgs l d).getSSLPrefixes before = d.getSSLPrefixes before := rfl
  simp only [addSSL, hprefixes, getenvWithPrefix_prependArgs, addSystemPropertyArg_prependArgs, addSSLProperty_prependArgs,
    ← apply_ite (prependArgs l)]

theorem configureAllowEndangered_prependArgs : (prependArgs l d).configureAllowEndangered = prependArgs l d.configureAllowEndangered := by
  simp only [configureAllowEndangered, getenv_prependArgs, addArg_prependArgs, ← apply_ite (prependArgs l)]

/-- The standard system properties after the address where a member looks for its cluster. -/
def standardRest (d : RunDetails) : RunDetails :=
  let d := d.addSystemPropertyFromEnvVar "COHERENCE_MACHINE" "coherence.machine"
  let d := d.addSystemPropertyFromEnvVar "COHERENCE_MEMBER" "coherence.member"
  let d := d.addSystemPropertyFromEnvVar "COHERENCE_CLUSTER" "coherence.cluster"
  let d := d.addSystemPropertyFromEnvVar "COHERENCE_CACHECONFIG" "coherence.cacheconfig"
  let d := d.addSystemPropertyFromEnvVar "COHERENCE_OPERATOR_IDENTITY" "coherence.operator.identity"
  let d := d.addSystemPropertyFromEnvVar "COHERENCE_OPERATOR_FORCE_EXIT" "coherence.operator.force.exit"
  let d := d.setSystemPropertyFromEnvVarOrDefault "COHERENCE_HEALTH_HTTP_PORT" "coherence.operator.health.port" "6676"
  let d := d.setSystemPropertyFromEnvVarOrDefault "COHERENCE_MANAGEMENT_PORT" "coherence.management.http.port" "30000"
  let d := d.setSystemPropertyFromEnvVarOrDefault "COHERENCE_METRICS_PORT" "coherence.metrics.http.port" "9612"
  d.addVMOption "-XX:+UnlockDiagnosticVMOptions"

/-- The steps after that address and before the services that may be endangered. -/
def systemRest (m : Machine) (d : RunDetails) : RunDetails :=
  ((((((d.standardRest.configureClasspath m).configurePersistence).configureSiteAndRack m).configureOverride).configureHealth
    m).addManagementSSL).addMetricsSSL

theorem configureSystem_eq : d.configureSystem m =
    ((d.addSystemPropertyArg "coherence.ttl" "0").addSystemPropertyFromEnvVar "COHERENCE_WKA" "coherence.wka").systemRest m := rfl

/-- **An option that comes first stays first.** -/
theorem systemRest_prependArgs : (prependArgs l d).systemRest m = prependArgs l (d.systemRest m) := by
  have hstandard : (prependArgs l d).standardRest = prependArgs l d.standardRest := by simp [standardRest]
  rw [systemRest, hstandard, configureClasspath_prependArgs, configurePersistence_prependArgs, configureSiteAndRack_prependArgs,
    configureOverride_prependArgs, configureHealth_prependArgs, addManagementSSL, addSSL_prependArgs, addMetricsSSL, addSSL_prependArgs]
  rfl

theorem dashed_systemRest : (d.systemRest m).Dashed ↔ d.Dashed := by
  have hstandard : d.standardRest.Dashed ↔ d.Dashed := by
    rw [standardRest, dashed_addVMOption rfl]
    simp
  rw [systemRest, addMetricsSSL, dashed_addSSL, addManagementSSL, dashed_addSSL, dashed_configureHealth, dashed_configureOverride,
    dashed_configureSiteAndRack, dashed_configurePersistence, dashed_configureClasspath, hstandard]

end

end RunDetails

/-! ### Options among others -/

/-- The property of an option that stands among others, behind the class path. -/
theorem systemProperty_of_lines {cp property value : String} {before after : List String} (hproperty : '=' ∉ property.toList) (hcp : cp ≠ "")
    (halone : ∀ a ∈ before, isAlone a.toList = true) (hothers : ∀ a ∈ before ++ after, DoesNotSet property.toList a.toList) :
    systemProperty property.toList ((("--class-path" :: cp :: (before ++ RunDetails.systemProperty property value :: after)).map
      String.toList).filter (· ≠ [])) = some value.toList := by
  have hoption : (RunDetails.systemProperty property value).toList = '-' :: 'D' :: (property.toList ++ '=' :: value.toList) := by
    simp [RunDetails.systemProperty]
  rw [List.map_cons, List.map_cons, List.filter_cons_of_pos (by simp), List.filter_cons_of_pos (by simpa using hcp), systemProperty,
    settings_cons_cons (by decide) (by decide), ← systemProperty, List.map_append, List.filter_append, List.map_cons, hoption,
    List.filter_cons_of_pos (by simp)]
  apply systemProperty_eq
  · intro b hb
    obtain ⟨a, ha, rfl⟩ := List.mem_map.1 (List.mem_filter.1 hb).1
    exact halone a ha
  · exact setting_eq hproperty value.toList
  · rfl
  · intro b hb
    rw [← List.filter_append, ← List.map_append] at hb
    obtain ⟨a, ha, rfl⟩ := List.mem_map.1 (List.mem_filter.1 hb).1
    exact hothers a ha

/-- No option sets the property, behind the class path. -/
theorem systemProperty_of_lines_eq_none {cp property : String} {lines : List String} (hcp : cp ≠ "")
    (hothers : ∀ a ∈ lines, DoesNotSet property.toList a.toList) :
    systemProperty property.toList ((("--class-path" :: cp :: lines).map String.toList).filter (· ≠ [])) = none := by
  rw [List.map_cons, List.map_cons, List.filter_cons_of_pos (by simp), List.filter_cons_of_pos (by simpa using hcp), systemProperty,
    settings_cons_cons (by decide) (by decide), ← systemProperty]
  apply systemProperty_eq_none
  intro b hb
  obtain ⟨a, ha, rfl⟩ := List.mem_map.1 (List.mem_filter.1 hb).1
  exact hothers a ha

/-- The options set each its own property. -/
theorem doesNotSet_systemProperty {property other : String} (hproperty : '=' ∉ property.toList) (hne : property ≠ other) (value : String) :
    DoesNotSet other.toList (RunDetails.systemProperty property value).toList := by
  have hoption : (RunDetails.systemProperty property value).toList = '-' :: 'D' :: (property.toList ++ '=' :: value.toList) := by
    simp [RunDetails.systemProperty]
  intro p hp hname
  rw [hoption, setting_eq hproperty, Option.mem_def, Option.some.injEq] at hp
  subst hp
  exact hne (String.toList_inj.1 hname)

section

variable {m : Machine} {env : String → String}

/-- The arguments in the file, given options that come after others in the details, if these others may stand in the file as they are. -/
theorem arguments_of_createsFiles {before l : List String} {g : RunDetails} {files : String × String} {C : String → Prop}
    (hdetails : createDetails m env = .ok (RunDetails.prependArgs (before ++ l) g)) (h : createsFiles m env = .ok files)
    (hplain : ∀ a ∈ l, ∀ c ∈ a.toList, isPlain c = true)
    (hothers : ∀ cp, (RunDetails.prependArgs before g).classPathText m = .ok cp → IsArgument cp.toList ∧
      ∀ a ∈ (RunDetails.prependArgs before g).argumentLines m cp, (∀ c ∈ a.toList, isPlain c = true) ∧ C a) :
    ∃ cp after, cp ≠ "" ∧ (∀ a ∈ g.vmOptions ++ g.memoryArgs ++ g.diagnosticArgs ++ before ++ after, C a) ∧
      arguments files.1.toList = (("--class-path" :: cp ::
        (g.vmOptions ++ g.memoryArgs ++ g.diagnosticArgs ++ before ++ l ++ after)).map String.toList).filter (· ≠ []) := by
  obtain ⟨d, hd, hfiles⟩ := bind_eq_ok.1 h
  obtain rfl : d = RunDetails.prependArgs (before ++ l) g := Except.ok.inj (hd.symm.trans hdetails)
  obtain ⟨cp, hcp, hfiles⟩ := bind_eq_ok.1 hfiles
  have htext : files.1 = (RunDetails.prependArgs (before ++ l) g).fullArgsText m cp true := by
    iterate 6 obtain ⟨_, -, hfiles⟩ := bind_eq_ok.1 hfiles
    cases hfiles
    rfl
  have hlines : ∀ l, (RunDetails.prependArgs (before ++ l) g).argumentLines m cp = "--class-path" :: cp ::
      (g.vmOptions ++ g.memoryArgs ++ g.diagnosticArgs ++ before ++ l ++ (g.args ++ g.springBootLines m ++ g.mainClassLines ++ g.mainArgs)) := by
    intro l
    have hspring : (RunDetails.prependArgs (before ++ l) g).springBootLines m = g.springBootLines m := rfl
    have hclass : (RunDetails.prependArgs (before ++ l) g).mainClassLines = g.mainClassLines := rfl
    rw [RunDetails.argumentLines, hspring, hclass]
    simp [RunDetails.getAllArgs, RunDetails.prependArgs]
  obtain ⟨hclassPath, hlinesOthers⟩ := hothers cp hcp
  have hnone := hlines []
  rw [List.append_nil, List.append_nil] at hnone
  rw [hnone] at hlinesOthers
  refine ⟨cp, _, by simpa using hclassPath.1, fun a ha => (hlinesOthers a (List.mem_cons_of_mem _ (List.mem_cons_of_mem _ ha))).2, ?_⟩
  rw [← hlines, htext]
  apply arguments_of_isLined (RunDetails.isLined_fullArgsText m _ cp)
  rw [List.forall_mem_map, hlines]
  intro a ha c hc
  by_cases hoption : a ∈ l
  · exact hplain a hoption c hc
  · exact (hlinesOthers a (mem_of_notMem ha hoption)).1 c hc

end

end CoherenceOperator
