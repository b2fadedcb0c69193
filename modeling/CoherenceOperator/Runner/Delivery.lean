import CoherenceOperator.Lib.ArgumentFile
import CoherenceOperator.Runner.Additions

/-!
# What a user gives

The options of a user are added as they are, and what comes after them does not depend on them, nor on what is there before: only
the system properties of a managed health server and the options that the operator was started with (`configureExtra_prependArgs`).
-/

namespace CoherenceOperator

open Effect Prog

namespace RunDetails

variable {d : RunDetails} {m : Machine} {a name property value path : String} {l : List String}

/-! ### Only arguments are added -/

/-- Do the details differ in their arguments only? -/
def OnlyArgs (d d' : RunDetails) : Prop := d' = { d with args := d'.args }

theorem OnlyArgs.refl (d : RunDetails) : OnlyArgs d d := rfl

theorem OnlyArgs.trans {d₁ d₂ d₃ : RunDetails} (h : OnlyArgs d₁ d₂) (h' : OnlyArgs d₂ d₃) : OnlyArgs d₁ d₃ := by
  rw [OnlyArgs] at h h' ⊢
  rw [h', h]

theorem OnlyArgs.memoryView_eq {d' : RunDetails} (h : OnlyArgs d d') : d'.memoryView = d.memoryView := by
  rw [OnlyArgs] at h
  rw [h]
  rfl

theorem onlyArgs_addArg : OnlyArgs d (d.addArg a) := by
  rw [addArg]
  split
  · rfl
  · rfl

theorem onlyArgs_addArgs (as : List String) : OnlyArgs d (d.addArgs as) := by
  rw [addArgs]
  induction as generalizing d with
  | nil => rfl
  | cons a as ih => exact onlyArgs_addArg.trans ih

theorem onlyArgs_addSystemPropertyArg : OnlyArgs d (d.addSystemPropertyArg property value) := by
  rw [addSystemPropertyArg]
  split
  · rfl
  · rfl

theorem onlyArgs_addArgsFromEnvVar : OnlyArgs d (d.addArgsFromEnvVar name) := by
  rw [addArgsFromEnvVar]
  split
  · exact onlyArgs_addArgs _
  · rfl

/-! ### Managed health mutators -/

theorem configureLogin_prependArgs (mode : String) :
    (prependArgs l d).configureLogin m mode = (d.configureLogin m mode).map (prependArgs l) := by
  have huser : (prependArgs l d).userArgs = d.userArgs := rfl
  have hutils : (prependArgs l d).utilsDir = d.utilsDir := rfl
  rw [configureLogin, configureLogin, huser, hutils]
  dsimp only
  repeat' split
  all_goals first | rfl | skip
  rw [addSystemPropertyArg_prependArgs]
  rfl

theorem configureHealthTLS_prependArgs (ssl : SSLSpec) :
    (prependArgs l d).configureHealthTLS m ssl = (d.configureHealthTLS m ssl).map (prependArgs l) := by
  have hset : ∀ (d : RunDetails) name value, (prependArgs l d).addHealthSecurityIfSet name value =
      prependArgs l (d.addHealthSecurityIfSet name value) := by
    intro d name value
    cases value with
    | none => rfl
    | some value =>
      rw [addHealthSecurityIfSet, addHealthSecurity, addSystemPropertyArg_prependArgs]
      rfl
  rw [configureHealthTLS, configureHealthTLS]
  cases healthFile m ssl (ssl.keyStore.getD "") with
  | error e => rfl
  | ok keyStore =>
    cases healthFile m ssl (ssl.keyStorePasswordFile.getD "") with
    | error e => rfl
    | ok keyStorePassword =>
      cases healthFile m ssl (ssl.keyPasswordFile.getD "") with
      | error e => rfl
      | ok keyPassword =>
        simp only [addHealthSecurity, addSystemPropertyArg_prependArgs, hset]
        rfl

theorem configureSecureHealth_prependArgs (connection : HealthMutatorConnection) :
    (prependArgs l d).configureSecureHealth m connection = (d.configureSecureHealth m connection).map (prependArgs l) := by
  have huser : (prependArgs l d).userArgs = d.userArgs := rfl
  have hhealth : (prependArgs l d).resolvedOperatorHealth = d.resolvedOperatorHealth := rfl
  have hcheck : (prependArgs l d).healthSecurityCheckCommand m = d.healthSecurityCheckCommand m := rfl
  rw [configureSecureHealth, configureSecureHealth, huser, hhealth, hcheck]
  by_cases hresolved : d.resolvedOperatorHealth = true
  · rw [if_pos hresolved, if_pos hresolved]
    rfl
  rw [if_neg hresolved, if_neg hresolved]
  cases d.healthSecurityCheckCommand m with
  | error e => rfl
  | ok cmd =>
    show (if m.execute cmd ≠ 0 then _ else _) = Except.map _ (if m.execute cmd ≠ 0 then _ else _)
    by_cases hexecute : m.execute cmd ≠ 0
    · rw [if_pos hexecute, if_pos hexecute]
      rfl
    rw [if_neg hexecute, if_neg hexecute]
    split
    · rfl
    · rw [configureLogin_prependArgs]
      exact bind_prependArgs _ fun d => configureHealthTLS_prependArgs _

theorem configureHealthMutators_prependArgs : (prependArgs l d).configureHealthMutators m = (d.configureHealthMutators m).map (prependArgs l) := by
  rw [configureHealthMutators, configureHealthMutators, getenv_prependArgs]
  split
  · rfl
  split
  · rfl
  split
  · rfl
  split
  · exact configureSecureHealth_prependArgs _
  · rfl

/-- **Options that come before stay before**, whatever comes after the options of the resource. -/
theorem configureExtra_prependArgs : (prependArgs l d).configureExtra m = (d.configureExtra m).map (prependArgs l) := by
  rw [configureExtra, configureExtra, addArgs_prependArgs, configureHealthMutators_prependArgs]

/-! ### Only arguments come after the options of the resource -/

theorem onlyArgs_configureLogin {mode : String} {d' : RunDetails} (h : d.configureLogin m mode = .ok d') : OnlyArgs d d' := by
  rw [configureLogin] at h
  dsimp only at h
  repeat' split at h
  all_goals cases h
  · exact onlyArgs_addSystemPropertyArg
  · exact OnlyArgs.refl d

theorem onlyArgs_addHealthSecurityIfSet (value : Option String) : OnlyArgs d (d.addHealthSecurityIfSet name value) := by
  cases value with
  | none => exact OnlyArgs.refl d
  | some value =>
    rw [addHealthSecurityIfSet, addHealthSecurity]
    exact onlyArgs_addSystemPropertyArg

theorem onlyArgs_configureHealthTLS {ssl : SSLSpec} {d' : RunDetails} (h : d.configureHealthTLS m ssl = .ok d') : OnlyArgs d d' := by
  obtain ⟨_, -, h⟩ := bind_eq_ok.1 h
  obtain ⟨_, -, h⟩ := bind_eq_ok.1 h
  obtain ⟨_, -, h⟩ := bind_eq_ok.1 h
  cases h
  have hproperty : ∀ {d : RunDetails} {name value}, OnlyArgs d (d.addHealthSecurity name value) := onlyArgs_addSystemPropertyArg
  exact hproperty.trans <| hproperty.trans <| hproperty.trans <| (onlyArgs_addHealthSecurityIfSet _).trans <|
    (onlyArgs_addHealthSecurityIfSet _).trans <| (onlyArgs_addHealthSecurityIfSet _).trans <| onlyArgs_addSystemPropertyArg.trans <|
      onlyArgs_addSystemPropertyArg.trans onlyArgs_addSystemPropertyArg

theorem onlyArgs_configureHealthMutators {d' : RunDetails} (h : d.configureHealthMutators m = .ok d') : OnlyArgs d d' := by
  rw [configureHealthMutators] at h
  split at h
  · cases h
    exact OnlyArgs.refl d
  split at h
  · cases h
  split at h
  · cases h
  split at h
  · rw [configureSecureHealth] at h
    split at h
    · cases h
    obtain ⟨cmd, -, h⟩ := bind_eq_ok.1 h
    split at h
    · cases h
    split at h
    · cases h
    obtain ⟨_, hlogin, htls⟩ := bind_eq_ok.1 h
    exact (onlyArgs_configureLogin hlogin).trans (onlyArgs_configureHealthTLS htls)
  · cases h
    exact OnlyArgs.refl d

theorem onlyArgs_configureExtra {d' : RunDetails} (h : d.configureExtra m = .ok d') : OnlyArgs d d' :=
  (onlyArgs_addArgs _).trans (onlyArgs_configureHealthMutators h)

end RunDetails

/-! ### The details as a whole -/

section

variable {m : Machine} {env : String → String} {d : RunDetails}

/-- The details before the command is configured. -/
def populatedDetails (m : Machine) (env : String → String) : Except Failure RunDetails :=
  (((newRunDetails env).populateMainArgs).populateMainClass m).populateServerDetails m

theorem wrap_eq_ok {message : String} {r : Except Failure RunDetails} : RunDetails.wrap message r = .ok d ↔ r = .ok d := by
  cases r with
  | ok d' => rfl
  | error e =>
    cases e with
    | error text => simp [RunDetails.wrap]
    | exit code => rfl

/-- The details are populated, then come the runner's own options, the options of the resource, and what comes after them. -/
theorem createDetails_eq_ok : createDetails m env = .ok d ↔ ∃ d₀ d₁, populatedDetails m env = .ok d₀ ∧ d₀.configureOptions m = .ok d₁ ∧
    (d₁.addArgsFromEnvVar "JVM_ARGS").configureExtra m = .ok d := by
  rw [createDetails]
  constructor
  · intro h
    obtain ⟨d₀, hpopulated, h⟩ := bind_eq_ok.1 h
    obtain ⟨d₁, hoptions, h⟩ := bind_eq_ok.1 (wrap_eq_ok.1 h)
    exact ⟨d₀, d₁, hpopulated, hoptions, h⟩
  · rintro ⟨d₀, d₁, hpopulated, hoptions, h⟩
    exact bind_eq_ok.2 ⟨d₀, hpopulated, wrap_eq_ok.2 (bind_eq_ok.2 ⟨d₁, hoptions, h⟩)⟩

/-- The options that show the settings. -/
def settingsOptions (env : String → String) : List String :=
  if env "JVM_SHOW_SETTINGS" = "" || (env "JVM_SHOW_SETTINGS").toLower = "true" then ["-XshowSettings:all", "-XX:+PrintCommandLineFlags", "-XX:+PrintFlagsFinal"] else []

namespace RunDetails

/-- Some diagnostic options. -/
def addDiagnostics (d : RunDetails) (l : List String) : RunDetails := { d with diagnosticArgs := d.diagnosticArgs ++ l.map d.expandEnv }

theorem addDiagnosticOption_eq {a : String} (ha : a ≠ "") : d.addDiagnosticOption a = d.addDiagnostics [a] := if_pos ha

theorem addDiagnostics_addDiagnostics (l l' : List String) : (d.addDiagnostics l).addDiagnostics l' = d.addDiagnostics (l ++ l') := by
  rw [addDiagnostics, addDiagnostics, addDiagnostics, List.map_append, ← List.append_assoc]
  rfl

theorem populateShowSettings_eq : d.populateShowSettings = d.addDiagnostics (settingsOptions d.env) := by
  rw [populateShowSettings, settingsOptions, isEnvTrueOrBlank, getenv]
  split
  · rw [addDiagnosticOption_eq (by decide), addDiagnosticOption_eq (by decide), addDiagnosticOption_eq (by decide),
      addDiagnostics_addDiagnostics, addDiagnostics_addDiagnostics]
    rfl
  · simp [addDiagnostics]

theorem dashed_populateShowSettings : d.populateShowSettings.Dashed ↔ d.Dashed := by
  rw [populateShowSettings]
  split
  · rw [dashed_addDiagnosticOption rfl, dashed_addDiagnosticOption rfl, dashed_addDiagnosticOption rfl]
  · rfl

theorem populateTracing_ok {d' : RunDetails} (h : d.populateTracing m = .ok d') : d'.memoryView = d.memoryView ∧ (d'.Dashed ↔ d.Dashed) := by
  rw [populateTracing] at h
  split at h
  · cases h
    exact ⟨rfl, Iff.rfl⟩
  split at h
  · cases h
    exact ⟨memoryView_addSystemPropertyArg, dashed_addSystemPropertyArg⟩
  · cases h

theorem memoryView_populateManagement : d.populateManagement.memoryView = d.memoryView := by
  simp only [populateManagement, apply_ite memoryView, memoryView_addClasspath, memoryView_addSystemPropertyArg, ite_self]

theorem dashed_populateManagement : d.populateManagement.Dashed ↔ d.Dashed := by
  simp only [populateManagement, apply_ite Dashed, dashed_addClasspath, dashed_addSystemPropertyArg, ite_self]

theorem memoryView_populateMetrics : d.populateMetrics.memoryView = d.memoryView := by
  simp only [populateMetrics, apply_ite memoryView, memoryView_addClasspath, memoryView_addSystemPropertyArg, ite_self]

theorem dashed_populateMetrics : d.populateMetrics.Dashed ↔ d.Dashed := by
  simp only [populateMetrics, apply_ite Dashed, dashed_addClasspath, dashed_addSystemPropertyArg, ite_self]

theorem memoryView_populateModules : (d.populateModules m).memoryView = d.memoryView := by
  simp only [populateModules, apply_ite memoryView, memoryView_addClasspath, ite_self]

theorem dashed_populateModules : (d.populateModules m).Dashed ↔ d.Dashed := by
  simp only [populateModules, apply_ite Dashed, dashed_addClasspath, ite_self]

/-- What the server is: no memory option is added, and the options that show the settings. -/
theorem populateServerDetails_ok {d' : RunDetails} (h : d.populateServerDetails m = .ok d') :
    ∃ d₀ : RunDetails, d₀.memoryView = d.memoryView ∧ d' = d₀.addDiagnostics (settingsOptions d₀.env) ∧ (d'.Dashed ↔ d.Dashed) := by
  obtain ⟨d₁, htracing, h⟩ := bind_eq_ok.1 h
  obtain ⟨hview, hdashed⟩ := populateTracing_ok htracing
  cases h
  refine ⟨_, ?_, populateShowSettings_eq, ?_⟩
  · simp only [apply_ite memoryView, memoryView_populateModules, memoryView_populateMetrics, memoryView_populateManagement, ite_self, hview,
      memoryView_addSystemPropertyFromEnvVar, memoryView_setSystemPropertyFromEnvVarOrDefault]
  · simp only [dashed_populateShowSettings, apply_ite Dashed, dashed_populateModules, dashed_populateMetrics, dashed_populateManagement,
      ite_self, hdashed, dashed_addSystemPropertyFromEnvVar, dashed_setSystemPropertyFromEnvVarOrDefault]

end RunDetails

/-- The arguments of the application, as the runner finds them. -/
def mainArguments (env : String → String) : List String :=
  if env "COHERENCE_OPERATOR_MAIN_ARGS" = "" then [] else (splitText ' ' (env "COHERENCE_OPERATOR_MAIN_ARGS")).map (expand env)

theorem populateMain_eq (m : Machine) (env : String → String) : ∃ mainClass innerMainClass,
    (newRunDetails env).populateMainArgs.populateMainClass m =
      { newRunDetails env with mainArgs := mainArguments env, mainClass, innerMainClass } := by
  have hnew : (newRunDetails env).given = (env, []) := by
    rw [newRunDetails, RunDetails.given_of_memoryView RunDetails.memoryView_addClasspath,
      RunDetails.given_of_memoryView RunDetails.memoryView_addClasspath]
    rfl
  simp only [RunDetails.given, Prod.mk.injEq] at hnew
  obtain ⟨henv, hmain⟩ := hnew
  have hargs : (newRunDetails env).populateMainArgs = { newRunDetails env with mainArgs := mainArguments env } := by
    generalize newRunDetails env = d at henv hmain
    rw [RunDetails.populateMainArgs, RunDetails.lookupEnv, RunDetails.getenv, henv, mainArguments]
    by_cases hempty : env "COHERENCE_OPERATOR_MAIN_ARGS" = ""
    · rw [if_neg (not_not.2 hempty), if_pos hempty, ← hmain]
    · rw [if_pos hempty, if_neg hempty]
      dsimp only
      rw [hmain, List.nil_append, ← henv]
      rfl
  rw [hargs, RunDetails.populateMainClass]
  dsimp only
  split
  · exact ⟨_, _, rfl⟩
  split
  · exact ⟨_, _, rfl⟩
  split
  · exact ⟨_, _, rfl⟩
  · exact ⟨_, _, rfl⟩

/-- Before the command is configured there is no memory option, and every option stands alone. -/
theorem populatedDetails_ok {d₀ : RunDetails} (h : populatedDetails m env = .ok d₀) :
    d₀.memoryView = ((env, mainArguments env), [], (settingsOptions env).map (expand env)) ∧ d₀.Dashed := by
  obtain ⟨mainClass, innerMainClass, hmain⟩ := populateMain_eq m env
  rw [populatedDetails, hmain] at h
  obtain ⟨d, hview, rfl, hdashed⟩ := RunDetails.populateServerDetails_ok h
  have hnew : (newRunDetails env).memoryView = ((env, []), [], []) := by
    rw [newRunDetails, RunDetails.memoryView_addClasspath, RunDetails.memoryView_addClasspath]
    rfl
  have hempty : (newRunDetails env).Dashed := by
    rw [newRunDetails, RunDetails.dashed_addClasspath, RunDetails.dashed_addClasspath]
    exact fun a ha => absurd ha List.not_mem_nil
  simp only [RunDetails.memoryView, RunDetails.given, Prod.mk.injEq] at hview hnew
  obtain ⟨⟨henv, hargs⟩, hmemory, hdiagnostic⟩ := hview
  have hd : d.env = env := henv.trans hnew.1.1
  refine ⟨?_, hdashed.2 hempty⟩
  simp only [RunDetails.memoryView, RunDetails.given, RunDetails.addDiagnostics, hargs, hmemory, hdiagnostic, hnew.2.1, hnew.2.2, hd,
    List.nil_append]
  rw [← hd]
  rfl

end

end CoherenceOperator
