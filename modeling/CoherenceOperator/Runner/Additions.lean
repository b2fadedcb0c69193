import CoherenceOperator.Lib.Effect
import CoherenceOperator.Lib.JavaCommand
import CoherenceOperator.Runner.Environ

/-!
# What a step of the runner adds

Most steps add system properties and options of the virtual machine, and leave the memory options and the diagnostic options as
they are (`memoryView`). Every option that the runner adds by itself stands alone (`Dashed`); only the options that a user gives need
not.
-/

namespace CoherenceOperator

open Effect Prog

namespace RunDetails

variable {d : RunDetails} {m : Machine} {a name property value path : String}

/-! ### Memory options and diagnostic options -/

/-- The environment and the arguments of the application. -/
def given (d : RunDetails) : (String → String) × List String := (d.env, d.mainArgs)

/-- What is given, the memory options and the diagnostic options. -/
def memoryView (d : RunDetails) : ((String → String) × List String) × List String × List String := (d.given, d.memoryArgs, d.diagnosticArgs)

theorem given_of_memoryView {d d' : RunDetails} (h : d'.memoryView = d.memoryView) : d'.given = d.given := congrArg (·.1) h

@[simp] theorem memoryView_addArg : (d.addArg a).memoryView = d.memoryView := by
  rw [addArg, apply_ite memoryView, memoryView]
  exact ite_self _

@[simp] theorem memoryView_addArgs (l : List String) : (d.addArgs l).memoryView = d.memoryView := by
  rw [addArgs]
  induction l generalizing d with
  | nil => rfl
  | cons a l ih => rw [List.foldl_cons, ih, memoryView_addArg]

@[simp] theorem memoryView_addSystemPropertyArg : (d.addSystemPropertyArg property value).memoryView = d.memoryView := by
  rw [addSystemPropertyArg, apply_ite memoryView, memoryView]
  exact ite_self _

@[simp] theorem memoryView_addVMOption : (d.addVMOption a).memoryView = d.memoryView := by
  rw [addVMOption, apply_ite memoryView, memoryView]
  exact ite_self _

@[simp] theorem memoryView_addClasspath : (d.addClasspath path).memoryView = d.memoryView := by
  rw [addClasspath, apply_ite memoryView, memoryView]
  exact ite_self _

@[simp] theorem memoryView_addClasspathIfExists : (d.addClasspathIfExists m path).memoryView = d.memoryView := by
  rw [addClasspathIfExists, apply_ite memoryView, memoryView_addClasspath, ite_self]

@[simp] theorem memoryView_addJarsToClasspath : (d.addJarsToClasspath m path).memoryView = d.memoryView := by
  have hjars : ∀ (jars : List String) (d : RunDetails), (jars.foldl addClasspath d).memoryView = d.memoryView := by
    intro jars
    induction jars with
    | nil => exact fun _ => rfl
    | cons jar jars ih => exact fun d => by rw [List.foldl_cons, ih, memoryView_addClasspath]
  rw [addJarsToClasspath, apply_ite memoryView, hjars, ite_self]

@[simp] theorem memoryView_addSystemPropertyFromEnvVar : (d.addSystemPropertyFromEnvVar name property).memoryView = d.memoryView := by
  rw [addSystemPropertyFromEnvVar, apply_ite memoryView, memoryView_addSystemPropertyArg, ite_self]

@[simp] theorem memoryView_setSystemPropertyFromEnvVarOrDefault :
    (d.setSystemPropertyFromEnvVarOrDefault name property value).memoryView = d.memoryView := by
  rw [setSystemPropertyFromEnvVarOrDefault, apply_ite memoryView, memoryView_addSystemPropertyArg, memoryView_addSystemPropertyArg, ite_self]

/-! ### Options that stand alone -/

/-- Does the option stand alone? -/
def isDashed (a : String) : Bool := JavaCommand.isAlone a.toList

/-- Every option stands alone. -/
def Dashed (d : RunDetails) : Prop := ∀ a ∈ d.getAllArgs, isDashed a = true

/-- Expansion does not change how such an option begins. -/
theorem isDashed_expandEnv (h : isDashed a = true) : isDashed (d.expandEnv a) = true := by
  obtain ⟨c, s, hs, hc⟩ := JavaCommand.exists_cons_of_isAlone h
  have hdollar : c ≠ '$' := by
    rintro rfl
    exact absurd hc (by decide)
  rw [isDashed, expandEnv, expand, hs, expandFrom_cons_of_ne (by decide), expandFrom_cons_of_ne hdollar, String.toList_ofList]
  exact decide_eq_true hc

theorem isDashed_append (h : isDashed a = true) (value : String) : isDashed (a ++ value) = true := by
  obtain ⟨c, s, hs, hc⟩ := JavaCommand.exists_cons_of_isAlone h
  rw [isDashed, String.toList_append, hs]
  exact decide_eq_true hc

theorem isDashed_systemProperty : isDashed (systemProperty property value) = true :=
  isDashed_append (isDashed_append (isDashed_append rfl _) _) _

section

variable {l : List String}

@[simp] theorem dashed_args : ({ d with args := d.args ++ [a] } : RunDetails).Dashed ↔ d.Dashed ∧ isDashed a = true := by
  simp [Dashed, getAllArgs, or_imp, forall_and, and_assoc]

@[simp] theorem dashed_vmOptions : ({ d with vmOptions := d.vmOptions ++ [a] } : RunDetails).Dashed ↔ d.Dashed ∧ isDashed a = true := by
  simp [Dashed, getAllArgs, or_imp, forall_and]
  tauto

@[simp] theorem dashed_memoryArgs : ({ d with memoryArgs := d.memoryArgs ++ [a] } : RunDetails).Dashed ↔ d.Dashed ∧ isDashed a = true := by
  simp [Dashed, getAllArgs, or_imp, forall_and]
  tauto

@[simp] theorem dashed_diagnosticArgs :
    ({ d with diagnosticArgs := d.diagnosticArgs ++ [a] } : RunDetails).Dashed ↔ d.Dashed ∧ isDashed a = true := by
  simp [Dashed, getAllArgs, or_imp, forall_and]
  tauto

theorem dashed_addArg (ha : isDashed a = true) : (d.addArg a).Dashed ↔ d.Dashed := by
  rw [addArg, apply_ite Dashed, dashed_args, and_iff_left (isDashed_expandEnv ha), ite_self]

theorem dashed_addVMOption (ha : isDashed a = true) : (d.addVMOption a).Dashed ↔ d.Dashed := by
  rw [addVMOption, apply_ite Dashed, dashed_vmOptions, and_iff_left (isDashed_expandEnv ha), ite_self]

theorem dashed_addMemoryOption (ha : isDashed a = true) : (d.addMemoryOption a).Dashed ↔ d.Dashed := by
  rw [addMemoryOption, apply_ite Dashed, dashed_memoryArgs, and_iff_left (isDashed_expandEnv ha), ite_self]

theorem dashed_addDiagnosticOption (ha : isDashed a = true) : (d.addDiagnosticOption a).Dashed ↔ d.Dashed := by
  rw [addDiagnosticOption, apply_ite Dashed, dashed_diagnosticArgs, and_iff_left (isDashed_expandEnv ha), ite_self]

@[simp] theorem dashed_addSystemPropertyArg : (d.addSystemPropertyArg property value).Dashed ↔ d.Dashed := by
  rw [addSystemPropertyArg, apply_ite Dashed, dashed_args, and_iff_left (isDashed_expandEnv isDashed_systemProperty), ite_self]

@[simp] theorem dashed_addSystemPropertyFromEnvVar : (d.addSystemPropertyFromEnvVar name property).Dashed ↔ d.Dashed := by
  rw [addSystemPropertyFromEnvVar, apply_ite Dashed, dashed_addSystemPropertyArg, ite_self]

@[simp] theorem dashed_setSystemPropertyFromEnvVarOrDefault :
    (d.setSystemPropertyFromEnvVarOrDefault name property value).Dashed ↔ d.Dashed := by
  rw [setSystemPropertyFromEnvVarOrDefault, apply_ite Dashed, dashed_addSystemPropertyArg, dashed_addSystemPropertyArg, ite_self]

@[simp] theorem dashed_classpath (path : String) : ({ d with classpath := path } : RunDetails).Dashed ↔ d.Dashed := Iff.rfl

@[simp] theorem dashed_addClasspath : (d.addClasspath path).Dashed ↔ d.Dashed := by
  rw [addClasspath, apply_ite Dashed, dashed_classpath, ite_self]

@[simp] theorem dashed_addClasspathIfExists : (d.addClasspathIfExists m path).Dashed ↔ d.Dashed := by
  rw [addClasspathIfExists, apply_ite Dashed, dashed_addClasspath, ite_self]

@[simp] theorem dashed_addJarsToClasspath : (d.addJarsToClasspath m path).Dashed ↔ d.Dashed := by
  have hjars : ∀ (jars : List String) (d : RunDetails), (jars.foldl addClasspath d).Dashed ↔ d.Dashed := by
    intro jars
    induction jars with
    | nil => exact fun _ => Iff.rfl
    | cons jar jars ih => exact fun d => by rw [List.foldl_cons, ih, dashed_addClasspath]
  rw [addJarsToClasspath, apply_ite Dashed, hjars, ite_self]

end

/-! ### Options that come before -/

/-- The details with other options before its own. -/
def prependArgs (l : List String) (d : RunDetails) : RunDetails := { d with args := l ++ d.args }

section

variable {l : List String}

theorem prependArgs_self (d : RunDetails) : prependArgs d.args { d with args := [] } = d := by simp [prependArgs]

theorem prependArgs_args (as : List String) :
    ({ prependArgs l d with args := (prependArgs l d).args ++ as } : RunDetails) = prependArgs l { d with args := d.args ++ as } := by
  simp [prependArgs]

@[simp] theorem addArg_prependArgs : (prependArgs l d).addArg a = prependArgs l (d.addArg a) := by
  rw [addArg, addArg]
  by_cases ha : a ≠ ""
  · rw [if_pos ha, if_pos ha]
    exact prependArgs_args _
  · rw [if_neg ha, if_neg ha]

@[simp] theorem addArgs_prependArgs (as : List String) : (prependArgs l d).addArgs as = prependArgs l (d.addArgs as) := by
  rw [addArgs, addArgs]
  induction as generalizing d with
  | nil => rfl
  | cons a as ih => rw [List.foldl_cons, List.foldl_cons, addArg_prependArgs, ih]

@[simp] theorem addSystemPropertyArg_prependArgs :
    (prependArgs l d).addSystemPropertyArg property value = prependArgs l (d.addSystemPropertyArg property value) := by
  rw [addSystemPropertyArg, addSystemPropertyArg]
  by_cases hproperty : property ≠ ""
  · rw [if_pos hproperty, if_pos hproperty]
    exact prependArgs_args _
  · rw [if_neg hproperty, if_neg hproperty]

@[simp] theorem getenv_prependArgs : (prependArgs l d).getenv name = d.getenv name := rfl

@[simp] theorem isEnvTrueOrBlank_prependArgs : (prependArgs l d).isEnvTrueOrBlank name = d.isEnvTrueOrBlank name := rfl

@[simp] theorem memberName_prependArgs : (prependArgs l d).memberName = d.memberName := rfl

@[simp] theorem podUID_prependArgs : (prependArgs l d).podUID = d.podUID := rfl

@[simp] theorem jvmDir_prependArgs : (prependArgs l d).jvmDir = d.jvmDir := rfl

@[simp] theorem debugArgs_prependArgs : (prependArgs l d).debugArgs = d.debugArgs := rfl

@[simp] theorem addVMOption_prependArgs : (prependArgs l d).addVMOption a = prependArgs l (d.addVMOption a) := by
  rw [addVMOption, addVMOption, apply_ite (prependArgs l)]
  rfl

@[simp] theorem addMemoryOption_prependArgs : (prependArgs l d).addMemoryOption a = prependArgs l (d.addMemoryOption a) := by
  rw [addMemoryOption, addMemoryOption, apply_ite (prependArgs l)]
  rfl

@[simp] theorem addDiagnosticOption_prependArgs : (prependArgs l d).addDiagnosticOption a = prependArgs l (d.addDiagnosticOption a) := by
  rw [addDiagnosticOption, addDiagnosticOption, apply_ite (prependArgs l)]
  rfl

end

/-! ### The steps before the services that may be endangered -/

@[simp] theorem memoryView_configureStandard : d.configureStandard.memoryView = d.memoryView := by simp [configureStandard]

theorem dashed_configureStandard : d.configureStandard.Dashed ↔ d.Dashed := by
  rw [configureStandard, dashed_addVMOption rfl]
  simp

theorem memoryView_configureJib : (d.configureJib m).memoryView = d.memoryView := by
  rw [configureJib]
  dsimp only
  split
  · simp
  · simp

theorem dashed_configureJib : (d.configureJib m).Dashed ↔ d.Dashed := by
  rw [configureJib]
  dsimp only
  split
  · simp
  · simp

@[simp] theorem memoryView_configureClasspath : (d.configureClasspath m).memoryView = d.memoryView := by
  rw [configureClasspath]
  simp only [memoryView_addClasspathIfExists, memoryView_addClasspath, apply_ite memoryView, memoryView_configureJib, ite_self]

theorem dashed_configureClasspath : (d.configureClasspath m).Dashed ↔ d.Dashed := by
  rw [configureClasspath]
  simp only [dashed_addClasspathIfExists, dashed_addClasspath, apply_ite Dashed, dashed_configureJib, ite_self]

@[simp] theorem memoryView_configurePersistence : d.configurePersistence.memoryView = d.memoryView := by simp [configurePersistence]

theorem dashed_configurePersistence : d.configurePersistence.Dashed ↔ d.Dashed := by simp [configurePersistence]

theorem memoryView_configureSite : (d.configureSite m).1.memoryView = d.memoryView := by
  rw [configureSite]
  dsimp only
  split
  · simp only [apply_ite memoryView, memoryView_addSystemPropertyArg, ite_self]
  · simp only [apply_ite memoryView, memoryView_addSystemPropertyArg, ite_self]

theorem dashed_configureSite : (d.configureSite m).1.Dashed ↔ d.Dashed := by
  rw [configureSite]
  dsimp only
  split
  · simp only [apply_ite Dashed, dashed_addSystemPropertyArg, ite_self]
  · simp only [apply_ite Dashed, dashed_addSystemPropertyArg, ite_self]

theorem memoryView_configureRack (site : String) : (d.configureRack m site).memoryView = d.memoryView := by
  rw [configureRack]
  dsimp only
  split
  · simp only [apply_ite memoryView, memoryView_addSystemPropertyArg, ite_self]
  · simp only [apply_ite memoryView, memoryView_addSystemPropertyArg, ite_self]

theorem dashed_configureRack (site : String) : (d.configureRack m site).Dashed ↔ d.Dashed := by
  rw [configureRack]
  dsimp only
  split
  · simp only [apply_ite Dashed, dashed_addSystemPropertyArg, ite_self]
  · simp only [apply_ite Dashed, dashed_addSystemPropertyArg, ite_self]

@[simp] theorem memoryView_configureSiteAndRack : (d.configureSiteAndRack m).memoryView = d.memoryView := by
  rw [configureSiteAndRack]
  split
  · exact (memoryView_configureRack _).trans memoryView_configureSite
  · rfl

theorem dashed_configureSiteAndRack : (d.configureSiteAndRack m).Dashed ↔ d.Dashed := by
  rw [configureSiteAndRack]
  split
  · exact (dashed_configureRack _).trans dashed_configureSite
  · rfl

@[simp] theorem memoryView_configureOverride : d.configureOverride.memoryView = d.memoryView := by
  simp [configureOverride, apply_ite memoryView]

theorem dashed_configureOverride : d.configureOverride.Dashed ↔ d.Dashed := by simp [configureOverride, apply_ite Dashed]

theorem memoryView_health (b : Bool) : ({ d with resolvedOperatorHealth := b } : RunDetails).memoryView = d.memoryView := rfl

theorem dashed_health (b : Bool) : ({ d with resolvedOperatorHealth := b } : RunDetails).Dashed ↔ d.Dashed := Iff.rfl

theorem memoryView_cohPost2206 : d.cohPost2206.memoryView = d.memoryView := by
  rw [cohPost2206]
  simp only [apply_ite memoryView, memoryView_addArg, memoryView_addSystemPropertyArg, memoryView_setSystemPropertyFromEnvVarOrDefault,
    memoryView_health, ite_self]

theorem dashed_cohPost2206 : d.cohPost2206.Dashed ↔ d.Dashed := by
  rw [cohPost2206]
  simp only [apply_ite Dashed, dashed_addArg (show isDashed "-Dcoherence.operator.health.enabled=true" = true from rfl),
    dashed_addSystemPropertyArg, dashed_setSystemPropertyFromEnvVarOrDefault, dashed_health, ite_self]

@[simp] theorem memoryView_configureHealth : (d.configureHealth m).memoryView = d.memoryView := by
  rw [configureHealth]
  simp only [apply_ite memoryView, memoryView_cohPost2206, memoryView_health, ite_self]

theorem dashed_configureHealth : (d.configureHealth m).Dashed ↔ d.Dashed := by
  rw [configureHealth]
  simp only [apply_ite Dashed, dashed_cohPost2206, dashed_health, ite_self]

@[simp] theorem memoryView_addSSLProperty (before suffix valuePrefix : String) :
    (d.addSSLProperty before suffix property valuePrefix).memoryView = d.memoryView := by
  rw [addSSLProperty]
  simp only [apply_ite memoryView, memoryView_addSystemPropertyArg, ite_self]

@[simp] theorem dashed_addSSLProperty (before suffix valuePrefix : String) :
    (d.addSSLProperty before suffix property valuePrefix).Dashed ↔ d.Dashed := by
  rw [addSSLProperty]
  simp only [apply_ite Dashed, dashed_addSystemPropertyArg, ite_self]

theorem memoryView_addSSL (before prop provider : String) : (d.addSSL before prop provider).memoryView = d.memoryView := by
  rw [addSSL]
  simp only [apply_ite memoryView, memoryView_addSystemPropertyArg, memoryView_addSSLProperty, ite_self]

theorem dashed_addSSL (before prop provider : String) : (d.addSSL before prop provider).Dashed ↔ d.Dashed := by
  rw [addSSL]
  simp only [apply_ite Dashed, dashed_addSystemPropertyArg, dashed_addSSLProperty, ite_self]

/-- What comes before the services that may be endangered adds no memory option and no diagnostic option. -/
theorem memoryView_configureSystem : (d.configureSystem m).memoryView = d.memoryView := by
  rw [configureSystem, addMetricsSSL, memoryView_addSSL, addManagementSSL, memoryView_addSSL]
  simp

/-- What comes before the services that may be endangered stands alone. -/
theorem dashed_configureSystem : (d.configureSystem m).Dashed ↔ d.Dashed := by
  rw [configureSystem, addMetricsSSL, dashed_addSSL, addManagementSSL, dashed_addSSL, dashed_configureHealth, dashed_configureOverride,
    dashed_configureSiteAndRack, dashed_configurePersistence, dashed_configureClasspath, dashed_configureStandard]

/-! ### The steps after them -/

@[simp] theorem memoryView_configureAllowEndangered : d.configureAllowEndangered.memoryView = d.memoryView := by
  rw [configureAllowEndangered]
  simp only [apply_ite memoryView, memoryView_addArg, ite_self]

theorem dashed_configureAllowEndangered : d.configureAllowEndangered.Dashed ↔ d.Dashed := by
  rw [configureAllowEndangered]
  simp only [apply_ite Dashed, dashed_addArg isDashed_systemProperty, ite_self]

@[simp] theorem memoryView_configureResume : d.configureResume.memoryView = d.memoryView := by
  simp [configureResume, apply_ite memoryView]

theorem dashed_configureResume : d.configureResume.Dashed ↔ d.Dashed := by
  have hpath : ∀ a, isDashed ("-XX:HeapDumpPath=" ++ a) = true := isDashed_append rfl
  have hfalse : isDashed "-Dcoherence.operator.can.resume.services=false" = true := rfl
  have htrue : isDashed "-Dcoherence.operator.can.resume.services=true" = true := rfl
  have hservices : ∀ a, isDashed ("-Dcoherence.operator.resume.services=base64:" ++ a) = true := isDashed_append rfl
  simp only [configureResume, String.append_assoc, apply_ite Dashed, dashed_addArg (hservices _), dashed_addArg hfalse, dashed_addArg htrue,
    dashed_addVMOption (hpath _), dashed_addArg isDashed_systemProperty, ite_self]

@[simp] theorem configureResume_prependArgs (l : List String) : (prependArgs l d).configureResume = prependArgs l d.configureResume := by
  simp only [configureResume, addArg_prependArgs, jvmDir_prependArgs, addVMOption_prependArgs, memberName_prependArgs, podUID_prependArgs,
    isEnvTrueOrBlank_prependArgs, getenv_prependArgs, ← apply_ite (prependArgs l)]

theorem dashed_configureCollector : d.configureCollector.Dashed ↔ d.Dashed := by
  have hoption : ∀ collector, collectorOption collector = "" ∨ isDashed (collectorOption collector) = true := by
    intro collector
    unfold collectorOption
    repeat' split
    all_goals first | exact .inr rfl | exact .inl rfl
  rw [configureCollector]
  rcases hoption (d.getenv "JVM_GC_COLLECTOR").toLower with h | h
  · rw [h]
    rfl
  · exact dashed_addMemoryOption h

theorem configureCollector_prependArgs (l : List String) : (prependArgs l d).configureCollector = prependArgs l d.configureCollector :=
  addMemoryOption_prependArgs

theorem dashed_foldl_addMemoryOption {options : List String} (h : ∀ o ∈ options, isDashed o = true) :
    (options.foldl (fun d option => d.addMemoryOption (option ++ value)) d).Dashed ↔ d.Dashed := by
  induction options generalizing d with
  | nil => rfl
  | cons o options ih =>
    obtain ⟨ho, hoptions⟩ := List.forall_mem_cons.1 h
    rw [List.foldl_cons, ih hoptions, dashed_addMemoryOption (isDashed_append ho _)]

theorem foldl_addMemoryOption_prependArgs (options l : List String) :
    options.foldl (fun d option => d.addMemoryOption (option ++ value)) (prependArgs l d) =
      prependArgs l (options.foldl (fun d option => d.addMemoryOption (option ++ value)) d) := by
  induction options generalizing d with
  | nil => rfl
  | cons o options ih => rw [List.foldl_cons, List.foldl_cons, addMemoryOption_prependArgs, ih]

theorem dashed_addMemoryFromEnvVar {options : List String} (h : ∀ o ∈ options, isDashed o = true) :
    (d.addMemoryFromEnvVar name options).Dashed ↔ d.Dashed := by
  rw [addMemoryFromEnvVar]
  simp only [apply_ite Dashed, dashed_foldl_addMemoryOption h, ite_self]

theorem addMemoryFromEnvVar_prependArgs (options l : List String) :
    (prependArgs l d).addMemoryFromEnvVar name options = prependArgs l (d.addMemoryFromEnvVar name options) := by
  simp only [addMemoryFromEnvVar, getenv_prependArgs, foldl_addMemoryOption_prependArgs, ← apply_ite (prependArgs l)]

theorem dashed_configureHeap : d.configureHeap.Dashed ↔ d.Dashed := by
  have hone : ∀ o, isDashed o = true → ∀ a ∈ [o], isDashed a = true := by simp
  have hheap : ∀ o ∈ ["-XX:InitialHeapSize=", "-XX:MaxHeapSize="], isDashed o = true := by decide
  simp only [configureHeap, apply_ite Dashed, dashed_addMemoryFromEnvVar hheap, dashed_addMemoryFromEnvVar (hone "-XX:MaxRAM=" rfl),
    dashed_addMemoryFromEnvVar (hone "-XX:InitialHeapSize=" rfl), dashed_addMemoryFromEnvVar (hone "-XX:MaxHeapSize=" rfl), ite_self]

theorem configureHeap_prependArgs (l : List String) : (prependArgs l d).configureHeap = prependArgs l d.configureHeap := by
  simp only [configureHeap, addMemoryFromEnvVar_prependArgs, getenv_prependArgs, ← apply_ite (prependArgs l)]

theorem dashed_addPercentageFromEnvVar {options : List String} (h : ∀ o ∈ options, isDashed o = true) {d' : RunDetails}
    (hd : d.addPercentageFromEnvVar m name options = .ok d') : d'.Dashed ↔ d.Dashed := by
  rw [addPercentageFromEnvVar] at hd
  split at hd
  · cases hd
    rfl
  · split at hd
    · cases hd
      exact dashed_foldl_addMemoryOption h
    · cases hd

theorem addPercentageFromEnvVar_prependArgs (options l : List String) :
    (prependArgs l d).addPercentageFromEnvVar m name options = (d.addPercentageFromEnvVar m name options).map (prependArgs l) := by
  rw [addPercentageFromEnvVar, addPercentageFromEnvVar, getenv_prependArgs]
  split
  · rfl
  · split
    · rw [foldl_addMemoryOption_prependArgs]
      rfl
    · rfl

theorem dashed_configurePercentages {d' : RunDetails} (hd : d.configurePercentages m = .ok d') : d'.Dashed ↔ d.Dashed := by
  rw [configurePercentages] at hd
  split at hd
  · exact dashed_addPercentageFromEnvVar (by decide) hd
  · obtain ⟨_, hinitial, hd⟩ := bind_eq_ok.1 hd
    obtain ⟨_, hmax, hmin⟩ := bind_eq_ok.1 hd
    rw [dashed_addPercentageFromEnvVar (by decide) hmin, dashed_addPercentageFromEnvVar (by decide) hmax,
      dashed_addPercentageFromEnvVar (by decide) hinitial]

/-- Options before those of the details stay before, whatever comes next. -/
theorem bind_prependArgs {l : List String} {f : RunDetails → Except Failure RunDetails} (x : Except Failure RunDetails)
    (hf : ∀ d, f (prependArgs l d) = (f d).map (prependArgs l)) : (x.map (prependArgs l) >>= f) = (x >>= f).map (prependArgs l) := by
  cases x with
  | error e => rfl
  | ok d => exact hf d

theorem configurePercentages_prependArgs (l : List String) :
    (prependArgs l d).configurePercentages m = (d.configurePercentages m).map (prependArgs l) := by
  rw [configurePercentages, configurePercentages, getenv_prependArgs, addPercentageFromEnvVar_prependArgs, addPercentageFromEnvVar_prependArgs]
  split
  · rfl
  · refine bind_prependArgs _ fun d => ?_
    rw [addPercentageFromEnvVar_prependArgs]
    exact bind_prependArgs _ fun d => addPercentageFromEnvVar_prependArgs _ _

theorem dashed_configureNative : d.configureNative.Dashed ↔ d.Dashed := by
  have hone : ∀ o, isDashed o = true → ∀ a ∈ [o], isDashed a = true := by simp
  have hmetaspace : ∀ o ∈ ["-XX:MetaspaceSize=", "-XX:MaxMetaspaceSize="], isDashed o = true := by decide
  have htrack : ∀ track, isDashed ("-XX:NativeMemoryTracking=" ++ track) = true := isDashed_append rfl
  have hstatistics : isDashed "-XX:+PrintNMTStatistics" = true := rfl
  simp only [configureNative, apply_ite Dashed, dashed_addDiagnosticOption hstatistics, dashed_addDiagnosticOption (htrack _),
    dashed_addMemoryFromEnvVar hmetaspace, dashed_addMemoryFromEnvVar (hone "-Xss" rfl),
    dashed_addMemoryFromEnvVar (hone "-XX:MaxDirectMemorySize=" rfl), ite_self]

theorem configureNative_prependArgs (l : List String) : (prependArgs l d).configureNative = prependArgs l d.configureNative := by
  have hdefault : ∀ name dflt (d : RunDetails), (prependArgs l d).getenvOrDefault name dflt = d.getenvOrDefault name dflt := fun _ _ _ => rfl
  simp only [configureNative, addMemoryFromEnvVar_prependArgs, hdefault, addDiagnosticOption_prependArgs, ← apply_ite (prependArgs l)]

@[simp] theorem memoryView_configureFailures : d.configureFailures.memoryView = d.memoryView := by
  simp [configureFailures, apply_ite memoryView]

theorem dashed_addArgs {as : List String} (h : ∀ a ∈ as, a = "" ∨ isDashed a = true) : (d.addArgs as).Dashed ↔ d.Dashed := by
  rw [addArgs]
  induction as generalizing d with
  | nil => rfl
  | cons a as ih =>
    obtain ⟨ha, has⟩ := List.forall_mem_cons.1 h
    rw [List.foldl_cons, ih has]
    rcases ha with rfl | ha
    · rfl
    · exact dashed_addArg ha

theorem dashed_configureFailures : d.configureFailures.Dashed ↔ d.Dashed := by
  have herror : ∀ a, isDashed ("-XX:ErrorFile=" ++ a) = true := isDashed_append rfl
  have hdump : isDashed "-XX:+HeapDumpOnOutOfMemoryError" = true := rfl
  have hexit : isDashed "-XX:+ExitOnOutOfMemoryError" = true := rfl
  have hcontainer : isDashed "-XX:+UseContainerSupport" = true := rfl
  have hdebug : ∀ a ∈ [d.debugArgs], a = "" ∨ isDashed a = true := by
    rw [List.forall_mem_singleton, debugArgs]
    split
    · dsimp only
      split
      · exact .inr (isDashed_append (isDashed_append (isDashed_append rfl _) _) _)
      · exact .inr (isDashed_append (isDashed_append (isDashed_append (isDashed_append rfl _) _) _) _)
    · exact .inl rfl
  rw [configureFailures]
  simp only [String.append_assoc, dashed_addArgs hdebug, apply_ite Dashed, dashed_addVMOption hcontainer, dashed_addVMOption hexit,
    dashed_addVMOption hdump, dashed_addVMOption (herror _), ite_self]

theorem ite_addVMOption_prependArgs (b : Bool) (l : List String) :
    (if b = true then (prependArgs l d).addVMOption a else prependArgs l d) = prependArgs l (if b = true then d.addVMOption a else d) := by
  cases b with
  | false => rfl
  | true => exact addVMOption_prependArgs

theorem configureFailures_prependArgs (l : List String) : (prependArgs l d).configureFailures = prependArgs l d.configureFailures := by
  rw [configureFailures, configureFailures, debugArgs_prependArgs, jvmDir_prependArgs, memberName_prependArgs, podUID_prependArgs,
    addVMOption_prependArgs]
  rw [isEnvTrueOrBlank_prependArgs, ite_addVMOption_prependArgs, isEnvTrueOrBlank_prependArgs, ite_addVMOption_prependArgs,
    isEnvTrueOrBlank_prependArgs, ite_addVMOption_prependArgs, addArgs_prependArgs]

theorem addArgsFromEnvVar_prependArgs (l : List String) :
    (prependArgs l d).addArgsFromEnvVar name = prependArgs l (d.addArgsFromEnvVar name) := by
  simp only [addArgsFromEnvVar, getenv_prependArgs, addArgs_prependArgs, ← apply_ite (prependArgs l)]

/-! ### What is given stays -/

theorem given_addMemoryOption : (d.addMemoryOption a).given = d.given := by
  rw [addMemoryOption, apply_ite given]
  exact ite_self _

theorem given_addDiagnosticOption : (d.addDiagnosticOption a).given = d.given := by
  rw [addDiagnosticOption, apply_ite given]
  exact ite_self _

theorem given_foldl_addMemoryOption (options : List String) :
    (options.foldl (fun d option => d.addMemoryOption (option ++ value)) d).given = d.given := by
  induction options generalizing d with
  | nil => rfl
  | cons o options ih => rw [List.foldl_cons, ih, given_addMemoryOption]

theorem given_addMemoryFromEnvVar (options : List String) : (d.addMemoryFromEnvVar name options).given = d.given := by
  rw [addMemoryFromEnvVar]
  simp only [apply_ite given, given_foldl_addMemoryOption, ite_self]

theorem given_addPercentageFromEnvVar {options : List String} {d' : RunDetails} (hd : d.addPercentageFromEnvVar m name options = .ok d') :
    d'.given = d.given := by
  rw [addPercentageFromEnvVar] at hd
  split at hd
  · cases hd
    rfl
  · split at hd
    · cases hd
      exact given_foldl_addMemoryOption _
    · cases hd

theorem given_configureHeap : d.configureHeap.given = d.given := by
  rw [configureHeap]
  split
  · rw [given_addMemoryFromEnvVar, given_addMemoryFromEnvVar]
  · rw [given_addMemoryFromEnvVar, given_addMemoryFromEnvVar, given_addMemoryFromEnvVar]

theorem given_configureNative : d.configureNative.given = d.given := by
  rw [configureNative]
  split
  · rw [given_addDiagnosticOption, given_addDiagnosticOption, given_addMemoryFromEnvVar, given_addMemoryFromEnvVar, given_addMemoryFromEnvVar]
  · rw [given_addMemoryFromEnvVar, given_addMemoryFromEnvVar, given_addMemoryFromEnvVar]

theorem given_configureMachine {d' : RunDetails} (hd : d.configureMachine m = .ok d') : d'.given = d.given := by
  obtain ⟨_, -, hd⟩ := bind_eq_ok.1 hd
  obtain ⟨d₁, hpercentages, hd⟩ := bind_eq_ok.1 hd
  cases hd
  have hsizes : d.configureResume.configureCollector.configureHeap.given = d.given := by
    rw [given_configureHeap, configureCollector, given_addMemoryOption]
    exact given_of_memoryView memoryView_configureResume
  have hgiven : d₁.given = d.given := by
    rw [← hsizes]
    rw [configurePercentages] at hpercentages
    split at hpercentages
    · exact given_addPercentageFromEnvVar hpercentages
    · obtain ⟨_, hinitial, hpercentages⟩ := bind_eq_ok.1 hpercentages
      obtain ⟨_, hmax, hmin⟩ := bind_eq_ok.1 hpercentages
      rw [given_addPercentageFromEnvVar hmin, given_addPercentageFromEnvVar hmax, given_addPercentageFromEnvVar hinitial]
  have hargs : (d₁.configureNative.configureFailures.addArgsFromEnvVar "JVM_GC_ARGS").given = d₁.configureNative.given := by
    rw [addArgsFromEnvVar]
    refine given_of_memoryView ?_
    simp only [apply_ite memoryView, memoryView_addArgs, ite_self, memoryView_configureFailures]
  exact (hargs.trans given_configureNative).trans hgiven

/-- What is given stays as it is before the options of the resource. -/
theorem given_configureOptions {d' : RunDetails} (hd : d.configureOptions m = .ok d') : d'.given = d.given := by
  rw [given_configureMachine hd]
  exact given_of_memoryView (memoryView_configureAllowEndangered.trans memoryView_configureSystem)

/-! ### What comes before stays before -/

/-- **Options that come before stay before** those that the runner adds. -/
theorem configureMachine_prependArgs (l : List String) :
    (prependArgs l d).configureMachine m = (d.configureMachine m).map (prependArgs l) := by
  have hdirs : (prependArgs l d).makeJvmDirs m = d.makeJvmDirs m := rfl
  rw [configureMachine, configureMachine, hdirs, configureResume_prependArgs, configureCollector_prependArgs, configureHeap_prependArgs,
    configurePercentages_prependArgs]
  cases d.makeJvmDirs m with
  | error e => rfl
  | ok _ =>
    refine bind_prependArgs _ fun d => ?_
    rw [configureNative_prependArgs, configureFailures_prependArgs, addArgsFromEnvVar_prependArgs]
    rfl

end RunDetails

end CoherenceOperator
