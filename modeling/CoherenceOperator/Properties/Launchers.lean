import CoherenceOperator.Api.Admission
import CoherenceOperator.Footprint.Environment

/-!
# Launchers for managed secure health

A launcher that `validateManagedHealthLauncher` accepts is to start the member with the arguments that the operator generated: by
the command of the operator, or with their file in a variable. The check does not look at the build pack, which uses the entry
point of the image, too.
-/

namespace CoherenceOperator

variable {op : Operator} {d : CoherenceResource} {services : Option String} {a : ApplicationSpec} {c : Container}
  {name : String} {env env' : List EnvVar}

/-- The command of the operator, with its file of arguments. -/
def operatorCommand : List String := ["java", argumentFile "coherence-container-args.txt"]

/-- A container sees the file of the arguments in the variable. -/
def HandsOver (name : String) (env : List EnvVar) : Prop :=
  ∃ v, effectiveEnv name env = some v ∧ v.valueFrom = none ∧ entryPointFile.toList ∈ words v.value

/-- The container is started with the arguments that the operator generated. -/
def DeliversArguments (application : Option ApplicationSpec) (c : Container) : Prop :=
  c.command = operatorCommand ∨ HandsOver EnvVarJdkOptions c.env ∨
    ∃ a name, application = some a ∧ a.alternate = some name ∧ HandsOver name c.env

theorem DeliversArguments.of_command {application : Option ApplicationSpec} (h : c.command = operatorCommand) :
    DeliversArguments application c := .inl h

theorem DeliversArguments.of_alternate (hname : a.alternate = some name) (h : HandsOver name c.env) :
    DeliversArguments (some a) c := .inr (.inr ⟨a, name, rfl, hname, h⟩)

/-- The arguments are not delivered: the entry point of the image is used without an alternate variable, and either the build pack
says so and `JDK_JAVA_OPTIONS` is switched off, which is accepted, or the last of several variables `JDK_JAVA_OPTIONS` hides the
one with the file. -/
structure LosesArguments (a : ApplicationSpec) (env : List EnvVar) : Prop where
  entryPoint : a.usesImageEntryPoint = true
  noAlternate : a.alternate = none
  command : a.entryPoint ≠ operatorCommand
  notByUser : ¬ HandsOver EnvVarJdkOptions env
  cause : a.useImageEntryPoint ≠ some true ∧ a.entryPoint = [] ∧ a.useJdkJavaOptions = some false ∨
    (a.useImageEntryPoint = some true ∨ a.entryPoint = []) ∧ a.useJdkJavaOptions ≠ some false ∧
      2 ≤ (namedEnv EnvVarJdkOptions env).length

/-! ### What is accepted -/

theorem alternate_eq_none_iff : a.alternate = none ↔ a.alternateJdkJavaOptions.getD "" = "" := by
  rw [ApplicationSpec.alternate]
  cases a.alternateJdkJavaOptions with
  | none => simp
  | some name => by_cases h : name = "" <;> simp [h]

theorem validateManagedHealthLauncher_eq_ok :
    validateManagedHealthLauncher (some a) = .ok () ↔
      a.useImageEntryPoint ≠ some true ∧ a.entryPoint = [] ∨
        a.useImageEntryPoint = some true ∧ ¬ (a.useJdkJavaOptions = some false ∧ a.alternate = none) := by
  rw [validateManagedHealthLauncher, alternate_eq_none_iff]
  by_cases himage : a.useImageEntryPoint = some true
  · simp [himage]
  · by_cases hentry : a.entryPoint = []
    · simp [himage, hentry]
    · simp [himage, hentry]

/-! ### What is delivered -/

theorem HandsOver.congr (h : namedEnv name env = namedEnv name env') : HandsOver name env ↔ HandsOver name env' := by
  rw [HandsOver, HandsOver, effectiveEnv, effectiveEnv, h]

/-- The variable with the file comes last. -/
theorem handsOver_of_last (vs : List EnvVar) (h : namedEnv name env = vs ++ [{ name, value := entryPointFile }]) :
    HandsOver name env := by
  refine ⟨{ name, value := entryPointFile }, ?_, rfl, ?_⟩
  · rw [effectiveEnv, h, List.getLast?_concat]
  · have hword := mem_words_trimSpace ""
    rwa [show trimSpace ("" ++ " " ++ entryPointFile) = entryPointFile by decide] at hword

/-- The file after the value of the first variable is seen, unless there are others. -/
theorem handsOver_withFile (h : namedEnv EnvVarJdkOptions env' = withFile (namedEnv EnvVarJdkOptions env)) :
    HandsOver EnvVarJdkOptions env' ↔
      (namedEnv EnvVarJdkOptions env).length < 2 ∨ HandsOver EnvVarJdkOptions env := by
  have hfirst : ∀ v, (withFile (namedEnv EnvVarJdkOptions env)).head? = some v →
      effectiveEnv EnvVarJdkOptions env' = some v → HandsOver EnvVarJdkOptions env' := by
    rintro v ⟨⟩ hv
    exact ⟨_, hv, rfl, mem_words_trimSpace _⟩
  cases hvs : namedEnv EnvVarJdkOptions env with
  | nil =>
    rw [hvs] at h hfirst
    exact iff_of_true (hfirst _ rfl (by rw [effectiveEnv, h]; rfl)) (.inl (by decide))
  | cons v vs =>
    rw [hvs] at h hfirst
    cases vs with
    | nil => exact iff_of_true (hfirst _ rfl (by rw [effectiveEnv, h]; rfl)) (.inl (by simp))
    | cons v' vs =>
      have hsame : effectiveEnv EnvVarJdkOptions env' = effectiveEnv EnvVarJdkOptions env := by
        rw [effectiveEnv, effectiveEnv, h, hvs, withFile, List.tail_cons, List.getLast?_cons_cons, List.getLast?_cons_cons]
      rw [HandsOver, HandsOver, hsame]
      constructor
      · exact .inr
      · rintro (hlength | hhands)
        · simp only [List.length_cons] at hlength
          omega
        · exact hhands

/-! ### The Coherence container -/

/-- The command of the Coherence container. -/
theorem command_launchedContainer (ha : d.spec.application = some a) : (d.launchedContainer op services).command =
    if a.entryPoint = [] ∧ a.usesImageEntryPoint = false then operatorCommand else a.entryPoint := by
  rw [CoherenceResource.launchedContainer, ha, ApplicationSpec.updateCoherenceContainer]
  have hnone : (d.createCoherenceContainer op services).command = [] := rfl
  simp only [hnone]
  by_cases hentry : a.entryPoint = []
  · cases himage : a.usesImageEntryPoint with
    | true => simp [hentry]
    | false => simp [hentry, operatorCommand]
  · cases himage : a.usesImageEntryPoint with
    | true => simp [hentry]
    | false => simp [hentry]

/-- An alternate variable has the file, whatever else there is. -/
theorem handsOver_alternate (ha : d.spec.application = some a) (huses : a.usesImageEntryPoint = true)
    (hname : a.alternate = some name) : HandsOver name (d.launchedContainer op services).env := by
  refine handsOver_of_last (namedEnv name
    (if a.usesJdkJavaOptions then addArgumentsToJdkOptions entryPointFile ((d.createCoherenceContainer op services).env ++ a.env)
      else (d.createCoherenceContainer op services).env ++ a.env)) ?_
  rw [CoherenceResource.launchedContainer, ha, env_updateCoherenceContainer huses, namedEnv_append, hname]
  exact congrArg _ (namedEnv_cons_pos rfl)

/-- What is delivered without an alternate variable. -/
theorem deliversArguments_iff (ha : d.spec.application = some a) (huses : a.usesImageEntryPoint = true)
    (hnone : a.alternate = none) : DeliversArguments d.spec.application (d.launchedContainer op services) ↔
      a.entryPoint = operatorCommand ∨ HandsOver EnvVarJdkOptions d.spec.env ∨
        a.useJdkJavaOptions ≠ some false ∧ (namedEnv EnvVarJdkOptions d.spec.env).length < 2 := by
  have hcommand : (d.launchedContainer op services).command = a.entryPoint := by
    rw [command_launchedContainer ha, huses]
    simp
  have hjdk : HandsOver EnvVarJdkOptions (d.launchedContainer op services).env ↔ HandsOver EnvVarJdkOptions d.spec.env ∨
      a.useJdkJavaOptions ≠ some false ∧ (namedEnv EnvVarJdkOptions d.spec.env).length < 2 := by
    have henv := namedEnv_updateCoherenceContainer a (d.createCoherenceContainer op services)
    rw [huses, if_pos rfl, hnone, if_neg (Option.some_ne_none _).symm, List.append_nil, namedEnv_createCoherenceContainer,
      ← ha] at henv
    cases hoptions : a.useJdkJavaOptions.getD true with
    | true =>
      rw [ApplicationSpec.usesJdkJavaOptions, huses, hoptions, if_pos (by rfl)] at henv
      rw [CoherenceResource.launchedContainer, handsOver_withFile henv]
      have hnot : a.useJdkJavaOptions ≠ some false := by
        intro hfalse
        rw [hfalse] at hoptions
        cases hoptions
      tauto
    | false =>
      rw [ApplicationSpec.usesJdkJavaOptions, huses, hoptions, if_neg (by decide)] at henv
      rw [CoherenceResource.launchedContainer, HandsOver.congr henv]
      have hfalse : a.useJdkJavaOptions = some false := by
        cases h : a.useJdkJavaOptions with
        | none => rw [h] at hoptions; cases hoptions
        | some b => rw [h] at hoptions; exact congrArg some hoptions
      tauto
  rw [DeliversArguments, hcommand, hjdk]
  constructor
  · rintro (h | h | ⟨b, name, hb, hname, -⟩)
    · exact .inl h
    · exact .inr h
    · rw [ha] at hb
      cases hb
      rw [hnone] at hname
      cases hname
  · rintro (h | h)
    · exact .inl h
    · exact .inr (.inl h)

/-- **The arguments are delivered** by a launcher that is accepted, exactly if it is none that loses them. -/
theorem delivers_iff (op : Operator) (d : CoherenceResource) (services : Option String) :
    (validateManagedHealthLauncher d.spec.application = .ok () →
        DeliversArguments d.spec.application (d.launchedContainer op services)) ↔
      ∀ a, d.spec.application = some a → ¬ LosesArguments a d.spec.env := by
  cases ha : d.spec.application with
  | none =>
    refine iff_of_true (fun _ => .of_command ?_) fun b hb => absurd hb (Option.some_ne_none b).symm
    rw [CoherenceResource.launchedContainer, ha]
    rfl
  | some a =>
    rw [← ha]
    have himage : a.usesImageEntryPoint = true ↔
        a.cloudNativeBuildPack.bind (·.enabled) = some true ∨ a.useImageEntryPoint = some true := by
      simp [ApplicationSpec.usesImageEntryPoint]
    cases huses : a.usesImageEntryPoint with
    | false =>
      refine iff_of_true (fun hvalid => .of_command ?_) fun b hb hloses => ?_
      · rw [ha, validateManagedHealthLauncher_eq_ok] at hvalid
        have hnot : a.useImageEntryPoint ≠ some true := fun h => by simp [himage.2 (.inr h)] at huses
        rw [command_launchedContainer ha, huses]
        rcases hvalid with ⟨-, hentry⟩ | ⟨h, -⟩
        · simp [hentry]
        · exact absurd h hnot
      · rw [ha] at hb
        cases hb
        rw [hloses.entryPoint] at huses
        cases huses
    | true =>
      cases hname : a.alternate with
      | some name =>
        refine iff_of_true (fun _ => ?_) fun b hb hloses => ?_
        · rw [ha]
          exact .of_alternate hname (handsOver_alternate ha huses hname)
        rw [ha] at hb
        cases hb
        rw [hloses.noAlternate] at hname
        cases hname
      | none =>
        rw [deliversArguments_iff ha huses hname, ha, validateManagedHealthLauncher_eq_ok, hname]
        constructor
        · rintro hdelivers _ ⟨⟩ ⟨-, -, hcommand, hnotByUser, hcause⟩
          rcases hcause with ⟨hnot, hentry, hfalse⟩ | ⟨haccepted, hoptions, hlength⟩
          · rcases hdelivers (.inl ⟨hnot, hentry⟩) with h | h | ⟨h, -⟩
            · exact hcommand h
            · exact hnotByUser h
            · exact h hfalse
          · have hvalid : a.useImageEntryPoint ≠ some true ∧ a.entryPoint = [] ∨
                a.useImageEntryPoint = some true ∧ ¬ (a.useJdkJavaOptions = some false ∧ (none : Option String) = none) := by
              tauto
            rcases hdelivers hvalid with h | h | ⟨-, h⟩
            · exact hcommand h
            · exact hnotByUser h
            · omega
        · intro hloses hvalid
          by_contra hnot
          push Not at hnot
          obtain ⟨hcommand, hnotByUser, hlength⟩ := hnot
          refine hloses a rfl ⟨huses, hname, hcommand, hnotByUser, ?_⟩
          by_cases hoptions : a.useJdkJavaOptions = some false
          · tauto
          · exact .inr ⟨by tauto, hoptions, hlength hoptions⟩

/-- A launcher of a build pack, without `JDK_JAVA_OPTIONS`. -/
def buildPackLauncher : ApplicationSpec where
  cloudNativeBuildPack := some { enabled := some true }
  useJdkJavaOptions := some false

/-- A resource with that launcher. -/
def buildPackResource : CoherenceResource :=
  ({ metadata := { name := "storage", ns := "default" }
     generation := 1
     spec := { application := some buildPackLauncher } } : Coherence).toResource

/-- It is accepted, and the member is started without the arguments. -/
theorem not_forall_deliversArguments :
    ¬ ∀ (op : Operator) (d : CoherenceResource) (services : Option String),
      validateManagedHealthLauncher d.spec.application = .ok () →
        DeliversArguments d.spec.application (d.launchedContainer op services) := by
  intro h
  have hdelivers := h default buildPackResource none rfl
  have hnone : buildPackLauncher.alternate = none := rfl
  rw [deliversArguments_iff (a := buildPackLauncher) rfl rfl hnone] at hdelivers
  rcases hdelivers with h | ⟨v, hv, -⟩ | ⟨h, -⟩
  · cases h
  · cases hv
  · exact h rfl

end CoherenceOperator
