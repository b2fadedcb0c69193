import CoherenceOperator.Api.PodTemplate

/-!
# The variables of a name

Of several variables of one name a container sees the last. What the parts of the template do to `JDK_JAVA_OPTIONS` is said of
the variables of that name, and of the others, in their order.
-/

namespace CoherenceOperator

variable {name : String} {v : EnvVar} {env env' : List EnvVar}

/-! ### Variables of a name, and the others -/

/-- The variables of a name. -/
def namedEnv (name : String) (env : List EnvVar) : List EnvVar := env.filter fun e => e.name = name

/-- The variables of other names. -/
def otherEnv (name : String) (env : List EnvVar) : List EnvVar := env.filter fun e => e.name ≠ name

/-- The variable that a container sees under a name. -/
def effectiveEnv (name : String) (env : List EnvVar) : Option EnvVar := (namedEnv name env).getLast?

@[simp] theorem namedEnv_nil : namedEnv name [] = [] := rfl

@[simp] theorem namedEnv_append : namedEnv name (env ++ env') = namedEnv name env ++ namedEnv name env' := List.filter_append ..

@[simp] theorem otherEnv_append : otherEnv name (env ++ env') = otherEnv name env ++ otherEnv name env' := List.filter_append ..

theorem namedEnv_cons_pos (h : v.name = name) : namedEnv name (v :: env) = v :: namedEnv name env := by simp [namedEnv, h]

theorem namedEnv_cons_neg (h : v.name ≠ name) : namedEnv name (v :: env) = namedEnv name env := by simp [namedEnv, h]

theorem otherEnv_cons_pos (h : v.name = name) : otherEnv name (v :: env) = otherEnv name env := by simp [otherEnv, h]

theorem otherEnv_cons_neg (h : v.name ≠ name) : otherEnv name (v :: env) = v :: otherEnv name env := by simp [otherEnv, h]

theorem namedEnv_eq_nil (h : ∀ e ∈ env, e.name ≠ name) : namedEnv name env = [] := by
  rw [namedEnv, List.filter_eq_nil_iff]
  simpa using h

theorem findEnv_eq_head? : findEnv name env = (namedEnv name env).head? := by
  rw [findEnv, namedEnv, List.head?_filter]

/-- Setting a variable replaces the first of its name. -/
theorem namedEnv_setEnv (h : v.name = name) : namedEnv name (setEnv v env) = v :: (namedEnv name env).tail := by
  subst h
  induction env with
  | nil => simp [setEnv, namedEnv]
  | cons e env ih =>
    rw [setEnv]
    by_cases he : e.name = v.name
    · rw [if_pos he, namedEnv_cons_pos rfl, namedEnv_cons_pos he, List.tail_cons]
    · rw [if_neg he, namedEnv_cons_neg he, namedEnv_cons_neg he, ih]

theorem otherEnv_setEnv (h : v.name = name) : otherEnv name (setEnv v env) = otherEnv name env := by
  subst h
  induction env with
  | nil => simp [setEnv, otherEnv]
  | cons e env ih =>
    rw [setEnv]
    by_cases he : e.name = v.name
    · rw [if_pos he, otherEnv_cons_pos rfl, otherEnv_cons_pos he]
    · rw [if_neg he, otherEnv_cons_neg he, otherEnv_cons_neg he, ih]

/-- Another variable in place of the first of its name, or none. -/
theorem namedEnv_replaceEnvVar (o : Option EnvVar) : namedEnv name (replaceEnvVar name o env) =
    if namedEnv name env = [] then []
    else (o.map fun v => { v with name := name }).toList ++ (namedEnv name env).tail := by
  induction env with
  | nil => rfl
  | cons e env ih =>
    unfold replaceEnvVar
    by_cases he : e.name = name
    · rw [if_pos he, namedEnv_cons_pos he, if_neg (List.cons_ne_nil _ _), List.tail_cons]
      cases o with
      | none => rfl
      | some v => exact namedEnv_cons_pos rfl
    · rw [if_neg he, namedEnv_cons_neg he, namedEnv_cons_neg he, ih]

theorem otherEnv_replaceEnvVar (o : Option EnvVar) : otherEnv name (replaceEnvVar name o env) = otherEnv name env := by
  induction env with
  | nil => rfl
  | cons e env ih =>
    unfold replaceEnvVar
    by_cases he : e.name = name
    · rw [if_pos he, otherEnv_cons_pos he]
      cases o with
      | none => rfl
      | some v => exact otherEnv_cons_pos rfl
    · rw [if_neg he, otherEnv_cons_neg he, otherEnv_cons_neg he, ih]

/-! ### The file of the arguments -/

/-- The words of a value. -/
def words (s : String) : List (List Char) := s.toList.splitOnP isSpace

/-- The file of the arguments for the entry point of an image. -/
def entryPointFile : String := argumentFile "coherence-entrypoint-args.txt"

theorem toList_entryPointFile : entryPointFile.toList = '@' :: "/coherence-operator/utils/coherence-entrypoint-args.tx".toList ++ ['t'] := by
  decide

theorem isSpace_of_mem_entryPointFile : ∀ c ∈ entryPointFile.toList, isSpace c = false := by
  have h : entryPointFile.toList.all (fun c => !isSpace c) = true := by decide
  simpa using List.all_eq_true.1 h

/-- The file after another text, with white space around removed. -/
theorem toList_trimSpace (s : String) :
    (trimSpace (s ++ " " ++ entryPointFile)).toList = (s.toList ++ [' ']).dropWhile isSpace ++ entryPointFile.toList := by
  have hdrop : ∀ t : List Char, (t ++ entryPointFile.toList).dropWhile isSpace = t.dropWhile isSpace ++ entryPointFile.toList := by
    intro t
    rw [List.dropWhile_append]
    split
    · rename_i hempty
      rw [List.isEmpty_iff.1 hempty, List.nil_append, toList_entryPointFile]
      rfl
    · rfl
  have hreverse : ∀ t : List Char, (t ++ entryPointFile.toList).reverse.dropWhile isSpace = (t ++ entryPointFile.toList).reverse := by
    intro t
    rw [toList_entryPointFile, ← List.append_assoc, List.reverse_append]
    rfl
  rw [trimSpace, String.toList_ofList, String.toList_append, String.toList_append, hdrop]
  show (((s.toList ++ [' ']).dropWhile isSpace ++ entryPointFile.toList).reverse.dropWhile isSpace).reverse = _
  rw [hreverse, List.reverse_reverse]

/-- What is before the file is nothing, or ends in a blank. -/
theorem eq_nil_or_blank (s : List Char) :
    (s ++ [' ']).dropWhile isSpace = [] ∨ (s ++ [' ']).dropWhile isSpace = s.dropWhile isSpace ++ [' '] := by
  rw [List.dropWhile_append]
  split
  · exact .inl rfl
  · exact .inr rfl

/-- The file is a word of its own. -/
theorem mem_words_trimSpace (s : String) : entryPointFile.toList ∈ words (trimSpace (s ++ " " ++ entryPointFile)) := by
  have hsingle : entryPointFile.toList.splitOnP isSpace = [entryPointFile.toList] :=
    List.splitOnP_eq_singleton isSpace_of_mem_entryPointFile
  rw [words, toList_trimSpace]
  rcases eq_nil_or_blank s.toList with h | h
  · rw [h, List.nil_append, hsingle]
    exact List.mem_singleton_self _
  · rw [h, List.append_assoc, List.singleton_append, List.splitOnP_append_cons _ _ (by decide), hsingle]
    exact List.mem_append_right _ (List.mem_singleton_self _)

/-! ### What is not `JDK_JAVA_OPTIONS` -/

section

variable {n : String}

theorem namedEnv_mk_cons (h : n ≠ name) (value : String) (valueFrom : Option EnvVarSource) :
    namedEnv name ({ name := n, value, valueFrom } :: env) = namedEnv name env := namedEnv_cons_neg h

@[simp] theorem namedEnv_envOf (h : n ≠ name) (o : Option String) : namedEnv name (envOf n o) = [] := by
  refine namedEnv_eq_nil fun e he => ?_
  simp only [envOf, List.mem_map] at he
  obtain ⟨_, -, rfl⟩ := he
  exact h

@[simp] theorem namedEnv_envOfText (h : n ≠ name) (o : Option String) : namedEnv name (envOfText n o) = [] := namedEnv_envOf h _

@[simp] theorem namedEnv_envOfBool (h : n ≠ name) (o : Option Bool) : namedEnv name (envOfBool n o) = [] := namedEnv_envOf h _

@[simp] theorem namedEnv_envOfFlag (h : n ≠ name) (o : Option Bool) : namedEnv name (envOfFlag n o) = [] := by
  rw [envOfFlag]
  split
  · exact namedEnv_cons_neg h
  · rfl

@[simp] theorem namedEnv_envOfList (h : n ≠ name) (separator : String) (l : List String) :
    namedEnv name (envOfList n separator l) = [] := by
  cases l with
  | nil => rfl
  | cons _ _ => exact namedEnv_cons_neg h

end

/-- The operator's own variables have other names. -/
theorem namedEnv_createDefaultEnv (d : CoherenceResource) (services : Option String) :
    namedEnv EnvVarJdkOptions (d.createDefaultEnv services) = [] := by
  have hmember : namedEnv EnvVarJdkOptions d.createMemberEnv = [] := by
    rw [CoherenceResource.createMemberEnv, CoherenceResource.createCommonEnv]
    simp (disch := decide) only [namedEnv_append, namedEnv_envOfText, namedEnv_mk_cons, namedEnv_nil, List.append_nil]
    split
    · simp (disch := decide) only [List.nil_append, namedEnv_mk_cons, namedEnv_nil]
    · rfl
  rw [CoherenceResource.createDefaultEnv]
  simp (disch := decide) only [namedEnv_append, hmember, namedEnv_envOfBool, namedEnv_envOf, List.append_nil]

/-- The options of the virtual machine in the Coherence container are those of the spec, to begin with. -/
theorem namedEnv_createCoherenceContainer (op : Operator) (d : CoherenceResource) (services : Option String) :
    namedEnv EnvVarJdkOptions (d.createCoherenceContainer op services).env = namedEnv EnvVarJdkOptions d.spec.env := by
  rw [CoherenceResource.createCoherenceContainer]
  simp (disch := decide) only [namedEnv_append, namedEnv_createDefaultEnv, namedEnv_envOfFlag, List.nil_append, List.append_nil]

/-! ### What the application does to it -/

/-- The variable for the file of the arguments, other than `JDK_JAVA_OPTIONS`. -/
def ApplicationSpec.alternate (a : ApplicationSpec) : Option String := a.alternateJdkJavaOptions.filter (· ≠ "")

/-- The variables `JDK_JAVA_OPTIONS`, with the file after the value of the first. -/
def withFile (vs : List EnvVar) : List EnvVar :=
  { name := EnvVarJdkOptions, value := trimSpace ((vs.head?.map (·.value)).getD "" ++ " " ++ entryPointFile) } :: vs.tail

theorem trimSpace_entryPointFile : trimSpace entryPointFile = entryPointFile := by decide

theorem namedEnv_addArgumentsToJdkOptions : namedEnv EnvVarJdkOptions (addArgumentsToJdkOptions entryPointFile env) =
    withFile (namedEnv EnvVarJdkOptions env) := by
  rw [addArgumentsToJdkOptions, withFile, findEnv_eq_head?]
  exact namedEnv_setEnv rfl

theorem namedEnv_applicationEnv (a : ApplicationSpec) : namedEnv EnvVarJdkOptions a.env = [] := by
  have hbuildPack : namedEnv EnvVarJdkOptions ((a.cloudNativeBuildPack.map (·.env)).getD []) = [] := by
    cases a.cloudNativeBuildPack with
    | none => rfl
    | some s =>
      show namedEnv EnvVarJdkOptions s.env = []
      rw [CloudNativeBuildPackSpec.env]
      simp (disch := decide) only [namedEnv_append, namedEnv_envOfBool, namedEnv_envOf, List.append_nil]
  rw [ApplicationSpec.env]
  simp (disch := decide) only [namedEnv_append, hbuildPack, namedEnv_envOf, namedEnv_envOfList, List.append_nil]

/-- The variables of the Coherence container, if the entry point of the image is used. -/
theorem env_updateCoherenceContainer {a : ApplicationSpec} (huses : a.usesImageEntryPoint = true) (c : Container) :
    (ApplicationSpec.updateCoherenceContainer (some a) c).env =
      (if a.usesJdkJavaOptions then addArgumentsToJdkOptions entryPointFile (c.env ++ a.env) else c.env ++ a.env) ++
        a.alternate.toList.map fun name => { name, value := entryPointFile } := by
  rw [ApplicationSpec.updateCoherenceContainer]
  simp only [huses, if_true]
  rw [← entryPointFile, trimSpace_entryPointFile]
  rfl

/-- Those that are there otherwise. -/
theorem env_updateCoherenceContainer_of_not {a : ApplicationSpec} (huses : a.usesImageEntryPoint = false) (c : Container) :
    (ApplicationSpec.updateCoherenceContainer (some a) c).env = c.env ++ a.env := by
  rw [ApplicationSpec.updateCoherenceContainer]
  simp only [huses, Bool.false_eq_true, if_false]
  rw [apply_ite Container.env, ite_self]

/-- **`JDK_JAVA_OPTIONS` in the Coherence container**, with what the application does to it. -/
theorem namedEnv_updateCoherenceContainer (a : ApplicationSpec) (c : Container) :
    namedEnv EnvVarJdkOptions (ApplicationSpec.updateCoherenceContainer (some a) c).env =
      if a.usesImageEntryPoint then
        (if a.usesJdkJavaOptions then withFile (namedEnv EnvVarJdkOptions c.env) else namedEnv EnvVarJdkOptions c.env) ++
          if a.alternate = some EnvVarJdkOptions then [{ name := EnvVarJdkOptions, value := entryPointFile }] else []
      else namedEnv EnvVarJdkOptions c.env := by
  have hown : namedEnv EnvVarJdkOptions (c.env ++ a.env) = namedEnv EnvVarJdkOptions c.env := by
    rw [namedEnv_append, namedEnv_applicationEnv, List.append_nil]
  have halternate : namedEnv EnvVarJdkOptions (a.alternate.toList.map fun name =>
      ({ name, value := entryPointFile } : EnvVar)) =
      if a.alternate = some EnvVarJdkOptions then [{ name := EnvVarJdkOptions, value := entryPointFile }] else [] := by
    cases a.alternate with
    | none => rfl
    | some n =>
      by_cases hn : n = EnvVarJdkOptions
      · rw [hn, if_pos rfl]
        exact namedEnv_cons_pos rfl
      · rw [if_neg (by simpa using hn)]
        exact namedEnv_cons_neg hn
  cases huses : a.usesImageEntryPoint with
  | false =>
    rw [env_updateCoherenceContainer_of_not huses, hown]
    rfl
  | true =>
    rw [env_updateCoherenceContainer huses, if_pos rfl, namedEnv_append, halternate]
    split
    · rw [namedEnv_addArgumentsToJdkOptions, hown]
    · rw [hown]

/-- The Coherence container of a resource, with what the application does to it. -/
def CoherenceResource.launchedContainer (op : Operator) (d : CoherenceResource) (services : Option String) : Container :=
  ApplicationSpec.updateCoherenceContainer d.spec.application (d.createCoherenceContainer op services)

/-! ### The virtual machine -/

/-- The variables of the debugger, if it is enabled. -/
def JVMSpec.debugEnv (j : JVMSpec) : List EnvVar :=
  ((j.debug.filter (·.enabled = some true)).map (·.createEnvVars)).getD []

/-- The other variables of the virtual machine. -/
def JVMSpec.optionsEnv (j : JVMSpec) : List EnvVar :=
  envOfList "JVM_EXTRA_CLASSPATH" ":" j.classpath ++ envOfList "JVM_ARGS" " " j.args ++
    ((j.memory.map (·.createEnvVars)).getD []) ++ ((j.gc.map (·.createEnvVars)).getD []) ++
    [{ name := "JVM_USE_CONTAINER_LIMITS", value := toString (j.useContainerLimits.getD true) }] ++
    envOfBool "JVM_USE_JIB_CLASSPATH" j.useJibClasspath

/-- The virtual machine changes the command, the ports and the environment of the Coherence container, and nothing else. -/
theorem exists_updateCoherenceContainer_eq (jvm : Option JVMSpec) (c : Container) : ∃ command args ports,
    JVMSpec.updateCoherenceContainer jvm c =
      { c with command, args, ports, env := c.env ++ (jvm.getD {}).debugEnv ++ (jvm.getD {}).optionsEnv } := by
  generalize hj : jvm.getD {} = j
  obtain ⟨ports, hports⟩ : ∃ ports, j.debug.elim c (fun debug => debug.updateCoherenceContainer c) =
      { c with ports, env := c.env ++ j.debugEnv } := by
    rw [JVMSpec.debugEnv]
    cases j.debug with
    | none => exact ⟨c.ports, by simp⟩
    | some debug =>
      rw [Option.elim_some, JvmDebugSpec.updateCoherenceContainer]
      by_cases henabled : debug.enabled = some true
      · rw [if_pos henabled, Option.filter_some_pos (by simpa using henabled)]
        exact ⟨_, rfl⟩
      · rw [if_neg henabled, Option.filter_some_neg (by simpa using henabled)]
        exact ⟨c.ports, by simp⟩
  have hdebug : JVMSpec.updateCoherenceContainer jvm c =
      let c := j.debug.elim c fun debug => debug.updateCoherenceContainer c
      let c := if j.java8 = some true then { c with command := [VolumeMountPathUtils ++ "/runner", "server"], args := [] } else c
      { c with env := c.env ++ j.optionsEnv } := by
    rw [← hj]
    unfold JVMSpec.updateCoherenceContainer
    dsimp only
    cases hd : (jvm.getD {}).debug with
    | none => simp only [JVMSpec.optionsEnv, Option.elim_none, List.append_assoc]
    | some debug => simp only [JVMSpec.optionsEnv, Option.elim_some, List.append_assoc]
  rw [hdebug, hports]
  dsimp only
  split
  · exact ⟨_, _, ports, rfl⟩
  · exact ⟨c.command, c.args, ports, rfl⟩

end CoherenceOperator
