import CoherenceOperator.Lib.ArgumentLines
import CoherenceOperator.Runner.Delivery

/-!
# The delivery of arguments

The options of the virtual machine and the arguments of the application are joined with blanks into variables, split again by the
runner, and written to a file of arguments, without quotes. What was to be handed over (`handedOver`) is read back from the file
exactly when each argument is not empty and has no white space, no quote and no hash (`delivers_arguments_iff`).
-/

namespace CoherenceOperator

open Effect Prog ArgumentFile

/-! ### Lines -/

namespace RunDetails

variable (m : Machine) (d : RunDetails)

/-- The lines for Spring Boot. -/
def springBootLines : List String :=
  if d.isSpringBoot then
    systemProperty "loader.path" (withCommas (d.getClasspath m)) ::
      if d.innerMainClass = "" ∨ d.innerMainClass = DefaultMain then [] else [systemProperty "loader.main" d.innerMainClass]
  else []

/-- The lines with the main class. -/
def mainClassLines : List String := if d.innerMainClass = "" ∨ d.isSpringBoot then [d.mainClass] else [d.mainClass, d.innerMainClass]

/-- The arguments in the order in which they are written. -/
def argumentLines (cp : String) : List String :=
  "--class-path" :: cp :: (d.getAllArgs ++ d.springBootLines m ++ d.mainClassLines ++ d.mainArgs)

theorem isLined_joined (l : List String) : IsLined ("\n".intercalate l).toList (l.map String.toList) := by
  rw [String.toList_intercalate]
  exact isLined_lines _

theorem isLined_mainClassText : IsLined d.mainClassText.toList (d.mainClassLines.map String.toList) := by
  rw [mainClassText, mainClassLines]
  split
  · exact isLined_singleton _
  · exact isLined_joined [d.mainClass, d.innerMainClass]

theorem isLined_springBootText (h : d.isSpringBoot = true) : IsLined (d.springBootText m).toList ((d.springBootLines m).map String.toList) := by
  rw [springBootText, springBootLines, if_pos h]
  split
  · exact isLined_singleton _
  · exact isLined_joined [_, _]

/-- **The file has these lines.** -/
theorem isLined_fullArgsText (cp : String) :
    IsLined (d.fullArgsText m cp true).toList ((d.argumentLines m cp).map String.toList) := by
  rw [fullArgsText, String.toList_intercalate, List.map_append, if_pos rfl]
  have hwhole : ∀ l : List String, List.Forall₂ IsLined (l.map String.toList) (l.map fun s => [s.toList]) := by
    intro l
    rw [List.forall₂_map_left_iff, List.forall₂_map_right_iff, List.forall₂_same]
    exact fun s _ => isLined_singleton _
  have hspring : List.Forall₂ IsLined ((if d.isSpringBoot then [d.springBootText m] else []).map String.toList)
      (if d.isSpringBoot then [(d.springBootLines m).map String.toList] else []) := by
    split
    · exact .cons (d.isLined_springBootText m ‹_›) .nil
    · exact .nil
  have hoptions : List.Forall₂ IsLined (["--class-path", cp, d.argsText].map String.toList)
      [["--class-path".toList], [cp.toList], d.getAllArgs.map String.toList] :=
    .cons (isLined_singleton _) (.cons (isLined_singleton _) (.cons (isLined_joined _) .nil))
  have hmain : List.Forall₂ IsLined ((d.mainClassText :: d.mainArgs).map String.toList)
      (d.mainClassLines.map String.toList :: d.mainArgs.map fun s => [s.toList]) :=
    .cons d.isLined_mainClassText (hwhole _)
  have hlines := isLined_intercalate (List.rel_append (List.rel_append hoptions hspring) hmain)
  have hflatten : (d.mainArgs.map fun s => [s.toList]).flatten = d.mainArgs.map String.toList := by
    rw [← List.flatMap_def]
    exact (List.map_eq_flatMap ..).symm
  have hsprings : (if d.isSpringBoot then [(d.springBootLines m).map String.toList] else []).flatten = (d.springBootLines m).map String.toList := by
    rw [springBootLines]
    split
    · simp
    · rfl
  simp only [List.flatten_append, hsprings, List.flatten_cons, hflatten, List.flatten_nil, List.append_nil] at hlines
  simpa [argumentLines] using hlines

/-! ### Options and arguments of a resource -/

variable {m d}

theorem addArgs_eq (l : List String) : d.addArgs l = { d with args := d.args ++ (l.filter (· ≠ "")).map d.expandEnv } := by
  rw [addArgs]
  induction l generalizing d with
  | nil => simp
  | cons a l ih =>
    rw [List.foldl_cons, ih, addArg]
    by_cases ha : a = ""
    · simp [ha]
    · rw [if_pos ha, List.filter_cons_of_pos (by simpa using ha), List.map_cons,
        List.append_cons d.args (d.expandEnv a) ((l.filter (· ≠ "")).map d.expandEnv)]
      rfl

theorem addArgsFromEnvVar_eq (name : String) : d.addArgsFromEnvVar name =
    { d with args := d.args ++ ((splitText ' ' (d.env name)).filter (· ≠ "")).map d.expandEnv } := by
  have hgetenv : d.getenv name = d.env name := rfl
  rw [addArgsFromEnvVar, hgetenv]
  by_cases hempty : d.env name = ""
  · rw [if_neg (not_not.2 hempty), hempty]
    have hsplit : (splitText ' ' "").filter (· ≠ "") = [] := by decide
    rw [hsplit, List.map_nil, List.append_nil]
  · rw [if_pos hempty, addArgs_eq]

end RunDetails

section

variable {m : Machine} {env : String → String} {l : List String}

/-- What is left of texts that are joined and split again. -/
theorem filter_splitText (l : List String) : ((splitText ' ' (" ".intercalate l)).filter (· ≠ "")).map String.toList =
    ((l.map String.toList).flatMap (·.splitOn ' ')).filter (· ≠ []) := by
  have hsplit : ((" ".intercalate l).toList.splitOn ' ').filter (· ≠ []) =
      ((l.map String.toList).flatMap (·.splitOn ' ')).filter (· ≠ []) := by
    rw [String.toList_intercalate]
    cases l with
    | nil => rfl
    | cons a l =>
      have hne : (a :: l).map String.toList ≠ [] := by simp
      exact congrArg (List.filter _) (splitOn_intercalate ' ' hne)
  rw [← hsplit, splitText, List.filter_map, List.map_map]
  have hid : (String.toList ∘ String.ofList) = id := by
    funext s
    exact String.toList_ofList
  rw [hid, List.map_id]
  congr 1
  funext s
  simp

theorem filter_map_toList (l : List String) : (l.map String.toList).filter (· ≠ []) = (l.filter (· ≠ "")).map String.toList := by
  have hfun : ((fun s : List Char => decide (s ≠ [])) ∘ String.toList) = fun s => decide (s ≠ "") := by
    funext s
    simp
  rw [List.filter_map, hfun]

/-- The lines, but for those that are empty. -/
theorem filter_lines (before after : List String) {jvmArgs appArgs main : List String}
    (hmain : main.filter (· ≠ "") = (splitText ' ' (" ".intercalate appArgs)).filter (· ≠ "")) :
    ((before ++ (splitText ' ' (" ".intercalate jvmArgs)).filter (· ≠ "") ++ after ++ main).map String.toList).filter (· ≠ []) =
      ((before.map String.toList).map (fun l => [l]) ++ (jvmArgs.map String.toList).map (·.splitOn ' ') ++
        (after.map String.toList).map (fun l => [l]) ++ (appArgs.map String.toList).map (·.splitOn ' ')).flatten.filter (· ≠ []) := by
  have hwhole : ∀ l : List String, ((l.map String.toList).map fun l => [l]).flatten = l.map String.toList := by
    intro l
    rw [← List.flatMap_def, List.flatMap_singleton']
  have hsplit : ∀ l : List String, (((l.map String.toList).map (·.splitOn ' ')).flatten).filter (· ≠ []) =
      ((splitText ' ' (" ".intercalate l)).filter (· ≠ "")).map String.toList := by
    intro l
    rw [← List.flatMap_def, filter_splitText]
  rw [List.map_append, List.map_append, List.map_append, List.flatten_append, List.flatten_append, List.flatten_append, hwhole, hwhole,
    List.filter_append, List.filter_append, List.filter_append, List.filter_append, List.filter_append, List.filter_append, hsplit, hsplit,
    filter_map_toList main, hmain, filter_map_toList ((splitText ' ' (" ".intercalate jvmArgs)).filter _), List.filter_filter]
  simp

/-- Parts of texts without a dollar are not changed. -/
theorem expand_of_mem_splitText {p : String} (env : String → String) (h : ∀ a ∈ l, '$' ∉ a.toList)
    (hp : p ∈ splitText ' ' (" ".intercalate l)) : expand env p = p := by
  refine expand_of_notMem env fun hdollar => ?_
  obtain ⟨s, hs, rfl⟩ := List.mem_map.1 hp
  rw [String.toList_ofList] at hdollar
  have hmem : '$' ∈ (" ".intercalate l).toList := by
    have hflatten : '$' ∈ ((" ".intercalate l).toList.splitOn ' ').flatten := List.mem_flatten.2 ⟨s, hs, hdollar⟩
    rw [flatten_splitOn] at hflatten
    exact (List.mem_filter.1 hflatten).1
  rw [String.toList_intercalate] at hmem
  have hnot : ∀ ls : List (List Char), (∀ s ∈ ls, '$' ∉ s) → '$' ∉ List.intercalate [' '] ls := by
    intro ls hls
    induction ls with
    | nil => simp
    | cons s ls ih =>
      obtain ⟨hs, hls⟩ := List.forall_mem_cons.1 hls
      cases ls with
      | nil => simpa using hs
      | cons t ls =>
        rw [List.intercalate_cons_cons, List.mem_append, List.mem_append, not_or, not_or]
        exact ⟨⟨hs, by decide⟩, ih hls⟩
  exact hnot _ (by simpa using h) hmem

/-! ### What was to be handed over -/

/-- The arguments, if the options and the arguments of a resource were handed over as they are. -/
def handedOver (m : Machine) (env : String → String) (jvmArgs appArgs : List String) : Except Failure (List String) := do
  let d ← populatedDetails m env
  let d ← d.configureOptions m
  let d ← ({ d with args := d.args ++ jvmArgs } : RunDetails).configureExtra m
  let d := { d with mainArgs := appArgs }
  let cp ← d.classPathText m
  return d.argumentLines m cp

/-- The variables of the options and of the arguments. -/
def deliveryVars (j : JVMSpec) (a : ApplicationSpec) : List EnvVar := a.env ++ j.debugEnv ++ j.optionsEnv

/-- The environment of the runner, given the options and the arguments of a resource. -/
def deliveryEnviron (j : JVMSpec) (a : ApplicationSpec) (others : String → String) : String → String :=
  environ ["JVM_ARGS", "COHERENCE_OPERATOR_MAIN_ARGS"] (deliveryVars j a) others

theorem getD_intercalate (separator : String) (l : List String) :
    (if l ≠ [] then some (separator.intercalate l) else none).getD "" = separator.intercalate l := by
  cases l with
  | nil => rfl
  | cons a l => simp

section

attribute [local simp] lookedUp_append lookedUp_cons lookedUp_ite

/-- The variables of the debugger, the memory and the collector have other names. -/
theorem lookedUp_jvm {name : String} (h : name ∈ ["JVM_ARGS", "COHERENCE_OPERATOR_MAIN_ARGS"]) (j : JVMSpec) :
    lookedUp name j.debugEnv = none ∧ lookedUp name ((j.memory.map (·.createEnvVars)).getD []) = none ∧
      lookedUp name ((j.gc.map (·.createEnvVars)).getD []) = none := by
  have hdebug : lookedUp name j.debugEnv = none := by
    rw [JVMSpec.debugEnv]
    cases j.debug.filter (·.enabled = some true) with
    | none => rfl
    | some debug =>
      show lookedUp name debug.createEnvVars = none
      rcases List.mem_pair.1 h with rfl | rfl
      · simp [JvmDebugSpec.createEnvVars]
      · simp [JvmDebugSpec.createEnvVars]
  have hmemory : lookedUp name ((j.memory.map (·.createEnvVars)).getD []) = none := by
    cases j.memory with
    | none => rfl
    | some memory =>
      show lookedUp name memory.createEnvVars = none
      have hother : lookedUp name ((memory.onOutOfMemory.map (·.createEnvVars)).getD []) = none := by
        cases memory.onOutOfMemory with
        | none => rfl
        | some o =>
          show lookedUp name o.createEnvVars = none
          rcases List.mem_pair.1 h with rfl | rfl
          · simp [JvmOutOfMemorySpec.createEnvVars, envOfBool]
          · simp [JvmOutOfMemorySpec.createEnvVars, envOfBool]
      rcases List.mem_pair.1 h with rfl | rfl
      · simp [JvmMemorySpec.createEnvVars, hother]
      · simp [JvmMemorySpec.createEnvVars, hother]
  have hgc : lookedUp name ((j.gc.map (·.createEnvVars)).getD []) = none := by
    cases j.gc with
    | none => rfl
    | some gc =>
      show lookedUp name gc.createEnvVars = none
      rcases List.mem_pair.1 h with rfl | rfl
      · simp [JvmGarbageCollectorSpec.createEnvVars]
      · simp [JvmGarbageCollectorSpec.createEnvVars]
  exact ⟨hdebug, hmemory, hgc⟩

/-- The runner finds the options joined, and the arguments. -/
theorem deliveryEnviron_eq (j : JVMSpec) (a : ApplicationSpec) (others : String → String) :
    deliveryEnviron j a others "JVM_ARGS" = " ".intercalate j.args ∧
      deliveryEnviron j a others "COHERENCE_OPERATOR_MAIN_ARGS" = " ".intercalate a.args := by
  have hbuildPack : ∀ name ∈ ["JVM_ARGS", "COHERENCE_OPERATOR_MAIN_ARGS"], lookedUp name ((a.cloudNativeBuildPack.map (·.env)).getD []) = none := by
    intro name h
    cases a.cloudNativeBuildPack with
    | none => rfl
    | some s =>
      show lookedUp name s.env = none
      rcases List.mem_pair.1 h with rfl | rfl
      · simp [CloudNativeBuildPackSpec.env, envOfBool]
      · simp [CloudNativeBuildPackSpec.env, envOfBool]
  refine ⟨?_, ?_⟩
  · obtain ⟨hdebug, hmemory, hgc⟩ := @lookedUp_jvm "JVM_ARGS" (by simp) j
    rw [deliveryEnviron, environ_own (by simp), deliveryVars, ← getD_intercalate " " j.args]
    simp [JVMSpec.optionsEnv, ApplicationSpec.env, hdebug, hmemory, hgc, hbuildPack, envOfBool]
  · obtain ⟨hdebug, hmemory, hgc⟩ := @lookedUp_jvm "COHERENCE_OPERATOR_MAIN_ARGS" (by simp) j
    rw [deliveryEnviron, environ_own (by simp), deliveryVars, ← getD_intercalate " " a.args]
    simp [JVMSpec.optionsEnv, ApplicationSpec.env, hdebug, hmemory, hgc, hbuildPack, envOfBool]

end

/-! ### What is written -/

/-- **What was to be handed over is written**: what the runner adds in lines of its own, and what a user gives split at blanks. -/
theorem written_handedOver {jvmArgs appArgs : List String} {files : String × String} (hjvm : env "JVM_ARGS" = " ".intercalate jvmArgs)
    (happ : env "COHERENCE_OPERATOR_MAIN_ARGS" = " ".intercalate appArgs) (hdollar : ∀ a ∈ jvmArgs ++ appArgs, '$' ∉ a.toList)
    (h : createsFiles m env = .ok files) :
    ∃ expected lines, handedOver m env jvmArgs appArgs = .ok expected ∧
      List.Forall₂ Written (expected.map String.toList) lines ∧ IsLined files.1.toList lines.flatten := by
  obtain ⟨d, hdetails, hfiles⟩ := bind_eq_ok.1 h
  obtain ⟨cp, hcp, hfiles⟩ := bind_eq_ok.1 hfiles
  obtain ⟨d₀, d₁, hpopulated, hoptions, hextra⟩ := createDetails_eq_ok.1 hdetails
  have htext : files.1 = d.fullArgsText m cp true := by
    iterate 6 obtain ⟨_, -, hfiles⟩ := bind_eq_ok.1 hfiles
    cases hfiles
    rfl
  -- what the environment says, and the arguments of the application
  have hgiven : d₁.given = (env, mainArguments env) := by
    obtain ⟨hview, -⟩ := populatedDetails_ok hpopulated
    rw [RunDetails.given_configureOptions hoptions]
    exact congrArg (·.1) hview
  simp only [RunDetails.given, Prod.mk.injEq] at hgiven
  obtain ⟨henv, hmain⟩ := hgiven
  have hpieces : ((splitText ' ' (d₁.env "JVM_ARGS")).filter (· ≠ "")).map d₁.expandEnv =
      (splitText ' ' (" ".intercalate jvmArgs)).filter (· ≠ "") := by
    have hexpand : d₁.expandEnv = expand env := by
      rw [← henv]
      rfl
    rw [henv, hjvm, hexpand]
    refine (List.map_congr_left fun p hp => ?_).trans (List.map_id _)
    exact expand_of_mem_splitText env (fun a ha => hdollar a (List.mem_append_left _ ha)) (List.mem_filter.1 hp).1
  have harguments : (mainArguments env).filter (· ≠ "") = (splitText ' ' (" ".intercalate appArgs)).filter (· ≠ "") := by
    rw [mainArguments, happ]
    by_cases hempty : " ".intercalate appArgs = ""
    · rw [if_pos hempty, hempty]
      decide
    · rw [if_neg hempty]
      congr 1
      refine (List.map_congr_left fun p hp => ?_).trans (List.map_id _)
      exact expand_of_mem_splitText env (fun a ha => hdollar a (List.mem_append_right _ ha)) hp
  -- what comes after the options does not depend on them
  rw [RunDetails.addArgsFromEnvVar_eq, hpieces] at hextra
  have hprepend : ∀ l, ({ d₁ with args := d₁.args ++ l } : RunDetails).configureExtra m =
      (({ d₁ with args := [] } : RunDetails).configureExtra m).map (RunDetails.prependArgs (d₁.args ++ l)) := by
    intro l
    rw [← RunDetails.configureExtra_prependArgs, RunDetails.prependArgs, List.append_nil]
  rw [hprepend] at hextra
  obtain ⟨e, he, rfl⟩ := map_eq_ok.1 hextra
  obtain ⟨before, after, hlines⟩ : ∃ before after, ∀ l as : List String,
      ({ RunDetails.prependArgs (d₁.args ++ l) e with mainArgs := as } : RunDetails).argumentLines m cp = before ++ l ++ after ++ as := by
    refine ⟨"--class-path" :: cp :: (e.vmOptions ++ e.memoryArgs ++ e.diagnosticArgs ++ d₁.args),
      e.args ++ e.springBootLines m ++ e.mainClassLines, fun l as => ?_⟩
    have hspring : ({ RunDetails.prependArgs (d₁.args ++ l) e with mainArgs := as } : RunDetails).springBootLines m = e.springBootLines m := rfl
    have hclass : ({ RunDetails.prependArgs (d₁.args ++ l) e with mainArgs := as } : RunDetails).mainClassLines = e.mainClassLines := rfl
    rw [RunDetails.argumentLines, hspring, hclass]
    simp [RunDetails.getAllArgs, RunDetails.prependArgs]
  refine ⟨before ++ jvmArgs ++ after ++ appArgs,
    (before.map String.toList).map (fun l => [l]) ++ (jvmArgs.map String.toList).map (·.splitOn ' ') ++
      (after.map String.toList).map (fun l => [l]) ++ (appArgs.map String.toList).map (·.splitOn ' '), ?_, ?_, ?_⟩
  · rw [← hlines]
    refine bind_eq_ok.2 ⟨d₀, hpopulated, bind_eq_ok.2 ⟨d₁, hoptions, bind_eq_ok.2 ⟨RunDetails.prependArgs (d₁.args ++ jvmArgs) e, ?_,
      bind_eq_ok.2 ⟨cp, hcp, rfl⟩⟩⟩⟩
    rw [hprepend, he]
    rfl
  · rw [List.map_append, List.map_append, List.map_append]
    exact List.rel_append (List.rel_append (List.rel_append (written_whole _) (written_split _)) (written_whole _)) (written_split _)
  · have hmainArgs : e.mainArgs = mainArguments env := by
      have honly := RunDetails.onlyArgs_configureExtra he
      rw [RunDetails.OnlyArgs] at honly
      rw [honly]
      exact hmain
    have hactual := RunDetails.isLined_fullArgsText m
      (RunDetails.prependArgs (d₁.args ++ (splitText ' ' (" ".intercalate jvmArgs)).filter (· ≠ "")) e) cp
    have hsame := hlines ((splitText ' ' (" ".intercalate jvmArgs)).filter (· ≠ "")) (mainArguments env)
    rw [← hmainArgs] at hsame
    rw [show RunDetails.argumentLines m (RunDetails.prependArgs _ e) cp = _ from hsame, ← htext, hmainArgs] at hactual
    exact (isLined_congr (filter_lines before after harguments)).1 hactual

/-- What a user gives is among what was to be handed over. -/
theorem mem_of_handedOver {jvmArgs appArgs expected : List String} (h : handedOver m env jvmArgs appArgs = .ok expected) :
    ∀ arg ∈ jvmArgs ++ appArgs, arg ∈ expected := by
  obtain ⟨d₀, -, h⟩ := bind_eq_ok.1 h
  obtain ⟨d₁, -, h⟩ := bind_eq_ok.1 h
  obtain ⟨d, hextra, h⟩ := bind_eq_ok.1 h
  obtain ⟨cp, -, h⟩ := bind_eq_ok.1 h
  cases h
  have hprepend : ({ d₁ with args := d₁.args ++ jvmArgs } : RunDetails) =
      RunDetails.prependArgs (d₁.args ++ jvmArgs) { d₁ with args := [] } := by
    rw [RunDetails.prependArgs, List.append_nil]
  rw [hprepend, RunDetails.configureExtra_prependArgs] at hextra
  obtain ⟨e, -, rfl⟩ := map_eq_ok.1 hextra
  intro arg harg
  rcases List.mem_append.1 harg with harg | harg
  · simp [RunDetails.argumentLines, RunDetails.getAllArgs, RunDetails.prependArgs, harg]
  · simp [RunDetails.argumentLines, harg]

end

end CoherenceOperator
