import CoherenceOperator.Runner.Delivery

/-!
# The memory of the virtual machine

The fields of a `JvmMemorySpec` go through variables to the runner, which makes options of them. What is documented of each field
(`documentedOptions`, `documentedTracking`) is compared with what the runner emits in a whole run; references to variables in a
value are replaced, as in every option. They are the same but for one thing: the statistics of native memory are printed also when
it is not tracked (`emits_memory_iff`).
-/

namespace CoherenceOperator

open Effect Prog

/-! ### What is documented -/

/-- An option: a name, and after it a text or a number. -/
inductive MemoryOption where
  | text (name value : String)
  | number (name : String) (q : Dec)

namespace MemoryOption

/-- Is this the option? A number may be written in different ways. -/
def Shows (env : String → String) : MemoryOption → String → Prop
  | text name value, option => option = name ++ expand env value
  | number name q, option => ∃ t, option = name ++ t ∧ Dec.Denotes t.toList q.value

/-- The option as it is written. -/
def render : MemoryOption → String
  | text name value => name ++ value
  | number name q => name ++ q.toString

/-- The name. -/
def name : MemoryOption → String
  | text name _ => name
  | number name _ => name

end MemoryOption

/-- Options for a text that is neither absent nor empty. -/
def textOptions (names : List String) (value : Option String) : List MemoryOption :=
  (value.filter (· ≠ "")).toList.flatMap fun value => names.map fun name => .text name value

/-- Options for a quantity. -/
def numberOptions (m : Machine) (names : List String) (quantity : Option String) : List MemoryOption :=
  (quantity.bind m.parseQuantity).toList.flatMap fun q => names.map fun name => .number name q

namespace JvmMemorySpec

variable (s : JvmMemorySpec) (m : Machine)

/-- The memory options of a spec: the size of the heap goes before the two sizes, the percentage before the three. -/
def documentedOptions : List MemoryOption :=
  textOptions ["-XX:MaxRAM="] s.maxRAM ++
    (if isText s.heapSize then textOptions ["-XX:InitialHeapSize=", "-XX:MaxHeapSize="] s.heapSize
    else textOptions ["-XX:InitialHeapSize="] s.initialHeapSize ++ textOptions ["-XX:MaxHeapSize="] s.maxHeapSize) ++
    (if s.percentage.isSome then
      numberOptions m ["-XX:InitialRAMPercentage=", "-XX:MinRAMPercentage=", "-XX:MaxRAMPercentage="] s.percentage
    else numberOptions m ["-XX:InitialRAMPercentage="] s.initialRAMPercentage ++
      numberOptions m ["-XX:MaxRAMPercentage="] s.maxRAMPercentage ++ numberOptions m ["-XX:MinRAMPercentage="] s.minRAMPercentage) ++
    textOptions ["-XX:MaxDirectMemorySize="] s.directMemorySize ++
    textOptions ["-Xss"] s.stackSize ++
    textOptions ["-XX:MetaspaceSize=", "-XX:MaxMetaspaceSize="] s.metaspaceSize

/-- How native memory is tracked. -/
def trackingMode : String := (s.nativeMemoryTracking.filter (· ≠ "")).getD "summary"

/-- The options for the tracking of native memory: it has statistics unless it is off. -/
def documentedTracking (env : String → String) : List MemoryOption :=
  .text "-XX:NativeMemoryTracking=" s.trackingMode ::
    if expand env s.trackingMode = "off" then [] else [.text "-XX:+PrintNMTStatistics" ""]

/-- The quantities of a spec. -/
def quantities : List String :=
  [s.percentage, s.initialRAMPercentage, s.maxRAMPercentage, s.minRAMPercentage].flatMap Option.toList

/-- The variables that belong to a spec. -/
def ownVariables : List String :=
  ["JVM_MAX_RAM", "JVM_HEAP_SIZE", "JVM_INITIAL_HEAP_SIZE", "JVM_MAX_HEAP_SIZE", "JVM_RAM_PERCENTAGE", "JVM_INITIAL_RAM_PERCENTAGE",
    "JVM_MAX_RAM_PERCENTAGE", "JVM_MIN_RAM_PERCENTAGE", "JVM_DIRECT_MEMORY_SIZE", "JVM_STACK_SIZE", "JVM_METASPACE_SIZE",
    "JVM_NATIVE_MEMORY_TRACKING"]

/-- The environment of the runner, given a spec. -/
def environ (others : String → String) : String → String := CoherenceOperator.environ ownVariables s.createEnvVars others

end JvmMemorySpec

/-! ### What the runner emits -/

namespace RunDetails

variable {d : RunDetails} {m : Machine} {name : String} {l l' : List String}

/-- Some memory options. -/
def addMemory (d : RunDetails) (l : List String) : RunDetails := { d with memoryArgs := d.memoryArgs ++ l.map d.expandEnv }

@[simp] theorem env_addMemory : (d.addMemory l).env = d.env := rfl

@[simp] theorem addMemory_nil : d.addMemory [] = d := by simp [addMemory]

@[simp] theorem addMemory_addMemory : (d.addMemory l).addMemory l' = d.addMemory (l ++ l') := by
  rw [addMemory, addMemory, addMemory, List.map_append, ← List.append_assoc]
  rfl

theorem addMemoryOption_eq {a : String} (ha : a ≠ "") : d.addMemoryOption a = d.addMemory [a] := if_pos ha

/-- The options with a value after each name. -/
theorem foldl_addMemoryOption_eq {options : List String} (h : ∀ o ∈ options, o ≠ "") (value : String) :
    options.foldl (fun d option => d.addMemoryOption (option ++ value)) d = d.addMemory (options.map (· ++ value)) := by
  induction options generalizing d with
  | nil => simp
  | cons o options ih =>
    obtain ⟨ho, hoptions⟩ := List.forall_mem_cons.1 h
    rw [List.foldl_cons, addMemoryOption_eq (by simp [ho]), ih hoptions, addMemory_addMemory, List.map_cons, List.singleton_append]

/-- A text after each name, when a variable is set to it. -/
theorem addMemoryFromEnvVar_eq {names : List String} {value : Option String} (hvalue : d.env name = value.getD "") (h : ∀ n ∈ names, n ≠ "") :
    d.addMemoryFromEnvVar name names = d.addMemory ((textOptions names value).map MemoryOption.render) := by
  have hgetenv : d.getenv name = value.getD "" := hvalue
  rw [addMemoryFromEnvVar, hgetenv, textOptions]
  by_cases hempty : value.getD "" = ""
  · have hfilter : value.filter (· ≠ "") = none := by
      cases value with
      | none => rfl
      | some text => simpa [Option.filter] using hempty
    rw [if_neg (not_not.2 hempty), hfilter]
    simp
  · obtain ⟨text, rfl⟩ : ∃ text, value = some text := by
      cases value with
      | none => exact absurd rfl hempty
      | some text => exact ⟨text, rfl⟩
    rw [if_pos hempty, foldl_addMemoryOption_eq h, Option.filter_some_pos (by simpa using hempty)]
    simp [MemoryOption.render, Function.comp_def]

/-- After some memory options. -/
theorem addMemory_addMemoryFromEnvVar {names : List String} {value : Option String} (hvalue : d.env name = value.getD "")
    (h : ∀ n ∈ names, n ≠ "") :
    (d.addMemory l).addMemoryFromEnvVar name names = d.addMemory (l ++ (textOptions names value).map MemoryOption.render) := by
  have hadded := addMemoryFromEnvVar_eq (d := d.addMemory l) hvalue h
  rw [hadded, addMemory_addMemory]

/-- A number after each name, when a variable is set to a quantity. -/
theorem addPercentageFromEnvVar_ok {names : List String} {quantity : Option String} {d' : RunDetails}
    (hvalue : d.env name = quantity.getD "") (hquantity : ∀ q ∈ quantity, q ≠ "") (hnames : ∀ n ∈ names, n ≠ "")
    (h : d.addPercentageFromEnvVar m name names = .ok d') :
    d' = d.addMemory ((numberOptions m names quantity).map MemoryOption.render) := by
  have hgetenv : d.getenv name = quantity.getD "" := hvalue
  rw [addPercentageFromEnvVar, hgetenv] at h
  cases quantity with
  | none =>
    cases h
    simp [numberOptions]
  | some text =>
    rw [Option.getD_some, if_neg (hquantity text rfl)] at h
    rw [numberOptions, Option.bind_some]
    cases hparse : m.parseQuantity text with
    | none =>
      rw [hparse] at h
      cases h
    | some q =>
      rw [hparse] at h
      cases h
      rw [foldl_addMemoryOption_eq hnames]
      simp [MemoryOption.render, Function.comp_def]

end RunDetails

/-! ### Through the variables -/

namespace JvmMemorySpec

variable {s : JvmMemorySpec} {m : Machine} {others : String → String} {d d' : RunDetails}

/-- What the runner finds of a variable of the spec. -/
theorem environ_eq {name : String} (h : name ∈ ownVariables) : s.environ others name = (lookedUp name s.createEnvVars).getD "" :=
  environ_own h _ _

theorem lookedUp_outOfMemory {name : String} (h : name ∈ ownVariables) (o : Option JvmOutOfMemorySpec) :
    lookedUp name ((o.map (·.createEnvVars)).getD []) = none := by
  have hnames : ∀ n ∈ ownVariables, "JVM_OOM_EXIT" ≠ n ∧ "JVM_OOM_HEAP_DUMP" ≠ n := by decide
  obtain ⟨hexit, hdump⟩ := hnames name h
  cases o with
  | none => rfl
  | some o =>
    show lookedUp name o.createEnvVars = none
    rw [JvmOutOfMemorySpec.createEnvVars, lookedUp_append, envOfBool, envOfBool, lookedUp_envOf, lookedUp_envOf, if_neg hexit, if_neg hdump]
    rfl

theorem getD_filter_not (v : Option String) : (v.filter fun x => !decide (x = "")).getD "" = v.getD "" := by
  rw [← getD_filter_ne_empty v]
  simp

/-- Nothing is not a text. -/
theorem getD_of_not_isText {v : Option String} (h : isText v = false) : v.getD "" = "" := by
  cases v with
  | none => rfl
  | some text =>
    by_contra hne
    have hfilter : (some text).filter (· ≠ "") = some text := Option.filter_some_pos (by simpa using hne)
    rw [isText, hfilter] at h
    cases h

theorem ne_of_isText {v : Option String} (h : isText v = true) : v.getD "" ≠ "" := by
  cases v with
  | none => exact absurd h (by decide)
  | some text =>
    rintro rfl
    exact absurd h (by decide)

section

attribute [local simp] lookedUp_append lookedUp_ite getD_filter_not createEnvVars

/-- The sizes of the heap: of the two only when there is not one for both. -/
theorem environ_heap (others : String → String) : s.environ others "JVM_HEAP_SIZE" = s.heapSize.getD "" ∧ (isText s.heapSize = false →
    s.environ others "JVM_INITIAL_HEAP_SIZE" = s.initialHeapSize.getD "" ∧ s.environ others "JVM_MAX_HEAP_SIZE" = s.maxHeapSize.getD "") := by
  have hheap : s.environ others "JVM_HEAP_SIZE" = s.heapSize.getD "" := by
    rw [environ_eq (by decide), createEnvVars, lookedUp_append, lookedUp_outOfMemory (by decide)]
    cases h : isText s.heapSize with
    | true => simp
    | false => simp [getD_of_not_isText h]
  refine ⟨hheap, fun h => ⟨?_, ?_⟩⟩
  · rw [environ_eq (by decide), createEnvVars, lookedUp_append, lookedUp_outOfMemory (by decide)]
    simp [h]
  · rw [environ_eq (by decide), createEnvVars, lookedUp_append, lookedUp_outOfMemory (by decide)]
    simp [h]

/-- The percentages: of the three only when there is not one for all. -/
theorem environ_percentages (others : String → String) : s.environ others "JVM_RAM_PERCENTAGE" = s.percentage.getD "" ∧ (s.percentage = none →
    s.environ others "JVM_INITIAL_RAM_PERCENTAGE" = s.initialRAMPercentage.getD "" ∧
      s.environ others "JVM_MAX_RAM_PERCENTAGE" = s.maxRAMPercentage.getD "" ∧
      s.environ others "JVM_MIN_RAM_PERCENTAGE" = s.minRAMPercentage.getD "") := by
  refine ⟨?_, fun h => ⟨?_, ?_, ?_⟩⟩
  · rw [environ_eq (by decide), createEnvVars, lookedUp_append, lookedUp_outOfMemory (by decide)]
    cases s.percentage with
    | none => simp
    | some q => simp
  · rw [environ_eq (by decide), createEnvVars, lookedUp_append, lookedUp_outOfMemory (by decide)]
    simp [h]
  · rw [environ_eq (by decide), createEnvVars, lookedUp_append, lookedUp_outOfMemory (by decide)]
    simp [h]
  · rw [environ_eq (by decide), createEnvVars, lookedUp_append, lookedUp_outOfMemory (by decide)]
    simp [h]

/-- The other sizes. -/
theorem environ_sizes (others : String → String) : s.environ others "JVM_MAX_RAM" = s.maxRAM.getD "" ∧
    s.environ others "JVM_DIRECT_MEMORY_SIZE" = s.directMemorySize.getD "" ∧
    s.environ others "JVM_STACK_SIZE" = s.stackSize.getD "" ∧
    s.environ others "JVM_METASPACE_SIZE" = s.metaspaceSize.getD "" ∧
    s.environ others "JVM_NATIVE_MEMORY_TRACKING" = s.nativeMemoryTracking.getD "" := by
  refine ⟨?_, ?_, ?_, ?_, ?_⟩
  all_goals
    rw [environ_eq (by decide), createEnvVars, lookedUp_append, lookedUp_outOfMemory (by decide)]
    simp

end

/-! ### What the runner emits for a spec -/

/-- The documented options of the heap. -/
def heapOptions (s : JvmMemorySpec) : List MemoryOption :=
  if isText s.heapSize then textOptions ["-XX:InitialHeapSize=", "-XX:MaxHeapSize="] s.heapSize
  else textOptions ["-XX:InitialHeapSize="] s.initialHeapSize ++ textOptions ["-XX:MaxHeapSize="] s.maxHeapSize

/-- The documented percentages. -/
def percentageOptions (s : JvmMemorySpec) (m : Machine) : List MemoryOption :=
  if s.percentage.isSome then
    numberOptions m ["-XX:InitialRAMPercentage=", "-XX:MinRAMPercentage=", "-XX:MaxRAMPercentage="] s.percentage
  else numberOptions m ["-XX:InitialRAMPercentage="] s.initialRAMPercentage ++
    numberOptions m ["-XX:MaxRAMPercentage="] s.maxRAMPercentage ++ numberOptions m ["-XX:MinRAMPercentage="] s.minRAMPercentage

theorem configureHeap_eq (hd : d.env = s.environ others) :
    d.configureHeap = d.addMemory ((textOptions ["-XX:MaxRAM="] s.maxRAM ++ s.heapOptions).map MemoryOption.render) := by
  obtain ⟨hheap, hsizes⟩ := environ_heap (s := s) others
  have hmax : d.addMemoryFromEnvVar "JVM_MAX_RAM" ["-XX:MaxRAM="] =
      d.addMemory ((textOptions ["-XX:MaxRAM="] s.maxRAM).map MemoryOption.render) :=
    RunDetails.addMemoryFromEnvVar_eq (by rw [hd, (environ_sizes others).1]) (by decide)
  have hgetenv : ∀ l, (d.addMemory l).getenv "JVM_HEAP_SIZE" = s.heapSize.getD "" := by
    intro l
    rw [RunDetails.getenv, RunDetails.env_addMemory, hd, hheap]
  rw [RunDetails.configureHeap, hmax, hgetenv, heapOptions, List.map_append]
  cases h : isText s.heapSize with
  | true =>
    rw [if_pos (ne_of_isText h), if_pos rfl, RunDetails.addMemory_addMemoryFromEnvVar (by rw [hd, hheap]) (by decide)]
  | false =>
    obtain ⟨hinitial, hmaximum⟩ := hsizes h
    rw [if_neg (not_not.2 (getD_of_not_isText h)), if_neg Bool.false_ne_true,
      RunDetails.addMemory_addMemoryFromEnvVar (by rw [hd, hinitial]) (by decide),
      RunDetails.addMemory_addMemoryFromEnvVar (by rw [hd, hmaximum]) (by decide), List.map_append, List.append_assoc]

theorem configurePercentages_ok (hd : d.env = s.environ others) (hquantities : ∀ q ∈ s.quantities, q ≠ "")
    (h : d.configurePercentages m = .ok d') : d' = d.addMemory ((s.percentageOptions m).map MemoryOption.render) := by
  obtain ⟨hpercentage, hpercentages⟩ := environ_percentages (s := s) others
  have hgetenv : d.getenv "JVM_RAM_PERCENTAGE" = s.percentage.getD "" := by rw [RunDetails.getenv, hd, hpercentage]
  have hmem : ∀ o ∈ [s.percentage, s.initialRAMPercentage, s.maxRAMPercentage, s.minRAMPercentage], ∀ q ∈ o, q ≠ "" := by
    intro o ho q hq
    exact hquantities q (List.mem_flatMap.2 ⟨o, ho, by simpa using hq⟩)
  simp only [List.forall_mem_cons] at hmem
  obtain ⟨hone, hinitial, hmax, hmin, -⟩ := hmem
  rw [RunDetails.configurePercentages, hgetenv] at h
  rw [percentageOptions]
  cases hs : s.percentage with
  | some q =>
    have hq : q ≠ "" := hone q hs
    rw [hs, Option.getD_some, if_pos hq] at h
    rw [Option.isSome_some, if_pos rfl, ← hs]
    exact RunDetails.addPercentageFromEnvVar_ok (by rw [hd, hpercentage]) hone (by decide) h
  | none =>
    obtain ⟨hvinitial, hvmax, hvmin⟩ := hpercentages hs
    rw [hs, Option.getD_none, if_neg (by decide)] at h
    obtain ⟨d₁, h₁, h⟩ := bind_eq_ok.1 h
    obtain ⟨d₂, h₂, h₃⟩ := bind_eq_ok.1 h
    have hd₁ := RunDetails.addPercentageFromEnvVar_ok (by rw [hd, hvinitial]) hinitial (by decide) h₁
    have hd₂ := RunDetails.addPercentageFromEnvVar_ok (by rw [hd₁, RunDetails.env_addMemory, hd, hvmax]) hmax (by decide) h₂
    have hd₃ := RunDetails.addPercentageFromEnvVar_ok (by rw [hd₂, hd₁, RunDetails.env_addMemory, RunDetails.env_addMemory, hd, hvmin])
      hmin (by decide) h₃
    rw [Option.isSome_none, if_neg Bool.false_ne_true, List.map_append, List.map_append, ← RunDetails.addMemory_addMemory,
      ← RunDetails.addMemory_addMemory, ← hd₁, ← hd₂, hd₃]

/-- The documented options of other memory. -/
def otherOptions (s : JvmMemorySpec) : List MemoryOption :=
  textOptions ["-XX:MaxDirectMemorySize="] s.directMemorySize ++ textOptions ["-Xss"] s.stackSize ++
    textOptions ["-XX:MetaspaceSize=", "-XX:MaxMetaspaceSize="] s.metaspaceSize

/-- What the runner emits for the tracking of native memory. -/
def trackingOptions (s : JvmMemorySpec) : List String := ["-XX:NativeMemoryTracking=" ++ s.trackingMode, "-XX:+PrintNMTStatistics"]

theorem configureNative_eq (others : String → String) (hd : d.env = s.environ others) :
    d.configureNative = (d.addMemory (s.otherOptions.map MemoryOption.render)).addDiagnostics s.trackingOptions := by
  obtain ⟨-, hdirect, hstack, hmetaspace, htracking⟩ := environ_sizes (s := s) others
  have hfirst : d.addMemoryFromEnvVar "JVM_DIRECT_MEMORY_SIZE" ["-XX:MaxDirectMemorySize="] =
      d.addMemory ((textOptions ["-XX:MaxDirectMemorySize="] s.directMemorySize).map MemoryOption.render) :=
    RunDetails.addMemoryFromEnvVar_eq (by rw [hd, hdirect]) (by decide)
  have htrack : ∀ l, (d.addMemory l).getenvOrDefault "JVM_NATIVE_MEMORY_TRACKING" "summary" = s.trackingMode := by
    intro l
    rw [RunDetails.getenvOrDefault, RunDetails.getenv, RunDetails.env_addMemory, hd, htracking, trackingMode]
    cases s.nativeMemoryTracking with
    | none => rfl
    | some mode =>
      by_cases hmode : mode = ""
      · simp [hmode, Option.filter]
      · simp [hmode, Option.filter]
  have hmode : s.trackingMode ≠ "" := by
    rw [trackingMode]
    cases s.nativeMemoryTracking with
    | none => decide
    | some mode =>
      by_cases hmode : mode = ""
      · simp [hmode, Option.filter]
      · simp [hmode, Option.filter]
  rw [RunDetails.configureNative, hfirst, RunDetails.addMemory_addMemoryFromEnvVar (by rw [hd, hstack]) (by decide),
    RunDetails.addMemory_addMemoryFromEnvVar (by rw [hd, hmetaspace]) (by decide), htrack, otherOptions, List.map_append, List.map_append]
  have htracked : "-XX:NativeMemoryTracking=" ++ s.trackingMode ≠ "" := by simp
  rw [if_pos hmode, RunDetails.addDiagnosticOption_eq (by decide), RunDetails.addDiagnosticOption_eq htracked,
    RunDetails.addDiagnostics_addDiagnostics]
  rfl

/-! ### A whole run -/

theorem notMem_of_mem_textOptions {names : List String} {value : Option String} (h : ∀ n ∈ names, '$' ∉ n.toList) :
    ∀ o ∈ textOptions names value, '$' ∉ o.name.toList := by
  intro o ho
  obtain ⟨text, -, ho⟩ := List.mem_flatMap.1 ho
  obtain ⟨n, hn, rfl⟩ := List.mem_map.1 ho
  exact h n hn

theorem notMem_of_mem_numberOptions {names : List String} {quantity : Option String} (h : ∀ n ∈ names, '$' ∉ n.toList) :
    ∀ o ∈ numberOptions m names quantity, '$' ∉ o.name.toList := by
  intro o ho
  obtain ⟨q, -, ho⟩ := List.mem_flatMap.1 ho
  obtain ⟨n, hn, rfl⟩ := List.mem_map.1 ho
  exact h n hn

/-- No name has a dollar in it. -/
theorem notMem_of_mem_documentedOptions : ∀ o ∈ s.documentedOptions m, '$' ∉ o.name.toList := by
  intro o ho
  simp only [documentedOptions, List.mem_append] at ho
  obtain ((((ho | ho) | ho) | ho) | ho) | ho := ho
  · exact notMem_of_mem_textOptions (by decide) o ho
  · split at ho
    · exact notMem_of_mem_textOptions (by decide) o ho
    · rcases List.mem_append.1 ho with ho | ho
      · exact notMem_of_mem_textOptions (by decide) o ho
      · exact notMem_of_mem_textOptions (by decide) o ho
  · split at ho
    · exact notMem_of_mem_numberOptions (by decide) o ho
    · simp only [List.mem_append] at ho
      obtain (ho | ho) | ho := ho
      · exact notMem_of_mem_numberOptions (by decide) o ho
      · exact notMem_of_mem_numberOptions (by decide) o ho
      · exact notMem_of_mem_numberOptions (by decide) o ho
  · exact notMem_of_mem_textOptions (by decide) o ho
  · exact notMem_of_mem_textOptions (by decide) o ho
  · exact notMem_of_mem_textOptions (by decide) o ho

theorem memoryView_addMemory (d : RunDetails) (l : List String) :
    (d.addMemory l).memoryView = (d.given, d.memoryArgs ++ l.map (expand d.env), d.diagnosticArgs) := rfl

theorem memoryView_addDiagnostics (d : RunDetails) (l : List String) :
    (d.addDiagnostics l).memoryView = (d.given, d.memoryArgs, d.diagnosticArgs ++ l.map (expand d.env)) := rfl

/-- The options for the collector. -/
def collectorOptions (env : String → String) : List String :=
  [RunDetails.collectorOption (env "JVM_GC_COLLECTOR").toLower].filter (· ≠ "")

theorem collectorOption_notMem (collector : String) : '$' ∉ (RunDetails.collectorOption collector).toList := by
  rw [RunDetails.collectorOption]
  repeat' split
  all_goals decide

theorem memoryView_configureCollector (d : RunDetails) :
    d.configureCollector.memoryView = (d.given, d.memoryArgs ++ collectorOptions d.env, d.diagnosticArgs) := by
  have hstable : d.expandEnv (RunDetails.collectorOption (d.env "JVM_GC_COLLECTOR").toLower) = _ :=
    expand_of_notMem _ (collectorOption_notMem _)
  rw [RunDetails.configureCollector, RunDetails.addMemoryOption, collectorOptions, RunDetails.getenv, hstable]
  by_cases h : RunDetails.collectorOption (d.env "JVM_GC_COLLECTOR").toLower = ""
  · simp [h, RunDetails.memoryView]
  · simp [h, RunDetails.memoryView, RunDetails.given]

theorem documentedOptions_eq (s : JvmMemorySpec) (m : Machine) : s.documentedOptions m =
    textOptions ["-XX:MaxRAM="] s.maxRAM ++ s.heapOptions ++ s.percentageOptions m ++ s.otherOptions := by
  simp only [documentedOptions, heapOptions, percentageOptions, otherOptions, List.append_assoc]

/-- **What a run emits** for memory: the option for the collector, then what is documented; the settings, then the tracking. -/
theorem memoryView_createDetails (hquantities : ∀ q ∈ s.quantities, q ≠ "") (h : createDetails m (s.environ others) = .ok d) :
    d.memoryArgs = collectorOptions (s.environ others) ++
        ((s.documentedOptions m).map MemoryOption.render).map (expand (s.environ others)) ∧
      d.diagnosticArgs = (settingsOptions (s.environ others)).map (expand (s.environ others)) ++
        s.trackingOptions.map (expand (s.environ others)) := by
  obtain ⟨d₀, d₁, hpopulated, hoptions, hextra⟩ := createDetails_eq_ok.1 h
  obtain ⟨hview, -⟩ := populatedDetails_ok hpopulated
  rw [RunDetails.configureOptions, RunDetails.configureMachine] at hoptions
  obtain ⟨_, -, hoptions⟩ := bind_eq_ok.1 hoptions
  obtain ⟨d₃, hpercentages, hoptions⟩ := bind_eq_ok.1 hoptions
  cases hoptions
  -- before the sizes of the heap there is the collector only
  have hcollector : (d₀.configureSystem m).configureAllowEndangered.configureResume.configureCollector.memoryView =
      ((s.environ others, mainArguments (s.environ others)), collectorOptions (s.environ others), (settingsOptions (s.environ others)).map (expand (s.environ others))) := by
    have hbefore : (d₀.configureSystem m).configureAllowEndangered.configureResume.memoryView =
        ((s.environ others, mainArguments (s.environ others)), [], (settingsOptions (s.environ others)).map (expand (s.environ others))) := by
      rw [RunDetails.memoryView_configureResume, RunDetails.memoryView_configureAllowEndangered, RunDetails.memoryView_configureSystem, hview]
    simp only [RunDetails.memoryView, RunDetails.given, Prod.mk.injEq] at hbefore
    obtain ⟨⟨henv, hargs⟩, hmemory, hdiagnostic⟩ := hbefore
    rw [memoryView_configureCollector, RunDetails.given, henv, hargs, hmemory, hdiagnostic, List.nil_append]
  generalize (d₀.configureSystem m).configureAllowEndangered.configureResume.configureCollector = d₂ at hcollector hpercentages
  simp only [RunDetails.memoryView, RunDetails.given, Prod.mk.injEq] at hcollector
  obtain ⟨⟨henv, -⟩, hmemory, hdiagnostic⟩ := hcollector
  rw [configureHeap_eq henv] at hpercentages
  obtain rfl := configurePercentages_ok (by exact henv) hquantities hpercentages
  have hnative := configureNative_eq (s := s) others
    (d := (d₂.addMemory ((textOptions ["-XX:MaxRAM="] s.maxRAM ++ s.heapOptions).map MemoryOption.render)).addMemory
      ((s.percentageOptions m).map MemoryOption.render)) henv
  rw [hnative] at hextra
  -- after the tracking no memory option is added
  have hafter := RunDetails.onlyArgs_addArgsFromEnvVar.trans <| RunDetails.onlyArgs_addArgsFromEnvVar.trans <|
    RunDetails.onlyArgs_configureExtra hextra
  have hfinal := hafter.memoryView_eq
  rw [RunDetails.memoryView_configureFailures, RunDetails.addMemory_addMemory, RunDetails.addMemory_addMemory, memoryView_addDiagnostics,
    RunDetails.addMemory] at hfinal
  simp only [RunDetails.memoryView, Prod.mk.injEq] at hfinal
  obtain ⟨-, hmemoryArgs, hdiagnosticArgs⟩ := hfinal
  refine ⟨?_, ?_⟩
  · have hexpand : d₂.expandEnv = expand (s.environ others) := by
      rw [← henv]
      rfl
    rw [hmemoryArgs, hmemory, hexpand, documentedOptions_eq]
    simp only [List.map_append, List.append_assoc]
  · rw [hdiagnosticArgs, hdiagnostic, henv]

/-- Every documented option is shown. -/
theorem shows_render {env : String → String} {o : MemoryOption} (h : '$' ∉ o.name.toList) : o.Shows env (expand env o.render) := by
  cases o with
  | text name value => exact expand_append (t := value) env h
  | number name q =>
    have hnumber : '$' ∉ q.toString.toList := by
      rw [Dec.toString, String.toList_ofList]
      exact Dec.notMem_toList (by decide) (by decide) (by decide) q
    refine ⟨q.toString, ?_, ?_⟩
    · rw [MemoryOption.render, expand_append (s := name) env h, expand_of_notMem env hnumber]
    · rw [Dec.toString, String.toList_ofList]
      exact q.denotes_toList

/-- What is shown for the tracking of native memory: nothing else than what is emitted when it is not off. -/
theorem forall₂_trackingOptions {env : String → String} :
    List.Forall₂ (MemoryOption.Shows env) (s.documentedTracking env) (s.trackingOptions.map (expand env)) ↔ expand env s.trackingMode ≠ "off" := by
  have hmode : (MemoryOption.text "-XX:NativeMemoryTracking=" s.trackingMode).Shows env
      (expand env ("-XX:NativeMemoryTracking=" ++ s.trackingMode)) := by
    have hname : '$' ∉ "-XX:NativeMemoryTracking=".toList := by decide
    exact shows_render (o := .text _ s.trackingMode) hname
  have hstatistics : (MemoryOption.text "-XX:+PrintNMTStatistics" "").Shows env (expand env "-XX:+PrintNMTStatistics") :=
    shows_render (o := .text "-XX:+PrintNMTStatistics" "") (by decide)
  rw [documentedTracking, trackingOptions]
  by_cases hoff : expand env s.trackingMode = "off"
  · simp [hoff, hmode]
  · simp [hoff, hmode, hstatistics]

/-- Are the memory options of the details, after the option for the collector, and their options for tracking, after the settings,
the documented ones? -/
def EmitsDocumented (s : JvmMemorySpec) (m : Machine) (env : String → String) (d : RunDetails) : Prop :=
  ∃ memory tracking, d.memoryArgs = collectorOptions env ++ memory ∧
    d.diagnosticArgs = (settingsOptions env).map (expand env) ++ tracking ∧
    List.Forall₂ (MemoryOption.Shows env) (s.documentedOptions m) memory ∧
    List.Forall₂ (MemoryOption.Shows env) (s.documentedTracking env) tracking

theorem emitsDocumented_of_createDetails (hquantities : ∀ q ∈ s.quantities, q ≠ "") (h : createDetails m (s.environ others) = .ok d) :
    s.EmitsDocumented m (s.environ others) d ↔
      List.Forall₂ (MemoryOption.Shows (s.environ others)) (s.documentedTracking (s.environ others))
        (s.trackingOptions.map (expand (s.environ others))) := by
  obtain ⟨hmemory, hdiagnostic⟩ := memoryView_createDetails hquantities h
  constructor
  · rintro ⟨memory, tracking, -, htracking, -, hshows⟩
    obtain rfl := List.append_cancel_left (hdiagnostic.symm.trans htracking)
    exact hshows
  · intro hshows
    refine ⟨_, _, hmemory, hdiagnostic, ?_, hshows⟩
    rw [List.map_map, List.forall₂_map_right_iff, List.forall₂_same]
    exact fun o ho => shows_render (notMem_of_mem_documentedOptions o ho)

/-- **The runner emits the documented memory options exactly when native memory is tracked.** -/
theorem emits_memory_iff (m : Machine) (s : JvmMemorySpec) (others : String → String) (d : RunDetails)
    (hquantities : ∀ q ∈ s.quantities, q ≠ "") (h : createDetails m (s.environ others) = .ok d) :
    s.EmitsDocumented m (s.environ others) d ↔ expand (s.environ others) s.trackingMode ≠ "off" :=
  (emitsDocumented_of_createDetails hquantities h).trans forall₂_trackingOptions

/-- A heap of one size, in detail. -/
theorem emits_memory_heap : ∃ d, createDetails bareMachine
      (environ { heapSize := some "2g", maxHeapSize := some "1g", nativeMemoryTracking := some "detail" } fun _ => "") = .ok d ∧
    EmitsDocumented { heapSize := some "2g", maxHeapSize := some "1g", nativeMemoryTracking := some "detail" } bareMachine
      (environ { heapSize := some "2g", maxHeapSize := some "1g", nativeMemoryTracking := some "detail" } fun _ => "") d := by
  have hok : ((createDetails bareMachine
      (environ { heapSize := some "2g", maxHeapSize := some "1g", nativeMemoryTracking := some "detail" } fun _ => "")).map fun _ => ()) =
        .ok () := by
    decide +kernel
  obtain ⟨d, hd, -⟩ := map_eq_ok.1 hok
  refine ⟨d, hd, (emits_memory_iff _ _ _ d (by decide) hd).2 (by decide +kernel)⟩

/-- **Statistics of native memory are asked for when it is not tracked.** -/
theorem emits_statistics_off : ∃ d, createDetails bareMachine (environ { nativeMemoryTracking := some "off" } fun _ => "") = .ok d ∧
    "-XX:+PrintNMTStatistics" ∈ d.diagnosticArgs ∧
    ¬ EmitsDocumented { nativeMemoryTracking := some "off" } bareMachine (environ { nativeMemoryTracking := some "off" } fun _ => "") d := by
  have hok : ((createDetails bareMachine (environ { nativeMemoryTracking := some "off" } fun _ => "")).map
      fun d => decide ("-XX:+PrintNMTStatistics" ∈ d.diagnosticArgs)) = .ok true := by
    decide +kernel
  obtain ⟨d, hd, hmem⟩ := map_eq_ok.1 hok
  refine ⟨d, hd, of_decide_eq_true hmem, fun hemits => ?_⟩
  have hshows := (emitsDocumented_of_createDetails (by decide) hd).1 hemits
  exact forall₂_trackingOptions.1 hshows (by decide +kernel)

end JvmMemorySpec

end CoherenceOperator
