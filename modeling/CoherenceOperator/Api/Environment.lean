import CoherenceOperator.Api.Builder

/-!
# The environment of a member

The variables that the operator hands to the Coherence container: those that every container gets, those that tell the
member about its resource (`createDefaultEnv`), and those of the application, the virtual machine and of
Coherence itself. A field of a spec that is not set gives no variable.
-/

namespace CoherenceOperator

/-- The variable with the options of the virtual machine. -/
def EnvVarJdkOptions : String := "JDK_JAVA_OPTIONS"

/-- The variable with the services that are resumed. -/
def EnvVarOperatorResumeServices : String := "COHERENCE_OPERATOR_RESUME_SERVICES"

/-- The directory of the utilities. -/
def VolumeMountPathUtils : String := "/coherence-operator/utils"

/-! ### Variables of a field -/

/-- A variable for a pointer that is not nil. -/
def envOf (name : String) (v : Option String) : List EnvVar := v.toList.map fun s => { name, value := s }

/-- A variable for a string that is neither nil nor empty. -/
def envOfText (name : String) (v : Option String) : List EnvVar := envOf name (v.filter (· ≠ ""))

/-- A variable for a list that is not empty. -/
def envOfList (name separator : String) (l : List String) : List EnvVar :=
  match l with
  | [] => []
  | l => [{ name, value := separator.intercalate l }]

/-- A variable for a flag that is set. -/
def envOfFlag (name : String) (b : Option Bool) : List EnvVar :=
  if b = some true then [{ name, value := "true" }] else []

/-- `BoolPtrToString`, of a pointer that is not nil. -/
def envOfBool (name : String) (b : Option Bool) : List EnvVar := envOf name (b.map toString)

/-- `Int32ToString`. -/
def int32ToString (n : ℤ) : String := s!"{n}"

/-- The white space of `strings.TrimSpace`. -/
def isSpace (c : Char) : Bool :=
  c.toNat ∈ [0x09, 0x0A, 0x0B, 0x0C, 0x0D, 0x20, 0x85, 0xA0, 0x1680, 0x2028, 0x2029, 0x202F, 0x205F, 0x3000] ||
    (0x2000 ≤ c.toNat && c.toNat ≤ 0x200A)

/-- `strings.TrimSpace`. -/
def trimSpace (s : String) : String :=
  String.ofList ((s.toList.dropWhile isSpace).reverse.dropWhile isSpace).reverse

/-! ### The variables of every container -/

/-- `GetWKA`. -/
def CoherenceResource.getWKA (d : CoherenceResource) : String :=
  match d.spec.coherence.bind (·.wka) with
  | none => s!"{d.name}-wka.{d.ns}.svc"
  | some wka =>
    if wka.addresses ≠ [] then ",".intercalate wka.addresses
    else if wka.deployment = "" then s!"{d.name}-wka.{d.ns}.svc"
    else
      let ns := if wka.ns ≠ "" then wka.ns else d.ns
      s!"{wka.deployment}-wka.{ns}.svc"

/-- `CreateCommonEnv`. -/
def CoherenceResource.createCommonEnv (d : CoherenceResource) : List EnvVar :=
  [ { name := "COHERENCE_MACHINE", valueFrom := some (.fieldRef "spec.nodeName") },
    { name := "COHERENCE_MEMBER", valueFrom := some (.fieldRef "metadata.name") },
    { name := "COHERENCE_OPERATOR_POD_UID", valueFrom := some (.fieldRef "metadata.uid") },
    { name := "COHERENCE_ROLE", value := d.roleName } ] ++
    envOfText "COHERENCE_CLUSTER" (some d.clusterName)

/-- The location of the site or of the rack of a node. -/
def locationURL (what : String) (nodeLabel : Option String) : String :=
  let url := s!"http://$(COHERENCE_OPERATOR_HOST)/{what}/$(COHERENCE_MACHINE)"
  match nodeLabel with
  | none => url
  | some l => s!"{url}?nodeLabel={l}"

/-- The variables of `CreateDefaultEnv` before those of the StatefulSet. -/
def CoherenceResource.createMemberEnv (d : CoherenceResource) : List EnvVar :=
  d.createCommonEnv ++
  [ { name := "COHERENCE_WKA", value := d.getWKA },
    { name := "COHERENCE_OPERATOR_HOST"
      valueFrom := some (.secretKeyRef "coherence-operator-config" "operatorhost" (some true)) },
    { name := "COHERENCE_OPERATOR_SITE_INFO_LOCATION", value := locationURL "site" d.spec.siteLabel },
    { name := "COHERENCE_OPERATOR_RACK_INFO_LOCATION", value := locationURL "rack" d.spec.rackLabel },
    { name := "COHERENCE_OPERATOR_UTIL_DIR", value := VolumeMountPathUtils },
    { name := "COHERENCE_OPERATOR_REQUEST_TIMEOUT"
      value := int32ToString (d.spec.operatorRequestTimeout.getD 120) },
    { name := "COHERENCE_HEALTH_HTTP_PORT", value := int32ToString d.spec.getHealthPort },
    { name := "COHERENCE_TTL", value := "0" },
    { name := "COHCTL_HOME", value := VolumeMountPathUtils },
    { name := "COHERENCE_OPERATOR_RESOURCE_NAME", value := d.name } ] ++
  if d.metadata.annotations.lookup "com.oracle.coherence.operator/feature.suspend" = some "true" then
    [{ name := "COHERENCE_OPERATOR_IDENTITY", value := d.name ++ "@" ++ d.ns }]
  else []

/-- `CreateDefaultEnv`, given what the services to resume are encoded as. -/
def CoherenceResource.createDefaultEnv (d : CoherenceResource) (services : Option String) : List EnvVar :=
  d.createMemberEnv ++
    envOfBool "COHERENCE_OPERATOR_ALLOW_RESUME" (d.statefulSetSpec.bind (·.resumeServicesOnStartup)) ++
    envOf EnvVarOperatorResumeServices services

/-! ### The application -/

/-- The variables of `CloudNativeBuildPackSpec`. -/
def CloudNativeBuildPackSpec.env (s : CloudNativeBuildPackSpec) : List EnvVar :=
  envOfBool "COHERENCE_OPERATOR_CNBP_ENABLED" s.enabled ++ envOf "COHERENCE_OPERATOR_CNBP_LAUNCHER" s.launcher

namespace ApplicationSpec

/-- The variables of the fields. -/
def env (a : ApplicationSpec) : List EnvVar :=
  envOf "COHERENCE_OPERATOR_APP_TYPE" a.type ++
    envOf "COHERENCE_OPERATOR_MAIN_CLASS" a.main ++
    envOf "COHERENCE_OPERATOR_APP_DIR" a.workingDir ++
    envOfList "COHERENCE_OPERATOR_MAIN_ARGS" " " a.args ++
    ((a.cloudNativeBuildPack.map (·.env)).getD []) ++
    envOf "COHERENCE_OPERATOR_SPRING_BOOT_FAT_JAR" a.springBootFatJar

/-- Does the container run the entry point of its image? -/
def usesImageEntryPoint (a : ApplicationSpec) : Bool :=
  a.cloudNativeBuildPack.bind (·.enabled) = some true || a.useImageEntryPoint = some true

/-- Are the arguments of the virtual machine handed over in `JDK_JAVA_OPTIONS`? -/
def usesJdkJavaOptions (a : ApplicationSpec) : Bool := a.usesImageEntryPoint && a.useJdkJavaOptions.getD true

end ApplicationSpec

/-- `fmt.Sprintf(ArgumentFileNamePattern, VolumeMountPathUtils, os.PathSeparator, name)`. -/
def argumentFile (name : String) : String := s!"@{VolumeMountPathUtils}/{name}"

/-- The first variable with a name. -/
def findEnv (name : String) (env : List EnvVar) : Option EnvVar := env.find? fun e => e.name = name

/-- Put a variable in place of the first with its name, or at the end. -/
def setEnv (v : EnvVar) : List EnvVar → List EnvVar
  | [] => [v]
  | e :: env => if e.name = v.name then v :: env else e :: setEnv v env

/-- `JDK_JAVA_OPTIONS` with the file of the arguments after what is there. -/
def addArgumentsToJdkOptions (file : String) (env : List EnvVar) : List EnvVar :=
  let existing := ((findEnv EnvVarJdkOptions env).map (·.value)).getD ""
  setEnv { name := EnvVarJdkOptions, value := trimSpace (existing ++ " " ++ file) } env

/-- `ApplicationSpec.UpdateCoherenceContainer`. -/
def ApplicationSpec.updateCoherenceContainer (app : Option ApplicationSpec) (c : Container) : Container :=
  let javaCommand := ["java", argumentFile "coherence-container-args.txt"]
  match app with
  | none => if c.command = [] then { c with command := javaCommand } else c
  | some a =>
    let c := { c with
      command := if a.entryPoint ≠ [] then a.entryPoint else c.command
      env := c.env ++ a.env
      workingDir := a.workingDir.getD c.workingDir }
    if a.usesImageEntryPoint then
      let file := argumentFile "coherence-entrypoint-args.txt"
      let env := if a.usesJdkJavaOptions then addArgumentsToJdkOptions file c.env else c.env
      let alternate := (a.alternateJdkJavaOptions.filter (· ≠ "")).toList.map fun name =>
        ({ name, value := trimSpace file } : EnvVar)
      { c with env := env ++ alternate, args := a.args }
    else if c.command = [] then { c with command := javaCommand }
    else c

/-! ### The virtual machine -/

/-- `JvmDebugSpec.CreateEnvVars`. -/
def JvmDebugSpec.createEnvVars (s : JvmDebugSpec) : List EnvVar :=
  if s.enabled = some true then
    [ { name := "JVM_DEBUG_ENABLED", value := "true" },
      { name := "JVM_DEBUG_PORT", value := int32ToString (s.port.getD 5005) } ] ++
      envOfFlag "JVM_DEBUG_SUSPEND" s.suspend ++ envOf "JVM_DEBUG_ATTACH" s.attach
  else []

/-- `JvmDebugSpec.UpdateCoherenceContainer`. -/
def JvmDebugSpec.updateCoherenceContainer (s : JvmDebugSpec) (c : Container) : Container :=
  if s.enabled = some true then
    { c with
      ports := c.ports ++ [{ name := "debug-port", containerPort := s.port.getD 5005 }]
      env := c.env ++ s.createEnvVars }
  else c

/-- `JvmGarbageCollectorSpec.CreateEnvVars`. -/
def JvmGarbageCollectorSpec.createEnvVars (s : JvmGarbageCollectorSpec) : List EnvVar :=
  envOfList "JVM_GC_ARGS" " " s.args ++ envOfText "JVM_GC_COLLECTOR" s.collector

/-- `JvmOutOfMemorySpec.CreateEnvVars`. -/
def JvmOutOfMemorySpec.createEnvVars (s : JvmOutOfMemorySpec) : List EnvVar :=
  envOfBool "JVM_OOM_EXIT" s.exit ++ envOfBool "JVM_OOM_HEAP_DUMP" s.heapDump

/-- Is the string neither nil nor empty? -/
def isText (v : Option String) : Bool := (v.filter (· ≠ "")).isSome

/-- `JvmMemorySpec.CreateEnvVars`. -/
def JvmMemorySpec.createEnvVars (s : JvmMemorySpec) : List EnvVar :=
  (if isText s.heapSize then envOfText "JVM_HEAP_SIZE" s.heapSize
    else envOfText "JVM_INITIAL_HEAP_SIZE" s.initialHeapSize ++ envOfText "JVM_MAX_HEAP_SIZE" s.maxHeapSize) ++
    envOfText "JVM_MAX_RAM" s.maxRAM ++
    (if s.percentage.isSome then envOf "JVM_RAM_PERCENTAGE" s.percentage
    else envOf "JVM_INITIAL_RAM_PERCENTAGE" s.initialRAMPercentage ++
      envOf "JVM_MAX_RAM_PERCENTAGE" s.maxRAMPercentage ++ envOf "JVM_MIN_RAM_PERCENTAGE" s.minRAMPercentage) ++
    envOfText "JVM_DIRECT_MEMORY_SIZE" s.directMemorySize ++
    envOfText "JVM_STACK_SIZE" s.stackSize ++
    envOfText "JVM_METASPACE_SIZE" s.metaspaceSize ++
    envOfText "JVM_NATIVE_MEMORY_TRACKING" s.nativeMemoryTracking ++
    ((s.onOutOfMemory.map (·.createEnvVars)).getD [])

/-- What `JVMSpec.UpdatePodTemplate` does to the Coherence container. -/
def JVMSpec.updateCoherenceContainer (jvm : Option JVMSpec) (c : Container) : Container :=
  let j := jvm.getD {}
  let c := match j.debug with
    | some debug => debug.updateCoherenceContainer c
    | none => c
  let c := if j.java8 = some true then { c with command := [VolumeMountPathUtils ++ "/runner", "server"], args := [] } else c
  { c with env := c.env ++
      envOfList "JVM_EXTRA_CLASSPATH" ":" j.classpath ++
      envOfList "JVM_ARGS" " " j.args ++
      ((j.memory.map (·.createEnvVars)).getD []) ++
      ((j.gc.map (·.createEnvVars)).getD []) ++
      [{ name := "JVM_USE_CONTAINER_LIMITS", value := toString (j.useContainerLimits.getD true) }] ++
      envOfBool "JVM_USE_JIB_CLASSPATH" j.useJibClasspath }

/-! ### Coherence -/

/-- `SSLSpec.CreateEnvVars`. -/
def SSLSpec.createEnvVars (s : SSLSpec) (name secretMount : String) : List EnvVar :=
  envOfFlag (name ++ "_SSL_ENABLED") s.enabled ++
    envOf (name ++ "_SSL_CERTS") ((s.secrets.filter (· ≠ "")).map fun _ => secretMount) ++
    envOfText (name ++ "_SSL_KEYSTORE") s.keyStore ++
    envOfText (name ++ "_SSL_KEYSTORE_PASSWORD_FILE") s.keyStorePasswordFile ++
    envOfText (name ++ "_SSL_KEY_PASSWORD_FILE") s.keyPasswordFile ++
    envOfText (name ++ "_SSL_KEYSTORE_ALGORITHM") s.keyStoreAlgorithm ++
    envOfText (name ++ "_SSL_KEYSTORE_PROVIDER") s.keyStoreProvider ++
    envOfText (name ++ "_SSL_KEYSTORE_TYPE") s.keyStoreType ++
    envOfText (name ++ "_SSL_TRUSTSTORE") s.trustStore ++
    envOfText (name ++ "_SSL_TRUSTSTORE_PASSWORD_FILE") s.trustStorePasswordFile ++
    envOfText (name ++ "_SSL_TRUSTSTORE_ALGORITHM") s.trustStoreAlgorithm ++
    envOfText (name ++ "_SSL_TRUSTSTORE_PROVIDER") s.trustStoreProvider ++
    envOfText (name ++ "_SSL_TRUSTSTORE_TYPE") s.trustStoreType ++
    envOfFlag (name ++ "_SSL_REQUIRE_CLIENT_CERT") s.requireClientCert

/-- `PortSpecWithSSL.CreateEnvVars`. -/
def PortSpecWithSSL.createEnvVars (port : Option PortSpecWithSSL) (name secretMount : String) (defaultPort : ℤ) :
    List EnvVar :=
  match port.filter (·.enabled = some true) with
  | none => [{ name := name ++ "_ENABLED", value := "false" }]
  | some p =>
    [{ name := name ++ "_ENABLED", value := "true" }] ++ ((p.ssl.map (·.createEnvVars name secretMount)).getD []) ++
      [{ name := name ++ "_PORT", value := int32ToString (p.port.getD defaultPort) }]

/-- `GetLocalPorts`. -/
def CoherenceSpec.getLocalPorts (s : Option CoherenceSpec) : ℤ × String :=
  ((s.bind (·.localPort)).getD 7575, ((s.bind (·.localPortAdjust)).map (·.toString)).getD "7576")

/-- The local ports of a member. -/
def CoherenceSpec.localPortEnv (s : Option CoherenceSpec) : List EnvVar :=
  [ { name := "COHERENCE_LOCALPORT", value := int32ToString (CoherenceSpec.getLocalPorts s).1 },
    { name := "COHERENCE_LOCALPORT_ADJUST", value := (CoherenceSpec.getLocalPorts s).2 } ]

/-- Is the member storage enabled? A job without a value is not. -/
def CoherenceResource.storageEnv (d : CoherenceResource) (enabled : Option Bool) : List EnvVar :=
  match enabled with
  | some b => [{ name := "COHERENCE_DISTRIBUTED_LOCALSTORAGE", value := toString b }]
  | none => if d.type = .job then [{ name := "COHERENCE_DISTRIBUTED_LOCALSTORAGE", value := "false" }] else []

/-- The variables of `PersistenceSpec.AddVolumeMounts`. -/
def PersistenceSpec.env (p : PersistenceSpec) : List EnvVar :=
  (if p.storage.volume.isSome || p.storage.persistentVolumeClaim.isSome then
    [{ name := "COHERENCE_DISTRIBUTED_PERSISTENCE_BASE_DIR", value := "/coherence-operator/persistence" }] else []) ++
    if p.snapshots.any fun s => s.volume.isSome || s.persistentVolumeClaim.isSome then
      [{ name := "COHERENCE_DISTRIBUTED_PERSISTENCE_SNAPSHOT_DIR", value := "/coherence-operator/snapshot" }]
    else []

/-- The variables of `CoherenceSpec.UpdatePodTemplateSpec`. -/
def CoherenceResource.coherenceEnv (d : CoherenceResource) : List EnvVar :=
  match d.spec.coherence with
  | none =>
    [ { name := "COHERENCE_MANAGEMENT_ENABLED", value := "false" },
      { name := "COHERENCE_METRICS_ENABLED", value := "false" } ] ++
      d.storageEnv none ++ CoherenceSpec.localPortEnv none ++
      [{ name := "COHERENCE_IPMONITOR_PINGTIMEOUT", value := "0" }]
  | some s =>
    envOfText "COHERENCE_CACHECONFIG" s.cacheConfig ++
      envOfText "COHERENCE_OVERRIDE" s.overrideConfig ++
      CoherenceSpec.localPortEnv s ++
      envOf "COHERENCE_LOG_LEVEL" (s.logLevel.map int32ToString) ++
      d.storageEnv s.storageEnabled ++
      envOfBool "COHERENCE_OPERATOR_SKIP_VERSION_CHECK" s.skipVersionCheck ++
      envOf "COHERENCE_TRACING_RATIO" s.tracing ++
      envOfList "COHERENCE_OPERATOR_ALLOW_ENDANGERED" "," s.allowEndangeredForStatusHA ++
      (if s.enableIPMonitor = some true then [{ name := "COHERENCE_ENABLE_IPMONITOR", value := "TRUE" }]
        else [{ name := "COHERENCE_IPMONITOR_PINGTIMEOUT", value := "0" }]) ++
      PortSpecWithSSL.createEnvVars s.management "COHERENCE_MANAGEMENT" "/coherence-operator/coherence/certs/management" 30000 ++
      PortSpecWithSSL.createEnvVars s.metrics "COHERENCE_METRICS" "/coherence-operator/coherence/certs/metrics" 9612 ++
      envOf "COHERENCE_DISTRIBUTED_PERSISTENCE_MODE" (s.persistence.bind (·.mode)) ++
      ((s.persistence.map (·.env)).getD [])

end CoherenceOperator
