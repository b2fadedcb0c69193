import CoherenceOperator.Runner.RunDetails

/-!
# The options of a member

How the runner configures the virtual machine of a member from its environment: its main class (`populateMainClass`), what the
server is (`populateServerDetails`), and everything else (`configureCommand`). The steps of `configureCommand` are in the order of
the source; `configureOptions` is what comes before the options of the resource, `configureExtra` what comes after them.
-/

namespace CoherenceOperator

/-! ### Paths -/

/-- The elements of a path without those that lead nowhere, the last first in `done`. -/
def cleanSegments (rooted : Bool) (done : List (List Char)) : List (List Char) → List (List Char)
  | [] => done.reverse
  | s :: rest =>
    if s = [] ∨ s = ['.'] then cleanSegments rooted done rest
    else if s ≠ ['.', '.'] then cleanSegments rooted (s :: done) rest
    else if done.head?.all (· = ['.', '.']) then cleanSegments rooted (if rooted then done else s :: done) rest
    else cleanSegments rooted done.tail rest

/-- `filepath.Clean`. -/
def cleanPath (path : String) : String :=
  let rooted := path.toList.head? = some '/'
  let clean := List.intercalate ['/'] (cleanSegments rooted [] (path.toList.splitOn '/'))
  if rooted then String.ofList ('/' :: clean) else if clean = [] then "." else String.ofList clean

/-- `filepath.Join`. -/
def joinPath (dir name : String) : String :=
  if dir ≠ "" then cleanPath (dir ++ "/" ++ name) else if name ≠ "" then cleanPath name else ""

/-- `filepath.Base`. -/
def basePath (path : String) : String :=
  let base := ((path.toList.reverse.dropWhile (· = '/')).takeWhile (· ≠ '/')).reverse
  if path = "" then "." else if base = [] then "/" else String.ofList base

/-- `strings.TrimPrefix`. -/
def trimPrefix (s start : String) : String := if hasPrefix s start then String.ofList (s.toList.drop start.toList.length) else s

/-- `strings.Contains`. -/
def containsText (s part : String) : Bool := decide (part.toList <:+: s.toList)

/-- `strings.Split`, by one character. -/
def splitText (separator : Char) (s : String) : List String := (s.toList.splitOn separator).map String.ofList

/-- `readFirstLineFromFile`, of a path that may be a URL. -/
def readFirstLineFromFile (m : Machine) (path : String) : String := m.firstLine (trimPrefix path "file://")

/-- `strings.ReplaceAll(cp, ":", ",")`. -/
def withCommas (cp : String) : String := String.ofList (cp.toList.map fun c => if c = ':' then ',' else c)

/-- The file of the name that the JIB plugin wrote, in the directory of the application or in `/app`. -/
def jibFile (m : Machine) (appDir name : String) : Option String :=
  let path := joinPath appDir name
  let path := if !m.stat path && appDir ≠ "/app" then "/app/" ++ name else path
  if m.stat path ∧ m.size path ≠ 0 then some path else none

namespace RunDetails

variable (m : Machine) (d : RunDetails)

/-! ### The main class and the server -/

/-- The main class of the application: from its variable, or from the file of the JIB plugin. -/
def applicationMain : Option String :=
  match d.lookupEnv "COHERENCE_OPERATOR_MAIN_CLASS" with
  | some main => some main
  | none =>
    let main := (jibFile m (d.getenvOrDefault "COHERENCE_OPERATOR_APP_DIR" "/app") "jib-main-class-file").map (readFirstLineFromFile m)
    main.filter (· ≠ "")

/-- `populateMainClass`. -/
def populateMainClass : RunDetails :=
  let mainClass :=
    if d.appType = "spring" then "org.springframework.boot.loader.PropertiesLauncher"
    else if d.appType = "spring3" then "org.springframework.boot.loader.launch.PropertiesLauncher"
    else "com.oracle.coherence.k8s.Main"
  match d.applicationMain m with
  | some main => { d with mainClass, innerMainClass := main }
  | none =>
    if d.isSpringBoot then { d with mainClass }
    else if d.appType = "helidon" then { d with mainClass, innerMainClass := "io.helidon.microprofile.cdi.Main" }
    else { d with mainClass, innerMainClass := DefaultMain }

/-- The ratio of tracing. -/
def populateTracing : Except Failure RunDetails :=
  let ratio := d.getenv "COHERENCE_TRACING_RATIO"
  if ratio = "" then .ok d
  else match m.parseQuantity ratio with
    | some q => .ok (d.addSystemPropertyArg "coherence.tracing.ratio" q.toString)
    | none => .error (.exit 1)

/-- What management over REST needs. -/
def populateManagement : RunDetails :=
  let d := d.addSystemPropertyArg "coherence.management.http" "all"
  if d.coherenceHome ≠ "" then d.addClasspath (d.coherenceHome ++ "/lib/coherence-management.jar") else d

/-- What metrics need. -/
def populateMetrics : RunDetails :=
  let d := d.addSystemPropertyArg "coherence.metrics.http.enabled" "true"
  if d.coherenceHome ≠ "" then d.addClasspath (d.coherenceHome ++ "/lib/coherence-metrics.jar") else d

/-- The modules on which management and metrics depend. -/
def populateModules : RunDetails :=
  let dm := d.getenv "COHERENCE_OPERATOR_DEPENDENCY_MODULES"
  if dm ≠ "" ∧ m.stat dm ∧ m.isDir dm then d.addClasspath (dm ++ "/*") else d

/-- The options that show the settings. -/
def populateShowSettings : RunDetails :=
  if d.isEnvTrueOrBlank "JVM_SHOW_SETTINGS" then
    ((d.addDiagnosticOption "-XshowSettings:all").addDiagnosticOption "-XX:+PrintCommandLineFlags").addDiagnosticOption
      "-XX:+PrintFlagsFinal"
  else d

/-- `populateServerDetails`. -/
def populateServerDetails : Except Failure RunDetails := do
  let d := d.setSystemPropertyFromEnvVarOrDefault "COHERENCE_ROLE" "coherence.role" "storage"
  let d := d.addSystemPropertyFromEnvVar "COHERENCE_DISTRIBUTED_LOCALSTORAGE" "coherence.distributed.localstorage"
  let d ← d.populateTracing m
  let hasMgmt := d.isEnvTrue "COHERENCE_MANAGEMENT_ENABLED"
  let hasMetrics := d.isEnvTrue "COHERENCE_METRICS_ENABLED"
  let d := if hasMgmt then d.populateManagement else d
  let d := if hasMetrics then d.populateMetrics else d
  let d := if hasMgmt || hasMetrics then d.populateModules m else d
  return d.populateShowSettings

/-! ### The steps of `configureCommand` -/

/-- The standard system properties. -/
def configureStandard : RunDetails :=
  let d := d.addSystemPropertyArg "coherence.ttl" "0"
  let d := d.addSystemPropertyFromEnvVar "COHERENCE_WKA" "coherence.wka"
  let d := d.addSystemPropertyFromEnvVar "COHERENCE_MACHINE" "coherence.machine"
  let d := d.addSystemPropertyFromEnvVar "COHERENCE_MEMBER" "coherence.member"
  let d := d.addSystemPropertyFromEnvVar "COHERENCE_CLUSTER" "coherence.cluster"
  let d := d.addSystemPropertyFromEnvVar "COHERENCE_CACHECONFIG" "coherence.cacheconfig"
  let d := d.addSystemPropertyFromEnvVar "COHERENCE_OPERATOR_IDENTITY" "coherence.operator.identity"
  let d := d.addSystemPropertyFromEnvVar "COHERENCE_OPERATOR_FORCE_EXIT" "coherence.operator.force.exit"
  let d := d.setSystemPropertyFromEnvVarOrDefault "COHERENCE_HEALTH_HTTP_PORT" "coherence.operator.health.port" "6676"
  let d := d.setSystemPropertyFromEnvVarOrDefault "COHERENCE_MANAGEMENT_PORT" "coherence.management.http.port" "30000"
  let d := d.setSystemPropertyFromEnvVarOrDefault "COHERENCE_METRICS_PORT" "coherence.metrics.http.port" "9612"
  d.addVMOption "-XX:+UnlockDiagnosticVMOptions"

/-- The class path of an image of the JIB plugin. -/
def configureJib : RunDetails :=
  let appDir := d.getenvOrDefault "COHERENCE_OPERATOR_APP_DIR" "/app"
  match jibFile m appDir "jib-classpath-file" with
  | some path => d.addClasspath (readFirstLineFromFile m path)
  | none =>
    let d := d.addClasspathIfExists m (appDir ++ "/resources")
    let d := d.addClasspathIfExists m (appDir ++ "/classes")
    let d := d.addJarsToClasspath m (appDir ++ "/classpath")
    d.addJarsToClasspath m (appDir ++ "/libs")

/-- The class path. -/
def configureClasspath : RunDetails :=
  let d := if !d.isBuildPacks m && !d.isSpringBoot && d.isEnvTrueOrBlank "JVM_USE_JIB_CLASSPATH" then d.configureJib m else d
  let d := d.addClasspath (d.utilsDir ++ OperatorJarFileSuffix)
  d.addClasspathIfExists m (d.utilsDir ++ "/config")

/-- Persistence. -/
def configurePersistence : RunDetails :=
  let mode := d.getenvOrDefault "COHERENCE_DISTRIBUTED_PERSISTENCE_MODE" "on-demand"
  let d := d.addSystemPropertyArg "coherence.distributed.persistence-mode" mode
  let d := d.addSystemPropertyFromEnvVar "COHERENCE_DISTRIBUTED_PERSISTENCE_BASE_DIR" "coherence.distributed.persistence.base.dir"
  d.addSystemPropertyFromEnvVar "COHERENCE_DISTRIBUTED_PERSISTENCE_SNAPSHOT_DIR" "coherence.distributed.persistence.snapshot.dir"

/-- What is found at the location of a site or of a rack. -/
def locationText (location : String) : String :=
  if location = "" ∨ location.toLower = "http://" then ""
  else if hasPrefix location "http://" then m.httpGet location
  else if hasPrefix location "https://" then ""
  else readFirstLineFromFile m location

/-- The site: what is set, or what is found at its location. -/
def configureSite : RunDetails × String :=
  let site := d.getenv "COHERENCE_SITE"
  if site = "" then
    let site := locationText m (d.expandEnv (d.getenv "COHERENCE_OPERATOR_SITE_INFO_LOCATION"))
    (if site ≠ "" then d.addSystemPropertyArg "coherence.site" site else d, site)
  else
    let expanded := d.expandEnv site
    (if expanded = site ∨ trimSpace expanded ≠ "" then d.addSystemPropertyArg "coherence.site" expanded else d, expanded)

/-- The rack: what is set, what is found at its location, or the site. -/
def configureRack (site : String) : RunDetails :=
  let rack := d.getenv "COHERENCE_RACK"
  if rack = "" then
    let rack := locationText m (d.expandEnv (d.getenv "COHERENCE_OPERATOR_RACK_INFO_LOCATION"))
    if rack ≠ "" then d.addSystemPropertyArg "coherence.rack" rack
    else if site ≠ "" then d.addSystemPropertyArg "coherence.rack" site
    else d
  else
    let expanded := d.expandEnv rack
    let value := if expanded = "" then site else expanded
    if expanded = rack ∨ trimSpace value ≠ "" then d.addSystemPropertyArg "coherence.rack" value else d

/-- `configureSiteAndRack`. -/
def configureSiteAndRack : RunDetails :=
  if d.getSite then
    let (d, site) := d.configureSite m
    d.configureRack m site
  else d

/-- What the log, the monitor and the override of the configuration are. -/
def configureOverride : RunDetails :=
  let d := d.addSystemPropertyFromEnvVar "COHERENCE_LOG_LEVEL" "coherence.log.level"
  let d := if d.getenv "COHERENCE_ENABLE_IPMONITOR" ≠ "TRUE" then d.addSystemPropertyArg "coherence.ipmonitor.pingtimeout" "0" else d
  let d := d.addSystemPropertyArg "coherence.override" "k8s-coherence-override.xml"
  d.addSystemPropertyFromEnvVar "COHERENCE_OVERRIDE" "coherence.k8s.override"

/-- The command of `checkCoherenceVersion`. -/
def versionCommand (version : String) : List String :=
  let exe := if d.isBuildPacks m then [getBuildpackLauncher m, getBuildpackLauncher m] else [d.getJavaExecutable]
  let listener := "-Dcoherence.operator.springboot.listener=false"
  if d.isSpringBoot then
    exe ++ ["-Dloader.path=" ++ withCommas (d.getClasspath m), listener, "-Dloader.main=com.oracle.coherence.k8s.CoherenceVersion"] ++
      ((d.lookupEnv "COHERENCE_OPERATOR_SPRING_BOOT_FAT_JAR").map fun jar => [JvmOptClassPath, jar]).getD [] ++
      [if d.appType = "spring" then "org.springframework.boot.loader.PropertiesLauncher"
        else "org.springframework.boot.loader.launch.PropertiesLauncher", version]
  else exe ++ [JvmOptClassPath, d.getClasspath m, listener, "com.oracle.coherence.k8s.CoherenceVersion", version]

/-- `checkCoherenceVersion`: only the exit code 99 says that the version is lower. -/
def checkCoherenceVersion (version : String) : Bool :=
  d.isEnvTrue "COHERENCE_OPERATOR_SKIP_VERSION_CHECK" || m.execute (d.versionCommand m version) ≠ 99

/-- `cohPost2206`. -/
def cohPost2206 : RunDetails :=
  if d.useOperatorHealth then d.addArg "-Dcoherence.operator.health.enabled=true"
  else if (d.getenvOrDefault "COHERENCE_OPERATOR_HEALTH_CHECK" "false").toLower = "true" then
    d.addSystemPropertyArg "coherence.operator.health.enabled" "true"
  else
    let d := { d with resolvedOperatorHealth := false }
    let d := d.addSystemPropertyArg "coherence.operator.health.enabled" "false"
    d.setSystemPropertyFromEnvVarOrDefault "COHERENCE_HEALTH_HTTP_PORT" "coherence.health.http.port" "6676"

/-- The health server that the member runs. -/
def configureHealth : RunDetails :=
  let d := { d with resolvedOperatorHealth := true }
  if d.checkCoherenceVersion m "14.1.1.2206.0" then d.cohPost2206
  else if !d.checkCoherenceVersion m "14.1.1.2006.0" && d.checkCoherenceVersion m "14.1.1.2206.0" then d.cohPost2206
  else d

/-- `getSSLPrefixes`: what comes before the URL of a store, and before the path of a file. -/
def getSSLPrefixes (before : String) : String × String :=
  let sslCerts := d.getenvWithPrefix before "_SSL_CERTS"
  if sslCerts = "" then ("file:", "")
  else
    let sslCerts := trimPrefix sslCerts "file:"
    let sslCerts := if sslCerts.toList.getLast? = some '/' then sslCerts else sslCerts ++ "/"
    ("file:" ++ sslCerts, sslCerts)

/-- `addSSLProperty`. -/
def addSSLProperty (before envSuffix property valuePrefix : String) : RunDetails :=
  let value := d.getenvWithPrefix before envSuffix
  if value = "" then d else d.addSystemPropertyArg property (valuePrefix ++ value)

/-- `addSSL`. -/
def addSSL (before prop provider : String) : RunDetails :=
  let (urlPrefix, pathPrefix) := d.getSSLPrefixes before
  let security := "coherence." ++ prop ++ ".security."
  let d := if d.getenvWithPrefix before "_SSL_ENABLED" ≠ "" then
    d.addSystemPropertyArg ("coherence." ++ prop ++ ".http.provider") provider else d
  let d := d.addSSLProperty before "_SSL_KEYSTORE" (security ++ "keystore") urlPrefix
  let d := d.addSSLProperty before "_SSL_KEYSTORE_PASSWORD_FILE" (security ++ "keystore.password") pathPrefix
  let d := d.addSSLProperty before "_SSL_KEY_PASSWORD_FILE" (security ++ "key.password") pathPrefix
  let d := d.addSSLProperty before "_SSL_KEYSTORE_ALGORITHM" (security ++ "keystore.algorithm") ""
  let d := d.addSSLProperty before "_SSL_KEYSTORE_PROVIDER" (security ++ "keystore.provider") ""
  let d := d.addSSLProperty before "_SSL_KEYSTORE_TYPE" (security ++ "keystore.type") ""
  let d := d.addSSLProperty before "_SSL_TRUSTSTORE" (security ++ "truststore") urlPrefix
  let d := d.addSSLProperty before "_SSL_TRUSTSTORE_PASSWORD_FILE" (security ++ "truststore.password") pathPrefix
  let d := d.addSSLProperty before "_SSL_TRUSTSTORE_ALGORITHM" (security ++ "truststore.algorithm") ""
  let d := d.addSSLProperty before "_SSL_TRUSTSTORE_PROVIDER" (security ++ "truststore.provider") ""
  let d := d.addSSLProperty before "_SSL_TRUSTSTORE_TYPE" (security ++ "truststore.type") ""
  if d.getenvWithPrefix before "_SSL_REQUIRE_CLIENT_CERT" ≠ "" then
    d.addSystemPropertyArg ("coherence." ++ prop ++ ".http.auth") "cert"
  else d

/-- `addManagementSSL`. -/
def addManagementSSL : RunDetails := d.addSSL "COHERENCE_MANAGEMENT" "management" "ManagementSSLProvider"

/-- `addMetricsSSL`. -/
def addMetricsSSL : RunDetails := d.addSSL "COHERENCE_METRICS" "metrics" "MetricsSSLProvider"

/-- The property with the services that may be endangered. -/
def allowEndangeredProperty : String := "coherence.operator.statusha.allowendangered"

/-- The services that may be endangered. -/
def configureAllowEndangered : RunDetails :=
  let allowEndangered := d.getenv "COHERENCE_OPERATOR_ALLOW_ENDANGERED"
  if allowEndangered ≠ "" then d.addArg (systemProperty allowEndangeredProperty allowEndangered) else d

/-- The name of the member. -/
def memberName : String := if d.getenv "COHERENCE_MEMBER" = "" then "unknown" else d.getenv "COHERENCE_MEMBER"

/-- The identifier of the pod. -/
def podUID : String := if d.getenv "COHERENCE_OPERATOR_POD_UID" = "" then "unknown" else d.getenv "COHERENCE_OPERATOR_POD_UID"

/-- The directory for what the virtual machine writes. -/
def jvmDir : String := "/jvm/" ++ d.memberName ++ "/" ++ d.podUID

/-- Create the directories for what the virtual machine writes, if there is a place for them. -/
def makeJvmDirs : Except Failure Unit :=
  if m.stat "/jvm" then
    match [d.jvmDir, d.jvmDir ++ "/jfr", d.jvmDir ++ "/heap-dumps"].findSome? m.mkdir with
    | some text => .error (.error text)
    | none => .ok ()
  else .ok ()

/-- Diagnostics, and the services that are resumed. -/
def configureResume : RunDetails :=
  let d := d.addArg (systemProperty "coherence.operator.diagnostics.dir" d.jvmDir)
  let d := d.addVMOption ("-XX:HeapDumpPath=" ++ d.jvmDir ++ "/heap-dumps/" ++ d.memberName ++ "-" ++ d.podUID ++ ".hprof")
  let d := if !d.isEnvTrueOrBlank "COHERENCE_OPERATOR_ALLOW_RESUME" then d.addArg "-Dcoherence.operator.can.resume.services=false"
    else d.addArg "-Dcoherence.operator.can.resume.services=true"
  let svc := d.getenv "COHERENCE_OPERATOR_RESUME_SERVICES"
  if svc ≠ "" then d.addArg ("-Dcoherence.operator.resume.services=base64:" ++ svc) else d

/-- The option for the collector. -/
def collectorOption (collector : String) : String :=
  if collector = "g1" then "-XX:+UseG1GC"
  else if collector = "cms" then "-XX:+UseConcMarkSweepGC"
  else if collector = "parallel" then "-XX:+UseParallelGC"
  else if collector = "serial" then "-XX:+UseSerialGC"
  else if collector = "zgc" then "-XX:+UseZGC"
  else ""

/-- The collector of garbage. -/
def configureCollector : RunDetails := d.addMemoryOption (collectorOption (d.getenv "JVM_GC_COLLECTOR").toLower)

/-- A memory option for each of these beginnings, when a variable is set. -/
def addMemoryFromEnvVar (name : String) (options : List String) : RunDetails :=
  let value := d.getenv name
  if value ≠ "" then options.foldl (fun d option => d.addMemoryOption (option ++ value)) d else d

/-- The sizes of the heap. -/
def configureHeap : RunDetails :=
  let d := d.addMemoryFromEnvVar "JVM_MAX_RAM" ["-XX:MaxRAM="]
  if d.getenv "JVM_HEAP_SIZE" ≠ "" then d.addMemoryFromEnvVar "JVM_HEAP_SIZE" ["-XX:InitialHeapSize=", "-XX:MaxHeapSize="]
  else
    let d := d.addMemoryFromEnvVar "JVM_INITIAL_HEAP_SIZE" ["-XX:InitialHeapSize="]
    d.addMemoryFromEnvVar "JVM_MAX_HEAP_SIZE" ["-XX:MaxHeapSize="]

/-- A memory option with a number for each of these beginnings, when a variable is set. -/
def addPercentageFromEnvVar (name : String) (options : List String) : Except Failure RunDetails :=
  let value := d.getenv name
  if value = "" then .ok d
  else match m.parseQuantity value with
    | some q => .ok (options.foldl (fun d option => d.addMemoryOption (option ++ q.toString)) d)
    | none => .error (.exit 1)

/-- The percentages of the memory. -/
def configurePercentages : Except Failure RunDetails :=
  if d.getenv "JVM_RAM_PERCENTAGE" ≠ "" then
    d.addPercentageFromEnvVar m "JVM_RAM_PERCENTAGE"
      ["-XX:InitialRAMPercentage=", "-XX:MinRAMPercentage=", "-XX:MaxRAMPercentage="]
  else do
    let d ← d.addPercentageFromEnvVar m "JVM_INITIAL_RAM_PERCENTAGE" ["-XX:InitialRAMPercentage="]
    let d ← d.addPercentageFromEnvVar m "JVM_MAX_RAM_PERCENTAGE" ["-XX:MaxRAMPercentage="]
    d.addPercentageFromEnvVar m "JVM_MIN_RAM_PERCENTAGE" ["-XX:MinRAMPercentage="]

/-- Memory that is not of the heap, and the tracking of native memory. -/
def configureNative : RunDetails :=
  let d := d.addMemoryFromEnvVar "JVM_DIRECT_MEMORY_SIZE" ["-XX:MaxDirectMemorySize="]
  let d := d.addMemoryFromEnvVar "JVM_STACK_SIZE" ["-Xss"]
  let d := d.addMemoryFromEnvVar "JVM_METASPACE_SIZE" ["-XX:MetaspaceSize=", "-XX:MaxMetaspaceSize="]
  let track := d.getenvOrDefault "JVM_NATIVE_MEMORY_TRACKING" "summary"
  if track ≠ "" then (d.addDiagnosticOption ("-XX:NativeMemoryTracking=" ++ track)).addDiagnosticOption "-XX:+PrintNMTStatistics"
  else d

/-- The option that attaches a debugger. -/
def debugArgs : String :=
  if d.isEnvTrue "JVM_DEBUG_ENABLED" then
    let suspend := if d.isEnvTrue "JVM_DEBUG_SUSPEND" then "y" else "n"
    let port := if d.getenv "JVM_DEBUG_PORT" = "" then "5005" else d.getenv "JVM_DEBUG_PORT"
    let attach := d.getenv "JVM_DEBUG_ATTACH"
    if attach = "" then "-agentlib:jdwp=transport=dt_socket,server=y,suspend=" ++ suspend ++ ",address=*:" ++ port
    else "-agentlib:jdwp=transport=dt_socket,server=n,address=" ++ attach ++ ",suspend=" ++ suspend ++ ",timeout=10000"
  else ""

/-- What the virtual machine does when it fails, and the debugger. -/
def configureFailures : RunDetails :=
  let debug := d.debugArgs
  let d := d.addVMOption ("-XX:ErrorFile=" ++ d.jvmDir ++ "/hs-err-" ++ d.memberName ++ "-" ++ d.podUID ++ ".log")
  let d := if d.isEnvTrueOrBlank "JVM_OOM_HEAP_DUMP" then d.addVMOption "-XX:+HeapDumpOnOutOfMemoryError" else d
  let d := if d.isEnvTrueOrBlank "JVM_OOM_EXIT" then d.addVMOption "-XX:+ExitOnOutOfMemoryError" else d
  let d := if d.isEnvTrueOrBlank "JVM_USE_CONTAINER_LIMITS" then d.addVMOption "-XX:+UseContainerSupport" else d
  d.addArgs [debug]

/-- The options in a variable, which are separated by blanks. -/
def addArgsFromEnvVar (name : String) : RunDetails :=
  let args := d.getenv name
  if args ≠ "" then d.addArgs (splitText ' ' args) else d

/-! ### `configureCommand` -/

/-- What comes before the services that may be endangered. -/
def configureSystem : RunDetails :=
  ((((((d.configureStandard.configureClasspath m).configurePersistence).configureSiteAndRack m).configureOverride).configureHealth
    m).addManagementSSL).addMetricsSSL

/-- What comes after them, and before the options of the resource. -/
def configureMachine : Except Failure RunDetails := do
  d.makeJvmDirs m
  let d ← d.configureResume.configureCollector.configureHeap.configurePercentages m
  return d.configureNative.configureFailures.addArgsFromEnvVar "JVM_GC_ARGS"

/-- `configureCommand` before the options of the resource. -/
def configureOptions : Except Failure RunDetails := (d.configureSystem m).configureAllowEndangered.configureMachine m

end RunDetails

end CoherenceOperator
