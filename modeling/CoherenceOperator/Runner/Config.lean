import CoherenceOperator.Runner.Configure

/-!
# The files of arguments

`createsFiles`: the runner configures the command of the member and writes, among other files, the one with all arguments of the
virtual machine. It has the option for the class path, the class path, the options, the main class and the arguments of the
application, each on a line of its own.
-/

namespace CoherenceOperator

namespace RunDetails

variable (m : Machine) (d : RunDetails)

/-! ### Managed health mutators -/

/-- `createHealthSecurityCheckCommand`. -/
def healthSecurityCheckCommand : Except Failure (List String) :=
  let supportClass := "com.oracle.coherence.k8s.HealthSecuritySupport"
  if d.isBuildPacks m then
    .error (.error "managed secure health mutators do not support the Cloud Native Buildpack launcher")
  else if d.isSpringBoot then
    match d.lookupEnv "COHERENCE_OPERATOR_SPRING_BOOT_FAT_JAR" with
    | none => .error (.error "managed secure health mutators require a configured Spring Boot fat JAR")
    | some jar => .ok [d.getJavaExecutable, "-Dloader.path=" ++ withCommas (d.getClasspath m),
        "-Dcoherence.operator.springboot.listener=false", "-Dloader.main=" ++ supportClass, JvmOptClassPath, jar,
        if d.appType = "spring" then "org.springframework.boot.loader.PropertiesLauncher"
        else "org.springframework.boot.loader.launch.PropertiesLauncher"]
  else .ok [d.getJavaExecutable, JvmOptClassPath, d.getClasspath m, supportClass]

/-- The options that a user gives the virtual machine. -/
def userArgs : String :=
  d.getenv "JVM_ARGS" ++ " " ++ d.getenv "JAVA_TOOL_OPTIONS" ++ " " ++ d.getenv "JDK_JAVA_OPTIONS" ++ " " ++ d.getenv "_JAVA_OPTIONS"

/-- The login configuration: written for the packaged validator, required of the application otherwise. -/
def configureLogin (mode : String) : Except Failure RunDetails :=
  let property := "java.security.auth.login.config"
  let credential (name : String) : String := "/coherence/health-auth/" ++ name ++ "/value"
  if mode = "packaged" then
    if containsText d.userArgs property then .error (.error "existing JAAS configuration requires jaas.mode=existing")
    else if ["username", "password"].any fun name => m.content (credential name) = "" then
      .error (.error "health credential file unavailable")
    else
      let name := joinPath d.utilsDir "health-jaas.conf"
      match m.write name with
      | some _ => .error (.error "cannot write health JAAS configuration")
      | none => .ok (d.addSystemPropertyArg property name)
  else if !containsText d.userArgs property then
    .error (.error "existing mode requires an explicit JAAS login configuration")
  else .ok d

/-- The path of a file of the server's identity. -/
def healthFile (ssl : SSLSpec) (path : String) : Except Failure String :=
  let secret := ssl.secrets.getD "" ≠ ""
  if secret ∧ (basePath path ≠ path ∨ path = "." ∨ path = "..") then .error (.error "invalid health store Secret key")
  else
    let path := if secret then joinPath "/coherence/health-tls" path else path
    if m.stat path ∧ m.isRegular path then .ok path else .error (.error "health TLS file unavailable")

/-- A property of the security of the health server. -/
def addHealthSecurity (name value : String) : RunDetails := d.addSystemPropertyArg ("coherence.health.security." ++ name) value

/-- A property of the security of the health server, when there is a value. -/
def addHealthSecurityIfSet (name : String) (value : Option String) : RunDetails :=
  match value with
  | some value => d.addHealthSecurity name value
  | none => d

/-- The identity of the health server. -/
def configureHealthTLS (ssl : SSLSpec) : Except Failure RunDetails := do
  let keyStore ← healthFile m ssl (ssl.keyStore.getD "")
  let d := d.addHealthSecurity "keystore" ("file:" ++ keyStore)
  let keyStorePassword ← healthFile m ssl (ssl.keyStorePasswordFile.getD "")
  let d := d.addHealthSecurity "keystore.password" keyStorePassword
  let keyPassword ← healthFile m ssl (ssl.keyPasswordFile.getD "")
  let d := d.addHealthSecurity "key.password" keyPassword
  let d := d.addHealthSecurityIfSet "keystore.type" ssl.keyStoreType
  let d := d.addHealthSecurityIfSet "keystore.algorithm" ssl.keyStoreAlgorithm
  let d := d.addHealthSecurityIfSet "keystore.provider" ssl.keyStoreProvider
  let d := d.addSystemPropertyArg "coherence.health.http.mutators.enabled" "true"
  let d := d.addSystemPropertyArg "coherence.health.http.auth" "basic"
  return d.addSystemPropertyArg "coherence.health.http.provider" "HealthSSLProvider"

/-- What a secured connection asks for. -/
def configureSecureHealth (connection : HealthMutatorConnection) : Except Failure RunDetails :=
  let mode := if connection.jaas.getD "" ≠ "" then connection.jaas.getD "" else "packaged"
  if d.resolvedOperatorHealth then .error (.error "managed secure health mutators require the Coherence health server")
  else do
    let cmd ← d.healthSecurityCheckCommand m
    if m.execute cmd ≠ 0 then .error (.error "coherence health server security capability could not be established")
    else if ["coherence.health.", "coherence.health.security."].any fun property => containsText d.userArgs ("-D" ++ property) then
      .error (.error "direct health properties conflict with managed security")
    else do
      let d ← d.configureLogin m mode
      d.configureHealthTLS m (connection.serverTLS.getD {})

/-- `configureHealthMutators`. -/
def configureHealthMutators : Except Failure RunDetails :=
  let raw := d.getenv HealthMutatorEnv
  if raw = "" then .ok d
  else match m.parseConnection raw with
    | none => .error (.error "invalid managed health configuration")
    | some connection =>
      match connection.validate with
      | .error text => .error (.error text)
      | .ok _ => if connection.secure then d.configureSecureHealth m connection else .ok d

/-! ### `configureCommand` -/

/-- What comes after the options of the resource. -/
def configureExtra : Except Failure RunDetails := (d.addArgs m.extraJvmArgs).configureHealthMutators m

/-- `configureCommand`. -/
def configureCommand : Except Failure RunDetails := do
  let d ← d.configureOptions m
  (d.addArgsFromEnvVar "JVM_ARGS").configureExtra m

/-! ### `createsFiles` -/

/-- The arguments of the application. -/
def populateMainArgs : RunDetails :=
  match d.lookupEnv "COHERENCE_OPERATOR_MAIN_ARGS" with
  | none => d
  | some ma => { d with mainArgs := d.mainArgs ++ (splitText ' ' ma).map d.expandEnv }

/-- The content of the class path file. -/
def classPathText : Except Failure String :=
  if d.isSpringBoot then
    match d.lookupEnv "COHERENCE_OPERATOR_SPRING_BOOT_FAT_JAR" with
    | some jar => .ok jar
    | none =>
      match m.workingDir with
      | .error text => .error (.error ("failed to get the current working directory: " ++ text))
      | .ok wd => .ok (wd ++ "/*:" ++ wd)
  else .ok (d.getClasspath m)

/-- The content of the file with the options. -/
def argsText : String := "\n".intercalate d.getAllArgs

/-- The content of the file for Spring Boot. -/
def springBootText : String :=
  let path := systemProperty "loader.path" (withCommas (d.getClasspath m))
  if d.innerMainClass = "" ∨ d.innerMainClass = DefaultMain then path
  else path ++ "\n" ++ systemProperty "loader.main" d.innerMainClass

/-- The content of the file with the main class. -/
def mainClassText : String :=
  if d.innerMainClass = "" ∨ d.isSpringBoot then d.mainClass else d.mainClass ++ "\n" ++ d.innerMainClass

/-- Write a file of the utilities. -/
def writeFile (name message : String) : Except Failure Unit :=
  match m.write (d.utilsDir ++ "/" ++ name) with
  | some text => .error (.error (message ++ ": " ++ text))
  | none => .ok ()

/-- What `createFullArgsFile` writes, with the main class or without. -/
def fullArgsText (cp : String) (includeMain : Bool) : String :=
  "\n".intercalate (["--class-path", cp, d.argsText] ++ (if d.isSpringBoot then [d.springBootText m] else []) ++
    if includeMain then d.mainClassText :: d.mainArgs else [])

/-- The files are written: what the two with all arguments contain. -/
def writeFiles : Except Failure (String × String) := do
  let cp ← d.classPathText m
  d.writeFile m "coherence-class-path.txt" "failed to write coherence classpath file"
  d.writeFile m "coherence-jvm-args.txt" ("failed to write JVM args file " ++ d.utilsDir ++ "/coherence-jvm-args.txt")
  d.writeFile m "coherence-main-class.txt" "failed to write coherence classpath file"
  d.writeFile m "coherence-spring-args.txt" "failed to write coherence classpath file"
  d.writeFile m "coherence-container-args.txt" "failed to write coherence container args file"
  d.writeFile m "coherence-entrypoint-args.txt" "failed to write coherence container args file"
  return (d.fullArgsText m cp true, d.fullArgsText m cp false)

/-- The error of a step that another step reports. -/
def wrap {α : Type} (message : String) (r : Except Failure α) : Except Failure α :=
  match r with
  | .error (.error text) => .error (.error (message ++ ": " ++ text))
  | r => r

end RunDetails

/-- The details that `createsFiles` puts together. -/
def createDetails (m : Machine) (env : String → String) : Except Failure RunDetails := do
  let d := ((newRunDetails env).populateMainArgs).populateMainClass m
  let d ← d.populateServerDetails m
  RunDetails.wrap "failed to configure server command" (d.configureCommand m)

/-- `createsFiles`: what is written to the file for the Coherence container, and to that for the entry point of an image. -/
def createsFiles (m : Machine) (env : String → String) : Except Failure (String × String) := do
  let d ← createDetails m env
  d.writeFiles m

end CoherenceOperator
