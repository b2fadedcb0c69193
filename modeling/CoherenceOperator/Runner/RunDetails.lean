import CoherenceOperator.Api.Environment
import CoherenceOperator.Lib.Decimal
import CoherenceOperator.Runner.Expand

/-!
# The details of a run

What the runner knows and what it puts together for the virtual machine: the class path and four lists of options. Each option
is added to the end of its list, with the references to variables in it expanded.
-/

namespace CoherenceOperator

/-! ### The machine -/

/-- The machine on which the runner works: its files, what it can reach and execute, and the formats that it reads. -/
structure Machine where
  stat : String → Bool
  size : String → ℕ
  isDir : String → Bool
  isRegular : String → Bool
  /-- The first line of a file, if it can be read. -/
  firstLine : String → String
  /-- The content of a file, if it can be read. -/
  content : String → String
  /-- The files in a directory whose names end in `.jar` or `.JAR`. -/
  jars : String → List String
  workingDir : Except String String
  /-- The error of creating a directory, with those above it. -/
  mkdir : String → Option String
  /-- The error of writing a file. -/
  write : String → Option String
  /-- The environment of the process. -/
  lookupEnv : String → Option String
  /-- `httpGetWithBackoff`. -/
  httpGet : String → String
  /-- The exit code of a command; it is not zero when the command cannot be started. -/
  execute : List String → ℕ
  /-- `GetExtraJvmArgs`. -/
  extraJvmArgs : List String
  /-- `ParseQuantity` and `AsDec`. -/
  parseQuantity : String → Option Dec
  /-- A managed connection in its format. -/
  parseConnection : String → Option HealthMutatorConnection

/-- A machine without files, on which every directory and every file can be made. -/
def bareMachine : Machine where
  stat _ := false
  size _ := 0
  isDir _ := false
  isRegular _ := false
  firstLine _ := ""
  content _ := ""
  jars _ := []
  workingDir := .ok "/"
  mkdir _ := none
  write _ := none
  lookupEnv _ := none
  httpGet _ := ""
  execute _ := 0
  extraJvmArgs := []
  parseQuantity _ := none
  parseConnection _ := none

/-- How the runner fails: with an error, or at once with an exit code. -/
inductive Failure where
  | error (text : String)
  | exit (code : ℕ)
  deriving DecidableEq

/-! ### The details -/

/-- The main class that the runner's own main class starts when there is no other. -/
def DefaultMain : String := "$DEFAULT$"

/-- The jar of the operator, in the directory of the utilities. -/
def OperatorJarFileSuffix : String := "/lib/coherence-operator.jar"

/-- The option for the class path. -/
def JvmOptClassPath : String := "-cp"

/-- `RunDetails`. The variables are given as what is found under a name, nothing when it is not set. -/
structure RunDetails where
  env : String → String
  coherenceHome : String
  javaHome : String
  utilsDir : String
  getSite : Bool
  useOperatorHealth : Bool := false
  resolvedOperatorHealth : Bool := false
  appType : String
  classpath : String := ""
  mainClass : String := DefaultMain
  innerMainClass : String := ""
  mainArgs : List String := []
  args : List String := []
  vmOptions : List String := []
  memoryArgs : List String := []
  diagnosticArgs : List String := []

namespace RunDetails

variable (d : RunDetails) (m : Machine)

/-- `GetAllArgs`. -/
def getAllArgs : List String := d.vmOptions ++ d.memoryArgs ++ d.diagnosticArgs ++ d.args

/-- `IsSpringBoot`. -/
def isSpringBoot : Bool := d.appType = "spring" || d.appType = "spring3"

/-- `Getenv`. -/
def getenv (name : String) : String := d.env name

/-- `ExpandEnv`. -/
def expandEnv (s : String) : String := expand d.getenv s

/-- `GetenvOrDefault`. -/
def getenvOrDefault (name defaultValue : String) : String := if d.getenv name ≠ "" then d.getenv name else defaultValue

/-- `LookupEnv`. -/
def lookupEnv (name : String) : Option String := if d.getenv name ≠ "" then some (d.getenv name) else none

/-- `GetenvWithPrefix`. -/
def getenvWithPrefix (before name : String) : String := d.getenv (before ++ name)

/-- `IsEnvTrue`. -/
def isEnvTrue (name : String) : Bool := (d.getenv name).toLower = "true"

/-- `IsEnvTrueOrBlank`. -/
def isEnvTrueOrBlank (name : String) : Bool := d.getenv name = "" || (d.getenv name).toLower = "true"

/-- `AddArg`. -/
def addArg (arg : String) : RunDetails := if arg ≠ "" then { d with args := d.args ++ [d.expandEnv arg] } else d

/-- `AddArgs`. -/
def addArgs (args : List String) : RunDetails := args.foldl addArg d

/-- `fmt.Sprintf(SystemPropertyPattern, propName, value)`. -/
def systemProperty (propName value : String) : String := "-D" ++ propName ++ "=" ++ value

/-- `AddSystemPropertyArg`. -/
def addSystemPropertyArg (propName value : String) : RunDetails :=
  if propName ≠ "" then { d with args := d.args ++ [d.expandEnv (systemProperty propName value)] } else d

/-- `AddVMOption`. -/
def addVMOption (arg : String) : RunDetails :=
  if arg ≠ "" then { d with vmOptions := d.vmOptions ++ [d.expandEnv arg] } else d

/-- `AddMemoryOption`. -/
def addMemoryOption (arg : String) : RunDetails :=
  if arg ≠ "" then { d with memoryArgs := d.memoryArgs ++ [d.expandEnv arg] } else d

/-- `AddDiagnosticOption`. -/
def addDiagnosticOption (arg : String) : RunDetails :=
  if arg ≠ "" then { d with diagnosticArgs := d.diagnosticArgs ++ [d.expandEnv arg] } else d

/-- `AddClasspath`. -/
def addClasspath (path : String) : RunDetails :=
  if path ≠ "" then
    { d with classpath := if d.classpath = "" then d.expandEnv path else d.classpath ++ ":" ++ d.expandEnv path }
  else d

/-- `AddClasspathIfExists`. -/
def addClasspathIfExists (path : String) : RunDetails := if m.stat path then d.addClasspath path else d

/-- `AddJarsToClasspath`. -/
def addJarsToClasspath (dir : String) : RunDetails :=
  if m.stat (d.expandEnv dir) then (m.jars (d.expandEnv dir)).foldl addClasspath d else d

/-- `GetClasspath`. -/
def getClasspath : String :=
  if d.coherenceHome ≠ "" ∧ m.stat d.coherenceHome then
    let cp := if m.stat (d.coherenceHome ++ "/conf") then d.classpath ++ ":" ++ d.coherenceHome ++ "/conf" else d.classpath
    if m.stat (d.coherenceHome ++ "/lib/coherence.jar") then cp ++ ":" ++ d.coherenceHome ++ "/lib/coherence.jar" else cp
  else d.classpath

/-- `AddSystemPropertyFromEnvVar`. -/
def addSystemPropertyFromEnvVar (name property : String) : RunDetails :=
  if d.getenv name ≠ "" then d.addSystemPropertyArg property (d.getenv name) else d

/-- `SetSystemPropertyFromEnvVarOrDefault`. -/
def setSystemPropertyFromEnvVarOrDefault (name property dflt : String) : RunDetails :=
  if d.getenv name ≠ "" then d.addSystemPropertyArg property (d.getenv name) else d.addSystemPropertyArg property dflt

/-- `GetJavaExecutable`. -/
def getJavaExecutable : String := if d.javaHome ≠ "" then d.javaHome ++ "/bin/java" else "java"

end RunDetails

/-- `GetBuildpackLauncher`. -/
def getBuildpackLauncher (m : Machine) : String :=
  (m.lookupEnv "COHERENCE_OPERATOR_CNBP_LAUNCHER").getD "/cnb/lifecycle/launcher"

/-- `IsBuildPacks`. -/
def RunDetails.isBuildPacks (d : RunDetails) (m : Machine) : Bool :=
  let detect := (d.getenv "COHERENCE_OPERATOR_CNBP_ENABLED").toLower
  if detect = "true" then true
  else if detect = "false" then false
  else (m.lookupEnv "CNB_PLATFORM_API").isSome && m.stat (getBuildpackLauncher m)

/-- `NewRunDetails`. -/
def newRunDetails (env : String → String) : RunDetails :=
  let d : RunDetails :=
    { env
      coherenceHome := env "COHERENCE_HOME"
      utilsDir := env "COHERENCE_OPERATOR_UTIL_DIR"
      javaHome := env "JAVA_HOME"
      appType := (env "COHERENCE_OPERATOR_APP_TYPE").toLower
      getSite := (env "COHERENCE_OPERATOR_SKIP_SITE").toLower ≠ "true" }
  (d.addClasspath (env "JVM_EXTRA_CLASSPATH")).addClasspath (env "CLASSPATH")

end CoherenceOperator
