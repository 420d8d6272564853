import NodeAgent.Address
import NodeAgent.Config.Reader
/-!
# Valid configurations

A configuration that can be read may still contradict itself. It is checked before anything is
built from it: listeners need addresses, the identity source must be one that there is and have its
parameters, and certificate types must be named apart. The first thing that is wrong is what is
told. Checking also brings the two listener addresses into normal form, and changes nothing else.
-/

namespace NodeAgent

/-- Why a configuration is not accepted. -/
inductive ConfigError where
  /-- The file cannot be read. -/
  | read (path : Path) (reason : String)
  | parse (fault : Json.Fault)
  /-- The listener of a key has no address. -/
  | emptyAddress (key : String)
  | unsupportedIdentifier (plugin : String)
  | missingParams
  | unnamedModule
  | duplicateModule (id : String)
  | noAttempts

namespace ConfigError

/-- The wording of the failure. -/
def message : ConfigError → String
  | read path reason => "failed to read config " ++ path ++ ": " ++ reason
  | parse fault =>
    match fault with
    | .unfit m => m
    | _ => ""
  | emptyAddress key => "invalid " ++ key ++ ": " ++ Address.emptyMessage
  | unsupportedIdentifier plugin => "unsupported identifier plugin: " ++ plugin
  | missingParams => "invalid config: fileidentifier requires Params"
  | unnamedModule => "invalid config: cert module without ID"
  | duplicateModule id => "invalid config: duplicate cert module " ++ id
  | noAttempts => "invalid config: Retry.MaxAttempts must be at least 1"

end ConfigError

namespace Config

/-- The name of the source that reads the system's identity from files. -/
def fileIdentifier : String := "fileidentifier"

/-- A listener address in normal form. -/
def normalAddress (key addr : String) : Except ConfigError String :=
  match Address.correct? addr with
  | some a => .ok a
  | none => .error (.emptyAddress key)

/-- Checks the identity source. -/
def checkIdentifier (i : IdentifierConfig) : Except ConfigError Unit :=
  if i.plugin = "" then .ok ()
  else if i.plugin = fileIdentifier then
    if i.params.isSome then .ok () else .error .missingParams
  else .error (.unsupportedIdentifier i.plugin)

/-- Checks that certificate types are named, and named apart from each other and from those seen. -/
def checkModules (seen : List String) : List CertModule → Except ConfigError Unit
  | [] => .ok ()
  | m :: ms =>
    if m.id = "" then .error .unnamedModule
    else if seen.contains m.id then .error (.duplicateModule m.id)
    else checkModules (m.id :: seen) ms

/-- The configuration with its listener addresses in normal form, if it is valid. -/
def validate (c : Config) : Except ConfigError Config := do
  let publicAddr ← normalAddress "IAMPublicServerURL" c.publicAddr
  let protectedAddr ← normalAddress "IAMProtectedServerURL" c.protectedAddr
  checkIdentifier c.identifier
  checkModules [] c.certModules
  if c.retry.maxAttempts = 0 then throw .noAttempts
  return { c with publicAddr, protectedAddr }

/-- The configuration that a text stands for. -/
def parse (text : String) : Except ConfigError Config :=
  match Json.parse reader text with
  | .error fault => .error (.parse fault)
  | .ok c => c.validate

end Config

end NodeAgent
