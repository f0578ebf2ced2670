import Gatehouse.Gateway.Launch
import Gatehouse.Log.Filter
import Gatehouse.Settings.File

/-!
# The command line

Options have long names; a value follows its option as the next argument or after an equals sign.
No option may be given twice, and nothing else may be given.

* `CommandLine.parse`: what the arguments ask for. Arguments are read in order, so that what comes
  first counts: an error, or a question for help or for the version.
* `Command.settings`: the settings that a command leads to.
-/

namespace Gatehouse

/-- A run of the gateway. -/
structure Command where
  config : Option Files.Path := none
  flags : Flags := {}

namespace CommandLine

/-- The options. -/
inductive Switch where
  | config
  | listen
  | issuer
  | insecure
  | plugins
  | logLevel
  | version
  | help
deriving DecidableEq

namespace Switch

def all : List Switch := [config, listen, issuer, insecure, plugins, logLevel, version, help]

/-- The name of an option. -/
def text : Switch → String
  | config => "config"
  | listen => "listen"
  | issuer => "iss"
  | insecure => "insecure"
  | plugins => "plugins"
  | logLevel => "log-level"
  | version => "version"
  | help => "help"

/-- The option of this name. -/
def ofText? (name : List Char) : Option Switch := all.find? fun s => s.text.toList = name

/-- Whether an option has a value. -/
def hasValue : Switch → Bool
  | config | listen | issuer | plugins | logLevel => true
  | insecure | version | help => false

end Switch

/-- Why the arguments mean nothing. -/
inductive UsageError where
  | unexpected (argument : String)
  | noValue (option : Switch)
  | badValue (option : Switch)
  | repeated (option : Switch)
deriving DecidableEq

/-- The text of an error. -/
def UsageError.message : UsageError → String
  | unexpected argument => "unexpected argument " ++ argument
  | noValue option => "a value is required for --" ++ option.text
  | badValue option => "invalid value for --" ++ option.text
  | repeated option => "--" ++ option.text ++ " cannot be used multiple times"

/-- What the arguments ask for. -/
inductive Asked where
  | run (c : Command)
  | version
  | help

/-- What an argument is by itself. -/
inductive Spelling where
  /-- An option, with the value that is attached to it. -/
  | switch (s : Switch) (value : Option String)
  /-- Two dashes: no options follow. -/
  | ending
  | unknown
  | word

/-- What an argument is by itself. -/
def spelling (argument : String) : Spelling :=
  match argument.toList with
  | ['-', '-'] => .ending
  | '-' :: '-' :: long =>
    let (name, value) := (Text.cutOnce? '=' long).getD (long, [])
    match Switch.ofText? name with
    | none => .unknown
    | some s => .switch s (if name = long then none else some (String.ofList value))
  | '-' :: 'h' :: _ => .switch .help none
  | '-' :: 'V' :: _ => .switch .version none
  | '-' :: _ :: _ => .unknown
  | _ => .word

/-- The command with a value for an option. -/
def take (c : Command) (s : Switch) (value : String) : Except UsageError Command :=
  let once {α : Type} (current : Option α) (command : Command) : Except UsageError Command :=
    if current.isSome then .error (.repeated s) else .ok command
  let flags := c.flags
  match s with
  | .config =>
    if value = "" then .error (.badValue s)
    else once c.config { c with config := some value.toList }
  | .listen => once flags.listen { c with flags := { flags with listen := some value } }
  | .issuer =>
    match Url.ofText value.toList with
    | .ok url => once flags.issuer { c with flags := { flags with issuer := some url } }
    | .error _ => .error (.badValue s)
  | .insecure =>
    if flags.insecure then .error (.repeated s)
    else .ok { c with flags := { flags with insecure := true } }
  | .plugins => once flags.plugins { c with flags := { flags with plugins := some value } }
  | .logLevel => once flags.logLevel { c with flags := { flags with logLevel := some value } }
  | .version | .help => .ok c

/-- Reads the arguments after some that led to `c`. -/
def parseFrom (c : Command) : List String → Except UsageError Asked
  | [] => .ok (.run c)
  | argument :: rest =>
    match spelling argument with
    | .word | .unknown => .error (.unexpected argument)
    | .ending =>
      match rest with
      | [] => .ok (.run c)
      | word :: _ => .error (.unexpected word)
    | .switch s (some value) =>
      if s.hasValue then
        match take c s value with
        | .ok c => parseFrom c rest
        | .error e => .error e
      else .error (.unexpected argument)
    | .switch .version none => .ok .version
    | .switch .help none => .ok .help
    | .switch .insecure none =>
      match take c .insecure "" with
      | .ok c => parseFrom c rest
      | .error e => .error e
    | .switch s none =>
      match rest with
      | [] => .error (.noValue s)
      | value :: rest =>
        match spelling value with
        | .word =>
          match take c s value with
          | .ok c => parseFrom c rest
          | .error e => .error e
        | _ => .error (.noValue s)

/-- What the arguments ask for. -/
def parse (arguments : List String) : Except UsageError Asked := parseFrom {} arguments

/-- The name of the program with its version. -/
def version : String := "socket-gateway 0.1.0"

/-- How the program is used. -/
def help : String :=
  "HTTP API gateway for unix socket workers\n\nUsage: socket-gateway [OPTIONS]\n\nOptions:\n" ++
  "      --config <CONFIG>        TOML configuration file\n" ++
  "      --listen <LISTEN>        Listen address, e.g. 127.0.0.1:8039\n" ++
  "      --iss <ISS>              OIDC issuer identifier\n" ++
  "      --insecure               Disable TLS certificate verification towards the issuer\n" ++
  "      --plugins <PLUGINS>      Comma separated plugin IDs, or none\n" ++
  "      --log-level <LOG_LEVEL>  The least severe records to keep\n" ++
  "  -h, --help                   Print help\n" ++
  "  -V, --version                Print version"

end CommandLine

/-- Why the program ends before its time. -/
inductive Failure where
  | settings (cause : SettingsError)
  | filter
  | gateway (cause : StartError)

namespace Failure

/-- The text of a failure. -/
def message : Failure → String
  | settings cause => cause.message
  | filter => Log.Filter.error
  | gateway cause => cause.message

/-- What the program says about a failure. -/
def report (f : Failure) : String := "Error: " ++ f.message

end Failure

/-- The settings that a command leads to, when files can be read. What to log must be known too. -/
def Command.settings (c : Command) (env : Environment)
    (read : Files.Path → Except Files.IoFault ByteArray) : Except Failure Settings := do
  match Settings.load c.config read env c.flags with
  | .error e => .error (.settings e)
  | .ok s =>
    match Log.Filter.choose? ((env "RUST_LOG").map String.toList) s.observability.level.toList with
    | none => .error .filter
    | some _ => .ok s

end Gatehouse
