import Console.Command.Arguments

/-! # The program

    The program reads its command line, then the settings, then the fixture, and shows the
    outcome of the command. Whatever it needs from its surroundings it gets through a
    `Host`, over any monad, so that a run can be followed without a file system.

    It leaves with 0 if the command succeeded, with 1 if something failed, and with 2 if
    the command line makes no sense.
-/

namespace Console

/-! ### Surroundings -/

/-- What is found at a path. -/
inductive FileState where
  | absent
  /-- Something that is no text. -/
  | unreadable
  | text (content : String)
  deriving DecidableEq

/-- The text of a file, if there is one. -/
def FileState.text? : FileState → Option String
  | text content => some content
  | _ => none

/-- What a program can ask of its surroundings. -/
structure Host (m : Type → Type) where
  file : (path : String) → m FileState
  /-- Writes a file, making the folders on the way, and says whether that worked. -/
  write : (path content : String) → m Bool
  /-- The whole input, if it is text. -/
  input : m (Option String)
  environment : (name : String) → m (Option String)

/-- How a run ends. -/
structure Exit where
  code : UInt8
  output : String := ""
  /-- Lines that are not part of the output. -/
  notes : List String := []
  deriving DecidableEq

namespace Program

/-! ### Texts -/

/-- How the program is used. -/
def usage : String :=
  "Usage: msgprep [--debug] [--config PATH] COMMAND [OPTIONS] FIXTURE\n\n"
    ++ "Commands:\n"
    ++ "  keys     List the keys of the fixture\n"
    ++ "  raw      Print records as stored\n"
    ++ "  packets  Print records with every reference resolved\n"
    ++ "  prepare  Print prepared messages\n"
    ++ "  check    Prepare every record and report failures\n\n"
    ++ "Options:\n"
    ++ "  --strict   Refuse keys that are used twice\n"
    ++ "  --key KEY  Print only the entry under KEY (raw, packets, prepare)\n"
    ++ "  --ids IDS  Ids of messages: fixed or sequential (raw, packets, prepare)\n"

/-- What is noted where the settings cannot be used. -/
def unusableSettings : String := "the settings cannot be used"

/-- A path inside a folder; the empty folder is the current one. -/
def joinPath (folder name : String) : String :=
  if folder.isEmpty || folder.endsWith "/" then folder ++ name else folder ++ "/" ++ name

variable {m : Type → Type} [Monad m]

/-! ### Settings -/

/-- The path of the usual settings file: in the folder for settings, or else in the one
    within the home folder, or else within the current one. -/
def settingsPath (host : Host m) : m String := do
  let folder ← match ← host.environment "XDG_CONFIG_HOME" with
    | some folder => pure folder
    | none => do
      let home := (← host.environment "HOME").getD "."
      pure (joinPath home ".config")
  return joinPath (joinPath folder "msgprep") "config.toml"

/-- The first of several paths at which there is a text, with that text. -/
def firstText (host : Host m) : List String → m (Option (String × String))
  | [] => return none
  | path :: rest => do
    match ← host.file path with
    | .text content => return some (path, content)
    | _ => firstText host rest

/-- Reads the settings file at a path. -/
def settingsAt (host : Host m) (path : String) : m (Option Settings) := do
  return (← firstText host (Settings.candidates path)).bind fun found =>
    Settings.ofFile? found.1 found.2

/-- Reads the usual settings file, which is first written with the defaults if it is not
    there. -/
def usualSettings (host : Host m) : m (Option Settings) := do
  let path ← settingsPath host
  match ← host.file path with
  | .absent =>
    if ← host.write path Settings.defaultText then settingsAt host path else return none
  | _ => settingsAt host path

/-! ### Runs -/

/-- The text of a fixture, if it can be had. -/
def fixtureText (host : Host m) : Origin → m (Option String)
  | .input => host.input
  | .file path => do return (← host.file path).text?

/-- How a run ends after its task. -/
def exitOf (settings : Settings) : Except CommandFault Outcome → Exit
  | .error fault => { code := 1, notes := [fault.message] }
  | .ok outcome =>
    { code := if outcome.ok then 0 else 1, output := outcome.render settings.pretty ++ "\n" }

/-- Carries out an invocation. -/
def carryOut (host : Host m) (invocation : Invocation) : m Exit := do
  let settings ← match invocation.config with
    | some path => settingsAt host path
    | none => usualSettings host
  match settings with
  | none => return { code := 1, notes := [unusableSettings] }
  | some settings =>
    let text ← fixtureText host invocation.task.origin
    return exitOf settings (invocation.task.run settings text)

/-- Runs the program. -/
def run (host : Host m) (arguments : List String) : m Exit :=
  match Invocation.ofArguments arguments with
  | .error .help => return { code := 0, output := usage }
  | .error .misuse => return { code := 2, notes := [usage] }
  | .ok invocation => carryOut host invocation

end Program

end Console
