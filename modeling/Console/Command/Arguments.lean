import Console.Command.Basic

/-! # Command lines

    A command line names a command after the options for the whole program, and then the
    fixture and the options of the command in any order:

        [--debug] [--config PATH] COMMAND [OPTIONS] FIXTURE

    Arguments are first read as words, each option with its value. Words are then taken
    from the left, so the first thing wrong, or the first request for help, decides. An
    option may be given once at each of the two places where it may stand, the one after
    the command counting.
-/

namespace Console

/-- Why a command line is not carried out. -/
inductive Refusal where
  /-- It asks how the program is used. -/
  | help
  /-- It does not say what to do in a way the program understands. -/
  | misuse
  deriving DecidableEq

/-- What a command line says. -/
structure Invocation where
  task : Task
  debug : Bool
  /-- The settings file to read in place of the usual one. -/
  config : Option String
  deriving DecidableEq

namespace CommandLine

/-! ### Words -/

/-- A word of a command line. -/
inductive Word where
  | debug
  | config (path : String)
  | strict
  | key (key : String)
  | ids (mode : IdMode)
  | help
  /-- Sets off operands that look like options. -/
  | separator
  | operand (text : String)
  /-- Anything that no command line may hold. -/
  | unknown
  deriving DecidableEq

/-- Whether an argument looks like an option. -/
def isOption (argument : String) : Bool :=
  argument.startsWith "-" && argument != "-"

/-- The word of an option with its value, by the option's name. -/
def valued? (name value : String) : Option Word :=
  match name with
  | "--config" => some (if value.isEmpty then .unknown else .config value)
  | "--key" => some (.key value)
  | "--ids" => some ((IdMode.ofName? value).elim .unknown .ids)
  | _ => none

/-- The word of an argument that takes no value along. -/
def single (argument : String) : Word :=
  if argument = "--debug" then .debug
  else if argument = "--strict" then .strict
  else if argument = "--help" ∨ argument.startsWith "-h" then .help
  else if isOption argument then
    let name := argument.toList.takeWhile (· != '=')
    let value := argument.toList.drop (name.length + 1)
    if name.length = argument.length then .unknown
    else (valued? (String.ofList name) (String.ofList value)).getD .unknown
  else .operand argument

/-- The words of a command line. -/
def words : List String → List Word
  | [] => []
  | "--" :: rest => .separator :: rest.map .operand
  | argument :: rest =>
    if (valued? argument "").isSome then
      match rest with
      -- its value is missing
      | [] => [.unknown]
      | value :: rest =>
        -- an option cannot be the value of another one
        if isOption value then [.unknown]
        else ((valued? argument value).getD .unknown) :: words rest
    else single argument :: words rest

/-! ### Choices -/

/-- What the words at one place of a command line have chosen. -/
structure Choices where
  debug : Bool := false
  config : Option String := none
  strict : Bool := false
  key : Option String := none
  ids : Option IdMode := none
  fixture : Option String := none

/-- A choice made for the first time. -/
def once {α : Type} (made : Bool) (choice : α) : Except Refusal α :=
  if made then .error .misuse else .ok choice

/-- Takes a word that may stand before and after the command. -/
def Choices.takeGlobal (c : Choices) : Word → Except Refusal Choices
  | .debug => once c.debug { c with debug := true }
  | .config path => once c.config.isSome { c with config := some path }
  | .help => .error .help
  | _ => .error .misuse

/-- Takes a word after a command. Only a command that shows a view has a key and ids. -/
def Choices.take (isView : Bool) (c : Choices) : Word → Except Refusal Choices
  | .strict => once c.strict { c with strict := true }
  | .key key => once (c.key.isSome || !isView) { c with key := some key }
  | .ids mode => once (c.ids.isSome || !isView) { c with ids := some mode }
  | .operand text => once c.fixture.isSome { c with fixture := some text }
  | .separator => .ok c
  | word => c.takeGlobal word

/-! ### Commands -/

/-- The commands by name, each from a key and ids. -/
def commands : List (String × (Option String → Option IdMode → Command)) := [
  ("keys", fun _ _ => .keys),
  ("raw", .view .raw),
  ("packets", .view .packets),
  ("prepare", .view .messages),
  ("check", fun _ _ => .check)]

/-- Whether a command shows a view. -/
def isView : Command → Bool
  | .view _ _ _ => true
  | _ => false

/-- What a request for help by name comes to: at most one known name may follow. -/
def helpOn : List Word → Refusal
  | [] => .help
  | [.operand name] =>
    if name = "help" ∨ (lookupEntry name commands).isSome then .help else .misuse
  | _ => .misuse

/-- Reads the words after the name of a command. -/
def readCommand (start : Choices) (command : Option String → Option IdMode → Command)
    (rest : List Word) : Except Refusal Invocation := do
  let c ← rest.foldlM (Choices.take (isView (command none none))) {}
  match c.fixture with
  | none => throw .misuse
  | some fixture =>
    return {
      task := { command := command c.key c.ids, fixture := fixture, strict := c.strict }
      debug := start.debug || c.debug
      config := c.config <|> start.config }

/-- Reads words from the first on, up to the name of the command. -/
def readWords (start : Choices) : List Word → Except Refusal Invocation
  | [] => .error .misuse
  | .operand name :: rest =>
    if name = "help" then .error (helpOn rest)
    else
      match lookupEntry name commands with
      | none => .error .misuse
      | some command => readCommand start command rest
  | word :: rest => do readWords (← start.takeGlobal word) rest

end CommandLine

/-- Reads a command line. -/
def Invocation.ofArguments (arguments : List String) : Except Refusal Invocation :=
  CommandLine.readWords {} (CommandLine.words arguments)

end Console
