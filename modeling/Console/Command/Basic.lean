import Console.Fixture
import Console.Settings.Basic
import Console.Views

/-! # Commands

    A command works on the store of one fixture: it lists the keys, shows a view of the
    records, or checks that all of them can be prepared. Its outcome is a JSON document,
    and whether the run counts as a success; only a check can fail that way.
-/

namespace Console

/-- What to do with a fixture. -/
inductive Command where
  | keys
  /-- Shows a view, or one entry of it. Ids follow the mode, if one is given. -/
  | view (view : View) (key : Option String) (ids : Option IdMode)
  | check
  deriving DecidableEq

/-- A command with the fixture that it works on. -/
structure Task where
  command : Command
  fixture : String
  /-- Refuses keys that are used twice, whatever the settings say. -/
  strict : Bool
  deriving DecidableEq

/-- The result of a command. -/
structure Outcome where
  output : Json
  ok : Bool := true

/-- The text of an outcome. -/
def Outcome.render (outcome : Outcome) (pretty : Bool) : String :=
  if pretty then outcome.output.pretty else outcome.output.compact

/-- Why a command has no outcome. -/
inductive CommandFault where
  | load (origin : Origin) (cause : FixtureFault)
  | noRecord (key : String)

/-- The wording of a command fault. -/
def CommandFault.message : CommandFault → String
  | load origin _ => "loading fixture " ++ origin.text
  | noRecord key => "no record under key " ++ quoted key

namespace Command

/-- Exports a store as the settings say, with ids in the given mode if there is one. -/
def exportAll (settings : Settings) (ids : Option IdMode) (store : Store) : Exported :=
  let policy := { settings.ids with mode := ids.getD settings.ids.mode }
  (store.export policy.source settings.limits).1

/-- How many records there are, how many could be prepared, and why the others could not. -/
def report (exported : Exported) : Outcome :=
  let failures := exported.failures
  { output := .object [("records", .nat exported.size),
      ("prepared", .nat (exported.size - failures.length)),
      ("failures", .object (failures.map fun entry => (entry.1, .string entry.2.message)))]
    ok := failures.isEmpty }

/-- Runs a command on a store. -/
def run (settings : Settings) (store : Store) : Command → Except CommandFault Outcome
  | keys => .ok { output := .array (store.keys.map .string) }
  | check => .ok (report (exportAll settings none store))
  | .view which none ids => .ok { output := (exportAll settings ids store).toJson which }
  | .view which (some key) ids =>
    match lookupEntry key ((exportAll settings ids store).members which) with
    | some entry => .ok { output := entry }
    | none => .error (.noRecord key)

end Command

namespace Task

/-- Where the fixture comes from. -/
def origin (task : Task) : Origin := .ofArgument task.fixture

/-- The insert mode of the fixture's store. -/
def mode (task : Task) (settings : Settings) : InsertMode :=
  if task.strict then .strict else settings.mode

/-- Runs a task on the text of its fixture, which may be missing. -/
def run (task : Task) (settings : Settings) (text : Option String) :
    Except CommandFault Outcome :=
  match Fixture.load task.origin (task.mode settings) text with
  | .error cause => .error (.load task.origin cause)
  | .ok store => task.command.run settings store

end Task

end Console
