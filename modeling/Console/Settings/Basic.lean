import Console.Front.Basic
import Console.Json.Parser
import Console.Message.Ids
import Console.Settings.Key
import Console.Store
import Console.Toml.Document

/-! # Settings

    Settings have four sections: `preview` with the limits of previews, `registry` with
    the insert mode, `ids` with the id policy, and `output` with the layout of results. A
    settings file is written in TOML or JSON and laid over the defaults, so it need only
    name what differs. Keys that no section knows are ignored; a value that its setting
    cannot use makes the whole file unusable.
-/

namespace Console

/-- All settings. -/
structure Settings where
  limits : Limits := {}
  mode : InsertMode := .overwrite
  ids : IdPolicy := {}
  pretty : Bool := true
  deriving DecidableEq

namespace Settings

/-! ### Defaults -/

/-- The defaults as a settings file. -/
def defaultText : String :=
  "[preview]\nmax_items      = 10\nmax_properties = 10\nmax_entries    = 10\n\n"
    ++ "[registry]\nmode = \"overwrite\"\n\n"
    ++ "[ids]\nmode        = \"sequential\"\nstart       = 1\nfixed_value = \"1\"\n\n"
    ++ "[output]\npretty = true\n"

/-- Settings as a tree. -/
def toSetting (s : Settings) : Setting :=
  .table [
    ("preview", .table [("max_items", .integer s.limits.maxItems),
      ("max_properties", .integer s.limits.maxProperties),
      ("max_entries", .integer s.limits.maxEntries)]),
    ("registry", .table [("mode", .text s.mode.name)]),
    ("ids", .table [("mode", .text s.ids.mode.name), ("start", .integer s.ids.start.toNat),
      ("fixed_value", .text s.ids.fixedValue)]),
    ("output", .table [("pretty", .bool s.pretty)])]

/-! ### Reading a tree -/

/-- The value of a setting in its section, which is a table of its settings or a list of
    them in order. Nothing if the section is neither. -/
def part? (sect : Setting) (index : Nat) (name : String) : Option (Option Setting) :=
  match sect with
  | .table members => some (lookupEntry name members)
  | .list items => some items[index]?
  | _ => none

/-- Reads a setting in its section; a missing one has its default. -/
def read? {α : Type} (sect : Setting) (index : Nat) (name : String)
    (use : Setting → Option α) (default : α) : Option α := do
  match ← part? sect index name with
  | none => return default
  | some value => use value

/-- Reads a number of children. -/
def limit? (sect : Setting) (index : Nat) (name : String) : Option Nat :=
  read? sect index name (fun value => value.count?.map UInt64.toNat) 10

/-- The limits in their section. -/
def limits? (sect : Setting) : Option Limits := do
  return ⟨← limit? sect 0 "max_items", ← limit? sect 1 "max_properties",
    ← limit? sect 2 "max_entries"⟩

/-- The insert mode in its section. -/
def mode? (sect : Setting) : Option InsertMode :=
  read? sect 0 "mode" (fun value => value.word?.bind InsertMode.ofName?) .overwrite

/-- The id policy in its section. -/
def ids? (sect : Setting) : Option IdPolicy := do
  let mode ← read? sect 0 "mode" (fun value => value.word?.bind IdMode.ofName?) .sequential
  let start ← read? sect 1 "start" Setting.count? 1
  let fixedValue ← read? sect 2 "fixed_value" Setting.text? "1"
  return ⟨mode, start, fixedValue⟩

/-- The layout of results in its section. -/
def pretty? (sect : Setting) : Option Bool :=
  read? sect 0 "pretty" Setting.switchValue? true

/-- Reads a tree of settings. -/
def ofSetting? (tree : Setting) : Option Settings := do
  let sect (name : String) : Setting := (lookupEntry name tree.members).getD (.table [])
  return ⟨← limits? (sect "preview"), ← mode? (sect "registry"), ← ids? (sect "ids"),
    ← pretty? (sect "output")⟩

/-! ### Reading a file -/

/-- How a settings file is written. -/
inductive Format where
  | toml
  | json
  deriving DecidableEq

/-- The format of files with the given extension. -/
def Format.ofExtension? : String → Option Format
  | "toml" => some toml
  | "json" => some json
  | _ => none

/-- The part of a path after its last slash. -/
def fileName (path : String) : List Char :=
  (path.toList.reverse.takeWhile (· != '/')).reverse

/-- What follows the last point of a file name that has something before that point. -/
def extension? (path : String) : Option String :=
  let name := (fileName path).reverse
  match name.dropWhile (· != '.') with
  | '.' :: _ :: _ => some (String.ofList (name.takeWhile (· != '.')).reverse)
  | _ => none

/-- The paths at which a settings file is looked for: the path as given, else with the
    extension of a format. -/
def candidates (path : String) : List String := [path, path ++ ".toml", path ++ ".json"]

/-- The members of a text. -/
def membersOf? (format : Format) (text : String) : Option (List (String × Setting)) :=
  match format with
  | .toml => Toml.read? text
  | .json => (Json.parse? text).bind fun value => value.members?.map Setting.ofMembers

/-- The text of a file without a byte order mark in front. -/
def unmarked (text : String) : String := String.ofList (Toml.skipMark text.toList)

/-- Reads a settings file over the defaults. -/
def ofText? (format : Format) (text : String) : Option Settings := do
  let members ← membersOf? format (unmarked text)
  ofSetting? (Setting.overlayKeys (toSetting {}) members)

/-- Reads the settings file at a path, its format being that of its extension. -/
def ofFile? (path text : String) : Option Settings := do
  let format ← (extension? path).bind Format.ofExtension?
  ofText? format text

end Settings

end Console
