/-! # Levels and severities

    A level is the console method that a call was made with; it doubles as the kind of
    the prepared message. A severity is how prominently that message is shown.
-/

namespace Console

/-- How prominently a message is shown, in ascending order. -/
inductive Severity where
  | debug
  | log
  | info
  | warn
  | error
  deriving DecidableEq

namespace Severity

/-- All severities in ascending order. -/
def all : List Severity := [.debug, .log, .info, .warn, .error]

/-- The name on the wire. -/
def name : Severity → String
  | debug => "debug"
  | log => "log"
  | info => "info"
  | warn => "warn"
  | error => "error"

/-- The severity with the given name. -/
def ofName? (name : String) : Option Severity := all.find? fun s => s.name == name

/-- The place in ascending order. -/
def rank : Severity → Nat
  | debug => 0
  | log => 1
  | info => 2
  | warn => 3
  | error => 4

/-- The severities in ascending order, equal ones kept. -/
def sort (severities : List Severity) : List Severity :=
  severities.mergeSort fun x y => x.rank ≤ y.rank

end Severity

/-- The console method of a call. -/
inductive Level where
  | log
  | info
  | warn
  | error
  | debug
  | trace
  | assert
  | dir
  | dirxml
  | table
  | clear
  | group
  | groupCollapsed
  | groupEnd
  | count
  | countReset
  | time
  | timeLog
  | timeEnd
  deriving DecidableEq

namespace Level

/-- All levels. -/
def all : List Level :=
  [.log, .info, .warn, .error, .debug, .trace, .assert, .dir, .dirxml, .table, .clear, .group,
    .groupCollapsed, .groupEnd, .count, .countReset, .time, .timeLog, .timeEnd]

/-- The name on the wire. -/
def name : Level → String
  | log => "log"
  | info => "info"
  | warn => "warn"
  | error => "error"
  | debug => "debug"
  | trace => "trace"
  | assert => "assert"
  | dir => "dir"
  | dirxml => "dirxml"
  | table => "table"
  | clear => "clear"
  | group => "group"
  | groupCollapsed => "groupCollapsed"
  | groupEnd => "groupEnd"
  | count => "count"
  | countReset => "countReset"
  | time => "time"
  | timeLog => "timeLog"
  | timeEnd => "timeEnd"

/-- The level with the given name; case matters. -/
def ofName? (name : String) : Option Level := all.find? fun l => l.name == name

/-- Whether a template in the first argument is expanded. `dir`, `dirxml` and `table`
    show their arguments as they are; counters and timers show their payload. -/
def expands : Level → Bool
  | log | info | warn | error | debug | trace | assert | group | groupCollapsed => true
  | _ => false

/-- The severity of a message of this level, its payload apart. -/
def severity : Level → Severity
  | info => .info
  | warn => .warn
  | error | assert => .error
  | debug => .debug
  | _ => .log

end Level

end Console
