import Console.Store

/-! # A corpus of captured calls

    One record for each shape that a console call takes: plain calls, styles, counters,
    timers, traces, groups, tables and previews of objects. All were captured on one page,
    at one moment. `Corpus.store` holds them under the code that was run.
-/

namespace Console.Corpus

/-! ### Building blocks -/

/-- The page that made the calls. -/
def page : String :=
  "https://example.com/browser/devtools/client/webconsole/test/browser/test-console-api.html"

/-- The connection that the actors belong to. -/
def connection : String := "server0.conn0."

/-- A place on the page, in a script of the connection. -/
def place (script : String) (line column : UInt32) : Location :=
  ⟨page, line, column, some (connection ++ script)⟩

/-- The place of a call that is the whole script. -/
def command : Location := place "child1/source22" 1 35

/-- A stack frame on the page. -/
def frame (function script : String) (line column : UInt32) : StackFrame :=
  ⟨page, function, line, column, some (connection ++ script)⟩

/-- The moment of the calls. -/
def moment : Timestamp := ⟨1572867483805000, by decide⟩

/-- A captured call. -/
def captured (place : Location) (kind : Kind) (arguments : List Argument) : Record :=
  { kind := kind
    arguments := arguments
    location := place
    timestamp := moment
    innerWindowId := some 8589934593 }

/-- The actor of an object. -/
def actor (name : String) : ActorId := ⟨connection ++ "process5//" ++ name⟩

/-- An object among the arguments. -/
def object (name : String) : Argument := .reference ⟨actor name, .object⟩

/-- Plain properties with the given values. -/
def properties (values : List (String × Json)) : PropertyTable :=
  .ofList (values.map fun entry => (entry.1, ⟨some entry.2, none, true, true, true⟩))

/-- The grip of an extensible object without anything to show. -/
def bareObject (name className : String) (properties : UInt64) : ObjectGrip :=
  ⟨actor name, className, some properties, true, false, false, false, none, none, none⟩

/-- The grip of an object with a preview. -/
def previewed (name className : String) (properties : UInt64) (preview : GripPreview) : Grip :=
  .object { bareObject name className properties with preview := some preview }

/-- The grip of an object that the producer has printed. -/
def printed (name className : String) (properties : UInt64) (text : String) : Grip :=
  .object { bareObject name className properties with displayString := some text }

/-- The grip of an object with its property table. -/
def tabled (name className : String) (properties : UInt64) (table : PropertyTable) : Grip :=
  .object { bareObject name className properties with ownProperties := some table }

/-! ### The calls -/

/-- Calls of one line. -/
def evaluated : List (String × Record) := [
  ("console.log('foobar', 'test')", captured command (.bare .log) [.text "foobar", .text "test"]),
  ("console.log(undefined)", captured command (.bare .log) [.literal .undefined]),
  ("console.warn('danger, will robinson!')",
    captured command (.bare .warn) [.text "danger, will robinson!"]),
  ("console.log(NaN)", captured command (.bare .log) [.literal .nan]),
  ("console.log(null)", captured command (.bare .log) [.literal .null]),
  ("console.log('鼬')", captured command (.bare .log) [.text "鼬"]),
  ("console.clear()", captured command (.bare .clear) []),
  ("console.count('bar')", captured command (.count ⟨"bar", some 1, none⟩) [.text "bar"]),
  ("console.assert(false, \x7bmessage: 'foobar'\x7d)",
    { captured (place "child1/source30" 1 35) (.assert (some
      [frame "triggerPacket" "child1/source30" 1 35])) [object "obj29"] with
      objects := .ofList [previewed "obj29" "Object" 1 (.object (properties [("message",
        .string "foobar")]) (some 1))] }),
  ("console.log('úṇĩçödê țĕșť')", captured command (.bare .log) [.text "úṇĩçödê țĕșť"]),
  ("console.dirxml(window)",
    { captured command (.bare .dirxml) [object "obj32"] with
      objects := .ofList [previewed "obj32" "Window" 818 (.objectWithUrl page)] }),
  ("console.log('myarray', ['red', 'green', 'blue'])",
    { captured command (.bare .log) [.text "myarray", object "obj34"] with
      objects := .ofList [previewed "obj34" "Array" 4 (.arrayLike 3 [.string "red",
        .string "green", .string "blue"])] }),
  ("console.log('myregex', /a.b.c/)",
    { captured command (.bare .log) [.text "myregex", object "obj36"] with
      objects := .ofList [printed "obj36" "RegExp" 1 "/a.b.c/"] }),
  ("console.table(['red', 'green', 'blue']);",
    { captured command (.bare .table) [object "obj38"] with
      objects := .ofList [tabled "obj38" "Array" 4 (properties [("0", .string "red"), ("1",
        .string "green"), ("2", .string "blue")])] }),
  ("console.log('myobject', \x7bred: 'redValue', green: 'greenValue', blue: 'blueValue'\x7d);",
    { captured command (.bare .log) [.text "myobject", object "obj40"] with
      objects := .ofList [previewed "obj40" "Object" 3 (.object (properties [("red",
        .string "redValue"), ("green", .string "greenValue"), ("blue", .string "blueValue")])
        (some 3))] }),
  ("console.debug('debug message');", captured command (.bare .debug) [.text "debug message"]),
  ("console.info('info message');", captured command (.bare .info) [.text "info message"]),
  ("console.error('error message');",
    captured (place "child1/source30" 1 35) (.error (some
      [frame "triggerPacket" "child1/source30" 1 35])) [.text "error message"]),
  ("console.log(Symbol.for('foo'))",
    { captured (place "process7//source20" 1 35) (.bare .log)
      [.reference ⟨⟨"server0.conn0.process7//symbol46"⟩, .symbol⟩] with
      innerWindowId := some 15032385537,
      objects := .ofList [.symbol ⟨"server0.conn0.process7//symbol46"⟩ (some "foo")] }),
  ("console.log(Symbol.for('bar'))",
    { captured (place "process7//source20" 1 35) (.bare .log)
      [.reference ⟨⟨"server0.conn0.process7//symbol48"⟩, .symbol⟩] with
      innerWindowId := some 15032385537,
      objects := .ofList [.symbol ⟨"server0.conn0.process7//symbol48"⟩ (some "bar")] })]

/-- Maps and sets. -/
def collections : List (String × Record) := [
  ("console.log('mymap')",
    { captured (place "child1/source46" 5 11) (.bare .log) [.text "mymap", object "obj45"] with
      objects := .ofList [previewed "obj45" "Map" 0 (.mapLike 2 [(.string "key1",
        .string "value1"), (.string "key2", .string "value2")])] }),
  ("console.log('myset')",
    { captured (place "child1/source48" 2 11) (.bare .log) [.text "myset", object "obj47"] with
      objects := .ofList [previewed "obj47" "Set" 0 (.arrayLike 2 [.string "a", .string "b"])] })]

/-- Calls that show a stack. -/
def traces : List (String × Record) := [
  ("console.trace()",
    captured (place "child1/source50" 3 13) (.trace
      [frame "testStacktraceFiltering" "child1/source50" 3 13, frame "foo" "child1/source50" 6 5,
      frame "triggerPacket" "child1/source50" 9 3]) []),
  ("console.trace('bar', \x7b'foo': 'bar'\x7d, [1,2,3])",
    { captured (place "child1/source51" 3 13) (.trace
      [frame "testStacktraceWithLog" "child1/source51" 3 13, frame "foo" "child1/source50" 6 5,
      frame "triggerPacket" "child1/source50" 9 3]) [.text "bar", object "obj50", object "obj51"]
      with
      objects := .ofList [previewed "obj50" "Object" 1 (.object (properties [("foo",
        .string "bar")]) (some 1)), previewed "obj51" "Array" 4 (.arrayLike 3 [.nat 1, .nat 2,
        .nat 3])] }),
  ("console.trace(\"%cHello%c|%cWorld\")",
    { captured (place "child3/source57" 2 13) (.trace
      [frame "triggerPacket" "child3/source57" 2 13]) [.text "Hello", .text "|", .text "World"]
      with
      innerWindowId := some 10737418241,
      styles := ["color:red", "", "color: blue"] })]

/-- Timers that start, run, stop, and are missing. -/
def timers : List (String × Record) := [
  ("console.time('bar')",
    captured (place "child1/source48" 2 11) (.time ⟨"bar", none, none⟩) [.text "bar"]),
  ("timerAlreadyExists",
    captured (place "child1/source54" 3 11) (.time ⟨"bar", none, some "timerAlreadyExists"⟩)
      [.text "bar"]),
  ("console.timeLog('bar') - 1",
    captured (place "child1/source54" 4 11) (.timeLog ⟨"bar", some (.ofInt 4), none⟩)
      [.text "bar"]),
  ("console.timeLog('bar') - 2",
    { captured (place "child1/source46" 5 11) (.timeLog ⟨"bar", some (.ofInt 5), none⟩)
      [.text "bar", .text "second call", object "obj54"] with
      objects := .ofList [previewed "obj54" "Object" 1 (.object (properties [("state", .nat 1)])
        (some 1))] }),
  ("console.timeEnd('bar')",
    captured (place "child1/source54" 6 11) (.timeEnd ⟨"bar", some (.ofInt 9), none⟩)
      [.text "bar"]),
  ("timeEnd.timerDoesntExist",
    captured (place "child1/source54" 7 11) (.timeEnd ⟨"bar", none, some "timerDoesntExist"⟩)
      [.text "bar"]),
  ("timeLog.timerDoesntExist",
    captured (place "child1/source54" 8 11) (.timeLog ⟨"bar", none, some "timerDoesntExist"⟩)
      [.text "bar"])]

/-- Tables of something and of nothing tabular. -/
def tables : List (String × Record) := [
  ("console.table('bar')", captured (place "child1/source48" 2 11) (.bare .table) [.text "bar"]),
  ("console.table(['a', 'b', 'c'])",
    { captured (place "child1/source48" 2 11) (.bare .table) [object "obj57"] with
      objects := .ofList [tabled "obj57" "Array" 4 (properties [("0", .string "a"), ("1",
        .string "b"), ("2", .string "c")])] })]

/-- Groups that open and close. -/
def groups : List (String × Record) := [
  ("console.group('bar')", captured (place "child1/source48" 2 11) (.bare .group) [.text "bar"]),
  ("console.groupEnd('bar')", captured (place "child1/source54" 3 11) (.bare .groupEnd) []),
  ("console.groupCollapsed('foo')",
    captured (place "child1/source48" 2 11) (.bare .groupCollapsed) [.text "foo"]),
  ("console.groupEnd('foo')", captured (place "child1/source54" 3 11) (.bare .groupEnd) []),
  ("console.group()", captured (place "child1/source48" 2 11) (.bare .group) []),
  ("console.groupEnd()", captured (place "child1/source54" 3 11) (.bare .groupEnd) [])]

/-- Calls whose template the producer has split into styles. -/
def styled : List (String × Record) := [
  ("console.log(%cfoobar)",
    { captured (place "child1/source48" 2 11) (.bare .log) [.text "foo", .text "bar"] with
      styles :=
        ["color:blue; font-size:1.3em; "
          ++ "background:url('data:image/png,base64,iVBORw0KGgoAAAAN'), "
          ++ "url('https://example.com/test'); position:absolute; top:10px; ",
        "color:red; line-height: 1.5; background:url('https://example.com/test')"] }),
  ("console.log(\"%cHello%c|%cWorld\")",
    { captured (place "child1/source63" 2 13) (.bare .log) [.text "Hello", .text "|",
      .text "World"] with
      styles := ["color:red", "", "color: blue"] }),
  ("console.group(%cfoo%cbar)",
    { captured (place "child1/source48" 2 11) (.bare .group) [.text "foo", .text "bar"] with
      styles :=
        ["color:blue;font-size:1.3em;background:url('https://example.com/test');"
          ++ "position:absolute;top:10px",
        "color:red;background:url('https://example.com/test')"] }),
  ("console.groupEnd(%cfoo%cbar)", captured (place "child1/source54" 6 11) (.bare .groupEnd) []),
  ("console.groupCollapsed(%cfoo%cbaz)",
    { captured (place "child1/source48" 2 11) (.bare .groupCollapsed) [.text "foo", .text "baz"]
      with
      styles :=
        ["color:blue;font-size:1.3em;background:url('https://example.com/test');"
          ++ "position:absolute;top:10px",
        "color:red;background:url('https://example.com/test')"] }),
  ("console.groupEnd(%cfoo%cbaz)", captured (place "child1/source54" 6 11) (.bare .groupEnd) [])]

/-- An object listed. -/
def listings : List (String × Record) := [
  ("console.dir(\x7bC, M, Y, K\x7d)",
    { captured command (.bare .dir) [object "obj66"] with
      objects := .ofList [previewed "obj66" "Object" 4 (.object (properties [("cyan",
        .string "C"), ("magenta", .string "M"), ("yellow", .string "Y"), ("black", .string "K")])
        (some 4))] })]

/-- Counters that count, are reset, and are missing. -/
def counters : List (String × Record) := [
  ("console.count | default: 1",
    captured (place "child1/source68" 2 15) (.count ⟨"default", some 1, none⟩) [.text "default"]),
  ("console.count | default: 2",
    captured (place "child1/source68" 3 15) (.count ⟨"default", some 2, none⟩) [.text "default"]),
  ("console.count | test counter: 1",
    captured (place "child1/source68" 4 15) (.count ⟨"test counter", some 1, none⟩)
      [.text "test counter"]),
  ("console.count | test counter: 2",
    captured (place "child1/source68" 5 15) (.count ⟨"test counter", some 2, none⟩)
      [.text "test counter"]),
  ("console.count | default: 3",
    captured (place "child1/source68" 6 15) (.count ⟨"default", some 3, none⟩) [.text "default"]),
  ("console.count | clear", captured (place "child1/source68" 7 15) (.bare .clear) []),
  ("console.count | default: 4",
    captured (place "child1/source68" 8 15) (.count ⟨"default", some 4, none⟩) [.text "default"]),
  ("console.count | test counter: 3",
    captured (place "child1/source68" 9 15) (.count ⟨"test counter", some 3, none⟩)
      [.text "test counter"]),
  ("console.countReset | test counter: 0",
    captured (place "child1/source68" 10 15) (.countReset ⟨"test counter", some 0, none⟩)
      [.text "test counter"]),
  ("console.countReset | counterDoesntExist",
    captured (place "child1/source68" 11 15) (.countReset ⟨"test counter", none,
      some "counterDoesntExist"⟩) [.text "test counter"])]

/-- Characters that need escaping. -/
def escapes : List (String × Record) := [
  ("console.log escaped characters",
    captured command (.bare .log) [.text "hello \nfrom \rthe \"string world!"])]

/-! ### The corpus -/

/-- All captured calls by the code that was run. -/
def records : List (String × Record) :=
  evaluated ++ collections ++ traces ++ timers ++ tables ++ groups
    ++ styled ++ listings ++ counters ++ escapes

/-- The corpus as a store. -/
def store : Store := { records := .ofList records }

end Console.Corpus
