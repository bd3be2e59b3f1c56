import Console.Level
import Console.Literal
import Console.Proofs.Json.Reading
import Console.Record.Payload
import Console.Record.Reference

/-! # Payloads read back

    What a record carries beside its arguments is read back from its JSON unchanged:
    stack frames, counters and timers, and the literals, reference types and levels that
    are written by name.

    A structure is read from any object that holds its fields under their names
    (`ofJson?_object`), whatever else the object holds and in whatever order.
-/

namespace Console

open Parts

section
variable {members : List (String × Json)}

/-! ### Frames, counters and timers -/

theorem StackFrame.ofJson?_object {f : StackFrame}
    (hfilename : lookupEntry "filename" members = some (.string f.filename))
    (hfunction : lookupEntry "functionName" members = some (.string f.functionName))
    (hline : lookupEntry "lineNumber" members = some (.nat f.lineNumber.toNat))
    (hcolumn : lookupEntry "columnNumber" members = some (.nat f.columnNumber.toNat))
    (hsource : lookupEntry "sourceId" members = f.sourceId.map .string) :
    StackFrame.ofJson? (.object members) = some f := by
  simp only [ofJson?, Parts.ofJson?, Option.bind_eq_bind, Option.bind_some]
  rw [defaulted_string hfilename, defaulted_string hfunction, defaulted_uint32 hline,
    defaulted_uint32 hcolumn, maybe_string hsource]
  rfl

theorem StackFrame.ofJson?_toJson (f : StackFrame) : StackFrame.ofJson? f.toJson = some f :=
  StackFrame.ofJson?_object (by simp [lookupEntry]) (by simp [lookupEntry])
    (by simp [lookupEntry]) (by simp [lookupEntry]) (by simp [lookupEntry])

theorem Counter.ofJson?_object {c : Counter}
    (hlabel : lookupEntry "label" members = some (.string c.label))
    (hcount : lookupEntry "count" members = c.count.map fun n => .nat n.toNat)
    (herror : lookupEntry "error" members = c.error.map .string) :
    Counter.ofJson? (.object members) = some c := by
  simp only [ofJson?, Parts.ofJson?, Option.bind_eq_bind, Option.bind_some]
  rw [needed_string hlabel, maybe_uint64 hcount, maybe_string herror]
  rfl

theorem Counter.ofJson?_toJson (c : Counter) : Counter.ofJson? c.toJson = some c :=
  Counter.ofJson?_object (by simp [lookupEntry]) (by simp [lookupEntry]) (by simp [lookupEntry])

theorem Timer.ofJson?_object {t : Timer}
    (hname : lookupEntry "name" members = some (.string t.name))
    (hduration : lookupEntry "duration" members = t.duration.map .real)
    (herror : lookupEntry "error" members = t.error.map .string) :
    Timer.ofJson? (.object members) = some t := by
  simp only [ofJson?, Parts.ofJson?, Option.bind_eq_bind, Option.bind_some]
  rw [needed_string hname, maybe_named hduration (by simp) (fun _ _ h => nomatch h),
    maybe_string herror]
  rfl

theorem Timer.ofJson?_toJson (t : Timer) : Timer.ofJson? t.toJson = some t :=
  Timer.ofJson?_object (by simp [lookupEntry]) (by simp [lookupEntry]) (by simp [lookupEntry])

end

/-! ### Names -/

theorem ReferenceType.ofName?_name (t : ReferenceType) : ReferenceType.ofName? t.name = some t := by
  cases t <;> rfl

theorem Level.ofName?_name (l : Level) : Level.ofName? l.name = some l := by
  cases l <;> rfl

theorem Literal.ofJson?_toJson (l : Literal) : Literal.ofJson? l.toJson = some l := by
  cases l <;> rfl

/-- A literal is written as an object whose type is no reference type, and which neither
    holds a grip nor names an actor. -/
theorem Literal.exists_tag (l : Literal) : ∃ name members,
    l.toJson = .object (("type", .string name) :: members) ∧
      lookupEntry "_grip" members = none ∧ lookupEntry "actorID" members = none ∧
      ReferenceType.ofName? name = none := by
  cases l with
  | bigInt text => exact ⟨"BigInt", _, rfl, by simp [lookupEntry], by simp [lookupEntry], rfl⟩
  | _ => exact ⟨_, [], rfl, rfl, rfl, rfl⟩

end Console
