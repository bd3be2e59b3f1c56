import Console.Grip
import Console.Proofs.Json.Reading

/-! # Grips read back

    A grip is written with its defaults filled in and without its absent fields, and reads
    back unchanged as long as no property holds a null, which is how the wire says that a
    property has no value:

    - `Grip.ofJson?_toJson`: a grip without such a property reads back,
    - `Grip.nonnull_of_ofJson?`: reading never makes such a property.

    Together they say that a grip which has been read once reads back for good.
-/

namespace Console

open Parts

/-! ### Properties without nulls -/

/-- Says that neither value nor getter is a null, which would be read as absent. -/
def PropertyDescriptor.Nonnull (d : PropertyDescriptor) : Prop :=
  d.value ≠ some .null ∧ d.get ≠ some .null

/-- Says that no property of a table holds a null. -/
def PropertyDescriptor.AllNonnull (table : PropertyTable) : Prop :=
  ∀ entry ∈ table.entries, entry.2.Nonnull

/-- Says that no property of a preview holds a null. -/
def GripPreview.Nonnull : GripPreview → Prop
  | .object table _ => PropertyDescriptor.AllNonnull table
  | _ => True

/-- Says that no property of an object, in its preview or in its table, holds a null. -/
def ObjectGrip.Nonnull (g : ObjectGrip) : Prop :=
  (∀ p ∈ g.preview, p.Nonnull) ∧ ∀ table ∈ g.ownProperties, PropertyDescriptor.AllNonnull table

/-- Says that no property of a described value holds a null. -/
def Grip.Nonnull : Grip → Prop
  | .object g => g.Nonnull
  | _ => True

section
variable {members : List (String × Json)}

/-! ### Properties -/

namespace PropertyDescriptor

theorem ofJson?_object {d : PropertyDescriptor} (hd : d.Nonnull)
    (hvalue : lookupEntry "value" members = d.value) (hget : lookupEntry "get" members = d.get)
    (hconfigurable : lookupEntry "configurable" members = some (.bool d.configurable))
    (henumerable : lookupEntry "enumerable" members = some (.bool d.enumerable))
    (hwritable : lookupEntry "writable" members = some (.bool d.writable)) :
    ofJson? (.object members) = some d := by
  simp only [ofJson?, Parts.ofJson?, Option.bind_eq_bind, Option.bind_some]
  rw [maybe_json hvalue hd.1, maybe_json hget hd.2, defaulted_bool hconfigurable,
    defaulted_bool henumerable, defaulted_bool hwritable]
  rfl

theorem ofJson?_toJson {d : PropertyDescriptor} (hd : d.Nonnull) : ofJson? d.toJson = some d :=
  ofJson?_object hd (by simp [lookupEntry]) (by simp [lookupEntry]) (by simp [lookupEntry])
    (by simp [lookupEntry]) (by simp [lookupEntry])

theorem nonnull_of_ofJson? {value : Json} {d : PropertyDescriptor} (h : ofJson? value = some d) :
    d.Nonnull := by
  simp only [ofJson?, Option.bind_eq_bind, Option.bind_eq_some_iff] at h
  obtain ⟨parts, -, v, hv, g, hg, _, -, _, -, _, -, h⟩ := h
  cases h
  constructor
  · rintro rfl
    obtain ⟨x, hx, h⟩ := of_maybe hv
    cases h
    exact hx rfl
  · rintro rfl
    obtain ⟨x, hx, h⟩ := of_maybe hg
    cases h
    exact hx rfl

theorem mapOf?_tableToJson {table : PropertyTable} (h : AllNonnull table) :
    Json.mapOf? ofJson? (tableToJson table) = some table :=
  Json.mapOf?_map fun entry hentry => ofJson?_toJson (h entry hentry)

theorem allNonnull_of_mapOf? {value : Json} {table : PropertyTable}
    (h : Json.mapOf? ofJson? value = some table) : AllNonnull table := by
  intro entry hentry
  obtain ⟨item, hitem⟩ := Json.of_mem_mapOf? h hentry
  exact nonnull_of_ofJson? hitem

theorem allNonnull_empty : AllNonnull OrderedMap.empty := fun _ h => nomatch h

end PropertyDescriptor

/-! ### Previews -/

namespace GripPreview

theorem entryOfJson?_array (entry : Json × Json) :
    entryOfJson? (.array [entry.1, entry.2]) = some entry := rfl

/-- A preview is read by its kind. -/
theorem ofJson?_object (name : String) {kind : Kind}
    (hname : lookupEntry "kind" members = some (.string name))
    (hkind : kindOfJson? (.string name) = some kind) :
    ofJson? (.object members) = ofParts? (named members) kind := by
  simp [ofJson?, tagged?, hname, hkind]

theorem ofParts?_object {table : PropertyTable} {reported : Option UInt64}
    (h : PropertyDescriptor.AllNonnull table)
    (htable : lookupEntry "ownProperties" members = some (PropertyDescriptor.tableToJson table))
    (hreported : lookupEntry "ownPropertiesLength" members = reported.map fun n => .nat n.toNat) :
    ofParts? (named members) .object = some (.object table reported) := by
  have hfield := @defaulted_named _ _ 0 _ _ _ _ OrderedMap.empty htable
    (PropertyDescriptor.mapOf?_tableToJson h)
  have hlength := @maybe_uint64 _ 1 _ _ hreported
  rw [ofParts?, guard_fits_bind, hfield, hlength]
  rfl

theorem ofParts?_arrayLike {length : UInt64} {items : List Json}
    (hlength : lookupEntry "length" members = some (.nat length.toNat))
    (hitems : lookupEntry "items" members = some (.array items)) :
    ofParts? (named members) .arrayLike = some (.arrayLike length items) := by
  have hfirst := @defaulted_uint64 _ 0 _ _ 0 hlength
  have hsecond := @defaulted_named _ _ 1 _ Json.items? Json.array items [] hitems rfl
  rw [ofParts?, guard_fits_bind, hfirst, hsecond]
  rfl

theorem ofParts?_mapLike {size : UInt64} {entries : List (Json × Json)}
    (hsize : lookupEntry "size" members = some (.nat size.toNat))
    (hentries : lookupEntry "entries" members =
      some (.array (entries.map fun entry => .array [entry.1, entry.2]))) :
    ofParts? (named members) .mapLike = some (.mapLike size entries) := by
  have hfirst := @defaulted_uint64 _ 0 _ _ 0 hsize
  have hsecond := @defaulted_named _ _ 1 _ (Json.listOf? entryOfJson?)
    (fun entries => .array (entries.map fun entry => .array [entry.1, entry.2])) entries []
    hentries (Json.listOf?_map fun entry _ => entryOfJson?_array entry)
  rw [ofParts?, guard_fits_bind, hfirst, hsecond]
  rfl

theorem ofParts?_objectWithUrl {url : String}
    (hurl : lookupEntry "url" members = some (.string url)) :
    ofParts? (named members) .objectWithUrl = some (.objectWithUrl url) := by
  have hfirst := @defaulted_string _ 0 _ _ "" hurl
  rw [ofParts?, guard_fits_bind, hfirst]
  rfl

theorem ofParts?_error {name message : String} {stack : Option String}
    (hname : lookupEntry "name" members = some (.string name))
    (hmessage : lookupEntry "message" members = some (.string message))
    (hstack : lookupEntry "stack" members = stack.map .string) :
    ofParts? (named members) .error = some (.error name message stack) := by
  have hfirst := @defaulted_string _ 0 _ _ "" hname
  have hsecond := @defaulted_string _ 1 _ _ "" hmessage
  have hthird := @maybe_string _ 2 _ _ hstack
  rw [ofParts?, guard_fits_bind, hfirst, hsecond, hthird]
  rfl

theorem ofParts?_other : ofParts? (named members) .other = some .other := rfl

theorem ofJson?_toJson {p : GripPreview} (h : p.Nonnull) : ofJson? p.toJson = some p := by
  cases p with
  | object table reported =>
    exact (ofJson?_object "Object" (by simp [lookupEntry]) rfl).trans
      (ofParts?_object h (by simp [lookupEntry]) (by simp [lookupEntry]))
  | arrayLike length items =>
    exact (ofJson?_object "ArrayLike" (by simp [lookupEntry]) rfl).trans
      (ofParts?_arrayLike (by simp [lookupEntry]) (by simp [lookupEntry]))
  | mapLike size entries =>
    exact (ofJson?_object "MapLike" (by simp [lookupEntry]) rfl).trans
      (ofParts?_mapLike (by simp [lookupEntry]) (by simp [lookupEntry]))
  | objectWithUrl url =>
    exact (ofJson?_object "ObjectWithURL" (by simp [lookupEntry]) rfl).trans
      (ofParts?_objectWithUrl (by simp [lookupEntry]))
  | error name message stack =>
    exact (ofJson?_object "Error" (by simp [lookupEntry]) rfl).trans
      (ofParts?_error (by simp [lookupEntry]) (by simp [lookupEntry]) (by simp [lookupEntry]))
  | other => exact (ofJson?_object "Other" (by simp [lookupEntry]) rfl).trans ofParts?_other

theorem nonnull_of_ofJson? {value : Json} {p : GripPreview} (h : ofJson? value = some p) :
    p.Nonnull := by
  obtain ⟨⟨tag, parts⟩, -, h⟩ := Option.bind_eq_some_iff.1 h
  obtain ⟨kind, -, h⟩ := Option.bind_eq_some_iff.1 h
  rw [ofParts?.eq_def] at h
  -- after the guard, a preview has up to three fields
  cases kind with
  | object =>
    obtain ⟨-, -, h⟩ := Option.bind_eq_some_iff.1 h
    obtain ⟨table, htable, h⟩ := Option.bind_eq_some_iff.1 h
    obtain ⟨reported, -, h⟩ := Option.bind_eq_some_iff.1 h
    cases h
    unfold defaulted at htable
    split at htable
    · cases htable
      exact PropertyDescriptor.allNonnull_empty
    · exact PropertyDescriptor.allNonnull_of_mapOf? htable
  | arrayLike | mapLike =>
    iterate 3 obtain ⟨_, -, h⟩ := Option.bind_eq_some_iff.1 h
    cases h
    trivial
  | objectWithUrl =>
    iterate 2 obtain ⟨_, -, h⟩ := Option.bind_eq_some_iff.1 h
    cases h
    trivial
  | error =>
    iterate 4 obtain ⟨_, -, h⟩ := Option.bind_eq_some_iff.1 h
    cases h
    trivial
  | other =>
    obtain ⟨_, -, h⟩ := Option.bind_eq_some_iff.1 h
    cases h
    trivial

end GripPreview

/-! ### Grips -/

theorem ObjectGrip.ofParts?_named {g : ObjectGrip} (h : g.Nonnull)
    (hactor : lookupEntry "actor" members = some (.string g.actor.text))
    (hclass : lookupEntry "class" members = some (.string g.className))
    (hlength : lookupEntry "ownPropertyLength" members =
      g.ownPropertyLength.map fun n => .nat n.toNat)
    (hextensible : lookupEntry "extensible" members = some (.bool g.extensible))
    (hfrozen : lookupEntry "frozen" members = some (.bool g.frozen))
    (hsealed : lookupEntry "sealed" members = some (.bool g.sealed))
    (herror : lookupEntry "isError" members = some (.bool g.isError))
    (hdisplay : lookupEntry "displayString" members = g.displayString.map .string)
    (hpreview : lookupEntry "preview" members = g.preview.map GripPreview.toJson)
    (htable : lookupEntry "ownProperties" members =
      g.ownProperties.map PropertyDescriptor.tableToJson) :
    ObjectGrip.ofParts? (named members) = some g := by
  have hpreview' := @maybe_named _ _ 8 _ GripPreview.ofJson? _ _ hpreview
    (fun p hp => GripPreview.ofJson?_toJson (h.1 p hp)) (fun p _ => by cases p <;> nofun)
  have htable' := @maybe_named _ _ 9 _ (Json.mapOf? PropertyDescriptor.ofJson?) _ _ htable
    (fun t ht => PropertyDescriptor.mapOf?_tableToJson (h.2 t ht)) (fun _ _ => nofun)
  rw [ofParts?, guard_fits_bind, needed_string hactor, defaulted_string hclass,
    maybe_uint64 hlength, defaulted_bool hextensible, defaulted_bool hfrozen,
    defaulted_bool hsealed, defaulted_bool herror, maybe_string hdisplay, hpreview', htable']
  rfl

theorem ObjectGrip.nonnull_of_ofParts? {parts : Parts} {g : ObjectGrip}
    (h : ObjectGrip.ofParts? parts = some g) : g.Nonnull := by
  unfold ObjectGrip.ofParts? at h
  -- the guard and eight fields come before the preview
  iterate 9 obtain ⟨_, -, h⟩ := Option.bind_eq_some_iff.1 h
  obtain ⟨preview, hpreview, h⟩ := Option.bind_eq_some_iff.1 h
  obtain ⟨table, htable, h⟩ := Option.bind_eq_some_iff.1 h
  cases h
  constructor
  · rintro p rfl
    obtain ⟨value, -, hvalue⟩ := of_maybe hpreview
    exact GripPreview.nonnull_of_ofJson? hvalue
  · rintro t rfl
    obtain ⟨value, -, hvalue⟩ := of_maybe htable
    exact PropertyDescriptor.allNonnull_of_mapOf? hvalue

namespace Grip

/-- A grip is read by its type. -/
theorem ofJson?_object {t : ReferenceType}
    (htype : lookupEntry "type" members = some (.string t.name)) :
    ofJson? (.object members) = ofParts? (named members) t := by
  cases t <;> simp [ofJson?, tagged?, htype, ReferenceType.name, ReferenceType.ofName?]

theorem ofParts?_object {parts : Parts} {g : ObjectGrip}
    (h : ObjectGrip.ofParts? parts = some g) : ofParts? parts .object = some (.object g) := by
  simp [ofParts?, h]

theorem ofParts?_symbol {actor : ActorId} {name : Option String}
    (hactor : lookupEntry "actor" members = some (.string actor.text))
    (hname : lookupEntry "name" members = name.map .string) :
    ofParts? (named members) .symbol = some (.symbol actor name) := by
  have hfirst := @needed_string _ 0 _ _ hactor
  have hsecond := @maybe_string _ 1 _ _ hname
  rw [ofParts?, guard_fits_bind, hfirst, hsecond]
  rfl

theorem ofParts?_longString {actor : ActorId} {initial : String} {length : UInt64}
    (hactor : lookupEntry "actor" members = some (.string actor.text))
    (hinitial : lookupEntry "initial" members = some (.string initial))
    (hlength : lookupEntry "length" members = some (.nat length.toNat)) :
    ofParts? (named members) .longString = some (.longString actor initial length) := by
  have hfirst := @needed_string _ 0 _ _ hactor
  have hsecond := @needed_string _ 1 _ _ hinitial
  have hthird := @needed_named _ _ 2 _ Json.uint64? (fun n : UInt64 => .nat n.toNat) length
    hlength (Json.uint64?_nat length)
  rw [ofParts?, guard_fits_bind, hfirst, hsecond, hthird]
  rfl

/-- A grip without nulls reads back. -/
theorem ofJson?_toJson {g : Grip} (h : g.Nonnull) : ofJson? g.toJson = some g := by
  cases g with
  | object g =>
    exact (ofJson?_object (t := .object) (by simp [lookupEntry, ReferenceType.name])).trans
      (ofParts?_object (ObjectGrip.ofParts?_named h (by simp [lookupEntry])
        (by simp [lookupEntry]) (by simp [lookupEntry]) (by simp [lookupEntry])
        (by simp [lookupEntry]) (by simp [lookupEntry]) (by simp [lookupEntry])
        (by simp [lookupEntry]) (by simp [lookupEntry]) (by simp [lookupEntry])))
  | symbol actor name =>
    exact (ofJson?_object (t := .symbol) (by simp [lookupEntry, ReferenceType.name])).trans
      (ofParts?_symbol (by simp [lookupEntry]) (by simp [lookupEntry]))
  | longString actor initial length =>
    exact (ofJson?_object (t := .longString) (by simp [lookupEntry, ReferenceType.name])).trans
      (ofParts?_longString (by simp [lookupEntry]) (by simp [lookupEntry]) (by simp [lookupEntry]))

/-- Reading never makes a null. -/
theorem nonnull_of_ofJson? {value : Json} {g : Grip} (h : ofJson? value = some g) : g.Nonnull := by
  obtain ⟨⟨tag, parts⟩, -, h⟩ := Option.bind_eq_some_iff.1 h
  obtain ⟨name, -, h⟩ := Option.bind_eq_some_iff.1 h
  obtain ⟨type, -, h⟩ := Option.bind_eq_some_iff.1 h
  rw [ofParts?.eq_def] at h
  -- symbols and long strings have no properties
  cases type with
  | object =>
    obtain ⟨g, hg, rfl⟩ := Option.map_eq_some_iff.1 h
    exact ObjectGrip.nonnull_of_ofParts? hg
  | symbol =>
    iterate 3 obtain ⟨_, -, h⟩ := Option.bind_eq_some_iff.1 h
    cases h
    trivial
  | longString =>
    iterate 4 obtain ⟨_, -, h⟩ := Option.bind_eq_some_iff.1 h
    cases h
    trivial

end Grip

end

end Console
