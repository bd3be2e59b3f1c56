import Console.Front.Basic

/-! # Previews under limits

    A preview shows the first children of a value: its properties, its items or its entries,
    as many as the limit for them keeps. Limits change nothing else, so fronts of one grip
    under different limits differ only in where their lists of children end.

    - `Element`: a child, as a grip carries it or as a preview shows it,
    - `Preview.bare`: a preview without its children,
    - `Front.elements_ofGrip`: what is shown are the first children that the grip carries,
      reduced one by one,
    - `Front.bare_ofGrip`, `Front.total?_ofGrip`: what does not depend on the limits,
    - `Front.limits_only_cut`: the fronts of a grip under two limits.
-/

namespace Console

/-! ### Children -/

/-- A child of a value: a property under its name, an item, or an entry of a map. -/
inductive Element (π α : Type) where
  | property (name : String) (value : π)
  | item (value : α)
  | entry (key value : α)
  deriving DecidableEq

namespace Element

/-- A child as a grip carries it. -/
abbrev Carried : Type := Element PropertyDescriptor Json

/-- A child as a preview shows it. -/
abbrev Shown : Type := Element Child Child

/-- The child that is shown for one that is carried. -/
def reduced : Carried → Shown
  | property name descriptor => property name (Child.ofDescriptor descriptor)
  | item value => item (Child.ofJson value)
  | entry key value => entry (Child.ofJson key) (Child.ofJson value)

end Element

open Element (Carried Shown)

namespace Preview

/-- The children that are shown. -/
def elements : Preview → List Shown
  | object properties _ => properties.map fun p => .property p.1 p.2
  | arrayLike items _ => items.map .item
  | mapLike entries _ => entries.map fun e => .entry e.1 e.2
  | _ => []

/-- How many children there are in all, shown or not. -/
def total? : Preview → Option Nat
  | object _ total => some total
  | arrayLike _ length => some length
  | mapLike _ size => some size
  | _ => .none

/-- The preview without its children. -/
def bare : Preview → Preview
  | object _ total => object [] total
  | arrayLike _ length => arrayLike [] length
  | mapLike _ size => mapLike [] size
  | preview => preview

/-- A preview is known from its children and from what it is without them. -/
theorem eq_of_bare_eq {p q : Preview} (hbare : p.bare = q.bare) (h : p.elements = q.elements) :
    p = q := by
  cases p with
  | object properties total =>
    cases q with
    | object others =>
      cases hbare
      rw [(List.map_inj_right (by rintro ⟨_, _⟩ ⟨_, _⟩ ⟨⟩; rfl)).1 h]
    | _ => cases hbare
  | arrayLike items length =>
    cases q with
    | arrayLike others =>
      cases hbare
      rw [(List.map_inj_right (by rintro _ _ ⟨⟩; rfl)).1 h]
    | _ => cases hbare
  | mapLike entries size =>
    cases q with
    | mapLike others =>
      cases hbare
      rw [(List.map_inj_right (by rintro ⟨_, _⟩ ⟨_, _⟩ ⟨⟩; rfl)).1 h]
    | _ => cases hbare
  | _ =>
    -- without children the two are what is compared
    cases q with
    | object | arrayLike | mapLike => cases hbare
    | _ => exact hbare

end Preview

/-! ### What grips carry -/

/-- The properties of a table as children. -/
def PropertyTable.elements (table : PropertyTable) : List Carried :=
  table.entries.map fun p => .property p.1 p.2

namespace ObjectGrip

/-- The children that the object carries: those of its preview, or else, if it has none that
    is known, those of its property table. -/
def elements (grip : ObjectGrip) : List Carried :=
  match grip.preview with
  | some (.object table _) => PropertyTable.elements table
  | some (.arrayLike _ items) => items.map .item
  | some (.mapLike _ entries) => entries.map fun e => .entry e.1 e.2
  | some (.objectWithUrl _) | some (.error ..) => []
  | some .other | .none => (grip.ownProperties.map PropertyTable.elements).getD []

/-- The limit for the children that the object carries. -/
def limit (grip : ObjectGrip) (limits : Limits) : Nat :=
  match grip.preview with
  | some (.arrayLike ..) => limits.maxItems
  | some (.mapLike ..) => limits.maxEntries
  | _ => limits.maxProperties

/-- How many children the object is said to have: the length or the size of its preview. Of
    properties there are as many as the preview reports, or else as many as the object
    reports; if neither does, and in a property table, as many as are carried. -/
def total? (grip : ObjectGrip) : Option Nat :=
  match grip.preview with
  | some (.object table reported) =>
    match reported, grip.ownPropertyLength with
    | some count, _ => some count.toNat
    | .none, some count => some count.toNat
    | .none, .none => some table.size
  | some (.arrayLike length _) => some length.toNat
  | some (.mapLike size _) => some size.toNat
  | some (.objectWithUrl _) | some (.error ..) => .none
  | some .other | .none => grip.ownProperties.map OrderedMap.size

variable (grip : ObjectGrip) (limits wider : Limits)

/-! #### What is shown of it -/

/-- Children can be reduced before or after the first of them are taken. -/
theorem map_reduced_take {α : Type} (carried : α → Carried) (xs : List α) (limit : Nat) :
    ((xs.map carried).take limit).map Element.reduced =
      (xs.take limit).map fun x => (carried x).reduced := by
  rw [← List.map_take, List.map_map]
  rfl

theorem elements_firstProperties (table : PropertyTable) (limit total : Nat) :
    (Preview.object (firstProperties table limit) total).elements =
      ((PropertyTable.elements table).take limit).map Element.reduced := by
  rw [PropertyTable.elements, map_reduced_take]
  exact List.map_map

theorem elements_tablePreview : (grip.tablePreview limits).elements =
    (((grip.ownProperties.map PropertyTable.elements).getD []).take limits.maxProperties).map
      Element.reduced := by
  unfold tablePreview
  cases grip.ownProperties with
  | none =>
    rw [Option.map_none, Option.getD_none, List.take_nil]
    rfl
  | some table => exact elements_firstProperties table _ _

theorem elements_limitedPreview : (grip.limitedPreview limits).elements =
    (grip.elements.take (grip.limit limits)).map Element.reduced := by
  unfold limitedPreview elements limit
  cases grip.preview with
  | none => exact grip.elements_tablePreview limits
  | some preview =>
    cases preview with
    | object table => exact elements_firstProperties table _ _
    | arrayLike length items =>
      rw [map_reduced_take]
      exact List.map_map
    | mapLike size entries =>
      rw [map_reduced_take]
      exact List.map_map
    | objectWithUrl | error =>
      rw [List.take_nil]
      rfl
    | other => exact grip.elements_tablePreview limits

/-! #### What does not depend on the limits -/

theorem bare_tablePreview :
    (grip.tablePreview limits).bare = (grip.tablePreview wider).bare := by
  unfold tablePreview
  cases grip.ownProperties <;> rfl

theorem bare_limitedPreview :
    (grip.limitedPreview limits).bare = (grip.limitedPreview wider).bare := by
  unfold limitedPreview
  cases grip.preview with
  | none => exact grip.bare_tablePreview limits wider
  | some preview =>
    cases preview with
    | other => exact grip.bare_tablePreview limits wider
    | _ => rfl

theorem total?_tablePreview :
    (grip.tablePreview limits).total? = grip.ownProperties.map OrderedMap.size := by
  unfold tablePreview
  cases grip.ownProperties <;> rfl

theorem total?_limitedPreview : (grip.limitedPreview limits).total? = grip.total? := by
  unfold limitedPreview total?
  cases grip.preview with
  | none => exact grip.total?_tablePreview limits
  | some preview =>
    cases preview with
    | object table reported =>
      cases reported with
      | some count => rfl
      | none => cases grip.ownPropertyLength <;> rfl
    | other => exact grip.total?_tablePreview limits
    | _ => rfl

end ObjectGrip

namespace Grip

/-- The children that the grip carries; only objects have some. -/
def elements : Grip → List Carried
  | object grip => grip.elements
  | _ => []

/-- The limit for the children that the grip carries. -/
def limit (limits : Limits) : Grip → Nat
  | object grip => grip.limit limits
  | _ => 0

/-- How many children the value is said to have. -/
def total? : Grip → Option Nat
  | object grip => grip.total?
  | _ => none

end Grip

/-! ### Fronts -/

/-- Limits of which none is greater. -/
instance : LE Limits where
  le limits wider := limits.maxItems ≤ wider.maxItems ∧
    limits.maxProperties ≤ wider.maxProperties ∧ limits.maxEntries ≤ wider.maxEntries

theorem Grip.limit_mono (grip : Grip) {limits wider : Limits} (h : limits ≤ wider) :
    grip.limit limits ≤ grip.limit wider := by
  obtain ⟨hitems, hproperties, hentries⟩ := h
  cases grip with
  | object grip =>
    show grip.limit limits ≤ grip.limit wider
    unfold ObjectGrip.limit
    split
    · exact hitems
    · exact hentries
    · exact hproperties
  | symbol | longString => exact Nat.le_refl 0

namespace Front

variable (grip : Grip) (limits wider : Limits)

/-- The front without the children of its preview. -/
def bare (front : Front) : Front := { front with preview := front.preview.bare }

theorem elements_ofGrip : (ofGrip limits grip).preview.elements =
    (grip.elements.take (grip.limit limits)).map Element.reduced := by
  cases grip with
  | object grip => exact grip.elements_limitedPreview limits
  | symbol | longString => rfl

theorem bare_ofGrip : (ofGrip limits grip).bare = (ofGrip wider grip).bare := by
  cases grip with
  | object grip =>
    unfold bare ofGrip
    rw [grip.bare_limitedPreview limits wider]
  | symbol | longString => rfl

theorem total?_ofGrip : (ofGrip limits grip).preview.total? = grip.total? := by
  cases grip with
  | object grip => exact grip.total?_limitedPreview limits
  | symbol | longString => rfl

/-- A front is known from the children of its preview and from what it is without them. -/
theorem eq_of_bare_eq {front other : Front} (hbare : front.bare = other.bare)
    (h : front.preview.elements = other.preview.elements) : front = other := by
  have hpreview : front.preview.bare = other.preview.bare := congrArg Front.preview hbare
  cases front
  cases other
  cases Preview.eq_of_bare_eq hpreview h
  cases hbare
  rfl

/-- Limits only cut: of the children that a grip carries the front shows the first, as many as
    their limit keeps, each reduced, and the number reported is the same under all limits.
    Under wider limits the front is the same but for further children behind these, and it is
    the same altogether if none were left out. -/
theorem limits_only_cut (grip : Grip) {limits wider : Limits} (h : limits ≤ wider) :
    let front := ofGrip limits grip
    let larger := ofGrip wider grip
    front.bare = larger.bare ∧
    front.preview.elements <+: larger.preview.elements ∧
    (∀ l : Limits,
      (ofGrip l grip).preview.elements.length = min (grip.limit l) grip.elements.length ∧
      (∀ i < (ofGrip l grip).preview.elements.length,
        (ofGrip l grip).preview.elements[i]? = grip.elements[i]?.map Element.reduced) ∧
      (ofGrip l grip).preview.total? = grip.total?) ∧
    (grip.elements.length ≤ grip.limit limits → front = larger) := by
  intro front larger
  have hbare : front.bare = larger.bare := bare_ofGrip grip limits wider
  have hle : grip.limit limits ≤ grip.limit wider := grip.limit_mono h
  refine ⟨hbare, ?_, fun l => ⟨?_, ?_, total?_ofGrip grip l⟩, fun hall => ?_⟩
  · rw [elements_ofGrip, elements_ofGrip]
    exact (List.take_prefix_take_left hle).map Element.reduced
  · rw [elements_ofGrip, List.length_map, List.length_take]
  · intro i hi
    rw [elements_ofGrip, List.length_map, List.length_take] at hi
    have hlimit : i < grip.limit l := by omega
    rw [elements_ofGrip, List.getElem?_map, List.getElem?_take_of_lt hlimit]
  · apply eq_of_bare_eq hbare
    rw [elements_ofGrip, elements_ofGrip, List.take_of_length_le hall,
      List.take_of_length_le (by omega)]

/-- An object with a preview of an unknown kind and a table of three properties: one with a
    value, one with a getter and one with neither. -/
def tabled : Grip :=
  let property (value get : Option Json) : PropertyDescriptor := ⟨value, get, true, true, false⟩
  .object
    { actor := ⟨"a"⟩, className := "Array", ownPropertyLength := some 4, extensible := true
      frozen := false, sealed := false, isError := false, displayString := none
      preview := some .other
      ownProperties := some (.ofList [("x", property (some (.string "red")) none),
        ("y", property none (some (.bool true))), ("z", property none none)]) }

theorem limits_only_cut_tabled :
    let front := ofGrip { maxProperties := 1 } tabled
    let larger := ofGrip { maxProperties := 2 } tabled
    ({ maxProperties := 1 } : Limits) ≤ { maxProperties := 2 } ∧
    front.preview.elements = [.property "x" (.text "red")] ∧
    larger.preview.elements = [.property "x" (.text "red"), .property "y" .getter] ∧
    front.preview.elements <+: larger.preview.elements ∧
    front.bare = larger.bare ∧ front.preview.total? = some 3 := by
  intro front larger
  have hle : ({ maxProperties := 1 } : Limits) ≤ { maxProperties := 2 } :=
    ⟨by decide, by decide, by decide⟩
  obtain ⟨hbare, hcut, hfronts, -⟩ := limits_only_cut tabled hle
  obtain ⟨-, -, htotal⟩ := hfronts { maxProperties := 1 }
  exact ⟨hle, rfl, rfl, hcut, hbare, htotal⟩

end Front

end Console
