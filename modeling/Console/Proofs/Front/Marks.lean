import Console.Front.Summary
import Console.Proofs.Front.Limits

/-! # Marks of cut previews

    A summary that lists children ends the list with a mark if there are more children than
    it shows. It takes their number from what the grip reports, and not from what the grip
    carries: a preview that was cut is marked if at least as many children are reported as
    are carried, and may not be if fewer are.

    - `Front.Marked`: the list of a summary ends with the mark,
    - `Front.marked_iff`: the number of children decides,
    - `Front.cut_marked_iff`: which cut previews are marked.
-/

namespace Console

/-! ### Lists -/

/-- A list between brackets that ends with the mark of something left out. -/
def markedList (opening closing : String) (parts : List String) : String :=
  opening ++ " " ++ ", ".intercalate (parts ++ [ellipsis]) ++ " " ++ closing

section
variable (opening closing : String) (parts : List String)

theorem listText_cut : listText opening closing parts true = markedList opening closing parts := by
  simp [listText, markedList]

/-- The mark makes a list longer. -/
theorem length_listText_lt :
    (listText opening closing parts false).length < (markedList opening closing parts).length := by
  have hellipsis : ellipsis.length = 1 := rfl
  have hspace : " ".length = 1 := rfl
  have hcomma : ", ".length = 2 := rfl
  by_cases hparts : parts = []
  · subst hparts
    simp only [listText, markedList, List.isEmpty_nil, Bool.not_false, Bool.and_self, if_true,
      List.nil_append, String.intercalate_singleton, String.length_append]
    omega
  · have hmark : [ellipsis] ≠ [] := List.cons_ne_nil _ _
    have hempty : (parts.isEmpty && !false) = false := by simp [hparts]
    simp only [listText, markedList, hempty, Bool.false_eq_true, if_false, List.append_nil,
      String.intercalate_append_of_ne_nil hparts hmark, String.intercalate_singleton,
      String.length_append]
    omega

theorem listText_eq_markedList_iff {cut : Bool} :
    listText opening closing parts cut = markedList opening closing parts ↔ cut := by
  cases cut with
  | true => simp [listText_cut]
  | false =>
    have hne : listText opening closing parts false ≠ markedList opening closing parts := by
      intro heq
      have hlt := length_listText_lt opening closing parts
      rw [heq] at hlt
      exact Nat.lt_irrefl _ hlt
    simp [hne]

end

/-! ### Summaries -/

/-- How a child reads in a list. -/
def Element.display : Element.Shown → String
  | property name value => name ++ ": " ++ value.display
  | item value => value.display
  | entry key value => key.display ++ " → " ++ value.display

namespace Front

/-- The summary of a front that lists children, with the mark at the end of the list. -/
def markedSummary? (front : Front) : Option String :=
  let parts := front.preview.elements.map Element.display
  match front.preview with
  | .object .. => some (front.classText ++ " " ++ markedList "\x7b" "\x7d" parts)
  | .arrayLike _ length =>
    some (front.classText ++ "(" ++ toString length ++ ") " ++ markedList "[" "]" parts)
  | .mapLike _ size =>
    some (front.classText ++ "(" ++ toString size ++ ") " ++ markedList "\x7b" "\x7d" parts)
  | _ => none

/-- Says that the list of the summary ends with the mark. -/
def Marked (front : Front) : Prop := front.markedSummary? = some front.summary

/-- The mark stands exactly where there are more children than are shown. -/
theorem marked_iff (front : Front) : front.Marked ↔
    ∃ total, front.preview.total? = some total ∧ front.preview.elements.length < total := by
  -- the summary and the one with the mark differ only in their lists
  have hlist : ∀ (head opening closing : String) (parts : List String) (shown total : Nat),
      some (head ++ markedList opening closing parts) =
        some (head ++ listText opening closing parts (shown < total)) ↔ shown < total := by
    intro head opening closing parts shown total
    rw [Option.some_inj, String.append_right_inj, eq_comm, listText_eq_markedList_iff,
      decide_eq_true_iff]
  unfold Marked markedSummary? summary
  cases hpreview : front.preview with
  | object properties total =>
    have hparts : (Preview.object properties total).elements.map Element.display =
        properties.map fun p => p.1 ++ ": " ++ p.2.display := List.map_map
    simp only [hparts, hlist]
    simp [Preview.total?, Preview.elements]
  | arrayLike items length =>
    have hparts : (Preview.arrayLike items length).elements.map Element.display =
        items.map Child.display := List.map_map
    simp only [hparts, hlist]
    simp [Preview.total?, Preview.elements]
  | mapLike entries size =>
    have hparts : (Preview.mapLike entries size).elements.map Element.display =
        entries.map fun e => e.1.display ++ " → " ++ e.2.display := List.map_map
    simp only [hparts, hlist]
    simp [Preview.total?, Preview.elements]
  | _ => simp [Preview.total?]

end Front

/-! ### Numbers that grips report -/

/-- A field that is absent reads as its default. -/
theorem Parts.defaulted_of_absent {α : Type} {parts : Parts} {index : Nat} {name : String}
    (read : Json → Option α) (default : α) (h : parts.field? index name = none) :
    parts.defaulted index name read default = some default := by
  rw [defaulted, h]

namespace GripPreview

variable {parts : Parts} {preview : GripPreview}

/-- A list that comes without a length is taken to have none. -/
theorem exists_of_unreported_length (h : ofParts? parts .arrayLike = some preview)
    (hlength : parts.field? 0 "length" = none) : ∃ items, preview = .arrayLike 0 items := by
  obtain ⟨-, -, h⟩ := Option.bind_eq_some_iff.1 h
  obtain ⟨length, hread, h⟩ := Option.bind_eq_some_iff.1 h
  obtain ⟨items, -, h⟩ := Option.bind_eq_some_iff.1 h
  rw [Parts.defaulted_of_absent _ _ hlength] at hread
  cases hread
  cases h
  exact ⟨items, rfl⟩

/-- A map that comes without a size is taken to have none. -/
theorem exists_of_unreported_size (h : ofParts? parts .mapLike = some preview)
    (hsize : parts.field? 0 "size" = none) : ∃ entries, preview = .mapLike 0 entries := by
  obtain ⟨-, -, h⟩ := Option.bind_eq_some_iff.1 h
  obtain ⟨size, hread, h⟩ := Option.bind_eq_some_iff.1 h
  obtain ⟨entries, -, h⟩ := Option.bind_eq_some_iff.1 h
  rw [Parts.defaulted_of_absent _ _ hsize] at hread
  cases hread
  cases h
  exact ⟨entries, rfl⟩

end GripPreview

namespace ObjectGrip

variable {grip : ObjectGrip}

theorem length_elements_table (table : PropertyTable) :
    (PropertyTable.elements table).length = table.size := List.length_map ..

/-- A property table is taken to be all that there is. -/
theorem total?_of_unpreviewed (h : grip.elements ≠ [])
    (hpreview : grip.preview = none ∨ grip.preview = some .other) :
    grip.total? = some grip.elements.length := by
  have htable : grip.elements = (grip.ownProperties.map PropertyTable.elements).getD [] ∧
      grip.total? = grip.ownProperties.map OrderedMap.size := by
    unfold elements total?
    rcases hpreview with hpreview | hpreview
    · rw [hpreview]
      exact ⟨rfl, rfl⟩
    · rw [hpreview]
      exact ⟨rfl, rfl⟩
  obtain ⟨helements, htotal⟩ := htable
  rw [helements] at h ⊢
  rw [htotal]
  cases hproperties : grip.ownProperties with
  | none => simp [hproperties] at h
  | some table => exact congrArg some (length_elements_table table).symm

/-- So are the properties of a preview, if no number of them is reported. -/
theorem total?_of_unreported {table : PropertyTable} (h : grip.preview = some (.object table none))
    (hlength : grip.ownPropertyLength = none) : grip.total? = some grip.elements.length := by
  unfold elements total?
  rw [h, hlength]
  exact congrArg some (length_elements_table table).symm

/-- An object that carries children is said to have some number of them. -/
theorem exists_total? (h : grip.elements ≠ []) : ∃ total, grip.total? = some total := by
  cases hpreview : grip.preview with
  | none => exact ⟨_, total?_of_unpreviewed h (.inl hpreview)⟩
  | some preview =>
    cases preview with
    | other => exact ⟨_, total?_of_unpreviewed h (.inr hpreview)⟩
    | objectWithUrl | error =>
      unfold elements at h
      rw [hpreview] at h
      exact absurd rfl h
    | object table reported =>
      unfold total?
      rw [hpreview]
      cases reported with
      | some count => exact ⟨count.toNat, rfl⟩
      | none => cases grip.ownPropertyLength <;> exact ⟨_, rfl⟩
    | arrayLike | mapLike =>
      unfold total?
      rw [hpreview]
      exact ⟨_, rfl⟩

end ObjectGrip

namespace Front

/-- A preview that was cut is marked exactly if the number of children that is reported is
    greater than what the limit keeps. So it is if all that are carried are reported, if they
    come from a property table, and if they are properties of which no number is reported.
    It is not if they are items without a length or entries without a size, which are read
    as zero. -/
theorem cut_marked_iff {grip : ObjectGrip} {limits : Limits}
    (hcut : grip.limit limits < grip.elements.length) :
    let front := ofGrip limits (.object grip)
    (∃ total, grip.total? = some total ∧ (front.Marked ↔ grip.limit limits < total) ∧
      (grip.elements.length ≤ total → front.Marked)) ∧
    (grip.preview = none ∨ grip.preview = some .other → front.Marked) ∧
    (∀ table, grip.preview = some (.object table none) → grip.ownPropertyLength = none →
      front.Marked) ∧
    (∀ parts preview, grip.preview = some preview →
      (GripPreview.ofParts? parts .arrayLike = some preview ∧ parts.field? 0 "length" = none ∨
        GripPreview.ofParts? parts .mapLike = some preview ∧ parts.field? 0 "size" = none) →
      ¬ front.Marked) := by
  intro front
  have hne : grip.elements ≠ [] := by
    intro hnil
    rw [hnil] at hcut
    exact Nat.not_lt_zero _ hcut
  have hshown : front.preview.elements.length = grip.limit limits := by
    have hmin : front.preview.elements.length = min (grip.limit limits) grip.elements.length := by
      rw [elements_ofGrip, List.length_map, List.length_take]
      rfl
    omega
  have htotal : front.preview.total? = grip.total? := total?_ofGrip (.object grip) limits
  have hmarked : ∀ total, grip.total? = some total →
      (front.Marked ↔ grip.limit limits < total) := by
    intro total hgrip
    rw [marked_iff, htotal, hgrip, hshown]
    simp
  have hcarried : grip.total? = some grip.elements.length → front.Marked :=
    fun hall => (hmarked _ hall).2 hcut
  refine ⟨?_, fun hpreview => ?_, fun table hpreview hlength => ?_, ?_⟩
  · obtain ⟨total, hgrip⟩ := ObjectGrip.exists_total? hne
    refine ⟨total, hgrip, hmarked total hgrip, fun hle => ?_⟩
    exact (hmarked total hgrip).2 (by omega)
  · exact hcarried (ObjectGrip.total?_of_unpreviewed hne hpreview)
  · exact hcarried (ObjectGrip.total?_of_unreported hpreview hlength)
  · intro parts preview hpreview hunreported
    have hzero : grip.total? = some 0 := by
      unfold ObjectGrip.total?
      rw [hpreview]
      rcases hunreported with ⟨hparts, hfield⟩ | ⟨hparts, hfield⟩
      · obtain ⟨items, rfl⟩ := GripPreview.exists_of_unreported_length hparts hfield
        rfl
      · obtain ⟨entries, rfl⟩ := GripPreview.exists_of_unreported_size hparts hfield
        rfl
    rw [hmarked 0 hzero]
    exact Nat.not_lt_zero _

/-- The parts of a preview with two items and without their length. -/
def unmeasured : Parts := .named [("kind", .string "ArrayLike"),
  ("items", .array [.string "x", .string "y"])]

/-- A list of two items of which no length is reported. -/
def unmeasuredList : ObjectGrip where
  actor := ⟨"a"⟩
  className := "Array"
  ownPropertyLength := none
  extensible := true
  frozen := false
  sealed := false
  isError := false
  displayString := none
  preview := GripPreview.ofParts? unmeasured .arrayLike
  ownProperties := none

/-- One of the two items is shown, and nothing says that there is another. -/
theorem unmeasuredList_unmarked :
    unmeasuredList.limit { maxItems := 1 } < unmeasuredList.elements.length ∧
      ¬ (ofGrip { maxItems := 1 } (.object unmeasuredList)).Marked ∧
      (ofGrip { maxItems := 1 } (.object unmeasuredList)).summary = "Array(0) [ \"x\" ]" := by
  have hcut : unmeasuredList.limit { maxItems := 1 } < unmeasuredList.elements.length := by decide
  obtain ⟨-, -, -, hunreported⟩ := cut_marked_iff hcut
  refine ⟨hcut, ?_, by decide +kernel⟩
  exact hunreported unmeasured (.arrayLike 0 [.string "x", .string "y"]) rfl (.inl ⟨rfl, rfl⟩)

end Front

end Console
