import Mathlib.Data.List.Forall2
import Console.Proofs.Record.Reading

/-! # Reading arguments

    What an argument of a packet is read as can be told from its members
    (`ReadArgument.described_and_reference`): the description that it carries is its
    `inlineGrip?`, and what it refers to is its `reference?`. A list of arguments is read
    if each of them is, and refused at the first one that is not
    (`ReadArgument.listOfJson_eq_ok_iff`, `ReadArgument.listOfJson_eq_error_iff`).
-/

namespace Console

/-! ### Lists item by item -/

/-- Of two lists related item by item, an item of the first has its counterpart in the
    second. -/
theorem exists_getElem?_of_forall₂ {α β : Type} {R : α → β → Prop} {xs : List α} {ys : List β}
    (h : List.Forall₂ R xs ys) {i : Nat} {x : α} (hx : xs[i]? = some x) :
    ∃ y, ys[i]? = some y ∧ R x y := by
  obtain ⟨hi, rfl⟩ := List.getElem?_eq_some_iff.1 hx
  exact ⟨_, List.getElem?_eq_getElem (h.length_eq ▸ hi), h.get hi _⟩

/-- Lists related item by item keep the same of their items if related items do. -/
theorem filterMap_eq_of_forall₂ {α β γ : Type} {R : α → β → Prop} {f : α → Option γ}
    {g : β → Option γ} {xs : List α} {ys : List β} (h : List.Forall₂ R xs ys)
    (hsame : ∀ x y, R x y → f x = g y) : xs.filterMap f = ys.filterMap g := by
  induction h with
  | nil => rfl
  | cons hhead _ ih => rw [List.filterMap_cons, List.filterMap_cons, hsame _ _ hhead, ih]

/-! ### One argument -/

/-- The reference to the value that a grip describes. -/
def Grip.reference (grip : Grip) : Reference := ⟨grip.actor, grip.type⟩

namespace Json

/-- The description that an argument carries: its `_grip`, or the argument itself if it has
    neither that nor the name of an actor alone. -/
def inlineGrip? : Json → Option Grip
  | .object members =>
    match lookupEntry "_grip" members with
    | some grip => Grip.ofJson? grip
    | none =>
      match (lookupEntry "actorID" members).bind string? with
      | some _ => none
      | none => Grip.ofJson? (.object members)
  | _ => none

/-- The reference of a dangling entry, which names an actor without describing it. -/
def dangling? : Json → Option Reference
  | .object members =>
    match lookupEntry "_grip" members, (lookupEntry "actorID" members).bind string? with
    | none, some actor =>
      match lookupEntry "type" members with
      | none => some ⟨⟨actor⟩, .object⟩
      | some tag => (ReferenceType.ofJson? tag).map fun type => ⟨⟨actor⟩, type⟩
    | _, _ => none
  | _ => none

/-- The reference of an argument: that of its description, or that of a dangling entry. -/
def reference? (value : Json) : Option Reference :=
  (value.inlineGrip?.map Grip.reference).or value.dangling?

end Json

/-- Only the name of a reference type tags a grip. -/
theorem Grip.ofJson?_eq_none {members : List (String × Json)}
    (h : ∀ name, (lookupEntry "type" members).bind Json.string? = some name →
      ReferenceType.ofName? name = none) : Grip.ofJson? (.object members) = none := by
  cases htag : lookupEntry "type" members with
  | none => simp [Grip.ofJson?, Parts.tagged?, htag]
  | some tag =>
    cases hname : tag.string? with
    | none => simp [Grip.ofJson?, Parts.tagged?, htag, hname]
    | some name =>
      have hunknown : ReferenceType.ofName? name = none := h name (by rw [htag]; exact hname)
      simp [Grip.ofJson?, Parts.tagged?, htag, hname, hunknown]

namespace ReadArgument

variable {value : Json} {read : ReadArgument}

theorem ofGripJson_eq_ok_iff :
    ofGripJson value = .ok read ↔ ∃ grip, Grip.ofJson? value = some grip ∧ read = ofGrip grip := by
  unfold ofGripJson
  cases Grip.ofJson? value with
  | none => simp
  | some grip => simp [eq_comm]

/-- An object that is neither wrapped nor dangling is its own description if it is that of a
    value on the producer's side, and else a literal. -/
theorem described_of_tagged {members : List (String × Json)}
    (hwrapped : lookupEntry "_grip" members = none)
    (hactor : (lookupEntry "actorID" members).bind Json.string? = none)
    (h : ofMembers members = .ok read) :
    Grip.ofJson? (.object members) = read.described ∧
      read.argument.reference? = read.described.map Grip.reference := by
  simp only [ofMembers, hwrapped, hactor] at h
  cases hname : (lookupEntry "type" members).bind Json.string? with
  | none => simp [hname] at h
  | some name =>
    simp only [hname] at h
    by_cases hknown : (ReferenceType.ofName? name).isSome
    · rw [if_pos hknown] at h
      obtain ⟨grip, hgrip, rfl⟩ := ofGripJson_eq_ok_iff.1 h
      exact ⟨hgrip, rfl⟩
    · rw [if_neg hknown] at h
      -- a literal is tagged by a name that is not that of a reference type
      have hgrip : Grip.ofJson? (.object members) = none := by
        refine Grip.ofJson?_eq_none fun other hother => ?_
        rw [hname] at hother
        cases hother
        simpa using hknown
      split at h
      · cases h
        exact ⟨hgrip, rfl⟩
      · cases h

/-- What is read of an argument is the description that it carries and its reference. -/
theorem described_and_reference (h : ofJson value = .ok read) :
    value.inlineGrip? = read.described ∧ value.reference? = read.argument.reference? := by
  cases value with
  | object members =>
    cases hwrapped : lookupEntry "_grip" members with
    | some wrapped =>
      simp only [ofJson, ofMembers, hwrapped] at h
      obtain ⟨grip, hgrip, rfl⟩ := ofGripJson_eq_ok_iff.1 h
      have hinline : Json.inlineGrip? (.object members) = some grip := by
        simp only [Json.inlineGrip?, hwrapped, hgrip]
      exact ⟨hinline, by rw [Json.reference?, hinline]; rfl⟩
    | none =>
      cases hactor : (lookupEntry "actorID" members).bind Json.string? with
      | some actor =>
        simp only [ofJson, ofMembers, hwrapped, hactor] at h
        have hinline : Json.inlineGrip? (.object members) = none := by
          simp only [Json.inlineGrip?, hwrapped, hactor]
        rw [Json.reference?, hinline, Option.map_none, Option.none_or]
        simp only [Json.dangling?, hwrapped, hactor]
        cases htag : lookupEntry "type" members with
        | none =>
          simp only [htag] at h
          cases h
          exact ⟨rfl, rfl⟩
        | some tag =>
          simp only [htag] at h
          cases htype : ReferenceType.ofJson? tag with
          | none => simp [htype] at h
          | some type =>
            simp only [htype] at h
            cases h
            exact ⟨rfl, by simp [htype, Argument.reference?]⟩
      | none =>
        obtain ⟨hgrip, hreference⟩ := described_of_tagged hwrapped hactor h
        have hinline : Json.inlineGrip? (.object members) = read.described := by
          simp only [Json.inlineGrip?, hwrapped, hactor, hgrip]
        have hdangling : Json.dangling? (.object members) = none := by
          simp only [Json.dangling?, hwrapped, hactor]
        exact ⟨hinline, by rw [Json.reference?, hinline, hdangling, Option.or_none, hreference]⟩
  | null | bool | number | string =>
    cases h
    exact ⟨rfl, rfl⟩
  | array => cases h

end ReadArgument

theorem Json.exists_of_inlineGrip? {value : Json} {grip : Grip} (h : value.inlineGrip? = some grip) :
    ∃ item, Grip.ofJson? item = some grip := by
  unfold inlineGrip? at h
  split at h
  · split at h
    · exact ⟨_, h⟩
    · split at h
      · cases h
      · exact ⟨_, h⟩
  · cases h

/-! ### Lists of arguments -/

namespace ReadArgument

/-- Arguments are read if each of them is. -/
theorem listOfJson_eq_ok_iff {index : Nat} {values : List Json} {reads : List ReadArgument} :
    listOfJson index values = .ok reads ↔
      List.Forall₂ (fun value read => ofJson value = .ok read) values reads := by
  induction values generalizing index reads with
  | nil =>
    rw [listOfJson, List.forall₂_nil_left_iff, Except.ok.injEq]
    exact eq_comm
  | cons value rest ih =>
    cases hfirst : ofJson value with
    | error fault =>
      simp only [listOfJson, hfirst, reduceCtorEq, false_iff]
      rintro (_ | ⟨hread, -⟩)
      rw [hfirst] at hread
      cases hread
    | ok read =>
      cases hrest : listOfJson (index + 1) rest with
      | error cause =>
        simp only [listOfJson, hfirst, hrest, reduceCtorEq, false_iff]
        rintro (_ | ⟨-, hreads⟩)
        rw [ih.2 hreads] at hrest
        cases hrest
      | ok others =>
        simp only [listOfJson, hfirst, hrest, Except.ok.injEq]
        constructor
        · rintro rfl
          exact .cons hfirst (ih.1 hrest)
        · rintro (_ | ⟨hread, hreads⟩)
          rw [ih.2 hreads] at hrest
          rw [hfirst] at hread
          cases hrest
          cases hread
          rfl

section

variable {values : List Json} {reads : List ReadArgument}

/-- The descriptions among arguments that are read are those that they carry. -/
theorem filterMap_inlineGrip?
    (h : List.Forall₂ (fun value read => ofJson value = .ok read) values reads) :
    values.filterMap Json.inlineGrip? = reads.filterMap described :=
  filterMap_eq_of_forall₂ h fun _ _ hread => (described_and_reference hread).1

/-- The references among arguments that are read are those that they are read as. -/
theorem filterMap_reference?
    (h : List.Forall₂ (fun value read => ofJson value = .ok read) values reads) :
    values.filterMap Json.reference? = (reads.map argument).filterMap Argument.reference? := by
  rw [List.filterMap_map]
  exact filterMap_eq_of_forall₂ h fun _ _ hread => (described_and_reference hread).2

end

/-- Says that an argument is the first among others that is refused, and why. -/
def FirstRefused (values : List Json) (i : Nat) (fault : ArgumentFault) : Prop :=
  (∃ value, values[i]? = some value ∧ ofJson value = .error fault) ∧
    ∀ j < i, ∀ value, values[j]? = some value → ∀ other, ofJson value ≠ .error other

theorem firstRefused_cons_of_error {value : Json} {rest : List Json} {reason fault : ArgumentFault}
    {i : Nat} (h : ofJson value = .error reason) :
    FirstRefused (value :: rest) i fault ↔ i = 0 ∧ fault = reason := by
  constructor
  · rintro ⟨⟨found, hfound, hfault⟩, hbefore⟩
    cases i with
    | zero =>
      cases hfound
      rw [h] at hfault
      cases hfault
      exact ⟨rfl, rfl⟩
    | succ i => exact absurd h (hbefore 0 (Nat.succ_pos i) value rfl reason)
  · rintro ⟨rfl, rfl⟩
    exact ⟨⟨value, rfl, h⟩, fun j hj => absurd hj (Nat.not_lt_zero j)⟩

theorem firstRefused_cons_of_ok {value : Json} {rest : List Json} {read : ReadArgument}
    {fault : ArgumentFault} {i : Nat} (h : ofJson value = .ok read) :
    FirstRefused (value :: rest) i fault ↔ ∃ k, i = k + 1 ∧ FirstRefused rest k fault := by
  constructor
  · rintro ⟨⟨found, hfound, hfault⟩, hbefore⟩
    cases i with
    | zero =>
      cases hfound
      rw [h] at hfault
      cases hfault
    | succ k =>
      exact ⟨k, rfl, ⟨found, hfound, hfault⟩, fun j hj => hbefore (j + 1) (Nat.succ_lt_succ hj)⟩
  · rintro ⟨k, rfl, hfound, hbefore⟩
    refine ⟨hfound, fun j hj other hother reason => ?_⟩
    cases j with
    | zero =>
      cases hother
      rw [h]
      nofun
    | succ j => exact hbefore j (Nat.lt_of_succ_lt_succ hj) other hother reason

/-- Arguments are refused at the first one that is refused, by its own fault. -/
theorem listOfJson_eq_error_iff {index : Nat} {values : List Json} {cause : Malformation} :
    listOfJson index values = .error cause ↔
      ∃ i fault, FirstRefused values i fault ∧ cause = .argument (index + i) fault := by
  induction values generalizing index with
  | nil =>
    simp only [listOfJson, reduceCtorEq, false_iff]
    rintro ⟨i, fault, ⟨⟨value, hvalue, -⟩, -⟩, -⟩
    cases hvalue
  | cons value rest ih =>
    cases hfirst : ofJson value with
    | error reason =>
      simp only [listOfJson, hfirst, Except.error.injEq, firstRefused_cons_of_error hfirst]
      constructor
      · rintro rfl
        exact ⟨0, reason, ⟨rfl, rfl⟩, rfl⟩
      · rintro ⟨i, fault, ⟨rfl, rfl⟩, rfl⟩
        rfl
    | ok read =>
      have hrest : listOfJson index (value :: rest) = .error cause ↔
          listOfJson (index + 1) rest = .error cause := by
        cases hothers : listOfJson (index + 1) rest with
        | error => simp only [listOfJson, hfirst, hothers]
        | ok => simp only [listOfJson, hfirst, hothers, reduceCtorEq]
      rw [hrest, ih]
      simp only [firstRefused_cons_of_ok hfirst]
      constructor
      · rintro ⟨k, fault, hrefused, rfl⟩
        exact ⟨k + 1, fault, ⟨k, rfl, hrefused⟩, by rw [Nat.add_assoc, Nat.add_comm 1 k]⟩
      · rintro ⟨i, fault, ⟨k, rfl, hrefused⟩, rfl⟩
        exact ⟨k, fault, hrefused, by rw [Nat.add_assoc, Nat.add_comm 1 k]⟩

/-- Arguments are read if none of them is refused. -/
theorem exists_listOfJson_eq_ok_iff {index : Nat} {values : List Json} :
    (∃ reads, listOfJson index values = .ok reads) ↔
      ∀ value ∈ values, ∀ fault, ofJson value ≠ .error fault := by
  constructor
  · rintro ⟨reads, hreads⟩ value hmem fault hfault
    obtain ⟨i, hi⟩ := List.getElem?_of_mem hmem
    obtain ⟨read, -, hread⟩ := exists_getElem?_of_forall₂ (listOfJson_eq_ok_iff.1 hreads) hi
    rw [hfault] at hread
    cases hread
  · intro hnone
    cases hlist : listOfJson index values with
    | ok reads => exact ⟨reads, rfl⟩
    | error cause =>
      obtain ⟨i, fault, ⟨⟨value, hvalue, hfault⟩, -⟩, -⟩ := listOfJson_eq_error_iff.1 hlist
      exact absurd hfault (hnone value (List.mem_of_getElem? hvalue) fault)

end ReadArgument

end Console
