import Mathlib.Algebra.Group.Nat.Defs
import Mathlib.Data.List.Nodup
import Console.Message.Ids

/-! # Drawing ids

    The ids drawn from a source are the next ones of its sequence (`IdSource.draw_eq`).
    Numbered ids are counted in 64 bits: from any start, the numbers drawn are those that
    follow it modulo `2 ^ 64`.

    - `draw_sequential`, `next_draw_sequential`: the numbers drawn and the one after them,
    - `draw_sequential_of_lt`, `next_draw_sequential_of_lt`: no number is left out while they
      stay below `2 ^ 64`,
    - `next_draw_sequential_of_eq`: the last number is followed by zero,
    - `nodup_draw_sequential`: none is repeated before all have been drawn,
    - `sequential_of_draw`: all of this of one draw.
-/

namespace Console.IdSource

/-! ### Any source -/

/-- The ids drawn are the next ones of the sequence. -/
theorem draw_eq (ids : IdSource) (n : Nat) :
    ids.draw n =
      ((List.range n).map fun i => ids.issue (ids.drawn + i), { ids with drawn := ids.drawn + n }) := by
  induction n generalizing ids with
  | zero => rfl
  | succ n ih =>
    -- the source has moved on by one, so that its ids are counted from one further on
    simp only [draw, next, ih, List.range_succ_eq_map, List.map_cons, List.map_map, Nat.add_zero]
    congr 2
    · exact List.map_congr_left fun i _ => by simp [Nat.add_assoc, Nat.add_comm 1 i]
    · omega

/-- Ids drawn in two goes are those drawn in one. -/
theorem draw_add (ids : IdSource) (m n : Nat) :
    ids.draw (m + n) = ((ids.draw m).1 ++ ((ids.draw m).2.draw n).1, ((ids.draw m).2.draw n).2) := by
  induction m generalizing ids with
  | zero => rw [Nat.zero_add]; rfl
  | succ m ih =>
    rw [Nat.add_right_comm]
    simp only [draw, ih, List.cons_append]

/-! ### Numbered ids -/

/-- Different numbers have different texts. -/
theorem toString_injective {m n : Nat} (h : toString m = toString n) : m = n := by
  rw [Nat.toString_eq_ofList_toDigits, Nat.toString_eq_ofList_toDigits, String.ofList_inj] at h
  rw [← Nat.ofDigitChars_ten_toDigits (n := m), h, Nat.ofDigitChars_ten_toDigits]

variable {start : UInt64} {n : Nat}

/-- The numbers follow the start modulo `2 ^ 64`. -/
theorem issue_sequential (start : UInt64) (n : Nat) :
    (sequential start).issue n = toString ((start.toNat + n) % 2 ^ 64) := by
  have hnumber : (start + UInt64.ofNat n).toNat = (start.toNat + n) % 2 ^ 64 := by
    rw [UInt64.toNat_add, UInt64.toNat_ofNat', Nat.add_mod_mod]
  show toString (start + UInt64.ofNat n).toNat = _
  rw [hnumber]

/-- After one draw the source goes on as one that starts with the next number. -/
theorem draw_next_sequential (start : UInt64) (n : Nat) :
    ((sequential start).next.2.draw n).1 = ((sequential (start + 1)).draw n).1 := by
  rw [draw_eq, draw_eq]
  refine List.map_congr_left fun i _ => ?_
  show (sequential start).issue (0 + 1 + i) = (sequential (start + 1)).issue (0 + i)
  rw [issue_sequential, issue_sequential, UInt64.toNat_add, UInt64.toNat_one, Nat.mod_add_mod]
  congr 2
  omega

/-- The numbers drawn, from any start. -/
theorem draw_sequential (start : UInt64) (n : Nat) :
    ((sequential start).draw n).1 =
      (List.range n).map fun i => toString ((start.toNat + i) % 2 ^ 64) := by
  rw [draw_eq]
  refine List.map_congr_left fun i _ => ?_
  show (sequential start).issue (0 + i) = _
  rw [issue_sequential, Nat.zero_add]

/-- The number after those drawn, from any start. -/
theorem next_draw_sequential (start : UInt64) (n : Nat) :
    ((sequential start).draw n).2.next.1 = toString ((start.toNat + n) % 2 ^ 64) := by
  rw [draw_eq]
  show (sequential start).issue (0 + n) = _
  rw [issue_sequential, Nat.zero_add]

/-- Below `2 ^ 64`, the numbers drawn are the start and its successors. -/
theorem draw_sequential_of_lt (h : start.toNat + n < 2 ^ 64) :
    ((sequential start).draw n).1 = (List.range n).map fun i => toString (start.toNat + i) := by
  rw [draw_sequential]
  refine List.map_congr_left fun i hi => ?_
  have hlt : i < n := List.mem_range.1 hi
  rw [Nat.mod_eq_of_lt (by omega)]

theorem next_draw_sequential_of_lt (h : start.toNat + n < 2 ^ 64) :
    ((sequential start).draw n).2.next.1 = toString (start.toNat + n) := by
  rw [next_draw_sequential, Nat.mod_eq_of_lt h]

/-- Behind the last number of 64 bits, zero is the next. -/
theorem next_draw_sequential_of_eq (h : start.toNat + n = 2 ^ 64) :
    ((sequential start).draw n).2.next.1 = "0" := by
  rw [next_draw_sequential, h, Nat.mod_self]
  rfl

/-- No number is repeated before all numbers of 64 bits have been drawn. -/
theorem nodup_draw_sequential (h : n ≤ 2 ^ 64) : ((sequential start).draw n).1.Nodup := by
  rw [draw_sequential]
  refine List.Nodup.map_on ?_ List.nodup_range
  intro i hi j hj hsame
  have hi' : i < n := List.mem_range.1 hi
  have hj' : j < n := List.mem_range.1 hj
  have hmod : (start.toNat + i) % 2 ^ 64 = (start.toNat + j) % 2 ^ 64 := toString_injective hsame
  omega

/-- The numbers drawn and the one after them are those that follow the start modulo
    `2 ^ 64`; they have no gaps or repeats as long as they stay below. -/
theorem sequential_of_draw {given : List String} {after : IdSource}
    (h : (sequential start).draw n = (given, after)) :
    given = (List.range n).map (fun i => toString ((start.toNat + i) % 2 ^ 64)) ∧
      after.next.1 = toString ((start.toNat + n) % 2 ^ 64) ∧
      (start.toNat + n < 2 ^ 64 →
        given = (List.range n).map (fun i => toString (start.toNat + i)) ∧ given.Nodup ∧
          after.next.1 = toString (start.toNat + n)) := by
  have hgiven : ((sequential start).draw n).1 = given := by rw [h]
  have hafter : ((sequential start).draw n).2 = after := by rw [h]
  rw [← hgiven, ← hafter]
  refine ⟨draw_sequential start n, next_draw_sequential start n, fun hlt => ?_⟩
  -- below the bound too few numbers are drawn for any to come round again
  have hle : n ≤ 2 ^ 64 := by omega
  exact ⟨draw_sequential_of_lt hlt, nodup_draw_sequential hle, next_draw_sequential_of_lt hlt⟩

end Console.IdSource
