import Console.Proofs.Number.Value
import Console.Record.Packet

/-! # Whole milliseconds as time stamps

    A packet in the raw view gives its time in milliseconds. Whole milliseconds below
    `2^43` in magnitude reach the microsecond without rounding, are written as the same
    integer, and read back as the same time stamp.
-/

namespace Console

/-- Says that a number is whole and below `2^43` in magnitude, the range in which its
    product by a thousand is exact. -/
def Binary64.IsWholeMillis (ms : Binary64) : Prop :=
  ∃ i : Int, i.natAbs < 2 ^ 43 ∧ ms.toRat = i

/-- Says that a packet gives no time, or whole milliseconds. -/
def Packet.HasWholeMillis (packet : Packet) : Prop :=
  ∀ ms, packet.timeStamp = some ms → ms.IsWholeMillis

namespace Timestamp

/-- Says that a time stamp is a number of milliseconds that its packet can give exactly. -/
def IsWholeMillis (t : Timestamp) : Prop :=
  ∃ i : Int, i.natAbs < 2 ^ 43 ∧ t.micros = i * 1000

theorem isWholeMillis_epoch : epoch.IsWholeMillis := ⟨0, by decide, rfl⟩

theorem toRat_thousand : thousand.toRat = (1000 : Int) :=
  Binary64.toRat_ofInt (by decide)

/-- Whole milliseconds are read exactly. -/
theorem ofMillis?_whole {ms : Binary64} {i : Int} (hms : ms.toRat = i) (hi : i.natAbs < 2 ^ 43) :
    ∃ t, ofMillis? ms = some t ∧ t.micros = i * 1000 := by
  have hproduct : ms.toRat * thousand.toRat = (i * 1000 : Int) := by
    rw [hms, toRat_thousand, Int.cast_mul]
  -- a thousand is below `2^10`, so the product is below `2^53`
  obtain ⟨x, hx, hvalue⟩ := Binary64.exists_mul_of_whole hproduct (by omega)
  have hround : x.roundAway = i * 1000 := Binary64.roundAway_of_whole hvalue
  have hrange : earliestMicros ≤ i * 1000 ∧ i * 1000 ≤ latestMicros := by
    unfold earliestMicros latestMicros
    omega
  exact ⟨⟨i * 1000, hrange⟩, by simp [ofMillis?, hx, hround, ofMicros?, hrange], rfl⟩

/-- A time stamp of whole milliseconds is written as an integer. -/
theorem toJson_whole {t : Timestamp} {i : Int} (h : t.micros = i * 1000) : t.toJson = .int i := by
  unfold toJson
  rw [h, if_pos (Int.mul_emod_left i 1000), Int.mul_ediv_cancel i (by decide)]

theorem real?_toJson_whole {t : Timestamp} {i : Int} (h : t.micros = i * 1000) :
    t.toJson.real? = some (Binary64.ofInt i) := by
  have hmicros := t.inRange
  unfold earliestMicros latestMicros at hmicros
  have hrange : -9223372036854775808 ≤ i ∧ i < 18446744073709551616 := by omega
  simp [toJson_whole h, Json.int, Number.ofInt, hrange, Json.real?, Number.toBinary64]

/-- Whole milliseconds read what they wrote. -/
theorem ofMillis?_toJson {t : Timestamp} (h : t.IsWholeMillis) :
    ∃ ms, t.toJson.real? = some ms ∧ ofMillis? ms = some t := by
  obtain ⟨i, hi, hmicros⟩ := h
  refine ⟨Binary64.ofInt i, real?_toJson_whole hmicros, ?_⟩
  obtain ⟨u, hu, hu'⟩ := ofMillis?_whole (Binary64.toRat_ofInt (by omega)) hi
  have : u = t := by
    cases u
    cases t
    simp_all
  rw [hu, this]

end Timestamp

/-- The time of a packet that gives none or whole milliseconds. -/
theorem Packet.isWholeMillis_timestamp {packet : Packet} {t : Timestamp}
    (hwhole : packet.HasWholeMillis) (h : packet.timestamp = .ok t) : t.IsWholeMillis := by
  unfold Packet.timestamp at h
  split at h
  · cases h
    exact Timestamp.isWholeMillis_epoch
  · next ms hms =>
    obtain ⟨i, hi, hvalue⟩ := hwhole ms hms
    obtain ⟨u, hu, hmicros⟩ := Timestamp.ofMillis?_whole hvalue hi
    rw [hu] at h
    cases h
    exact ⟨i, hi, hmicros⟩

end Console
