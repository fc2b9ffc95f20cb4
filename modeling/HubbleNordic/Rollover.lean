import Mathlib.Tactic

/-!
# Extending a counter that rolls over

A counter shows a true count `t` modulo `m`.  The tracker keeps the last reading and the sum of the
periods it has seen go by: a reading below the last one counts as one rollover.

* `Tracker`, `value`, `sample`; `value_le_sample`: no reading makes the count go back;
* `Tracks m s t`: the tracker `s` stands at the true count `t`;
* `Tracks.sample`: a reading less than one period after the last is tracked exactly;
* `Tracks.sample_stale`: a reading from before the last one counts a rollover that never happened;
* `Tracks.sample_back`: a reading from before the last one, however old, puts the count a period or
  more ahead of it;
* `Tracks.sample_late`: a reading one period or more after the last one loses a rollover.
-/

/-- The last reading, and the periods counted so far. -/
@[ext] structure Tracker where
  prev : ℕ
  extended : ℕ
  deriving DecidableEq

namespace Tracker

variable {m p t : ℕ} {s : Tracker}

/-- The count the tracker stands at. -/
def value (s : Tracker) : ℕ := s.extended + s.prev

/-- Take a reading: a smaller one than the last counts as a rollover of the period `m`. -/
def sample (m reading : ℕ) (s : Tracker) : Tracker :=
  ⟨reading, if reading < s.prev then s.extended + m else s.extended⟩

theorem extended_sample_le (m reading : ℕ) (s : Tracker) :
    (s.sample m reading).extended ≤ s.extended + m := by
  unfold sample
  split_ifs <;> simp

/-- Whatever is read, the count never goes back. -/
theorem value_le_sample (hs : s.prev < m) (reading : ℕ) : s.value ≤ (s.sample m reading).value := by
  simp only [value, sample]
  split_ifs <;> omega

/-- The tracker stands at the true count `t`. -/
structure Tracks (m : ℕ) (s : Tracker) (t : ℕ) : Prop where
  prev : s.prev = t % m
  extended : s.extended = m * (t / m)

theorem Tracks.value_eq (hs : Tracks m s t) : s.value = t := by
  rw [value, hs.prev, hs.extended, Nat.div_add_mod]

theorem tracks_zero (m : ℕ) : Tracks m ⟨0, 0⟩ 0 := ⟨by simp, by simp⟩

/-- After a reading of `t`, the tracker stands at `t` if it counted the periods of `t`. -/
theorem tracks_sample_iff :
    Tracks m (s.sample m (t % m)) t ↔ (s.sample m (t % m)).extended = m * (t / m) :=
  ⟨fun h => h.extended, fun h => ⟨rfl, h⟩⟩

/-- One period after `a`, where `b` lies in the period of `a` or the next. -/
private theorem div_of_lt_add {a b : ℕ} (h1 : a ≤ b) (h2 : b < a + m) :
    b / m = if b % m < a % m then a / m + 1 else a / m := by
  have hm : 0 < m := by omega
  have ha := Nat.div_add_mod a m
  have hb := Nat.div_add_mod b m
  have hamod := Nat.mod_lt a hm
  have hbmod := Nat.mod_lt b hm
  have hle : a / m ≤ b / m := Nat.div_le_div_right h1
  have hlt : b / m < a / m + 2 := by
    rw [Nat.div_lt_iff_lt_mul hm, Nat.add_mul, Nat.mul_comm (a / m)]
    omega
  obtain hq | hq : b / m = a / m ∨ b / m = a / m + 1 := by omega
  · rw [hq] at hb
    rw [if_neg (by omega), hq]
  · rw [hq, Nat.mul_add] at hb
    rw [if_pos (by omega), hq]

/-- **A reading less than one period after the last is tracked exactly.** -/
theorem Tracks.sample (hs : Tracks m s p) (h1 : p ≤ t) (h2 : t < p + m) :
    Tracks m (s.sample m (t % m)) t := by
  rw [tracks_sample_iff, div_of_lt_add h1 h2, Tracker.sample, hs.prev, hs.extended]
  split_ifs
  · rw [Nat.mul_add, Nat.mul_one]
  · rfl

/-- A reading older than the last one, by less than a period, is taken for one a period later. -/
theorem Tracks.sample_stale (hs : Tracks m s p) (h1 : t < p) (h2 : p < t + m) :
    Tracks m (s.sample m (t % m)) (t + m) := by
  have hshift : (t + m) % m = t % m := Nat.add_mod_right t m
  rw [← hshift]
  exact hs.sample (by omega) (by omega)

/-- A reading older than the last one, however old, is taken for one a period later or more; the
count does not gain a period. -/
theorem Tracks.sample_back (hs : Tracks m s p) (hm : 0 < m) (h : t < p) :
    t + m ≤ (s.sample m (t % m)).value ∧ (s.sample m (t % m)).value < p + m := by
  have hp := Nat.div_add_mod p m
  have ht := Nat.div_add_mod t m
  have htmod := Nat.mod_lt t hm
  have hmul : m * (t / m) ≤ m * (p / m) := Nat.mul_le_mul_left m (Nat.div_le_div_right h.le)
  simp only [value, Tracker.sample, hs.prev, hs.extended]
  split_ifs with hlt
  · omega
  · -- the remainder has not gone down, so the quotient has
    have hq : t / m + 1 ≤ p / m := by
      by_contra hno
      have hq : p / m = t / m := le_antisymm (by omega) (Nat.div_le_div_right h.le)
      rw [hq] at hp
      omega
    have hmul : m * (t / m + 1) ≤ m * (p / m) := Nat.mul_le_mul_left m hq
    rw [Nat.mul_add, Nat.mul_one] at hmul
    omega

/-- A reading a period or more after the last one loses a rollover. -/
theorem Tracks.sample_late (hs : Tracks m s p) (h : p + m ≤ t) :
    (s.sample m (t % m)).value + m ≤ t := by
  rcases Nat.eq_zero_or_pos m with rfl | hm
  · have hp := hs.prev
    have he := hs.extended
    simp only [Nat.mod_zero, Nat.zero_mul] at hp he
    simp [Tracker.sample, value, he]
  have hmod := Nat.mod_lt t hm
  have hp := Nat.div_add_mod p m
  have ht := Nat.div_add_mod t m
  have hpmod := Nat.mod_lt p hm
  have hq : p / m + 1 ≤ t / m := by
    rw [← Nat.add_div_right p hm]
    exact Nat.div_le_div_right h
  have hmul : m * (p / m + 1) ≤ m * (t / m) := Nat.mul_le_mul_left m hq
  rw [Nat.mul_add, Nat.mul_one] at hmul
  simp only [value, Tracker.sample, hs.prev, hs.extended]
  split_ifs with hlt
  · -- the reading wrapped, so at least two periods have gone by
    have hq : p / m + 2 ≤ t / m := by
      by_contra hno
      have : t / m = p / m + 1 := by omega
      rw [this, Nat.mul_add] at ht
      omega
    have hmul : m * (p / m + 2) ≤ m * (t / m) := Nat.mul_le_mul_left m hq
    rw [Nat.mul_add] at hmul
    omega
  · omega

end Tracker
