import HubbleNordic.Uptime.Exact

/-!
# Uptime under every RTC prescaler

`sdk_config.h` takes `APP_TIMER_CONFIG_RTC_FREQUENCY` as the prescaler of the RTC: with the value
`N` the counter runs at `32768 / (N + 1)` Hz.  `app_timer_hz` takes it as a shift, `32768 >> N`.

* `admittedPrescalers`, `elapsedMs`: the values `sdk_config.h` lists, and the elapsed time they
  mean;
* `conversion_iff`: one conversion is right at the prescalers 0 and 1, and otherwise only as long as
  it returns 0;
* `prescaler_exact_iff`: a steady run is right if and only if each of its conversions is.
-/

namespace HubbleNordic

/-- The values `sdk_config.h` lists for `APP_TIMER_CONFIG_RTC_FREQUENCY`. -/
def admittedPrescalers : List UInt32 := [0, 1, 3, 7, 15, 31]

/-- The elapsed milliseconds after `t` ticks of a counter with the prescaler `n`, which runs at
`32768 / (n + 1)` Hz. -/
def elapsedMs (n : UInt32) (t : ℕ) : ℕ := t * 1000 * (n.toNat + 1) / 32768

/-- The calls at `ts` return the elapsed milliseconds; none of them divides by zero. -/
def ElapsedUptimes (n : UInt32) (ts : List ℕ) : Prop :=
  (uptimes n .boot ts).map (Option.map UInt64.toNat) = ts.map fun t => some (elapsedMs n t)

instance (n : UInt32) (ts : List ℕ) : Decidable (ElapsedUptimes n ts) :=
  inferInstanceAs (Decidable (_ = _))

theorem admitted_cases {n : UInt32} (hn : n ∈ admittedPrescalers) :
    n = 0 ∨ n = 1 ∨ n = 3 ∨ n = 7 ∨ n = 15 ∨ n = 31 := by
  simpa [admittedPrescalers] using hn

/-! ### One conversion -/

/-- A quotient that does not grow with its dividend is zero. -/
theorem mul_div_eq_iff {k x z : ℕ} (hk : 2 ≤ k) (hz : 0 < z) : k * x / z = x / z ↔ k * x < z := by
  constructor
  · intro h
    by_contra hge
    have hone : 1 ≤ k * x / z := (Nat.one_le_div_iff hz).mpr (Nat.not_lt.mp hge)
    have hdouble : x / z + x / z ≤ k * x / z := by
      calc x / z + x / z ≤ (x + x) / z := Nat.div_add_div_le_add_div
        _ ≤ k * x / z := Nat.div_le_div_right (by nlinarith)
    omega
  · intro h
    have hx : x < z := by nlinarith
    rw [Nat.div_eq_of_lt h, Nat.div_eq_of_lt hx]

/-- A rate that is `k` times too high makes a conversion right only while it returns 0. -/
theorem conversion_scaled_iff {n : UInt32} {k t : ℕ} (hk : 2 ≤ k)
    (hrate : (appTimerHz n).toNat * (k * (n.toNat + 1)) = 32768) :
    trueUptime n t = elapsedMs n t ↔ t * 1000 * (k * (n.toNat + 1)) < 32768 := by
  have hfactor : 0 < k * (n.toNat + 1) := by positivity
  have hcode : trueUptime n t = k * (t * 1000 * (n.toNat + 1)) / 32768 := by
    rw [trueUptime, ← Nat.mul_div_mul_right _ _ hfactor, hrate]
    ring_nf
  have hscaled := mul_div_eq_iff (x := t * 1000 * (n.toNat + 1)) hk (show 0 < 32768 by norm_num)
  rw [hcode, elapsedMs, hscaled]
  ring_nf

/-- **One conversion** that does not divide by zero: right at the prescalers 0 and 1, and at the
others as long as it returns 0. -/
theorem conversion_iff {n : UInt32} (hn : n ∈ admittedPrescalers) (hz : n ≠ 31) (t : ℕ) :
    trueUptime n t = elapsedMs n t ↔ n = 0 ∨ n = 1 ∨ t * 1000 * 2 ^ n.toNat < 32768 := by
  rcases admitted_cases hn with rfl | rfl | rfl | rfl | rfl | rfl
  · refine iff_of_true ?_ (Or.inl rfl)
    show t * 1000 / 32768 = t * 1000 * 1 / 32768
    rw [Nat.mul_one]
  · refine iff_of_true ?_ (Or.inr (Or.inl rfl))
    show t * 1000 / 16384 = t * 1000 * 2 / 32768
    omega
  · simpa using conversion_scaled_iff (n := 3) (k := 2) (t := t) (by norm_num) rfl
  · simpa using conversion_scaled_iff (n := 7) (k := 16) (t := t) (by norm_num) rfl
  · simpa using conversion_scaled_iff (n := 15) (k := 2048) (t := t) (by norm_num) rfl
  · exact absurd rfl hz

/-! ### Runs -/

/-- At a rate of 0 every call divides by zero. -/
theorem uptimes_div_zero {n : UInt32} (hz : appTimerHz n = 0) (s : UptimeState) (ts : List ℕ) :
    uptimes n s ts = ts.map fun _ => none := by
  induction ts generalizing s with
  | nil => rfl
  | cons t ts ih =>
    have hnone : (hubbleUptimeGet n (appTimerCntGet t) s).1 = none := if_pos hz
    simp only [uptimes, List.map_cons, ih, hnone]

/-- The admitted prescaler that shifts the rate down to 0. -/
theorem appTimerHz_eq_zero_iff {n : UInt32} (hn : n ∈ admittedPrescalers) :
    appTimerHz n = 0 ↔ n = 31 := by
  rcases admitted_cases hn with rfl | rfl | rfl | rfl | rfl | rfl <;> decide

/-- A bound on the elapsed time's product leaves room for the code's own. -/
theorem bound_of_scaled {n : UInt32} {ts : List ℕ}
    (hb : ∀ t ∈ ts.getLast?, t * 1000 * (n.toNat + 1) < 2 ^ 64) :
    ∀ t ∈ ts.getLast?, t * 1000 < 2 ^ 64 := fun t ht =>
  lt_of_le_of_lt (Nat.le_mul_of_pos_right _ (Nat.succ_pos _)) (hb t ht)

/-- **The conversion agrees with the RTC's rate exactly at the prescalers 0 and 1**: for every
admitted prescaler and every steady run, the calls return the elapsed milliseconds if and only if
the prescaler is 0 or 1, or it is not 31 and every call is so early that the elapsed time, and the
time at the rate of the code, are both below a millisecond. -/
theorem prescaler_exact_iff {n : UInt32} (hn : n ∈ admittedPrescalers) {ts : List ℕ}
    (hts : Steady 0 ts) (hb : ∀ t ∈ ts.getLast?, t * 1000 * (n.toNat + 1) < 2 ^ 64) :
    ElapsedUptimes n ts ↔
      n = 0 ∨ n = 1 ∨ ∀ t ∈ ts, n ≠ 31 ∧ t * 1000 * 2 ^ n.toNat < 32768 := by
  by_cases hz : n = 31
  · -- the shift leaves nothing of the rate: only a run without calls divides by nothing
    have hnone := uptimes_div_zero ((appTimerHz_eq_zero_iff hn).mpr hz) .boot ts
    subst hz
    cases ts with
    | nil => exact iff_of_true rfl (Or.inr (Or.inr fun t ht => absurd ht List.not_mem_nil))
    | cons t ts =>
      refine iff_of_false ?_ ?_
      · rw [ElapsedUptimes, hnone]
        simp
      · rintro (h | h | h)
        · exact absurd h (by decide)
        · exact absurd h (by decide)
        · exact (h t List.mem_cons_self).1 rfl
  · have hhz : appTimerHz n ≠ 0 := mt (appTimerHz_eq_zero_iff hn).mp hz
    have hexact := uptimes_exact hhz standsAt_boot hts (hts.bound (bound_of_scaled hb))
    rw [ElapsedUptimes, hexact, List.map_inj_left]
    simp only [Option.some.injEq, conversion_iff hn hz]
    constructor
    · intro h
      by_cases hsmall : n = 0 ∨ n = 1
      · exact hsmall.imp_right Or.inl
      · obtain ⟨h0, h1⟩ := not_or.mp hsmall
        exact Or.inr (Or.inr fun t ht => ⟨hz, ((h t ht).resolve_left h0).resolve_left h1⟩)
    · rintro (h | h | h) t ht
      · exact Or.inl h
      · exact Or.inr (Or.inl h)
      · exact Or.inr (Or.inr (h t ht).2)

/-- Two calls at 16384 Hz, around the first rollover. -/
theorem prescaler_exact_sixteen : ElapsedUptimes 1 [16777215, 26607614] :=
  (prescaler_exact_iff (n := 1) (by decide)
    (by simp [Steady, counterPeriod] : Steady 0 [16777215, 26607614]) (by simp)).mpr
      (Or.inr (Or.inl rfl))

/-- With the prescaler 3 the counter runs at 8192 Hz: after a second the code returns two.  With the
prescaler 31 it divides by zero. -/
theorem prescaler_doubled :
    3 ∈ admittedPrescalers ∧ Steady 0 [8192] ∧ 8192 * 1000 * (3 + 1) < 2 ^ 64 ∧
      elapsedMs 3 8192 = 1000 ∧ uptimes 3 .boot [8192] = [some 2000] ∧
      ¬ ElapsedUptimes 3 [8192] ∧ uptimes 31 .boot [1024] = [none] := by
  refine ⟨by decide, by simp [Steady, counterPeriod], by decide, rfl, rfl, by decide, rfl⟩

end HubbleNordic
