import HubbleNordic.Rollover

/-!
# Uptime: `hubble_uptime_get` of `hubble_app_port.c`

The function reads a 24-bit counter, extends the reading inside a critical region, and converts
ticks to milliseconds.

* `appTimerHz`, `appTimerCntGet`, `UptimeState`;
* `criticalRegion` (lines 20 to 26), `ticksToUptime` (line 28), `hubbleUptimeGet`;
* `criticalRegion_tracker`: the critical region refines `Tracker.sample`, as long as the 64-bit
  sum of periods does not overflow;
* `criticalRegion_onTime`, `criticalRegion_stale`, `criticalRegion_late`: the three kinds of sample;
* `hubbleUptimeGet_exact`: what an undisturbed call returns;
* `criticalRegion_forward`: whatever a completed call has read, the tick count does not go back, as
  long as the conversion fits its 64 bits.

The counter itself, `app_timer_cnt_get`, shows the true tick count modulo `2 ^ 24`.
-/

namespace HubbleNordic

/-- `DRV_RTC_MAX_CNT`: the largest value of the RTC counter. -/
def drvRtcMaxCnt : UInt32 := 0xFFFFFF

/-- The ticks after which the counter rolls over. -/
abbrev counterPeriod : ℕ := 2 ^ 24

/-- `app_timer_hz`, for `APP_TIMER_CONFIG_RTC_FREQUENCY = n`. -/
def appTimerHz (n : UInt32) : UInt32 := 32768 >>> n

/-- `app_timer_cnt_get()` at the true tick count `t`. -/
def appTimerCntGet (t : ℕ) : UInt32 := UInt32.ofNat (t % counterPeriod)

/-- The static variables of `hubble_uptime_get`. -/
structure UptimeState where
  prevTicks : UInt32
  extendedTicks : UInt64
  deriving DecidableEq

/-- The static initialisers. -/
def UptimeState.boot : UptimeState := ⟨0, 0⟩

/-- The critical region: account for the timer rolling over. Returns `ticks` after it. -/
def criticalRegion (ticks : UInt64) (s : UptimeState) : UInt64 × UptimeState :=
  let s :=
    if ticks < s.prevTicks.toUInt64 then
      { s with extendedTicks := s.extendedTicks + (drvRtcMaxCnt + 1).toUInt64 }
    else s
  let s := { s with prevTicks := ticks.toUInt32 }
  (ticks + s.extendedTicks, s)

/-- The value returned for `ticks`; `none` is the division by zero. -/
def ticksToUptime (n : UInt32) (ticks : UInt64) : Option UInt64 :=
  if appTimerHz n = 0 then none else some (ticks * 1000 / (appTimerHz n).toUInt64)

/-- `hubble_uptime_get`, not preempted, where the counter reads `counter`. -/
def hubbleUptimeGet (n counter : UInt32) (s : UptimeState) : Option UInt64 × UptimeState :=
  let (ticks, s) := criticalRegion counter.toUInt64 s
  (ticksToUptime n ticks, s)

/-- The true uptime in milliseconds at the tick count `t`. -/
def trueUptime (n : UInt32) (t : ℕ) : ℕ := t * 1000 / (appTimerHz n).toNat

theorem trueUptime_le {n : UInt32} {t u : ℕ} (h : t ≤ u) : trueUptime n t ≤ trueUptime n u :=
  Nat.div_le_div_right (Nat.mul_le_mul_right 1000 h)

/-! ### The critical region -/

/-- The static variables as a tracker of the true tick count. -/
def UptimeState.tracker (s : UptimeState) : Tracker := ⟨s.prevTicks.toNat, s.extendedTicks.toNat⟩

/-- The static variables stand at the true tick count `t`. -/
abbrev UptimeState.StandsAt (s : UptimeState) (t : ℕ) : Prop := s.tracker.Tracks counterPeriod t

theorem standsAt_boot : UptimeState.boot.StandsAt 0 := Tracker.tracks_zero _

theorem appTimerCntGet_toNat (t : ℕ) : (appTimerCntGet t).toNat = t % counterPeriod := by
  have h := Nat.mod_lt t (show 0 < counterPeriod by norm_num)
  refine UInt32.toNat_ofNat_of_lt' ?_
  simp only [counterPeriod, UInt32.size] at *
  omega

theorem appTimerCntGet_toUInt64 (t : ℕ) :
    (appTimerCntGet t).toUInt64.toNat = t % counterPeriod := by
  rw [UInt32.toNat_toUInt64, appTimerCntGet_toNat]

/-- The sum of periods stays below 64 bits with one more period added. -/
def UptimeState.Roomy (s : UptimeState) : Prop := s.extendedTicks.toNat + 2 * counterPeriod < 2 ^ 64

theorem UptimeState.StandsAt.roomy {s : UptimeState} {t : ℕ} (hs : s.StandsAt t)
    (ht : t * 1000 < 2 ^ 64) : s.Roomy := by
  have he : s.extendedTicks.toNat ≤ t := by
    rw [show s.extendedTicks.toNat = s.tracker.extended from rfl, hs.extended]
    exact Nat.mul_div_le t counterPeriod
  simp only [Roomy, counterPeriod]
  omega

/-- The periods counted after the critical region. -/
theorem criticalRegion_extendedTicks {s : UptimeState} (hs : s.Roomy) (ticks : UInt64) :
    (criticalRegion ticks s).2.extendedTicks.toNat =
      (s.tracker.sample counterPeriod ticks.toNat).extended := by
  have hperiod : (drvRtcMaxCnt + 1).toUInt64.toNat = counterPeriod := by decide
  have hcmp : ticks < s.prevTicks.toUInt64 ↔ ticks.toNat < s.tracker.prev := by
    rw [UInt64.lt_iff_toNat_lt, UInt32.toNat_toUInt64]
    rfl
  simp only [criticalRegion, Tracker.sample, hcmp]
  split_ifs
  · rw [UInt64.toNat_add, hperiod]
    simp only [UptimeState.Roomy, counterPeriod] at *
    exact Nat.mod_eq_of_lt (by omega)
  · rfl

/-- **The critical region refines the tracker**: it takes a sample, and returns what the tracker
stands at afterwards. -/
theorem criticalRegion_tracker {s : UptimeState} (hs : s.Roomy) {ticks : UInt64}
    (ht : ticks.toNat < counterPeriod) :
    (criticalRegion ticks s).2.tracker = s.tracker.sample counterPeriod ticks.toNat ∧
      (criticalRegion ticks s).1.toNat = (s.tracker.sample counterPeriod ticks.toNat).value := by
  have hext := criticalRegion_extendedTicks hs ticks
  constructor
  · apply Tracker.ext
    · show ticks.toUInt32.toNat = ticks.toNat
      rw [UInt64.toNat_toUInt32]
      simp only [counterPeriod] at ht
      omega
    · exact hext
  · show (ticks + (criticalRegion ticks s).2.extendedTicks).toNat = _
    have hbound : (s.tracker.sample counterPeriod ticks.toNat).extended ≤
        s.extendedTicks.toNat + counterPeriod := Tracker.extended_sample_le ..
    have hvalue : (s.tracker.sample counterPeriod ticks.toNat).value =
        (s.tracker.sample counterPeriod ticks.toNat).extended + ticks.toNat := rfl
    rw [UInt64.toNat_add, hext, hvalue]
    simp only [UptimeState.Roomy, counterPeriod] at *
    omega

/-- A sample at `t`, less than one period after the last, leaves the state at `t`. -/
theorem criticalRegion_onTime {s : UptimeState} {p t : ℕ} (hs : s.StandsAt p) (hroomy : s.Roomy)
    (h1 : p ≤ t) (h2 : t < p + counterPeriod) :
    (criticalRegion (appTimerCntGet t).toUInt64 s).2.StandsAt t ∧
      (criticalRegion (appTimerCntGet t).toUInt64 s).1.toNat = t := by
  have hcnt := appTimerCntGet_toUInt64 t
  obtain ⟨htracker, hvalue⟩ := criticalRegion_tracker hroomy (hcnt ▸ Nat.mod_lt t (by norm_num))
  rw [hcnt] at htracker hvalue
  have hsample := hs.sample h1 h2
  exact ⟨by rw [UptimeState.StandsAt, htracker]; exact hsample, hvalue.trans hsample.value_eq⟩

/-- A sample of a reading made at `t`, before the last one, leaves the state a period ahead. -/
theorem criticalRegion_stale {s : UptimeState} {p t : ℕ} (hs : s.StandsAt p) (hroomy : s.Roomy)
    (h1 : t < p) (h2 : p < t + counterPeriod) :
    (criticalRegion (appTimerCntGet t).toUInt64 s).2.StandsAt (t + counterPeriod) := by
  have hcnt := appTimerCntGet_toUInt64 t
  obtain ⟨htracker, -⟩ := criticalRegion_tracker hroomy (hcnt ▸ Nat.mod_lt t (by norm_num))
  rw [UptimeState.StandsAt, htracker, hcnt]
  exact hs.sample_stale h1 h2

/-- A sample a period or more after the last returns a count at least one period short. -/
theorem criticalRegion_late {s : UptimeState} {p t : ℕ} (hs : s.StandsAt p) (hroomy : s.Roomy)
    (h : p + counterPeriod ≤ t) :
    (criticalRegion (appTimerCntGet t).toUInt64 s).1.toNat + counterPeriod ≤ t := by
  have hcnt := appTimerCntGet_toUInt64 t
  obtain ⟨-, hvalue⟩ := criticalRegion_tracker hroomy (hcnt ▸ Nat.mod_lt t (by norm_num))
  rw [hcnt] at hvalue
  rw [hvalue]
  exact hs.sample_late h

/-! ### The conversion to milliseconds -/

theorem ticksToUptime_eq {n : UInt32} (hz : appTimerHz n ≠ 0) (ticks : UInt64) :
    ∃ r, ticksToUptime n ticks = some r ∧
      r.toNat = ticks.toNat * 1000 % 2 ^ 64 / (appTimerHz n).toNat := by
  refine ⟨_, if_neg hz, ?_⟩
  rw [UInt64.toNat_div, UInt64.toNat_mul, UInt32.toNat_toUInt64]
  rfl

/-- Without overflow the conversion is exact. -/
theorem ticksToUptime_exact {n : UInt32} (hz : appTimerHz n ≠ 0) {ticks : UInt64}
    (ht : ticks.toNat * 1000 < 2 ^ 64) :
    ∃ r, ticksToUptime n ticks = some r ∧ r.toNat = trueUptime n ticks.toNat := by
  obtain ⟨r, hr, hval⟩ := ticksToUptime_eq hz ticks
  exact ⟨r, hr, by rw [hval, Nat.mod_eq_of_lt ht, trueUptime]⟩

/-- **An undisturbed call is exact**: less than one period after the last sample it returns the
true uptime, and the state stands at the tick of the call. -/
theorem hubbleUptimeGet_exact {n : UInt32} (hz : appTimerHz n ≠ 0) {s : UptimeState} {p t : ℕ}
    (hs : s.StandsAt p) (h1 : p ≤ t) (h2 : t < p + counterPeriod) (ht : t * 1000 < 2 ^ 64) :
    ∃ r s', hubbleUptimeGet n (appTimerCntGet t) s = (some r, s') ∧
      r.toNat = trueUptime n t ∧ s'.StandsAt t := by
  have hp : p * 1000 < 2 ^ 64 := lt_of_le_of_lt (Nat.mul_le_mul_right 1000 h1) ht
  obtain ⟨hs', hval⟩ := criticalRegion_onTime hs (hs.roomy hp) h1 h2
  have hbound : (criticalRegion (appTimerCntGet t).toUInt64 s).1.toNat * 1000 < 2 ^ 64 := by
    rw [hval]
    exact ht
  obtain ⟨r, hr, hrval⟩ := ticksToUptime_exact hz hbound
  refine ⟨r, (criticalRegion (appTimerCntGet t).toUInt64 s).2, ?_, by rw [hrval, hval], hs'⟩
  rw [← hr]
  rfl

/-! ### The tick count never goes back -/

/-- The product of the conversion fits its 64 bits. -/
def Fits (counter : UInt32) (s : UptimeState) : Prop :=
  (criticalRegion counter.toUInt64 s).1.toNat * 1000 < 2 ^ 64

/-- The state after completed calls whose conversions fitted. -/
structure UptimeState.Sane (s : UptimeState) : Prop where
  prev : s.tracker.prev < counterPeriod
  small : s.tracker.value * 1000 < 2 ^ 64

theorem sane_boot : UptimeState.boot.Sane := ⟨by decide, by decide⟩

theorem UptimeState.Sane.roomy {s : UptimeState} (hs : s.Sane) : s.Roomy := by
  have hsmall := hs.small
  have hext : s.extendedTicks.toNat ≤ s.tracker.value := Nat.le_add_right _ _
  simp only [Roomy, counterPeriod]
  omega

section Sample

variable {n counter : UInt32} {s : UptimeState}

/-- **One completed call**, whatever it read, never makes the tick count go back. -/
theorem criticalRegion_forward (hs : s.Sane) (hc : counter.toNat < counterPeriod)
    (hfits : Fits counter s) :
    (criticalRegion counter.toUInt64 s).2.Sane ∧
      s.tracker.value ≤ (criticalRegion counter.toUInt64 s).2.tracker.value ∧
      (criticalRegion counter.toUInt64 s).1.toNat =
        (criticalRegion counter.toUInt64 s).2.tracker.value := by
  have hcounter : counter.toUInt64.toNat < counterPeriod := by rwa [UInt32.toNat_toUInt64]
  obtain ⟨htracker, hvalue⟩ := criticalRegion_tracker hs.roomy hcounter
  rw [← htracker] at hvalue
  refine ⟨⟨?_, ?_⟩, ?_, hvalue⟩
  · rw [htracker]
    exact hcounter
  · rw [← hvalue]
    exact hfits
  · rw [htracker]
    exact Tracker.value_le_sample hs.prev _

/-- The value a completed call returns, where it returns. -/
theorem hubbleUptimeGet_value (hs : s.Sane) (hc : counter.toNat < counterPeriod)
    (hfits : Fits counter s) {u : UInt64} {s' : UptimeState}
    (hget : hubbleUptimeGet n counter s = (some u, s')) :
    s'.Sane ∧ s.tracker.value ≤ s'.tracker.value ∧ u.toNat = trueUptime n s'.tracker.value := by
  obtain ⟨hsane, hle, hvalue⟩ := criticalRegion_forward hs hc hfits
  obtain ⟨hu, hs'⟩ := Prod.mk.inj hget
  obtain rfl : (criticalRegion counter.toUInt64 s).2 = s' := hs'
  have hz : appTimerHz n ≠ 0 := by
    intro h0
    rw [ticksToUptime, if_pos h0] at hu
    cases hu
  obtain ⟨r, hr, hrval⟩ := ticksToUptime_exact hz hfits
  obtain rfl : r = u := Option.some.inj (hr.symm.trans hu)
  exact ⟨hsane, hle, by rw [hrval, hvalue]⟩

end Sample

end HubbleNordic
