import HubbleNordic.Uptime.Model

/-!
# Exact uptime across rollovers

Calls of `hubble_uptime_get` that do not preempt one another, from boot.

* `uptimes`: the values returned by calls at given true tick counts;
* `Steady`: the first call and each later one come less than one period after what precedes them;
* `schedule`: the application's own firings, one per `ADV_UPDATE_INTERVAL_MS`, each with a delay;
* `uptimes_exact`: the induction over the calls, carried by the state standing at the last tick;
* `uptime_exact`: every call of a steady run returns the true uptime, and the schedule is steady.
-/

namespace HubbleNordic

/-- What calls at the true tick counts `ts` return, one after the other. -/
def uptimes (n : UInt32) : UptimeState → List ℕ → List (Option UInt64)
  | _, [] => []
  | s, t :: ts =>
      let (r, s) := hubbleUptimeGet n (appTimerCntGet t) s
      r :: uptimes n s ts

/-- From `p` on, the ticks never go back and never leave a whole period between two calls. -/
def Steady (p : ℕ) (ts : List ℕ) : Prop :=
  (p :: ts).IsChain fun t u => t ≤ u ∧ u < t + counterPeriod

/-- The calls at `ts` return the true uptimes, which never decrease. -/
structure ExactUptimes (n : UInt32) (ts : List ℕ) : Prop where
  exact : (uptimes n .boot ts).map (Option.map UInt64.toNat) =
    ts.map fun t => some (trueUptime n t)
  monotone : (uptimes n .boot ts).Pairwise fun r r' => ∀ x ∈ r, ∀ y ∈ r', x ≤ y

/-- `ADV_UPDATE_INTERVAL_MS`. -/
def advUpdateIntervalMs : ℕ := 1000 * 60 * 5

/-- `APP_TIMER_CONFIG_RTC_FREQUENCY`. -/
def appTimerConfigRtcFrequency : UInt32 := 0

/-- `APP_TIMER_TICKS(ADV_UPDATE_INTERVAL_MS)`, at 32768 Hz. -/
def advUpdateIntervalTicks : ℕ := advUpdateIntervalMs * 32768 / 1000

/-- The first `m` firings of `adv_update_timer_handler`, the `k`-th of them late by `delay k`. -/
def schedule (delay : ℕ → ℕ) (m : ℕ) : List ℕ :=
  (List.range m).map fun k => advUpdateIntervalTicks * (k + 1) + delay k

/-! ### Steady runs -/

/-- Ticks of a steady run never decrease. -/
theorem Steady.sorted {p : ℕ} {ts : List ℕ} (hts : Steady p ts) :
    (p :: ts).Pairwise (· ≤ ·) :=
  List.isChain_iff_pairwise.mp (hts.imp fun _ _ h => h.1)

/-- The last tick of a steady run bounds every other. -/
theorem Steady.bound {p b : ℕ} {ts : List ℕ} (hts : Steady p ts)
    (hb : ∀ t ∈ ts.getLast?, t * 1000 < b) : ∀ t ∈ ts, t * 1000 < b := by
  intro t ht
  have hne : ts ≠ [] := List.ne_nil_of_mem ht
  have hlast := hb (ts.getLast hne) (List.getLast?_eq_some_getLast hne)
  have hsorted := (List.pairwise_cons.mp hts.sorted).2
  exact lt_of_le_of_lt (Nat.mul_le_mul_right 1000 (hsorted.rel_getLast ht)) hlast

/-- **Every call of a steady run is exact**: by induction over the calls, the state stands at the
tick of the last one. -/
theorem uptimes_exact {n : UInt32} (hz : appTimerHz n ≠ 0) {s : UptimeState} {p : ℕ}
    {ts : List ℕ} (hs : s.StandsAt p) (hts : Steady p ts)
    (hb : ∀ t ∈ ts, t * 1000 < 2 ^ 64) :
    (uptimes n s ts).map (Option.map UInt64.toNat) =
      ts.map fun t => some (trueUptime n t) := by
  induction ts generalizing s p with
  | nil => rfl
  | cons t ts ih =>
    obtain ⟨hstep, hts⟩ := List.isChain_cons_cons.mp hts
    obtain ⟨r, s', hget, hr, hs'⟩ :=
      hubbleUptimeGet_exact hz hs hstep.1 hstep.2 (hb t List.mem_cons_self)
    have hrest := ih hs' hts fun u hu => hb u (List.mem_cons_of_mem _ hu)
    simp only [uptimes, hget, List.map_cons, Option.map_some, hr, hrest]

/-- Exact values never decrease. -/
theorem uptimes_monotone {n : UInt32} {rs : List (Option UInt64)} {ts : List ℕ}
    (hexact : rs.map (Option.map UInt64.toNat) = ts.map fun t => some (trueUptime n t))
    (hts : ts.Pairwise (· ≤ ·)) :
    rs.Pairwise fun r r' => ∀ x ∈ r, ∀ y ∈ r', x ≤ y := by
  have htrue : (ts.map fun t => some (trueUptime n t)).Pairwise
      fun a b => ∀ x ∈ a, ∀ y ∈ b, x ≤ y := by
    rw [List.pairwise_map]
    apply hts.imp
    intro t u htu x hx y hy
    rw [Option.mem_some_iff] at hx hy
    subst hx hy
    exact trueUptime_le htu
  rw [← hexact, List.pairwise_map] at htrue
  apply htrue.imp
  intro r r' h x hx y hy
  exact UInt64.le_iff_toNat_le.mpr
    (h _ (Option.mem_map_of_mem _ hx) _ (Option.mem_map_of_mem _ hy))

theorem exactUptimes_of_steady {n : UInt32} (hz : appTimerHz n ≠ 0) {ts : List ℕ}
    (hts : Steady 0 ts) (hb : ∀ t ∈ ts.getLast?, t * 1000 < 2 ^ 64) : ExactUptimes n ts := by
  have hexact := uptimes_exact hz standsAt_boot hts (hts.bound hb)
  exact ⟨hexact, uptimes_monotone hexact (List.pairwise_cons.mp hts.sorted).2⟩

/-! ### The application's schedule -/

/-- Delays below one period less one interval keep the schedule steady. -/
theorem steady_schedule {delay : ℕ → ℕ}
    (hd : ∀ k, delay k < counterPeriod - advUpdateIntervalTicks) (m : ℕ) :
    Steady 0 (schedule delay m) := by
  have hinterval : advUpdateIntervalTicks = 9830400 := by decide
  have hperiod : counterPeriod = 16777216 := by decide
  rw [hinterval, hperiod] at hd
  simp only [Steady, schedule, hinterval, hperiod]
  have hchain : ((List.range m).map fun k => 9830400 * (k + 1) + delay k).IsChain
      fun t u => t ≤ u ∧ u < t + 16777216 := by
    rw [List.isChain_map, List.isChain_range]
    intro k _
    have h1 := hd k
    have h2 := hd (k + 1)
    rw [Nat.succ_eq_add_one]
    constructor <;> omega
  cases m with
  | zero => exact List.isChain_singleton 0
  | succ m =>
    rw [List.range_succ_eq_map, List.map_cons] at hchain ⊢
    have h0 := hd 0
    exact List.isChain_cons_cons.mpr ⟨⟨by omega, by omega⟩, hchain⟩

/-- **Exact uptime across rollovers**: from boot, every call of a steady run returns the true
uptime, whatever the number of calls and of rollovers, and the values never decrease; in particular
where the handler samples once per interval with a delay below one period less one interval. -/
theorem uptime_exact {n : UInt32} (hz : appTimerHz n ≠ 0) :
    (∀ ts, Steady 0 ts → (∀ t ∈ ts.getLast?, t * 1000 < 2 ^ 64) → ExactUptimes n ts) ∧
    ∀ (delay : ℕ → ℕ) (m : ℕ), (∀ k, delay k < counterPeriod - advUpdateIntervalTicks) →
      (∀ t ∈ (schedule delay m).getLast?, t * 1000 < 2 ^ 64) →
      ExactUptimes appTimerConfigRtcFrequency (schedule delay m) :=
  ⟨fun _ hts hb => exactUptimes_of_steady hz hts hb,
    fun _ m hd hb => exactUptimes_of_steady (by decide) (steady_schedule hd m) hb⟩

/-- Three calls at 32768 Hz, the last two one tick short of the first rollover and past it. -/
theorem uptime_exact_rollover : ExactUptimes 0 [9830400, 16777215, 26607614] :=
  (uptime_exact (n := 0) (by decide)).1 _ (by simp [Steady, counterPeriod]) (by simp)

end HubbleNordic
