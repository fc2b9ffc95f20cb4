import HubbleNordic.Application.Scan
import HubbleNordic.Nonce

/-!
# How old the number on air is

The timer fires once per `ADV_UPDATE_INTERVAL_MS`, each time with a delay below 212 s; the SDK may
sample the uptime at any time in between.  Two firings then lie less than one period of the counter
apart, which is what the rollover tracking needs.

* `OnTime`: the occasions before a tick `now`, as the timer schedules them;
* `OnTime.steady`: they are steady;
* `scan_fresh`: at every tick, the number a scanner reads is at most 512 s behind the uptime.
-/

namespace HubbleNordic

/-- The ticks of the firings. -/
def firings (l : List Occasion) : List ℕ := l.filterMap Occasion.firing?

/-- The occasions `l` come in order and before `now`, the `k`-th firing within its window, and the
next firing is not overdue. -/
structure OnTime (l : List Occasion) (now : ℕ) : Prop where
  sorted : (l.map Occasion.tick ++ [now]).Pairwise (· ≤ ·)
  windows : ∀ k t, (firings l)[k]? = some t → InWindow (k + 1) t
  due : now < advUpdateIntervalTicks * ((firings l).length + 1) + maxDelayTicks

theorem firings_snoc (l : List Occasion) (o : Occasion) :
    firings (l ++ [o]) = firings l ++ o.firing?.toList := by
  cases ho : o.firing? <;> simp [firings, List.filterMap_append, ho]

theorem tick_of_firing {o : Occasion} {t : ℕ} (ho : o.firing? = some t) : o.tick = t := by
  cases o with
  | sample u => cases ho
  | firing u buf a => exact Option.some.inj ho

section OnTime

variable {l : List Occasion} {o : Occasion} {now : ℕ}

/-- What was on time now was on time at its last occasion. -/
theorem OnTime.init (hl : OnTime (l ++ [o]) now) : OnTime l o.tick where
  sorted := by
    have hsorted := hl.sorted
    rw [List.map_append, List.map_singleton] at hsorted
    exact (List.pairwise_append.mp hsorted).1
  windows k t hk := by
    refine hl.windows k t ?_
    rw [firings_snoc]
    exact List.getElem?_append_left (List.getElem?_eq_some_iff.mp hk).1 ▸ hk
  due := by
    have hdue := hl.due
    have hle : o.tick ≤ now := by
      have hsorted := hl.sorted
      rw [List.map_append, List.map_singleton, List.append_assoc] at hsorted
      exact (List.pairwise_cons.mp (List.pairwise_append.mp hsorted).2.1).1 now
        (List.mem_singleton_self now)
    rw [firings_snoc] at hdue
    cases ho : o.firing? with
    | none =>
      rw [ho, Option.toList_none, List.append_nil] at hdue
      omega
    | some t =>
      have hwindow := hl.windows (firings l).length t (by rw [firings_snoc, ho]; simp)
      rw [tick_of_firing ho]
      exact hwindow.2

/-- The last occasion is not after now. -/
theorem OnTime.last_le (hl : OnTime l now) {p : ℕ}
    (hp : (0 :: l.map Occasion.tick).getLast? = some p) : p ≤ now := by
  have hsorted : (0 :: l.map Occasion.tick ++ [now]).Pairwise (· ≤ ·) :=
    List.pairwise_cons.mpr ⟨fun _ _ => Nat.zero_le _, hl.sorted⟩
  exact (List.pairwise_append.mp hsorted).2.2 p (List.mem_of_getLast? hp) now
    (List.mem_singleton_self now)

/-- Nor is it before the window of the last firing. -/
theorem OnTime.last_ge (hl : OnTime l now) {p : ℕ}
    (hp : (0 :: l.map Occasion.tick).getLast? = some p) :
    advUpdateIntervalTicks * (firings l).length ≤ p := by
  induction l using List.reverseRecOn generalizing now p with
  | nil => simp [firings]
  | append_singleton l o ih =>
    obtain rfl : o.tick = p := Option.some.inj ((clock_snoc l o).symm.trans hp)
    rw [firings_snoc]
    cases ho : o.firing? with
    | none =>
      have hlast := List.getLast?_eq_some_getLast (List.cons_ne_nil 0 (l.map Occasion.tick))
      rw [Option.toList_none, List.append_nil]
      exact (ih hl.init hlast).trans (hl.init.last_le hlast)
    | some t =>
      have hwindow := hl.windows (firings l).length t (by rw [firings_snoc, ho]; simp)
      rw [tick_of_firing ho, Option.toList_some, List.length_append, List.length_singleton]
      exact hwindow.1

/-- One interval and the longest delay make one period of the counter. -/
theorem interval_add_delay : advUpdateIntervalTicks + maxDelayTicks = counterPeriod := by decide

/-- **Occasions on time are steady.** -/
theorem OnTime.steady (hl : OnTime l now) : Steady 0 (l.map Occasion.tick) := by
  induction l using List.reverseRecOn generalizing now with
  | nil => exact List.isChain_singleton 0
  | append_singleton l o ih =>
    rw [Steady, List.map_append, ← List.cons_append, List.isChain_append]
    refine ⟨ih hl.init, List.isChain_singleton _, fun p hp t ht => ?_⟩
    obtain rfl : o.tick = t := by simpa using ht
    have hge := hl.init.last_ge hp
    have hdue := hl.init.due
    rw [Nat.mul_add, Nat.mul_one, Nat.add_assoc, interval_add_delay] at hdue
    exact ⟨hl.init.last_le hp, by omega⟩

/-- The last firing opened its window, and lies less than one period back. -/
theorem OnTime.last_firing (hl : OnTime l now) {t : ℕ} (ht : (firings l).getLast? = some t) :
    t ≤ now ∧ now < t + counterPeriod := by
  have hlen : 0 < (firings l).length := List.length_pos_of_mem (List.mem_of_getLast? ht)
  rw [List.getLast?_eq_getElem?] at ht
  have hwindow := hl.windows _ t ht
  have hdue := hl.due
  rw [Nat.mul_add, Nat.mul_one, Nat.add_assoc, interval_add_delay] at hdue
  rw [Nat.sub_add_cancel hlen] at hwindow
  obtain ⟨o, ho, hto⟩ := List.mem_filterMap.mp (List.mem_of_getElem? ht)
  have hsorted := (List.pairwise_append.mp hl.sorted).2.2 t
    (tick_of_firing hto ▸ List.mem_map_of_mem ho) now (List.mem_singleton_self now)
  exact ⟨hsorted, lt_of_lt_of_le hdue (Nat.add_le_add_right hwindow.1 _)⟩

/-- Ticks so early that their uptime fits 32 bits fit the conversion. -/
theorem fits_of_trueUptime {t : ℕ} (h : trueUptime appTimerConfigRtcFrequency t < 2 ^ 32) :
    t * 1000 < 2 ^ 64 := by
  rw [trueUptime, appTimerHz_config] at h
  omega

end OnTime

/-- **The number on air is at most 512 s old**, in the first 49.7 days: at every tick, with firings
and samples on time and calls that succeed, the device is on air; before the first firing it has
been up for less than 512 s and the payload is empty; afterwards a scanner reads a number of seconds
that is not ahead of the uptime, and not more than 512 s behind it. -/
theorem scan_fresh {k : ℕ} (lib : Libb64) {str : CString}
    {receive : List UInt8 → Option (List UInt8)} {l : List Occasion} {now : ℕ}
    (hstr : Acceptable k str.bytes) (keyBuf : ℕ → UInt8) {a b : Answers} (ha : a.Cooperates)
    (hfa : a.Faithful receive) (hb : b.start = nrfSuccess)
    (hl : ∀ t buf a, Occasion.firing t buf a ∈ l → a.Cooperates ∧ a.Faithful receive)
    (hon : OnTime l now) (hnow : trueUptime appTimerConfigRtcFrequency now < 2 ^ 32) :
    ∃ h s p, (lawfulFirmware lib appTimerConfigRtcFrequency str k).Run h s ∧
      h.map Prod.fst = .hubbleStackInit keyBuf a b true :: l.map Occasion.event ∧
      s.stack.world.softdevice.advertising = true ∧
      scan receive s.stack.world.transmitted = some p ∧
      ((firings l = [] ∧ p = [] ∧ trueUptime appTimerConfigRtcFrequency now / 1000 < 512) ∨
        ∃ v, Decimal.IsNumeral v p ∧ v ≤ trueUptime appTimerConfigRtcFrequency now / 1000 ∧
          trueUptime appTimerConfigRtcFrequency now / 1000 ≤ v + 512) := by
  have hle : ∀ t ∈ l.map Occasion.tick, t ≤ now := fun t ht =>
    (List.pairwise_append.mp hon.sorted).2.2 t ht now (List.mem_singleton_self now)
  have hfits := fits_of_trueUptime hnow
  obtain ⟨h, s, hr, hevents, hs⟩ := timely_run lib appTimerConfigRtcFrequency
    (by decide) hstr keyBuf ha hfa hb hl hon.steady
    (fun t ht => lt_of_le_of_lt (Nat.mul_le_mul_right 1000 (hle t ht)) hfits)
  refine ⟨h, s, _, hr.run, hevents, hs.onAir hr.run, hs.scan hr, ?_⟩
  rw [payloadAfter]
  cases hlast : (l.filterMap Occasion.firing?).getLast? with
  | none =>
    left
    have hnil : firings l = [] := List.getLast?_eq_none_iff.mp hlast
    have hdue := hon.due
    rw [hnil, List.length_nil, Nat.zero_add, Nat.mul_one, interval_add_delay] at hdue
    refine ⟨hnil, rfl, ?_⟩
    rw [trueUptime, appTimerHz_config]
    simp only [counterPeriod] at hdue
    omega
  | some t =>
    right
    obtain ⟨h1, h2⟩ := hon.last_firing hlast
    have hup : trueUptime appTimerConfigRtcFrequency t < 2 ^ 32 :=
      lt_of_le_of_lt (trueUptime_le h1) hnow
    refine ⟨trueUptime appTimerConfigRtcFrequency t / 1000, ?_,
      Nat.div_le_div_right (trueUptime_le h1), ?_⟩
    · rw [Option.elim_some, Nat.mod_eq_of_lt hup]
      exact Decimal.isNumeral_print _
    · simp only [trueUptime, appTimerHz_config, counterPeriod] at h2 ⊢
      omega

/-- Ten and a half minutes after boot; the second firing was 20 s late. -/
theorem scan_fresh_second :
    ∃ h s p, (lawfulFirmware .plain appTimerConfigRtcFrequency zeroKey 16).Run h s ∧
      s.stack.world.softdevice.advertising = true ∧
      scan some s.stack.world.transmitted = some p ∧
      ∃ v, Decimal.IsNumeral v p ∧ v ≤ 630 ∧ 630 ≤ v + 512 := by
  have hon : OnTime [.firing 9830400 (.replicate 16 0) .plain, .sample 9830500,
      .firing 20316160 (.replicate 16 0) .plain] 20643840 := by
    refine ⟨by simp [Occasion.tick], fun k t hk => ?_, by decide⟩
    rcases k with _ | _ | k
    · obtain rfl : 9830400 = t := Option.some.inj hk
      exact ⟨by decide, by decide⟩
    · obtain rfl : 20316160 = t := Option.some.inj hk
      exact ⟨by decide, by decide⟩
    · cases hk
  obtain ⟨h, s, p, hr, -, hair, hscan, hnone | hnumber⟩ := scan_fresh Libb64.plain
    (show Acceptable 16 zeroKey.bytes by unfold Acceptable; decide) (fun _ => 0)
    plain_cooperates plain_faithful plain_cooperates.start
    (by
      intro t buf a ha
      obtain rfl : a = .plain := by
        simp only [List.mem_cons, Occasion.firing.injEq, reduceCtorEq, List.not_mem_nil,
          or_false, false_or] at ha
        rcases ha with ⟨-, -, h⟩ | ⟨-, -, h⟩ <;> exact h
      exact ⟨plain_cooperates, plain_faithful⟩)
    hon (by decide)
  · exact absurd hnone.1 (List.cons_ne_nil _ _)
  · exact ⟨h, s, p, hr, hair, hscan, hnumber⟩

end HubbleNordic
