import HubbleNordic.Advertiser.Model
import HubbleNordic.Decimal
import HubbleNordic.Uptime.Exact

/-!
# The refreshed payload: `adv_update_timer_handler` of `main.c`

The handler prints the uptime in seconds into a buffer of 16 bytes and advertises the text.

* `snprintfLu`, `strlen`, `uptimePayload`, `advUpdateTimerHandler`;
* `application`: the handler firing, other calls of `hubble_uptime_get`, and other API calls, in any
  order;
* `uptimePayload_eq`: the text is the numeral of the uptime modulo `2 ^ 32`, in seconds: the cast in
  front of the division binds tighter;
* `refreshed_payload_iff`: the text is right as long as the uptime is below `2 ^ 32` milliseconds,
  and along the runs that stay there the numbers never decrease;
* `punctual_run`, `refreshed_payload_wraps`: the firings as the timer schedules them, up to and
  including the one whose number falls back.
-/

namespace HubbleNordic

/-- `snprintf(buf, sizeof(buf), "%lu", v)`: the text, cut off to leave room for the terminator. -/
def snprintfLu (v : UInt32) (buf : Vector UInt8 16) : Vector UInt8 16 :=
  let text := (Decimal.print v.toNat).take 15 ++ [0]
  ⟨(text ++ buf.toList.drop text.length).toArray, by
    simp only [text, List.size_toArray, List.length_append, List.length_take, List.length_drop,
      List.length_singleton, Vector.length_toList]
    omega⟩

/-- `strlen(buf)`. -/
def strlen (buf : List UInt8) : ℕ := (buf.takeWhile (· ≠ 0)).length

/-- The bytes the handler hands to `hubble_advertiser_update_data`, where `hubble_uptime_get`
returned `u`; `buf` is the buffer as it was on the stack. -/
def uptimePayload (u : UInt64) (buf : Vector UInt8 16) : List UInt8 :=
  let buf := (snprintfLu (u.toUInt32 / 1000) buf).toList
  buf.take (strlen buf)

/-- The static variables of `hubble_uptime_get`, and the advertiser. -/
structure Application where
  uptime : UptimeState
  world : World

/-- A firing of the handler: what `hubble_uptime_get` returned, and the payload it handed over. -/
structure Refresh where
  uptime : UInt64
  payload : List UInt8
  deriving DecidableEq

/-- `adv_update_timer_handler`, where the counter reads `counter`. -/
def advUpdateTimerHandler (a : Answers) (n counter : UInt32) (buf : Vector UInt8 16)
    (s : Application) : Option (Refresh × Application) :=
  let (u, uptime) := hubbleUptimeGet n counter s.uptime
  u.map fun u =>
    let payload := uptimePayload u buf
    let (_, world) := hubbleAdvertiserUpdateData a payload { s.world with calls := [] }
    (⟨u, payload⟩, ⟨uptime, world⟩)

/-- A step of the application: the handler fires; any other call of `hubble_uptime_get` completes;
anything else happens to the advertiser.  A reading may be stale: the call may have been preempted
after it read the counter. -/
inductive AppEvent
  | advUpdateTimer (counter : UInt32) (buf : Vector UInt8 16) (a : Answers)
  | uptimeGet (counter : UInt32)
  | advertiser (e : Event)

/-- The application, from boot; a firing shows what it handed over. -/
def application (n : UInt32) : Mealy Application AppEvent (Option Refresh) where
  init := ⟨.boot, .boot⟩
  next s
    | .advUpdateTimer counter buf a =>
        if counter.toNat < counterPeriod then
          (advUpdateTimerHandler a n counter buf s).map fun (r, s) => (some r, s)
        else none
    | .uptimeGet counter =>
        if counter.toNat < counterPeriod then
          some (none, { s with uptime := (hubbleUptimeGet n counter s.uptime).2 })
        else none
    | .advertiser e => (advertiser.next s.world e).map fun (_, w) => (none, { s with world := w })

/-- The firings of a run. -/
def refreshes (h : List (AppEvent × Option Refresh)) : List Refresh := h.filterMap Prod.snd

/-- Every conversion fits, and a firing finds an uptime below `2 ^ 32` milliseconds. -/
def InTime (n : UInt32) (_ : List (AppEvent × Option Refresh)) (s : Application) :
    AppEvent → Option Refresh → Application → Prop
  | .advUpdateTimer counter _ _, _, _ =>
      Fits counter s.uptime ∧ ∀ u ∈ (hubbleUptimeGet n counter s.uptime).1, u.toNat < 2 ^ 32
  | .uptimeGet counter, _, _ => Fits counter s.uptime
  | .advertiser _, _, _ => True

/-! ### One payload -/

/-- The length of a terminated text. -/
theorem strlen_append {text rest : List UInt8} (h : 0 ∉ text) :
    strlen (text ++ 0 :: rest) = text.length := by
  rw [strlen, List.takeWhile_append_of_pos]
  · simp
  · intro b hb
    simpa using fun h0 : b = 0 => h (h0 ▸ hb)

/-- A terminated text is read back up to its terminator. -/
theorem take_strlen {text rest : List UInt8} (h : 0 ∉ text) :
    (text ++ 0 :: rest).take (strlen (text ++ 0 :: rest)) = text := by
  rw [strlen_append h, List.take_left]

/-- A 32-bit number has at most ten digits: nothing is cut off. -/
theorem snprintfLu_toList (v : UInt32) (buf : Vector UInt8 16) :
    ∃ rest, (snprintfLu v buf).toList = Decimal.print v.toNat ++ 0 :: rest := by
  have hlen : (Decimal.print v.toNat).length ≤ 15 :=
    Decimal.length_print_le (by norm_num) (lt_trans v.toNat_lt (by norm_num))
  refine ⟨buf.toList.drop ((Decimal.print v.toNat).length + 1), ?_⟩
  simp [snprintfLu, List.take_of_length_le hlen]

/-- **What the handler hands over**: the cast comes before the division. -/
theorem uptimePayload_eq (u : UInt64) (buf : Vector UInt8 16) :
    uptimePayload u buf = Decimal.print (u.toNat % 2 ^ 32 / 1000) := by
  obtain ⟨rest, hbuf⟩ := snprintfLu_toList (u.toUInt32 / 1000) buf
  have hzero := (Decimal.isNumeral_print (u.toUInt32 / 1000).toNat).zero_not_mem
  rw [uptimePayload, hbuf, take_strlen hzero, UInt32.toNat_div, UInt64.toNat_toUInt32]
  rfl

/-- Dropping a multiple of `2 ^ 32` milliseconds always shows in the seconds. -/
theorem seconds_eq_iff (u : ℕ) : u / 1000 = u % 2 ^ 32 / 1000 ↔ u < 2 ^ 32 := by omega

theorem isNumeral_uptimePayload_iff (u : UInt64) (buf : Vector UInt8 16) :
    Decimal.IsNumeral (u.toNat / 1000) (uptimePayload u buf) ↔ u.toNat < 2 ^ 32 := by
  rw [uptimePayload_eq, Decimal.isNumeral_print_iff, seconds_eq_iff]

/-! ### Runs -/

section Steps

variable {n : UInt32} {s s' : Application} {o : Option Refresh}

/-- What a firing does. -/
theorem advUpdateTimer_next {counter : UInt32} {buf : Vector UInt8 16} {a : Answers}
    (hn : (application n).next s (.advUpdateTimer counter buf a) = some (o, s')) :
    counter.toNat < counterPeriod ∧ ∃ u,
      hubbleUptimeGet n counter s.uptime = (some u, s'.uptime) ∧
      o = some ⟨u, uptimePayload u buf⟩ := by
  simp only [application, advUpdateTimerHandler, Option.ite_none_right_eq_some,
    Option.map_eq_some_iff, Prod.mk.injEq, Prod.exists] at hn
  obtain ⟨hc, r, t, ⟨u, hu, rfl, rfl⟩, rfl, rfl⟩ := hn
  exact ⟨hc, u, Prod.ext hu rfl, rfl⟩

theorem uptimeGet_next {counter : UInt32}
    (hn : (application n).next s (.uptimeGet counter) = some (o, s')) :
    counter.toNat < counterPeriod ∧ o = none ∧
      s'.uptime = (criticalRegion counter.toUInt64 s.uptime).2 := by
  simp only [application, Option.ite_none_right_eq_some, Option.some.injEq, Prod.mk.injEq] at hn
  obtain ⟨hc, rfl, rfl⟩ := hn
  exact ⟨hc, rfl, rfl⟩

theorem advertiser_next {e : Event}
    (hn : (application n).next s (.advertiser e) = some (o, s')) :
    o = none ∧ s'.uptime = s.uptime := by
  simp only [application, Option.map_eq_some_iff, Prod.mk.injEq, Prod.exists] at hn
  obtain ⟨-, w, -, rfl, rfl⟩ := hn
  exact ⟨rfl, rfl⟩

end Steps

/-- The numbers advertised so far are right, never decreased, and do not exceed the seconds the
tracker stands at. -/
structure Ascending (n : UInt32) (rs : List Refresh) (s : UptimeState) : Prop where
  sane : s.Sane
  exact : ∀ r ∈ rs, Decimal.IsNumeral (r.uptime.toNat / 1000) r.payload
  sorted : rs.Pairwise fun r r' => r.uptime ≤ r'.uptime
  bound : ∀ r ∈ rs, r.uptime.toNat ≤ trueUptime n s.tracker.value

section Steps

variable {n : UInt32} {rs : List Refresh} {s s' : UptimeState}

/-- A step that fires nothing. -/
theorem Ascending.advance (h : Ascending n rs s) (hs' : s'.Sane)
    (hle : s.tracker.value ≤ s'.tracker.value) : Ascending n rs s' :=
  ⟨hs', h.exact, h.sorted, fun r hr => (h.bound r hr).trans (trueUptime_le hle)⟩

/-- A firing in time. -/
theorem Ascending.fire (h : Ascending n rs s) (hs' : s'.Sane)
    (hle : s.tracker.value ≤ s'.tracker.value) {u : UInt64} {buf : Vector UInt8 16}
    (hu : u.toNat = trueUptime n s'.tracker.value) (hlt : u.toNat < 2 ^ 32) :
    Ascending n (rs ++ [⟨u, uptimePayload u buf⟩]) s' := by
  have h' := h.advance hs' hle
  refine ⟨hs', ?_, ?_, ?_⟩
  · intro r hr
    rcases List.mem_append.mp hr with hr | hr
    · exact h'.exact r hr
    · rw [List.mem_singleton.mp hr]
      exact (isNumeral_uptimePayload_iff u buf).mpr hlt
  · refine List.pairwise_append.mpr ⟨h'.sorted, List.pairwise_singleton _ _, ?_⟩
    intro r hr r' hr'
    rw [List.mem_singleton.mp hr', UInt64.le_iff_toNat_le]
    exact (h'.bound r hr).trans hu.ge
  · intro r hr
    rcases List.mem_append.mp hr with hr | hr
    · exact h'.bound r hr
    · rw [List.mem_singleton.mp hr]
      exact hu.le

end Steps

/-- **A step in time** keeps the numbers ascending. -/
theorem ascending_next {n : UInt32} {h : List (AppEvent × Option Refresh)} {s s' : Application}
    {e : AppEvent} {o : Option Refresh} (hs : Ascending n (refreshes h) s.uptime)
    (hn : (application n).next s e = some (o, s')) (he : InTime n h s e o s') :
    Ascending n (refreshes (h ++ [(e, o)])) s'.uptime := by
  rw [refreshes, List.filterMap_append, ← refreshes]
  cases e with
  | advUpdateTimer counter buf a =>
    obtain ⟨hc, u, hget, rfl⟩ := advUpdateTimer_next hn
    obtain ⟨hfits, hlt⟩ := he
    obtain ⟨hsane, hle, hu⟩ := hubbleUptimeGet_value hs.sane hc hfits hget
    exact hs.fire hsane hle hu (hlt u (by rw [hget]; rfl))
  | uptimeGet counter =>
    obtain ⟨hc, rfl, huptime⟩ := uptimeGet_next hn
    obtain ⟨hsane, hle, -⟩ := criticalRegion_forward hs.sane hc he
    rw [← huptime] at hsane hle
    simpa using hs.advance hsane hle
  | advertiser e =>
    obtain ⟨rfl, huptime⟩ := advertiser_next hn
    rw [huptime]
    simpa using hs

theorem ascending_run {n : UInt32} {h : List (AppEvent × Option Refresh)} {s : Application}
    (hr : (application n).RunWith (InTime n) h s) : Ascending n (refreshes h) s.uptime :=
  Mealy.runWith_invariant (I := fun h s => Ascending n (refreshes h) s.uptime)
    ⟨sane_boot, by simp [refreshes], List.Pairwise.nil, by simp [refreshes]⟩
    (fun _ _ _ _ _ _ hs hn he => ascending_next hs hn he) hr

/-- **The refreshed payload is the uptime in seconds exactly below `2 ^ 32` milliseconds**: then,
and only then, the bytes handed over are its decimal digits, without leading zeros, truncation or
terminator; and along every run whose firings all find such an uptime, and whose conversions fit
their 64 bits, every number is right and the numbers never decrease. -/
theorem refreshed_payload_iff (n : UInt32) (u : UInt64) (buf : Vector UInt8 16) :
    (Decimal.IsNumeral (u.toNat / 1000) (uptimePayload u buf) ↔ u.toNat < 2 ^ 32) ∧
    ∀ (h : List (AppEvent × Option Refresh)) (s : Application),
      (application n).RunWith (InTime n) h s →
        (∀ r ∈ refreshes h, Decimal.IsNumeral (r.uptime.toNat / 1000) r.payload) ∧
        (refreshes h).Pairwise fun r r' =>
          Decimal.value r.payload ≤ Decimal.value r'.payload := by
  refine ⟨isNumeral_uptimePayload_iff u buf, fun h s hr => ?_⟩
  have hs := ascending_run hr
  refine ⟨hs.exact, hs.sorted.imp_of_mem ?_⟩
  intro r r' hr hr' hle
  rw [(hs.exact r hr).value, (hs.exact r' hr').value]
  exact Nat.div_le_div_right (UInt64.le_iff_toNat_le.mp hle)

/-! ### The firings as the timer schedules them -/

/-- An undisturbed firing less than one period after the last call. -/
theorem advUpdateTimer_onTime {n : UInt32} (hz : appTimerHz n ≠ 0) {s : Application} {p t : ℕ}
    (hs : s.uptime.StandsAt p) (h1 : p ≤ t) (h2 : t < p + counterPeriod) (ht : t * 1000 < 2 ^ 64)
    (buf : Vector UInt8 16) (a : Answers) :
    ∃ u s', (application n).next s (.advUpdateTimer (appTimerCntGet t) buf a) =
        some (some ⟨u, uptimePayload u buf⟩, s') ∧
      hubbleUptimeGet n (appTimerCntGet t) s.uptime = (some u, s'.uptime) ∧
      u.toNat = trueUptime n t ∧ s'.uptime.StandsAt t ∧ Fits (appTimerCntGet t) s.uptime := by
  obtain ⟨u, s', hget, hu, hs'⟩ := hubbleUptimeGet_exact hz hs h1 h2 ht
  have hp : p * 1000 < 2 ^ 64 := lt_of_le_of_lt (Nat.mul_le_mul_right 1000 h1) ht
  have hfits : Fits (appTimerCntGet t) s.uptime := by
    rw [Fits, (criticalRegion_onTime hs (hs.roomy hp) h1 h2).2]
    exact ht
  have hcounter : (appTimerCntGet t).toNat < counterPeriod := by
    rw [appTimerCntGet_toNat]
    exact Nat.mod_lt t (by norm_num)
  refine ⟨u, ⟨s', (hubbleAdvertiserUpdateData a (uptimePayload u buf)
    { s.world with calls := [] }).2⟩, ?_, hget, hu, hs', hfits⟩
  simp only [application, advUpdateTimerHandler, if_pos hcounter, hget, Option.map_some]

/-- The refresh `k + 1` intervals after boot, as it should be. -/
def punctual (k : ℕ) : Refresh :=
  ⟨UInt64.ofNat (advUpdateIntervalMs * (k + 1)), Decimal.print (300 * (k + 1))⟩

theorem trueUptime_interval (k : ℕ) :
    trueUptime 0 (advUpdateIntervalTicks * (k + 1)) = advUpdateIntervalMs * (k + 1) := by
  show 9830400 * (k + 1) * 1000 / 32768 = 300000 * (k + 1)
  omega

/-- Consecutive firings are less than one period apart, and early enough for the conversion. -/
theorem interval_onTime {k : ℕ} (hk : k ≤ 14316) :
    advUpdateIntervalTicks * k ≤ advUpdateIntervalTicks * (k + 1) ∧
      advUpdateIntervalTicks * (k + 1) < advUpdateIntervalTicks * k + counterPeriod ∧
      advUpdateIntervalTicks * (k + 1) * 1000 < 2 ^ 64 := by
  show 9830400 * k ≤ 9830400 * (k + 1) ∧ 9830400 * (k + 1) < 9830400 * k + 2 ^ 24 ∧
    9830400 * (k + 1) * 1000 < 2 ^ 64
  omega

/-- **The first 14316 intervals**, without delays: every refresh is as it should be. -/
theorem punctual_run {m : ℕ} (hm : m ≤ 14316) :
    ∃ h s, (application 0).RunWith (InTime 0) h s ∧
      s.uptime.StandsAt (advUpdateIntervalTicks * m) ∧
      refreshes h = (List.range m).map punctual := by
  induction m with
  | zero => exact ⟨[], _, .nil, standsAt_boot, rfl⟩
  | succ m ih =>
    obtain ⟨h, s, hr, hs, hrefreshes⟩ := ih (by omega)
    obtain ⟨h1, h2, h3⟩ := interval_onTime (k := m) (by omega)
    obtain ⟨u, s', hn, hget, hu, hs', hfits⟩ :=
      advUpdateTimer_onTime (n := 0) (by decide) hs h1 h2 h3 (.replicate 16 0) .storing
    rw [trueUptime_interval] at hu
    have hlt : advUpdateIntervalMs * (m + 1) < 2 ^ 32 := by
      show 300000 * (m + 1) < 2 ^ 32
      omega
    have hseconds : advUpdateIntervalMs * (m + 1) % 2 ^ 32 / 1000 = 300 * (m + 1) := by
      rw [Nat.mod_eq_of_lt hlt]
      show 300000 * (m + 1) / 1000 = 300 * (m + 1)
      omega
    have hpunctual : (⟨u, uptimePayload u (.replicate 16 0)⟩ : Refresh) = punctual m := by
      rw [uptimePayload_eq, punctual, hu, hseconds, ← hu, UInt64.ofNat_toNat]
    refine ⟨_, s', hr.snoc hn ⟨hfits, fun v hv => ?_⟩, hs', ?_⟩
    · rw [hget, Option.mem_some_iff] at hv
      rw [← hv, hu]
      exact hlt
    · rw [refreshes, List.filterMap_append, ← refreshes, hrefreshes, List.range_succ,
        List.map_append, hpunctual]
      rfl

/-- The first 14316 refreshes never decrease. -/
theorem refreshed_payload_punctual :
    ((List.range 14316).map punctual).Pairwise fun r r' =>
      Decimal.value r.payload ≤ Decimal.value r'.payload := by
  obtain ⟨h, s, hr, -, hrefreshes⟩ := punctual_run le_rfl
  rw [← hrefreshes]
  exact ((refreshed_payload_iff 0 0 (.replicate 16 0)).2 h s hr).2

/-- **The number falls back**: the refresh after 14316 intervals advertises `4294800`; the next one
finds an uptime of 4295100000 milliseconds, which is 4295100 seconds, and advertises `132`. -/
theorem refreshed_payload_wraps :
    ∃ h s l, (application 0).Run h s ∧
      refreshes h = l ++ [⟨4294800000, [0x34, 0x32, 0x39, 0x34, 0x38, 0x30, 0x30]⟩,
        ⟨4295100000, [0x31, 0x33, 0x32]⟩] ∧
      4295100000 / 1000 < 2 ^ 32 ∧
      ¬ Decimal.IsNumeral (4295100000 / 1000) [0x31, 0x33, 0x32] ∧
      Decimal.value [0x31, 0x33, 0x32] <
        Decimal.value [0x34, 0x32, 0x39, 0x34, 0x38, 0x30, 0x30] := by
  obtain ⟨h, s, hr, hs, hrefreshes⟩ := punctual_run (m := 14316) le_rfl
  obtain ⟨h1, h2, h3⟩ := interval_onTime (k := 14316) le_rfl
  obtain ⟨u, s', hn, -, hu, -, -⟩ :=
    advUpdateTimer_onTime (n := 0) (by decide) hs h1 h2 h3 (.replicate 16 0) .storing
  rw [trueUptime_interval 14316] at hu
  obtain rfl : u = 4295100000 := UInt64.toNat_inj.mp hu
  refine ⟨_, s', (List.range 14315).map punctual, hr.run.snoc hn, ?_, by norm_num, ?_, by decide⟩
  · rw [refreshes, List.filterMap_append, ← refreshes, hrefreshes, List.range_succ,
      List.map_append, List.append_assoc, uptimePayload_eq]
    rfl
  · intro hnum
    exact absurd hnum.value (by decide)

end HubbleNordic
