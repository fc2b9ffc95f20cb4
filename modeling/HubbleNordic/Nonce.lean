import HubbleNordic.Mealy
import HubbleNordic.Uptime.Exact

/-!
# Nonces within a boot's first EID pool cycle

The SDK is not part of the repository.  As the build documents it, `hubble_ble_advertise_get` uses
the nonce `(EID counter, sequence number)`: the EID counter is the device uptime in rotation periods
of a day, modulo a pool of 128, and the sequence number is a RAM counter modulo 1024.

* `advertiseGet`: the SDK's call, as far as nonces go; `handlerFiring`: a firing of
  `adv_update_timer_handler`, which samples the uptime for its payload first;
* the machine `device`: `hubble_advertiser_init` at tick 0, then one firing per interval, each with
  a delay below 212 s, each call emitting or failing;
* `eidPeriod_eq`: the `k`-th call lies in the EID period `k / 288`;
* `nonces_fresh`: no call is ever offered a nonce that has been emitted, and every call that emits
  has one.
-/

namespace HubbleNordic

/-- `CONFIG_HUBBLE_EID_ROTATION_PERIOD_SEC`. -/
def eidRotationPeriodSec : ℕ := 86400

/-- The size of the EID pool. -/
def eidPoolSize : ℕ := 128

/-- The number of sequence numbers. -/
def sequenceSpace : ℕ := 1024

/-- The EID counter at an uptime in milliseconds, from the initial counter value 0. -/
def eidCounter (uptime : ℕ) : ℕ := uptime / (eidRotationPeriodSec * 1000) % eidPoolSize

/-- How a call of `hubble_ble_advertise_get` goes: it emits an advertisement, or it fails, with or
without sampling the uptime, with or without using up its sequence number. -/
inductive Outcome
  | emitted
  | failed (sampled advanced : Bool)

/-- The call samples the uptime. -/
def Outcome.samples : Outcome → Bool
  | .emitted => true
  | .failed sampled _ => sampled

/-- The call uses up its sequence number. -/
def Outcome.advances : Outcome → Bool
  | .emitted => true
  | .failed _ advanced => advanced

/-- The static variables of `hubble_uptime_get`, the SDK's sequence number, and the number of calls
of `hubble_ble_advertise_get` made so far. -/
structure Device where
  uptime : UptimeState
  sequence : ℕ
  calls : ℕ

/-- A call of `hubble_ble_advertise_get`: the true tick count at which it is made, the nonce it
comes to, if it gets that far, and whether it emits. -/
structure NonceReport where
  tick : ℕ
  nonce : Option (ℕ × ℕ)
  emits : Bool

/-- `hubble_ble_advertise_get` at the true tick count `t`, as far as nonces go. -/
def advertiseGet (t : ℕ) (o : Outcome) (s : Device) : NonceReport × Device :=
  let (r, uptime) :=
    if o.samples then hubbleUptimeGet appTimerConfigRtcFrequency (appTimerCntGet t) s.uptime
    else (none, s.uptime)
  (⟨t, r.map fun r => (eidCounter r.toNat, s.sequence), o matches .emitted⟩,
    { uptime := uptime
      sequence := if o.advances then (s.sequence + 1) % sequenceSpace else s.sequence
      calls := s.calls + 1 })

/-- `adv_update_timer_handler`: it samples the uptime at `t`, for the payload, and the SDK is called
at `u`. -/
def handlerFiring (t u : ℕ) (o : Outcome) (s : Device) : NonceReport × Device :=
  let (_, uptime) := hubbleUptimeGet appTimerConfigRtcFrequency (appTimerCntGet t) s.uptime
  advertiseGet u o { s with uptime := uptime }

/-- The longest delay of a firing: 212 s. -/
def maxDelayTicks : ℕ := 212 * 32768

/-- The `k`-th firing samples the uptime, and calls the SDK, within its delay. -/
def OnSchedule (k t u : ℕ) : Prop :=
  advUpdateIntervalTicks * k ≤ t ∧ t ≤ u ∧ u < advUpdateIntervalTicks * k + maxDelayTicks

instance (k t u : ℕ) : Decidable (OnSchedule k t u) := inferInstanceAs (Decidable (_ ∧ _))

/-- What happens: the initialisation, at tick 0, or the next firing. -/
inductive DeviceEvent
  | init (o : Outcome)
  | firing (t u : ℕ) (o : Outcome)

/-- The application, from boot. -/
def device : Mealy Device DeviceEvent NonceReport where
  init := ⟨.boot, 0, 0⟩
  next s
    | .init o => if s.calls = 0 then some (advertiseGet 0 o s) else none
    | .firing t u o =>
        if s.calls ≠ 0 ∧ OnSchedule s.calls t u then some (handlerFiring t u o s) else none

/-- The EID period a true tick count lies in. -/
def eidPeriod (t : ℕ) : ℕ :=
  trueUptime appTimerConfigRtcFrequency t / (eidRotationPeriodSec * 1000)

/-- The ticks of the first cycle through the EID pool. -/
def poolCycleTicks : ℕ := eidPoolSize * eidRotationPeriodSec * 32768

/-- The nonces emitted in the first cycle through the EID pool. -/
def emittedNonces (h : List (DeviceEvent × NonceReport)) : List (ℕ × ℕ) :=
  h.filterMap fun er => if er.2.emits ∧ er.2.tick < poolCycleTicks then er.2.nonce else none

/-! ### The schedule -/

/-- The window of the `k`-th call. -/
def InWindow (k t : ℕ) : Prop :=
  advUpdateIntervalTicks * k ≤ t ∧ t < advUpdateIntervalTicks * k + maxDelayTicks

theorem appTimerHz_config : (appTimerHz appTimerConfigRtcFrequency).toNat = 32768 := by
  simp [appTimerHz, appTimerConfigRtcFrequency]

/-- **The `k`-th call lies in the EID period `k / 288`.** -/
theorem eidPeriod_eq {k t : ℕ} (ht : InWindow k t) : eidPeriod t = k / 288 := by
  have hinterval : advUpdateIntervalTicks = 9830400 := by decide
  simp only [InWindow, hinterval, maxDelayTicks] at ht
  simp only [eidPeriod, trueUptime, appTimerHz_config, eidRotationPeriodSec]
  omega

theorem poolCycleTicks_eq : poolCycleTicks = 128 * 86400 * 32768 := rfl

/-- Within the first cycle the EID counter is the EID period. -/
theorem eidCounter_eq {k t : ℕ} (ht : InWindow k t) (hpool : t < poolCycleTicks) :
    eidCounter (trueUptime appTimerConfigRtcFrequency t) = k / 288 := by
  have hperiod := eidPeriod_eq ht
  have hlt : eidPeriod t < eidPoolSize := by
    rw [poolCycleTicks_eq] at hpool
    simp only [eidPeriod, trueUptime, appTimerHz_config, eidRotationPeriodSec, eidPoolSize]
    omega
  rw [eidCounter, ← hperiod]
  exact Nat.mod_eq_of_lt hlt

/-- No EID period holds more than 288 of the first `m` calls. -/
theorem count_period_le (p m : ℕ) : ((List.range m).map (· / 288)).count p ≤ 288 := by
  rw [List.count, List.countP_map, List.countP_eq_length_filter]
  have hsub : (List.range m).filter ((· == p) ∘ (· / 288)) ⊆ List.range' (288 * p) 288 := by
    intro k hk
    simp only [List.mem_filter, Function.comp_apply, beq_iff_eq] at hk
    rw [List.mem_range'_1]
    omega
  have hle := ((List.nodup_range (n := m)).filter ((· == p) ∘ (· / 288))).subperm hsub
  simpa using hle.length_le

/-! ### One call -/

theorem advertiseGet_spec {t p : ℕ} {o : Outcome} {s : Device} (hs : s.uptime.StandsAt p)
    (h1 : p ≤ t) (h2 : t < p + counterPeriod) (ht : t * 1000 < 2 ^ 64) :
    (∃ q, (advertiseGet t o s).2.uptime.StandsAt q ∧ p ≤ q ∧ q ≤ t) ∧
      (advertiseGet t o s).1.nonce =
        if o.samples then
          some (eidCounter (trueUptime appTimerConfigRtcFrequency t), s.sequence)
        else none := by
  obtain ⟨r, s', hget, hr, hs'⟩ := hubbleUptimeGet_exact
    (n := appTimerConfigRtcFrequency) (by decide) hs h1 h2 ht
  cases ho : o.samples with
  | true =>
    simp only [advertiseGet, ho, if_true, hget, Option.map_some, hr]
    exact ⟨⟨t, hs', h1, le_rfl⟩, trivial⟩
  | false =>
    simp only [advertiseGet, ho]
    exact ⟨⟨p, hs, le_rfl, h1⟩, by simp⟩

/-- A firing is a call of the SDK after a sample for the payload. -/
theorem handlerFiring_eq (t u : ℕ) (o : Outcome) (s : Device) :
    handlerFiring t u o s = advertiseGet u o { s with
      uptime :=
        (hubbleUptimeGet appTimerConfigRtcFrequency (appTimerCntGet t) s.uptime).2 } := rfl

/-! ### Runs -/

/-- The number of calls in the first cycle through the EID pool. -/
abbrev cycleCalls : ℕ := 288 * 128

/-- Entry `k` of the history is `er`. -/
abbrev IsCall (h : List (DeviceEvent × NonceReport)) (k : ℕ) (er : DeviceEvent × NonceReport) :
    Prop := h[k]? = some er

theorem isCall_snoc {h : List (DeviceEvent × NonceReport)} {k : ℕ}
    {x er : DeviceEvent × NonceReport} (hk : IsCall (h ++ [x]) k er) :
    IsCall h k er ∧ k < h.length ∨ k = h.length ∧ er = x := by
  rcases Nat.lt_trichotomy k h.length with hlt | rfl | hgt
  · rw [IsCall, List.getElem?_append_left hlt] at hk
    exact Or.inl ⟨hk, hlt⟩
  · rw [IsCall, List.getElem?_concat_length] at hk
    exact Or.inr ⟨rfl, (Option.some.inj hk).symm⟩
  · rw [IsCall, List.getElem?_eq_none (by simp; omega)] at hk
    cases hk

/-- What holds of every run: each call lies in its window, the uptime stands at a tick of the last
call's window, every call that emitted had a nonce, and the sequence number has moved on since, by
no more than the number of calls. -/
structure Scheduled (h : List (DeviceEvent × NonceReport)) (s : Device) : Prop where
  calls : s.calls = h.length
  boot : s.calls = 0 → s.uptime.StandsAt 0
  uptime : ∀ k, s.calls = k + 1 → k < cycleCalls → ∃ p, s.uptime.StandsAt p ∧ InWindow k p
  window : ∀ k er, IsCall h k er → InWindow k er.2.tick
  offered : ∀ k er, IsCall h k er → k < cycleCalls → ∀ m ∈ er.2.nonce, m.1 = k / 288 ∧
    ∃ d, (er.2.emits = true → 1 ≤ d) ∧ d ≤ s.calls - k ∧
      s.sequence % sequenceSpace = (m.2 + d) % sequenceSpace
  emitted : ∀ k er, IsCall h k er → k < cycleCalls → er.2.emits = true → er.2.nonce.isSome = true
  fresh : ∀ i j eri erj, i < j → IsCall h i eri → IsCall h j erj → eri.2.emits = true →
    j < cycleCalls → ∀ m ∈ eri.2.nonce, m ∉ erj.2.nonce

theorem scheduled_boot : Scheduled [] ⟨.boot, 0, 0⟩ where
  calls := rfl
  boot _ := standsAt_boot
  uptime k hk := by simp at hk
  window k er hk := by simp [IsCall] at hk
  offered k er hk := by simp [IsCall] at hk
  emitted k er hk := by simp [IsCall] at hk
  fresh i j eri erj _ hi := by simp [IsCall] at hi

/-- The step of the sequence number: a later nonce differs from an emitted one, in the EID period or
in the sequence number. -/
theorem offered_ne {i j q d sequence : ℕ} (hd : 1 ≤ d) (hdj : d ≤ j - i) (hp : i / 288 = j / 288)
    (hs : sequence % sequenceSpace = (q + d) % sequenceSpace) : q ≠ sequence := by
  rintro rfl
  simp only [sequenceSpace] at hs
  omega

/-- The step of the SDK's call, from a device whose uptime stands in the call's window. -/
theorem scheduled_advertiseGet {h : List (DeviceEvent × NonceReport)} {s s' : Device}
    (hs : Scheduled h s) (hcalls : s'.calls = s.calls) (hseq : s'.sequence = s.sequence) {u : ℕ}
    (hu : InWindow s.calls u)
    (hup : s.calls < cycleCalls →
      ∃ p, s'.uptime.StandsAt p ∧ advUpdateIntervalTicks * s.calls ≤ p ∧ p ≤ u)
    (e : DeviceEvent) (o : Outcome) :
    Scheduled (h ++ [(e, (advertiseGet u o s').1)]) (advertiseGet u o s').2 := by
  have htick : (advertiseGet u o s').1.tick = u := rfl
  have hcalls' : (advertiseGet u o s').2.calls = s.calls + 1 := by rw [← hcalls]; rfl
  have hseq' : ∃ d, (o = .emitted → 1 ≤ d) ∧ d ≤ 1 ∧
      (advertiseGet u o s').2.sequence % sequenceSpace = (s.sequence + d) % sequenceSpace := by
    rw [← hseq]
    cases o with
    | emitted => exact ⟨1, fun _ => le_rfl, le_rfl, Nat.mod_mod _ _⟩
    | failed sampled advanced =>
      cases advanced with
      | true => exact ⟨1, (fun h => nomatch h), le_rfl, Nat.mod_mod _ _⟩
      | false => exact ⟨0, (fun h => nomatch h), Nat.zero_le 1, rfl⟩
  have hemits : (advertiseGet u o s').1.emits = true → o = .emitted := by
    cases o with
    | emitted => exact fun _ => rfl
    | failed sampled advanced => exact fun h => nomatch h
  have hspec (hlt : s.calls < cycleCalls) :
      (∃ q, (advertiseGet u o s').2.uptime.StandsAt q ∧ InWindow s.calls q) ∧
        (advertiseGet u o s').1.nonce =
          if o.samples then some (s.calls / 288, s.sequence) else none := by
    obtain ⟨p, hp, hlow, hpu⟩ := hup hlt
    have hu' := hu
    simp only [InWindow, maxDelayTicks, show advUpdateIntervalTicks = 9830400 from rfl] at hu' hlow
    simp only [cycleCalls] at hlt
    obtain ⟨⟨q, hq, hpq, hqu⟩, hnonce⟩ := advertiseGet_spec (o := o) hp hpu
      (by simp only [counterPeriod]; omega) (by omega)
    refine ⟨⟨q, hq, ?_⟩, ?_⟩
    · simp only [InWindow, maxDelayTicks, show advUpdateIntervalTicks = 9830400 from rfl]
      omega
    · rw [hnonce, hseq, eidCounter_eq hu]
      rw [poolCycleTicks_eq]
      omega
  have hoffered (hlt : s.calls < cycleCalls) {m : ℕ × ℕ}
      (hm : m ∈ (advertiseGet u o s').1.nonce) : m = (s.calls / 288, s.sequence) := by
    rw [(hspec hlt).2, Option.mem_ite_none_right] at hm
    exact (Option.mem_some_iff.mp hm.2).symm
  obtain ⟨d, hd1, hd2, hd3⟩ := hseq'
  refine ⟨?_, ?_, ?_, ?_, ?_, ?_, ?_⟩
  · rw [hcalls', hs.calls, List.length_append, List.length_singleton]
  · rw [hcalls']
    exact fun h => nomatch h
  · intro k hk hlt
    rw [hcalls', Nat.add_right_cancel_iff] at hk
    subst hk
    exact (hspec hlt).1
  · intro k er hk
    rcases isCall_snoc hk with ⟨hk, -⟩ | ⟨rfl, rfl⟩
    · exact hs.window k er hk
    · rw [← hs.calls, htick]
      exact hu
  · intro k er hk hlt m hm
    rw [hcalls']
    rcases isCall_snoc hk with ⟨hk, hlen⟩ | ⟨rfl, rfl⟩
    · -- an earlier call: the sequence number has moved on by this call's share as well
      obtain ⟨hm1, c, hc1, hc2, hc3⟩ := hs.offered k er hk hlt m hm
      refine ⟨hm1, c + d, fun h => (hc1 h).trans (Nat.le_add_right c d), ?_, ?_⟩
      · rw [← hs.calls] at hlen
        omega
      · rw [hd3, Nat.add_mod, hc3, ← Nat.add_mod, Nat.add_assoc]
    · rw [← hs.calls] at hlt ⊢
      rw [hoffered hlt hm]
      exact ⟨rfl, d, fun h => hd1 (hemits h), by omega, hd3⟩
  · intro k er hk hlt hem
    rcases isCall_snoc hk with ⟨hk, -⟩ | ⟨rfl, rfl⟩
    · exact hs.emitted k er hk hlt hem
    · rw [← hs.calls] at hlt
      rw [(hspec hlt).2, hemits hem]
      rfl
  · intro i j eri erj hij hi hj hem hlt m hm hm'
    rcases isCall_snoc hj with ⟨hj, hjlen⟩ | ⟨rfl, rfl⟩
    · rcases isCall_snoc hi with ⟨hi, -⟩ | ⟨rfl, -⟩
      · exact hs.fresh i j eri erj hij hi hj hem hlt m hm hm'
      · omega
    · rcases isCall_snoc hi with ⟨hi, hilen⟩ | ⟨rfl, -⟩
      · -- the new call against an emission: another EID period, or fewer than 1024 calls apart
        rw [← hs.calls] at hij hlt
        obtain ⟨hm1, c, hc1, hc2, hc3⟩ := hs.offered i eri hi (hij.trans hlt) m hm
        rw [hoffered hlt hm'] at hm1 hc3
        exact offered_ne (hc1 hem) hc2 hm1.symm hc3 rfl
      · omega

theorem scheduled_run {h : List (DeviceEvent × NonceReport)} {s : Device} (hr : device.Run h s) :
    Scheduled h s := by
  refine Mealy.runFrom_invariant scheduled_boot (fun h s e r s' _ hs hn => ?_) hr
  cases e with
  | init o =>
    simp only [device, Option.ite_none_right_eq_some, Option.some.injEq] at hn
    obtain ⟨hzero, hn⟩ := hn
    have hr : (advertiseGet 0 o s).1 = r := congrArg Prod.fst hn
    have hs' : (advertiseGet 0 o s).2 = s' := congrArg Prod.snd hn
    rw [← hr, ← hs']
    refine scheduled_advertiseGet hs rfl rfl ?_ (fun _ => ⟨0, hs.boot hzero, ?_, le_rfl⟩) _ _
    · rw [hzero]
      exact ⟨le_rfl, by decide⟩
    · rw [hzero, Nat.mul_zero]
  | firing t u o =>
    simp only [device, Option.ite_none_right_eq_some, Option.some.injEq] at hn
    obtain ⟨⟨hpos, hlow, htu, hhigh⟩, hn⟩ := hn
    have hr : (handlerFiring t u o s).1 = r := congrArg Prod.fst hn
    have hs' : (handlerFiring t u o s).2 = s' := congrArg Prod.snd hn
    rw [← hr, ← hs', handlerFiring_eq]
    refine scheduled_advertiseGet hs (by rfl) (by rfl) ⟨hlow.trans htu, hhigh⟩
      (fun hlt => ?_) _ _
    -- the payload's sample comes less than a period after the last call's window opened
    obtain ⟨k, hk⟩ := Nat.exists_eq_succ_of_ne_zero hpos
    obtain ⟨p, hp, hp1, hp2⟩ := hs.uptime k hk (by omega)
    have hinterval : advUpdateIntervalTicks = 9830400 := rfl
    simp only [hinterval, maxDelayTicks, cycleCalls] at hp1 hp2 hlow hhigh hlt
    obtain ⟨r, v, hget, -, hv⟩ := hubbleUptimeGet_exact (n := appTimerConfigRtcFrequency) (t := t)
      (by decide) hp (by omega) (by simp only [counterPeriod]; omega) (by omega)
    refine ⟨t, ?_, by rw [hinterval]; exact hlow, htu⟩
    rw [hget]
    exact hv

/-- Calls are as many as EID periods allow. -/
theorem Scheduled.periods {h : List (DeviceEvent × NonceReport)} {s : Device}
    (hs : Scheduled h s) :
    h.map (fun er => eidPeriod er.2.tick) = (List.range h.length).map (· / 288) := by
  apply List.ext_getElem (by simp)
  intro k hk _
  simp only [List.length_map] at hk
  simpa using eidPeriod_eq (hs.window k h[k] (List.getElem?_eq_getElem hk))

/-- A call in the first cycle through the EID pool is one of its first 36864. -/
theorem Scheduled.lt_cycleCalls {h : List (DeviceEvent × NonceReport)} {s : Device}
    (hs : Scheduled h s) {k : ℕ} {er : DeviceEvent × NonceReport} (hk : IsCall h k er)
    (ht : er.2.tick < poolCycleTicks) : k < cycleCalls := by
  have hlow := (hs.window k er hk).1
  rw [poolCycleTicks_eq] at ht
  rw [show advUpdateIntervalTicks = 9830400 from rfl] at hlow
  simp only [cycleCalls]
  omega

/-- **No nonce reuse within a boot's first EID pool cycle**: whatever the delays and whichever calls
fail, the nonces emitted while the true uptime is below 128 days are pairwise distinct; no EID
period holds more than 1024 calls; no call in that time is offered a nonce that an earlier call
has emitted, so the nonce check has no reason to fire; and every call that emits in that time has a
nonce, with the EID period of its tick. -/
theorem nonces_fresh {h : List (DeviceEvent × NonceReport)} {s : Device} (hr : device.Run h s) :
    (emittedNonces h).Nodup ∧
    (∀ p, (h.map fun er => eidPeriod er.2.tick).count p ≤ 1024) ∧
    (∀ (i j : ℕ) (eri erj : DeviceEvent × NonceReport), i < j → h[i]? = some eri →
      h[j]? = some erj → eri.2.emits = true → erj.2.tick < poolCycleTicks →
      ∀ m ∈ eri.2.nonce, m ∉ erj.2.nonce) ∧
    ∀ er ∈ h, er.2.emits = true → er.2.tick < poolCycleTicks →
      ∃ q, er.2.nonce = some (eidPeriod er.2.tick, q) := by
  have hs := scheduled_run hr
  have hfresh (i j : ℕ) (eri erj : DeviceEvent × NonceReport) (hij : i < j)
      (hi : h[i]? = some eri) (hj : h[j]? = some erj) (hem : eri.2.emits = true)
      (ht : erj.2.tick < poolCycleTicks) (m : ℕ × ℕ) (hm : m ∈ eri.2.nonce) :
      m ∉ erj.2.nonce :=
    hs.fresh i j eri erj hij hi hj hem (hs.lt_cycleCalls hj ht) m hm
  refine ⟨?_, fun p => ?_, hfresh, fun er her hem ht => ?_⟩
  · rw [emittedNonces, List.Nodup, List.pairwise_filterMap, List.pairwise_iff_getElem]
    intro i j hi hj hij m hm m' hm' heq
    subst heq
    obtain ⟨⟨hem, -⟩, hm⟩ := Option.mem_ite_none_right.mp hm
    obtain ⟨⟨-, ht⟩, hm'⟩ := Option.mem_ite_none_right.mp hm'
    exact hfresh i j _ _ hij (List.getElem?_eq_getElem hi) (List.getElem?_eq_getElem hj) hem ht m
      hm hm'
  · rw [hs.periods]
    exact (count_period_le p h.length).trans (by norm_num)
  · obtain ⟨k, hk⟩ := List.mem_iff_getElem?.mp her
    have hlt := hs.lt_cycleCalls hk ht
    obtain ⟨⟨counter, q⟩, hm⟩ := Option.isSome_iff_exists.mp (hs.emitted k er hk hlt hem)
    obtain ⟨hcounter, -⟩ := hs.offered k er hk hlt _ hm
    refine ⟨q, ?_⟩
    rw [hm, eidPeriod_eq (hs.window k er hk), ← hcounter]

/-- Three calls, the second of which fails after using up a sequence number. -/
theorem nonces_fresh_three :
    ∃ h s, device.Run h s ∧
      h.map Prod.fst = [.init .emitted, .firing 9830400 9830500 (.failed true true),
        .firing 19660900 19661000 .emitted] ∧
      emittedNonces h = [(0, 0), (0, 2)] ∧ (emittedNonces h).Nodup ∧
      ∀ er ∈ h, er.2.emits = true → ∃ q, er.2.nonce = some (0, q) := by
  have hrun : ∃ h s, device.Run h s ∧
      h.map Prod.fst = [.init .emitted, .firing 9830400 9830500 (.failed true true),
        .firing 19660900 19661000 .emitted] ∧ emittedNonces h = [(0, 0), (0, 2)] ∧
      h.map (fun er => er.2.tick) = [0, 9830500, 19661000] :=
    ⟨_, _, Mealy.runFrom_of_exec (M := device) (s := ⟨.boot, 0, 0⟩)
      (l := [.init .emitted, .firing 9830400 9830500 (.failed true true),
        .firing 19660900 19661000 .emitted]) rfl, rfl, by decide, rfl⟩
  obtain ⟨h, s, hr, hev, hnonces, hticks⟩ := hrun
  obtain ⟨hnodup, -, -, hnonce⟩ := nonces_fresh hr
  refine ⟨h, s, hr, hev, hnonces, hnodup, fun er her hem => ?_⟩
  have hsmall : ∀ t ∈ [0, 9830500, 19661000], t < poolCycleTicks ∧ eidPeriod t = 0 := by decide
  obtain ⟨htick, hperiod⟩ := hsmall er.2.tick
    (hticks ▸ List.mem_map_of_mem (f := fun er => er.2.tick) her)
  obtain ⟨q, hq⟩ := hnonce er her hem htick
  exact ⟨q, hperiod ▸ hq⟩

end HubbleNordic
