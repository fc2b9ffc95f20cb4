import HubbleNordic.Nonce

/-!
# When nonces repeat

The sequence number and the EID counter start at 0 on every boot, and both wrap.  In a run in which
every call of `hubble_ble_advertise_get` emits, the delays of the timer do not show in the nonces.

* `Emitting`: what holds along such a run; the `k`-th call has the nonce `callNonce k`;
* `callNonce_eq_iff`: nonces repeat exactly after 36864 calls, 128 days;
* `nonces_repeat_iff`: the calls of any two boots, or of one, that share a nonce.
-/

namespace HubbleNordic

/-- A call that emits, so early that its tick count fits the conversion. -/
def Emits (er : DeviceEvent × NonceReport) : Prop :=
  er.2.emits = true ∧ er.2.tick * 1000 < 2 ^ 64

/-- The nonce of the `k`-th call of a boot. -/
def callNonce (k : ℕ) : ℕ × ℕ := (k / 288 % eidPoolSize, k % sequenceSpace)

/-- **Nonces repeat after 36864 calls, and not before.** -/
theorem callNonce_eq_iff {i j : ℕ} :
    callNonce i = callNonce j ↔ i % cycleCalls = j % cycleCalls := by
  simp only [callNonce, eidPoolSize, sequenceSpace, cycleCalls, Prod.mk.injEq]
  constructor
  · -- the EID counter leaves 288 calls of a cycle, which the sequence number tells apart
    rintro ⟨hcounter, hsequence⟩
    have hperiod : i % 36864 / 288 = j % 36864 / 288 := by omega
    have hnumber : i % 36864 % 1024 = j % 36864 % 1024 := by omega
    omega
  · intro h
    constructor <;> omega

/-- What holds along a run all of whose calls emit. -/
structure Emitting (h : List (DeviceEvent × NonceReport)) (s : Device) : Prop where
  calls : s.calls = h.length
  sequence : s.sequence = h.length % sequenceSpace
  boot : h.length = 0 → s.uptime.StandsAt 0
  uptime : ∃ p, s.uptime.StandsAt p ∧ InWindow (h.length - 1) p
  nonce : ∀ k er, h[k]? = some er → er.2.nonce = some (callNonce k)

theorem emitting_boot : Emitting [] ⟨.boot, 0, 0⟩ where
  calls := rfl
  sequence := rfl
  boot _ := standsAt_boot
  uptime := ⟨0, standsAt_boot, by decide, by decide⟩
  nonce k er hk := by simp at hk

/-- A call that emits in the window of the next one, from a device whose uptime stands there or in
the window before. -/
theorem Emitting.call {h : List (DeviceEvent × NonceReport)} {s s' : Device} (hs : Emitting h s)
    (hcalls : s'.calls = s.calls) (hseq : s'.sequence = s.sequence) {p u : ℕ}
    (hp : s'.uptime.StandsAt p) (hpu : p ≤ u) (hup : u < p + counterPeriod)
    (hu : InWindow h.length u) (hfits : u * 1000 < 2 ^ 64) (e : DeviceEvent) :
    Emitting (h ++ [(e, (advertiseGet u .emitted s').1)]) (advertiseGet u .emitted s').2 := by
  obtain ⟨r, v, hget, hr, hv⟩ := hubbleUptimeGet_exact (n := appTimerConfigRtcFrequency)
    (by decide) hp hpu hup hfits
  have hnonce : (advertiseGet u .emitted s').1.nonce = some (callNonce h.length) := by
    simp only [advertiseGet, Outcome.samples, if_true, hget, Option.map_some, hr, hseq,
      hs.sequence]
    rw [callNonce, ← eidPeriod_eq hu]
    rfl
  refine ⟨?_, ?_, ?_, ?_, ?_⟩
  · simp [advertiseGet, hcalls, hs.calls]
  · simp [advertiseGet, Outcome.advances, hseq, hs.sequence]
  · simp
  · rw [List.length_append, List.length_singleton, Nat.add_sub_cancel]
    refine ⟨u, ?_, hu⟩
    simpa only [advertiseGet, Outcome.samples, if_true, hget] using hv
  · intro k er hk
    rcases isCall_snoc hk with ⟨hk, -⟩ | ⟨rfl, rfl⟩
    · exact hs.nonce k er hk
    · exact hnonce

/-- **A run all of whose calls emit.** -/
theorem emitting_run {h : List (DeviceEvent × NonceReport)} {s : Device}
    (hr : device.Run h s) (he : ∀ er ∈ h, Emits er) : Emitting h s := by
  refine Mealy.runFrom_invariant (I := fun h s => (∀ er ∈ h, Emits er) → Emitting h s)
    (fun _ => emitting_boot) (fun h s e r s' _ hs hn he => ?_) hr he
  obtain ⟨hemits, hfits⟩ := he (e, r) (List.mem_append_right _ (List.mem_singleton_self _))
  replace hs := hs fun er her => he er (List.mem_append_left _ her)
  cases e with
  | init o =>
    simp only [device, Option.ite_none_right_eq_some, Option.some.injEq] at hn
    obtain ⟨hzero, hn⟩ := hn
    have hr : r = (advertiseGet 0 o s).1 := congrArg Prod.fst hn.symm
    have hs' : s' = (advertiseGet 0 o s).2 := congrArg Prod.snd hn.symm
    subst hr hs'
    cases o with
    | failed sampled advanced => cases hemits
    | emitted =>
      have hlen : h.length = 0 := hs.calls.symm.trans hzero
      have hwindow : InWindow h.length 0 := by
        rw [hlen]
        exact ⟨le_rfl, by decide⟩
      exact hs.call rfl rfl (hs.boot hlen) le_rfl (by decide) hwindow (by decide) _
  | firing t u o =>
    simp only [device, Option.ite_none_right_eq_some, Option.some.injEq] at hn
    obtain ⟨⟨hpos, hlow, htu, hhigh⟩, hn⟩ := hn
    have hr : r = (handlerFiring t u o s).1 := congrArg Prod.fst hn.symm
    have hs' : s' = (handlerFiring t u o s).2 := congrArg Prod.snd hn.symm
    subst hr hs'
    rw [handlerFiring_eq] at hemits hfits ⊢
    cases o with
    | failed sampled advanced => cases hemits
    | emitted =>
      replace hfits : u * 1000 < 2 ^ 64 := hfits
      obtain ⟨p, hp, hp1, hp2⟩ := hs.uptime
      rw [hs.calls] at hpos hlow hhigh
      have hwindow : InWindow h.length u := ⟨hlow.trans htu, hhigh⟩
      have htfits : t * 1000 < 2 ^ 64 := lt_of_le_of_lt (Nat.mul_le_mul_right 1000 htu) hfits
      -- the payload's sample lies less than a period after the last call
      have hinterval : advUpdateIntervalTicks = 9830400 := rfl
      simp only [hinterval, maxDelayTicks] at hp1 hp2 hlow hhigh
      obtain ⟨r, v, hget, -, hv⟩ := hubbleUptimeGet_exact (n := appTimerConfigRtcFrequency) (t := t)
        (by decide) hp (by omega) (by simp only [counterPeriod]; omega) htfits
      refine hs.call (by rfl) (by rfl) (p := t) ?_ htu ?_ hwindow hfits _
      · rw [hget]
        exact hv
      · simp only [counterPeriod]
        omega

/-- **The nonces of all boots are the same**: in a run from boot in which every call emits, early
enough for the conversion and whatever the delays, the `k`-th call has the nonce `callNonce k`; so
two calls, of one boot or of two, have the same nonce exactly if their numbers agree modulo
36864. -/
theorem nonces_repeat_iff {h h' : List (DeviceEvent × NonceReport)} {s s' : Device}
    (hr : device.Run h s) (he : ∀ er ∈ h, Emits er) (hr' : device.Run h' s')
    (he' : ∀ er ∈ h', Emits er) {i j : ℕ} {x y : DeviceEvent × NonceReport}
    (hi : h[i]? = some x) (hj : h'[j]? = some y) :
    x.2.nonce = some (callNonce i) ∧ y.2.nonce = some (callNonce j) ∧
      (x.2.nonce = y.2.nonce ↔ i % cycleCalls = j % cycleCalls) := by
  have hx := (emitting_run hr he).nonce i x hi
  have hy := (emitting_run hr' he').nonce j y hj
  refine ⟨hx, hy, ?_⟩
  rw [hx, hy, Option.some.injEq]
  exact callNonce_eq_iff

/-- Two boots with different delays: the second calls share the nonce `(0, 1)`. -/
theorem nonces_repeat_second :
    ∃ h s h' s' x y, device.Run h s ∧ device.Run h' s' ∧ h[1]? = some x ∧ h'[1]? = some y ∧
      x.2.tick ≠ y.2.tick ∧ x.2.nonce = some (0, 1) ∧ x.2.nonce = y.2.nonce := by
  have hearly : ∃ h s x, device.Run h s ∧ (∀ er ∈ h, Emits er) ∧ h[1]? = some x ∧
      x.2.tick = 9830400 :=
    ⟨_, _, _, Mealy.runFrom_of_exec (M := device) (s := ⟨.boot, 0, 0⟩)
      (l := [.init .emitted, .firing 9830400 9830400 .emitted]) rfl, by simp [Emits], rfl, rfl⟩
  have hlate : ∃ h s x, device.Run h s ∧ (∀ er ∈ h, Emits er) ∧ h[1]? = some x ∧
      x.2.tick = 16777215 :=
    ⟨_, _, _, Mealy.runFrom_of_exec (M := device) (s := ⟨.boot, 0, 0⟩)
      (l := [.init .emitted, .firing 9830400 16777215 .emitted]) rfl, by simp [Emits], rfl, rfl⟩
  obtain ⟨h, s, x, hr, he, hx, htx⟩ := hearly
  obtain ⟨h', s', y, hr', he', hy, hty⟩ := hlate
  obtain ⟨hnonce, -, hsame⟩ := nonces_repeat_iff hr he hr' he' hx hy
  exact ⟨h, s, h', s', x, y, hr, hr', hx, hy, by omega, hnonce, hsame.mpr rfl⟩

end HubbleNordic
