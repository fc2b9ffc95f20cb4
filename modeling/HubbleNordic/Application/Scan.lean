import HubbleNordic.Advertiser.Steps
import HubbleNordic.Application.Firmware

/-!
# What a scanner reads

A scanner parses the advertising data it receives, takes the service data and opens it with the
device key.  The SDK's packets are not part of the repository: `receive` is the opening, and the
answers say that it recovers what was generated.

* `scan`: the scanner;
* `Faithful`: the generator's packets are opened again, and one that fails stores nothing;
* `scan_transmitted`: whatever the outcomes of the calls, while the device is on air the scanner
  reads the payload of the last refresh that configured the set;
* `scan_uptime`: where the calls succeed, that is nothing before the first firing, and afterwards
  the number of seconds the device had been up at the last one, for as long as the cast allows.
-/

namespace HubbleNordic

variable (receive : List UInt8 → Option (List UInt8))

/-- Parse the data, find the service data and open it. -/
def scan (bytes : List UInt8) : Option (List UInt8) :=
  (AdStructure.parse bytes).bind fun l =>
    (l.find? fun s => s.adType = adTypeServiceData).bind fun s => receive s.value

theorem scan_advertisement {d : List UInt8} (hd : d.length ≤ outCapacity) :
    scan receive (advertisement d) = receive d := by
  rw [scan, parse_advertisement hd]
  rfl

/-- What a generator has stored is opened again, and a generator that fails has stored nothing. -/
structure Answers.Faithful (a : Answers) : Prop where
  opens : ∀ data buffer, (a.advertiseGet data).ret = 0 →
    receive ((a.advertiseGet data).output buffer) = some data
  clean : ∀ data, (a.advertiseGet data).ret ≠ 0 → (a.advertiseGet data).writes = []

/-- The calls succeed, the generator's on every payload that fits the handler's buffer. -/
structure Answers.Cooperates (a : Answers) : Prop extends a.Succeeds where
  ret : ∀ data, data.length < 16 → (a.advertiseGet data).ret = 0

/-- The answers of the refresh an event makes. -/
def FirmwareEvent.answers? : FirmwareEvent → Option Answers
  | .hubbleStackInit _ a _ _ => some a
  | .advUpdateTimer _ _ a => some a
  | .uptimeGet _ => none

/-- The answers of the step are faithful. -/
def Faithfully {k : ℕ} (_ : List (FirmwareEvent × FirmwareReport)) (_ : Firmware k)
    (e : FirmwareEvent) (_ : FirmwareReport) (_ : Firmware k) : Prop :=
  ∀ a ∈ e.answers?, a.Faithful receive

/-- The payload of the refresh of an event: `hubble_advertiser_init` has none. -/
def FirmwareEvent.payload : FirmwareEvent × FirmwareReport → List UInt8
  | (_, .refreshed r _) => r.payload
  | _ => []

/-- The payload of an event whose refresh configured the set. -/
def FirmwareEvent.configured? (er : FirmwareEvent × FirmwareReport) : Option (List UInt8) :=
  (FirmwareEvent.outcome? er).bind fun
    | .configured _ _ => some (FirmwareEvent.payload er)
    | _ => none

/-- The payload of the last refresh that configured the set. -/
def lastConfigured (h : List (FirmwareEvent × FirmwareReport)) : Option (List UInt8) :=
  (h.filterMap FirmwareEvent.configured?).getLast?

theorem lastConfigured_snoc (h : List (FirmwareEvent × FirmwareReport))
    (er : FirmwareEvent × FirmwareReport) :
    lastConfigured (h ++ [er]) = (FirmwareEvent.configured? er).or (lastConfigured h) := by
  cases he : FirmwareEvent.configured? er <;> simp [lastConfigured, List.filterMap_append, he]

/-! ### One refresh -/

/-- The refresh of faithful answers: refused cleanly, failed, or configured with service data that
opens to its payload. -/
def RefreshOutcome.Delivers (o : RefreshOutcome) (p : List UInt8) : Prop :=
  match o with
  | .refused _ clean => clean = true
  | .unconfigured _ => True
  | .configured d _ => d.length ≤ outCapacity ∧ receive d = some p

variable {receive}

/-! ### A generator that stores its payload -/

/-- Writes that store the bytes that stand there. -/
theorem overlay_self {ws : List Write} {d : List UInt8} (h : ∀ w ∈ ws, d[w.1.val]? = some w.2) :
    overlay ws d = d := by
  induction ws with
  | nil => rfl
  | cons w ws ih =>
    obtain ⟨hlt, hget⟩ := List.getElem?_eq_some_iff.mp (h w List.mem_cons_self)
    rw [overlay_cons, ← hget, List.set_getElem_self]
    exact ih fun v hv => h v (List.mem_cons_of_mem _ hv)

/-- A payload that fits is left in the buffer as it is. -/
theorem output_storing {data : List UInt8} (hdata : data.length ≤ outCapacity) (b : AdvBuffer) :
    (Generation.storing data).output b = data := by
  have hlen : (Generation.storing data).outLen.val = data.length := min_eq_left hdata
  have hsame : overlay (Generation.storing data).writes data = data := by
    refine overlay_self fun w hw => ?_
    simp only [Generation.storing, List.mem_filterMap, Option.map_eq_some_iff] at hw
    obtain ⟨i, -, byte, hbyte, rfl⟩ := hw
    exact hbyte
  have htake : (b.outRange.take data.length).length = data.length := by
    rw [List.length_take, AdvBuffer.outRange_length, min_eq_left hdata]
  rw [Generation.output_eq, hlen, overlay_eq_of_stored (e := data) htake, hsame]
  intro i hi
  rw [htake] at hi
  refine ⟨(⟨i, lt_of_lt_of_le hi hdata⟩, data[i]), ?_, rfl⟩
  simp only [Generation.storing, List.mem_filterMap, Option.map_eq_some_iff]
  exact ⟨_, List.mem_finRange _, data[i], List.getElem?_eq_getElem hi, rfl⟩

/-- A generator that fails and has stored nothing. -/
def Generation.refusing : Generation := ⟨[], -einval, ⟨0, Nat.succ_pos _⟩⟩

/-- The generator takes a payload that fits the packet, and stores it as it is. -/
def Answers.plain : Answers :=
  { Answers.storing with
    advertiseGet := fun data =>
      if data.length ≤ outCapacity then Generation.storing data else .refusing }

theorem plain_faithful : Answers.plain.Faithful some where
  opens data b hret := by
    by_cases hdata : data.length ≤ outCapacity
    · simp [Answers.plain, hdata, output_storing hdata b]
    · simp [Answers.plain, hdata, Generation.refusing, einval] at hret
  clean data hret := by
    by_cases hdata : data.length ≤ outCapacity
    · simp [Answers.plain, hdata, Generation.storing] at hret
    · simp [Answers.plain, hdata, Generation.refusing]

theorem plain_cooperates : Answers.plain.Cooperates where
  ret data hdata := by
    have hfits : data.length ≤ outCapacity := by
      simp only [outCapacity, bleGapAdvSetDataSizeMax]
      omega
    simp [Answers.plain, hfits, Generation.storing]
  configure := rfl
  start := rfl
  stop := rfl

/-! ### Faithful answers -/

theorem Answers.Faithful.delivers {a : Answers} (ha : a.Faithful receive) {start : UInt32}
    {c : Call} {data : List UInt8} (hc : c.payload? = some data) (w : World) :
    (refreshOutcome (a.advertiseGet data) { a with start := start } (c.generated a w)).Delivers
      receive data := by
  by_cases hret : (a.advertiseGet data).ret = 0
  · by_cases hconf : a.configure = nrfSuccess
    · have hgenerated : c.generated a w =
          some ((a.advertiseGet data).output w.hubbleAdvBuffer) := by
        simp [Call.generated, Call.generation?, hc, hret]
      rw [hgenerated, refreshOutcome, if_neg (not_not.mpr hret), if_neg (not_not.mpr hconf)]
      exact ⟨by simpa using (a.advertiseGet data).outLen_le, ha.opens data _ hret⟩
    · rw [refreshOutcome, if_neg (not_not.mpr hret), if_pos hconf]
      trivial
  · rw [refreshOutcome, if_pos hret]
    exact List.isEmpty_iff.mpr (ha.clean data hret)

/-- What the beacon is loaded with after a run: the payload of the last refresh that configured the
set, or bytes that a lapse has torn. -/
structure Carries (receive : List UInt8 → Option (List UInt8))
    (h : List (FirmwareEvent × FirmwareReport)) : Prop where
  intact : ∀ d, (Beacon.refreshed (outcomes h)).loaded = .intact d →
    d.length ≤ outCapacity ∧ ∃ p, lastConfigured h = some p ∧ receive d = some p
  torn : (Beacon.refreshed (outcomes h)).loaded = .torn → ¬ Unlapsed (outcomes h)

theorem carries_nil : Carries receive [] :=
  ⟨fun d hd => by simp [outcomes, Beacon.refreshed] at hd, fun h => by
    simp [outcomes, Beacon.refreshed] at h⟩

/-- An event without a refresh. -/
theorem Carries.skip {h : List (FirmwareEvent × FirmwareReport)}
    {er : FirmwareEvent × FirmwareReport} (hh : Carries receive h)
    (hnone : FirmwareEvent.outcome? er = none) : Carries receive (h ++ [er]) := by
  have ho : outcomes (h ++ [er]) = outcomes h := by simp [outcomes_snoc, hnone]
  have hl : lastConfigured (h ++ [er]) = lastConfigured h := by
    simp [lastConfigured_snoc, FirmwareEvent.configured?, hnone]
  exact ⟨by rw [ho, hl]; exact hh.intact, by rw [ho]; exact hh.torn⟩

/-- A refresh that delivers. -/
theorem Carries.refresh {h : List (FirmwareEvent × FirmwareReport)}
    {er : FirmwareEvent × FirmwareReport} {o : RefreshOutcome} (hh : Carries receive h)
    (hsome : FirmwareEvent.outcome? er = some o)
    (ho : o.Delivers receive (FirmwareEvent.payload er)) : Carries receive (h ++ [er]) := by
  have houtcomes : outcomes (h ++ [er]) = outcomes h ++ [o] := by simp [outcomes_snoc, hsome]
  have hlast := lastConfigured_snoc h er
  simp only [FirmwareEvent.configured?, hsome, Option.bind_some] at hlast
  cases o with
  | refused err clean =>
    obtain rfl : clean = true := ho
    have hsame : (Beacon.refreshed (outcomes h ++ [.refused err true])).loaded =
        (Beacon.refreshed (outcomes h)).loaded := by
      rw [Beacon.refreshed_snoc]
      rfl
    rw [Option.none_or] at hlast
    refine ⟨?_, ?_⟩
    · rw [houtcomes, hsame, hlast]
      exact hh.intact
    · rw [houtcomes, hsame]
      exact fun htorn hun => hh.torn htorn ((Beacon.unlapsed_snoc _ _).mp hun).1
  | unconfigured err =>
    rw [Option.none_or] at hlast
    refine ⟨fun d hd => ?_, fun htorn hun => ?_⟩
    · rw [houtcomes, Beacon.refreshed_snoc] at hd
      exact absurd hd (Loaded.tear_ne_intact _ d)
    · -- something was loaded, so a refresh had configured the set before
      rw [houtcomes, Beacon.refreshed_snoc] at htorn
      rw [houtcomes] at hun
      have hnone := (Beacon.tallies_refreshed (outcomes h)).loaded.mpr
        fun o' ho' hconf => ((Beacon.unlapsed_snoc _ _).mp hun).2 o' ho' hconf trivial
      simp [Beacon.refresh, hnone, Loaded.tear] at htorn
  | configured d start =>
    obtain ⟨hlen, hopen⟩ := ho
    rw [Option.some_or] at hlast
    refine ⟨fun d' hd => ?_, fun htorn => ?_⟩
    · rw [houtcomes, Beacon.refreshed_snoc] at hd
      obtain rfl : d = d' := by simpa [Beacon.refresh] using hd
      exact ⟨hlen, _, hlast, hopen⟩
    · rw [houtcomes, Beacon.refreshed_snoc] at htorn
      simp [Beacon.refresh] at htorn

/-! ### Whole runs -/

section Runs

variable {k : ℕ} {lib : Libb64} {n : UInt32} {str : CString} {s s' : Firmware k}
  {h : List (FirmwareEvent × FirmwareReport)}

/-- One step of the firmware, with faithful answers. -/
theorem Carries.step {e : FirmwareEvent} {r : FirmwareReport} (hh : Carries receive h)
    (hn : (firmware lib n str k).next s e = some (r, s'))
    (he : ∀ a ∈ e.answers?, a.Faithful receive) : Carries receive (h ++ [(e, r)]) := by
  cases e with
  | hubbleStackInit keyBuf a b started =>
    by_cases hstr : Acceptable k str.bytes
    · obtain ⟨-, -, -, -, -, rfl⟩ := bootStep_accepted hstr hn
      exact hh.refresh rfl ((he a rfl).delivers (c := .init (some stackConfig)) rfl _)
    · obtain ⟨-, -, err, generated, rfl⟩ := bootStep_rejected hstr hn
      exact hh.skip rfl
  | advUpdateTimer counter buf a =>
    obtain ⟨-, -, u, -, -, -, -, rfl⟩ := firingStep_next hn
    exact hh.refresh rfl (@Answers.Faithful.delivers _ _ (he a rfl) a.start _ _ rfl _)
  | uptimeGet counter =>
    simp only [firmware, Option.ite_none_right_eq_some, Option.some.injEq, Prod.mk.injEq] at hn
    obtain ⟨-, rfl, rfl⟩ := hn
    exact hh.skip rfl

theorem carries_run (hr : (lawfulFirmware lib n str k).RunWith (Faithfully receive) h s) :
    Carries receive h :=
  Mealy.runWith_invariant (I := fun h _ => Carries receive h) carries_nil
    (fun _ _ _ _ _ _ hh hn he => hh.step (Mealy.restrict_next.mp hn).2 he) hr

/-- While the device is on air, what the scanner reads is what the beacon is loaded with. -/
theorem Carries.scan (hh : Carries receive h) (hs : Follows str h s)
    (hair : s.stack.world.softdevice.advertising = true) :
    ∃ p, lastConfigured h = some p ∧ scan receive s.stack.world.transmitted = some p := by
  rcases hs with ⟨hstack, -⟩ | ⟨-, -, -, hrep⟩
  · rw [hstack] at hair
    cases hair
  · have htallies := Beacon.tallies_refreshed (outcomes h)
    rw [← hrep.onAir] at hair
    obtain ⟨hun, d, hlast⟩ := htallies.onAir.mp hair
    cases hloaded : (Beacon.refreshed (outcomes h)).loaded with
    | nothing =>
      have hmem : RefreshOutcome.configured d nrfSuccess ∈ outcomes h :=
        List.mem_of_mem_filter (List.mem_of_getLast? hlast)
      exact absurd trivial (htallies.loaded.mp hloaded _ hmem)
    | torn => exact absurd hun (hh.torn hloaded)
    | intact d =>
      obtain ⟨hlen, p, hp, hopen⟩ := hh.intact d hloaded
      exact ⟨p, hp, by rw [hrep.intact d hloaded, scan_advertisement receive hlen, hopen]⟩

/-- **What a scanner reads**, over a SoftDevice that keeps to its contract on stop and whatever the
outcomes of its and the generator's calls: while the device is on air, the payload of the last
refresh that configured the set. -/
theorem scan_transmitted (hr : (lawfulFirmware lib n str k).RunWith (Faithfully receive) h s)
    (hair : s.stack.world.softdevice.advertising = true) :
    ∃ p, lastConfigured h = some p ∧ scan receive s.stack.world.transmitted = some p :=
  (carries_run hr).scan (follows_run hr.run) hair

/-- A firing whose start fails takes the device off air; the next one, whose generator refuses,
leaves it there; the third puts it on air with its own payload. -/
theorem scan_transmitted_restarted :
    ∃ h s, (lawfulFirmware .plain 0 zeroKey 16).RunWith (Faithfully some) h s ∧
      s.stack.world.softdevice.advertising = true ∧
      scan some s.stack.world.transmitted = some [0x39, 0x30, 0x30] := by
  have hplain := plain_faithful
  have hrefusing : Answers.Faithful some
      { Answers.plain with advertiseGet := fun _ => .refusing } :=
    ⟨fun _ _ h => absurd (show -einval = 0 from h) (by decide), fun _ _ => rfl⟩
  have hfailing : Answers.Faithful some { Answers.plain with start := nrfErrorNoMem } :=
    ⟨hplain.opens, hplain.clean⟩
  have hrun : ∃ h s, (lawfulFirmware .plain 0 zeroKey 16).RunWith (Faithfully some) h s ∧
      s.stack.world.softdevice.advertising = true ∧ lastConfigured h = some [0x39, 0x30, 0x30] := by
    refine ⟨_, _, (((Mealy.RunWith.nil.snoc
      (i := .hubbleStackInit (fun _ => 0) .plain .plain true) rfl ?_).snoc
      (i := .advUpdateTimer (appTimerCntGet 9830400) (.replicate 16 0)
        { Answers.plain with start := nrfErrorNoMem }) rfl ?_).snoc
      (i := .advUpdateTimer (appTimerCntGet 19660800) (.replicate 16 0)
        { Answers.plain with advertiseGet := fun _ => .refusing }) rfl ?_).snoc
      (i := .advUpdateTimer (appTimerCntGet 29491200) (.replicate 16 0) .plain) rfl ?_, rfl, rfl⟩
    all_goals
      intro a ha
      obtain rfl := Option.some.inj ha
      assumption
  obtain ⟨h, s, hr, hair, hlast⟩ := hrun
  obtain ⟨p, hp, hscan⟩ := scan_transmitted hr hair
  rw [hlast] at hp
  obtain rfl := Option.some.inj hp
  exact ⟨h, s, hr, hair, hscan⟩

end Runs

/-! ### The calls succeed, on time -/

/-- What happens at a true tick count: the SDK samples the uptime, or the timer fires. -/
inductive Occasion
  | sample (t : ℕ)
  | firing (t : ℕ) (buf : Vector UInt8 16) (a : Answers)

namespace Occasion

/-- When it happens. -/
def tick : Occasion → ℕ
  | .sample t => t
  | .firing t _ _ => t

/-- The step of the firmware. -/
def event : Occasion → FirmwareEvent
  | .sample t => .uptimeGet (appTimerCntGet t)
  | .firing t buf a => .advUpdateTimer (appTimerCntGet t) buf a

/-- The tick of a firing. -/
def firing? : Occasion → Option ℕ
  | .sample _ => none
  | .firing t _ _ => some t

end Occasion

/-- The payload after the occasions `l`: none before the first firing, then the seconds of uptime at
the last one, as far as 32 bits of milliseconds hold them. -/
def payloadAfter (n : UInt32) (l : List Occasion) : List UInt8 :=
  (l.filterMap Occasion.firing?).getLast?.elim [] fun t =>
    Decimal.print (trueUptime n t % 2 ^ 32 / 1000)

theorem length_uptimePayload (u : UInt64) (buf : Vector UInt8 16) :
    (uptimePayload u buf).length < 16 := by
  rw [uptimePayload_eq]
  refine Nat.lt_succ_of_le (Decimal.length_print_le (by norm_num) ?_)
  have : u.toNat % 2 ^ 32 < 2 ^ 32 := Nat.mod_lt _ (by norm_num)
  omega

/-- A refresh whose calls succeed configures and starts the set. -/
theorem Answers.Cooperates.outcome {a : Answers} (ha : a.Cooperates) {data : List UInt8}
    (hdata : data.length < 16) {start : UInt32} (hstart : start = nrfSuccess)
    (generated : Option (List UInt8)) :
    refreshOutcome (a.advertiseGet data) { a with start := start } generated =
      .configured (generated.getD []) nrfSuccess := by
  rw [refreshOutcome, if_neg (not_not.mpr (ha.ret data hdata)),
    if_neg (not_not.mpr ha.configure), hstart]

section Timely

variable {k : ℕ} {lib : Libb64} {n : UInt32} {str : CString} {s : Firmware k}
  {h : List (FirmwareEvent × FirmwareReport)} {l : List Occasion}

/-- What holds after the occasions `l`: every refresh has configured and started the set, the last
with the payload it should have, and the clock stands at the last occasion. -/
structure Timely (n : UInt32) (l : List Occasion) {k : ℕ}
    (h : List (FirmwareEvent × FirmwareReport)) (s : Firmware k) : Prop where
  timer : s.timer = true
  clock : ∃ p, (0 :: l.map Occasion.tick).getLast? = some p ∧ s.uptime.StandsAt p
  configured : ∀ o ∈ outcomes h, ∃ d, o = .configured d nrfSuccess
  nonempty : outcomes h ≠ []
  last : lastConfigured h = some (payloadAfter n l)

/-- The sample at the next occasion is exact. -/
theorem Timely.get (hs : Timely n l h s) (hz : appTimerHz n ≠ 0) {t : ℕ}
    (hsteady : Steady 0 (l.map Occasion.tick ++ [t])) (ht : t * 1000 < 2 ^ 64) :
    ∃ u v, hubbleUptimeGet n (appTimerCntGet t) s.uptime = (some u, v) ∧
      u.toNat = trueUptime n t ∧ v.StandsAt t := by
  obtain ⟨p, hlast, hstands⟩ := hs.clock
  rw [Steady, ← List.cons_append] at hsteady
  obtain ⟨h1, h2⟩ := (List.isChain_append.mp hsteady).2.2 p hlast t rfl
  exact hubbleUptimeGet_exact hz hstands h1 h2 ht

theorem appTimerCntGet_lt (t : ℕ) : (appTimerCntGet t).toNat < counterPeriod := by
  rw [appTimerCntGet_toNat]
  exact Nat.mod_lt t (by norm_num)

theorem clock_snoc (l : List Occasion) (o : Occasion) :
    (0 :: (l ++ [o]).map Occasion.tick).getLast? = some o.tick := by
  rw [List.map_append, ← List.cons_append]
  exact List.getLast?_concat

variable (lib str) in
/-- A sample. -/
theorem Timely.sample (hs : Timely n l h s) (hz : appTimerHz n ≠ 0) {t : ℕ}
    (hsteady : Steady 0 (l.map Occasion.tick ++ [t])) (ht : t * 1000 < 2 ^ 64) :
    ∃ s', (lawfulFirmware lib n str k).next s (.uptimeGet (appTimerCntGet t)) =
        some (.sampled, s') ∧
      Timely n (l ++ [.sample t]) (h ++ [(.uptimeGet (appTimerCntGet t), .sampled)]) s' := by
  obtain ⟨u, v, hget, -, hv⟩ := hs.get hz hsteady ht
  have houtcomes : outcomes (h ++ [(.uptimeGet (appTimerCntGet t), .sampled)]) = outcomes h := by
    rw [outcomes_snoc]
    exact List.append_nil _
  have hlast : lastConfigured (h ++ [(.uptimeGet (appTimerCntGet t), .sampled)]) =
      lastConfigured h := lastConfigured_snoc _ _
  have hpayload : payloadAfter n (l ++ [.sample t]) = payloadAfter n l := by
    simp [payloadAfter, List.filterMap_append, Occasion.firing?]
  refine ⟨{ s with uptime := v }, Mealy.restrict_next.mpr ⟨trivial, ?_⟩, ?_⟩
  · simp only [firmware, if_pos (appTimerCntGet_lt t), hget]
  · exact ⟨hs.timer, ⟨t, clock_snoc l _, hv⟩, by rw [houtcomes]; exact hs.configured,
      by rw [houtcomes]; exact hs.nonempty, by rw [hlast, hpayload]; exact hs.last⟩

variable (lib str) in
/-- A firing. -/
theorem Timely.firing (hs : Timely n l h s) (hz : appTimerHz n ≠ 0) {t : ℕ}
    (hsteady : Steady 0 (l.map Occasion.tick ++ [t])) (ht : t * 1000 < 2 ^ 64)
    (buf : Vector UInt8 16) {a : Answers} (ha : a.Cooperates) :
    ∃ r s', (lawfulFirmware lib n str k).next s (.advUpdateTimer (appTimerCntGet t) buf a) =
        some (r, s') ∧
      Timely n (l ++ [.firing t buf a]) (h ++ [(.advUpdateTimer (appTimerCntGet t) buf a, r)])
        s' := by
  obtain ⟨u, v, hget, hu, hv⟩ := hs.get hz hsteady ht
  have hnext : ∃ r s', firingStep n (appTimerCntGet t) buf a s = some (r, s') := by
    rw [firingStep, if_pos ⟨hs.timer, appTimerCntGet_lt t⟩, advUpdateTimerHandler, hget]
    exact ⟨_, _, rfl⟩
  obtain ⟨r, s', hnext⟩ := hnext
  obtain ⟨-, -, u', hget', -, htimer, -, rfl⟩ := firingStep_next hnext
  obtain ⟨hu', rfl⟩ := Prod.mk.inj (hget.symm.trans hget')
  obtain rfl := Option.some.inj hu'
  have hout := ha.outcome (length_uptimePayload u buf) ha.start
    ((Call.updateData (uptimePayload u buf)).generated a s.stack.world)
  have houtcomes := outcomes_snoc h (.advUpdateTimer (appTimerCntGet t) buf a,
    .refreshed ⟨u, uptimePayload u buf⟩
      ((Call.updateData (uptimePayload u buf)).generated a s.stack.world))
  have hlast := lastConfigured_snoc h (.advUpdateTimer (appTimerCntGet t) buf a,
    .refreshed ⟨u, uptimePayload u buf⟩
      ((Call.updateData (uptimePayload u buf)).generated a s.stack.world))
  simp only [FirmwareEvent.outcome?, FirmwareEvent.configured?, hout, Option.toList_some,
    Option.bind_some, Option.some_or, FirmwareEvent.payload] at houtcomes hlast
  refine ⟨_, s', Mealy.restrict_next.mpr ⟨fun hstop => absurd ha.stop hstop, hnext⟩, ?_⟩
  refine ⟨htimer.trans hs.timer, ⟨t, clock_snoc l _, hv⟩, ?_, ?_, ?_⟩
  · rw [houtcomes]
    intro o ho
    rcases List.mem_append.mp ho with ho | ho
    · exact hs.configured o ho
    · exact ⟨_, List.mem_singleton.mp ho⟩
  · rw [houtcomes]
    exact List.append_ne_nil_of_right_ne_nil _ (List.cons_ne_nil _ _)
  · rw [hlast, uptimePayload_eq, hu]
    simp [payloadAfter, List.filterMap_append, Occasion.firing?]

variable (lib n) in
/-- `hubble_stack_init` with a key. -/
theorem timely_boot (hstr : Acceptable k str.bytes) (keyBuf : ℕ → UInt8) {a b : Answers}
    (ha : a.Cooperates) (hb : b.start = nrfSuccess) :
    ∃ r s, (lawfulFirmware lib n str k).next (lawfulFirmware lib n str k).init
        (.hubbleStackInit keyBuf a b true) = some (r, s) ∧
      Timely n [] [(.hubbleStackInit keyBuf a b true, r)] s := by
  have hnext : ∃ r s, bootStep lib str keyBuf a b true (firmware lib n str k).init =
      some (r, s) := ⟨_, _, rfl⟩
  obtain ⟨r, s, hnext⟩ := hnext
  obtain ⟨-, -, huptime, htimer, -, rfl⟩ := bootStep_accepted hstr hnext
  have hout := ha.outcome (show ([] : List UInt8).length < 16 by norm_num) hb
    ((Call.init (some stackConfig)).generated a (firmware lib n str k).init.stack.world)
  refine ⟨_, s, Mealy.restrict_next.mpr ⟨trivial, hnext⟩, htimer, ⟨0, rfl, ?_⟩, ?_, ?_, ?_⟩
  · rw [huptime]
    exact standsAt_boot
  all_goals
    simp only [outcomes, lastConfigured, List.filterMap_cons, List.filterMap_nil,
      FirmwareEvent.outcome?, FirmwareEvent.configured?, hout, Option.bind_some]
  · simp
  · simp
  · rfl

variable (lib n) in
/-- **Every steady run from boot stays timely.** -/
theorem timely_run (hz : appTimerHz n ≠ 0) (hstr : Acceptable k str.bytes) (keyBuf : ℕ → UInt8)
    {a b : Answers} (ha : a.Cooperates) (hfa : a.Faithful receive) (hb : b.start = nrfSuccess)
    (hl : ∀ t buf a, Occasion.firing t buf a ∈ l → a.Cooperates ∧ a.Faithful receive)
    (hsteady : Steady 0 (l.map Occasion.tick)) (ht : ∀ t ∈ l.map Occasion.tick, t * 1000 < 2 ^ 64) :
    ∃ h s, (lawfulFirmware lib n str k).RunWith (Faithfully receive) h s ∧
      h.map Prod.fst = .hubbleStackInit keyBuf a b true :: l.map Occasion.event ∧
      Timely n l h s := by
  induction l using List.reverseRecOn with
  | nil =>
    obtain ⟨r, s, hnext, hs⟩ := timely_boot lib n hstr keyBuf ha hb
    refine ⟨[] ++ [_], s, .snoc .nil hnext fun a' ha' => ?_, rfl, hs⟩
    obtain rfl := Option.some.inj ha'
    exact hfa
  | append_singleton l o ih =>
    rw [List.map_append, List.map_singleton] at hsteady ht
    have hprefix : Steady 0 (l.map Occasion.tick) := by
      rw [Steady, ← List.cons_append] at hsteady
      exact (List.isChain_append.mp hsteady).1
    obtain ⟨h, s, hr, hevents, hs⟩ := ih
      (fun t buf a hm => hl t buf a (List.mem_append_left _ hm)) hprefix
      (fun t hm => ht t (List.mem_append_left _ hm))
    have hlast : o ∈ l ++ [o] := List.mem_append_right _ (List.mem_singleton_self _)
    have htick : o.tick * 1000 < 2 ^ 64 :=
      ht _ (List.mem_append_right _ (List.mem_singleton_self _))
    cases o with
    | sample t =>
      obtain ⟨s', hnext, hs'⟩ := hs.sample lib str hz hsteady htick
      refine ⟨_, s', hr.snoc hnext fun a' ha' => (by cases ha'), ?_, hs'⟩
      simp [hevents, Occasion.event, Occasion.tick]
    | firing t buf a' =>
      obtain ⟨hcooperates, hfaithful⟩ := hl t buf a' hlast
      obtain ⟨r, s', hnext, hs'⟩ :=
        hs.firing lib str hz hsteady htick buf hcooperates
      refine ⟨_, s', hr.snoc hnext fun a'' ha'' => ?_, ?_, hs'⟩
      · obtain rfl := Option.some.inj ha''
        exact hfaithful
      · simp [hevents, Occasion.event, Occasion.tick]

/-- Refreshes that have all configured and started the set leave it on air. -/
theorem Timely.onAir (hs : Timely n l h s) (hr : (lawfulFirmware lib n str k).Run h s) :
    s.stack.world.softdevice.advertising = true := by
  refine (follows_run hr).onAir_iff.mpr ⟨?_, ?_⟩
  · refine List.pairwise_of_forall_mem_list fun o _ o' ho' _ hlapse => ?_
    obtain ⟨d, rfl⟩ := hs.configured o' ho'
    exact hlapse
  · have hfilter : (outcomes h).filter (fun o => !o.refuses) = outcomes h := by
      refine List.filter_eq_self.mpr fun o ho => ?_
      obtain ⟨d, rfl⟩ := hs.configured o ho
      rfl
    obtain ⟨d, hd⟩ := hs.configured _ (List.getLast_mem hs.nonempty)
    rw [lastAttempt, hfilter, List.getLast?_eq_some_getLast hs.nonempty, hd]
    exact ⟨d, rfl⟩

/-- What a scanner reads off it. -/
theorem Timely.scan (hs : Timely n l h s)
    (hr : (lawfulFirmware lib n str k).RunWith (Faithfully receive) h s) :
    scan receive s.stack.world.transmitted = some (payloadAfter n l) := by
  obtain ⟨p, hp, hscan⟩ := (carries_run hr).scan (follows_run hr.run) (hs.onAir hr.run)
  rw [hs.last] at hp
  rw [hscan, hp]

variable (lib n) in
/-- **A scanner reads the uptime**, for every key, every number of firings and of samples in between
and every delay below one period: from boot on the device is on air, with an empty payload before
the first firing, and with the seconds it had been up at the last one afterwards, to the tick.  (The
handler casts the milliseconds to 32 bits first, so they start over after 49.7 days.) -/
theorem scan_uptime (hz : appTimerHz n ≠ 0) (hstr : Acceptable k str.bytes) (keyBuf : ℕ → UInt8)
    {a b : Answers} (ha : a.Cooperates) (hfa : a.Faithful receive) (hb : b.start = nrfSuccess)
    (hl : ∀ t buf a, Occasion.firing t buf a ∈ l → a.Cooperates ∧ a.Faithful receive)
    (hsteady : Steady 0 (l.map Occasion.tick))
    (ht : ∀ t ∈ (l.map Occasion.tick).getLast?, t * 1000 < 2 ^ 64) :
    ∃ h s, (lawfulFirmware lib n str k).Run h s ∧
      h.map Prod.fst = .hubbleStackInit keyBuf a b true :: l.map Occasion.event ∧
      s.stack.world.softdevice.advertising = true ∧
      scan receive s.stack.world.transmitted = some (payloadAfter n l) := by
  obtain ⟨h, s, hr, hevents, hs⟩ := timely_run lib n hz hstr keyBuf ha hfa hb hl hsteady
    (hsteady.bound ht)
  exact ⟨h, s, hr.run, hevents, hs.onAir hr.run, hs.scan hr⟩

/-- Five minutes and two seconds after boot, with a sample in between: `302`. -/
theorem scan_uptime_first :
    ∃ h s, (lawfulFirmware .plain 0 zeroKey 16).Run h s ∧
      s.stack.world.softdevice.advertising = true ∧
      scan some s.stack.world.transmitted = some [0x33, 0x30, 0x32] := by
  obtain ⟨h, s, hr, -, hair, hscan⟩ := scan_uptime Libb64.plain 0
    (l := [.sample 32768, .firing 9895936 (.replicate 16 0) .plain])
    (by decide) (show Acceptable 16 zeroKey.bytes by unfold Acceptable; decide) (fun _ => 0)
    plain_cooperates plain_faithful plain_cooperates.start
    (by
      intro t buf a ha
      obtain ⟨-, -, rfl⟩ : t = 9895936 ∧ buf = .replicate 16 0 ∧ a = .plain := by simpa using ha
      exact ⟨plain_cooperates, plain_faithful⟩)
    (by simp [Steady, Occasion.tick, counterPeriod]) (by simp [Occasion.tick])
  refine ⟨h, s, hr, hair, hscan.trans (congrArg some ?_)⟩
  decide +kernel

end Timely

end HubbleNordic
