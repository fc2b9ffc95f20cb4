import HubbleNordic.Advertiser.Beacon
import HubbleNordic.Application.StackInit

/-!
# The firmware from boot: `main.c`

`main` calls `hubble_stack_init` once; where that has started the timer, `adv_update_timer_handler`
fires from then on.  Nothing the advertiser returns is looked at, so every outcome of every call is
followed by the next firing.

* `Firmware`, `FirmwareEvent`, `FirmwareReport`, `firmware`: all runs from boot, for one key text;
* `outcomes`: how the refreshes of a run went, the one of `hubble_advertiser_init` first;
* `follows_run`: the advertiser stands for the beacon that the refreshes have made of it;
* `firmware_onAir_iff`: when the device is on air, whatever happened before, and that with a text
  that is no key nothing ever happens;
* `firmware_recovery`: what is mended by the next firing, and what never is.
-/

namespace HubbleNordic

/-- What `main.c` and the port keep: `master_key` and the advertiser, the static variables of
`hubble_uptime_get`, whether `hubble_stack_init` has been called, and whether `m_adv_update_tmr`
runs. -/
structure Firmware (k : ℕ) where
  stack : HubbleStack k
  uptime : UptimeState
  booted : Bool
  timer : Bool

/-- What happens: `main` calls `hubble_stack_init`, where `started` says whether `app_timer_start`
succeeds; the timer fires; or the SDK samples the uptime. -/
inductive FirmwareEvent
  | hubbleStackInit (keyBuf : ℕ → UInt8) (a b : Answers) (started : Bool)
  | advUpdateTimer (counter : UInt32) (buf : Vector UInt8 16) (a : Answers)
  | uptimeGet (counter : UInt32)

/-- What it shows: the error logged by `hubble_stack_init`, if any; the uptime and the payload of a
firing; and the service data a refresh generated, if it came to that. -/
inductive FirmwareReport
  | initialised (error : Option KeyError) (generated : Option (List UInt8))
  | refreshed (r : Refresh) (generated : Option (List UInt8))
  | sampled

section Machine

variable {k : ℕ} (lib : Libb64) (n : UInt32) (str : CString)

/-- `hubble_stack_init`, once. -/
def bootStep (keyBuf : ℕ → UInt8) (a b : Answers) (started : Bool) (s : Firmware k) :
    Option (FirmwareReport × Firmware k) :=
  if s.booted = true then none
  else
    let o := hubbleStackInit lib a b str keyBuf s.stack
    some (.initialised o.error ((Call.init (some stackConfig)).generated a s.stack.world),
      { s with
        stack := o.stack
        booted := true
        timer := started && o.calls.any (· matches .appTimerStart _) })

/-- A firing of the timer, if it runs. -/
def firingStep (counter : UInt32) (buf : Vector UInt8 16) (a : Answers) (s : Firmware k) :
    Option (FirmwareReport × Firmware k) :=
  if s.timer = true ∧ counter.toNat < counterPeriod then
    (advUpdateTimerHandler a n counter buf ⟨s.uptime, s.stack.world⟩).map fun (r, t) =>
      (.refreshed r ((Call.updateData r.payload).generated a s.stack.world),
        { s with stack := { s.stack with world := t.world }, uptime := t.uptime })
  else none

/-- The firmware, from boot, for the key text `str`; `masterKey` is the zeroed `master_key`. -/
def firmware (k : ℕ) : Mealy (Firmware k) FirmwareEvent FirmwareReport where
  init := ⟨⟨.replicate k 0, .boot⟩, .boot, false, false⟩
  next s
    | .hubbleStackInit keyBuf a b started => bootStep lib str keyBuf a b started s
    | .advUpdateTimer counter buf a => firingStep n counter buf a s
    | .uptimeGet counter =>
        if counter.toNat < counterPeriod then
          some (.sampled, { s with uptime := (hubbleUptimeGet n counter s.uptime).2 })
        else none

end Machine

/-- The SoftDevice keeps to its contract on `sd_ble_gap_adv_stop`; `hubble_stack_init` makes no such
call. -/
def FirmwareLawful {k : ℕ} (s : Firmware k) : FirmwareEvent → Prop
  | .advUpdateTimer _ _ a =>
      a.stop ≠ nrfSuccess → ¬ s.stack.world.softdevice.OnAir s.stack.world.mAdvHandle
  | _ => True

instance {k : ℕ} (s : Firmware k) : ∀ e, Decidable (FirmwareLawful s e)
  | .advUpdateTimer _ _ _ => inferInstanceAs (Decidable (_ → _))
  | .hubbleStackInit _ _ _ _ => inferInstanceAs (Decidable True)
  | .uptimeGet _ => inferInstanceAs (Decidable True)

/-- The firmware over a SoftDevice that keeps to its contract. -/
def lawfulFirmware (lib : Libb64) (n : UInt32) (str : CString) (k : ℕ) :
    Mealy (Firmware k) FirmwareEvent FirmwareReport :=
  (firmware lib n str k).restrict FirmwareLawful

/-- How the refresh of an event went, if it was one; the one of `hubble_advertiser_init` gets its
start from the `hubble_advertiser_start` behind it. -/
def FirmwareEvent.outcome? : FirmwareEvent × FirmwareReport → Option RefreshOutcome
  | (.hubbleStackInit _ a b _, .initialised none generated) =>
      some (refreshOutcome (a.advertiseGet []) { a with start := b.start } generated)
  | (.advUpdateTimer _ _ a, .refreshed r generated) =>
      some (refreshOutcome (a.advertiseGet r.payload) a generated)
  | _ => none

/-- How the refreshes of a run went. -/
def outcomes (h : List (FirmwareEvent × FirmwareReport)) : List RefreshOutcome :=
  h.filterMap FirmwareEvent.outcome?

/-! ### What happens at each step -/

section Steps

variable {k : ℕ} {lib : Libb64} {n : UInt32} {str : CString} {s s' : Firmware k}
  {r : FirmwareReport}

/-- `hubble_stack_init` with a text that is a key. -/
theorem bootStep_accepted {keyBuf : ℕ → UInt8} {a b : Answers} {started : Bool}
    (hstr : Acceptable k str.bytes)
    (hn : bootStep lib str keyBuf a b started s = some (r, s')) :
    s.booted = false ∧ s'.booted = true ∧ s'.uptime = s.uptime ∧ s'.timer = started ∧
      s'.stack.world = (hubbleAdvertiserStart b (hubbleAdvertiserInit a (some stackConfig)
        s.stack.world.fresh).2.fresh).2 ∧
      r = .initialised none ((Call.init (some stackConfig)).generated a s.stack.world) := by
  simp only [bootStep, Option.ite_none_left_eq_some, Option.some.injEq, Prod.mk.injEq,
    Bool.not_eq_true] at hn
  obtain ⟨hbooted, rfl, rfl⟩ := hn
  obtain ⟨hcalls, -, hworld, -, herror⟩ := hubbleStackInit_accepted lib a b str keyBuf s.stack hstr
  refine ⟨hbooted, rfl, rfl, ?_, hworld, by rw [herror]⟩
  simp [show (hubbleStackInit lib a b str keyBuf s.stack).calls = _ from hcalls]

/-- `hubble_stack_init` with any other text. -/
theorem bootStep_rejected {keyBuf : ℕ → UInt8} {a b : Answers} {started : Bool}
    (hstr : ¬ Acceptable k str.bytes)
    (hn : bootStep lib str keyBuf a b started s = some (r, s')) :
    s'.stack = s.stack ∧ s'.timer = false ∧ ∃ err generated, r = .initialised (some err) generated := by
  simp only [bootStep, Option.ite_none_left_eq_some, Option.some.injEq, Prod.mk.injEq,
    Bool.not_eq_true] at hn
  obtain ⟨hbooted, rfl, rfl⟩ := hn
  obtain ⟨hcalls, hstack, herror, -⟩ := hubbleStackInit_rejected lib a b str keyBuf s.stack hstr
  obtain ⟨err, herr⟩ := Option.ne_none_iff_exists'.mp herror
  exact ⟨hstack, by simp [hcalls], err, _, by rw [herr]⟩

/-- A firing. -/
theorem firingStep_next {counter : UInt32} {buf : Vector UInt8 16} {a : Answers}
    (hn : firingStep n counter buf a s = some (r, s')) :
    s.timer = true ∧ counter.toNat < counterPeriod ∧ ∃ u,
      hubbleUptimeGet n counter s.uptime = (some u, s'.uptime) ∧
      s'.booted = s.booted ∧ s'.timer = s.timer ∧
      s'.stack.world =
        (hubbleAdvertiserUpdateData a (uptimePayload u buf) s.stack.world.fresh).2 ∧
      r = .refreshed ⟨u, uptimePayload u buf⟩
        ((Call.updateData (uptimePayload u buf)).generated a s.stack.world) := by
  simp only [firingStep, advUpdateTimerHandler, Option.ite_none_right_eq_some,
    Option.map_eq_some_iff, Prod.mk.injEq, Prod.exists] at hn
  obtain ⟨⟨htimer, hcounter⟩, r', t, ⟨u, hu, rfl, rfl⟩, rfl, rfl⟩ := hn
  exact ⟨htimer, hcounter, u, Prod.ext hu rfl, rfl, rfl, rfl, rfl⟩

end Steps

/-- The text `AAAAAAAAAAAAAAAAAAAAAA==`: the key of sixteen zero bytes. -/
def zeroKey : CString where
  bytes := List.replicate 22 0x41 ++ [0x3D, 0x3D]
  terminator_not_mem := by decide

theorem outcomes_snoc (h : List (FirmwareEvent × FirmwareReport))
    (er : FirmwareEvent × FirmwareReport) :
    outcomes (h ++ [er]) = outcomes h ++ (FirmwareEvent.outcome? er).toList := by
  cases he : FirmwareEvent.outcome? er <;> simp [outcomes, List.filterMap_append, he]

/-! ### The advertiser's part -/

/-- `hubble_advertiser_init` and `hubble_advertiser_start` from boot come to one refresh of a beacon
that is already switched on. -/
theorem beacon_booted (g : Generation) (a b : Answers) (generated : Option (List UInt8)) :
    ((Beacon.boot.refresh (refreshOutcome g a generated)).2.start b.start).2 =
      Beacon.refreshed [refreshOutcome g { a with start := b.start } generated] := by
  by_cases hret : g.ret = 0
  · by_cases hconf : a.configure = nrfSuccess
    · by_cases hstart : b.start = nrfSuccess <;>
        simp [refreshOutcome, hret, hconf, hstart, Beacon.refreshed, Beacon.refresh, Beacon.start,
          Beacon.boot]
    · by_cases hstart : b.start = nrfSuccess <;>
        simp [refreshOutcome, hret, hconf, hstart, Beacon.refreshed, Beacon.refresh, Beacon.start,
          Beacon.boot, Loaded.tear]
  · by_cases hstart : b.start = nrfSuccess <;> cases hclean : g.writes.isEmpty <;>
      simp [refreshOutcome, hret, hclean, hstart, Beacon.refreshed, Beacon.refresh, Beacon.start,
        Beacon.boot, Loaded.tear]

/-- The advertiser after `hubble_stack_init` with a key. -/
theorem represents_booted (a b : Answers) :
    let w := (hubbleAdvertiserStart b
      (hubbleAdvertiserInit a (some stackConfig) World.boot.fresh).2.fresh).2
    lawfulAdvertiser.Reachable w ∧
      Represents w (Beacon.refreshed [refreshOutcome (a.advertiseGet []) { a with start := b.start }
        ((Call.init (some stackConfig)).generated a .boot)]) := by
  intro w
  let v := (hubbleAdvertiserInit a (some stackConfig) World.boot.fresh).2
  have hinit : advertiser.next .boot (.call (.init (some stackConfig)) a) = some (_, v) :=
    advertiser_call.mpr ⟨rfl, rfl⟩
  have hlawful : Lawful .boot (.call (.init (some stackConfig)) a) := fun _ hair => nomatch hair.1
  replace hinit := (Mealy.restrict_next (G := Lawful)).mpr ⟨hlawful, hinit⟩
  obtain ⟨-, hrep⟩ := represents_refresh safe_boot represents_boot hinit rfl
  have hcons : Consistent v := (reachable_safe ⟨_, Mealy.RunFrom.nil.snoc hinit⟩).toConsistent
  -- the set is still idle when it is started, so that call breaks no contract
  have hidle : v.softdevice.advertising = false := by
    rw [← hrep.onAir]
    generalize refreshOutcome _ _ _ = o
    cases o with
    | refused err clean => cases clean <;> rfl
    | unconfigured err => rfl
    | configured d start => rfl
  have hstart : advertiser.next v (.call .start b) = some (_, w) :=
    advertiser_call.mpr ⟨rfl, rfl⟩
  have hlawful' : Lawful v (.call .start b) :=
    fun _ hair => absurd (hidle.symm.trans hair.2) Bool.false_ne_true
  replace hstart := (Mealy.restrict_next (G := Lawful)).mpr ⟨hlawful', hstart⟩
  obtain ⟨-, hrep'⟩ := represents_start hcons.fresh hrep.fresh b
  rw [beacon_booted] at hrep'
  exact ⟨⟨_, (Mealy.RunFrom.nil.snoc hinit).snoc hstart⟩, hrep'⟩

/-- What a run has come to: either the stack has not been initialised, and nothing has happened; or
it has, and the advertiser stands for the beacon the refreshes have made of it. -/
def Follows {k : ℕ} (str : CString) (h : List (FirmwareEvent × FirmwareReport))
    (s : Firmware k) : Prop :=
  (s.stack = ⟨.replicate k 0, .boot⟩ ∧ s.timer = false ∧ outcomes h = []) ∨
    (Acceptable k str.bytes ∧ s.booted = true ∧ lawfulAdvertiser.Reachable s.stack.world ∧
      Represents s.stack.world (Beacon.refreshed (outcomes h)))

section Follows

variable {k : ℕ} {lib : Libb64} {n : UInt32} {str : CString} {s s' : Firmware k}
  {h : List (FirmwareEvent × FirmwareReport)} {r : FirmwareReport}

theorem follows_boot {keyBuf : ℕ → UInt8} {a b : Answers} {started : Bool}
    (hs : Follows str h s) (hn : bootStep lib str keyBuf a b started s = some (r, s')) :
    Follows str (h ++ [(.hubbleStackInit keyBuf a b started, r)]) s' := by
  by_cases hstr : Acceptable k str.bytes
  · obtain ⟨hbooted, hbooted', -, -, hworld, rfl⟩ := bootStep_accepted hstr hn
    rcases hs with ⟨hstack, -, hnone⟩ | ⟨-, hboth, -⟩
    · rw [hstack] at hworld ⊢
      right
      rw [outcomes_snoc, hnone, hworld]
      exact ⟨hstr, hbooted', represents_booted a b⟩
    · rw [hbooted] at hboth
      cases hboth
  · obtain ⟨hstack, htimer, err, generated, rfl⟩ := bootStep_rejected hstr hn
    rcases hs with ⟨hboot, -, hnone⟩ | ⟨hkey, -⟩
    · left
      rw [outcomes_snoc, hnone]
      exact ⟨hstack.trans hboot, htimer, rfl⟩
    · exact absurd hkey hstr

theorem follows_firing {counter : UInt32} {buf : Vector UInt8 16} {a : Answers}
    (hs : Follows str h s)
    (hl : a.stop ≠ nrfSuccess → ¬ s.stack.world.softdevice.OnAir s.stack.world.mAdvHandle)
    (hn : firingStep n counter buf a s = some (r, s')) :
    Follows str (h ++ [(.advUpdateTimer counter buf a, r)]) s' := by
  obtain ⟨htimer, -, u, -, hbooted, -, hworld, rfl⟩ := firingStep_next hn
  rcases hs with ⟨-, hoff, -⟩ | ⟨hkey, hboth, hreach, hrep⟩
  · rw [hoff] at htimer
    cases htimer
  · have hnext : lawfulAdvertiser.next s.stack.world (.call (.updateData (uptimePayload u buf)) a) =
        some (_, s'.stack.world) :=
      Mealy.restrict_next.mpr ⟨hl, advertiser_call.mpr ⟨hworld.symm, rfl⟩⟩
    obtain ⟨-, hrep'⟩ := represents_refresh (reachable_safe hreach) hrep hnext rfl
    obtain ⟨l, hrun⟩ := hreach
    refine Or.inr ⟨hkey, hbooted.trans hboth, ⟨_, hrun.snoc hnext⟩, ?_⟩
    rw [outcomes_snoc]
    exact (Beacon.refreshed_snoc _ _).symm ▸ hrep'

/-- **Every run of the firmware follows the beacon.** -/
theorem follows_run (hr : (lawfulFirmware lib n str k).Run h s) : Follows str h s := by
  refine Mealy.runFrom_invariant (I := Follows str) (Or.inl ⟨rfl, rfl, rfl⟩)
    (fun h s e r s' _ hs hn => ?_) hr
  obtain ⟨hl, hn⟩ := Mealy.restrict_next.mp hn
  cases e with
  | hubbleStackInit keyBuf a b started => exact follows_boot hs hn
  | advUpdateTimer counter buf a => exact follows_firing hs hl hn
  | uptimeGet counter =>
    simp only [firmware, Option.ite_none_right_eq_some, Option.some.injEq, Prod.mk.injEq] at hn
    obtain ⟨-, rfl, rfl⟩ := hn
    have hsame : outcomes (h ++ [(.uptimeGet counter, .sampled)]) = outcomes h := by
      rw [outcomes_snoc]
      exact List.append_nil _
    rw [Follows, hsame]
    exact hs

/-- On air, as the refreshes tell. -/
theorem Follows.onAir_iff (hs : Follows str h s) :
    s.stack.world.softdevice.advertising = true ↔
      Unlapsed (outcomes h) ∧ ∃ d, lastAttempt (outcomes h) = some (.configured d nrfSuccess) := by
  rcases hs with ⟨hstack, -, hnone⟩ | ⟨-, -, -, hrep⟩
  · rw [hstack, hnone]
    simp [World.boot, Softdevice.boot, lastAttempt]
  · rw [← hrep.onAir]
    exact (Beacon.tallies_refreshed _).onAir

end Follows

/-! ### Runs from boot -/

section Runs

variable {k : ℕ} {lib : Libb64} {n : UInt32} {str : CString} {s : Firmware k}
  {h : List (FirmwareEvent × FirmwareReport)}

/-- **When the device is on air**, for every key text, over a SoftDevice that keeps to its contract on
stop and whatever the outcomes: exactly if the last refresh for which an advertisement was generated
configured the set and started it, and since the first refresh to configure the set none has failed
to.  With a text that is no key it has made no refresh and no call, and the timer does not run. -/
theorem firmware_onAir_iff (hr : (lawfulFirmware lib n str k).Run h s) :
    (s.stack.world.softdevice.advertising = true ↔
      Unlapsed (outcomes h) ∧ ∃ d, lastAttempt (outcomes h) = some (.configured d nrfSuccess)) ∧
    (¬ Acceptable k str.bytes →
      s.stack = ⟨.replicate k 0, .boot⟩ ∧ s.timer = false ∧ outcomes h = []) := by
  have hs := follows_run hr
  refine ⟨hs.onAir_iff, fun hstr => ?_⟩
  rcases hs with hs | ⟨hkey, -⟩
  · exact hs
  · exact absurd hkey hstr

/-- `hubble_advertiser_init` cannot configure the set and `hubble_advertiser_start` has no handle to
start; the first firing puts the device on air. -/
theorem firmware_onAir_late :
    ∃ h s, (lawfulFirmware .plain 0 zeroKey 16).Run h s ∧
      outcomes h = [.unconfigured nrfErrorNoMem, .configured [0x33, 0x30, 0x30] nrfSuccess] ∧
      s.stack.world.softdevice.advertising = true := by
  have hrun : ∃ h s, (lawfulFirmware .plain 0 zeroKey 16).Run h s ∧
      outcomes h = [.unconfigured nrfErrorNoMem, .configured [0x33, 0x30, 0x30] nrfSuccess] :=
    ⟨_, _, Mealy.runFrom_of_exec (M := lawfulFirmware .plain 0 zeroKey 16)
      (s := ⟨⟨.replicate 16 0, .boot⟩, .boot, false, false⟩)
      (l := [.hubbleStackInit (fun _ => 0) { Answers.storing with configure := nrfErrorNoMem }
        .storing true, .advUpdateTimer (appTimerCntGet 9830400) (.replicate 16 0) .storing])
      rfl, rfl⟩
  obtain ⟨h, s, hr, ho⟩ := hrun
  refine ⟨h, s, hr, ho, (firmware_onAir_iff hr).1.mpr ?_⟩
  rw [ho]
  exact ⟨by simp [Unlapsed, RefreshOutcome.Lapses], _, rfl⟩

theorem unlapsed_of_append {l : List (FirmwareEvent × FirmwareReport)}
    (hl : Unlapsed (outcomes (h ++ l))) : Unlapsed (outcomes h) := by
  rw [outcomes, List.filterMap_append] at hl
  exact (List.pairwise_append.mp hl).1

/-- **A lapse is for good, anything else is mended**, over a SoftDevice that keeps to its contract on
stop: once a refresh has failed to configure a set that an earlier one had configured, the device is
off air in every state it reaches from there, whatever succeeds; until then the next firing whose
calls succeed puts it on air, whatever failed before. -/
theorem firmware_recovery (hr : (lawfulFirmware lib n str k).Run h s) :
    (¬ Unlapsed (outcomes h) → ∀ l t, (lawfulFirmware lib n str k).RunFrom s l t →
      t.stack.world.softdevice.advertising = false) ∧
    (Unlapsed (outcomes h) → ∀ counter buf a r t,
      (lawfulFirmware lib n str k).next s (.advUpdateTimer counter buf a) = some (r, t) →
      (∀ p, (a.advertiseGet p).ret = 0) → a.configure = nrfSuccess → a.start = nrfSuccess →
      t.stack.world.softdevice.advertising = true) := by
  constructor
  · intro hlapsed l t hl
    have ht := follows_run (hr.append hl)
    by_contra hadv
    exact hlapsed (unlapsed_of_append (ht.onAir_iff.mp (by simpa using hadv)).1)
  · intro hun counter buf a r t hn hret hconf hstart
    have ht := follows_run (hr.snoc hn)
    refine ht.onAir_iff.mpr ?_
    obtain ⟨-, hn⟩ := Mealy.restrict_next.mp hn
    obtain ⟨-, -, u, -, -, -, -, rfl⟩ := firingStep_next hn
    have hnew : outcomes (h ++ [(.advUpdateTimer counter buf a, .refreshed ⟨u, uptimePayload u buf⟩
        ((Call.updateData (uptimePayload u buf)).generated a s.stack.world))]) =
        outcomes h ++ [.configured (((Call.updateData (uptimePayload u buf)).generated a
          s.stack.world).getD []) nrfSuccess] := by
      rw [outcomes_snoc]
      simp [FirmwareEvent.outcome?, refreshOutcome, hret, hconf, hstart]
    rw [hnew]
    constructor
    · exact (Beacon.unlapsed_snoc _ _).mpr ⟨hun, fun _ _ _ h => h⟩
    · rw [Beacon.lastAttempt_snoc]
      exact ⟨_, rfl⟩

/-- One failed reconfiguration, 5 minutes after boot. -/
theorem firmware_recovery_lapsed :
    ∃ h s, (lawfulFirmware .plain 0 zeroKey 16).Run h s ∧
      outcomes h = [.configured [] nrfSuccess, .unconfigured nrfErrorNoMem] ∧
      ∀ l t, (lawfulFirmware .plain 0 zeroKey 16).RunFrom s l t →
        t.stack.world.softdevice.advertising = false := by
  have hrun : ∃ h s, (lawfulFirmware .plain 0 zeroKey 16).Run h s ∧
      outcomes h = [.configured [] nrfSuccess, .unconfigured nrfErrorNoMem] :=
    ⟨_, _, Mealy.runFrom_of_exec (M := lawfulFirmware .plain 0 zeroKey 16)
      (s := ⟨⟨.replicate 16 0, .boot⟩, .boot, false, false⟩)
      (l := [.hubbleStackInit (fun _ => 0) .storing .storing true,
        .advUpdateTimer (appTimerCntGet 9830400) (.replicate 16 0)
          { Answers.storing with configure := nrfErrorNoMem }])
      rfl, rfl⟩
  obtain ⟨h, s, hr, ho⟩ := hrun
  refine ⟨h, s, hr, ho, (firmware_recovery hr).1 ?_⟩
  rw [ho]
  simp [Unlapsed, RefreshOutcome.Configures, RefreshOutcome.Lapses]

end Runs

end HubbleNordic
