import HubbleNordic.Advertiser.Restart

/-!
# The advertiser as a beacon

What the advertiser is for, with buffers, handles and the SoftDevice out of sight: a beacon is
loaded with the service data of an advertisement, has a switch, and is on air or not.

* `Beacon`, `BeaconInput`, `beacon`: the abstract machine, with the value each call returns;
* `beaconSteps`: what a call of the advertiser and its outcome mean to the beacon;
* `Represents`: how a world stands for a beacon;
* `advertiser_refines_beacon`: every run of API calls, with any outcomes over a SoftDevice that
  keeps to its contract, is a run of the beacon, call by call and return value by return value.
-/

namespace HubbleNordic

/-! ### The beacon -/

/-- What a beacon is loaded with: nothing yet; the advertisement of the service data `d`; or what a
refresh that failed has left behind, of which nothing is promised. -/
inductive Loaded
  | nothing
  | intact (d : List UInt8)
  | torn
  deriving DecidableEq

/-- Something is written over what is loaded. -/
def Loaded.tear : Loaded → Loaded
  | .nothing => .nothing
  | _ => .torn

theorem Loaded.tear_eq_nothing {l : Loaded} : l.tear = .nothing ↔ l = .nothing := by
  cases l <;> simp [tear]

theorem Loaded.tear_ne_intact (l : Loaded) (d : List UInt8) : l.tear ≠ .intact d := by
  cases l <;> simp [tear]

/-- A beacon: what it is loaded with, its switch, and whether it is on air. -/
structure Beacon where
  loaded : Loaded
  wanted : Bool
  onAir : Bool
  deriving DecidableEq

/-- How a refresh goes: no advertisement is generated, and the attempt was clean or not; or one is,
but the set is not configured; or it is, with the answer a start would get. -/
inductive RefreshOutcome
  | refused (err : Int32) (clean : Bool)
  | unconfigured (err : UInt32)
  | configured (d : List UInt8) (start : UInt32)

/-- A call: an initialisation without a configuration, a refresh, a start or a stop with the answer
it would get. -/
inductive BeaconInput
  | reject
  | refresh (o : RefreshOutcome)
  | start (answer : UInt32)
  | stop (answer : UInt32)

namespace Beacon

/-- A beacon that has never been loaded, switched off. -/
def boot : Beacon := ⟨.nothing, false, false⟩

/-- A refresh.  The beacon is off air while it is loaded anew; where that fails it stays off, and
its switch goes off with it if there was a set to stop. -/
def refresh (b : Beacon) : RefreshOutcome → Int32 × Beacon
  | .refused err clean => (err, if clean then b else { b with loaded := b.loaded.tear })
  | .unconfigured err =>
      (-err.toInt32, ⟨b.loaded.tear, b.wanted && decide (b.loaded = .nothing), false⟩)
  | .configured d start => (0, ⟨.intact d, b.wanted, b.wanted && decide (start = nrfSuccess)⟩)

/-- The switch goes on, whatever comes of it. -/
def start (b : Beacon) (answer : UInt32) : Int32 × Beacon :=
  let b := { b with wanted := true }
  if answer ≠ nrfSuccess then (-answer.toInt32, b)
  else if b.loaded = .nothing then (-bleErrorInvalidAdvHandle.toInt32, b)
  else if b.onAir then (-nrfErrorInvalidState.toInt32, b)
  else (0, { b with onAir := true })

/-- The switch goes off, and the beacon with it, unless there is nothing loaded. -/
def stop (b : Beacon) (answer : UInt32) : Int32 × Beacon :=
  if b.loaded = .nothing then (-eagain, b)
  else
    (if answer ≠ nrfSuccess then -answer.toInt32
      else if b.onAir then 0 else -nrfErrorInvalidState.toInt32,
      { b with wanted := false, onAir := false })

/-- A call, and what it returns. -/
def call (b : Beacon) : BeaconInput → Int32 × Beacon
  | .reject => (-einval, b)
  | .refresh o => b.refresh o
  | .start answer => b.start answer
  | .stop answer => b.stop answer

end Beacon

/-- The abstract machine. -/
def beacon : Mealy Beacon BeaconInput Int32 where
  init := .boot
  next b i := some (b.call i)

/-! ### What the calls mean to the beacon -/

/-- How a refresh whose generator runs as `g` goes, where `generated` is the service data it left in
the buffer if it succeeded. -/
def refreshOutcome (g : Generation) (a : Answers) (generated : Option (List UInt8)) :
    RefreshOutcome :=
  if g.ret ≠ 0 then .refused g.ret g.writes.isEmpty
  else if a.configure ≠ nrfSuccess then .unconfigured a.configure
  else .configured (generated.getD []) a.start

/-- A call of the advertiser, as the beacon sees it, with the value it returned. -/
def beaconSteps : Event × Report → List (BeaconInput × Int32)
  | (.advSetTerminated, _) => []
  | (.call c a, r) =>
      match c.generation? a with
      | some g => [(.refresh (refreshOutcome g a r.generated), r.ret)]
      | none =>
          match c with
          | .start => [(.start a.start, r.ret)]
          | .stop => [(.stop a.stop, r.ret)]
          | _ => [(.reject, r.ret)]

/-- The world stands for the beacon: the flag is its switch, the set is its transmitter, and while
it is intact the bytes of a transmission are its advertisement. -/
structure Represents (w : World) (b : Beacon) : Prop where
  wanted : b.wanted = w.mStarted
  onAir : b.onAir = w.softdevice.advertising
  nothing : b.loaded = .nothing ↔ w.mAdvHandle = bleGapAdvSetHandleNotSet
  intact : ∀ d, b.loaded = .intact d → w.transmitted = advertisement d

theorem represents_boot : Represents .boot .boot :=
  ⟨rfl, rfl, by decide, fun d h => by simp [Beacon.boot] at h⟩

theorem Represents.fresh {w : World} {b : Beacon} (hb : Represents w b) : Represents w.fresh b :=
  ⟨hb.wanted, hb.onAir, hb.nothing, hb.intact⟩

/-! ### Each call -/

/-- A start. -/
theorem represents_start {w : World} {b : Beacon} (hw : Consistent w) (hb : Represents w b)
    (a : Answers) :
    (b.start a.start).1 = (hubbleAdvertiserStart a w).1 ∧
      Represents (hubbleAdvertiserStart a w).2 (b.start a.start).2 := by
  obtain ⟨hwanted, honAir, hnothing, hintact⟩ := hb
  have hh := hw.handle
  unfold hubbleAdvertiserStart sdBleGapAdvStart Softdevice.start Beacon.start
  by_cases ha : a.start = nrfSuccess
  · by_cases hset : w.mAdvHandle = bleGapAdvSetHandleNotSet
    · rw [if_pos hset] at hh
      simp only [ha, ne_eq, not_true_eq_false, if_false, hnothing.mpr hset, if_true, hh,
        reduceCtorEq, false_and, Softdevice.refusal, true_and]
      exact ⟨rfl, honAir, by simp [hset], fun d h => by simp at h⟩
    · rw [if_neg hset] at hh
      have hloaded : b.loaded ≠ .nothing := fun h => hset (hnothing.mp h)
      cases hadv : w.softdevice.advertising with
      | false =>
        rw [hadv] at honAir
        simp only [ha, ne_eq, not_true_eq_false, if_false, hloaded, honAir, hh, hadv, and_self,
          if_true, Bool.false_eq_true]
        exact ⟨rfl, rfl, rfl, hnothing, hintact⟩
      | true =>
        rw [hadv] at honAir
        simp only [ha, ne_eq, not_true_eq_false, if_false, hloaded, honAir, hh, hadv, true_and,
          Bool.true_eq_false, if_true, Softdevice.refusal]
        exact ⟨rfl, by rw [hadv], hnothing, hintact⟩
  · simp only [ne_eq, ha, not_false_eq_true, if_true, true_and]
    exact ⟨rfl, honAir, hnothing, hintact⟩

/-- A stop, over a SoftDevice that keeps to its contract. -/
theorem represents_stop {w : World} {b : Beacon} (hw : Consistent w) (hb : Represents w b)
    {a : Answers} (hl : a.stop ≠ nrfSuccess → ¬ w.softdevice.OnAir w.mAdvHandle) :
    (b.stop a.stop).1 = (hubbleAdvertiserStop a w).1 ∧
      Represents (hubbleAdvertiserStop a w).2 (b.stop a.stop).2 := by
  obtain ⟨hwanted, honAir, hnothing, hintact⟩ := hb
  unfold hubbleAdvertiserStop Beacon.stop
  by_cases hset : w.mAdvHandle = bleGapAdvSetHandleNotSet
  · rw [if_pos hset, if_pos (hnothing.mpr hset)]
    exact ⟨rfl, hwanted, honAir, hnothing, hintact⟩
  · have hloaded : b.loaded ≠ .nothing := fun h => hset (hnothing.mp h)
    have hair : w.softdevice.OnAir w.mAdvHandle ↔ w.softdevice.advertising = true :=
      ⟨fun h => h.2, hw.onAir⟩
    rw [if_neg hset, if_neg hloaded]
    unfold sdBleGapAdvStop Softdevice.stop
    by_cases ha : a.stop = nrfSuccess
    · cases hadv : w.softdevice.advertising with
      | true =>
        rw [hadv] at honAir
        simp only [ha, ne_eq, not_true_eq_false, if_false, honAir, if_true, hair, hadv]
        exact ⟨rfl, rfl, rfl, hnothing, hintact⟩
      | false =>
        rw [hadv] at honAir
        simp only [ha, ne_eq, not_true_eq_false, if_false, honAir, hair, hadv,
          Bool.false_eq_true, Softdevice.refusal, hw.handle_eq hset, if_true, true_and]
        exact ⟨rfl, by rw [hadv], hnothing, hintact⟩
    · have hadv : w.softdevice.advertising = false := by
        have := mt hair.mpr (hl ha)
        simpa using this
      simp only [ne_eq, ha, not_false_eq_true, if_true, true_and]
      exact ⟨rfl, hadv.symm, hnothing, hintact⟩

/-- The service data a successful refresh reports. -/
theorem refresh_generated {w w' : World} {e : Event} {r : Report} {g : Generation} {a : Answers}
    (hn : advertiser.next w e = some (r, w')) (he : e.refresh? = some (g, a)) (hret : g.ret = 0) :
    r.generated = some (g.output w.hubbleAdvBuffer) := by
  obtain ⟨c, data, rfl, hp, rfl⟩ := Event.refresh?_eq_some.mp he
  obtain ⟨-, rfl⟩ := advertiser_call.mp hn
  simp [Call.generated, Call.generation?, hp, hret]

/-- A refresh: the four ways of an update. -/
theorem represents_refresh {w w' : World} {b : Beacon} {e : Event} {r : Report} {g : Generation}
    {a : Answers} (hw : Safe w) (hb : Represents w b)
    (hn : lawfulAdvertiser.next w e = some (r, w')) (he : e.refresh? = some (g, a)) :
    (b.refresh (refreshOutcome g a r.generated)).1 = r.ret ∧
      Represents w' (b.refresh (refreshOutcome g a r.generated)).2 := by
  obtain ⟨hwanted, honAir, hnothing, hintact⟩ := hb
  have hgenerated := refresh_generated (Mealy.restrict_next.mp hn).2 he
  have hassigned {h : UInt8} {d : List UInt8} (hh : h ≠ bleGapAdvSetHandleNotSet) :
      Loaded.intact d = .nothing ↔ h = bleGapAdvSetHandleNotSet :=
    ⟨(fun hd => nomatch hd), fun h => absurd h hh⟩
  have hpacket (p : GapAdvParams) (d : List UInt8)
      (hd : Loaded.intact (g.output w.hubbleAdvBuffer) = .intact d) :
      (({ w.fresh with mGapParams := p } : World).loaded g).hubbleAdvBuffer.prefixBytes g.advLen =
        advertisement d := by
    cases hd
    exact loaded_packet (w := { w.fresh with mGapParams := p }) hw.framed g
  obtain ⟨p, h1 | h2 | h3 | h4⟩ := refresh_next hw hn he
  · obtain ⟨hret, hr, rfl⟩ := h1
    rw [refreshOutcome, if_pos hret, hr, Beacon.refresh]
    cases hclean : g.writes.isEmpty with
    | true =>
      have hsame : w.hubbleAdvBuffer.writeAll g.writes = w.hubbleAdvBuffer := by
        rw [List.isEmpty_iff.mp hclean]
        rfl
      refine ⟨rfl, hwanted, honAir, hnothing, fun d hd => ?_⟩
      rw [← hintact d hd, World.transmitted, World.scribbled]
      exact congrArg (AdvBuffer.prefixBytes · _) hsame
    | false =>
      exact ⟨rfl, hwanted, honAir, Loaded.tear_eq_nothing.trans hnothing,
        fun d hd => absurd hd (Loaded.tear_ne_intact _ d)⟩
  · obtain ⟨hret, hconf, hr, rfl⟩ := h2
    rw [refreshOutcome, if_neg (not_not.mpr hret), if_pos hconf, hr, Beacon.refresh]
    refine ⟨rfl, ?_, rfl, Loaded.tear_eq_nothing.trans hnothing,
      fun d hd => absurd hd (Loaded.tear_ne_intact _ d)⟩
    show (b.wanted && decide (b.loaded = .nothing)) =
      (w.mStarted && decide (w.mAdvHandle = bleGapAdvSetHandleNotSet))
    rw [hwanted, decide_eq_decide.mpr hnothing]
  · obtain ⟨hret, hconf, hs, hr, rfl⟩ := h3
    rw [refreshOutcome, if_neg (not_not.mpr hret), if_neg (not_not.mpr hconf), hr,
      hgenerated hret, Option.getD_some, Beacon.refresh, hwanted, hs]
    refine ⟨rfl, ?_, rfl, hassigned (World.assignedHandle_ne a _), hpacket p⟩
    show false = (w.mStarted && decide (w.mAdvHandle = bleGapAdvSetHandleNotSet))
    rw [hs, Bool.false_and]
  · obtain ⟨hret, hconf, hs, hr, rfl⟩ := h4
    rw [refreshOutcome, if_neg (not_not.mpr hret), if_neg (not_not.mpr hconf), hr,
      hgenerated hret, Option.getD_some, Beacon.refresh, hwanted, hs, Bool.true_and]
    exact ⟨rfl, rfl, rfl, hassigned (World.assignedHandle_ne a _), hpacket p⟩

/-- **The advertiser refines the beacon**, over a SoftDevice that keeps to its contract. -/
theorem beacon_simulation :
    Mealy.Simulation lawfulAdvertiser beacon Represents beaconSteps where
  init := represents_boot
  next := by
    intro w b e r w' hreach hb hn
    have hw := reachable_safe hreach
    cases e with
    | advSetTerminated =>
      exact absurd (Mealy.restrict_next.mp hn).2 hw.no_termination
    | call c a =>
      cases hg : c.generation? a with
      | some g =>
        have he : (Event.call c a).refresh? = some (g, a) := by simp [Event.refresh?, hg]
        obtain ⟨hret, hb'⟩ := represents_refresh hw hb hn he
        simp only [beaconSteps, hg]
        exact ⟨_, Mealy.RunFrom.nil.snoc (by rw [← hret]; rfl), hb'⟩
      | none =>
        have hp : c.payload? = none := by simpa [Call.generation?] using hg
        obtain ⟨hl, hn⟩ := Mealy.restrict_next.mp hn
        obtain ⟨rfl, rfl⟩ := advertiser_call.mp hn
        simp only [beaconSteps, hg]
        rcases Call.payload?_eq_none hp with rfl | rfl | rfl
        · obtain ⟨hret, hb'⟩ := represents_start hw.toConsistent.fresh hb.fresh a
          exact ⟨_, Mealy.RunFrom.nil.snoc (by rw [Call.exec, ← hret]; rfl), hb'⟩
        · obtain ⟨hret, hb'⟩ := represents_stop hw.toConsistent.fresh hb.fresh hl
          exact ⟨_, Mealy.RunFrom.nil.snoc (by rw [Call.exec, ← hret]; rfl), hb'⟩
        · exact ⟨b, Mealy.RunFrom.nil.snoc rfl, hb.fresh⟩

/-- **Every run of the advertiser is a run of the beacon**, with the same return values, and ends in
a world that stands for the beacon's last state. -/
theorem advertiser_refines_beacon {h : List (Event × Report)} {w : World}
    (hr : lawfulAdvertiser.Run h w) : ∃ b, beacon.Run (h.flatMap beaconSteps) b ∧ Represents w b :=
  beacon_simulation.run hr

/-- A failed configuration switches the beacon off, and a refresh that succeeds leaves it so. -/
theorem advertiser_refines_beacon_silenced :
    ∃ h w b, lawfulAdvertiser.Run h w ∧
      h.map Prod.fst = [.call (.init (some ⟨500, 500⟩)) .storing, .call .start .storing,
        .call (.updateData [0x33]) { Answers.storing with configure := nrfErrorNoMem },
        .call (.updateData [0x36]) .storing] ∧
      beacon.Run (h.flatMap beaconSteps) b ∧ Represents w b ∧ b.wanted = false := by
  have hrun : ∃ h w, lawfulAdvertiser.Run h w ∧
      h.map Prod.fst = [.call (.init (some ⟨500, 500⟩)) .storing, .call .start .storing,
        .call (.updateData [0x33]) { Answers.storing with configure := nrfErrorNoMem },
        .call (.updateData [0x36]) .storing] ∧ w.mStarted = false :=
    ⟨_, _, Mealy.runFrom_of_exec (M := lawfulAdvertiser) (s := .boot)
      (l := [.call (.init (some ⟨500, 500⟩)) .storing, .call .start .storing,
        .call (.updateData [0x33]) { Answers.storing with configure := nrfErrorNoMem },
        .call (.updateData [0x36]) .storing]) rfl, rfl, rfl⟩
  obtain ⟨h, w, hr, hcalls, hstarted⟩ := hrun
  obtain ⟨b, hb, hrep⟩ := advertiser_refines_beacon hr
  exact ⟨h, w, b, hr, hcalls, hb, hrep, hrep.wanted.trans hstarted⟩

/-! ### Refreshes with the switch on -/

namespace RefreshOutcome

/-- The set was configured. -/
def Configures : RefreshOutcome → Prop
  | .configured _ _ => True
  | _ => False

/-- An advertisement was generated, but the set was not configured. -/
def Lapses : RefreshOutcome → Prop
  | .unconfigured _ => True
  | _ => False

/-- The generator refused, with or without having written anything. -/
def refuses : RefreshOutcome → Bool
  | .refused _ _ => true
  | _ => false

end RefreshOutcome

/-- No refresh lapses once one has configured the set. -/
def Unlapsed (os : List RefreshOutcome) : Prop := os.Pairwise fun o o' => o.Configures → ¬ o'.Lapses

/-- The last refresh the generator did not refuse. -/
def lastAttempt (os : List RefreshOutcome) : Option RefreshOutcome :=
  (os.filter fun o => !o.refuses).getLast?

namespace Beacon

/-- A beacon switched on before it is ever loaded, after refreshes that went as `os` says. -/
def refreshed (os : List RefreshOutcome) : Beacon :=
  os.foldl (fun b o => (b.refresh o).2) ⟨.nothing, true, false⟩

theorem refreshed_snoc (os : List RefreshOutcome) (o : RefreshOutcome) :
    refreshed (os ++ [o]) = ((refreshed os).refresh o).2 := by
  simp [refreshed, List.foldl_append]

theorem unlapsed_snoc (os : List RefreshOutcome) (o : RefreshOutcome) :
    Unlapsed (os ++ [o]) ↔ Unlapsed os ∧ ∀ o' ∈ os, o'.Configures → ¬ o.Lapses := by
  simp [Unlapsed, List.pairwise_append]

theorem lastAttempt_snoc (os : List RefreshOutcome) (o : RefreshOutcome) :
    lastAttempt (os ++ [o]) = if o.refuses then lastAttempt os else some o := by
  cases h : o.refuses <;> simp [lastAttempt, List.filter_append, h]

/-- What the refreshes have come to, read off their outcomes. -/
structure Tallies (b : Beacon) (os : List RefreshOutcome) : Prop where
  loaded : b.loaded = .nothing ↔ ∀ o ∈ os, ¬ o.Configures
  wanted : b.wanted = true ↔ Unlapsed os
  onAir : b.onAir = true ↔
    Unlapsed os ∧ ∃ d, lastAttempt os = some (.configured d nrfSuccess)

/-- One refresh. -/
theorem Tallies.refresh {b : Beacon} {os : List RefreshOutcome} (hb : b.Tallies os)
    (o : RefreshOutcome) : (b.refresh o).2.Tallies (os ++ [o]) := by
  obtain ⟨hloaded, hwanted, honAir⟩ := hb
  cases o with
  | refused err clean =>
    have hun : Unlapsed (os ++ [.refused err clean]) ↔ Unlapsed os := by
      simp [unlapsed_snoc, RefreshOutcome.Lapses]
    have hlast : lastAttempt (os ++ [.refused err clean]) = lastAttempt os := by
      simp [lastAttempt_snoc, RefreshOutcome.refuses]
    have hconf : (∀ o ∈ os ++ [.refused err clean], ¬ o.Configures) ↔
        ∀ o ∈ os, ¬ o.Configures := by
      simp [or_imp, forall_and, RefreshOutcome.Configures]
    cases clean with
    | true =>
      exact ⟨hloaded.trans hconf.symm, hwanted.trans hun.symm, by rw [hun, hlast]; exact honAir⟩
    | false =>
      refine ⟨?_, hwanted.trans hun.symm, by rw [hun, hlast]; exact honAir⟩
      exact Loaded.tear_eq_nothing.trans (hloaded.trans hconf.symm)
  | unconfigured err =>
    have hconf : (∀ o ∈ os ++ [.unconfigured err], ¬ o.Configures) ↔ ∀ o ∈ os, ¬ o.Configures := by
      simp [or_imp, forall_and, RefreshOutcome.Configures]
    refine ⟨Loaded.tear_eq_nothing.trans (hloaded.trans hconf.symm), ?_, ?_⟩
    · -- the switch survives only where nothing has been loaded yet
      simp only [Beacon.refresh, Bool.and_eq_true, decide_eq_true_eq, hwanted, hloaded]
      rw [unlapsed_snoc]
      simp [RefreshOutcome.Lapses]
    · simp [Beacon.refresh, lastAttempt_snoc, RefreshOutcome.refuses]
  | configured d start =>
    have hun : Unlapsed (os ++ [.configured d start]) ↔ Unlapsed os := by
      simp [unlapsed_snoc, RefreshOutcome.Lapses]
    refine ⟨?_, hwanted.trans hun.symm, ?_⟩
    · simp [Beacon.refresh, or_imp, forall_and, RefreshOutcome.Configures]
    · simp [Beacon.refresh, hwanted, hun, lastAttempt_snoc, RefreshOutcome.refuses]

/-- **Any number of refreshes.** -/
theorem tallies_refreshed (os : List RefreshOutcome) : (refreshed os).Tallies os := by
  induction os using List.reverseRecOn with
  | nil => exact ⟨by simp [refreshed], by simp [refreshed, Unlapsed], by simp [refreshed, lastAttempt]⟩
  | append_singleton os o ih =>
    rw [refreshed_snoc]
    exact ih.refresh o

end Beacon

end HubbleNordic
