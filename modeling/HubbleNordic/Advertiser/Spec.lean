import HubbleNordic.Advertiser.Model

/-!
# What the API calls do

One specification per function, each stated once and used by every result about runs.

* `Consistent`: the facts every API call preserves whatever the SoftDevice answers: the buffer is
  framed, the application and the SoftDevice agree on the handle, only an allocated set advertises,
  and no accepted parameters let a set end by itself;
* `Safe`: in addition, an advertising set is one the flag `m_started` knows of;
* `updateData_spec`: the four ways `hubble_advertiser_update_data` can go from a safe world;
* `safe_exec`: over a SoftDevice that keeps to its contract, every API call keeps a world safe.
-/

namespace HubbleNordic

/-! ### The invariants -/

/-- What holds of every reachable world, under any answers. -/
structure Consistent (w : World) : Prop where
  framed : w.hubbleAdvBuffer.Framed
  handle : w.softdevice.handle =
    if w.mAdvHandle = bleGapAdvSetHandleNotSet then none else some w.mAdvHandle
  allocated : w.softdevice.advertising = true → w.mAdvHandle ≠ bleGapAdvSetHandleNotSet
  gapParams : w.mGapParams.Endless
  params : w.softdevice.params.Endless

/-- A consistent world in which an advertising set is flagged as started. -/
structure Safe (w : World) : Prop extends Consistent w where
  started : w.softdevice.advertising = true → w.mStarted = true

/-- Forgetting the SoftDevice calls recorded so far. -/
def World.fresh (w : World) : World := { w with calls := [] }

theorem consistent_boot : Consistent .boot where
  framed := AdvBuffer.framed_boot
  handle := rfl
  allocated h := nomatch h
  gapParams := ⟨rfl, rfl⟩
  params := ⟨rfl, rfl⟩

theorem safe_boot : Safe .boot := ⟨consistent_boot, fun h => nomatch h⟩

theorem Consistent.fresh {w : World} (hw : Consistent w) : Consistent w.fresh :=
  ⟨hw.framed, hw.handle, hw.allocated, hw.gapParams, hw.params⟩

theorem Safe.fresh {w : World} (hw : Safe w) : Safe w.fresh :=
  ⟨hw.toConsistent.fresh, hw.started⟩

/-- An advertising set is the one the application's handle names. -/
theorem Consistent.onAir {w : World} (hw : Consistent w) (h : w.softdevice.advertising = true) :
    w.softdevice.OnAir w.mAdvHandle :=
  ⟨by rw [hw.handle, if_neg (hw.allocated h)], h⟩

/-- The application's handle names the SoftDevice's set once it is assigned. -/
theorem Consistent.handle_eq {w : World} (hw : Consistent w)
    (h : w.mAdvHandle ≠ bleGapAdvSetHandleNotSet) : w.softdevice.handle = some w.mAdvHandle := by
  rw [hw.handle, if_neg h]

/-! ### The pieces of an update -/

/-- Lines 73 to 75: stop the set if the flag says it is started. -/
def haltIfStarted (a : Answers) (w : World) : World :=
  if w.mStarted then (hubbleAdvertiserStop a w).2 else w

/-- Lines 78 to 90: configure the set and, where asked to, start it again. -/
def configureAndRestart (a : Answers) (len : UInt16) (startAfter : Bool) (w : World) :
    Int32 × World :=
  let (err, w) := sdBleGapAdvSetConfigure a len w
  if err ≠ nrfSuccess then (-err.toInt32, w)
  else (0, if startAfter then (hubbleAdvertiserStart a w).2 else w)

theorem configureAndRestart_false (a : Answers) (len : UInt16) (w : World) :
    (configureAndRestart a len false w).2 = (sdBleGapAdvSetConfigure a len w).2 := by
  by_cases h : (sdBleGapAdvSetConfigure a len w).1 = nrfSuccess <;>
    simp [configureAndRestart, h]

/-- The world after the generator has run. -/
def World.scribbled (g : Generation) (w : World) : World :=
  { w with hubbleAdvBuffer := w.hubbleAdvBuffer.writeAll g.writes }

/-- The world after the length byte has been written as well. -/
def World.loaded (g : Generation) (w : World) : World :=
  { w with
    hubbleAdvBuffer :=
      (w.hubbleAdvBuffer.writeAll g.writes).setLength (UInt8.ofNat (g.outLen.val + 1)) }

/-- The length of the advertisement a generator run makes: `out_len + 6`. -/
def Generation.advLen (g : Generation) : UInt16 := UInt16.ofNat (g.outLen.val + 6)

theorem Generation.advLen_toNat (g : Generation) : g.advLen.toNat = g.outLen.val + 6 := by
  have hlen := g.outLen_le
  refine UInt16.toNat_ofNat_of_lt' ?_
  simp only [outCapacity, bleGapAdvSetDataSizeMax, UInt16.size] at *
  omega

/-- The update, cut at the generator's return and at the inner stop. -/
theorem updateData_eq (a : Answers) (data : List UInt8) (w : World) :
    hubbleAdvertiserUpdateData a data w =
      if (a.advertiseGet data).ret ≠ 0 then
        ((a.advertiseGet data).ret, w.scribbled (a.advertiseGet data))
      else configureAndRestart a (a.advertiseGet data).advLen w.mStarted
        (haltIfStarted a (w.loaded (a.advertiseGet data))) := by
  by_cases h : (a.advertiseGet data).ret ≠ 0
  · rw [if_pos h]
    exact if_pos h
  · rw [if_neg h]
    exact if_neg h

/-! ### Stopping before a reconfiguration -/

/-- The SoftDevice call of the inner stop, if it comes to one. -/
def haltCalls (a : Answers) (w : World) : List SdCall :=
  if w.mStarted = true ∧ w.mAdvHandle ≠ bleGapAdvSetHandleNotSet then
    [.stop w.softdevice w.mAdvHandle (w.softdevice.stop a.stop w.mAdvHandle).1]
  else []

/-- The world after the inner stop: the set is idle, and the flag survives only where there is no
handle to stop. -/
def World.halted (a : Answers) (w : World) : World :=
  { w with
    mStarted := w.mStarted && decide (w.mAdvHandle = bleGapAdvSetHandleNotSet)
    softdevice := w.softdevice.idle
    calls := w.calls ++ haltCalls a w }

/-- What `sd_ble_gap_adv_stop` leaves behind when it keeps to its contract: an idle set. -/
theorem Softdevice.stop_idle {sd : Softdevice} {answer : UInt32} {h : UInt8}
    (hon : sd.advertising = true → sd.OnAir h) (hl : answer ≠ nrfSuccess → ¬ sd.OnAir h) :
    (sd.stop answer h).2 = sd.idle := by
  rcases sd.stop_cases answer h with ⟨-, -, he⟩ | ⟨hno, err, -, he⟩
  · rw [he]
    rfl
  · rw [he]
    have hidle : sd.advertising = false := by
      by_contra hadv
      have hadv := hon (by simpa using hadv)
      by_cases ha : answer = nrfSuccess
      · exact hno ha hadv
      · exact hl ha hadv
    exact (idle_eq hidle).symm

theorem haltIfStarted_eq {a : Answers} {w : World} (hw : Safe w)
    (hl : a.stop ≠ nrfSuccess → ¬ w.softdevice.OnAir w.mAdvHandle) :
    haltIfStarted a w = w.halted a := by
  have hstop := Softdevice.stop_idle hw.onAir hl
  have hstarted := hw.started
  have hallocated := hw.allocated
  obtain ⟨buffer, handle, params, started, sd, calls⟩ := w
  cases started with
  | false =>
    have hidle : sd.advertising = false := by
      by_contra h
      exact absurd (hstarted (by simpa using h)) (by simp)
    simp [haltIfStarted, World.halted, haltCalls, Softdevice.idle_eq hidle]
  | true =>
    by_cases hh : handle = bleGapAdvSetHandleNotSet
    · have hidle : sd.advertising = false := by
        by_contra h
        exact hallocated (by simpa using h) hh
      simp [haltIfStarted, World.halted, haltCalls, hubbleAdvertiserStop, hh,
        Softdevice.idle_eq hidle]
    · simp only at hstop
      simp [haltIfStarted, World.halted, haltCalls, hubbleAdvertiserStop, sdBleGapAdvStop, hh,
        hstop]

/-! ### Configuring an idle set -/

/-- The handle after a successful configuration. -/
def World.assignedHandle (a : Answers) (w : World) : UInt8 :=
  if w.mAdvHandle = bleGapAdvSetHandleNotSet then a.newHandle else w.mAdvHandle

theorem World.assignedHandle_ne (a : Answers) (w : World) :
    w.assignedHandle a ≠ bleGapAdvSetHandleNotSet := by
  unfold assignedHandle
  split_ifs with h
  · exact a.newHandle.2
  · exact h

/-- The world after a successful configuration with the length `len`. -/
def World.configured (a : Answers) (len : UInt16) (w : World) : World :=
  { w with
    mAdvHandle := w.assignedHandle a
    softdevice := ⟨some (w.assignedHandle a), len, w.mGapParams, false⟩
    calls := w.calls ++
      [.configure w.softdevice w.mAdvHandle w.hubbleAdvBuffer len nrfSuccess] }

/-- The world after a failed configuration. -/
def World.unconfigured (a : Answers) (len : UInt16) (w : World) : World :=
  { w with
    calls := w.calls ++ [.configure w.softdevice w.mAdvHandle w.hubbleAdvBuffer len a.configure] }

/-- The world after `hubble_advertiser_start` on an idle, allocated set. -/
def World.restarted (a : Answers) (w : World) : World :=
  { w with
    mStarted := true
    softdevice := { w.softdevice with advertising := decide (a.start = nrfSuccess) }
    calls := w.calls ++ [.start w.softdevice w.mAdvHandle a.start] }

/-- On an idle set `sd_ble_gap_adv_set_configure` returns the answer it was given. -/
theorem sdBleGapAdvSetConfigure_eq {a : Answers} {w : World} (len : UInt16) (hw : Consistent w)
    (hidle : w.softdevice.advertising = false) :
    sdBleGapAdvSetConfigure a len w =
      if a.configure ≠ nrfSuccess then (a.configure, w.unconfigured a len)
      else (nrfSuccess, w.configured a len) := by
  have hh := hw.handle
  unfold sdBleGapAdvSetConfigure Softdevice.configure World.configured World.assignedHandle
    World.unconfigured
  split_ifs at hh ⊢ with h1 h2 <;> simp_all

/-- A configuration of an idle set that may succeed does. -/
theorem configure_succeeds {a : Answers} {w : World} (len : UInt16) (hw : Consistent w)
    (hidle : w.softdevice.advertising = false) (ha : a.configure = nrfSuccess) :
    sdBleGapAdvSetConfigure a len w = (nrfSuccess, w.configured a len) := by
  rw [sdBleGapAdvSetConfigure_eq len hw hidle, if_neg (not_not.mpr ha)]

/-- Starting an idle, allocated set returns the answer it was given. -/
theorem hubbleAdvertiserStart_eq {a : Answers} {w : World}
    (hh : w.softdevice.handle = some w.mAdvHandle) (hidle : w.softdevice.advertising = false) :
    hubbleAdvertiserStart a w = (-a.start.toInt32, w.restarted a) := by
  unfold hubbleAdvertiserStart sdBleGapAdvStart Softdevice.start World.restarted
  by_cases h : a.start = nrfSuccess
  · simp [h, hh, hidle]
  · simp [h, ← hidle]

/-! ### The worlds an update passes through -/

theorem Safe.scribbled {w : World} (hw : Safe w) (g : Generation) : Safe (w.scribbled g) :=
  ⟨⟨hw.framed.writeAll g.writes, hw.handle, hw.allocated, hw.gapParams, hw.params⟩, hw.started⟩

theorem Safe.loaded {w : World} (hw : Safe w) (g : Generation) : Safe (w.loaded g) :=
  ⟨⟨(hw.framed.writeAll g.writes).setLength _, hw.handle, hw.allocated, hw.gapParams, hw.params⟩,
    hw.started⟩

theorem Safe.halted {w : World} (hw : Safe w) (a : Answers) : Safe (w.halted a) :=
  ⟨⟨hw.framed, hw.handle, (fun h => nomatch h), hw.gapParams, hw.params⟩, fun h => nomatch h⟩

theorem Safe.unconfigured {w : World} (hw : Safe w) (a : Answers) (len : UInt16) :
    Safe (w.unconfigured a len) :=
  ⟨⟨hw.framed, hw.handle, hw.allocated, hw.gapParams, hw.params⟩, hw.started⟩

theorem Safe.configured {w : World} (hw : Safe w) (a : Answers) (len : UInt16) :
    Safe (w.configured a len) :=
  ⟨⟨hw.framed, by simp [World.configured, w.assignedHandle_ne a], (fun h => nomatch h),
    hw.gapParams, hw.gapParams⟩, fun h => nomatch h⟩

theorem Safe.restarted {w : World} (hw : Safe w) (a : Answers)
    (hh : w.mAdvHandle ≠ bleGapAdvSetHandleNotSet) : Safe (w.restarted a) :=
  ⟨⟨hw.framed, hw.handle, fun _ => hh, hw.gapParams, hw.params⟩, fun _ => rfl⟩

/-! ### The update as a whole -/

/-- The world an update hands to `sd_ble_gap_adv_set_configure`: loaded and halted. -/
def World.ready (a : Answers) (g : Generation) (w : World) : World := (w.loaded g).halted a

theorem Safe.ready {w : World} (hw : Safe w) (a : Answers) (g : Generation) :
    Safe (w.ready a g) := (hw.loaded g).halted a

/-- **What an update does**: the generator fails; or it succeeds and the configuration fails; or
the set is configured and left idle; or it is configured and started again. -/
theorem updateData_spec {a : Answers} {data : List UInt8} {w : World} (hw : Safe w)
    (hl : a.stop ≠ nrfSuccess → ¬ w.softdevice.OnAir w.mAdvHandle) {g : Generation}
    (hg : a.advertiseGet data = g) :
    (g.ret ≠ 0 ∧ hubbleAdvertiserUpdateData a data w = (g.ret, w.scribbled g)) ∨
    (g.ret = 0 ∧ a.configure ≠ nrfSuccess ∧
      hubbleAdvertiserUpdateData a data w =
        (-a.configure.toInt32, (w.ready a g).unconfigured a g.advLen)) ∨
    (g.ret = 0 ∧ a.configure = nrfSuccess ∧ w.mStarted = false ∧
      hubbleAdvertiserUpdateData a data w = (0, (w.ready a g).configured a g.advLen)) ∨
    (g.ret = 0 ∧ a.configure = nrfSuccess ∧ w.mStarted = true ∧
      hubbleAdvertiserUpdateData a data w =
        (0, ((w.ready a g).configured a g.advLen).restarted a)) := by
  subst hg
  rw [updateData_eq]
  by_cases hret : (a.advertiseGet data).ret = 0
  · right
    have hready := hw.ready a (a.advertiseGet data)
    rw [if_neg (by simpa using hret), haltIfStarted_eq (hw.loaded _) hl]
    have hconf := sdBleGapAdvSetConfigure_eq (a := a) (a.advertiseGet data).advLen
      hready.toConsistent rfl
    simp only [World.ready] at hconf
    simp only [configureAndRestart, hconf, World.ready, hret, true_and]
    by_cases hc : a.configure = nrfSuccess
    · right
      cases hs : w.mStarted with
      | false => simp [hc]
      | true =>
        have hstart := hubbleAdvertiserStart_eq (a := a)
          (w := (w.ready a (a.advertiseGet data)).configured a (a.advertiseGet data).advLen)
          rfl rfl
        simp only [World.ready] at hstart
        simp [hc, hstart]
    · left
      simp [hc]
  · exact Or.inl ⟨hret, by rw [if_pos hret]⟩

/-! ### Every call keeps the invariants -/

/-- A refresh is an update, made after `hubble_advertiser_init` has set the parameters. -/
theorem Call.exec_refresh {c : Call} {data : List UInt8} (hc : c.payload? = some data)
    (a : Answers) (w : World) :
    ∃ p : GapAdvParams, (w.mGapParams.Endless → p.Endless) ∧
      c.exec a w = hubbleAdvertiserUpdateData a data { w with mGapParams := p } := by
  cases c with
  | init config =>
    cases config with
    | none => simp [payload?] at hc
    | some config =>
      simp only [payload?, Option.some.injEq] at hc
      subst hc
      exact ⟨_, fun _ => ⟨rfl, rfl⟩, rfl⟩
  | updateData d =>
    simp only [payload?, Option.some.injEq] at hc
    subst hc
    exact ⟨w.mGapParams, id, rfl⟩
  | start => simp [payload?] at hc
  | stop => simp [payload?] at hc

/-- A call that is not a refresh is a start, a stop, or refused for its null pointer. -/
theorem Call.payload?_eq_none {c : Call} (hc : c.payload? = none) :
    c = .start ∨ c = .stop ∨ c = .init none := by
  cases c with
  | init config =>
    cases config with
    | none => simp
    | some config => simp [payload?] at hc
  | updateData d => simp [payload?] at hc
  | start => simp
  | stop => simp

theorem Consistent.withParams {w : World} (hw : Consistent w) {p : GapAdvParams}
    (hp : w.mGapParams.Endless → p.Endless) : Consistent { w with mGapParams := p } :=
  ⟨hw.framed, hw.handle, hw.allocated, hp hw.gapParams, hw.params⟩

theorem Safe.withParams {w : World} (hw : Safe w) {p : GapAdvParams}
    (hp : w.mGapParams.Endless → p.Endless) : Safe { w with mGapParams := p } :=
  ⟨hw.toConsistent.withParams hp, hw.started⟩

theorem consistent_start {w : World} (hw : Consistent w) (a : Answers) :
    Consistent (hubbleAdvertiserStart a w).2 := by
  rcases w.softdevice.start_cases a.start w.mAdvHandle with ⟨-, hh, -, he⟩ | ⟨err, -, he⟩ <;>
    simp only [hubbleAdvertiserStart, sdBleGapAdvStart, he]
  · refine ⟨hw.framed, hw.handle, fun _ hn => ?_, hw.gapParams, hw.params⟩
    have hnone := hw.handle
    rw [if_pos hn, hh] at hnone
    exact nomatch hnone
  · exact ⟨hw.framed, hw.handle, hw.allocated, hw.gapParams, hw.params⟩

theorem consistent_stop {w : World} (hw : Consistent w) (a : Answers) :
    Consistent (hubbleAdvertiserStop a w).2 := by
  unfold hubbleAdvertiserStop
  split_ifs with hh
  · exact hw
  · rcases w.softdevice.stop_cases a.stop w.mAdvHandle with ⟨-, -, he⟩ | ⟨-, err, -, he⟩ <;>
      simp only [sdBleGapAdvStop, he]
    · exact ⟨hw.framed, hw.handle, (fun h => nomatch h), hw.gapParams, hw.params⟩
    · exact ⟨hw.framed, hw.handle, hw.allocated, hw.gapParams, hw.params⟩

theorem consistent_configure {w : World} (hw : Consistent w) (a : Answers) (len : UInt16) :
    Consistent (sdBleGapAdvSetConfigure a len w).2 := by
  rcases w.softdevice.configure_cases a.configure a.newHandle w.mAdvHandle len w.mGapParams with
    ⟨-, -, he⟩ | ⟨-, -, he⟩ | ⟨err, -, he⟩ <;> simp only [sdBleGapAdvSetConfigure, he]
  · exact ⟨hw.framed, (if_neg a.newHandle.2).symm, fun _ => a.newHandle.2, hw.gapParams,
      hw.gapParams⟩
  · exact ⟨hw.framed, hw.handle, hw.allocated, hw.gapParams, hw.gapParams⟩
  · exact ⟨hw.framed, hw.handle, hw.allocated, hw.gapParams, hw.params⟩

theorem consistent_updateData {w : World} (hw : Consistent w) (a : Answers)
    (data : List UInt8) : Consistent (hubbleAdvertiserUpdateData a data w).2 := by
  rw [updateData_eq]
  split_ifs with hret
  · exact ⟨hw.framed.writeAll _, hw.handle, hw.allocated, hw.gapParams, hw.params⟩
  · have hloaded : Consistent (w.loaded (a.advertiseGet data)) :=
      ⟨(hw.framed.writeAll _).setLength _, hw.handle, hw.allocated, hw.gapParams, hw.params⟩
    have hhalt : Consistent (haltIfStarted a (w.loaded (a.advertiseGet data))) := by
      unfold haltIfStarted
      split_ifs
      · exact consistent_stop hloaded a
      · exact hloaded
    have hconf := consistent_configure hhalt a (a.advertiseGet data).advLen
    unfold configureAndRestart
    dsimp only
    split_ifs
    · exact hconf
    · exact consistent_start hconf a
    · exact hconf

/-- **Every call keeps a world consistent**, whatever the answers. -/
theorem consistent_exec {w : World} (hw : Consistent w) (c : Call) (a : Answers) :
    Consistent (c.exec a w).2 := by
  cases hc : c.payload? with
  | some data =>
    obtain ⟨p, hp, he⟩ := c.exec_refresh hc a w
    rw [he]
    exact consistent_updateData (hw.withParams hp) a data
  | none =>
    rcases Call.payload?_eq_none hc with rfl | rfl | rfl
    · exact consistent_start hw a
    · exact consistent_stop hw a
    · exact hw

theorem safe_start {w : World} (hw : Safe w) (a : Answers) :
    Safe (hubbleAdvertiserStart a w).2 := ⟨consistent_start hw.toConsistent a, fun _ => rfl⟩

theorem safe_stop {w : World} (hw : Safe w) {a : Answers}
    (hl : a.stop ≠ nrfSuccess → ¬ w.softdevice.OnAir w.mAdvHandle) :
    Safe (hubbleAdvertiserStop a w).2 := by
  refine ⟨consistent_stop hw.toConsistent a, ?_⟩
  have hstop := Softdevice.stop_idle hw.onAir hl
  unfold hubbleAdvertiserStop sdBleGapAdvStop
  split_ifs with hh
  · exact hw.started
  · simp [hstop, Softdevice.idle]

theorem safe_updateData {w : World} (hw : Safe w) {a : Answers}
    (hl : a.stop ≠ nrfSuccess → ¬ w.softdevice.OnAir w.mAdvHandle) (data : List UInt8) :
    Safe (hubbleAdvertiserUpdateData a data w).2 := by
  have hready := hw.ready a (a.advertiseGet data)
  rcases updateData_spec hw hl (g := a.advertiseGet data) rfl with
    ⟨-, he⟩ | ⟨-, -, he⟩ | ⟨-, -, -, he⟩ | ⟨-, -, -, he⟩ <;> rw [he]
  · exact hw.scribbled _
  · exact hready.unconfigured a _
  · exact hready.configured a _
  · exact (hready.configured a _).restarted a (World.assignedHandle_ne a _)

/-- **Every call keeps a world safe** over a SoftDevice that keeps to its contract. -/
theorem safe_exec {w : World} (hw : Safe w) {c : Call} {a : Answers}
    (hl : a.stop ≠ nrfSuccess → ¬ w.softdevice.OnAir w.mAdvHandle) : Safe (c.exec a w).2 := by
  cases hc : c.payload? with
  | some data =>
    obtain ⟨p, hp, he⟩ := c.exec_refresh hc a w
    rw [he]
    exact safe_updateData (hw.withParams hp) hl data
  | none =>
    rcases Call.payload?_eq_none hc with rfl | rfl | rfl
    · exact safe_start hw a
    · exact safe_stop hw hl
    · exact hw

/-! ### Runs -/

/-- The step of an API call. -/
theorem advertiser_call {w w' : World} {c : Call} {a : Answers} {r : Report} :
    advertiser.next w (.call c a) = some (r, w') ↔
      (c.exec a w.fresh).2 = w' ∧ r = ⟨(c.exec a w.fresh).1, w'.calls, c.generated a w⟩ := by
  simp only [advertiser, World.fresh, Option.some.injEq, Prod.mk.injEq]
  constructor
  · rintro ⟨rfl, rfl⟩
    exact ⟨rfl, rfl⟩
  · rintro ⟨rfl, rfl⟩
    exact ⟨rfl, rfl⟩

/-- The set never ends by itself. -/
theorem Consistent.no_termination {w w' : World} {r : Report} (hw : Consistent w) :
    advertiser.next w .advSetTerminated ≠ some (r, w') := by
  intro hn
  simp only [advertiser, Option.ite_none_right_eq_some] at hn
  exact hn.1.2 hw.params

/-- Every reachable world is consistent. -/
theorem reachable_consistent {w : World} (hr : advertiser.Reachable w) : Consistent w := by
  refine Mealy.reachable_invariant consistent_boot (fun w e r w' hw hn => ?_) hr
  cases e with
  | call c a =>
    obtain ⟨rfl, -⟩ := advertiser_call.mp hn
    exact consistent_exec hw.fresh c a
  | advSetTerminated =>
    exact absurd hn hw.no_termination

/-- Every world reachable over a SoftDevice that keeps to its contract is safe. -/
theorem reachable_safe {w : World} (hr : lawfulAdvertiser.Reachable w) : Safe w := by
  refine Mealy.reachable_invariant safe_boot (fun w e r w' hw hn => ?_) hr
  obtain ⟨hl, hn⟩ := Mealy.restrict_next.mp hn
  cases e with
  | call c a =>
    obtain ⟨rfl, -⟩ := advertiser_call.mp hn
    exact safe_exec hw.fresh hl
  | advSetTerminated =>
    exact absurd hn hw.no_termination

end HubbleNordic
