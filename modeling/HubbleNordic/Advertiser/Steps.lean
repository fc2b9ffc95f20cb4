import HubbleNordic.Advertiser.Spec

/-!
# The API calls, step by step

The functions of `hubble_advertiser.c` cut at every access to state that another party may see or
change: each byte the generator stores, the length byte, each read and write of `m_started`, and each
SoftDevice call.

* `Pc`, `Call.enter`, `advStep`: where a call stands, where it starts, and its next step;
* `Pc.finish`: what is left of the call from there; `finish_step` and `finish_enter`: the steps of a
  call, together, do what the call does;
* `call_completes`: every call returns, after finitely many steps, with the value and the world of
  `Call.exec`;
* `Midway`: the worlds an update passes through when every call it makes succeeds;
  `Midway.step`: one step of such an update.
-/

namespace HubbleNordic

/-- Who has called `hubble_advertiser_start` or `hubble_advertiser_stop`: the application, or an
update with its generator run and its `start_after`. -/
inductive Caller
  | api
  | update (g : Generation) (startAfter : Bool)

/-- Where a call stands, with its local variables. -/
inductive Pc
  /-- Before the assignments to `m_gap_params`. -/
  | params (config : HubbleAdvertiserConfig)
  /-- In the generator, which has stored `k` bytes. -/
  | generate (g : Generation) (k : ℕ)
  /-- Before the length byte is written. -/
  | lengthByte (g : Generation)
  /-- Before `gap_data` is built. -/
  | describe (g : Generation)
  /-- Before `start_after` is read off `m_started`. -/
  | saveStarted (g : Generation)
  /-- Before `m_started` is tested. -/
  | testStarted (g : Generation) (startAfter : Bool)
  /-- Before `m_adv_handle` is tested. -/
  | stopTest (c : Caller)
  /-- Before `m_started` is cleared. -/
  | stopClear (c : Caller)
  /-- Before `sd_ble_gap_adv_stop`. -/
  | stopCall (c : Caller)
  /-- Before `sd_ble_gap_adv_set_configure`. -/
  | configure (g : Generation) (startAfter : Bool)
  /-- Before `m_started` is set. -/
  | startSet (c : Caller)
  /-- Before `sd_ble_gap_adv_start`. -/
  | startCall (c : Caller)
  | returned (ret : Int32)

/-- Where a stop returns to. -/
def Caller.afterStop (ret : Int32) : Caller → Pc
  | .api => .returned ret
  | .update g startAfter => .configure g startAfter

/-- Where a start returns to; an update drops the result and returns 0. -/
def Caller.afterStart (ret : Int32) : Caller → Pc
  | .api => .returned ret
  | .update _ _ => .returned 0

variable (a : Answers)

/-- Where a call starts. -/
def Call.enter : Call → Pc
  | .init none => .returned (-einval)
  | .init (some config) => .params config
  | .start => .startSet .api
  | .stop => .stopTest .api
  | .updateData data => .generate (a.advertiseGet data) 0

/-- The next step of a call. -/
def advStep (w : World) : Pc → World × Pc
  | .params config => (initGapParams config w, .generate (a.advertiseGet []) 0)
  | .generate g k =>
      match g.writes[k]? with
      | some b => ({ w with hubbleAdvBuffer := w.hubbleAdvBuffer.writeOut b }, .generate g (k + 1))
      | none => (w, if g.ret ≠ 0 then .returned g.ret else .lengthByte g)
  | .lengthByte g =>
      ({ w with
        hubbleAdvBuffer := w.hubbleAdvBuffer.setLength (UInt8.ofNat (g.outLen.val + 1)) },
        .describe g)
  | .describe g => (w, .saveStarted g)
  | .saveStarted g => (w, .testStarted g w.mStarted)
  | .testStarted g startAfter =>
      (w, if w.mStarted then .stopTest (.update g startAfter) else .configure g startAfter)
  | .stopTest c =>
      (w, if w.mAdvHandle = bleGapAdvSetHandleNotSet then c.afterStop (-eagain) else .stopClear c)
  | .stopClear c => ({ w with mStarted := false }, .stopCall c)
  | .stopCall c =>
      let (err, w) := sdBleGapAdvStop a w
      (w, c.afterStop (-err.toInt32))
  | .configure g startAfter =>
      let (err, w) := sdBleGapAdvSetConfigure a g.advLen w
      -- the error path returns before the restart
      (w, if err ≠ nrfSuccess then .returned (-err.toInt32)
        else if startAfter then .startSet (.update g startAfter) else .returned 0)
  | .startSet c => ({ w with mStarted := true }, .startCall c)
  | .startCall c =>
      let (err, w) := sdBleGapAdvStart a w
      (w, c.afterStart (-err.toInt32))
  | .returned ret => (w, .returned ret)

/-! ### The steps of a call do what the call does -/

/-- What is left once a stop has returned. -/
def Caller.finishStop : Caller → Int32 × World → Int32 × World
  | .api, r => r
  | .update g startAfter, r => configureAndRestart a g.advLen startAfter r.2

/-- What is left once a start has returned. -/
def Caller.finishStart : Caller → Int32 × World → Int32 × World
  | .api, r => r
  | .update _ _, r => (0, r.2)

/-- What is left of a stop once the handle is tested and the flag is cleared. -/
def finishStopCall (w : World) : Int32 × World :=
  let (err, w) := sdBleGapAdvStop a w
  (-err.toInt32, w)

/-- What is left of a start once the flag is set. -/
def finishStartCall (w : World) : Int32 × World :=
  let (err, w) := sdBleGapAdvStart a w
  (-err.toInt32, w)

theorem hubbleAdvertiserStop_eq {w : World} (hh : w.mAdvHandle ≠ bleGapAdvSetHandleNotSet) :
    hubbleAdvertiserStop a w = finishStopCall a { w with mStarted := false } := if_neg hh

/-- What is left of an update once the buffer is loaded. -/
def finishLoaded (g : Generation) (w : World) : Int32 × World :=
  configureAndRestart a g.advLen w.mStarted (haltIfStarted a w)

/-- What is left of an update once the generator has returned 0. -/
def finishGenerated (g : Generation) (w : World) : Int32 × World :=
  finishLoaded a g
    { w with hubbleAdvBuffer := w.hubbleAdvBuffer.setLength (UInt8.ofNat (g.outLen.val + 1)) }

/-- What is left of a call. -/
def Pc.finish : Pc → World → Int32 × World
  | .params config, w => hubbleAdvertiserUpdateData a [] (initGapParams config w)
  | .generate g k, w =>
      let w := { w with hubbleAdvBuffer := w.hubbleAdvBuffer.writeAll (g.writes.drop k) }
      if g.ret ≠ 0 then (g.ret, w) else finishGenerated a g w
  | .lengthByte g, w => finishGenerated a g w
  | .describe g, w => finishLoaded a g w
  | .saveStarted g, w => finishLoaded a g w
  | .testStarted g startAfter, w => configureAndRestart a g.advLen startAfter (haltIfStarted a w)
  | .stopTest c, w => c.finishStop a (hubbleAdvertiserStop a w)
  | .stopClear c, w => c.finishStop a (finishStopCall a { w with mStarted := false })
  | .stopCall c, w => c.finishStop a (finishStopCall a w)
  | .configure g startAfter, w => configureAndRestart a g.advLen startAfter w
  | .startSet c, w => c.finishStart (hubbleAdvertiserStart a w)
  | .startCall c, w => c.finishStart (finishStartCall a w)
  | .returned ret, w => (ret, w)

variable {a}

theorem finish_afterStop (c : Caller) (r : Int32 × World) :
    (c.afterStop r.1).finish a r.2 = c.finishStop a r := by
  cases c <;> rfl

theorem finish_afterStart (c : Caller) (r : Int32 × World) :
    (c.afterStart r.1).finish a r.2 = c.finishStart r := by
  cases c <;> rfl

/-- The generator's remaining stores begin with the next one. -/
theorem finish_generate_succ {g : Generation} {k : ℕ} {b : Write} (hb : g.writes[k]? = some b)
    (w : World) :
    (Pc.generate g (k + 1)).finish a
        { w with hubbleAdvBuffer := w.hubbleAdvBuffer.writeOut b } =
      (Pc.generate g k).finish a w := by
  obtain ⟨hk, rfl⟩ := List.getElem?_eq_some_iff.mp hb
  simp only [Pc.finish, List.drop_eq_getElem_cons hk]
  rfl

/-- An update, from its generator run. -/
theorem updateData_eq_finish (data : List UInt8) (w : World) :
    hubbleAdvertiserUpdateData a data w = (Pc.generate (a.advertiseGet data) 0).finish a w :=
  updateData_eq a data w

/-- **One step changes nothing of what the whole call does.** -/
theorem finish_step (w : World) (pc : Pc) :
    (advStep a w pc).2.finish a (advStep a w pc).1 = pc.finish a w := by
  cases pc with
  | params config => exact (updateData_eq_finish [] _).symm
  | generate g k =>
    cases hb : g.writes[k]? with
    | some b =>
      simp only [advStep, hb]
      exact finish_generate_succ hb w
    | none =>
      have hdrop : g.writes.drop k = [] := List.drop_eq_nil_of_le (List.getElem?_eq_none_iff.mp hb)
      by_cases hret : g.ret = 0
      · simp [advStep, hb, Pc.finish, hdrop, hret, AdvBuffer.writeAll]
      · simp [advStep, hb, Pc.finish, hdrop, hret, AdvBuffer.writeAll]
  | lengthByte g => rfl
  | describe g => rfl
  | saveStarted g => rfl
  | testStarted g startAfter =>
    cases hs : w.mStarted with
    | true => simp [advStep, Pc.finish, haltIfStarted, hs, Caller.finishStop]
    | false => simp [advStep, Pc.finish, haltIfStarted, hs]
  | stopTest c =>
    by_cases hh : w.mAdvHandle = bleGapAdvSetHandleNotSet
    · have hstop : hubbleAdvertiserStop a w = (-eagain, w) := if_pos hh
      simp only [advStep, if_pos hh, Pc.finish, hstop]
      exact finish_afterStop c (-eagain, w)
    · simp only [advStep, if_neg hh, Pc.finish, hubbleAdvertiserStop_eq a hh]
  | stopClear c => rfl
  | stopCall c => exact finish_afterStop c (finishStopCall a w)
  | configure g startAfter =>
    by_cases herr : (sdBleGapAdvSetConfigure a g.advLen w).1 = nrfSuccess
    · cases startAfter with
      | true => simp [advStep, Pc.finish, configureAndRestart, herr, Caller.finishStart]
      | false => simp [advStep, Pc.finish, configureAndRestart, herr]
    · simp [advStep, Pc.finish, configureAndRestart, herr]
  | startSet c => rfl
  | startCall c => exact finish_afterStart c (finishStartCall a w)
  | returned ret => rfl

theorem finish_enter (c : Call) (w : World) : (c.enter a).finish a w = c.exec a w := by
  cases c with
  | init config =>
    cases config with
    | none => rfl
    | some config => rfl
  | start => rfl
  | stop => rfl
  | updateData data => exact (updateData_eq_finish data w).symm

variable (a) in
/-- A bound on the steps left. -/
def Pc.remaining : Pc → ℕ
  | .params _ => 12 + (a.advertiseGet []).writes.length
  | .generate g k => 11 + (g.writes.length - k)
  | .lengthByte _ => 10
  | .describe _ => 9
  | .saveStarted _ => 8
  | .testStarted _ _ => 7
  | .stopTest _ => 6
  | .stopClear _ => 5
  | .stopCall _ => 4
  | .configure _ _ => 3
  | .startSet _ => 2
  | .startCall _ => 1
  | .returned _ => 0

theorem remaining_afterStop (c : Caller) (ret : Int32) : (c.afterStop ret).remaining a ≤ 3 := by
  cases c <;> simp [Caller.afterStop, Pc.remaining]

theorem remaining_afterStart (c : Caller) (ret : Int32) : (c.afterStart ret).remaining a = 0 := by
  cases c <;> rfl

theorem remaining_step (w : World) {pc : Pc} (hpc : ∀ ret, pc ≠ .returned ret) :
    (advStep a w pc).2.remaining a < pc.remaining a := by
  cases pc with
  | returned ret => exact absurd rfl (hpc ret)
  | generate g k =>
    cases hb : g.writes[k]? with
    | some b =>
      obtain ⟨hk, -⟩ := List.getElem?_eq_some_iff.mp hb
      simp only [advStep, hb, Pc.remaining]
      omega
    | none =>
      simp only [advStep, hb]
      split_ifs <;> simp only [Pc.remaining] <;> omega
  | testStarted g startAfter =>
    simp only [advStep]
    split_ifs <;> simp [Pc.remaining]
  | stopTest c =>
    have hafter := remaining_afterStop (a := a) c (-eagain)
    simp only [advStep]
    split_ifs
    · show (c.afterStop (-eagain)).remaining a < 6
      omega
    · simp [Pc.remaining]
  | stopCall c => exact Nat.lt_succ_of_le (remaining_afterStop c _)
  | configure g startAfter =>
    simp only [advStep]
    split_ifs <;> simp [Pc.remaining]
  | startCall c =>
    show (c.afterStart _).remaining a < 1
    rw [remaining_afterStart]
    exact Nat.one_pos
  | params config => simp [advStep, Pc.remaining]
  | _ => simp [advStep, Pc.remaining]

/-- Every call returns, from wherever it stands. -/
theorem finish_completes (w : World) (pc : Pc) :
    ∃ n, (fun s : World × Pc => advStep a s.1 s.2)^[n] (w, pc) =
      ((pc.finish a w).2, .returned (pc.finish a w).1) := by
  induction hm : pc.remaining a using Nat.strong_induction_on generalizing w pc with
  | _ m ih =>
    by_cases hpc : ∃ ret, pc = .returned ret
    · obtain ⟨ret, rfl⟩ := hpc
      exact ⟨0, rfl⟩
    · simp only [not_exists] at hpc
      have hlt := remaining_step (a := a) w hpc
      obtain ⟨n, hn⟩ := ih _ (hm ▸ hlt) (advStep a w pc).1 (advStep a w pc).2 rfl
      refine ⟨n + 1, ?_⟩
      rw [Function.iterate_succ_apply, ← finish_step w pc]
      exact hn

/-- **Every call completes** after finitely many steps, with the value and the world of
`Call.exec`. -/
theorem call_completes (c : Call) (w : World) :
    ∃ n, (fun s : World × Pc => advStep a s.1 s.2)^[n] (w, c.enter a) =
      ((c.exec a w).2, .returned (c.exec a w).1) := by
  obtain ⟨n, hn⟩ := finish_completes (a := a) w (c.enter a)
  rw [finish_enter] at hn
  exact ⟨n, hn⟩

/-! ### The worlds of an update whose calls succeed -/

/-- The SoftDevice would like every call to succeed. -/
structure Answers.Succeeds (a : Answers) : Prop where
  configure : a.configure = nrfSuccess
  start : a.start = nrfSuccess
  stop : a.stop = nrfSuccess

/-- The world after the generator has stored `bs`. -/
def World.stored (bs : List Write) (w : World) : World :=
  { w with hubbleAdvBuffer := w.hubbleAdvBuffer.writeAll bs }

/-- The world after a stop, where the flag asks for one, a configuration with the length `len`, and a
start, where the flag asked for one, that have all succeeded. -/
def World.reconfigured (a : Answers) (len : UInt16) (w : World) : World :=
  if w.mStarted then ((w.halted a).configured a len).restarted a
  else (w.halted a).configured a len

/-- The world after an update whose calls have succeeded. -/
def World.refreshed (a : Answers) (g : Generation) (w : World) : World :=
  (w.loaded g).reconfigured a g.advLen

/-- The world and the place of an update with the generator run `g`, begun in the world `w`, when
every call it makes succeeds. -/
inductive Midway (a : Answers) (g : Generation) (w : World) : World → Pc → Prop
  | generate (k : ℕ) : Midway a g w (w.stored (g.writes.take k)) (.generate g k)
  | lengthByte : Midway a g w (w.scribbled g) (.lengthByte g)
  | describe : Midway a g w (w.loaded g) (.describe g)
  | saveStarted : Midway a g w (w.loaded g) (.saveStarted g)
  | testStarted : Midway a g w (w.loaded g) (.testStarted g w.mStarted)
  | stopTest (hs : w.mStarted = true) :
      Midway a g w (w.loaded g) (.stopTest (.update g w.mStarted))
  | stopClear (hs : w.mStarted = true) (hh : w.mAdvHandle ≠ bleGapAdvSetHandleNotSet) :
      Midway a g w (w.loaded g) (.stopClear (.update g w.mStarted))
  | stopCall (hs : w.mStarted = true) (hh : w.mAdvHandle ≠ bleGapAdvSetHandleNotSet) :
      Midway a g w { w.loaded g with mStarted := false } (.stopCall (.update g w.mStarted))
  | configure : Midway a g w (w.ready a g) (.configure g w.mStarted)
  | startSet (hs : w.mStarted = true) :
      Midway a g w ((w.ready a g).configured a g.advLen) (.startSet (.update g w.mStarted))
  | startCall (hs : w.mStarted = true) :
      Midway a g w { (w.ready a g).configured a g.advLen with mStarted := true }
        (.startCall (.update g w.mStarted))
  | returned : Midway a g w (w.refreshed a g) (.returned 0)

/-- **One step of an update whose calls succeed**, from a safe world. -/
theorem Midway.step {g : Generation} {w v : World} {pc : Pc} (hw : Safe w) (ha : a.Succeeds)
    (hg : g.ret = 0) (hm : Midway a g w v pc) :
    Midway a g w (advStep a v pc).1 (advStep a v pc).2 := by
  have hhalt := haltIfStarted_eq (a := a) (hw.loaded g) (absurd ha.stop)
  cases hm with
  | generate k =>
    cases hb : g.writes[k]? with
    | some b =>
      have htake : g.writes.take (k + 1) = g.writes.take k ++ [b] := by
        rw [List.take_add_one, hb]
        rfl
      have hpc : advStep a (w.stored (g.writes.take k)) (.generate g k) =
          (w.stored (g.writes.take (k + 1)), .generate g (k + 1)) := by
        simp [advStep, hb, htake, World.stored, AdvBuffer.writeAll, List.foldl_append]
      rw [hpc]
      exact .generate (k + 1)
    | none =>
      have htake : g.writes.take k = g.writes :=
        List.take_of_length_le (List.getElem?_eq_none_iff.mp hb)
      simp only [advStep, hb, htake, hg, ne_eq, not_true_eq_false, if_false]
      exact .lengthByte
  | lengthByte => exact .describe
  | describe => exact .saveStarted
  | saveStarted => exact .testStarted
  | testStarted =>
    by_cases hs : w.mStarted = true
    · have hpc : (advStep a (w.loaded g) (.testStarted g w.mStarted)) =
          (w.loaded g, .stopTest (.update g w.mStarted)) := by
        simp [advStep, World.loaded, hs]
      rw [hpc]
      exact .stopTest hs
    · have hpc : (advStep a (w.loaded g) (.testStarted g w.mStarted)) =
          (haltIfStarted a (w.loaded g), .configure g w.mStarted) := by
        simp [advStep, haltIfStarted, World.loaded, hs]
      rw [hpc, hhalt]
      exact .configure
  | stopTest hs =>
    by_cases hh : w.mAdvHandle = bleGapAdvSetHandleNotSet
    · have hpc : (advStep a (w.loaded g) (.stopTest (.update g w.mStarted))) =
          (haltIfStarted a (w.loaded g), .configure g w.mStarted) := by
        simp [advStep, haltIfStarted, hubbleAdvertiserStop, World.loaded, hs, hh,
          Caller.afterStop]
      rw [hpc, hhalt]
      exact .configure
    · have hpc : (advStep a (w.loaded g) (.stopTest (.update g w.mStarted))) =
          (w.loaded g, .stopClear (.update g w.mStarted)) := by
        simp [advStep, World.loaded, hh]
      rw [hpc]
      exact .stopClear hs hh
  | stopClear hs hh => exact .stopCall hs hh
  | stopCall hs hh =>
    have hworld : (sdBleGapAdvStop a { w.loaded g with mStarted := false }).2 =
        haltIfStarted a (w.loaded g) := by
      simp [haltIfStarted, hubbleAdvertiserStop, World.loaded, hs, hh]
    have hpc : (advStep a { w.loaded g with mStarted := false }
        (.stopCall (.update g w.mStarted))) =
        ((sdBleGapAdvStop a { w.loaded g with mStarted := false }).2,
          .configure g w.mStarted) := rfl
    rw [hpc, hworld, hhalt]
    exact .configure
  | configure =>
    have hconf := configure_succeeds g.advLen (hw.ready a g).toConsistent rfl ha.configure
    cases hs : w.mStarted with
    | true =>
      have hpc : advStep a (w.ready a g) (.configure g true) =
          ((w.ready a g).configured a g.advLen, .startSet (.update g true)) := by
        simp [advStep, hconf]
      rw [hpc, ← hs]
      exact .startSet hs
    | false =>
      have hpc : advStep a (w.ready a g) (.configure g false) =
          ((w.ready a g).configured a g.advLen, .returned 0) := by
        simp [advStep, hconf]
      have hrefreshed : w.refreshed a g = (w.ready a g).configured a g.advLen :=
        if_neg (by simp [World.loaded, hs])
      rw [hpc, ← hrefreshed]
      exact .returned
  | startSet hs => exact .startCall hs
  | startCall hs =>
    have hstart := hubbleAdvertiserStart_eq (a := a)
      (w := (w.ready a g).configured a g.advLen) rfl rfl
    have hworld : (advStep a { (w.ready a g).configured a g.advLen with mStarted := true }
        (.startCall (.update g w.mStarted))).1 =
        (hubbleAdvertiserStart a ((w.ready a g).configured a g.advLen)).2 := rfl
    have hrefreshed : w.refreshed a g = ((w.ready a g).configured a g.advLen).restarted a :=
      if_pos hs
    rw [hworld, hstart, ← hrefreshed]
    exact .returned
  | returned => exact .returned

end HubbleNordic
