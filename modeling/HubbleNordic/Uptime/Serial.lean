import HubbleNordic.Lock.Exclusion
import HubbleNordic.Ownership
import HubbleNordic.Uptime.Preempted
import HubbleNordic.Uptime.Exact

/-!
# `hubble_uptime_get` under preemption, next to the lock

The critical region of `hubble_uptime_get` and the lock of the SDK are one region of the SoftDevice,
and the SDK may sample the uptime while it holds the lock.  Here both are cut at every access to a
static variable and at every call, for the main thread and any number of handlers.

* `UptimePc`, `uptimeStep`: the function, step by step; `uptime_completes`: undisturbed, the steps
  run to the end and do what the function does;
* `PortContext`, `portContexts`: contexts that call it, `hubble_lock` and `hubble_unlock`;
* `uptimeAfter`: what calls made one after the other leave; `uptimes` is what they return;
* `InStep`: what holds between the shared state and the running context; `Aside`: what holds of a
  preempted one;
* `uptime_calls_serial`: in every interleaving the calls return what they would have returned one
  after the other, in the order of their critical regions.
-/

namespace HubbleNordic

/-- A call of `hubble_uptime_get`: the true tick count at which it has read the counter, its local
`ticks`, and the nesting flag that `CRITICAL_REGION_ENTER` keeps. -/
structure UptimeCall where
  readAt : ℕ
  ticks : UInt64
  nested : UInt8
  deriving DecidableEq

/-- Where a context stands in `hubble_uptime_get`. -/
inductive UptimePc
  /-- Not in it. -/
  | idle
  | enter (c : UptimeCall)
  | test (c : UptimeCall)
  | readExtended (c : UptimeCall)
  | writeExtended (c : UptimeCall) (extended : UInt64)
  | writePrev (c : UptimeCall)
  | addExtended (c : UptimeCall)
  | exit (c : UptimeCall)
  | convert (c : UptimeCall)
  deriving DecidableEq

/-- The static variables of `hubble_app_port.c` and the critical region.  For the statements only,
`sampled` lists the critical regions left so far and `returned` the calls that have returned, each
with the tick count of its reading and the value that the call returns. -/
structure PortState where
  lock : LockState
  uptime : UptimeState
  sampled : List (ℕ × Option UInt64)
  returned : List (ℕ × Option UInt64)

/-- The next step of a call. -/
def uptimeStep (n : UInt32) (x : PortState) : UptimePc → Option (PortState × UptimePc)
  | .idle => none
  | .enter c =>
      let (nested, lock) := appUtilCriticalRegionEnter x.lock
      some ({ x with lock := lock }, .test { c with nested := nested })
  | .test c =>
      some (x, if c.ticks < x.uptime.prevTicks.toUInt64 then .readExtended c else .writePrev c)
  | .readExtended c => some (x, .writeExtended c x.uptime.extendedTicks)
  | .writeExtended c extended =>
      some ({ x with uptime :=
        { x.uptime with extendedTicks := extended + (drvRtcMaxCnt + 1).toUInt64 } }, .writePrev c)
  | .writePrev c =>
      some ({ x with uptime := { x.uptime with prevTicks := c.ticks.toUInt32 } }, .addExtended c)
  | .addExtended c => some (x, .exit { c with ticks := c.ticks + x.uptime.extendedTicks })
  | .exit c =>
      some ({ x with
        lock := appUtilCriticalRegionExit c.nested x.lock
        sampled := x.sampled ++ [(c.readAt, ticksToUptime n c.ticks)] }, .convert c)
  | .convert c =>
      some ({ x with returned := x.returned ++ [(c.readAt, ticksToUptime n c.ticks)] }, .idle)

/-- Let a call make at most `m` steps. -/
def runUptime (n : UInt32) : ℕ → PortState × UptimePc → PortState × UptimePc
  | 0, a => a
  | m + 1, a =>
      match uptimeStep n a.1 a.2 with
      | none => a
      | some b => runUptime n m b

/-- A context, which is in one of the three functions or in none. -/
structure PortContext where
  lock : LockContext
  uptime : UptimePc

/-- What a context does: an action on the lock; a call of `hubble_uptime_get`, which reads the
counter at the true tick count `t`; or the next step of that call. -/
inductive PortAction
  | lock (a : LockAction)
  | uptimeGet (t : ℕ)
  | uptimeStep

/-- The actions of a context. -/
def portStep (n : UInt32) (x : PortState) (k : PortContext) :
    PortAction → Option (PortState × PortContext)
  | .lock a =>
      if k.uptime = .idle then
        (contextStep x.lock k.lock a).map fun (lock, j) =>
          ({ x with lock := lock }, { k with lock := j })
      else none
  | .uptimeGet t =>
      if k.uptime = .idle ∧ k.lock.pc = .idle then
        some (x, { k with uptime := .enter ⟨t, (appTimerCntGet t).toUInt64, 0⟩ })
      else none
  | .uptimeStep => (uptimeStep n x k.uptime).map fun (x, pc) => (x, { k with uptime := pc })

/-- All interleavings of contexts, with the region free or held at the start. -/
def portContexts (n : UInt32) (held : Bool) : Preemptive PortState PortContext PortAction where
  init := ⟨⟨held, 0, 0⟩, .boot, [], []⟩
  start := ⟨.fresh, .idle⟩
  step := portStep n
  masked x := x.lock.region
  done k := decide (k.lock.pc = .idle ∧ k.lock.openLocks = 0 ∧ k.uptime = .idle)

/-- The static variables after calls that read the counter at the true tick counts `ts`, made one
after the other. -/
def uptimeAfter (s : UptimeState) (ts : List ℕ) : UptimeState :=
  ts.foldl (fun s t => (criticalRegion (appTimerCntGet t).toUInt64 s).2) s

/-- The tick counts of the readings. -/
def readings (l : List (ℕ × Option UInt64)) : List ℕ := l.map Prod.fst

/-- What critical regions that ran one after the other have left. -/
def settled (l : List (ℕ × Option UInt64)) : UptimeState := uptimeAfter .boot (readings l)

/-- The value that the context is about to return, with the tick count of its reading. -/
def PortContext.pending? (n : UInt32) (k : PortContext) : Option (ℕ × Option UInt64) :=
  match k.uptime with
  | .convert c => some (c.readAt, ticksToUptime n c.ticks)
  | _ => none

namespace UptimePc

/-- The call that is inside its critical region. -/
def inside? : UptimePc → Option UptimeCall
  | .test c | .readExtended c | .writeExtended c _ | .writePrev c | .addExtended c | .exit c =>
      some c
  | _ => none

/-- The context is inside the critical region of `hubble_uptime_get`. -/
def InRegion (pc : UptimePc) : Prop := pc.inside?.isSome = true

instance (pc : UptimePc) : Decidable pc.InRegion := inferInstanceAs (Decidable (_ = _))

end UptimePc

/-! ### One call after the other -/

theorem readings_snoc (l : List (ℕ × Option UInt64)) (r : ℕ × Option UInt64) :
    readings (l ++ [r]) = readings l ++ [r.1] := List.map_append

theorem uptimes_snoc (n : UInt32) (s : UptimeState) (ts : List ℕ) (t : ℕ) :
    uptimes n s (ts ++ [t]) = uptimes n s ts ++
      [ticksToUptime n (criticalRegion (appTimerCntGet t).toUInt64 (uptimeAfter s ts)).1] := by
  induction ts generalizing s with
  | nil => rfl
  | cons u ts ih =>
    rw [List.cons_append, uptimes, uptimes, List.cons_append]
    exact congrArg _ (ih _)

theorem settled_snoc (l : List (ℕ × Option UInt64)) (r : ℕ × Option UInt64) :
    settled (l ++ [r]) = (criticalRegion (appTimerCntGet r.1).toUInt64 (settled l)).2 := by
  rw [settled, readings_snoc, uptimeAfter, List.foldl_append]
  rfl

/-! ### When the values are right -/

/-- A period always shows in the milliseconds. -/
theorem trueUptime_lt {n : UInt32} (hz : appTimerHz n ≠ 0) {t u : ℕ} (h : t + counterPeriod ≤ u) :
    trueUptime n t < trueUptime n u := by
  have hpos : 0 < (appTimerHz n).toNat := by
    rw [Nat.pos_iff_ne_zero]
    intro h0
    exact hz (UInt32.toNat_inj.mp h0)
  have hle := appTimerHz_le n
  have hroom : t * 1000 + (appTimerHz n).toNat ≤ u * 1000 := by
    simp only [counterPeriod] at h
    omega
  calc trueUptime n t < t * 1000 / (appTimerHz n).toNat + 1 := Nat.lt_succ_self _
    _ = (t * 1000 + (appTimerHz n).toNat) / (appTimerHz n).toNat := (Nat.add_div_right _ hpos).symm
    _ ≤ trueUptime n u := Nat.div_le_div_right hroom

/-- A reading that is out of order makes a wrong value. -/
theorem ticksToUptime_wrong {n : UInt32} (hz : appTimerHz n ≠ 0) {s : UptimeState} {p t : ℕ}
    (hs : s.StandsAt p) (hp : p * 1000 < 2 ^ 63)
    (ht : t * 1000 < 2 ^ 63) (h : ¬ (p ≤ t ∧ t < p + counterPeriod)) :
    (ticksToUptime n (criticalRegion (appTimerCntGet t).toUInt64 s).1).map UInt64.toNat ≠
      some (trueUptime n t) := by
  have hroomy := hs.roomy (hp.trans (by norm_num))
  have hcnt := appTimerCntGet_toUInt64 t
  obtain ⟨-, hvalue⟩ := criticalRegion_tracker hroomy (hcnt ▸ Nat.mod_lt t (by norm_num))
  rw [hcnt] at hvalue
  set ticks := (criticalRegion (appTimerCntGet t).toUInt64 s).1
  have hne (hsmall : ticks.toNat * 1000 < 2 ^ 64)
      (hdiff : trueUptime n ticks.toNat ≠ trueUptime n t) :
      (ticksToUptime n ticks).map UInt64.toNat ≠ some (trueUptime n t) := by
    obtain ⟨r, hr, hval⟩ := ticksToUptime_exact hz hsmall
    simpa [hr, hval] using hdiff
  by_cases hback : t < p
  · obtain ⟨hahead, hless⟩ := hs.sample_back (by norm_num) hback
    rw [← hvalue] at hahead hless
    have hsmall : ticks.toNat * 1000 < 2 ^ 64 := by
      calc ticks.toNat * 1000 ≤ (p + counterPeriod) * 1000 := Nat.mul_le_mul_right 1000 hless.le
        _ = p * 1000 + counterPeriod * 1000 := Nat.add_mul p counterPeriod 1000
        _ < 2 ^ 63 + counterPeriod * 1000 := Nat.add_lt_add_right hp _
        _ < 2 ^ 64 := by norm_num
    exact hne hsmall (trueUptime_lt hz hahead).ne'
  · have hlate := hs.sample_late (Nat.not_lt.mp fun hlt => h ⟨Nat.not_lt.mp hback, hlt⟩)
    rw [← hvalue] at hlate
    have hsmall : ticks.toNat * 1000 < 2 ^ 64 := by
      calc ticks.toNat * 1000 ≤ t * 1000 := Nat.mul_le_mul_right 1000 (le_of_add_le_left hlate)
        _ < 2 ^ 63 := ht
        _ < 2 ^ 64 := by norm_num
    exact hne hsmall (trueUptime_lt hz hlate).ne

/-- **Calls made one after the other are right if and only if their readings are steady**: by
induction over the calls, up to the first reading that is out of order. -/
theorem uptimes_exact_iff {n : UInt32} (hz : appTimerHz n ≠ 0) {s : UptimeState} {p : ℕ}
    {ts : List ℕ} (hs : s.StandsAt p) (hp : p * 1000 < 2 ^ 63)
    (hb : ∀ t ∈ ts, t * 1000 < 2 ^ 63) :
    (uptimes n s ts).map (Option.map UInt64.toNat) = ts.map (fun t => some (trueUptime n t)) ↔
      Steady p ts := by
  constructor
  · intro hexact
    induction ts generalizing s p with
    | nil => exact List.isChain_singleton p
    | cons t ts ih =>
      obtain ⟨hhead, htail⟩ := List.cons.inj hexact
      have ht := hb t List.mem_cons_self
      have horder : p ≤ t ∧ t < p + counterPeriod := by
        by_contra h
        exact ticksToUptime_wrong hz hs hp ht h hhead
      have hroomy := hs.roomy (hp.trans (by norm_num))
      obtain ⟨hs', -⟩ := criticalRegion_onTime hs hroomy horder.1 horder.2
      exact List.isChain_cons_cons.mpr
        ⟨horder, ih hs' ht (fun u hu => hb u (List.mem_cons_of_mem _ hu)) htail⟩
  · intro hsteady
    exact uptimes_exact hz hs hsteady fun t ht => (hb t ht).trans (by norm_num)

/-! ### What the critical region does -/

/-- What the call has read from the counter. -/
def UptimeCall.reading (c : UptimeCall) : UInt64 := (appTimerCntGet c.readAt).toUInt64

/-- The static variables once a rollover has been accounted for. -/
def rolledOver (ticks : UInt64) (s : UptimeState) : UptimeState :=
  if ticks < s.prevTicks.toUInt64 then
    { s with extendedTicks := s.extendedTicks + (drvRtcMaxCnt + 1).toUInt64 }
  else s

theorem criticalRegion_eq (ticks : UInt64) (s : UptimeState) :
    criticalRegion ticks s = (ticks + (rolledOver ticks s).extendedTicks,
      { rolledOver ticks s with prevTicks := ticks.toUInt32 }) := rfl

/-! ### A call that is not preempted -/

theorem runUptime_idle (n : UInt32) (m : ℕ) (x : PortState) :
    runUptime n m (x, .idle) = (x, .idle) := by
  cases m <;> rfl

theorem runUptime_step {n : UInt32} {x x' : PortState} {pc pc' : UptimePc}
    (h : uptimeStep n x pc = some (x', pc')) (m : ℕ) :
    runUptime n (m + 1) (x, pc) = runUptime n m (x', pc') := by
  rw [runUptime, h]

/-- From the comparison on, a rollover is accounted for. -/
theorem runUptime_test (n : UInt32) (c : UptimeCall) (x : PortState) :
    ∃ m, runUptime n 7 (x, .test c) =
      runUptime n (m + 4) ({ x with uptime := rolledOver c.ticks x.uptime }, .writePrev c) := by
  by_cases hlt : c.ticks < x.uptime.prevTicks.toUInt64
  · have htest : uptimeStep n x (.test c) = some (x, .readExtended c) := by
      rw [uptimeStep, if_pos hlt]
    have hread : uptimeStep n x (.readExtended c) =
        some (x, .writeExtended c x.uptime.extendedTicks) := rfl
    refine ⟨0, ?_⟩
    rw [runUptime_step htest, runUptime_step hread, runUptime_step rfl, rolledOver, if_pos hlt]
  · have htest : uptimeStep n x (.test c) = some (x, .writePrev c) := by
      rw [uptimeStep, if_neg hlt]
    refine ⟨2, ?_⟩
    rw [runUptime_step htest, rolledOver, if_neg hlt]

/-- The rest of the call. -/
theorem runUptime_writePrev (n : UInt32) (m : ℕ) (c : UptimeCall) (x : PortState) :
    runUptime n (m + 4) (x, .writePrev c) =
      let r := ticksToUptime n (c.ticks + x.uptime.extendedTicks)
      (⟨appUtilCriticalRegionExit c.nested x.lock,
        { x.uptime with prevTicks := c.ticks.toUInt32 },
        x.sampled ++ [(c.readAt, r)], x.returned ++ [(c.readAt, r)]⟩, .idle) :=
  runUptime_idle n m _

/-- **A call that is not preempted completes**, and does what the function does; the critical region
is left as it was. -/
theorem uptime_completes (n : UInt32) (t : ℕ) (x : PortState) :
    runUptime n 8 (x, .enter ⟨t, (appTimerCntGet t).toUInt64, 0⟩) =
      let r := hubbleUptimeGet n (appTimerCntGet t) x.uptime
      (⟨x.lock, r.2, x.sampled ++ [(t, r.1)], x.returned ++ [(t, r.1)]⟩, .idle) := by
  generalize appTimerCntGet t = counter
  let c : UptimeCall := ⟨t, counter.toUInt64, (appUtilCriticalRegionEnter x.lock).1⟩
  let y : PortState := { x with lock := (appUtilCriticalRegionEnter x.lock).2 }
  have henter : runUptime n 8 (x, .enter { c with nested := 0 }) = runUptime n 7 (y, .test c) := rfl
  have hexit : appUtilCriticalRegionExit c.nested y.lock = x.lock := exit_enter x.lock
  have hget : hubbleUptimeGet n counter x.uptime =
      (ticksToUptime n (c.ticks + (rolledOver c.ticks x.uptime).extendedTicks),
        { rolledOver c.ticks x.uptime with prevTicks := c.ticks.toUInt32 }) := rfl
  obtain ⟨m, htest⟩ := runUptime_test n c y
  rw [henter, htest, runUptime_writePrev, hexit, hget]

/-! ### Where a call stands -/

/-- A call up to its critical region has its reading in `ticks`. -/
def UptimePc.Fresh : UptimePc → Prop
  | .enter c => c.ticks = c.reading
  | _ => True

/-- The static variables are `s`, and were `v` before the critical region that the context is in, if
it is in one. -/
def UptimePc.Progress (v s : UptimeState) : UptimePc → Prop
  | .idle | .convert _ => s = v
  | .enter c | .test c => s = v ∧ c.ticks = c.reading
  | .readExtended c => s = v ∧ c.ticks = c.reading ∧ c.ticks < v.prevTicks.toUInt64
  | .writeExtended c extended =>
      s = v ∧ c.ticks = c.reading ∧ c.ticks < v.prevTicks.toUInt64 ∧ extended = v.extendedTicks
  | .writePrev c => s = rolledOver c.ticks v ∧ c.ticks = c.reading
  | .addExtended c => s = (criticalRegion c.ticks v).2 ∧ c.ticks = c.reading
  | .exit c => criticalRegion c.reading v = (c.ticks, s)

/-- Outside the critical region nothing has been done yet, or all of it. -/
theorem UptimePc.Progress.outside {pc : UptimePc} {v s : UptimeState} (h : pc.Progress v s)
    (hpc : pc.inside? = none) : s = v ∧ pc.Fresh := by
  cases pc with
  | idle | convert c => exact ⟨h, trivial⟩
  | enter c => exact h
  | _ => cases hpc

theorem UptimePc.Fresh.progress {pc : UptimePc} (h : pc.Fresh) (hpc : pc.inside? = none)
    (v : UptimeState) : pc.Progress v v := by
  cases pc with
  | idle | convert c => exact rfl
  | enter c => exact ⟨rfl, h⟩
  | _ => cases hpc

/-! ### The invariant -/

/-- **The running context and the shared state**: the lock's globals are the context's own; inside
the critical region of `hubble_uptime_get` the region is held, and leaving it will not free a lock
that the context holds; and the regions left so far ran one after the other. -/
structure InStep (n : UInt32) (x : PortState) (k : PortContext) : Prop where
  owns : Owns x.lock k.lock
  idle : k.uptime ≠ .idle → k.lock.pc = .idle
  region : k.uptime.InRegion → x.lock.region = true
  nested : ∀ c ∈ k.uptime.inside?, 0 < k.lock.openLocks → c.nested ≠ 0
  values : x.sampled.map Prod.snd = uptimes n .boot (readings x.sampled)
  progress : k.uptime.Progress (settled x.sampled) x.uptime

/-- **A preempted context** holds no lock and is in no critical region. -/
structure Aside (k : PortContext) : Prop where
  outside : Outside k.lock
  idle : k.uptime ≠ .idle → k.lock.pc = .idle
  free : k.uptime.inside? = none
  fresh : k.uptime.Fresh

section Steps

variable {n : UInt32} {x x' : PortState} {k k' : PortContext}

/-- Outside the critical region of `hubble_uptime_get` there is less to hold. -/
theorem InStep.free (hfree : k.uptime.inside? = none) (howns : Owns x.lock k.lock)
    (hidle : k.uptime ≠ .idle → k.lock.pc = .idle)
    (hvalues : x.sampled.map Prod.snd = uptimes n .boot (readings x.sampled))
    (hprogress : k.uptime.Progress (settled x.sampled) x.uptime) : InStep n x k := by
  refine ⟨howns, hidle, fun h => ?_, fun c hc => ?_, hvalues, hprogress⟩
  · rw [UptimePc.InRegion, hfree] at h
    cases h
  · rw [hfree] at hc
    cases hc

/-- Entering the critical region: the flag is set for a context that holds the lock. -/
theorem enter_nested (hk : Owns x.lock k.lock) (hopen : 0 < k.lock.openLocks) :
    (appUtilCriticalRegionEnter x.lock).1 ≠ 0 := by
  have hcounted := lt_of_lt_of_le hopen k.lock.openLocks_le_counted
  rw [appUtilCriticalRegionEnter, hk.held (Or.inl hcounted)]
  exact show (1 : UInt8) ≠ 0 by decide

/-- A step of `hubble_uptime_get`, one case for each. -/
theorem inStep_uptime {pc : UptimePc} (hk : InStep n x k)
    (hs : uptimeStep n x k.uptime = some (x', pc)) : InStep n x' { k with uptime := pc } := by
  obtain ⟨lock, upc⟩ := k
  obtain ⟨howns, hidle, hregion, hnested, hvalues, hprogress⟩ := hk
  cases upc with
  | idle => cases hs
  | enter c =>
    simp only [uptimeStep, Option.some.injEq, Prod.mk.injEq] at hs
    obtain ⟨rfl, rfl⟩ := hs
    have hpc : lock.pc = .idle := hidle (by simp)
    have henter : contextStep x.lock lock .rawEnter =
        some ((appUtilCriticalRegionEnter x.lock).2, lock) := if_pos hpc
    refine ⟨owns_act howns henter, fun _ => hpc, fun _ => rfl, ?_, hvalues, hprogress⟩
    rintro c' hc' hopen
    obtain rfl := Option.mem_some_iff.mp hc'
    exact enter_nested (k := ⟨lock, .idle⟩) howns hopen
  | test c =>
    simp only [uptimeStep, Option.some.injEq, Prod.mk.injEq] at hs
    obtain ⟨rfl, rfl⟩ := hs
    obtain ⟨hv, hticks⟩ := hprogress
    have hpc : lock.pc = .idle := hidle (by simp)
    split_ifs with hlt
    · exact ⟨howns, fun _ => hpc, hregion, hnested, hvalues, hv, hticks, hv ▸ hlt⟩
    · refine ⟨howns, fun _ => hpc, hregion, hnested, hvalues, ?_, hticks⟩
      rw [rolledOver, if_neg (hv ▸ hlt), hv]
  | readExtended c =>
    simp only [uptimeStep, Option.some.injEq, Prod.mk.injEq] at hs
    obtain ⟨rfl, rfl⟩ := hs
    obtain ⟨hv, hticks, hlt⟩ := hprogress
    exact ⟨howns, fun _ => hidle (by simp), hregion, hnested, hvalues, hv, hticks, hlt, by rw [hv]⟩
  | writeExtended c extended =>
    simp only [uptimeStep, Option.some.injEq, Prod.mk.injEq] at hs
    obtain ⟨rfl, rfl⟩ := hs
    obtain ⟨hv, hticks, hlt, hext⟩ := hprogress
    have hstatics : { x.uptime with extendedTicks := extended + (drvRtcMaxCnt + 1).toUInt64 } =
        rolledOver c.ticks (settled x.sampled) := by
      rw [rolledOver, if_pos hlt, hext, hv]
    exact ⟨howns, fun _ => hidle (by simp), hregion, hnested, hvalues, hstatics, hticks⟩
  | writePrev c =>
    simp only [uptimeStep, Option.some.injEq, Prod.mk.injEq] at hs
    obtain ⟨rfl, rfl⟩ := hs
    obtain ⟨hv, hticks⟩ := hprogress
    have hstatics : { x.uptime with prevTicks := c.ticks.toUInt32 } =
        (criticalRegion c.ticks (settled x.sampled)).2 := by
      rw [criticalRegion_eq, hv]
    exact ⟨howns, fun _ => hidle (by simp), hregion, hnested, hvalues, hstatics, hticks⟩
  | addExtended c =>
    simp only [uptimeStep, Option.some.injEq, Prod.mk.injEq] at hs
    obtain ⟨rfl, rfl⟩ := hs
    obtain ⟨hv, hticks⟩ := hprogress
    refine ⟨howns, fun _ => hidle (by simp), hregion, ?_, hvalues, ?_⟩
    · rintro c' hc' hopen
      obtain rfl := Option.mem_some_iff.mp hc'
      exact hnested c rfl hopen
    · show criticalRegion c.reading (settled x.sampled) = _
      rw [← hticks, criticalRegion_eq, hv, criticalRegion_eq]
  | exit c =>
    simp only [uptimeStep, Option.some.injEq, Prod.mk.injEq] at hs
    obtain ⟨rfl, rfl⟩ := hs
    have hpc : lock.pc = .idle := hidle (by simp)
    have hkeeps : lock.openLocks = 0 ∨ c.nested ≠ 0 := by
      rcases Nat.eq_zero_or_pos lock.openLocks with h | h
      · exact Or.inl h
      · exact Or.inr (hnested c rfl h)
    have hexit : contextStep x.lock lock (.rawExit c.nested) =
        some (appUtilCriticalRegionExit c.nested x.lock, lock) := if_pos ⟨hpc, hkeeps⟩
    -- the region is over: it becomes the next of those that ran one after the other
    have hdone : criticalRegion (appTimerCntGet c.readAt).toUInt64 (settled x.sampled) =
        (c.ticks, x.uptime) := hprogress
    refine InStep.free rfl (owns_act howns hexit) (fun _ => hpc) ?_ ?_
    · have hlast := uptimes_snoc n .boot (readings x.sampled) c.readAt
      rw [← settled, hdone] at hlast
      rw [readings_snoc, hlast, List.map_append, hvalues]
      rfl
    · show x.uptime = settled (x.sampled ++ [_])
      rw [settled_snoc, hdone]
  | convert c =>
    simp only [uptimeStep, Option.some.injEq, Prod.mk.injEq] at hs
    obtain ⟨rfl, rfl⟩ := hs
    exact InStep.free rfl howns (fun h => absurd rfl h) hvalues hprogress

/-- Every action of a context keeps it in step with the shared state. -/
theorem inStep_act {a : PortAction} (hk : InStep n x k) (hs : portStep n x k a = some (x', k')) :
    InStep n x' k' := by
  cases a with
  | lock a =>
    simp only [portStep, Option.ite_none_right_eq_some, Option.map_eq_some_iff, Prod.mk.injEq,
      Prod.exists] at hs
    obtain ⟨hidle, lock, j, hstep, rfl, rfl⟩ := hs
    have hfree : k.uptime.inside? = none := by rw [hidle]; rfl
    exact InStep.free hfree (owns_act hk.owns hstep) (fun h => absurd hidle h) hk.values
      hk.progress
  | uptimeGet t =>
    simp only [portStep, Option.ite_none_right_eq_some, Option.some.injEq, Prod.mk.injEq] at hs
    obtain ⟨⟨hidle, hpc⟩, rfl, rfl⟩ := hs
    have hprogress := hk.progress
    rw [hidle] at hprogress
    exact InStep.free rfl hk.owns (fun _ => hpc) hk.values ⟨hprogress, rfl⟩
  | uptimeStep =>
    simp only [portStep, Option.map_eq_some_iff, Prod.mk.injEq, Prod.exists] at hs
    obtain ⟨y, pc, hstep, rfl, rfl⟩ := hs
    exact inStep_uptime hk hstep

/-- A context is preempted where the region is free: it stands aside, and the new one is in step. -/
theorem inStep_preempt (hk : InStep n x k) (hfree : x.lock.region = false) :
    Aside k ∧ InStep n x ⟨.fresh, .idle⟩ := by
  have hout := hk.owns.outside hfree
  have hinside : k.uptime.inside? = none := by
    by_contra h
    rw [hk.region (Option.isSome_iff_ne_none.mpr h)] at hfree
    cases hfree
  obtain ⟨hsettled, hfresh⟩ := hk.progress.outside hinside
  have hdepth : x.lock.mLockDepth = 0 := by rw [eq_zero_iff, hk.owns.depth, hout.counted]
  exact ⟨⟨hout, hk.idle, hinside, hfresh⟩,
    InStep.free rfl (Outside.owns ⟨rfl, id⟩ hdepth) (fun h => absurd rfl h) hk.values hsettled⟩

/-- A context that is done leaves every one that stands aside in step. -/
theorem inStep_finish {held : Bool} {j : PortContext} (hk : InStep n x k)
    (hdone : (portContexts n held).done k = true) (hj : Aside j) : InStep n x j := by
  simp only [portContexts, decide_eq_true_eq] at hdone
  obtain ⟨hpc, hopen, hidle⟩ := hdone
  have hdepth : x.lock.mLockDepth = 0 := by
    rw [eq_zero_iff, hk.owns.depth, LockContext.counted, hpc, hopen]
  have hprogress := hk.progress
  rw [hidle] at hprogress
  have hsettled : x.uptime = uptimeAfter .boot (readings x.sampled) := hprogress
  refine InStep.free hj.free (hj.outside.owns hdepth) hj.idle hk.values ?_
  rw [hsettled]
  exact hj.fresh.progress hj.free _

/-- What an action does to the values: none is added; one is sampled, and is then to be returned; or
one that was to be returned is. -/
theorem portStep_values {a : PortAction} (hs : portStep n x k a = some (x', k')) :
    (x'.sampled = x.sampled ∧ x'.returned = x.returned ∧ k'.pending? n = k.pending? n) ∨
      (∃ r, x'.sampled = x.sampled ++ [r] ∧ x'.returned = x.returned ∧ k.pending? n = none ∧
        k'.pending? n = some r) ∨
      ∃ r, x'.sampled = x.sampled ∧ x'.returned = x.returned ++ [r] ∧ k.pending? n = some r ∧
        k'.pending? n = none := by
  obtain ⟨lock, upc⟩ := k
  cases a with
  | lock a =>
    simp only [portStep, Option.ite_none_right_eq_some, Option.map_eq_some_iff, Prod.mk.injEq,
      Prod.exists] at hs
    obtain ⟨-, y, j, -, rfl, rfl⟩ := hs
    exact Or.inl ⟨rfl, rfl, rfl⟩
  | uptimeGet t =>
    simp only [portStep, Option.ite_none_right_eq_some, Option.some.injEq, Prod.mk.injEq] at hs
    obtain ⟨⟨hidle, -⟩, rfl, rfl⟩ := hs
    subst hidle
    exact Or.inl ⟨rfl, rfl, rfl⟩
  | uptimeStep =>
    simp only [portStep, Option.map_eq_some_iff, Prod.mk.injEq, Prod.exists] at hs
    obtain ⟨y, pc, hstep, rfl, rfl⟩ := hs
    cases upc with
    | idle => cases hstep
    | test c =>
      simp only [uptimeStep, Option.some.injEq, Prod.mk.injEq] at hstep
      obtain ⟨rfl, rfl⟩ := hstep
      refine Or.inl ⟨rfl, rfl, ?_⟩
      split_ifs <;> rfl
    | exit c =>
      simp only [uptimeStep, Option.some.injEq, Prod.mk.injEq] at hstep
      obtain ⟨rfl, rfl⟩ := hstep
      exact Or.inr (Or.inl ⟨_, rfl, rfl, rfl, rfl⟩)
    | convert c =>
      simp only [uptimeStep, Option.some.injEq, Prod.mk.injEq] at hstep
      obtain ⟨rfl, rfl⟩ := hstep
      exact Or.inr (Or.inr ⟨_, rfl, rfl, rfl, rfl⟩)
    | _ =>
      simp only [uptimeStep, Option.some.injEq, Prod.mk.injEq] at hstep
      obtain ⟨rfl, rfl⟩ := hstep
      exact Or.inl ⟨rfl, rfl, rfl⟩

end Steps

/-! ### Every interleaving -/

section Runs

variable {n : UInt32} {held : Bool} {s : Preemptive.Stack PortState PortContext}

theorem inStep_reachable (hr : (portContexts n held).machine.Reachable s) :
    InStep n s.shared s.running ∧ ∀ k ∈ s.suspended, Aside k := by
  refine Preemptive.stack_invariant (I := InStep n) (J := Aside) ?_
    (fun _ _ _ _ _ hk hs => inStep_act hk hs) (fun _ _ hk hmask => inStep_preempt hk hmask)
    (fun _ _ _ hk hdone hj => inStep_finish hk hdone hj) hr
  exact InStep.free rfl (owns_start held) (fun h => absurd rfl h) rfl rfl

/-- Each critical region that has been left accounts for one value, returned or to be returned. -/
theorem sampled_perm (hr : (portContexts n held).machine.Reachable s) :
    s.shared.sampled.Perm (s.shared.returned ++ s.contexts.filterMap (·.pending? n)) := by
  refine Mealy.reachable_invariant (I := fun s : Preemptive.Stack PortState PortContext =>
    s.shared.sampled.Perm (s.shared.returned ++ s.contexts.filterMap (·.pending? n))) (.refl _)
    (fun s t o s' hs hn => ?_) hr
  rcases Preemptive.machine_next hn with ⟨a, -, hstep, hsus⟩ | ⟨-, -, hx, hk⟩ | ⟨-, hdone, hx, hk⟩
  · simp only [Preemptive.Stack.contexts, List.filterMap_cons, hsus] at hs ⊢
    rcases portStep_values hstep with ⟨h1, h2, h3⟩ | ⟨r, h1, h2, h3, h4⟩ | ⟨r, h1, h2, h3, h4⟩
    · rw [h1, h2, h3]
      exact hs
    · rw [h1, h2, h4]
      rw [h3] at hs
      refine (hs.append_right [r]).trans ?_
      rw [List.append_assoc]
      exact (List.perm_append_singleton r _).append_left _
    · rw [h1, h2, h4, List.append_assoc]
      rwa [h3] at hs
  · rw [hx, hk]
    exact hs
  · have hidle : s.running.pending? n = none := by
      simp only [portContexts, decide_eq_true_eq] at hdone
      rw [PortContext.pending?, hdone.2.2]
    rw [hk, List.filterMap_cons, hidle] at hs
    rw [hx]
    exact hs

/-- The values are right if and only if the readings are steady. -/
theorem sampled_exact_iff {l : List (ℕ × Option UInt64)} (hz : appTimerHz n ≠ 0)
    (hvalues : l.map Prod.snd = uptimes n .boot (readings l))
    (hb : ∀ t ∈ readings l, t * 1000 < 2 ^ 63) :
    (∀ r ∈ l, r.2.map UInt64.toNat = some (trueUptime n r.1)) ↔ Steady 0 (readings l) := by
  rw [← uptimes_exact_iff hz standsAt_boot (by norm_num) hb, ← hvalues, readings,
    List.map_map, List.map_map]
  exact List.map_inj_left.symm

/-- **Calls of `hubble_uptime_get` are serial**, in any interleaving of any number of contexts that
also use the lock, around these calls or not.  In the order of their critical regions they return
what calls made one after the other would return, each once, and the static variables are what those
would leave; the region stays held for as long as a lock is held or a call is in its region, and no
preempted context is in either.  So every value is the true uptime at its reading if and only if the
readings, in that order, never go back and lie less than a period apart. -/
theorem uptime_calls_serial (hr : (portContexts n held).machine.Reachable s) :
    s.shared.sampled.map Prod.snd = uptimes n .boot (readings s.shared.sampled) ∧
      s.shared.sampled.Perm (s.shared.returned ++ s.contexts.filterMap (·.pending? n)) ∧
      (¬ s.running.uptime.InRegion →
        s.shared.uptime = uptimeAfter .boot (readings s.shared.sampled)) ∧
      (s.running.lock.Holds ∨ s.running.uptime.InRegion → s.shared.lock.region = true) ∧
      (∀ k ∈ s.suspended, ¬ k.lock.Holds ∧ ¬ k.uptime.InRegion) ∧
      (appTimerHz n ≠ 0 →
        (∀ t ∈ readings s.shared.sampled, t * 1000 < 2 ^ 63) →
        ((∀ r ∈ s.shared.sampled, r.2.map UInt64.toNat = some (trueUptime n r.1)) ↔
          Steady 0 (readings s.shared.sampled))) := by
  obtain ⟨hrun, hsus⟩ := inStep_reachable hr
  refine ⟨hrun.values, sampled_perm hr, fun h => ?_, ?_, fun k hk => ⟨fun h => ?_, fun h => ?_⟩, ?_⟩
  · have hinside : s.running.uptime.inside? = none := by
      by_contra hne
      exact h (Option.isSome_iff_ne_none.mpr hne)
    exact (hrun.progress.outside hinside).1
  · rintro (h | h)
    · exact hrun.owns.held (Or.inl (lt_of_lt_of_le h s.running.lock.openLocks_le_counted))
    · exact hrun.region h
  · have hle := k.lock.openLocks_le_counted
    rw [(hsus k hk).outside.counted] at hle
    exact absurd h (Nat.not_lt.mpr hle)
  · rw [UptimePc.InRegion, (hsus k hk).free] at h
    cases h
  · exact fun hz hb => sampled_exact_iff hz hrun.values hb

end Runs

/-- The main thread is preempted on its return, a second after boot; the handler samples the uptime
under the lock, when the counter has just rolled over. -/
def preemptedReturn : List (Preemptive.Turn PortAction) :=
  let uptimeSteps (k : ℕ) : List (Preemptive.Turn PortAction) := .replicate k (.act .uptimeStep)
  let lockSteps (k : ℕ) : List (Preemptive.Turn PortAction) := .replicate k (.act (.lock .step))
  .act (.uptimeGet 32768) :: uptimeSteps 5 ++
    .preempt :: .act (.lock .lock) :: lockSteps 4 ++
    .act (.uptimeGet 16777216) :: uptimeSteps 8 ++
    .act (.lock .unlock) :: lockSteps 5 ++ [.finish, .act .uptimeStep]

/-- The handler's call returns first; both return the true uptime. -/
theorem uptime_calls_serial_return :
    ∃ s, (portContexts 0 false).machine.Reachable s ∧
      s.shared.returned.map Prod.fst = [16777216, 32768] ∧
      s.shared.sampled.Perm s.shared.returned ∧
      uptimes 0 .boot [32768, 16777216] = [some 1000, some 512000] ∧
      ∀ r ∈ s.shared.sampled, r.2.map UInt64.toNat = some (trueUptime 0 r.1) := by
  have hrun : ∃ h s, (portContexts 0 false).machine.Run h s ∧
      s.shared.returned.map Prod.fst = [16777216, 32768] ∧
      s.shared.sampled = [(32768, some 1000), (16777216, some 512000)] ∧
      s.contexts.filterMap (·.pending? 0) = [] :=
    ⟨_, _, Mealy.runFrom_of_exec (M := (portContexts 0 false).machine)
      (s := ⟨⟨⟨false, 0, 0⟩, .boot, [], []⟩, ⟨.fresh, .idle⟩, []⟩) (l := preemptedReturn) rfl,
      rfl, rfl, rfl⟩
  obtain ⟨h, s, hr, hreturned, hsampled, hpending⟩ := hrun
  obtain ⟨hvalues, hperm, -, -, -, hexact⟩ := uptime_calls_serial ⟨h, hr⟩
  rw [hpending, List.append_nil] at hperm
  refine ⟨s, ⟨h, hr⟩, hreturned, hperm, ?_, (hexact (by decide) ?_).mpr ?_⟩
  · rw [hsampled] at hvalues
    exact hvalues.symm
  · simp [hsampled, readings]
  · simp [hsampled, readings, Steady, counterPeriod]

end HubbleNordic
