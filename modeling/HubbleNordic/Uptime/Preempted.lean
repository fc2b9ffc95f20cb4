import HubbleNordic.Mealy
import HubbleNordic.Uptime.Model

/-!
# A stale counter reading

`hubble_uptime_get` reads the counter before it enters the critical region.  A call in thread
context may be preempted there by complete calls in interrupt context, and then hands the critical
region a reading older than the last one the state has seen: the region takes it for a rollover.

* `UptimeRun`, `UptimeEvent`, `Completion` and the machine `uptimeCalls`, whose inputs carry the
  true tick counts at which the steps are made;
* `completion_truthful_iff`: what one completed call leaves behind is right if and only if its
  reading was in order;
* `uptime_runs_iff`: a run is right throughout if and only if every completed call was in order;
* `phantom_rollover`: a run of three steps that counts a rollover the counter never made.
-/

namespace HubbleNordic

/-- A call in thread context that has read the counter: when, and what. -/
structure ThreadCall where
  readAt : ℕ
  counter : UInt32
  preempted : Bool

/-- The state of the calls: the static variables, the true tick count of the last step, those of
the counter readings made so far (latest first), the thread's unfinished call, and the tick of the
reading that the last completed call had made (0 from boot). -/
structure UptimeRun where
  uptime : UptimeState
  now : ℕ
  reads : List ℕ
  thread : Option ThreadCall
  completed : ℕ

/-- A step, at its true tick counts: the thread reads the counter; the thread enters the critical
region and returns; an interrupt handler makes a complete call, reading at `t`, returning at `u`. -/
inductive UptimeEvent
  | threadRead (t : ℕ)
  | threadUpdate (u : ℕ)
  | interruptCall (t u : ℕ)

/-- A completed call. -/
structure Completion where
  readAt : ℕ
  returnAt : ℕ
  uptime : Option UInt64
  deriving DecidableEq

namespace UptimeRun

def boot : UptimeRun := ⟨.boot, 0, [], none, 0⟩

/-- Consecutive counter readings are less than a period apart. -/
def Near (s : UptimeRun) (t : ℕ) : Prop := ∀ p ∈ s.reads.head?, t < p + counterPeriod

instance (s : UptimeRun) (t : ℕ) : Decidable (s.Near t) := by unfold Near; infer_instance

/-- The thread's call has been preempted. -/
def preempt (s : UptimeRun) : Option ThreadCall :=
  s.thread.map fun c => { c with preempted := true }

end UptimeRun

/-- The calls of `hubble_uptime_get`. True time never goes back, consecutive readings are less than
a period apart, and a preempted call resumes less than a period after its reading. -/
def uptimeCalls (n : UInt32) : Mealy UptimeRun UptimeEvent (Option Completion) where
  init := .boot
  next s
    | .threadRead t =>
        if s.thread.isNone = true ∧ s.now ≤ t ∧ s.Near t then
          some (none, { s with
            now := t
            reads := t :: s.reads
            thread := some ⟨t, appTimerCntGet t, false⟩ })
        else none
    | .threadUpdate u =>
        match s.thread with
        | none => none
        | some c =>
            if s.now ≤ u ∧ (c.preempted = true → u < c.readAt + counterPeriod) then
              let (ticks, uptime) := criticalRegion c.counter.toUInt64 s.uptime
              some (some ⟨c.readAt, u, ticksToUptime n ticks⟩, { s with
                uptime := uptime
                now := u
                thread := none
                completed := c.readAt })
            else none
    | .interruptCall t u =>
        if s.now ≤ t ∧ t ≤ u ∧ s.Near t then
          let (r, uptime) := hubbleUptimeGet n (appTimerCntGet t) s.uptime
          some (some ⟨t, u, r⟩, { s with
            uptime := uptime
            now := u
            reads := t :: s.reads
            thread := s.preempt
            completed := t })
        else none

/-- The tick of the reading that the call completed by the step has made. -/
def UptimeEvent.completes (s : UptimeRun) : UptimeEvent → Option ℕ
  | .threadRead _ => none
  | .threadUpdate _ => s.thread.map ThreadCall.readAt
  | .interruptCall t _ => some t

/-- The static variables stand at the true tick of a reading already made, and the value returned
lies between the true uptimes at the reading and at the return. -/
def Truthful (n : UInt32) (uptime : UptimeState) (reads : List ℕ) (c : Completion) : Prop :=
  uptime.extendedTicks.toNat + uptime.prevTicks.toNat ∈ reads ∧
    ∃ r, c.uptime = some r ∧ trueUptime n c.readAt ≤ r.toNat ∧ r.toNat ≤ trueUptime n c.returnAt

/-- A reading is in order after one at `p`: not older, less than a period younger, and small enough
for the conversion to milliseconds. -/
def InOrder (p t : ℕ) : Prop := p ≤ t ∧ t < p + counterPeriod ∧ t * 1000 < 2 ^ 64

/-- Every completed call is truthful. -/
def AlwaysTruthful (n : UInt32) (_ : List (UptimeEvent × Option Completion)) (_ : UptimeRun)
    (_ : UptimeEvent) (o : Option Completion) (s' : UptimeRun) : Prop :=
  ∀ c ∈ o, Truthful n s'.uptime s'.reads c

/-- Every completed call's reading is in order after that of the call completed before it. -/
def AlwaysInOrder (_ : List (UptimeEvent × Option Completion)) (s : UptimeRun) (e : UptimeEvent)
    (_ : Option Completion) (_ : UptimeRun) : Prop :=
  ∀ t ∈ e.completes s, InOrder s.completed t

/-! ### One completed call -/

theorem appTimerHz_le (n : UInt32) : (appTimerHz n).toNat ≤ 32768 := by
  rw [appTimerHz, UInt32.toNat_shiftRight]
  exact Nat.shiftRight_le _ _

/-- Two numbers a divisor or more apart have different quotients. -/
private theorem div_lt_div_of_add_le {x y z : ℕ} (hz : 0 < z) (h : x + z ≤ y) :
    x / z < y / z := by
  rw [Nat.lt_iff_add_one_le, ← Nat.add_div_right x hz]
  exact Nat.div_le_div_right h

/-- **One completed call**: from a state that stands at `p`, a call that read the counter at `t` and
returns at `u` is truthful if and only if its reading is in order after `p`. -/
theorem completion_truthful_iff {n : UInt32} (hz : appTimerHz n ≠ 0) {s : UptimeState}
    {p t u : ℕ} {reads : List ℕ} (hs : s.StandsAt p) (hp : p * 1000 < 2 ^ 64) (htu : t ≤ u)
    (hmem : t ∈ reads) (hreads : ∀ q ∈ reads, q ≤ u)
    (hstale : t < p → p ≤ u ∧ u < t + counterPeriod) :
    Truthful n (criticalRegion (appTimerCntGet t).toUInt64 s).2 reads
        ⟨t, u, ticksToUptime n (criticalRegion (appTimerCntGet t).toUInt64 s).1⟩ ↔
      InOrder p t := by
  have hroomy := hs.roomy hp
  have hhz : 0 < (appTimerHz n).toNat := by
    rw [Nat.pos_iff_ne_zero]
    intro h
    exact hz (UInt32.toNat_inj.mp h)
  have hhz' := appTimerHz_le n
  obtain ⟨r, hr, hval⟩ :=
    ticksToUptime_eq hz (criticalRegion (appTimerCntGet t).toUInt64 s).1
  constructor
  · rintro ⟨hvalue, r', hr', hlow, -⟩
    simp only [hr, Option.some.injEq] at hr'
    subst hr'
    replace hlow : t * 1000 / (appTimerHz n).toNat ≤ r.toNat := hlow
    rw [hval] at hlow
    have hle : p ≤ t := by
      by_contra hlt
      -- the stale reading is taken for a rollover, past every reading made
      obtain ⟨hpu, hut⟩ := hstale (by omega)
      have hs' := criticalRegion_stale (t := t) hs hroomy (by omega) (by omega)
      have hbound := hreads _ hvalue
      have hahead := hs'.value_eq
      simp only [Tracker.value, UptimeState.tracker] at hahead
      omega
    have hlt : t < p + counterPeriod := by
      by_contra hlate
      -- a rollover is lost, so the value returned is at least one period short
      have hshort := criticalRegion_late hs hroomy (Nat.not_lt.mp hlate)
      refine absurd hlow (Nat.not_le.mpr (lt_of_le_of_lt
        (Nat.div_le_div_right (Nat.mod_le _ _)) (div_lt_div_of_add_le hhz ?_)))
      simp only [counterPeriod] at hshort
      omega
    refine ⟨hle, hlt, ?_⟩
    by_contra hover
    obtain ⟨-, hticks⟩ := criticalRegion_onTime hs hroomy hle hlt
    rw [hticks] at hlow
    exact absurd hlow (Nat.not_le.mpr (div_lt_div_of_add_le hhz (by omega)))
  · rintro ⟨hle, hlt, hover⟩
    obtain ⟨hs', hticks⟩ := criticalRegion_onTime hs hroomy hle hlt
    rw [hticks, Nat.mod_eq_of_lt hover] at hval
    refine ⟨?_, r, hr, hval.ge, hval.le.trans (trueUptime_le htu)⟩
    have hvalue := hs'.value_eq
    simp only [Tracker.value, UptimeState.tracker] at hvalue
    rw [hvalue]
    exact hmem

/-! ### Runs -/

/-- What holds along a run whose calls have all been in order. -/
structure Orderly (s : UptimeRun) : Prop where
  standsAt : s.uptime.StandsAt s.completed
  small : s.completed * 1000 < 2 ^ 64
  completed_le : s.completed ≤ s.now
  reads_le : ∀ t ∈ s.reads, t ≤ s.now
  thread : ∀ c ∈ s.thread, c.counter = appTimerCntGet c.readAt ∧ c.readAt ∈ s.reads ∧
    (c.preempted = false → s.completed ≤ c.readAt)

theorem orderly_boot : Orderly .boot where
  standsAt := standsAt_boot
  small := by simp [UptimeRun.boot]
  completed_le := le_rfl
  reads_le := by simp [UptimeRun.boot]
  thread := by simp [UptimeRun.boot]

section Steps

variable {n : UInt32} {s s' : UptimeRun} {o : Option Completion} {t u : ℕ}

theorem threadRead_next (hn : (uptimeCalls n).next s (.threadRead t) = some (o, s')) :
    s.now ≤ t ∧ o = none ∧
      s' = { s with
        now := t, reads := t :: s.reads, thread := some ⟨t, appTimerCntGet t, false⟩ } := by
  simp only [uptimeCalls, Option.ite_none_right_eq_some, Option.some.injEq, Prod.mk.injEq] at hn
  obtain ⟨⟨-, hnow, -⟩, ho, hs'⟩ := hn
  exact ⟨hnow, ho.symm, hs'.symm⟩

theorem threadUpdate_next (hn : (uptimeCalls n).next s (.threadUpdate u) = some (o, s')) :
    ∃ c, s.thread = some c ∧ s.now ≤ u ∧ (c.preempted = true → u < c.readAt + counterPeriod) ∧
      o = some ⟨c.readAt, u,
        ticksToUptime n (criticalRegion c.counter.toUInt64 s.uptime).1⟩ ∧
      s' = { s with
        uptime := (criticalRegion c.counter.toUInt64 s.uptime).2
        now := u
        thread := none
        completed := c.readAt } := by
  cases hc : s.thread with
  | none => simp [uptimeCalls, hc] at hn
  | some c =>
    simp only [uptimeCalls, hc, Option.ite_none_right_eq_some, Option.some.injEq,
      Prod.mk.injEq] at hn
    obtain ⟨⟨hnow, hresume⟩, ho, hs'⟩ := hn
    exact ⟨c, rfl, hnow, hresume, ho.symm, hs'.symm⟩

theorem interruptCall_next (hn : (uptimeCalls n).next s (.interruptCall t u) = some (o, s')) :
    s.now ≤ t ∧ t ≤ u ∧
      o = some ⟨t, u,
        ticksToUptime n (criticalRegion (appTimerCntGet t).toUInt64 s.uptime).1⟩ ∧
      s' = { s with
        uptime := (criticalRegion (appTimerCntGet t).toUInt64 s.uptime).2
        now := u
        reads := t :: s.reads
        thread := s.preempt
        completed := t } := by
  simp only [uptimeCalls, Option.ite_none_right_eq_some, Option.some.injEq, Prod.mk.injEq] at hn
  obtain ⟨⟨hnow, htu, -⟩, ho, hs'⟩ := hn
  exact ⟨hnow, htu, ho.symm, hs'.symm⟩

/-- A step that reads and updates in order keeps the run orderly. -/
theorem orderly_next {e : UptimeEvent} (hs : Orderly s)
    (hn : (uptimeCalls n).next s e = some (o, s')) (he : AlwaysInOrder [] s e o s') :
    Orderly s' := by
  cases e with
  | threadRead t =>
    obtain ⟨hnow, -, rfl⟩ := threadRead_next hn
    have hcompleted := hs.completed_le
    refine ⟨hs.standsAt, hs.small, by simpa using hcompleted.trans hnow, ?_, ?_⟩
    · intro q hq
      rcases List.mem_cons.mp hq with rfl | hq
      · exact le_rfl
      · exact (hs.reads_le q hq).trans hnow
    · rintro c hc
      rw [Option.mem_some_iff] at hc
      subst hc
      exact ⟨rfl, List.mem_cons_self, fun _ => hcompleted.trans hnow⟩
  | threadUpdate u =>
    obtain ⟨c, hc, hnow, -, -, rfl⟩ := threadUpdate_next hn
    obtain ⟨hcounter, hmem, -⟩ := hs.thread c hc
    obtain ⟨h1, h2, h3⟩ : InOrder s.completed c.readAt :=
      he c.readAt (by simp [UptimeEvent.completes, hc])
    refine ⟨?_, h3, (hs.reads_le _ hmem).trans hnow, ?_, by simp⟩
    · rw [hcounter]
      exact (criticalRegion_onTime hs.standsAt (hs.standsAt.roomy hs.small) h1 h2).1
    · exact fun q hq => (hs.reads_le q hq).trans hnow
  | interruptCall t u =>
    obtain ⟨hnow, htu, -, rfl⟩ := interruptCall_next hn
    obtain ⟨h1, h2, h3⟩ : InOrder s.completed t := he t (by simp [UptimeEvent.completes])
    refine ⟨?_, h3, htu, ?_, ?_⟩
    · exact (criticalRegion_onTime hs.standsAt (hs.standsAt.roomy hs.small) h1 h2).1
    · intro q hq
      rcases List.mem_cons.mp hq with rfl | hq
      · exact htu
      · exact (hs.reads_le q hq).trans (hnow.trans htu)
    · intro c hc
      obtain ⟨d, hd, rfl⟩ := Option.mem_map.mp hc
      obtain ⟨hcounter, hmem, -⟩ := hs.thread d hd
      exact ⟨hcounter, List.mem_cons_of_mem _ hmem, fun h => nomatch h⟩

/-- Along an orderly run, the call completed by a step is truthful if and only if it is in order. -/
theorem truthful_next_iff (hz : appTimerHz n ≠ 0) {e : UptimeEvent} (hs : Orderly s)
    (hn : (uptimeCalls n).next s e = some (o, s')) :
    AlwaysTruthful n [] s e o s' ↔ AlwaysInOrder [] s e o s' := by
  cases e with
  | threadRead t =>
    obtain ⟨-, rfl, -⟩ := threadRead_next hn
    simp [AlwaysTruthful, AlwaysInOrder, UptimeEvent.completes]
  | threadUpdate u =>
    obtain ⟨c, hc, hnow, hresume, rfl, rfl⟩ := threadUpdate_next hn
    obtain ⟨hcounter, hmem, hfresh⟩ := hs.thread c hc
    have hiff := completion_truthful_iff hz hs.standsAt hs.small
      ((hs.reads_le _ hmem).trans hnow) hmem (fun q hq => (hs.reads_le q hq).trans hnow) ?_
    · simpa [AlwaysTruthful, AlwaysInOrder, UptimeEvent.completes, hc, hcounter] using hiff
    · intro hlt
      have hpre : c.preempted = true := by
        by_contra h
        exact absurd (hfresh (by simpa using h)) (Nat.not_le.mpr hlt)
      exact ⟨hs.completed_le.trans hnow, hresume hpre⟩
  | interruptCall t u =>
    obtain ⟨hnow, htu, rfl, rfl⟩ := interruptCall_next hn
    have hiff := completion_truthful_iff hz hs.standsAt hs.small htu
      (List.mem_cons_self : t ∈ t :: s.reads) ?_ ?_
    · simpa [AlwaysTruthful, AlwaysInOrder, UptimeEvent.completes] using hiff
    · intro q hq
      rcases List.mem_cons.mp hq with rfl | hq
      · exact htu
      · exact (hs.reads_le q hq).trans (hnow.trans htu)
    · intro hlt
      exact absurd (hs.completed_le.trans hnow) (Nat.not_le.mpr hlt)

end Steps

theorem orderly_run {n : UInt32} {h : List (UptimeEvent × Option Completion)} {s : UptimeRun}
    (hr : (uptimeCalls n).RunWith AlwaysInOrder h s) : Orderly s :=
  Mealy.runWith_invariant (I := fun _ s => Orderly s) orderly_boot
    (fun _ _ _ _ _ _ hs hn he => orderly_next hs hn he) hr

/-- **No phantom and no lost rollover, exactly when readings are in order**: along a run every
completed call leaves the state at the tick of a reading already made and returns an uptime between
the true ones at its reading and at its return, if and only if every completed call's reading is
not older than that of the call completed before it, less than a period younger, and below
`2 ^ 64 / 1000` ticks. -/
theorem uptime_runs_iff {n : UInt32} (hz : appTimerHz n ≠ 0)
    (h : List (UptimeEvent × Option Completion)) (s : UptimeRun) :
    (uptimeCalls n).RunWith (AlwaysTruthful n) h s ↔ (uptimeCalls n).RunWith AlwaysInOrder h s :=
  Mealy.runWith_iff (fun _ _ _ _ _ _ hr hn => truthful_next_iff hz (orderly_run hr) hn) h s

/-- A call at tick 100, preempted by one that reads the counter at the same tick, and one after a
rollover: all are in order, and truthful. -/
theorem uptime_runs_same_tick :
    ∃ h s, (uptimeCalls 0).RunWith (AlwaysTruthful 0) h s ∧
      h.map Prod.fst = [.threadRead 100, .interruptCall 100 110, .threadUpdate 120,
        .interruptCall 16777300 16777310] ∧
      h.filterMap Prod.snd = [⟨100, 110, some 3⟩, ⟨100, 120, some 3⟩,
        ⟨16777300, 16777310, some 512002⟩] := by
  refine ⟨_, _, (uptime_runs_iff (n := 0) (by decide) _ _).mpr
    ((((Mealy.RunWith.nil.snoc (i := .threadRead 100) rfl ?_).snoc
      (i := .interruptCall 100 110) rfl ?_).snoc (i := .threadUpdate 120) rfl ?_).snoc
      (i := .interruptCall 16777300 16777310) rfl ?_), rfl, rfl⟩
  · simp [AlwaysInOrder, UptimeEvent.completes]
  · intro t ht
    obtain rfl : 100 = t := Option.some.inj ht
    exact ⟨by decide, by decide, by decide⟩
  · intro t ht
    obtain rfl : 100 = t := Option.some.inj ht
    exact ⟨by decide, by decide, by decide⟩
  · intro t ht
    obtain rfl : 16777300 = t := Option.some.inj ht
    exact ⟨by decide, by decide, by decide⟩

/-- **A phantom rollover**: the thread reads the counter at tick 100, a handler's complete call
reads it at tick 200, and the thread resumes at tick 300; the counter never rolled over, but the
state stands a whole period ahead, at the tick of no reading, and the thread's uptime is more than
eight minutes ahead of the true one. -/
theorem phantom_rollover :
    ∃ h s, (uptimeCalls 0).Run h s ∧
      h.map Prod.fst = [.threadRead 100, .interruptCall 200 200, .threadUpdate 300] ∧
      s.reads = [200, 100] ∧
      s.uptime.extendedTicks.toNat + s.uptime.prevTicks.toNat = 100 + 2 ^ 24 ∧
      h.getLast?.bind Prod.snd = some ⟨100, 300, some 512003⟩ ∧ trueUptime 0 300 = 9 ∧
      ¬ Truthful 0 s.uptime s.reads ⟨100, 300, some 512003⟩ :=
  ⟨_, _, Mealy.runFrom_of_exec (M := uptimeCalls 0) (s := .boot)
    (l := [.threadRead 100, .interruptCall 200 200, .threadUpdate 300]) rfl,
    rfl, rfl, by decide, by decide, by decide, fun ht => absurd ht.1 (by decide)⟩

end HubbleNordic
