import HubbleNordic.Preemption
import HubbleNordic.Lock.Model

/-!
# The lock excludes preempting contexts

The main thread and any number of interrupt handlers, each preempting the others at any step where
the critical region is not held, make calls of `hubble_lock` and `hubble_unlock` in any order.

* `LockContext`, `LockAction`, `contextStep`: what one context may do: lock up to 255 times, unlock
  (also with no lock held), enter the region by other means, and leave it so while no lock is held;
* `Owns`: what holds between the globals and the running context at each step of the two functions;
  `Outside`: what holds of a preempted context;
* `owns_act`: each step keeps `Owns`, by cases over the step;
* `lock_exclusive`: only the running context ever holds a lock, and the globals are its own.
-/

namespace HubbleNordic

/-- A context: where it stands, the locks it has been granted and not yet asked to release, whether
the unlock it is making releases one, and (for the statement only) what the region reported to
its outermost lock. -/
structure LockContext where
  pc : LockPc
  openLocks : ℕ
  closing : Bool
  outerNested : UInt8
  deriving DecidableEq

/-- A context that has done nothing yet. -/
def LockContext.fresh : LockContext := ⟨.idle, 0, false, 0⟩

/-- What a context does: the next step of its call, a new call, or entering and leaving the critical
region by other means. -/
inductive LockAction
  | step
  | lock
  | unlock
  | rawEnter
  | rawExit (nested : UInt8)

/-- The step is the last of a `hubble_lock`: a lock is granted. -/
def LockPc.grants : LockPc → LockPc → Bool
  | .lockWriteDepth _ _, .idle => true
  | .lockSaveNested _, .idle => true
  | _, _ => false

/-- The context after a step of its call to `pc`. -/
def LockContext.advance (k : LockContext) (x : LockState) (pc : LockPc) : LockContext where
  pc := pc
  openLocks := if k.pc.grants pc then k.openLocks + 1 else k.openLocks
  closing := k.closing
  outerNested :=
    if k.pc = .lockEnter ∧ k.openLocks = 0 then (appUtilCriticalRegionEnter x).1
    else k.outerNested

/-- The actions of a context.  It keeps at most 255 locks open, and does not leave the region by
other means while it holds one. -/
def contextStep (x : LockState) (k : LockContext) : LockAction → Option (LockState × LockContext)
  | .step => (lockStep x k.pc).map fun (x', pc) => (x', k.advance x pc)
  | .lock =>
      if k.pc = .idle ∧ k.openLocks < 255 then some (x, { k with pc := .lockEnter }) else none
  | .unlock =>
      if k.pc = .idle then
        some (x, { k with
          pc := .unlockTest
          openLocks := k.openLocks - 1
          closing := decide (0 < k.openLocks) })
      else none
  | .rawEnter => if k.pc = .idle then some ((appUtilCriticalRegionEnter x).2, k) else none
  | .rawExit nested =>
      if k.pc = .idle ∧ (k.openLocks = 0 ∨ nested ≠ 0) then
        some (appUtilCriticalRegionExit nested x, k)
      else none

/-- All interleavings of contexts, with the region free or held at the start.  A context is done
when it has closed every lock it opened; no context starts while the region is held. -/
def lockContexts (held : Bool) : Preemptive LockState LockContext LockAction where
  init := ⟨held, 0, 0⟩
  start := .fresh
  step := contextStep
  masked x := x.region
  done k := decide (k.pc = .idle ∧ k.openLocks = 0)

/-! ### What the globals say about the running context -/

/-- The step lies inside the critical region. -/
def LockPc.InRegion : LockPc → Prop
  | .idle | .lockEnter | .unlockTest => False
  | _ => True

/-- The number of the context's locks that `m_lock_depth` counts: those granted, and the one being
opened or closed while the depth includes it. -/
def LockContext.counted (k : LockContext) : ℕ :=
  match k.pc with
  | .lockSaveNested _ | .unlockReadDepth | .unlockWriteDepth _ => k.openLocks + 1
  | .unlockTest => if k.closing then k.openLocks + 1 else k.openLocks
  | _ => k.openLocks

/-- What the context has read is still so. -/
def LockContext.Current (k : LockContext) (x : LockState) : Prop :=
  match k.pc with
  | .idle | .unlockReadDepth => True
  | .lockEnter => k.openLocks < 255
  | .lockReadDepth nested => k.openLocks < 255 ∧ (k.openLocks = 0 → nested = k.outerNested)
  | .lockWriteDepth nested depth =>
      k.openLocks < 255 ∧ (k.openLocks = 0 → nested = k.outerNested) ∧ depth = x.mLockDepth
  | .lockSaveNested nested => k.openLocks = 0 ∧ nested = k.outerNested
  | .unlockTest => k.closing = false → k.openLocks = 0
  | .unlockWriteDepth depth => depth = x.mLockDepth
  | .unlockExitInner => 0 < k.openLocks
  | .unlockReadNested | .unlockExit _ => k.openLocks = 0

/-- The nesting flag is about to be saved. -/
def LockPc.Saving : LockPc → Prop
  | .lockSaveNested _ => True
  | _ => False

/-- **The globals belong to the running context**: the depth counts its locks, the region is held as
long as it has any, and the saved flag is the one its outermost lock was told. -/
structure Owns (x : LockState) (k : LockContext) : Prop where
  depth : x.mLockDepth.toNat = k.counted
  held : 0 < k.counted ∨ k.pc.InRegion → x.region = true
  nested : 0 < k.counted → ¬ k.pc.Saving → x.mLockNested = k.outerNested
  current : k.Current x

/-- A context that was preempted has no lock, and stands outside the region. -/
structure Outside (k : LockContext) : Prop where
  counted : k.counted = 0
  pc : ¬ k.pc.InRegion

theorem owns_start (held : Bool) : Owns ⟨held, 0, 0⟩ .fresh where
  depth := rfl
  held h := by simp [LockContext.fresh, LockContext.counted, LockPc.InRegion] at h
  nested h := by simp [LockContext.fresh, LockContext.counted] at h
  current := trivial

/-- A preempted context is outside: the region was not held. -/
theorem Owns.outside {x : LockState} {k : LockContext} (hk : Owns x k) (hx : x.region = false) :
    Outside k := by
  constructor
  · by_contra h
    rw [hk.held (Or.inl (Nat.pos_of_ne_zero h))] at hx
    cases hx
  · intro h
    rw [hk.held (Or.inr h)] at hx
    cases hx

theorem LockContext.openLocks_le_counted (k : LockContext) : k.openLocks ≤ k.counted := by
  obtain ⟨pc, opened, closing, nested⟩ := k
  cases pc with
  | unlockTest => cases closing <;> simp [LockContext.counted]
  | lockSaveNested _ => exact Nat.le_succ opened
  | unlockReadDepth => exact Nat.le_succ opened
  | unlockWriteDepth _ => exact Nat.le_succ opened
  | _ => exact Nat.le_refl opened

/-- With a depth of zero the globals belong to every context that is outside. -/
theorem Outside.owns {k : LockContext} (hk : Outside k) {x : LockState} (hx : x.mLockDepth = 0) :
    Owns x k := by
  have hcounted := hk.counted
  have hopen : k.openLocks = 0 := by
    have hle := k.openLocks_le_counted
    omega
  refine ⟨by rw [hx, hcounted]; rfl, ?_, ?_, ?_⟩
  · rintro (h | h)
    · omega
    · exact absurd h hk.pc
  · intro h
    omega
  · have hpc := hk.pc
    unfold LockContext.Current
    cases hp : k.pc with
    | idle => trivial
    | lockEnter => exact hopen ▸ Nat.zero_lt_succ _
    | unlockTest => exact fun _ => hopen
    | _ =>
      rw [hp] at hpc
      exact absurd trivial hpc

/-! ### Each action keeps the globals with the running context -/

/-- The next step of a call keeps the globals with the context, one case for each step. -/
theorem owns_step {x x' : LockState} {k : LockContext} {pc : LockPc} (hk : Owns x k)
    (hs : lockStep x k.pc = some (x', pc)) : Owns x' (k.advance x pc) := by
  obtain ⟨hdepth, hheld, hnested, hcurrent⟩ := hk
  obtain ⟨kpc, openLocks, closing, outerNested⟩ := k
  cases kpc with
  | idle => simp [lockStep] at hs
  | lockEnter =>
    simp only [lockStep, Option.some.injEq, Prod.mk.injEq] at hs
    obtain ⟨rfl, rfl⟩ := hs
    refine ⟨hdepth, fun _ => rfl, fun hpos _ => ?_, hcurrent, fun hzero => ?_⟩
    · have hopen : openLocks ≠ 0 := Nat.pos_iff_ne_zero.mp hpos
      exact (hnested hpos id).trans (if_neg fun h => hopen h.2).symm
    · exact (if_pos ⟨rfl, hzero⟩).symm
  | lockReadDepth nested =>
    simp only [lockStep, Option.some.injEq, Prod.mk.injEq] at hs
    obtain ⟨rfl, rfl⟩ := hs
    exact ⟨hdepth, fun _ => hheld (Or.inr trivial), hnested, hcurrent.1, hcurrent.2, rfl⟩
  | lockWriteDepth nested depth =>
    simp only [lockStep, Option.some.injEq, Prod.mk.injEq] at hs
    obtain ⟨rfl, rfl⟩ := hs
    obtain ⟨hlt, hnest, rfl⟩ := hcurrent
    have hregion := hheld (Or.inr trivial)
    have hadd : (x.mLockDepth + 1).toNat = openLocks + 1 := by
      rw [toNat_add_one (by rw [hdepth]; exact hlt), hdepth]
      rfl
    by_cases hzero : x.mLockDepth = 0
    · -- the outermost lock: its nesting flag is still to be saved
      have hopen : openLocks = 0 := by rw [eq_zero_iff, hdepth] at hzero; exact hzero
      rw [if_pos hzero]
      exact ⟨hadd, fun _ => hregion, fun _ hsave => absurd trivial hsave, hopen, hnest hopen⟩
    · have hopen : 0 < openLocks := by
        rw [eq_zero_iff, hdepth] at hzero
        exact Nat.pos_of_ne_zero hzero
      rw [if_neg hzero]
      exact ⟨hadd, fun _ => hregion, fun _ _ => hnested hopen id, trivial⟩
  | lockSaveNested nested =>
    simp only [lockStep, Option.some.injEq, Prod.mk.injEq] at hs
    obtain ⟨rfl, rfl⟩ := hs
    exact ⟨hdepth, fun _ => hheld (Or.inr trivial), fun _ _ => hcurrent.2, trivial⟩
  | unlockTest =>
    simp only [lockStep, Option.some.injEq, Prod.mk.injEq] at hs
    obtain ⟨rfl, rfl⟩ := hs
    by_cases hzero : x.mLockDepth = 0
    · -- an unbalanced unlock: nothing is open, nothing changes
      rw [if_pos hzero]
      have hopen : openLocks = 0 := by
        have hle := LockContext.openLocks_le_counted ⟨.unlockTest, openLocks, closing, outerNested⟩
        rw [← hdepth, eq_zero_iff.mp hzero] at hle
        exact Nat.le_zero.mp hle
      subst hopen
      exact Outside.owns ⟨rfl, id⟩ hzero
    · -- the depth counts a lock, so the unlock closes one: the region is held from here on
      rw [if_neg hzero]
      have hclosing : closing = true := by
        by_contra h
        have hopen := hcurrent (by simpa using h)
        rw [eq_zero_iff, hdepth] at hzero
        apply hzero
        simpa [LockContext.counted, h] using hopen
      subst hclosing
      have hregion := hheld (Or.inl (Nat.succ_pos openLocks))
      exact ⟨hdepth, fun _ => hregion, fun _ _ => hnested (Nat.succ_pos openLocks) id, trivial⟩
  | unlockReadDepth =>
    simp only [lockStep, Option.some.injEq, Prod.mk.injEq] at hs
    obtain ⟨rfl, rfl⟩ := hs
    exact ⟨hdepth, fun _ => hheld (Or.inr trivial), hnested, rfl⟩
  | unlockWriteDepth depth =>
    simp only [lockStep, Option.some.injEq, Prod.mk.injEq] at hs
    obtain ⟨rfl, rfl⟩ := hs
    obtain rfl := hcurrent
    have hregion := hheld (Or.inr trivial)
    have hsub : (x.mLockDepth - 1).toNat = openLocks := by
      rw [toNat_sub_one (by rw [hdepth]; exact Nat.succ_pos openLocks), hdepth]
      rfl
    by_cases hinner : x.mLockDepth - 1 > 0
    · rw [if_pos hinner]
      have hopen : 0 < openLocks := by
        rw [← hsub]
        exact UInt8.lt_iff_toNat_lt.mp hinner
      exact ⟨hsub, fun _ => hregion, fun _ _ => hnested (Nat.succ_pos openLocks) id, hopen⟩
    · rw [if_neg hinner]
      have hopen : openLocks = 0 := by
        rw [← hsub]
        by_contra h
        exact hinner (UInt8.lt_iff_toNat_lt.mpr (Nat.pos_of_ne_zero h))
      exact ⟨hsub, fun _ => hregion, fun _ _ => hnested (Nat.succ_pos openLocks) id, hopen⟩
  | unlockExitInner =>
    simp only [lockStep, Option.some.injEq, Prod.mk.injEq] at hs
    obtain ⟨rfl, rfl⟩ := hs
    exact ⟨hdepth, fun _ => hheld (Or.inr trivial), hnested, trivial⟩
  | unlockReadNested =>
    simp only [lockStep, Option.some.injEq, Prod.mk.injEq] at hs
    obtain ⟨rfl, rfl⟩ := hs
    exact ⟨hdepth, fun _ => hheld (Or.inr trivial), hnested, hcurrent⟩
  | unlockExit nested =>
    simp only [lockStep, Option.some.injEq, Prod.mk.injEq] at hs
    obtain ⟨rfl, rfl⟩ := hs
    -- the context's last lock: the region may be free afterwards, and the depth is back to zero
    obtain rfl : openLocks = 0 := hcurrent
    have hzero : (appUtilCriticalRegionExit nested x).mLockDepth = 0 := by
      rw [exit_mLockDepth]
      exact eq_zero_iff.mpr hdepth
    exact Outside.owns ⟨rfl, id⟩ hzero

/-- Every action of a context keeps the globals with it. -/
theorem owns_act {x x' : LockState} {k k' : LockContext} {a : LockAction} (hk : Owns x k)
    (hs : contextStep x k a = some (x', k')) : Owns x' k' := by
  cases a with
  | step =>
    simp only [contextStep, Option.map_eq_some_iff, Prod.mk.injEq, Prod.exists] at hs
    obtain ⟨y, pc, hstep, rfl, rfl⟩ := hs
    exact owns_step hk hstep
  | lock =>
    simp only [contextStep, Option.ite_none_right_eq_some, Option.some.injEq, Prod.mk.injEq] at hs
    obtain ⟨⟨hpc, hlt⟩, rfl, rfl⟩ := hs
    obtain ⟨hdepth, hheld, hnested, -⟩ := hk
    simp only [LockContext.counted, hpc, LockPc.InRegion, LockPc.Saving] at hdepth hheld hnested
    exact ⟨hdepth, hheld, hnested, hlt⟩
  | unlock =>
    simp only [contextStep, Option.ite_none_right_eq_some, Option.some.injEq, Prod.mk.injEq] at hs
    obtain ⟨hpc, rfl, rfl⟩ := hs
    obtain ⟨hdepth, hheld, hnested, -⟩ := hk
    simp only [LockContext.counted, hpc, LockPc.InRegion, LockPc.Saving] at hdepth hheld hnested
    have hcounted : LockContext.counted
        ⟨.unlockTest, k.openLocks - 1, decide (0 < k.openLocks), k.outerNested⟩ = k.openLocks := by
      simp only [LockContext.counted, decide_eq_true_eq]
      split_ifs <;> omega
    refine ⟨by rw [hcounted, hdepth], ?_, ?_, ?_⟩
    · rw [hcounted]
      exact hheld
    · rw [hcounted]
      exact hnested
    · intro hclosing
      simp only [decide_eq_false_iff_not] at hclosing
      show k.openLocks - 1 = 0
      omega
  | rawEnter =>
    simp only [contextStep, Option.ite_none_right_eq_some, Option.some.injEq, Prod.mk.injEq] at hs
    obtain ⟨hpc, rfl, rfl⟩ := hs
    obtain ⟨hdepth, -, hnested, -⟩ := hk
    exact ⟨hdepth, fun _ => rfl, hnested, by rw [LockContext.Current, hpc]; trivial⟩
  | rawExit nested =>
    simp only [contextStep, Option.ite_none_right_eq_some, Option.some.injEq, Prod.mk.injEq] at hs
    obtain ⟨⟨hpc, hout⟩, rfl, rfl⟩ := hs
    by_cases hzero : nested = 0
    · have hopen := hout.resolve_right (fun h => h hzero)
      have hcounted : k.counted = 0 := by rw [LockContext.counted, hpc, hopen]
      refine Outside.owns ⟨hcounted, by rw [hpc]; exact id⟩ ?_
      rw [exit_mLockDepth, eq_zero_iff, hk.depth, hcounted]
    · rw [appUtilCriticalRegionExit, if_neg hzero]
      exact hk

/-- In every reachable state the globals belong to the running context, and every other one is
outside. -/
theorem owns_reachable {held : Bool} {s : Preemptive.Stack LockState LockContext}
    (hr : (lockContexts held).machine.Reachable s) :
    Owns s.shared s.running ∧ ∀ k ∈ s.suspended, Outside k := by
  refine Preemptive.stack_invariant (I := Owns) (J := Outside) (owns_start held)
    (fun _ _ _ _ _ hk hs => owns_act hk hs) (fun x k hk hmask => ?_)
    (fun x k j hk hdone hj => ?_) hr
  · have hout := hk.outside hmask
    refine ⟨hout, Outside.owns ⟨rfl, id⟩ ?_⟩
    rw [eq_zero_iff, hk.depth, hout.counted]
  · simp only [lockContexts, decide_eq_true_eq] at hdone
    refine hj.owns ?_
    rw [eq_zero_iff, hk.depth, LockContext.counted, hdone.1, hdone.2]

/-- The context is between the return of a `hubble_lock` and the call of the matching
`hubble_unlock`. -/
def LockContext.Holds (k : LockContext) : Prop := 0 < k.openLocks

instance (k : LockContext) : Decidable k.Holds := inferInstanceAs (Decidable (_ < _))

/-- **The lock excludes preempting contexts**: in every interleaving at most one context holds a
lock; and while `m_lock_depth` is positive the region is held, the depth counts the locks of the
running context alone, the saved flag is (once saved) the one its outermost lock was told, and every
preempted context has no lock and stands at no access to either. -/
theorem lock_exclusive {held : Bool} {s : Preemptive.Stack LockState LockContext}
    (hr : (lockContexts held).machine.Reachable s) :
    ((s.running :: s.suspended).filter (·.Holds)).length ≤ 1 ∧
    (0 < s.shared.mLockDepth → s.shared.region = true ∧
      s.shared.mLockDepth.toNat = s.running.counted ∧
      (¬ s.running.pc.Saving → s.shared.mLockNested = s.running.outerNested) ∧
      ∀ k ∈ s.suspended, k.counted = 0 ∧ ¬ k.pc.InRegion) := by
  obtain ⟨hown, hout⟩ := owns_reachable hr
  constructor
  · have hnone : s.suspended.filter (·.Holds) = [] := by
      rw [List.filter_eq_nil_iff]
      intro k hk hholds
      have hle := k.openLocks_le_counted
      rw [(hout k hk).counted] at hle
      exact absurd (of_decide_eq_true hholds) (Nat.not_lt.mpr hle)
    rw [List.filter_cons, hnone]
    split_ifs <;> simp
  · intro hpos
    have hcounted : 0 < s.running.counted := by
      rw [← hown.depth]
      exact UInt8.lt_iff_toNat_lt.mp hpos
    exact ⟨hown.held (Or.inl hcounted), hown.depth, hown.nested hcounted,
      fun k hk => ⟨(hout k hk).counted, (hout k hk).pc⟩⟩

/-- A handler that has preempted the main thread inside an unbalanced unlock holds the lock alone. -/
theorem lock_exclusive_handler :
    ∃ s, (lockContexts false).machine.Reachable s ∧ s.running.openLocks = 1 ∧
      s.suspended.map LockContext.pc = [.unlockTest] ∧
      0 < s.shared.mLockDepth ∧ ((s.running :: s.suspended).filter (·.Holds)).length ≤ 1 ∧
      s.shared.region = true ∧ s.shared.mLockDepth.toNat = s.running.counted := by
  have hrun : ∃ h s, (lockContexts false).machine.Run h s ∧ s.running.openLocks = 1 ∧
      s.suspended.map LockContext.pc = [.unlockTest] ∧ 0 < s.shared.mLockDepth :=
    ⟨_, _, Mealy.runFrom_of_exec (M := (lockContexts false).machine)
      (s := ⟨⟨false, 0, 0⟩, .fresh, []⟩)
      (l := [.act .unlock, .preempt, .act .lock, .act .step, .act .step, .act .step, .act .step])
      rfl, rfl, rfl, by decide⟩
  obtain ⟨h, s, hr, hopen, hsus, hpos⟩ := hrun
  have hreach : (lockContexts false).machine.Reachable s := ⟨h, hr⟩
  obtain ⟨hone, hheld⟩ := lock_exclusive hreach
  exact ⟨s, hreach, hopen, hsus, hpos, hone, (hheld hpos).1, (hheld hpos).2.1⟩

end HubbleNordic
