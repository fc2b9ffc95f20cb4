import Mathlib.Tactic

/-!
# The SDK lock: `hubble_lock` and `hubble_unlock` of `hubble_app_port.c`

The lock is a SoftDevice critical region, with a depth and one saved nesting flag in globals.

* `appUtilCriticalRegionEnter`, `appUtilCriticalRegionExit`: the region's contract;
* `hubbleLock`, `hubbleUnlock`: the two functions as a whole;
* `LockPc`, `lockStep`: the same functions cut at every read and write of the globals and at every
  call, for contexts that may be preempted in between;
* `lock_completes`, `unlock_completes`: undisturbed, the steps run to the end and do what the
  functions do.
-/

namespace HubbleNordic

/-- The critical region's flag and the globals `m_lock_depth` and `m_lock_nested`. -/
structure LockState where
  region : Bool
  mLockDepth : UInt8
  mLockNested : UInt8
  deriving DecidableEq

/-- `app_util_critical_region_enter`: sets the flag; reports whether it was set. -/
def appUtilCriticalRegionEnter (x : LockState) : UInt8 × LockState :=
  (if x.region then 1 else 0, { x with region := true })

/-- `app_util_critical_region_exit`: clears the flag, unless `nested` says that an outer one holds
the region. -/
def appUtilCriticalRegionExit (nested : UInt8) (x : LockState) : LockState :=
  if nested = 0 then { x with region := false } else x

/-- `hubble_lock`. -/
def hubbleLock (x : LockState) : LockState :=
  let (nested, x) := appUtilCriticalRegionEnter x
  let depth := x.mLockDepth
  let x := { x with mLockDepth := depth + 1 }
  -- only the outermost lock saves what it was told
  if depth = 0 then { x with mLockNested := nested } else x

/-- `hubble_unlock`. -/
def hubbleUnlock (x : LockState) : LockState :=
  if x.mLockDepth = 0 then x -- an unbalanced unlock
  else
    let x := { x with mLockDepth := x.mLockDepth - 1 }
    if x.mLockDepth > 0 then appUtilCriticalRegionExit 1 x
    else appUtilCriticalRegionExit x.mLockNested x

/-- Leaving the region with the flag that entering it has told leaves it as it was. -/
theorem exit_enter (x : LockState) :
    appUtilCriticalRegionExit (appUtilCriticalRegionEnter x).1 (appUtilCriticalRegionEnter x).2 =
      x := by
  obtain ⟨region, depth, nested⟩ := x
  cases region <;> rfl

@[simp] theorem exit_mLockDepth (nested : UInt8) (x : LockState) :
    (appUtilCriticalRegionExit nested x).mLockDepth = x.mLockDepth := by
  unfold appUtilCriticalRegionExit
  split_ifs <;> rfl

theorem toNat_add_one {d : UInt8} (hd : d.toNat < 255) : (d + 1).toNat = d.toNat + 1 := by
  rw [UInt8.toNat_add]
  exact Nat.mod_eq_of_lt (show d.toNat + 1 < 256 by omega)

theorem toNat_sub_one {d : UInt8} (hd : 0 < d.toNat) : (d - 1).toNat = d.toNat - 1 :=
  UInt8.toNat_sub_of_le _ _ (UInt8.le_iff_toNat_le.mpr hd)

theorem eq_zero_iff {d : UInt8} : d = 0 ↔ d.toNat = 0 :=
  ⟨fun h => by rw [h]; rfl, fun h => UInt8.toNat_inj.mp h⟩

/-! ### The functions, step by step -/

/-- Where a context stands in the two functions, with the values it has read. -/
inductive LockPc
  /-- In neither function. -/
  | idle
  | lockEnter
  | lockReadDepth (nested : UInt8)
  | lockWriteDepth (nested depth : UInt8)
  | lockSaveNested (nested : UInt8)
  | unlockTest
  | unlockReadDepth
  | unlockWriteDepth (depth : UInt8)
  | unlockExitInner
  | unlockReadNested
  | unlockExit (nested : UInt8)
  deriving DecidableEq

/-- The next step of a call. -/
def lockStep (x : LockState) : LockPc → Option (LockState × LockPc)
  | .idle => none
  | .lockEnter =>
      let (nested, x) := appUtilCriticalRegionEnter x
      some (x, .lockReadDepth nested)
  | .lockReadDepth nested => some (x, .lockWriteDepth nested x.mLockDepth)
  | .lockWriteDepth nested depth =>
      some ({ x with mLockDepth := depth + 1 }, if depth = 0 then .lockSaveNested nested else .idle)
  | .lockSaveNested nested => some ({ x with mLockNested := nested }, .idle)
  | .unlockTest => some (x, if x.mLockDepth = 0 then .idle else .unlockReadDepth)
  | .unlockReadDepth => some (x, .unlockWriteDepth x.mLockDepth)
  | .unlockWriteDepth depth =>
      some ({ x with mLockDepth := depth - 1 },
        if depth - 1 > 0 then .unlockExitInner else .unlockReadNested)
  | .unlockExitInner => some (appUtilCriticalRegionExit 1 x, .idle)
  | .unlockReadNested => some (x, .unlockExit x.mLockNested)
  | .unlockExit nested => some (appUtilCriticalRegionExit nested x, .idle)

/-- Let a call make at most `n` steps. -/
def runCall : ℕ → LockState × LockPc → LockState × LockPc
  | 0, a => a
  | n + 1, a =>
      match lockStep a.1 a.2 with
      | none => a
      | some b => runCall n b

/-- An undisturbed call of `hubble_lock` completes, and does what the function does. -/
theorem lock_completes (x : LockState) : runCall 4 (x, .lockEnter) = (hubbleLock x, .idle) := by
  by_cases hd : x.mLockDepth = 0 <;>
    simp [runCall, lockStep, hubbleLock, appUtilCriticalRegionEnter, hd]

/-- An undisturbed call of `hubble_unlock` completes, and does what the function does. -/
theorem unlock_completes (x : LockState) :
    runCall 5 (x, .unlockTest) = (hubbleUnlock x, .idle) := by
  by_cases hd : x.mLockDepth = 0
  · simp [runCall, lockStep, hubbleUnlock, hd]
  · by_cases hinner : x.mLockDepth - 1 > 0 <;>
      simp [runCall, lockStep, hubbleUnlock, hd, hinner]

end HubbleNordic
