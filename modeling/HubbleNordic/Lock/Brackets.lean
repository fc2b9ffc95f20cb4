import HubbleNordic.Mealy
import HubbleNordic.Lock.Model

/-!
# Nested locks restore the caller's critical region

One context makes a well-bracketed sequence of calls: `hubble_lock` with `hubble_unlock`, and a raw
enter of the critical region with a raw exit that passes the value the enter reported.  One global
flag stands in for the values the nested locks were told; only the outermost one saves it.

* `Opened`, `openLocks`, `LockCall` and the machine `brackets`: the calls, with the brackets that
  are open; it accepts the beginnings of the well-bracketed sequences, and stray calls of
  `hubble_unlock` wherever no lock is open;
* `Told`: what the region reports to an enter made on top of the open brackets;
* `Matches`: the globals as a function of the open brackets; `matches_next`: each call keeps it;
* `wellBracketed_runs`: the machine accepts every well-bracketed sequence (`WellBracketed`);
* `nested_locks_restore`: the region is held while a lock is open, the depth is the number of open
  locks, and once everything is closed the region is as it was at the start.
-/

namespace HubbleNordic

/-- An open bracket: a lock, or a raw enter with the value it reported. -/
inductive Opened
  | lock
  | raw (nested : UInt8)
  deriving DecidableEq

/-- The number of locks among the open brackets. -/
def openLocks : List Opened → ℕ
  | [] => 0
  | .lock :: l => openLocks l + 1
  | .raw _ :: l => openLocks l

/-- The region and the globals, and the open brackets, innermost first. -/
structure Bracketed where
  globals : LockState
  opened : List Opened

/-- A call of the sequence. -/
inductive LockCall
  | lock
  | unlock
  | rawEnter
  | rawExit

/-- The calls of a context, with the region free or held at the start, and any value left in
`m_lock_nested`.  An unlock closes the innermost bracket, which has to be a lock, or is stray where
no lock is open; the output tells which.  A raw exit closes the innermost bracket, which has to be a
raw enter.  At most 255 locks are open at once. -/
def brackets (held : Bool) (saved : UInt8) : Mealy Bracketed LockCall Bool where
  init := ⟨⟨held, 0, saved⟩, []⟩
  next s
    | .lock =>
        if openLocks s.opened < 255 then
          some (false, ⟨hubbleLock s.globals, .lock :: s.opened⟩)
        else none
    | .unlock =>
        match s.opened with
        | .lock :: l => some (false, ⟨hubbleUnlock s.globals, l⟩)
        | l => if openLocks l = 0 then some (true, ⟨hubbleUnlock s.globals, l⟩) else none
    | .rawEnter =>
        let (nested, x) := appUtilCriticalRegionEnter s.globals
        some (false, ⟨x, .raw nested :: s.opened⟩)
    | .rawExit =>
        match s.opened with
        | .raw nested :: l => some (false, ⟨appUtilCriticalRegionExit nested s.globals, l⟩)
        | _ => none

/-! ### The globals as a function of the open brackets -/

variable {held : Bool} {saved : UInt8}

variable (held) in
/-- The region is held on top of the open brackets. -/
def heldUnder (l : List Opened) : Bool := held || !l.isEmpty

variable (held) in
/-- The value that an enter reports on top of the open brackets. -/
def Told (l : List Opened) (nested : UInt8) : Prop := nested = if heldUnder held l then 1 else 0

variable (held) in
/-- Every raw enter among the open brackets carries the value it was told, and `nested` is the value
the outermost lock was told. -/
def Remembered (nested : UInt8) : List Opened → Prop
  | [] => True
  | .lock :: l => (openLocks l = 0 → Told held l nested) ∧ Remembered nested l
  | .raw n :: l => Told held l n ∧ Remembered nested l

/-- **The globals are those of the open brackets.** -/
structure Matches (held : Bool) (s : Bracketed) : Prop where
  depth : s.globals.mLockDepth.toNat = openLocks s.opened
  region : s.globals.region = heldUnder held s.opened
  remembered : Remembered held s.globals.mLockNested s.opened

theorem matches_init (held : Bool) (saved : UInt8) : Matches held (brackets held saved).init :=
  ⟨rfl, by simp [brackets, heldUnder], trivial⟩

/-- The region reports whether it was held. -/
theorem Matches.told {s : Bracketed} (hs : Matches held s) :
    Told held s.opened (appUtilCriticalRegionEnter s.globals).1 := by
  rw [Told, ← hs.region]
  rfl

/-- While no lock is open, what `m_lock_nested` holds is of no account. -/
theorem Remembered.of_no_lock {l : List Opened} {n m : UInt8} (hl : openLocks l = 0)
    (h : Remembered held n l) : Remembered held m l := by
  induction l with
  | nil => trivial
  | cons b l ih =>
    cases b with
    | lock => exact absurd hl (Nat.succ_ne_zero _)
    | raw nested => exact ⟨h.1, ih hl h.2⟩

/-- An exit with the value told to its own enter gives the region back to the brackets below. -/
theorem exit_told {x : LockState} {l : List Opened} {nested : UInt8} (hx : x.region = true)
    (hn : Told held l nested) :
    (appUtilCriticalRegionExit nested x).region = heldUnder held l := by
  rw [Told] at hn
  subst hn
  cases hheld : heldUnder held l with
  | true => simpa [appUtilCriticalRegionExit] using hx
  | false => simp [appUtilCriticalRegionExit]

@[simp] theorem exit_mLockNested (nested : UInt8) (x : LockState) :
    (appUtilCriticalRegionExit nested x).mLockNested = x.mLockNested := by
  unfold appUtilCriticalRegionExit
  split_ifs <;> rfl

/-! ### Each call -/

theorem matches_lock {s : Bracketed} (hs : Matches held s) (hlt : openLocks s.opened < 255) :
    Matches held ⟨hubbleLock s.globals, .lock :: s.opened⟩ := by
  have hadd : (s.globals.mLockDepth + 1).toNat = openLocks s.opened + 1 := by
    rw [toNat_add_one (by rw [hs.depth]; exact hlt), hs.depth]
  by_cases hzero : s.globals.mLockDepth = 0
  · -- the outermost lock saves what it was told
    have hopen : openLocks s.opened = 0 := by rw [← hs.depth, eq_zero_iff.mp hzero]
    have hlock : hubbleLock s.globals =
        ⟨true, s.globals.mLockDepth + 1, (appUtilCriticalRegionEnter s.globals).1⟩ := by
      simp [hubbleLock, appUtilCriticalRegionEnter, hzero]
    rw [hlock]
    exact ⟨hadd, by simp [heldUnder], fun _ => hs.told, hs.remembered.of_no_lock hopen⟩
  · have hopen : openLocks s.opened ≠ 0 := by
      rwa [eq_zero_iff, hs.depth] at hzero
    have hlock : hubbleLock s.globals =
        ⟨true, s.globals.mLockDepth + 1, s.globals.mLockNested⟩ := by
      simp [hubbleLock, appUtilCriticalRegionEnter, hzero]
    rw [hlock]
    exact ⟨hadd, by simp [heldUnder], fun h => absurd h hopen, hs.remembered⟩

theorem matches_unlock {s : Bracketed} {l : List Opened} (hs : Matches held s)
    (hl : s.opened = .lock :: l) : Matches held ⟨hubbleUnlock s.globals, l⟩ := by
  obtain ⟨x, opened⟩ := s
  obtain rfl : opened = .lock :: l := hl
  obtain ⟨hdepth, hregion, htold, hrest⟩ := hs
  have hheld : x.region = true := by simpa [heldUnder] using hregion
  have hpos : 0 < x.mLockDepth.toNat := by
    rw [hdepth]
    exact Nat.succ_pos _
  have hne : x.mLockDepth ≠ 0 := fun h => absurd (eq_zero_iff.mp h) (Nat.pos_iff_ne_zero.mp hpos)
  have hsub : (x.mLockDepth - 1).toNat = openLocks l := by
    rw [toNat_sub_one hpos, hdepth]
    rfl
  by_cases hinner : x.mLockDepth - 1 > 0
  · -- an outer lock is open: the region stays held
    have hopen : 0 < openLocks l := by
      rw [← hsub]
      exact UInt8.lt_iff_toNat_lt.mp hinner
    have hbelow : heldUnder held l = true := by
      cases l with
      | nil => exact absurd hopen (Nat.lt_irrefl 0)
      | cons b l => simp [heldUnder]
    have hunlock : hubbleUnlock x = ⟨x.region, x.mLockDepth - 1, x.mLockNested⟩ := by
      simp [hubbleUnlock, hne, hinner, appUtilCriticalRegionExit]
    rw [hunlock]
    exact ⟨hsub, hheld.trans hbelow.symm, hrest⟩
  · have hopen : openLocks l = 0 := by
      rw [← hsub]
      by_contra h
      exact hinner (UInt8.lt_iff_toNat_lt.mpr (Nat.pos_of_ne_zero h))
    have hunlock : hubbleUnlock x =
        appUtilCriticalRegionExit x.mLockNested { x with mLockDepth := x.mLockDepth - 1 } := by
      simp [hubbleUnlock, hne, hinner]
    rw [hunlock]
    refine ⟨?_, exit_told hheld (htold hopen), ?_⟩
    · rw [exit_mLockDepth]
      exact hsub
    · rw [exit_mLockNested]
      exact hrest

theorem unlock_stray {s : Bracketed} (hs : Matches held s) (hl : openLocks s.opened = 0) :
    hubbleUnlock s.globals = s.globals := by
  have hzero : s.globals.mLockDepth = 0 := eq_zero_iff.mpr (hs.depth.trans hl)
  rw [hubbleUnlock, if_pos hzero]

theorem matches_rawEnter {s : Bracketed} (hs : Matches held s) :
    Matches held ⟨(appUtilCriticalRegionEnter s.globals).2,
      .raw (appUtilCriticalRegionEnter s.globals).1 :: s.opened⟩ :=
  ⟨hs.depth, by simp [appUtilCriticalRegionEnter, heldUnder], hs.told, hs.remembered⟩

theorem matches_rawExit {s : Bracketed} {l : List Opened} {nested : UInt8} (hs : Matches held s)
    (hl : s.opened = .raw nested :: l) :
    Matches held ⟨appUtilCriticalRegionExit nested s.globals, l⟩ := by
  obtain ⟨x, opened⟩ := s
  obtain rfl : opened = .raw nested :: l := hl
  obtain ⟨hdepth, hregion, htold, hrest⟩ := hs
  have hheld : x.region = true := by simpa [heldUnder] using hregion
  refine ⟨?_, exit_told hheld htold, ?_⟩
  · rw [exit_mLockDepth]
    exact hdepth
  · rw [exit_mLockNested]
    exact hrest

/-- What an accepted unlock is: of the innermost lock, or stray. -/
theorem unlock_next {s s' : Bracketed} {o : Bool}
    (hn : (brackets held saved).next s .unlock = some (o, s')) :
    (∃ l, s.opened = .lock :: l ∧ o = false ∧ s' = ⟨hubbleUnlock s.globals, l⟩) ∨
    (openLocks s.opened = 0 ∧ o = true ∧ s' = ⟨hubbleUnlock s.globals, s.opened⟩) := by
  simp only [brackets] at hn
  split at hn
  · rename_i l hl
    simp only [Option.some.injEq, Prod.mk.injEq] at hn
    exact Or.inl ⟨l, hl, hn.1.symm, hn.2.symm⟩
  · simp only [Option.ite_none_right_eq_some, Option.some.injEq, Prod.mk.injEq] at hn
    exact Or.inr ⟨hn.1, hn.2.1.symm, hn.2.2.symm⟩

/-- **Each call keeps the globals with the open brackets**, and a stray unlock changes nothing. -/
theorem matches_next {s s' : Bracketed} {c : LockCall} {o : Bool} (hs : Matches held s)
    (hn : (brackets held saved).next s c = some (o, s')) :
    Matches held s' ∧ (o = true → s' = s) := by
  cases c with
  | lock =>
    simp only [brackets, Option.ite_none_right_eq_some, Option.some.injEq, Prod.mk.injEq] at hn
    obtain ⟨hlt, rfl, rfl⟩ := hn
    exact ⟨matches_lock hs hlt, fun h => nomatch h⟩
  | unlock =>
    rcases unlock_next hn with ⟨l, hl, rfl, rfl⟩ | ⟨hl, rfl, rfl⟩
    · exact ⟨matches_unlock hs hl, fun h => nomatch h⟩
    · rw [unlock_stray hs hl]
      exact ⟨hs, fun _ => rfl⟩
  | rawEnter =>
    simp only [brackets, Option.some.injEq, Prod.mk.injEq] at hn
    obtain ⟨rfl, rfl⟩ := hn
    exact ⟨matches_rawEnter hs, fun h => nomatch h⟩
  | rawExit =>
    simp only [brackets] at hn
    split at hn
    · rename_i nested l hl
      simp only [Option.some.injEq, Prod.mk.injEq] at hn
      obtain ⟨rfl, rfl⟩ := hn
      exact ⟨matches_rawExit hs hl, fun h => nomatch h⟩
    · cases hn

/-! ### Sequences of calls -/

theorem matches_run {h : List (LockCall × Bool)} {s : Bracketed}
    (hr : (brackets held saved).Run h s) : Matches held s :=
  Mealy.reachable_invariant (matches_init held saved)
    (fun _ _ _ _ hs hn => (matches_next hs hn).1) ⟨h, hr⟩

/-- Where no lock is open an unlock is accepted, and changes nothing. -/
theorem stray_next {s : Bracketed} (hs : Matches held s) (hl : openLocks s.opened = 0) :
    (brackets held saved).next s .unlock = some (true, s) := by
  have hstray := unlock_stray hs hl
  obtain ⟨x, opened⟩ := s
  simp only at hl hstray
  cases opened with
  | nil => simp [brackets, openLocks, hstray]
  | cons b l =>
    cases b with
    | lock => exact absurd hl (Nat.succ_ne_zero _)
    | raw nested => simp [brackets, hl, hstray]

/-- A sequence without its stray unlocks does the same. -/
theorem run_without_strays {h : List (LockCall × Bool)} {s : Bracketed}
    (hr : (brackets held saved).Run h s) :
    (brackets held saved).Run (h.filter fun e => !e.2) s := by
  refine Mealy.runFrom_invariant
    (I := fun h s => (brackets held saved).Run (h.filter fun e => !e.2) s) .nil ?_ hr
  intro h s c o s' hr ih hn
  rw [List.filter_append]
  cases o with
  | true =>
    obtain rfl := (matches_next (matches_run hr) hn).2 rfl
    simpa using ih
  | false => simpa using ih.snoc hn

/-- Stray unlocks inserted at one point. -/
theorem run_with_strays {h : List (LockCall × Bool)} {s : Bracketed}
    (hr : (brackets held saved).Run h s) (hl : openLocks s.opened = 0) (n : ℕ) :
    (brackets held saved).Run (h ++ List.replicate n (.unlock, true)) s := by
  induction n with
  | zero => simpa using hr
  | succ n ih =>
    rw [List.replicate_succ', ← List.append_assoc]
    exact ih.snoc (stray_next (matches_run ih) hl)

/-- The well-bracketed sequences, with at most `n` locks open at once. -/
inductive WellBracketed : ℕ → List LockCall → Prop
  | nil (n : ℕ) : WellBracketed n []
  | lock {n : ℕ} {body rest : List LockCall} :
      WellBracketed n body → WellBracketed (n + 1) rest →
        WellBracketed (n + 1) (.lock :: (body ++ .unlock :: rest))
  | raw {n : ℕ} {body rest : List LockCall} :
      WellBracketed n body → WellBracketed n rest →
        WellBracketed n (.rawEnter :: (body ++ .rawExit :: rest))

/-- A pair of brackets around a run, followed by another run. -/
theorem runFrom_pair {s s₁ t₁ t₂ u : Bracketed} {c d : LockCall} {h k : List (LockCall × Bool)}
    (hopen : (brackets held saved).next s c = some (false, s₁))
    (hbody : (brackets held saved).RunFrom s₁ h t₁)
    (hclose : (brackets held saved).next t₁ d = some (false, t₂))
    (hrest : (brackets held saved).RunFrom t₂ k u) :
    (brackets held saved).RunFrom s ((c, false) :: (h ++ (d, false) :: k)) u :=
  .cons hopen (hbody.append (.cons hclose hrest))

/-- **Every well-bracketed sequence runs**, on top of any open brackets, and leaves them as they
were: by induction over the sequence. -/
theorem wellBracketed_runs {n : ℕ} {calls : List LockCall} (hb : WellBracketed n calls)
    {s : Bracketed} (hs : Matches held s) (hn : openLocks s.opened + n ≤ 255) :
    ∃ h t, (brackets held saved).RunFrom s h t ∧ h.map Prod.fst = calls ∧ Matches held t ∧
      t.opened = s.opened := by
  induction hb generalizing s with
  | nil n => exact ⟨[], s, .nil, rfl, hs, rfl⟩
  | @lock n body rest _ _ ihbody ihrest =>
    have hlt : openLocks s.opened < 255 := by omega
    have hopen : (brackets held saved).next s .lock =
        some (false, ⟨hubbleLock s.globals, .lock :: s.opened⟩) := if_pos hlt
    obtain ⟨h, t, hbody, rfl, ht, htop⟩ := ihbody (matches_next hs hopen).1
      (show openLocks s.opened + 1 + n ≤ 255 by omega)
    have hclose : (brackets held saved).next t .unlock =
        some (false, ⟨hubbleUnlock t.globals, s.opened⟩) := by
      simp [brackets, htop]
    obtain ⟨k, u, hrest, rfl, hu, hend⟩ := ihrest (matches_next ht hclose).1 hn
    exact ⟨_, u, runFrom_pair hopen hbody hclose hrest, by simp, hu, hend⟩
  | @raw n body rest _ _ ihbody ihrest =>
    have hopen : (brackets held saved).next s .rawEnter =
        some (false, ⟨(appUtilCriticalRegionEnter s.globals).2,
          .raw (appUtilCriticalRegionEnter s.globals).1 :: s.opened⟩) := rfl
    obtain ⟨h, t, hbody, rfl, ht, htop⟩ := ihbody (matches_next hs hopen).1 hn
    have hclose : (brackets held saved).next t .rawExit =
        some (false, ⟨appUtilCriticalRegionExit (appUtilCriticalRegionEnter s.globals).1 t.globals,
          s.opened⟩) := by
      simp [brackets, htop]
    obtain ⟨k, u, hrest, rfl, hu, hend⟩ := ihrest (matches_next ht hclose).1 hn
    exact ⟨_, u, runFrom_pair hopen hbody hclose hrest, by simp, hu, hend⟩

/-- The region and the depth at one point of a sequence. -/
theorem Matches.region_and_depth {s : Bracketed} (hs : Matches held s) :
    (0 < openLocks s.opened → s.globals.region = true) ∧
    s.globals.mLockDepth.toNat = openLocks s.opened ∧
    (s.opened = [] → s.globals.mLockDepth = 0 ∧ s.globals.region = held) := by
  refine ⟨fun hopen => ?_, hs.depth, fun hnil => ⟨?_, ?_⟩⟩
  · have hne : s.opened ≠ [] := by
      intro hnil
      rw [hnil] at hopen
      exact absurd hopen (Nat.lt_irrefl 0)
    rw [hs.region, heldUnder]
    simp [hne]
  · rw [eq_zero_iff, hs.depth, hnil]
    rfl
  · rw [hs.region, heldUnder, hnil]
    simp

/-- **Nested locks restore the caller's critical region**, free or held at the start.  At every point
of every sequence the region is held if a lock is open, and `m_lock_depth` is the number of locks
open; once everything is closed the depth is 0 and the region is as it was.  Stray unlocks change
nothing, whether they are taken out everywhere or put in, any number of them, at a point where no
lock is open.  And every well-bracketed sequence is such a sequence, and closes everything. -/
theorem nested_locks_restore (held : Bool) (saved : UInt8) :
    (∀ h s, (brackets held saved).Run h s →
      (0 < openLocks s.opened → s.globals.region = true) ∧
      s.globals.mLockDepth.toNat = openLocks s.opened ∧
      (s.opened = [] → s.globals.mLockDepth = 0 ∧ s.globals.region = held) ∧
      (brackets held saved).Run (h.filter fun e => !e.2) s ∧
      (openLocks s.opened = 0 → ∀ n k t, (brackets held saved).RunFrom s k t →
        (brackets held saved).Run (h ++ List.replicate n (.unlock, true) ++ k) t)) ∧
    ∀ calls, WellBracketed 255 calls →
      ∃ h s, (brackets held saved).Run h s ∧ h.map Prod.fst = calls ∧ s.opened = [] ∧
        s.globals.mLockDepth = 0 ∧ s.globals.region = held := by
  constructor
  · intro h s hr
    obtain ⟨hregion, hdepth, hclosed⟩ := (matches_run hr).region_and_depth
    exact ⟨hregion, hdepth, hclosed, run_without_strays hr,
      fun hl n k t hk => (run_with_strays hr hl n).append hk⟩
  · intro calls hb
    obtain ⟨h, s, hr, hcalls, hs, hopen⟩ :=
      wellBracketed_runs hb (matches_init held saved) (Nat.le_of_eq (Nat.zero_add 255))
    exact ⟨h, s, hr, hcalls, hopen, hs.region_and_depth.2.2 hopen⟩

end HubbleNordic
