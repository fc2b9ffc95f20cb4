import HubbleNordic.CriticalSection
import HubbleNordic.Lock.Exclusion
import HubbleNordic.Nonce

/-!
# What the lock guards

The SDK takes `hubble_lock` around the allocation of a sequence number and the validation of its
nonce.  Whatever is read and written under the lock, access by access, in whatever interleaving:

* `locking`: the lock is one in the sense of `Preemptive.Locking`;
* `lock_sections_atomic`: the state it guards is what the sections leave that were run one after the
  other;
* `allocation`: the section that allocates a sequence number, cut between its read and its write;
* `sequence_numbers_unique`: no update of the counter is lost, and of any 1024 successive
  allocations no two emit the same number.
-/

namespace HubbleNordic

/-! ### The allocation of a sequence number -/

/-- The accesses of an allocation to the SDK's RAM counter: it is read, and once the nonce has been
validated it is advanced, or left as it is. -/
inductive AllocationAccess
  | read
  | write (o : Outcome)

/-- Where an allocation stands. -/
inductive Allocation
  | start
  | read (sequence : ℕ)
  | done (sequence : ℕ) (o : Outcome)

/-- The section of `hubble_ble_advertise_get` that allocates a sequence number. -/
def allocation : CriticalSection ℕ Allocation AllocationAccess where
  start := .start
  access counter
    | .start, .read => some (counter, .read counter)
    | .read n, .write o =>
        some (if o.advances then (n + 1) % sequenceSpace else counter, .done n o)
    | _, _ => none
  finished
    | .done _ _ => true
    | _ => false

/-! ### Critical sections -/

/-- The lock excludes: who holds it masks the others. -/
theorem locking (held : Bool) : (lockContexts held).Locking (fun k => decide k.Holds) where
  start := rfl
  done k hk := by
    simp only [lockContexts, decide_eq_true_eq] at hk
    simp [LockContext.Holds, hk.2]
  masked s hr hholds := by
    obtain ⟨hown, -⟩ := owns_reachable hr
    have hopen : 0 < s.running.openLocks := of_decide_eq_true hholds
    exact hown.held (Or.inl (lt_of_lt_of_le hopen s.running.openLocks_le_counted))

section Atomic

variable {γ μ β : Type*}

/-- The contexts of the lock, with a state that is accessed only between the return of a
`hubble_lock` and the call of the matching `hubble_unlock`; nested locks belong to the section of
the outermost one. -/
def guardedContexts (held : Bool) (S : CriticalSection γ μ β) (g : γ) :
    Preemptive (Preemptive.Guarded LockState γ μ β) (Preemptive.Worker LockContext μ β)
      (LockAction ⊕ β) :=
  Preemptive.guard (lockContexts held) (fun k => decide k.Holds) S g

variable {held : Bool} {S : CriticalSection γ μ β} {g : γ}
  {s : Preemptive.Stack (Preemptive.Guarded LockState γ μ β) (Preemptive.Worker LockContext μ β)}

/-- With `m_lock_depth` zero no section is in progress. -/
theorem not_holds_of_depth (hr : (guardedContexts held S g).machine.Reachable s)
    (hdepth : s.shared.lock.mLockDepth = 0) : ¬ s.running.lock.Holds := by
  obtain ⟨hown, -⟩ := owns_reachable (Preemptive.guard_reachable hr)
  have hcounted : s.running.lock.counted = 0 := hown.depth.symm.trans (eq_zero_iff.mp hdepth)
  have hle := s.running.lock.openLocks_le_counted
  intro (hopen : 0 < s.running.lock.openLocks)
  omega

/-- **What the lock guards changes atomically**: in every interleaving the completed sections were
run one after the other, each from what the one before it left; with `m_lock_depth` zero the state
is what the last one left; the section in progress has seen and done what it would have alone; and
no preempted context is in a section. -/
theorem lock_sections_atomic (hr : (guardedContexts held S g).machine.Reachable s) :
    ∃ v, (S.atomic g).Run s.shared.log v ∧
      (s.shared.lock.mLockDepth = 0 → s.shared.value = v) ∧
      (s.running.lock.Holds →
        S.run (v, S.start) s.running.accesses = some (s.shared.value, s.running.memory)) ∧
      ∀ k ∈ s.suspended, ¬ k.lock.Holds := by
  obtain ⟨v, hs⟩ := Preemptive.guard_serial (locking held) hr
  exact ⟨v, hs.log, fun hdepth => hs.free (decide_eq_false (not_holds_of_depth hr hdepth)),
    fun h => hs.within (decide_eq_true h), fun k hk => of_decide_eq_false (hs.outside k hk)⟩

end Atomic

/-- A handler preempts the main thread inside `hubble_lock`, before the region is entered, and makes
an allocation; then the main thread makes its own, up to its write. -/
def preemptedAllocation : List (Preemptive.Turn (LockAction ⊕ AllocationAccess)) :=
  let lock : List (Preemptive.Turn (LockAction ⊕ AllocationAccess)) :=
    List.replicate 4 (.act (.inl .step))
  let unlock : List (Preemptive.Turn (LockAction ⊕ AllocationAccess)) :=
    List.replicate 5 (.act (.inl .step))
  [.act (.inl .lock), .preempt, .act (.inl .lock)] ++ lock ++
    [.act (.inr .read), .act (.inr (.write .emitted)), .act (.inl .unlock)] ++ unlock ++
    [.finish] ++ lock ++ [.act (.inr .read)]

/-- The main thread has read the number after the handler's. -/
theorem lock_sections_atomic_handler :
    ∃ s v, (guardedContexts false allocation 0).machine.Reachable s ∧
      (allocation.atomic 0).Run s.shared.log v ∧ s.running.lock.Holds ∧
      s.shared.log = [([.read, .write .emitted], .done 0 .emitted)] ∧
      allocation.run (v, .start) [.read] = some (1, .read 1) := by
  have hrun : ∃ h s, (guardedContexts false allocation 0).machine.Run h s ∧
      s.running.lock.Holds ∧ s.running.accesses = [.read] ∧
      (s.shared.value, s.running.memory) = (1, .read 1) ∧
      s.shared.log = [([.read, .write .emitted], .done 0 .emitted)] :=
    ⟨_, _, Mealy.runFrom_of_exec (M := (guardedContexts false allocation 0).machine)
      (s := ⟨⟨⟨false, 0, 0⟩, 0, []⟩, ⟨.fresh, .start, []⟩, []⟩) (l := preemptedAllocation) rfl,
      Nat.one_pos, rfl, rfl, rfl⟩
  obtain ⟨h, s, hr, hholds, haccesses, hseen, hlog⟩ := hrun
  obtain ⟨v, hserial, -, hwithin, -⟩ := lock_sections_atomic ⟨h, hr⟩
  refine ⟨s, v, ⟨h, hr⟩, hserial, hholds, hlog, ?_⟩
  rw [← haccesses, ← hseen]
  exact hwithin hholds

/-! ### Sequence numbers -/

/-- Completed allocations, each with its accesses and where it ended. -/
abbrev AllocationLog := List (List AllocationAccess × Allocation)

/-- The number an allocation emits. -/
def Allocation.emitted : Allocation → Option ℕ
  | .done n .emitted => some n
  | _ => none

/-- The allocation uses up its number. -/
def Allocation.advances : Allocation → Bool
  | .done _ o => o.advances
  | _ => false

/-- The numbers emitted by a list of allocations. -/
def emittedNumbers (log : AllocationLog) : List ℕ :=
  log.filterMap fun e => e.2.emitted

/-- How many of a list of allocations use up their numbers. -/
def advanceCount (log : AllocationLog) : ℕ :=
  log.countP fun e => e.2.advances

/-- A whole allocation: its read gets the counter, and its write advances it or leaves it. -/
theorem allocation_next {g c c' : ℕ} {bs : List AllocationAccess} {m : Allocation}
    (hn : (allocation.atomic g).next c bs = some (m, c')) :
    ∃ o, m = .done c o ∧ c' = if o.advances then (c + 1) % sequenceSpace else c := by
  obtain ⟨hrun, hfin⟩ := allocation.atomic_next.mp hn
  match bs with
  | [] =>
    simp only [CriticalSection.run_nil, Option.some.injEq, Prod.mk.injEq] at hrun
    rw [← hrun.2] at hfin
    cases hfin
  | .write o :: bs => simp [CriticalSection.run, allocation] at hrun
  | [.read] =>
    simp only [CriticalSection.run, allocation, List.foldlM_cons, List.foldlM_nil,
      Option.bind_eq_bind, Option.bind_some, Option.pure_def, Option.some.injEq,
      Prod.mk.injEq] at hrun
    rw [← hrun.2] at hfin
    cases hfin
  | .read :: .read :: bs => simp [CriticalSection.run, allocation] at hrun
  | [.read, .write o] =>
    simp only [CriticalSection.run, allocation, List.foldlM_cons, List.foldlM_nil,
      Option.bind_eq_bind, Option.bind_some, Option.pure_def, Option.some.injEq,
      Prod.mk.injEq] at hrun
    exact ⟨o, hrun.2.symm, hrun.1.symm⟩
  | .read :: .write o :: b :: bs => cases b <;> simp [CriticalSection.run, allocation] at hrun

/-- What a list of allocations leaves, from the counter `c`. -/
structure Allocated (c : ℕ) (log : AllocationLog) (c' : ℕ) :
    Prop where
  counter : c' = (c + advanceCount log) % sequenceSpace
  number : ∀ (i : ℕ) (e : List AllocationAccess × Allocation), log[i]? = some e →
    ∃ o, e.2 = .done ((c + advanceCount (log.take i)) % sequenceSpace) o
  offset : ∀ n ∈ emittedNumbers log, ∃ j < advanceCount log, n = (c + j) % sequenceSpace
  unique : advanceCount log ≤ sequenceSpace → (emittedNumbers log).Nodup

theorem advanceCount_snoc (log : AllocationLog) (bs : List AllocationAccess) (n : ℕ)
    (o : Outcome) :
    advanceCount (log ++ [(bs, .done n o)]) = advanceCount log + o.advances.toNat := by
  cases h : o.advances <;>
    simp [advanceCount, List.countP_append, Allocation.advances, h]

theorem emittedNumbers_snoc (log : AllocationLog) (bs : List AllocationAccess) (n : ℕ)
    (o : Outcome) :
    emittedNumbers (log ++ [(bs, .done n o)]) =
      emittedNumbers log ++ (Allocation.done n o).emitted.toList := by
  cases o <;> simp [emittedNumbers, Allocation.emitted]

/-- Offsets below the sequence space that lead to the same number are the same. -/
theorem offset_unique {c j k : ℕ} (hj : j < sequenceSpace) (hk : k < sequenceSpace)
    (h : (c + j) % sequenceSpace = (c + k) % sequenceSpace) : j = k := by
  simp only [sequenceSpace] at *
  omega

/-- **A run of allocations**, from any counter. -/
theorem allocated_run {g c c' : ℕ} {log : AllocationLog}
    (hc : c < sequenceSpace) (hr : (allocation.atomic g).RunFrom c log c') :
    Allocated c log c' := by
  induction hr with
  | nil =>
    exact ⟨(Nat.mod_eq_of_lt hc).symm, by simp, by simp [emittedNumbers],
      fun _ => List.nodup_nil⟩
  | @snoc log c' c'' bs m _ hn ih =>
    obtain ⟨o, rfl, rfl⟩ := allocation_next hn
    have hsnoc := advanceCount_snoc log bs c' o
    have hnumber := emittedNumbers_snoc log bs c' o
    refine ⟨?_, fun i e he => ?_, fun n hn => ?_, fun hle => ?_⟩
    · rw [hsnoc, ih.counter]
      cases o.advances with
      | true => exact (Nat.mod_add_mod _ _ _).trans (by rw [Nat.add_assoc]; rfl)
      | false => rfl
    · rcases lt_or_ge i log.length with hi | hi
      · rw [List.getElem?_append_left hi] at he
        rw [List.take_append_of_le_length hi.le]
        exact ih.number i e he
      · rw [List.getElem?_append_right hi, List.getElem?_singleton] at he
        split_ifs at he with hzero
        obtain rfl := Option.some.inj he
        have hi : i = log.length := by omega
        rw [hi, List.take_left, ← ih.counter]
        exact ⟨o, rfl⟩
    · rw [hnumber] at hn
      rcases List.mem_append.mp hn with hn | hn
      · obtain ⟨j, hj, rfl⟩ := ih.offset n hn
        exact ⟨j, by omega, rfl⟩
      · cases o with
        | failed _ _ => simp [Allocation.emitted] at hn
        | emitted =>
          simp only [Allocation.emitted, Option.toList_some, List.mem_singleton] at hn
          refine ⟨advanceCount log, ?_, hn.trans ih.counter⟩
          simp [hsnoc, Outcome.advances]
    · have hle' : advanceCount log ≤ sequenceSpace := by omega
      rw [hnumber]
      cases o with
      | failed _ _ => simpa [Allocation.emitted] using ih.unique hle'
      | emitted =>
        -- an earlier number would have an offset below that of the new one
        have hlt : advanceCount log < sequenceSpace := by
          simp only [hsnoc, Outcome.advances, Bool.toNat_true] at hle
          omega
        simp only [Allocation.emitted, Option.toList_some]
        refine List.nodup_append.mpr ⟨ih.unique hle', List.nodup_singleton _, ?_⟩
        rintro n hn m hm rfl
        obtain ⟨j, hj, hnj⟩ := ih.offset n hn
        rw [List.mem_singleton.mp hm, ih.counter] at hnj
        have := offset_unique hlt (lt_trans hj hlt) hnj
        omega

/-- **No update of the sequence number is lost**, in any interleaving of allocations each of which
is made under the lock: with `m_lock_depth` zero the counter is the number of allocations that used
one up, modulo 1024; the `i`-th allocation to end was given the number of those before it that did;
and among any successive allocations of which at most 1024 used up a number, no two emit the same.
-/
theorem sequence_numbers_unique {held : Bool}
    {s : Preemptive.Stack (Preemptive.Guarded LockState ℕ Allocation AllocationAccess)
      (Preemptive.Worker LockContext Allocation AllocationAccess)}
    (hr : (guardedContexts held allocation 0).machine.Reachable s) :
    (s.shared.lock.mLockDepth = 0 →
      s.shared.value = advanceCount s.shared.log % sequenceSpace) ∧
    (∀ (i : ℕ) (e : List AllocationAccess × Allocation), s.shared.log[i]? = some e →
      ∃ o, e.2 = .done (advanceCount (s.shared.log.take i) % sequenceSpace) o) ∧
    ∀ before window after, s.shared.log = before ++ window ++ after →
      advanceCount window ≤ sequenceSpace → (emittedNumbers window).Nodup := by
  obtain ⟨v, hs⟩ := Preemptive.guard_serial (locking held) hr
  have hlog : (allocation.atomic 0).RunFrom 0 s.shared.log v := hs.log
  have hall := allocated_run (by norm_num [sequenceSpace]) hlog
  refine ⟨fun hdepth => ?_, fun i e he => ?_, fun before window after hsplit hle => ?_⟩
  · rw [hs.free (decide_eq_false (not_holds_of_depth hr hdepth)), hall.counter, Nat.zero_add]
  · obtain ⟨o, ho⟩ := hall.number i e he
    rw [Nat.zero_add] at ho
    exact ⟨o, ho⟩
  · rw [hsplit] at hlog
    obtain ⟨d, hfront, -⟩ := hlog.split
    obtain ⟨c, hbefore, hwindow⟩ := hfront.split
    have hc : c < sequenceSpace := by
      rw [(allocated_run (by norm_num [sequenceSpace]) hbefore).counter]
      exact Nat.mod_lt _ (by norm_num [sequenceSpace])
    exact (allocated_run hc hwindow).unique hle

/-- The handler was given 0, and the main thread is given 1. -/
theorem sequence_numbers_unique_handler :
    ∃ s, (guardedContexts false allocation 0).machine.Reachable s ∧
      emittedNumbers s.shared.log = [0, 1] ∧ (emittedNumbers s.shared.log).Nodup ∧
      s.shared.lock.mLockDepth = 0 ∧ s.shared.value = 2 := by
  have hrun : ∃ h s, (guardedContexts false allocation 0).machine.Run h s ∧
      emittedNumbers s.shared.log = [0, 1] ∧ advanceCount s.shared.log = 2 ∧
      s.shared.lock.mLockDepth = 0 :=
    ⟨_, _, Mealy.runFrom_of_exec (M := (guardedContexts false allocation 0).machine)
      (s := ⟨⟨⟨false, 0, 0⟩, 0, []⟩, ⟨.fresh, .start, []⟩, []⟩)
      (l := preemptedAllocation ++ [.act (.inr (.write .emitted)), .act (.inl .unlock)] ++
        List.replicate 5 (.act (.inl .step))) rfl, rfl, rfl, rfl⟩
  obtain ⟨h, s, hr, hemitted, hcount, hdepth⟩ := hrun
  obtain ⟨hvalue, -, hunique⟩ := sequence_numbers_unique ⟨h, hr⟩
  refine ⟨s, ⟨h, hr⟩, hemitted, ?_, hdepth, ?_⟩
  · exact hunique [] s.shared.log [] (by simp) (by rw [hcount]; norm_num [sequenceSpace])
  · rw [hvalue hdepth, hcount]
    rfl

end HubbleNordic
