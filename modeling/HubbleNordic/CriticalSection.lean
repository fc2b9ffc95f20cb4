import HubbleNordic.Preemption

/-!
# Critical sections are atomic

Contexts that run to completion on top of one another take a lock around their accesses to a guarded
value.  An access is one read or write, so a section may be cut anywhere; the lock is any protocol
that masks preemption while it is held.

* `CriticalSection`: what may be done to the value inside one critical section, access by access;
* `CriticalSection.atomic`: the abstract machine, which runs a whole section in one step;
* `Locking`: what is asked of the lock;
* `guard`: the contexts of a lock, each of which works on the value while it holds the lock;
* `guard_simulation`: forgetting the value leaves a run of the lock alone;
* `guard_serial`: **in every interleaving the value is what the completed sections leave that were
  run one after the other**, and a section in progress has not been disturbed.
-/

/-- The accesses `β` to a guarded value `γ` that one critical section makes with a private memory
`μ`, which is `start` when the section begins; a section may end once it is `finished`. -/
structure CriticalSection (γ μ β : Type*) where
  start : μ
  access : γ → μ → β → Option (γ × μ)
  finished : μ → Bool

namespace CriticalSection

variable {γ μ β : Type*} (S : CriticalSection γ μ β)

/-- Accesses made one after the other with nothing in between. -/
def run (x : γ × μ) (bs : List β) : Option (γ × μ) :=
  bs.foldlM (fun x b => S.access x.1 x.2 b) x

@[simp] theorem run_nil (x : γ × μ) : S.run x [] = some x := rfl

theorem run_snoc (x : γ × μ) (bs : List β) (b : β) :
    S.run x (bs ++ [b]) = (S.run x bs).bind fun y => S.access y.1 y.2 b := by
  simp [run, List.foldlM_append]

/-- The abstract machine: a whole section is one step, which shows the memory it ends with. -/
def atomic (g : γ) : Mealy γ (List β) μ where
  init := g
  next v bs :=
    (S.run (v, S.start) bs).bind fun (v, m) => if S.finished m = true then some (m, v) else none

theorem atomic_next {g v v' : γ} {bs : List β} {m : μ} :
    (S.atomic g).next v bs = some (m, v') ↔
      S.run (v, S.start) bs = some (v', m) ∧ S.finished m = true := by
  simp only [atomic, Option.bind_eq_some_iff, Option.ite_none_right_eq_some, Option.some.injEq,
    Prod.mk.injEq, Prod.exists]
  constructor
  · rintro ⟨v, m, hrun, hfin, rfl, rfl⟩
    exact ⟨hrun, hfin⟩
  · rintro ⟨hrun, hfin⟩
    exact ⟨v', m, hrun, hfin, rfl, rfl⟩

end CriticalSection

namespace Preemptive

variable {σ κ α γ μ β : Type*}

/-- `holds` says which contexts hold the lock: none that starts or is done, and no new context
starts while the running one does. -/
structure Locking (P : Preemptive σ κ α) (holds : κ → Bool) : Prop where
  start : holds P.start = false
  done : ∀ k, P.done k = true → holds k = false
  masked : ∀ s, P.machine.Reachable s → holds s.running = true → P.masked s.shared = true

/-- The state of the lock and the guarded value; `log` lists the completed sections, each with the
memory it ended with (for the statements only). -/
structure Guarded (σ γ μ β : Type*) where
  lock : σ
  value : γ
  log : List (List β × μ)

/-- A context of the lock with its private memory; `accesses` lists those of the section it is in
(for the statements only). -/
structure Worker (κ μ β : Type*) where
  lock : κ
  memory : μ
  accesses : List β

section Guard

variable (P : Preemptive σ κ α) (holds : κ → Bool) (S : CriticalSection γ μ β) (g : γ)

/-- One step of a context: of the lock, or an access of a context that holds it.  A section begins
when the context comes to hold the lock; before it gives the lock up the section is finished. -/
def guardStep (x : Guarded σ γ μ β) (k : Worker κ μ β) :
    α ⊕ β → Option (Guarded σ γ μ β × Worker κ μ β)
  | .inl a =>
      (P.step x.lock k.lock a).bind fun (y, j) =>
        match holds k.lock, holds j with
        | false, true => some ({ x with lock := y }, ⟨j, S.start, []⟩)
        | true, false =>
            if S.finished k.memory = true then
              some (⟨y, x.value, x.log ++ [(k.accesses, k.memory)]⟩, { k with lock := j })
            else none
        | _, _ => some ({ x with lock := y }, { k with lock := j })
  | .inr b =>
      if holds k.lock = true then
        (S.access x.value k.memory b).map fun (v, m) =>
          ({ x with value := v }, ⟨k.lock, m, k.accesses ++ [b]⟩)
      else none

/-- The contexts of the lock `P`, working on a value that is `g` at the start. -/
def guard : Preemptive (Guarded σ γ μ β) (Worker κ μ β) (α ⊕ β) where
  init := ⟨P.init, g, []⟩
  start := ⟨P.start, S.start, []⟩
  step := guardStep P holds S
  masked x := P.masked x.lock
  done k := P.done k.lock

end Guard

/-- The state of the lock alone. -/
def Stack.forget (s : Stack (Guarded σ γ μ β) (Worker κ μ β)) : Stack σ κ :=
  ⟨s.shared.lock, s.running.lock, s.suspended.map Worker.lock⟩

/-- What a step does to the lock: an access does nothing. -/
def Turn.forget : Turn (α ⊕ β) × Unit → List (Turn α × Unit)
  | (.act (.inl a), _) => [(.act a, ())]
  | (.act (.inr _), _) => []
  | (.preempt, _) => [(.preempt, ())]
  | (.finish, _) => [(.finish, ())]

variable {P : Preemptive σ κ α} {holds : κ → Bool} {S : CriticalSection γ μ β} {g : γ}

/-- What a step of the lock can do to a context: nothing begins or ends, a section begins, or one
ends. -/
theorem guardStep_inl {x x' : Guarded σ γ μ β} {k k' : Worker κ μ β} {a : α}
    (hs : guardStep P holds S x k (.inl a) = some (x', k')) :
    P.step x.lock k.lock a = some (x'.lock, k'.lock) ∧ x'.value = x.value ∧
      ((holds k'.lock = holds k.lock ∧ x'.log = x.log ∧ k'.memory = k.memory ∧
          k'.accesses = k.accesses) ∨
        (holds k.lock = false ∧ holds k'.lock = true ∧ x'.log = x.log ∧ k'.memory = S.start ∧
          k'.accesses = []) ∨
        (holds k.lock = true ∧ holds k'.lock = false ∧ S.finished k.memory = true ∧
          x'.log = x.log ++ [(k.accesses, k.memory)])) := by
  simp only [guardStep, Option.bind_eq_some_iff, Prod.exists] at hs
  obtain ⟨y, j, hstep, hs⟩ := hs
  cases hk : holds k.lock <;> cases hj : holds j <;> simp only [hk, hj] at hs
  case false.true =>
    simp only [Option.some.injEq, Prod.mk.injEq] at hs
    obtain ⟨rfl, rfl⟩ := hs
    exact ⟨hstep, rfl, Or.inr (Or.inl ⟨rfl, hj, rfl, rfl, rfl⟩)⟩
  case true.false =>
    simp only [Option.ite_none_right_eq_some, Option.some.injEq, Prod.mk.injEq] at hs
    obtain ⟨hfin, rfl, rfl⟩ := hs
    exact ⟨hstep, rfl, Or.inr (Or.inr ⟨rfl, hj, hfin, rfl⟩)⟩
  all_goals
    simp only [Option.some.injEq, Prod.mk.injEq] at hs
    obtain ⟨rfl, rfl⟩ := hs
    exact ⟨hstep, rfl, Or.inl ⟨hj, rfl, rfl, rfl⟩⟩

/-- What an access does. -/
theorem guardStep_inr {x x' : Guarded σ γ μ β} {k k' : Worker κ μ β} {b : β}
    (hs : guardStep P holds S x k (.inr b) = some (x', k')) :
    holds k.lock = true ∧ S.access x.value k.memory b = some (x'.value, k'.memory) ∧
      x'.lock = x.lock ∧ x'.log = x.log ∧ k'.lock = k.lock ∧ k'.accesses = k.accesses ++ [b] := by
  simp only [guardStep, Option.ite_none_right_eq_some, Option.map_eq_some_iff, Prod.mk.injEq,
    Prod.exists] at hs
  obtain ⟨hk, v, m, hacc, rfl, rfl⟩ := hs
  exact ⟨hk, hacc, rfl, rfl, rfl, rfl⟩

/-- **Forgetting the value** leaves a run of the lock alone. -/
theorem guard_simulation :
    Mealy.Simulation (guard P holds S g).machine P.machine (fun s t => s.forget = t)
      Turn.forget where
  init := rfl
  next := by
    rintro s _ i o s' - rfl hn
    cases i with
    | act a =>
      simp only [machine, Option.map_eq_some_iff, Prod.mk.injEq, Prod.exists] at hn
      obtain ⟨x, k, hstep, -, rfl⟩ := hn
      cases a with
      | inl a =>
        obtain ⟨hlock, -⟩ := guardStep_inl hstep
        refine ⟨_, Mealy.RunFrom.nil.snoc ?_, rfl⟩
        simp [machine, Stack.forget, hlock]
      | inr b =>
        obtain ⟨-, -, hx, -, hk, -⟩ := guardStep_inr (P := P) hstep
        have hforget : Stack.forget ⟨x, k, s.suspended⟩ = s.forget := by
          simp [Stack.forget, hx, hk]
        exact ⟨s.forget, .nil, hforget⟩
    | preempt =>
      simp only [machine, Option.ite_none_left_eq_some, Option.some.injEq, Prod.mk.injEq] at hn
      obtain ⟨hmask, -, rfl⟩ := hn
      refine ⟨_, Mealy.RunFrom.nil.snoc ?_, rfl⟩
      exact (if_neg hmask).trans rfl
    | finish =>
      cases hsus : s.suspended with
      | nil => simp [machine, hsus] at hn
      | cons k ks =>
        simp only [machine, hsus, Option.ite_none_right_eq_some, Option.some.injEq,
          Prod.mk.injEq] at hn
        obtain ⟨hdone, -, rfl⟩ := hn
        refine ⟨_, Mealy.RunFrom.nil.snoc ?_, rfl⟩
        have hdone : P.done s.running.lock = true := hdone
        simp [machine, Stack.forget, hsus, hdone]

/-- The lock is in a state that it reaches without the value. -/
theorem guard_reachable {s : Stack (Guarded σ γ μ β) (Worker κ μ β)}
    (hr : (guard P holds S g).machine.Reachable s) : P.machine.Reachable s.forget := by
  obtain ⟨h, hr⟩ := hr
  obtain ⟨t, hrun, rfl⟩ := guard_simulation.run hr
  exact ⟨_, hrun⟩

/-- The sections in `log` were run one after the other and left `v`; the section the running context
is in, if any, has worked on `v` alone, and nobody else is in one. -/
structure SerialAt (holds : κ → Bool) (S : CriticalSection γ μ β) (g v : γ)
    (s : Stack (Guarded σ γ μ β) (Worker κ μ β)) : Prop where
  log : (S.atomic g).Run s.shared.log v
  free : holds s.running.lock = false → s.shared.value = v
  within : holds s.running.lock = true →
    S.run (v, S.start) s.running.accesses = some (s.shared.value, s.running.memory)
  outside : ∀ k ∈ s.suspended, holds k.lock = false

/-- One step of the running context. -/
theorem serialAt_act {v : γ} {s : Stack (Guarded σ γ μ β) (Worker κ μ β)} {a : α ⊕ β}
    {x : Guarded σ γ μ β} {k : Worker κ μ β} (hs : SerialAt holds S g v s)
    (hstep : guardStep P holds S s.shared s.running a = some (x, k)) :
    ∃ v', SerialAt holds S g v' ⟨x, k, s.suspended⟩ := by
  obtain ⟨hlog, hfree, hwithin, hout⟩ := hs
  cases a with
  | inl a =>
    obtain ⟨-, hvalue, hkeep | hbegin | hend⟩ := guardStep_inl hstep
    · obtain ⟨hholds, hl, hm, ha⟩ := hkeep
      refine ⟨v, by rwa [hl], fun h => ?_, fun h => ?_, hout⟩
      · rw [hvalue]
        exact hfree (hholds.symm.trans h)
      · rw [hvalue, hm, ha]
        exact hwithin (hholds.symm.trans h)
    · obtain ⟨hk, hk', hl, hm, ha⟩ := hbegin
      refine ⟨v, by rwa [hl], fun h => ?_, fun _ => ?_, hout⟩
      · rw [hk'] at h
        cases h
      · rw [hvalue, hm, ha, hfree hk]
        rfl
    · -- the section ends: it becomes the next step of the abstract machine
      obtain ⟨hk, hk', hfin, hl⟩ := hend
      refine ⟨s.shared.value, ?_, fun _ => hvalue, fun h => ?_, hout⟩
      · rw [hl]
        exact hlog.snoc (S.atomic_next.mpr ⟨hwithin hk, hfin⟩)
      · rw [hk'] at h
        cases h
  | inr b =>
    obtain ⟨hk, hacc, -, hl, hlock, ha⟩ := guardStep_inr hstep
    refine ⟨v, by rwa [hl], fun h => ?_, fun _ => ?_, hout⟩
    · rw [hlock, hk] at h
      cases h
    · rw [ha, S.run_snoc, hwithin hk]
      exact hacc

/-- **Every interleaving is serial**: the guarded value is what the completed sections leave that
were run one after the other in the order in which they ended; and what the section in progress has
seen is what it would have seen alone. -/
theorem guard_serial (L : Locking P holds) {s : Stack (Guarded σ γ μ β) (Worker κ μ β)}
    (hr : (guard P holds S g).machine.Reachable s) : ∃ v, SerialAt holds S g v s := by
  obtain ⟨h, hr⟩ := hr
  refine Mealy.runFrom_invariant (I := fun _ s => ∃ v, SerialAt holds S g v s) ?_ ?_ hr
  · refine ⟨g, .nil, fun _ => rfl, fun h => ?_, by simp [machine]⟩
    have hstart := L.start
    simp only [machine, guard] at h
    rw [hstart] at h
    cases h
  · rintro h s i o s' hr ⟨v, hs⟩ hn
    cases i with
    | act a =>
      simp only [machine, Option.map_eq_some_iff, Prod.mk.injEq, Prod.exists] at hn
      obtain ⟨x, k, hstep, -, rfl⟩ := hn
      exact serialAt_act hs hstep
    | preempt =>
      simp only [machine, Option.ite_none_left_eq_some, Option.some.injEq, Prod.mk.injEq] at hn
      obtain ⟨hmask, -, rfl⟩ := hn
      -- preemption was not masked, so the context that is suspended holds nothing
      have hholds : holds s.running.lock = false := by
        by_contra h
        exact hmask (L.masked _ (guard_reachable ⟨_, hr⟩) (by simpa [Stack.forget] using h))
      refine ⟨v, hs.log, fun _ => hs.free hholds, fun h => ?_,
        List.forall_mem_cons.mpr ⟨hholds, hs.outside⟩⟩
      exact absurd (L.start.symm.trans h) (by simp)
    | finish =>
      cases hsus : s.suspended with
      | nil => simp [machine, hsus] at hn
      | cons k ks =>
        simp only [machine, hsus, Option.ite_none_right_eq_some, Option.some.injEq,
          Prod.mk.injEq] at hn
        obtain ⟨hdone, -, rfl⟩ := hn
        have hout := hs.outside
        rw [hsus] at hout
        obtain ⟨hk, hks⟩ := List.forall_mem_cons.mp hout
        refine ⟨v, hs.log, fun _ => hs.free (L.done _ hdone), fun h => ?_, hks⟩
        rw [hk] at h
        cases h

end Preemptive
