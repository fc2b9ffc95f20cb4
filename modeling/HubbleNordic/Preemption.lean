import HubbleNordic.Mealy

/-!
# Contexts that run to completion on top of one another

A processor with interrupts: one context runs, the contexts it has preempted wait below it in the
order in which they were preempted, and all of them work on one shared state.  A new context may
start on top of the running one at any step, unless the shared state masks interrupts; the running
one resumes its predecessor once it is done.

* `Preemptive`: what one context can do; `Turn`, `Stack` and `machine`: all interleavings;
* `stack_invariant`: the proof rule, with one assertion about the running context and the shared
  state, and one about each suspended context alone.
-/

/-- Contexts `κ` over a shared state `σ`: the initial shared state, how a context starts, its steps
by actions `α`, when new contexts are masked, and when a context is done. -/
structure Preemptive (σ κ α : Type*) where
  init : σ
  start : κ
  step : σ → κ → α → Option (σ × κ)
  masked : σ → Bool
  done : κ → Bool

namespace Preemptive

variable {σ κ α : Type*}

/-- The running context acts, is preempted by a new one, or is done and resumes its predecessor. -/
inductive Turn (α : Type*)
  | act (a : α)
  | preempt
  | finish

/-- The shared state, the running context, and the ones it has preempted, latest first. -/
@[ext] structure Stack (σ κ : Type*) where
  shared : σ
  running : κ
  suspended : List κ

variable (P : Preemptive σ κ α)

/-- All interleavings, from a single context. -/
def machine : Mealy (Stack σ κ) (Turn α) Unit where
  init := ⟨P.init, P.start, []⟩
  next s
    | .act a =>
        (P.step s.shared s.running a).map fun (x, k) =>
          ((), { s with shared := x, running := k })
    | .preempt =>
        if P.masked s.shared = true then none
        else some ((), ⟨s.shared, P.start, s.running :: s.suspended⟩)
    | .finish =>
        match s.suspended with
        | [] => none
        | k :: ks => if P.done s.running = true then some ((), ⟨s.shared, k, ks⟩) else none

variable {P}

/-- **The proof rule**: `I` relates the shared state to the running context, `J` speaks about a
suspended context alone.  Preemption has to establish `J` of the context it suspends and `I` of the
one that starts; a context that is done has to leave every context with `J` in its `I`. -/
theorem stack_invariant {I : σ → κ → Prop} {J : κ → Prop} (h0 : I P.init P.start)
    (hact : ∀ x k a x' k', I x k → P.step x k a = some (x', k') → I x' k')
    (hpreempt : ∀ x k, I x k → P.masked x = false → J k ∧ I x P.start)
    (hfinish : ∀ x k j, I x k → P.done k = true → J j → I x j)
    {s : Stack σ κ} (hr : P.machine.Reachable s) :
    I s.shared s.running ∧ ∀ k ∈ s.suspended, J k := by
  refine Mealy.reachable_invariant
    (I := fun s => I s.shared s.running ∧ ∀ k ∈ s.suspended, J k) ⟨h0, by simp [machine]⟩
    (fun s t o s' hs hn => ?_) hr
  obtain ⟨hI, hJ⟩ := hs
  cases t with
  | act a =>
    simp only [machine, Option.map_eq_some_iff, Prod.mk.injEq, Prod.exists] at hn
    obtain ⟨x, k, hstep, -, rfl⟩ := hn
    exact ⟨hact _ _ _ _ _ hI hstep, hJ⟩
  | preempt =>
    simp only [machine, Option.ite_none_left_eq_some, Option.some.injEq, Prod.mk.injEq,
      Bool.not_eq_true] at hn
    obtain ⟨hmask, -, rfl⟩ := hn
    obtain ⟨hk, hstart⟩ := hpreempt _ _ hI hmask
    exact ⟨hstart, List.forall_mem_cons.mpr ⟨hk, hJ⟩⟩
  | finish =>
    cases hsus : s.suspended with
    | nil => simp [machine, hsus] at hn
    | cons k ks =>
      simp only [machine, hsus, Option.ite_none_right_eq_some, Option.some.injEq,
        Prod.mk.injEq] at hn
      obtain ⟨hdone, -, rfl⟩ := hn
      rw [hsus] at hJ
      obtain ⟨hk, hks⟩ := List.forall_mem_cons.mp hJ
      exact ⟨hfinish _ _ _ hI hdone hk, hks⟩

end Preemptive
