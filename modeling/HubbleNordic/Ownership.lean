import HubbleNordic.Preemption

/-!
# Contexts that own parts of the shared state

Two proof rules for contexts that run to completion on top of one another, where each context works
on resources of its own.

* `stack_local`: an invariant of the shared state, one of each context against it, running or
  suspended, and a relation between each context and those below it;
* `stack_owned`: what is live is owned by some context on the stack.
-/

namespace Preemptive

variable {σ κ α : Type*} {P : Preemptive σ κ α}

/-- All contexts, the running one first. -/
def Stack.contexts (s : Stack σ κ) : List κ := s.running :: s.suspended

/-- The turns of a stack. -/
theorem machine_next {s s' : Stack σ κ} {t : Turn α} {o : Unit}
    (hn : P.machine.next s t = some (o, s')) :
    (∃ a, t = .act a ∧ P.step s.shared s.running a = some (s'.shared, s'.running) ∧
        s'.suspended = s.suspended) ∨
      (t = .preempt ∧ P.masked s.shared = false ∧ s'.shared = s.shared ∧
        s'.contexts = P.start :: s.contexts) ∨
      (t = .finish ∧ P.done s.running = true ∧ s'.shared = s.shared ∧
        s.contexts = s.running :: s'.contexts) := by
  cases t with
  | act a =>
    simp only [machine, Option.map_eq_some_iff, Prod.mk.injEq, Prod.exists] at hn
    obtain ⟨x, k, hstep, -, rfl⟩ := hn
    exact Or.inl ⟨a, rfl, hstep, rfl⟩
  | preempt =>
    simp only [machine, Option.ite_none_left_eq_some, Option.some.injEq, Prod.mk.injEq,
      Bool.not_eq_true] at hn
    obtain ⟨hmask, -, rfl⟩ := hn
    exact Or.inr (Or.inl ⟨rfl, hmask, rfl, rfl⟩)
  | finish =>
    cases hsus : s.suspended with
    | nil => simp [machine, hsus] at hn
    | cons k ks =>
      simp only [machine, hsus, Option.ite_none_right_eq_some, Option.some.injEq,
        Prod.mk.injEq] at hn
      obtain ⟨hdone, -, rfl⟩ := hn
      exact Or.inr (Or.inr ⟨rfl, hdone, rfl, by rw [Stack.contexts, hsus]; rfl⟩)

/-- **The rule for local work**: a step keeps `G`, the acting context's `I`, and, of every context
below that is related to it by `D`, the `I` as well as the relation. -/
theorem stack_local {G : σ → Prop} {I : σ → κ → Prop} {D : κ → κ → Prop}
    (hinit : G P.init ∧ I P.init P.start)
    (hact : ∀ x k a x' k', G x → I x k → P.step x k a = some (x', k') →
      G x' ∧ I x' k' ∧ ∀ j, I x j → D k j → I x' j ∧ D k' j)
    (hstart : ∀ x, G x → P.masked x = false → I x P.start ∧ ∀ j, I x j → D P.start j)
    {s : Stack σ κ} (hr : P.machine.Reachable s) :
    G s.shared ∧ (∀ k ∈ s.contexts, I s.shared k) ∧ s.contexts.Pairwise D := by
  refine Mealy.reachable_invariant (I := fun s => G s.shared ∧ (∀ k ∈ s.contexts, I s.shared k) ∧
    s.contexts.Pairwise D) ?_ (fun s t o s' hs hn => ?_) hr
  · refine ⟨hinit.1, fun k hk => ?_, List.pairwise_singleton D P.start⟩
    obtain rfl : k = P.start := List.mem_singleton.mp hk
    exact hinit.2
  obtain ⟨hG, hI, hD⟩ := hs
  rcases machine_next hn with ⟨a, -, hstep, hsus⟩ | ⟨-, hmask, hx, hk⟩ | ⟨-, -, hx, hk⟩
  · obtain ⟨hrun, hbelow⟩ := List.forall_mem_cons.mp hI
    obtain ⟨htop, hpairs⟩ := List.pairwise_cons.mp hD
    obtain ⟨hG', hI', hkeep⟩ := hact _ _ _ _ _ hG hrun hstep
    have hkept (j : κ) (hj : j ∈ s.suspended) := hkeep j (hbelow j hj) (htop j hj)
    rw [Stack.contexts, hsus]
    exact ⟨hG', List.forall_mem_cons.mpr ⟨hI', fun j hj => (hkept j hj).1⟩,
      List.pairwise_cons.mpr ⟨fun j hj => (hkept j hj).2, hpairs⟩⟩
  · obtain ⟨hI', hD'⟩ := hstart _ hG hmask
    rw [hx, hk]
    exact ⟨hG, List.forall_mem_cons.mpr ⟨hI', hI⟩,
      List.pairwise_cons.mpr ⟨fun j hj => hD' j (hI j hj), hD⟩⟩
  · rw [hk] at hI hD
    rw [hx]
    exact ⟨hG, (List.forall_mem_cons.mp hI).2, (List.pairwise_cons.mp hD).2⟩

/-- **The rule for ownership**: nothing is live at the start, what a step leaves live the acting
context owns, or did not own before, and a context that is done owns nothing. -/
theorem stack_owned {ρ : Type*} {live : σ → ρ → Prop} {owns : κ → ρ → Prop}
    (hinit : ∀ r, ¬ live P.init r)
    (hact : ∀ x k a x' k' r, P.step x k a = some (x', k') → live x' r →
      owns k' r ∨ live x r ∧ ¬ owns k r)
    (hdone : ∀ k r, P.done k = true → ¬ owns k r)
    {s : Stack σ κ} (hr : P.machine.Reachable s) {r : ρ} (hlive : live s.shared r) :
    ∃ k ∈ s.contexts, owns k r := by
  refine Mealy.reachable_invariant
    (I := fun s => ∀ r, live s.shared r → ∃ k ∈ s.contexts, owns k r)
    (fun r hr => absurd hr (hinit r)) (fun s t o s' hs hn r hlive => ?_) hr r hlive
  rcases machine_next hn with ⟨a, -, hstep, hsus⟩ | ⟨-, -, hx, hk⟩ | ⟨-, hend, hx, hk⟩
  · rcases hact _ _ _ _ _ r hstep hlive with howns | ⟨hlive, hnot⟩
    · exact ⟨_, List.mem_cons_self, howns⟩
    · obtain ⟨k, hk, howns⟩ := hs r hlive
      rcases List.mem_cons.mp hk with rfl | hk
      · exact absurd howns hnot
      · exact ⟨k, List.mem_cons_of_mem _ (hsus ▸ hk), howns⟩
  · obtain ⟨k, hmem, howns⟩ := hs r (hx ▸ hlive)
    exact ⟨k, hk ▸ List.mem_cons_of_mem _ hmem, howns⟩
  · obtain ⟨k, hmem, howns⟩ := hs r (hx ▸ hlive)
    rw [hk] at hmem
    rcases List.mem_cons.mp hmem with rfl | hmem
    · exact absurd howns (hdone _ r hend)
    · exact ⟨k, hmem, howns⟩

end Preemptive
