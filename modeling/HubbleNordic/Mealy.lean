import Mathlib.Tactic

/-!
# Partial Mealy machines and their runs

A machine reads one input at a time, answers with one output and moves to a new state; an input
may be refused.  A history lists the inputs read so far, each with the output it drew.

* `Mealy`, `RunFrom`, `Run`, `Reachable`;
* `runFrom_invariant`: what one step preserves, every run preserves (the invariant may speak about
  the history as well as about the state);
* `RunWith P`: the runs all of whose steps satisfy `P`; `runWith_iff` compares two such
  conditions step by step, assuming both along the way;
* `restrict G`: the same machine with the inputs outside `G` refused;
* `Simulation`: a machine whose steps are matched by those of another, and `Simulation.run`: then
  its runs are;
* `exec`: the executable form of a run, for evaluating a concrete one.
-/

/-- A machine with inputs `ι` and outputs `ο`; `none` means that the input is refused. -/
structure Mealy (σ ι ο : Type*) where
  init : σ
  next : σ → ι → Option (ο × σ)

namespace Mealy

variable {σ ι ο : Type*} (M : Mealy σ ι ο)

/-- `M.RunFrom s h t`: reading the inputs of `h` from the state `s` draws the outputs of `h` and
ends in `t`. -/
inductive RunFrom (s : σ) : List (ι × ο) → σ → Prop
  | nil : RunFrom s [] s
  | snoc {h : List (ι × ο)} {t u : σ} {i : ι} {o : ο} :
      RunFrom s h t → M.next t i = some (o, u) → RunFrom s (h ++ [(i, o)]) u

/-- A run from the initial state. -/
abbrev Run (h : List (ι × ο)) (s : σ) : Prop := M.RunFrom M.init h s

/-- The states some run ends in. -/
def Reachable (s : σ) : Prop := ∃ h, M.Run h s

variable {M}

theorem RunFrom.cons {s t u : σ} {i : ι} {o : ο} {h : List (ι × ο)}
    (h1 : M.next s i = some (o, t)) (h2 : M.RunFrom t h u) : M.RunFrom s ((i, o) :: h) u := by
  induction h2 with
  | nil => exact RunFrom.snoc (h := []) .nil h1
  | snoc _ hnext ih => exact RunFrom.snoc ih hnext

theorem RunFrom.append {s t u : σ} {h k : List (ι × ο)}
    (h1 : M.RunFrom s h t) (h2 : M.RunFrom t k u) : M.RunFrom s (h ++ k) u := by
  induction h2 with
  | nil => simpa using h1
  | snoc _ hnext ih =>
    rw [← List.append_assoc]
    exact RunFrom.snoc ih hnext

/-- A run can be cut anywhere. -/
theorem RunFrom.split {s u : σ} {h k : List (ι × ο)} (hr : M.RunFrom s (h ++ k) u) :
    ∃ t, M.RunFrom s h t ∧ M.RunFrom t k u := by
  generalize hl : h ++ k = l at hr
  induction hr generalizing k with
  | nil =>
    obtain ⟨rfl, rfl⟩ := List.append_eq_nil_iff.mp hl
    exact ⟨s, .nil, .nil⟩
  | @snoc l t u i o hr hn ih =>
    rcases List.eq_nil_or_concat k with rfl | ⟨k', e, rfl⟩
    · rw [List.append_nil] at hl
      exact ⟨u, hl ▸ hr.snoc hn, .nil⟩
    · rw [List.concat_eq_append, ← List.append_assoc] at hl
      obtain ⟨hl', he⟩ := List.append_inj' hl rfl
      obtain rfl := List.singleton_inj.mp he
      obtain ⟨t', h1, h2⟩ := ih hl'
      rw [List.concat_eq_append]
      exact ⟨t', h1, h2.snoc hn⟩

/-- **The invariant rule**, for an invariant of the history and the state of a run. -/
theorem runFrom_invariant {I : List (ι × ο) → σ → Prop} {s t : σ} {h : List (ι × ο)}
    (h0 : I [] s)
    (hs : ∀ h t i o u, M.RunFrom s h t → I h t → M.next t i = some (o, u) →
      I (h ++ [(i, o)]) u)
    (hr : M.RunFrom s h t) : I h t := by
  induction hr with
  | nil => exact h0
  | snoc hr hn ih => exact hs _ _ _ _ _ hr ih hn

/-- The invariant rule for an invariant of the state alone. -/
theorem reachable_invariant {I : σ → Prop} (h0 : I M.init)
    (hs : ∀ s i o t, I s → M.next s i = some (o, t) → I t) {s : σ} (hr : M.Reachable s) :
    I s := by
  obtain ⟨h, hr⟩ := hr
  exact runFrom_invariant (I := fun _ s => I s) h0
    (fun _ _ _ _ _ _ hi hn => hs _ _ _ _ hi hn) hr

/-! ### Runs whose steps satisfy a condition -/

variable (M) in
/-- The runs from the initial state all of whose steps satisfy `P`, which is told the history
before the step, the state before it, the input, the output and the state after. -/
inductive RunWith (P : List (ι × ο) → σ → ι → ο → σ → Prop) : List (ι × ο) → σ → Prop
  | nil : RunWith P [] M.init
  | snoc {h : List (ι × ο)} {s t : σ} {i : ι} {o : ο} :
      RunWith P h s → M.next s i = some (o, t) → P h s i o t → RunWith P (h ++ [(i, o)]) t

variable {P Q : List (ι × ο) → σ → ι → ο → σ → Prop}

theorem RunWith.run {h : List (ι × ο)} {s : σ} (hr : M.RunWith P h s) : M.Run h s := by
  induction hr with
  | nil => exact .nil
  | snoc _ hn _ ih => exact ih.snoc hn

/-- Two conditions hold along the same runs when they agree at every step up to which both have
held. -/
theorem runWith_iff
    (hPQ : ∀ h s i o t, M.RunWith P h s → M.RunWith Q h s → M.next s i = some (o, t) →
      (P h s i o t ↔ Q h s i o t))
    (h : List (ι × ο)) (s : σ) : M.RunWith P h s ↔ M.RunWith Q h s := by
  constructor
  · intro hr
    induction hr with
    | nil => exact .nil
    | snoc hr hn hp ih => exact ih.snoc hn ((hPQ _ _ _ _ _ hr ih hn).mp hp)
  · intro hr
    induction hr with
    | nil => exact .nil
    | snoc hr hn hq ih => exact ih.snoc hn ((hPQ _ _ _ _ _ ih hr hn).mpr hq)

/-- What `P` establishes step by step, every run with `P` establishes. -/
theorem runWith_invariant {I : List (ι × ο) → σ → Prop} (h0 : I [] M.init)
    (hs : ∀ h s i o t, M.RunWith P h s → I h s → M.next s i = some (o, t) → P h s i o t →
      I (h ++ [(i, o)]) t)
    {h : List (ι × ο)} {s : σ} (hr : M.RunWith P h s) : I h s := by
  induction hr with
  | nil => exact h0
  | snoc hr hn hp ih => exact hs _ _ _ _ _ hr ih hn hp

/-! ### Refusing inputs -/

variable (M) in
/-- The machine `M` with the inputs outside `G` refused. -/
def restrict (G : σ → ι → Prop) [∀ s i, Decidable (G s i)] : Mealy σ ι ο where
  init := M.init
  next s i := if G s i then M.next s i else none

section Restrict

variable {G : σ → ι → Prop} [∀ s i, Decidable (G s i)]

theorem restrict_next {s t : σ} {i : ι} {o : ο} :
    (M.restrict G).next s i = some (o, t) ↔ G s i ∧ M.next s i = some (o, t) := by
  simp [restrict]

end Restrict

/-! ### Simulations -/

/-- A forward simulation of `M` by `N`: `R` relates the initial states, and each step of `M` from a
reachable state is matched by the steps of `N` that `obs` reads off it. -/
structure Simulation {σ' ι' ο' : Type*} (M : Mealy σ ι ο) (N : Mealy σ' ι' ο')
    (R : σ → σ' → Prop) (obs : ι × ο → List (ι' × ο')) : Prop where
  init : R M.init N.init
  next : ∀ {s t i o s'}, M.Reachable s → R s t → M.next s i = some (o, s') →
    ∃ t', N.RunFrom t (obs (i, o)) t' ∧ R s' t'

/-- **The simulation rule**: every run of `M` shows a run of `N`. -/
theorem Simulation.run {σ' ι' ο' : Type*} {N : Mealy σ' ι' ο'} {R : σ → σ' → Prop}
    {obs : ι × ο → List (ι' × ο')} (S : Simulation M N R obs) {h : List (ι × ο)} {s : σ}
    (hr : M.Run h s) : ∃ t, N.Run (h.flatMap obs) t ∧ R s t := by
  induction hr with
  | nil => exact ⟨N.init, .nil, S.init⟩
  | snoc hr hn ih =>
    obtain ⟨t, hrun, hR⟩ := ih
    obtain ⟨t', hstep, hR'⟩ := S.next ⟨_, hr⟩ hR hn
    refine ⟨t', ?_, hR'⟩
    rw [List.flatMap_append, List.flatMap_singleton]
    exact hrun.append hstep

/-! ### Executing a run -/

variable (M) in
/-- Read the inputs one after the other. -/
def exec (s : σ) : List ι → Option (List (ι × ο) × σ)
  | [] => some ([], s)
  | i :: is =>
      (M.next s i).bind fun (o, t) => (exec t is).map fun (h, u) => ((i, o) :: h, u)

theorem runFrom_of_exec {s t : σ} {l : List ι} {h : List (ι × ο)}
    (he : M.exec s l = some (h, t)) : M.RunFrom s h t := by
  induction l generalizing s h with
  | nil =>
    simp only [exec, Option.some.injEq, Prod.mk.injEq] at he
    obtain ⟨rfl, rfl⟩ := he
    exact .nil
  | cons i l ih =>
    simp only [exec, Option.bind_eq_some_iff, Option.map_eq_some_iff, Prod.mk.injEq,
      Prod.exists] at he
    obtain ⟨o, u, hn, k, v, hk, rfl, rfl⟩ := he
    exact RunFrom.cons hn (ih hk)

end Mealy
