import HubbleNordic.Crypto.Sessions
import HubbleNordic.Ownership

/-!
# Sessions with the CryptoCell driver, preempted anywhere

The timer handler may preempt the main thread between any two driver calls of
`hubble_crypto_cc310.c` and call the port itself.

* `SessionPc.Progress`: what the driver has seen of a call in progress; `SasiShared.Kept`: of those
  that have returned;
* `stepKeeps`: one step keeps both; `sessions_invariant`: so does every interleaving;
* `session_records`: what is recorded of a run;
* `sessions_whole`: **in every interleaving** each call of the port makes the driver calls it would
  make alone, for what was asked of it, in the order the driver asks for, and leaves no context
  initialised.
-/

namespace HubbleNordic

/-! ### What the driver has seen of a call in progress -/

/-- A driver whose calls succeed. -/
def SasiDriver.willing : SasiDriver := ⟨sasiOk, fun _ => sasiOk, []⟩

/-- A driver whose calls succeed up to one. -/
def SasiDriver.failingAt (o : SasiOp) (rc : UInt32) : SasiDriver :=
  { SasiDriver.willing with rc := fun o' => if o' = o then rc else sasiOk }

/-- Driver calls that succeed are followed by the others. -/
theorem operations_append {e : SasiDriver} {done : List SasiOp} (h : ∀ d ∈ done, e.rc d = sasiOk)
    (os : List SasiOp) (m : Memory) :
    (Cc310.operations e id (done ++ os) m).ret = (Cc310.operations e id os m).ret ∧
      (Cc310.operations e id (done ++ os) m).calls =
        done.map (SasiCall.op · sasiOk) ++ (Cc310.operations e id os m).calls := by
  induction done with
  | nil => exact ⟨rfl, rfl⟩
  | cons d done ih =>
    obtain ⟨hd, hdone⟩ := List.forall_mem_cons.mp h
    obtain ⟨hret, hcalls⟩ := ih hdone
    simp [Cc310.operations, hd, hret, hcalls]

namespace SasiRequest

variable {q : SasiRequest}

theorem nodup_ops (q : SasiRequest) : q.ops.Nodup := by
  cases q <;> simp [ops, Cc310.ctrOps, Cc310.cmacOps]

theorem alone_empty (e : SasiDriver) (hq : q.Empty) : q.alone e = (0, []) := if_pos hq

/-- `SaSi_AesInit` fails. -/
theorem alone_init_failed (hq : ¬ q.Empty) {rc : UInt32} (hrc : rc ≠ sasiOk) :
    q.alone { SasiDriver.willing with init := rc } = (-eio, [.init q.mode rc]) := by
  rw [alone, if_neg hq]
  simp [Cc310.session, hrc]

/-- The driver call `o` fails. -/
theorem alone_failed (hq : ¬ q.Empty) {done os : List SasiOp} {o : SasiOp}
    (hops : q.ops = done ++ o :: os) {rc : UInt32} (hrc : rc ≠ sasiOk) :
    q.alone (.failingAt o rc) =
      (-eio, .init q.mode sasiOk :: done.map (SasiCall.op · sasiOk) ++ [.op o rc] ++ [.free]) := by
  have hdone : ∀ d ∈ done, (SasiDriver.failingAt o rc).rc d = sasiOk := by
    have hnodup := q.nodup_ops
    rw [hops] at hnodup
    intro d hd
    exact if_neg fun h => (List.nodup_append.mp hnodup).2.2 d hd o List.mem_cons_self h
  have ho : (SasiDriver.failingAt o rc).rc o = rc := if_pos rfl
  obtain ⟨hret, hcalls⟩ := operations_append hdone (o :: os) fun _ => 0
  rw [alone, if_neg hq]
  simp [Cc310.session, show (SasiDriver.failingAt o rc).init = sasiOk from rfl, hops, hret, hcalls,
    Cc310.operations, ho, hrc]

/-- All driver calls succeed. -/
theorem alone_willing (hq : ¬ q.Empty) :
    q.alone .willing =
      (0, .init q.mode sasiOk :: q.ops.map (SasiCall.op · sasiOk) ++ [.free]) := by
  have hall : ∀ d ∈ q.ops, SasiDriver.willing.rc d = sasiOk := fun _ _ => rfl
  obtain ⟨hret, hcalls⟩ := operations_append hall [] fun _ => 0
  rw [List.append_nil] at hret hcalls
  rw [alone, if_neg hq]
  simp [Cc310.session, show SasiDriver.willing.init = sasiOk from rfl, hret, hcalls,
    Cc310.operations]

end SasiRequest

namespace SasiShared

variable {x x' : SasiShared} {f g : ℕ}

theorem callsOf_called (x : SasiShared) (f : ℕ) (c : SasiCall) :
    (x.called f c).callsOf f = x.callsOf f ++ [c] := by
  simp [callsOf, called, List.filterMap_append]

/-- The two states differ in frame `f` at most. -/
structure OnlyAt (f : ℕ) (x x' : SasiShared) : Prop where
  calls : ∀ g, g ≠ f → x'.callsOf g = x.callsOf g
  live : ∀ g q, g ≠ f → (x'.Live g q ↔ x.Live g q)

theorem OnlyAt.trans {x'' : SasiShared} (h : OnlyAt f x x') (h' : OnlyAt f x' x'') :
    OnlyAt f x x'' :=
  ⟨fun g hg => (h'.calls g hg).trans (h.calls g hg),
    fun g q hg => (h'.live g q hg).trans (h.live g q hg)⟩

theorem onlyAt_called (x : SasiShared) (f : ℕ) (c : SasiCall) : OnlyAt f x (x.called f c) where
  calls g hg := by simp [callsOf, called, List.filterMap_append, Ne.symm hg]
  live _ _ _ := Iff.rfl

theorem onlyAt_returns (x : SasiShared) (f : ℕ) (ret : Int32) : OnlyAt f x (x.returns f ret) where
  calls _ _ := rfl
  live g q hg := by simp [Live, returns, hg]

theorem onlyAt_asked (x : SasiShared) (q : SasiRequest) :
    OnlyAt x.requests.length x (x.asked q) where
  calls _ _ := rfl
  live g q' hg := by
    have hrequest : (x.requests ++ [q])[g]? = x.requests[g]? := by
      rcases Nat.lt_or_gt_of_ne hg with hlt | hgt
      · exact List.getElem?_append_left hlt
      · rw [List.getElem?_eq_none (by simp; omega), List.getElem?_eq_none hgt.le]
    simp [Live, asked, hrequest]

theorem Live.lt {q : SasiRequest} (h : x.Live f q) : f < x.requests.length :=
  (List.getElem?_eq_some_iff.mp h.1).1

end SasiShared

/-! ### Every interleaving -/

namespace SessionPc

/-- What the driver has seen of the call in progress. -/
def Progress (x : SasiShared) : SessionPc → Prop
  | .idle => True
  | .init f q => x.Live f q ∧ ¬ q.Empty ∧ x.callsOf f = []
  | .op f q o os => x.Live f q ∧ ¬ q.Empty ∧ ∃ done, q.ops = done ++ o :: os ∧
      x.callsOf f = .init q.mode sasiOk :: done.map (SasiCall.op · sasiOk)
  | .out f q ret => x.Live f q ∧ ∃ e, q.alone e = (ret, x.callsOf f ++ [.free])

variable {x x' : SasiShared} {k : SessionPc} {f : ℕ}

theorem Progress.live (hk : k.Progress x) (hf : k.frame? = some f) : ∃ q, x.Live f q := by
  cases k with
  | idle => cases hf
  | init g q | op g q o os | out g q ret =>
    obtain rfl := Option.some.inj hf
    exact ⟨q, hk.1⟩

/-- What the driver has seen of it, it would have seen of the call alone. -/
theorem Progress.begun {q : SasiRequest} (hk : k.Progress x) (hf : k.frame? = some f)
    (hlive : x.Live f q) : ∃ e, x.callsOf f <+: (q.alone e).2 := by
  have hsame {q' : SasiRequest} (h : x.Live f q') : q' = q :=
    Option.some.inj (h.1.symm.trans hlive.1)
  cases k with
  | idle => cases hf
  | init g q' =>
    obtain rfl := Option.some.inj hf
    obtain ⟨-, -, hnil⟩ := hk
    rw [hnil]
    exact ⟨.willing, List.nil_prefix⟩
  | op g q' o os =>
    obtain rfl := Option.some.inj hf
    obtain ⟨hlive', hq, done, hops, hcalls⟩ := hk
    obtain rfl := hsame hlive'
    refine ⟨.willing, ?_⟩
    rw [SasiRequest.alone_willing hq, hcalls, hops, List.map_append, ← List.cons_append,
      List.append_assoc]
    exact List.prefix_append _ _
  | out g q' ret =>
    obtain rfl := Option.some.inj hf
    obtain ⟨hlive', e, he⟩ := hk
    obtain rfl := hsame hlive'
    rw [Prod.ext_iff] at he
    exact ⟨e, he.2 ▸ List.prefix_append _ _⟩

/-- A change in another frame. -/
theorem Progress.other (hk : k.Progress x) (h : SasiShared.OnlyAt f x x')
    (hf : k.frame? ≠ some f) : k.Progress x' := by
  cases k with
  | idle => trivial
  | init g q | op g q o os | out g q ret =>
    have hg : g ≠ f := fun he => hf (congrArg some he)
    simp only [Progress] at hk ⊢
    rw [h.live g q hg, h.calls g hg]
    exact hk

/-- After `SaSi_AesInit`, or a driver call that has succeeded. -/
theorem progress_proceed {q : SasiRequest} {done os : List SasiOp} (hlive : x.Live f q)
    (hq : ¬ q.Empty) (hops : q.ops = done ++ os)
    (hcalls : x.callsOf f = .init q.mode sasiOk :: done.map (SasiCall.op · sasiOk)) :
    (proceed f q os).Progress x := by
  cases os with
  | cons o os => exact ⟨hlive, hq, done, hops, hcalls⟩
  | nil =>
    rw [List.append_nil] at hops
    refine ⟨hlive, .willing, ?_⟩
    rw [SasiRequest.alone_willing hq, hops, hcalls]

theorem frame?_proceed (f : ℕ) (q : SasiRequest) (os : List SasiOp) :
    (proceed f q os).frame? = some f := by
  cases os <;> rfl

end SessionPc

/-- What the driver has seen of the calls that have returned, each once, and of those not made. -/
structure SasiShared.Kept (x : SasiShared) : Prop where
  fresh : ∀ f, x.requests.length ≤ f → x.callsOf f = []
  whole : ∀ f ret, (f, ret) ∈ x.returned →
    ∃ q e, x.requests[f]? = some q ∧ q.alone e = (ret, x.callsOf f)
  once : (x.returned.map Prod.fst).Nodup

theorem SasiShared.Kept.lt {x : SasiShared} (hx : x.Kept) {f : ℕ} {ret : Int32}
    (h : (f, ret) ∈ x.returned) : f < x.requests.length := by
  obtain ⟨q, e, hq, -⟩ := hx.whole f ret h
  exact (List.getElem?_eq_some_iff.mp hq).1

/-- One more call returns. -/
theorem SasiShared.Kept.once_returns {x : SasiShared} (hx : x.Kept) {f : ℕ}
    (hnew : ∀ ret, (f, ret) ∉ x.returned) (ret : Int32) :
    ((x.returns f ret).returned.map Prod.fst).Nodup := by
  rw [returns, List.map_append, List.map_singleton, ← List.concat_eq_append]
  refine hx.once.concat fun hf => ?_
  obtain ⟨⟨g, ret'⟩, hmem, rfl⟩ := List.mem_map.mp hf
  exact hnew ret' hmem

/-- The frame of `k`, if any, lies on top of that of `j`. -/
def SessionPc.Above (k j : SessionPc) : Prop :=
  ∀ f g, k.frame? = some f → j.frame? = some g → g < f

/-- What a step of a context keeps: what has returned, its own progress, and the calls below it. -/
structure StepKeeps (x : SasiShared) (k : SessionPc) (x' : SasiShared) (k' : SessionPc) : Prop where
  kept : x'.Kept
  progress : k'.Progress x'
  below : ∀ j : SessionPc, j.Progress x → k.Above j → j.Progress x' ∧ k'.Above j

section Steps

variable {x : SasiShared} {f : ℕ} {q : SasiRequest}

/-- A driver call leaves what the other calls have made. -/
theorem kept_called (hx : x.Kept) (hlive : x.Live f q) (c : SasiCall) : (x.called f c).Kept where
  fresh g hg := by
    replace hg : x.requests.length ≤ g := hg
    rw [(SasiShared.onlyAt_called x f c).calls g (hlive.lt.trans_le hg).ne']
    exact hx.fresh g hg
  whole g ret hg := by
    rw [(SasiShared.onlyAt_called x f c).calls g fun h => hlive.2 ret (h ▸ hg)]
    exact hx.whole g ret hg
  once := hx.once

/-- A driver call that does not end the call of the port. -/
theorem stepKeeps_called (hx : x.Kept) {k k' : SessionPc} (hk : k.frame? = some f)
    (hlive : x.Live f q) (c : SasiCall) (hk' : k'.frame? = some f)
    (hprogress : k'.Progress (x.called f c)) : StepKeeps x k (x.called f c) k' where
  kept := kept_called hx hlive c
  progress := hprogress
  below j hj habove := by
    refine ⟨hj.other (SasiShared.onlyAt_called x f c) fun hf => ?_, fun f' g hf' hg => ?_⟩
    · exact lt_irrefl f (habove f f hk hf)
    · exact habove f' g (hk.trans (hk'.symm.trans hf')) hg

/-- The call of the port returns. -/
theorem stepKeeps_returns (hx : x.Kept) {k : SessionPc} (hk : k.frame? = some f)
    (hlive : x.Live f q) (c : SasiCall) {ret : Int32} {e : SasiDriver}
    (hwhole : q.alone e = (ret, x.callsOf f ++ [c])) :
    StepKeeps x k ((x.called f c).returns f ret) .idle where
  kept := by
    have hkept := kept_called hx hlive c
    refine ⟨hkept.fresh, fun g ret' hg => ?_, hkept.once_returns hlive.2 ret⟩
    rcases List.mem_append.mp hg with hg | hg
    · exact hkept.whole g ret' hg
    · obtain ⟨rfl, rfl⟩ := Prod.mk.inj (List.mem_singleton.mp hg)
      exact ⟨q, e, hlive.1, hwhole.trans (Prod.ext rfl (x.callsOf_called g c).symm)⟩
  progress := trivial
  below j hj habove := by
    refine ⟨hj.other ((SasiShared.onlyAt_called x f c).trans
      (SasiShared.onlyAt_returns _ f ret)) fun hf => ?_, fun f' g hf' => nomatch hf'⟩
    exact lt_irrefl f (habove f f hk hf)

/-- The requests recorded stay where they are. -/
theorem kept_asked (hx : x.Kept) (q : SasiRequest) : (x.asked q).Kept where
  fresh g hg := by
    rw [SasiShared.asked, List.length_append] at hg
    exact hx.fresh g (Nat.le_of_add_right_le hg)
  whole g ret hg := by
    obtain ⟨q', e, hq', he⟩ := hx.whole g ret hg
    exact ⟨q', e, (List.getElem?_append_left (hx.lt hg)).trans hq', he⟩
  once := hx.once

/-- The call of the port just made. -/
theorem live_asked (hx : x.Kept) (q : SasiRequest) : (x.asked q).Live x.requests.length q :=
  ⟨List.getElem?_concat_length, fun _ h => lt_irrefl _ (hx.lt h)⟩

/-- The calls in progress are earlier ones. -/
theorem frame?_lt {j : SessionPc} (hj : j.Progress x) {g : ℕ} (hg : j.frame? = some g) :
    g < x.requests.length := by
  obtain ⟨q, hq⟩ := hj.live hg
  exact hq.lt

/-- The SDK calls the port, which makes a driver call. -/
theorem stepKeeps_asked (hx : x.Kept) (hq : ¬ q.Empty) :
    StepKeeps x .idle (x.asked q) (.init x.requests.length q) where
  kept := kept_asked hx q
  progress := ⟨live_asked hx q, hq, hx.fresh _ le_rfl⟩
  below j hj _ := by
    refine ⟨hj.other (SasiShared.onlyAt_asked x q) fun hf => lt_irrefl _ (frame?_lt hj hf), ?_⟩
    intro f g hf hg
    obtain rfl := Option.some.inj hf
    exact frame?_lt hj hg

/-- The SDK calls the port, which returns. -/
theorem stepKeeps_empty (hx : x.Kept) (hq : q.Empty) :
    StepKeeps x .idle ((x.asked q).returns x.requests.length 0) .idle where
  kept := by
    have hlive := live_asked hx q
    have hkept := kept_asked hx q
    refine ⟨hkept.fresh, fun g ret hg => ?_, hkept.once_returns hlive.2 0⟩
    rcases List.mem_append.mp hg with hg | hg
    · exact hkept.whole g ret hg
    · obtain ⟨rfl, rfl⟩ := Prod.mk.inj (List.mem_singleton.mp hg)
      refine ⟨q, .willing, hlive.1, (SasiRequest.alone_empty _ hq).trans ?_⟩
      exact Prod.ext rfl (hx.fresh _ le_rfl).symm
  progress := trivial
  below j hj _ := by
    refine ⟨hj.other ((SasiShared.onlyAt_asked x q).trans (SasiShared.onlyAt_returns _ _ 0))
      fun hf => lt_irrefl _ (frame?_lt hj hf), fun f g hf => nomatch hf⟩

/-- **One step of a context.** -/
theorem stepKeeps {k : SessionPc} {a : SessionAction} {x' : SasiShared} {k' : SessionPc}
    (hx : x.Kept) (hk : k.Progress x) (hstep : sessionStep x k a = some (x', k')) :
    StepKeeps x k x' k' := by
  cases sessionStep_cases hstep with
  | empty hq => exact stepKeeps_empty hx hq
  | asked hq => exact stepKeeps_asked hx hq
  | initFailed hrc =>
    obtain ⟨hlive, hq, hnil⟩ := hk
    refine stepKeeps_returns hx rfl hlive _ ((SasiRequest.alone_init_failed hq hrc).trans ?_)
    rw [hnil]
    rfl
  | initDone =>
    obtain ⟨hlive, hq, hnil⟩ := hk
    refine stepKeeps_called hx rfl hlive _ (SessionPc.frame?_proceed ..)
      (SessionPc.progress_proceed hlive hq (List.nil_append _).symm ?_)
    rw [x.callsOf_called, hnil]
    rfl
  | @opFailed f q o os rc hrc =>
    obtain ⟨hlive, hq, done, hops, hcalls⟩ := hk
    refine stepKeeps_called hx rfl hlive _ rfl ⟨hlive, .failingAt o rc, ?_⟩
    rw [SasiRequest.alone_failed hq hops hrc, x.callsOf_called, hcalls]
  | @opDone f q o os =>
    obtain ⟨hlive, hq, done, hops, hcalls⟩ := hk
    refine stepKeeps_called hx rfl hlive _ (SessionPc.frame?_proceed ..)
      (SessionPc.progress_proceed hlive hq (hops.trans (List.append_cons done o os)) ?_)
    rw [x.callsOf_called, hcalls]
    simp
  | freed =>
    obtain ⟨hlive, e, he⟩ := hk
    exact stepKeeps_returns hx rfl hlive _ he

end Steps

section Runs

variable {s : Preemptive.Stack SasiShared SessionPc}

/-- What holds of the driver and of every context, in every interleaving. -/
theorem sessions_invariant (hr : sessions.machine.Reachable s) :
    s.shared.Kept ∧ (∀ k ∈ s.contexts, k.Progress s.shared) ∧
      s.contexts.Pairwise SessionPc.Above := by
  refine Preemptive.stack_local (I := fun x k => SessionPc.Progress x k) ?_ ?_ ?_ hr
  · exact ⟨⟨fun _ _ => rfl, fun f ret h => absurd h List.not_mem_nil, List.nodup_nil⟩, trivial⟩
  · intro x k a x' k' hx hk hstep
    obtain ⟨hkept, hprogress, hbelow⟩ := stepKeeps hx hk hstep
    exact ⟨hkept, hprogress, hbelow⟩
  · intro x _ _
    exact ⟨trivial, fun j _ f g hf => nomatch hf⟩

/-- A step in one frame leaves live what the context owns afterwards, or did not own before, if the
frame stays its own or has returned. -/
theorem SasiShared.OnlyAt.owned {x x' : SasiShared} {k k' : SessionPc} {f g : ℕ}
    {q : SasiRequest} (hat : SasiShared.OnlyAt g x x') (hk : ∀ f, k.frame? = some f → f = g)
    (hg : k'.frame? = some g ∨ ∃ ret, (g, ret) ∈ x'.returned) (hlive : x'.Live f q) :
    k'.frame? = some f ∨ x.Live f q ∧ ¬ k.frame? = some f := by
  by_cases hf : f = g
  · subst hf
    rcases hg with hg | ⟨ret, hret⟩
    · exact Or.inl hg
    · exact absurd hret (hlive.2 ret)
  · exact Or.inr ⟨(hat.live f q hf).mp hlive, fun h => hf (hk f h)⟩

/-- A step leaves live what the context owns afterwards, or did not own before. -/
theorem live_step {x x' : SasiShared} {k k' : SessionPc} {a : SessionAction} {f : ℕ}
    {q : SasiRequest} (hstep : sessionStep x k a = some (x', k')) (hlive : x'.Live f q) :
    k'.frame? = some f ∨ x.Live f q ∧ ¬ k.frame? = some f := by
  have hidle (g f : ℕ) (h : SessionPc.idle.frame? = some f) : f = g := nomatch h
  have hreturned (y : SasiShared) (g : ℕ) (ret : Int32) :
      ∃ ret', (g, ret') ∈ (y.returns g ret).returned :=
    ⟨ret, List.mem_append_right _ (List.mem_singleton_self _)⟩
  cases sessionStep_cases hstep with
  | @empty r hq =>
    exact ((SasiShared.onlyAt_asked x r).trans (SasiShared.onlyAt_returns _ _ 0)).owned (hidle _)
      (Or.inr (hreturned _ _ _)) hlive
  | asked hq =>
    exact (SasiShared.onlyAt_asked x _).owned (hidle _) (Or.inl rfl) hlive
  | @initFailed g r rc hrc =>
    exact ((SasiShared.onlyAt_called x g _).trans (SasiShared.onlyAt_returns _ g _)).owned
      (fun _ h => (Option.some.inj h).symm) (Or.inr (hreturned _ _ _)) hlive
  | initDone | opDone =>
    exact (SasiShared.onlyAt_called x _ _).owned (fun _ h => (Option.some.inj h).symm)
      (Or.inl (SessionPc.frame?_proceed ..)) hlive
  | opFailed hrc =>
    exact (SasiShared.onlyAt_called x _ _).owned (fun _ h => (Option.some.inj h).symm)
      (Or.inl rfl) hlive
  | @freed g r ret rc =>
    exact ((SasiShared.onlyAt_called x g _).trans (SasiShared.onlyAt_returns _ g ret)).owned
      (fun _ h => (Option.some.inj h).symm) (Or.inr (hreturned _ _ _)) hlive

/-- A call that has not returned is in progress. -/
theorem live_frame (hr : sessions.machine.Reachable s) {f : ℕ} {q : SasiRequest}
    (hf : s.shared.Live f q) : ∃ k ∈ s.contexts, k.frame? = some f := by
  refine @Preemptive.stack_owned _ _ _ sessions (ℕ × SasiRequest)
    (fun x r => SasiShared.Live x r.1 r.2) (fun k r => SessionPc.frame? k = some r.1)
    ?_ ?_ ?_ s hr (f, q) hf
  · exact fun r h => nomatch h.1
  · exact fun x k a x' k' r hstep hlive => live_step hstep hlive
  · intro k r hdone h
    cases k with
    | idle => cases h
    | init f q | op f q o os | out f q ret => cases hdone

/-- The driver calls of a call in progress, between `SaSi_AesInit` and `SaSi_AesFree`. -/
theorem SessionPc.Progress.open_iff {x : SasiShared} {k : SessionPc} {f : ℕ} (hk : k.Progress x)
    (hf : k.frame? = some f) :
    ∃ p, replay (x.callsOf f) = some p ∧ (p ≠ .closed ↔ k.Open) := by
  cases k with
  | idle => cases hf
  | init g q =>
    obtain rfl := Option.some.inj hf
    obtain ⟨-, -, hnil⟩ := hk
    rw [hnil]
    exact ⟨.closed, rfl, by simp [SessionPc.Open]⟩
  | op g q o os =>
    obtain rfl := Option.some.inj hf
    obtain ⟨-, hq, done, hops, hcalls⟩ := hk
    have hwhole : replay (x.callsOf g ++
        .op o sasiOk :: (os.map (SasiCall.op · sasiOk) ++ [.free])) = some .closed := by
      have := replay_alone .willing q
      rw [SasiRequest.alone_willing hq, hops] at this
      rw [hcalls]
      simpa using this
    obtain ⟨p, hp, hne⟩ := replay_before hwhole fun _ _ h => nomatch h
    exact ⟨p, hp, fun _ => trivial, fun _ => hne⟩
  | out g q ret =>
    obtain rfl := Option.some.inj hf
    obtain ⟨-, e, he⟩ := hk
    have hwhole := replay_alone e q
    rw [he] at hwhole
    obtain ⟨p, hp, hne⟩ := replay_before hwhole fun _ _ h => nomatch h
    exact ⟨p, hp, fun _ => trivial, fun _ => hne⟩

/-- The driver calls on any context. -/
theorem replay_callsOf (hr : sessions.machine.Reachable s) (f : ℕ) :
    ∃ p, replay (s.shared.callsOf f) = some p ∧
      (p ≠ .closed ↔ ∃ k ∈ s.contexts, k.frame? = some f ∧ k.Open) := by
  obtain ⟨hkept, hprogress, -⟩ := sessions_invariant hr
  by_cases hlive : ∃ q, s.shared.Live f q
  · obtain ⟨q, hlive⟩ := hlive
    obtain ⟨k, hk, hf⟩ := live_frame hr hlive
    obtain ⟨p, hp, hopen⟩ := (hprogress k hk).open_iff hf
    refine ⟨p, hp, fun h => ⟨k, hk, hf, hopen.mp h⟩, ?_⟩
    rintro ⟨j, hj, hf', hj'⟩
    obtain ⟨p', hp', hopen'⟩ := (hprogress j hj).open_iff hf'
    obtain rfl := Option.some.inj (hp.symm.trans hp')
    exact hopen'.mpr hj'
  · have hclosed : replay (s.shared.callsOf f) = some .closed := by
      cases hq : s.shared.requests[f]? with
      | none =>
        rw [hkept.fresh f (List.getElem?_eq_none_iff.mp hq)]
        rfl
      | some q =>
        obtain ⟨ret, hret⟩ : ∃ ret, (f, ret) ∈ s.shared.returned := by
          by_contra h
          exact hlive ⟨q, hq, not_exists.mp h⟩
        obtain ⟨q', e, -, he⟩ := hkept.whole f ret hret
        have := replay_alone e q'
        rwa [he] at this
    refine ⟨.closed, hclosed, fun h => absurd rfl h, ?_⟩
    rintro ⟨k, hk, hf, -⟩
    exact absurd ((hprogress k hk).live hf) hlive

/-- What a step records: a call of the port, with its request, or a driver call, as answered. -/
theorem sessionStep_records {x x' : SasiShared} {k k' : SessionPc} {a : SessionAction}
    (hstep : sessionStep x k a = some (x', k')) :
    x'.requests = x.requests ++ a.request?.toList ∧
      ∃ calls, x'.trace = x.trace ++ calls ∧
        List.Forall₂ SasiCall.Answered a.answer?.toList (calls.map Prod.snd) := by
  have hcalled (f : ℕ) {c : SasiCall} {rc : UInt32} (hc : c.Answered rc) :
      ∃ calls, x.trace ++ [(f, c)] = x.trace ++ calls ∧
        List.Forall₂ SasiCall.Answered [rc] (calls.map Prod.snd) :=
    ⟨_, rfl, .cons hc .nil⟩
  cases sessionStep_cases hstep with
  | empty | asked => exact ⟨rfl, [], (List.append_nil _).symm, .nil⟩
  | initFailed | initDone | opFailed | opDone =>
    exact ⟨(List.append_nil _).symm, hcalled _ rfl⟩
  | freed => exact ⟨(List.append_nil _).symm, hcalled _ trivial⟩

/-- What a run records: the calls of the port, and the driver calls, as answered. -/
theorem session_records {h : List (Preemptive.Turn SessionAction × Unit)}
    (hr : sessions.machine.Run h s) :
    s.shared.requests = (sessionActions h).filterMap SessionAction.request? ∧
      List.Forall₂ SasiCall.Answered ((sessionActions h).filterMap SessionAction.answer?)
        (s.shared.trace.map Prod.snd) := by
  refine Mealy.runFrom_invariant
    (I := fun h (s : Preemptive.Stack SasiShared SessionPc) =>
      s.shared.requests = (sessionActions h).filterMap SessionAction.request? ∧
        List.Forall₂ SasiCall.Answered ((sessionActions h).filterMap SessionAction.answer?)
          (s.shared.trace.map Prod.snd)) ⟨rfl, .nil⟩ (fun h s t o s' _ hs hn => ?_) hr
  have hactions : sessionActions (h ++ [(t, o)]) = sessionActions h ++ sessionActions [(t, o)] :=
    List.filterMap_append
  rw [hactions, List.filterMap_append, List.filterMap_append]
  rcases Preemptive.machine_next hn with ⟨a, rfl, hstep, -⟩ | ⟨rfl, -, hx, -⟩ | ⟨rfl, -, hx, -⟩
  · obtain ⟨hrequests, calls, htrace, hanswered⟩ := sessionStep_records hstep
    have hone {β : Type} (g : SessionAction → Option β) :
        (sessionActions [(.act a, o)]).filterMap g = (g a).toList := by
      cases hg : g a <;> simp [sessionActions, hg]
    rw [hrequests, htrace, List.map_append, hs.1, hone, hone]
    exact ⟨rfl, List.rel_append hs.2 hanswered⟩
  · rw [hx]
    simpa [sessionActions] using hs
  · rw [hx]
    simpa [sessionActions] using hs

/-- **Calls of the port do not disturb one another's sessions**, however the main thread and the
handlers preempt one another and whatever the driver answers: on every context the driver is called
in its order, and a context is initialised exactly while the call it belongs to is between
`SaSi_AesInit` and `SaSi_AesFree`; every call returns at most once, and then has made the driver
calls that, for what was asked of it, it would have made alone, and returned what it would have;
every other one is still on the stack, a later one above an earlier one, and has made the first of
those driver calls.  So with no call in progress no context is left initialised. -/
theorem sessions_whole {h : List (Preemptive.Turn SessionAction × Unit)}
    (hr : sessions.machine.Run h s) :
    s.shared.requests = (sessionActions h).filterMap SessionAction.request? ∧
    List.Forall₂ SasiCall.Answered ((sessionActions h).filterMap SessionAction.answer?)
      (s.shared.trace.map Prod.snd) ∧
    (∀ f, ∃ p, replay (s.shared.callsOf f) = some p ∧
      (p ≠ .closed ↔ ∃ k ∈ s.contexts, k.frame? = some f ∧ k.Open)) ∧
    (∀ f ret, (f, ret) ∈ s.shared.returned →
      ∃ q e, s.shared.requests[f]? = some q ∧ q.alone e = (ret, s.shared.callsOf f)) ∧
    (s.shared.returned.map Prod.fst).Nodup ∧
    (∀ f q, s.shared.requests[f]? = some q → (∃ ret, (f, ret) ∈ s.shared.returned) ∨
      ∃ k ∈ s.contexts, k.frame? = some f ∧ ∃ e, s.shared.callsOf f <+: (q.alone e).2) ∧
    (s.contexts.filterMap SessionPc.frame?).Pairwise (· > ·) := by
  obtain ⟨hrequests, hanswered⟩ := session_records hr
  obtain ⟨hkept, hprogress, habove⟩ := sessions_invariant ⟨h, hr⟩
  refine ⟨hrequests, hanswered, replay_callsOf ⟨h, hr⟩, hkept.whole, hkept.once,
    fun f q hq => ?_, ?_⟩
  · by_cases hret : ∃ ret, (f, ret) ∈ s.shared.returned
    · exact Or.inl hret
    · have hlive : s.shared.Live f q := ⟨hq, not_exists.mp hret⟩
      obtain ⟨k, hk, hf⟩ := live_frame ⟨h, hr⟩ hlive
      exact Or.inr ⟨k, hk, hf, (hprogress k hk).begun hf hlive⟩
  · rw [List.pairwise_filterMap]
    exact habove.imp fun h f hf g hg => h f g hf hg

/-- The main thread encrypts three bytes; a handler preempts it after `SaSi_AesSetKey` and asks for
a MAC, but `SaSi_AesInit` fails for it. -/
theorem sessions_whole_nested :
    ∃ h s, sessions.machine.Run h s ∧ s.shared.requests = [.aesCtr 3, .cmac 5] ∧
      s.shared.returned = [(1, -eio), (0, 0)] ∧
      replay (s.shared.callsOf 0) = some .closed ∧
      ∃ e, (SasiRequest.cmac 5).alone e = (-eio, [.init .cmac 7]) := by
  have hrun : ∃ h s, sessions.machine.Run h s ∧ s.shared.returned = [(1, -eio), (0, 0)] ∧
      (sessionActions h).filterMap SessionAction.request? = [.aesCtr 3, .cmac 5] ∧
      s.contexts = [.idle] ∧ s.shared.callsOf 1 = [.init .cmac 7] :=
    ⟨_, _, Mealy.runFrom_of_exec (M := sessions.machine) (s := ⟨⟨[], [], []⟩, .idle, []⟩)
      (l := [.act (.call (.aesCtr 3)), .act (.driver 0), .act (.driver 0), .preempt,
        .act (.call (.cmac 5)), .act (.driver 7), .finish, .act (.driver 0), .act (.driver 0),
        .act (.driver 0)]) rfl, rfl, rfl, rfl, rfl⟩
  obtain ⟨h, s, hr, hret, hasked, hidle, hcalls⟩ := hrun
  obtain ⟨hrequests, -, horder, hwhole, -⟩ := sessions_whole hr
  rw [hasked] at hrequests
  refine ⟨h, s, hr, hrequests, hret, ?_, ?_⟩
  · obtain ⟨p, hp, hopen⟩ := horder 0
    have hclosed : p = .closed := by
      by_contra hne
      obtain ⟨k, hk, hf, -⟩ := hopen.mp hne
      rw [hidle, List.mem_singleton] at hk
      rw [hk] at hf
      cases hf
    rw [hp, hclosed]
  · obtain ⟨q, e, hq, he⟩ := hwhole 1 (-eio) (hret ▸ List.mem_cons_self)
    rw [hrequests] at hq
    obtain rfl := Option.some.inj hq
    exact ⟨e, hcalls ▸ he⟩

end Runs

end HubbleNordic
