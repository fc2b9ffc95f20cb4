import HubbleNordic.Crypto.Model
import HubbleNordic.Preemption

/-!
# Sessions with the CryptoCell driver

`hubble_crypto_cc310.c` calls the driver on a `SaSiAesUserContext_t` of its own, in a stack frame of
the call.

* `SasiPhase`, `replay`: the order in which the driver is to be called on one context;
* `SasiRequest`, `alone`: a call of the port made alone, and what the driver sees of it
  (`alone_aesCtr`, `alone_cmac`);
* `SessionPc`, `sessionStep`: the same, cut at every driver call, on a driver that several calls
  share; `sessionStep_cases`: what a step can be; `sessions`: the contexts that make these calls;
* `session_completes`: undisturbed, the steps run to the end and do what the call does alone.
-/

namespace HubbleNordic

/-! ### The order of driver calls -/

/-- Where a context stands: not initialised; initialised for a mode; with its key; ready for the
data; or used up or failed, so that it can only be freed. -/
inductive SasiPhase
  | closed
  | opened (mode : SasiMode)
  | keyed
  | ready
  | spent
  deriving DecidableEq

/-- The phase after a call, if it may be made: counter mode needs an IV, a MAC does not. -/
def SasiPhase.next : SasiPhase → SasiCall → Option SasiPhase
  | closed, .init mode rc => some (if rc = sasiOk then opened mode else closed)
  | opened mode, .op (.setKey _) rc =>
      some (if rc = sasiOk then (match mode with | .ctr => keyed | .cmac => ready) else spent)
  | keyed, .op .setIv rc => some (if rc = sasiOk then ready else spent)
  | ready, .op (.finish _ _) _ => some spent
  | spent, .free => some closed
  | _, _ => none

theorem SasiPhase.next_init (mode : SasiMode) (rc : UInt32) :
    closed.next (.init mode rc) = some (if rc = sasiOk then opened mode else closed) := rfl

/-- The phase after a sequence of calls, if each may be made. -/
def SasiPhase.after (p : SasiPhase) : List SasiCall → Option SasiPhase
  | [] => some p
  | c :: cs => (p.next c).bind fun q => q.after cs

theorem SasiPhase.after_append (p : SasiPhase) (cs cs' : List SasiCall) :
    p.after (cs ++ cs') = (p.after cs).bind fun q => q.after cs' := by
  induction cs generalizing p with
  | nil => rfl
  | cons c cs ih =>
    rw [List.cons_append, after, after]
    cases p.next c with
    | none => rfl
    | some q => exact ih q

/-- The phase of a context on which the calls have been made, if each may be made. -/
def replay (calls : List SasiCall) : Option SasiPhase := SasiPhase.closed.after calls

/-- Before a call that is not `SaSi_AesInit` the context is initialised. -/
theorem replay_before {calls rest : List SasiCall} {c : SasiCall} {p : SasiPhase}
    (h : replay (calls ++ c :: rest) = some p) (hc : ∀ mode rc, c ≠ .init mode rc) :
    ∃ q, replay calls = some q ∧ q ≠ .closed := by
  rw [replay, SasiPhase.after_append] at h
  obtain ⟨q, hq, hrest⟩ := Option.bind_eq_some_iff.mp h
  refine ⟨q, hq, ?_⟩
  rintro rfl
  rw [SasiPhase.after] at hrest
  obtain ⟨q', hq', -⟩ := Option.bind_eq_some_iff.mp hrest
  cases c with
  | init mode rc => exact hc mode rc rfl
  | op o rc => cases hq'
  | free => cases hq'

/-! ### A call of the port, alone -/

/-- What the SDK asks for: `hubble_crypto_aes_ctr` or `hubble_crypto_cmac`, with the length. -/
inductive SasiRequest
  | aesCtr (len : ℕ)
  | cmac (inputLen : ℕ)

namespace SasiRequest

/-- The mode of `SaSi_AesInit`. -/
def mode : SasiRequest → SasiMode
  | aesCtr _ => .ctr
  | cmac _ => .cmac

/-- The driver calls after `SaSi_AesInit`. -/
def ops : SasiRequest → List SasiOp
  | aesCtr len => Cc310.ctrOps len
  | cmac inputLen => Cc310.cmacOps inputLen

/-- No driver call is made. -/
def Empty : SasiRequest → Prop
  | aesCtr len => len = 0
  | cmac _ => False

instance : DecidablePred Empty
  | aesCtr len => inferInstanceAs (Decidable (len = 0))
  | cmac _ => inferInstanceAs (Decidable False)

/-- What the port returns, and the driver calls it makes. -/
def alone (e : SasiDriver) (q : SasiRequest) : Int32 × List SasiCall :=
  if q.Empty then (0, [])
  else
    let r := Cc310.session e q.mode q.ops id fun _ => 0
    (r.ret, r.calls)

end SasiRequest

/-- What the port returns and the driver calls it makes do not depend on the memory. -/
theorem operations_calls (e : SasiDriver) (write write' : Memory → Memory) (ops : List SasiOp)
    (m m' : Memory) :
    (Cc310.operations e write ops m).ret = (Cc310.operations e write' ops m').ret ∧
      (Cc310.operations e write ops m).calls = (Cc310.operations e write' ops m').calls := by
  induction ops generalizing m m' with
  | nil => exact ⟨rfl, rfl⟩
  | cons o os ih =>
    by_cases ho : e.rc o = sasiOk
    · obtain ⟨hret, hcalls⟩ := ih (if o.finishes then write m else m)
        (if o.finishes then write' m' else m')
      simp [Cc310.operations, ho, hret, hcalls]
    · simp [Cc310.operations, ho]

theorem session_calls (e : SasiDriver) (mode : SasiMode) (ops : List SasiOp)
    (write write' : Memory → Memory) (m m' : Memory) :
    (Cc310.session e mode ops write m).ret = (Cc310.session e mode ops write' m').ret ∧
      (Cc310.session e mode ops write m).calls = (Cc310.session e mode ops write' m').calls := by
  obtain ⟨hret, hcalls⟩ := operations_calls e write write' ops m m'
  by_cases hinit : e.init = sasiOk <;> simp [Cc310.session, hinit, hret, hcalls]

/-- `alone` is `hubble_crypto_aes_ctr`. -/
theorem alone_aesCtr (A : Aes) (e : SasiDriver) (c : CtrArgs) (m : Memory) :
    (SasiRequest.aesCtr c.len).alone e =
      ((Cc310.hubbleCryptoAesCtr A e c m).ret, (Cc310.hubbleCryptoAesCtr A e c m).calls) := by
  by_cases hlen : c.len = 0
  · simp [SasiRequest.alone, SasiRequest.Empty, Cc310.hubbleCryptoAesCtr, hlen]
  · rw [SasiRequest.alone, if_neg (show ¬ SasiRequest.Empty (.aesCtr c.len) from hlen),
      Cc310.hubbleCryptoAesCtr, if_neg hlen]
    exact Prod.ext (session_calls ..).1 (session_calls ..).2

/-- `alone` is `hubble_crypto_cmac`. -/
theorem alone_cmac (A : Aes) (e : SasiDriver) (c : CmacArgs) (m : Memory) :
    (SasiRequest.cmac c.inputLen).alone e =
      ((Cc310.hubbleCryptoCmac A e c m).ret, (Cc310.hubbleCryptoCmac A e c m).calls) := by
  rw [SasiRequest.alone, if_neg (show ¬ SasiRequest.Empty (.cmac c.inputLen) from id)]
  exact Prod.ext (session_calls ..).1 (session_calls ..).2

/-- In the phase `p` the driver calls `os` may follow one another as long as they succeed. -/
inductive SasiPhase.Awaits : SasiPhase → List SasiOp → Prop
  | nil : Awaits .spent []
  | step {p q : SasiPhase} {o : SasiOp} {os : List SasiOp} :
      (∀ rc, p.next (.op o rc) = some (if rc = sasiOk then q else .spent)) → Awaits q os →
        Awaits p (o :: os)

/-- Up to the first that fails, or to the last, they leave the context to be freed. -/
theorem SasiPhase.Awaits.after {p : SasiPhase} {os : List SasiOp} (h : p.Awaits os)
    (e : SasiDriver) (m : Memory) :
    p.after (Cc310.operations e id os m).calls = some .spent := by
  induction h generalizing m with
  | nil => rfl
  | @step p q o os hnext _ ih =>
    rw [Cc310.operations]
    by_cases ho : e.rc o = sasiOk
    · rw [if_neg (not_not.mpr ho)]
      dsimp only
      rw [SasiPhase.after, hnext, if_pos ho, Option.bind_some, ih]
    · rw [if_pos ho]
      dsimp only
      rw [SasiPhase.after, hnext, if_neg ho]
      rfl

/-- After `SaSi_AesInit`. -/
theorem SasiRequest.awaits (q : SasiRequest) : (SasiPhase.opened q.mode).Awaits q.ops := by
  have hfinish (dataInSize dataOutSize : ℕ) :
      SasiPhase.ready.Awaits [.finish dataInSize dataOutSize] :=
    .step (fun _ => congrArg some (ite_self _).symm) .nil
  cases q with
  | aesCtr len => exact .step (fun _ => rfl) (.step (fun _ => rfl) (hfinish _ _))
  | cmac inputLen => exact .step (fun _ => rfl) (hfinish _ _)

/-- The driver calls of `alone` are made in order, and leave the context freed. -/
theorem replay_alone (e : SasiDriver) (q : SasiRequest) : replay (q.alone e).2 = some .closed := by
  by_cases hempty : q.Empty
  · rw [SasiRequest.alone, if_pos hempty]
    rfl
  · rw [SasiRequest.alone, if_neg hempty, Cc310.session]
    by_cases hinit : e.init = sasiOk
    · rw [if_neg (not_not.mpr hinit)]
      dsimp only
      rw [replay, List.cons_append, SasiPhase.after, SasiPhase.next_init, if_pos hinit,
        Option.bind_some, SasiPhase.after_append, q.awaits.after]
      rfl
    · rw [if_pos hinit]
      dsimp only
      rw [replay, SasiPhase.after, SasiPhase.next_init, if_neg hinit]
      rfl

/-! ### Step by step, on a shared driver -/

/-- The calls of the port so far, each in a stack frame of its own, numbered in this order; the
calls the driver has seen, each with the frame of its context; and what the calls of the port have
returned. -/
structure SasiShared where
  requests : List SasiRequest
  trace : List (ℕ × SasiCall)
  returned : List (ℕ × Int32)

namespace SasiShared

/-- The driver calls on the context in frame `f`. -/
def callsOf (x : SasiShared) (f : ℕ) : List SasiCall :=
  x.trace.filterMap fun gc => if gc.1 = f then some gc.2 else none

/-- The port is called. -/
def asked (x : SasiShared) (q : SasiRequest) : SasiShared :=
  { x with requests := x.requests ++ [q] }

/-- The driver is called. -/
def called (x : SasiShared) (f : ℕ) (c : SasiCall) : SasiShared :=
  { x with trace := x.trace ++ [(f, c)] }

/-- A call of the port returns. -/
def returns (x : SasiShared) (f : ℕ) (ret : Int32) : SasiShared :=
  { x with returned := x.returned ++ [(f, ret)] }

/-- The call of the port in frame `f` is for `q`, and has not returned. -/
def Live (x : SasiShared) (f : ℕ) (q : SasiRequest) : Prop :=
  x.requests[f]? = some q ∧ ∀ ret, (f, ret) ∉ x.returned

end SasiShared

/-- Where a context of execution stands: outside the port; before `SaSi_AesInit`; before the driver
call `o`, with `os` to follow; or at the label `out`. -/
inductive SessionPc
  | idle
  | init (f : ℕ) (q : SasiRequest)
  | op (f : ℕ) (q : SasiRequest) (o : SasiOp) (os : List SasiOp)
  | out (f : ℕ) (q : SasiRequest) (ret : Int32)

/-- Its stack frame. -/
def SessionPc.frame? : SessionPc → Option ℕ
  | .idle => none
  | .init f _ | .op f _ _ _ | .out f _ _ => some f

/-- Its context is between `SaSi_AesInit` and `SaSi_AesFree`. -/
def SessionPc.Open : SessionPc → Prop
  | .op _ _ _ _ | .out _ _ _ => True
  | _ => False

/-- The SDK calls the port, or the driver returns. -/
inductive SessionAction
  | call (q : SasiRequest)
  | driver (rc : UInt32)

/-- The driver calls still to be made. -/
def SessionPc.proceed (f : ℕ) (q : SasiRequest) : List SasiOp → SessionPc
  | [] => .out f q 0
  | o :: os => .op f q o os

/-- One step of a context. -/
def sessionStep (x : SasiShared) : SessionPc → SessionAction → Option (SasiShared × SessionPc)
  | .idle, .call q =>
      let f := x.requests.length
      let x := x.asked q
      if q.Empty then some (x.returns f 0, .idle) else some (x, .init f q)
  | .init f q, .driver rc =>
      let x := x.called f (.init q.mode rc)
      if rc ≠ sasiOk then some (x.returns f (-eio), .idle) else some (x, .proceed f q q.ops)
  | .op f q o os, .driver rc =>
      some (x.called f (.op o rc), if rc ≠ sasiOk then .out f q (-eio) else .proceed f q os)
  | .out f _ ret, .driver _ => some ((x.called f .free).returns f ret, .idle)
  | _, _ => none

/-- The steps of a context, one by one. -/
inductive SessionStep (x : SasiShared) : SessionPc → SessionAction → SasiShared → SessionPc → Prop
  | empty {q : SasiRequest} : q.Empty →
      SessionStep x .idle (.call q) ((x.asked q).returns x.requests.length 0) .idle
  | asked {q : SasiRequest} : ¬ q.Empty →
      SessionStep x .idle (.call q) (x.asked q) (.init x.requests.length q)
  | initFailed {f : ℕ} {q : SasiRequest} {rc : UInt32} : rc ≠ sasiOk →
      SessionStep x (.init f q) (.driver rc)
        ((x.called f (.init q.mode rc)).returns f (-eio)) .idle
  | initDone {f : ℕ} {q : SasiRequest} :
      SessionStep x (.init f q) (.driver sasiOk) (x.called f (.init q.mode sasiOk))
        (.proceed f q q.ops)
  | opFailed {f : ℕ} {q : SasiRequest} {o : SasiOp} {os : List SasiOp} {rc : UInt32} :
      rc ≠ sasiOk →
      SessionStep x (.op f q o os) (.driver rc) (x.called f (.op o rc)) (.out f q (-eio))
  | opDone {f : ℕ} {q : SasiRequest} {o : SasiOp} {os : List SasiOp} :
      SessionStep x (.op f q o os) (.driver sasiOk) (x.called f (.op o sasiOk)) (.proceed f q os)
  | freed {f : ℕ} {q : SasiRequest} {ret : Int32} {rc : UInt32} :
      SessionStep x (.out f q ret) (.driver rc) ((x.called f .free).returns f ret) .idle

theorem sessionStep_cases {x x' : SasiShared} {k k' : SessionPc} {a : SessionAction}
    (h : sessionStep x k a = some (x', k')) : SessionStep x k a x' k' := by
  cases k with
  | idle =>
    cases a with
    | driver rc => cases h
    | call q =>
      simp only [sessionStep] at h
      split_ifs at h with hq <;> cases h
      · exact .empty hq
      · exact .asked hq
  | init f q =>
    cases a with
    | call q' => cases h
    | driver rc =>
      simp only [sessionStep] at h
      split_ifs at h with hrc <;> cases h
      · exact .initFailed hrc
      · obtain rfl := not_not.mp hrc
        exact .initDone
  | op f q o os =>
    cases a with
    | call q' => cases h
    | driver rc =>
      simp only [sessionStep] at h
      split_ifs at h with hrc <;> cases h
      · exact .opFailed hrc
      · obtain rfl := not_not.mp hrc
        exact .opDone
  | out f q ret =>
    cases a with
    | call q' => cases h
    | driver rc =>
      cases h
      exact .freed

/-- How the driver answers, where the context stands. -/
def SessionPc.answer (e : SasiDriver) : SessionPc → UInt32
  | .init _ _ => e.init
  | .op _ _ o _ => e.rc o
  | _ => sasiOk

/-- Let a call of the port make at most `n` driver calls. -/
def runSession (e : SasiDriver) : ℕ → SasiShared × SessionPc → SasiShared × SessionPc
  | 0, a => a
  | n + 1, a =>
      match sessionStep a.1 a.2 (.driver (a.2.answer e)) with
      | none => a
      | some b => runSession e n b

/-- The main thread and the handlers, which may preempt it and one another anywhere. -/
def sessions : Preemptive SasiShared SessionPc SessionAction where
  init := ⟨[], [], []⟩
  start := .idle
  step := sessionStep
  masked _ := false
  done k := k matches .idle

/-- What the SDK asks for with an action. -/
def SessionAction.request? : SessionAction → Option SasiRequest
  | .call q => some q
  | .driver _ => none

/-- What the driver answers with an action. -/
def SessionAction.answer? : SessionAction → Option UInt32
  | .call _ => none
  | .driver rc => some rc

/-- The actions of a run. -/
def sessionActions (h : List (Preemptive.Turn SessionAction × Unit)) : List SessionAction :=
  h.filterMap fun turn => match turn.1 with
    | .act a => some a
    | _ => none

/-- The driver call was answered with `rc`; the port does not look at what `SaSi_AesFree` says. -/
def SasiCall.Answered (rc : UInt32) : SasiCall → Prop
  | .init _ rc' | .op _ rc' => rc' = rc
  | .free => True

/-! ### A call that is not preempted -/

theorem runSession_idle (e : SasiDriver) (n : ℕ) (x : SasiShared) :
    runSession e n (x, .idle) = (x, .idle) := by
  cases n <;> rfl

/-- From the label `out`. -/
theorem runSession_out (e : SasiDriver) (n f : ℕ) (q : SasiRequest) (ret : Int32)
    (x : SasiShared) :
    runSession e (n + 1) (x, .out f q ret) = ((x.called f .free).returns f ret, .idle) :=
  runSession_idle e n _

/-- From the driver calls `os`, by induction over them. -/
theorem runSession_proceed (e : SasiDriver) (f : ℕ) (q : SasiRequest) (os : List SasiOp)
    (m : Memory) (x : SasiShared) :
    runSession e (os.length + 1) (x, .proceed f q os) =
      ({ x with
          trace := x.trace ++ ((Cc310.operations e id os m).calls ++ [SasiCall.free]).map (f, ·)
          returned := x.returned ++ [(f, (Cc310.operations e id os m).ret)] }, .idle) := by
  induction os generalizing x with
  | nil => exact runSession_out e 0 f q 0 x
  | cons o os ih =>
    by_cases ho : e.rc o = sasiOk
    · have hstep : runSession e (os.length + 2) (x, .proceed f q (o :: os)) =
          runSession e (os.length + 1) (x.called f (.op o (e.rc o)), .proceed f q os) := by
        simp [runSession, SessionPc.proceed, SessionPc.answer, sessionStep, ho]
      rw [List.length_cons, hstep, ih]
      simp [Cc310.operations, ho, SasiShared.called]
    · have hstep : runSession e (os.length + 2) (x, .proceed f q (o :: os)) =
          runSession e (os.length + 1) (x.called f (.op o (e.rc o)), .out f q (-eio)) := by
        simp [runSession, SessionPc.proceed, SessionPc.answer, sessionStep, ho]
      rw [List.length_cons, hstep, runSession_out]
      simp [Cc310.operations, ho, SasiShared.called, SasiShared.returns]

/-- **A call that is not preempted completes**, and does what the call does alone. -/
theorem session_completes (e : SasiDriver) (x : SasiShared) (q : SasiRequest) :
    (sessionStep x .idle (.call q)).map (runSession e (q.ops.length + 2)) =
      some ({
        requests := x.requests ++ [q]
        trace := x.trace ++ (q.alone e).2.map (x.requests.length, ·)
        returned := x.returned ++ [(x.requests.length, (q.alone e).1)] }, .idle) := by
  by_cases hq : q.Empty
  · simp [sessionStep, hq, SasiRequest.alone, runSession_idle, SasiShared.asked,
      SasiShared.returns]
  · by_cases hinit : e.init = sasiOk
    · have hstep (y : SasiShared) (f : ℕ) : runSession e (q.ops.length + 2) (y, .init f q) =
          runSession e (q.ops.length + 1)
            (y.called f (.init q.mode e.init), .proceed f q q.ops) := by
        simp [runSession, SessionPc.answer, sessionStep, hinit]
      simp only [sessionStep, hq, if_false, Option.map_some]
      rw [hstep, runSession_proceed e _ q q.ops fun _ => 0]
      simp [SasiRequest.alone, hq, Cc310.session, hinit, SasiShared.called, SasiShared.asked]
    · have hstep (y : SasiShared) (f : ℕ) : runSession e (q.ops.length + 2) (y, .init f q) =
          ((y.called f (.init q.mode e.init)).returns f (-eio), .idle) := by
        simp [runSession, SessionPc.answer, sessionStep, hinit]
      simp only [sessionStep, hq, if_false, Option.map_some]
      rw [hstep]
      simp [SasiRequest.alone, hq, Cc310.session, hinit, SasiShared.called, SasiShared.asked,
        SasiShared.returns]

end HubbleNordic
