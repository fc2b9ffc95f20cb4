import HubbleNordic.Advertiser.Interleave

/-!
# Refreshes from two contexts

The main thread reaches `hubble_advertiser_update_data` through `hubble_advertiser_init`, and the
`app_timer` handler calls it too.  The handler may run between any two steps of a call of the main
thread, and then runs to its end.  Only the SDK's sequence counter is behind a lock.

* `preemptedCall` and the machine `twoContexts`: complete calls, and calls preempted once, at any
  place, by a complete update, with every call to the SDK and the SoftDevice succeeding where the
  contract allows;
* `preempted_refresh`, `preempted_start`, `preempted_stop`: each call of the main thread, preempted
  anywhere; `context_step`: one event;
* `unmixed_iff`: along a run no two generations are mixed if and only if each preemption is at a
  separable place;
* `mixed_init`: an initialisation preempted after its length byte.
-/

namespace HubbleNordic

/-! ### Preempted calls -/

/-- Where the call `c`, begun in `w`, stands after `n` steps. -/
def standsAfter (a : Answers) (c : Call) (n : ℕ) (w : World) : World × Pc :=
  (fun s : World × Pc => advStep a s.1 s.2)^[n] (w.fresh, c.enter a)

/-- The world after the call `c`, preempted after `n` steps by a complete
`hubble_advertiser_update_data` with the payload `data`, under the answers `a'`. -/
def preemptedCall (a a' : Answers) (c : Call) (n : ℕ) (data : List UInt8) (w : World) : World :=
  let (v, pc) := standsAfter a c n w
  (pc.finish a (hubbleAdvertiserUpdateData a' data v).2).2

/-- A call of the main thread, complete or preempted once by the handler.  An update of the handler
that preempts nothing is a complete call as well. -/
inductive ContextEvent
  | call (c : Call) (a : Answers)
  | preempted (c : Call) (a : Answers) (n : ℕ) (data : List UInt8) (a' : Answers)

instance (a : Answers) : Decidable a.Succeeds :=
  decidable_of_iff (a.configure = nrfSuccess ∧ a.start = nrfSuccess ∧ a.stop = nrfSuccess)
    ⟨fun h => ⟨h.1, h.2.1, h.2.2⟩, fun h => ⟨h.configure, h.start, h.stop⟩⟩

/-- Every call made inside the call `c` succeeds where it may. -/
def Call.Succeeds (c : Call) (a : Answers) : Prop :=
  a.Succeeds ∧ ∀ g ∈ c.generation? a, g.Succeeds

instance (c : Call) (a : Answers) : Decidable (c.Succeeds a) :=
  inferInstanceAs (Decidable (_ ∧ _))

/-- The advertiser, called from two contexts.  An event outputs the packets it had accepted. -/
def twoContexts : Mealy World ContextEvent (List (List UInt8)) where
  init := .boot
  next w
    | .call c a =>
        let w' := (c.exec a w.fresh).2
        if c.Succeeds a then some (w'.packets, w') else none
    | .preempted c a n data a' =>
        let w' := preemptedCall a a' c n data w
        if c.Succeeds a ∧ (Call.updateData data).Succeeds a' then some (w'.packets, w') else none

/-- Every packet accepted is the complete advertisement of one generation of the calls under way, and
a preempted refresh leaves the set advertising if and only if it was before. -/
def NotMixed (_ : List (ContextEvent × List (List UInt8))) (w : World) (e : ContextEvent)
    (packets : List (List UInt8)) (w' : World) : Prop :=
  match e with
  | .call c a => ∀ p ∈ packets, Whole (c.generation? a).toList p
  | .preempted c a _ data a' =>
      (∀ p ∈ packets, Whole ((c.generation? a).toList ++ [a'.advertiseGet data]) p) ∧
        (c.payload? ≠ none → w'.softdevice.advertising = w.softdevice.advertising)

/-- A preempted refresh finds `m_started` set if and only if the set is advertising, and is preempted
at a separable place. -/
def PreemptedSeparably (_ : List (ContextEvent × List (List UInt8))) (w : World)
    (e : ContextEvent) (_ : List (List UInt8)) (_ : World) : Prop :=
  match e with
  | .call _ _ => True
  | .preempted c a n data a' =>
      c.payload? ≠ none → w.mStarted = w.softdevice.advertising ∧
        (standsAfter a c n w).2.Separable (a'.advertiseGet data)

/-! ### Every place of every call -/

section Runs

variable {a a' : Answers} {w : World}

theorem returned_fixed (ret : Int32) (v : World) (n : ℕ) :
    (fun s : World × Pc => advStep a s.1 s.2)^[n] (v, .returned ret) = (v, .returned ret) :=
  Function.iterate_fixed rfl n

theorem Midway.iterate {g : Generation} {b v : World} {pc : Pc} (hb : Safe b) (ha : a.Succeeds)
    (hg : g.ret = 0) (hm : Midway a g b v pc) (n : ℕ) :
    Midway a g b ((fun s : World × Pc => advStep a s.1 s.2)^[n] (v, pc)).1
      ((fun s : World × Pc => advStep a s.1 s.2)^[n] (v, pc)).2 := by
  induction n generalizing v pc with
  | zero => exact hm
  | succ n ih =>
    rw [Function.iterate_succ_apply]
    exact ih (hm.step hb ha hg)

/-- Preempted before `m_gap_params` is assigned: the handler's update runs before the whole of the
initialisation's. -/
theorem resumed_params {g g' : Generation} (hw : Safe w) (ha : a.Succeeds) (hg : g.Succeeds)
    (hg' : g'.Succeeds) (config : HubbleAdvertiserConfig) :
    Resumed w g g' (.params config)
      ((initGapParams config (w.fresh.refreshed a' g')).refreshed a g) := by
  have hv : Safe (initGapParams config (w.fresh.refreshed a' g')) :=
    (hw.fresh.refreshed a' g').withParams fun _ => ⟨rfl, rfl⟩
  have hpackets : (initGapParams config (w.fresh.refreshed a' g')).packets =
      (w.fresh.refreshed a' g').packets := rfl
  refine ⟨hv.refreshed a g, ?_, fun _ => iff_of_true ?_ trivial⟩
  · rw [refreshed_advertising ha]
    exact refreshed_started a' g' w.fresh
  · rw [packets_refreshed hv, hpackets, packets_refreshed hw.fresh, hg.covers.output_eq,
      hg'.covers.output_eq]
    simp [whole_pair]

/-- **A preempted refresh**, wherever it is preempted. -/
theorem preempted_refresh {c : Call} {d data : List UInt8} (hp : c.payload? = some d)
    (hw : Safe w) (hc : c.Succeeds a) (hc' : (Call.updateData data).Succeeds a') (n : ℕ) :
    Resumed w (a.advertiseGet d) (a'.advertiseGet data) (standsAfter a c n w).2
      (preemptedCall a a' c n data w) := by
  have hg : (a.advertiseGet d).Succeeds := hc.2 _ (by simp [Call.generation?, hp])
  have hg' : (a'.advertiseGet data).Succeeds := hc'.2 _ rfl
  cases c with
  | start => simp [Call.payload?] at hp
  | stop => simp [Call.payload?] at hp
  | updateData d' =>
    obtain rfl : d' = d := by simpa [Call.payload?] using hp
    have hm := Midway.iterate hw.fresh hc.1 hg.ret (.generate 0) n
    have hres := preempted_update hw.fresh rfl hc.1 hc'.1 hg hg' hm
    exact ⟨hres.safe, hres.advertising, hres.packets⟩
  | init config =>
    cases config with
    | none => simp [Call.payload?] at hp
    | some config =>
      obtain rfl : [] = d := by simpa [Call.payload?] using hp
      cases n with
      | zero =>
        have hfinal : preemptedCall a a' (.init (some config)) 0 data w =
            (hubbleAdvertiserUpdateData a [] (initGapParams config
              (hubbleAdvertiserUpdateData a' data w.fresh).2)).2 := rfl
        have hv : Safe (initGapParams config (w.fresh.refreshed a' (a'.advertiseGet data))) :=
          (hw.fresh.refreshed a' _).withParams fun _ => ⟨rfl, rfl⟩
        rw [hfinal, updateData_refreshed hw.fresh hc'.1 hg'.ret, updateData_refreshed hv hc.1 hg.ret]
        exact resumed_params hw hc.1 hg hg' config
      | succ n =>
        have hb : Safe (initGapParams config w.fresh) := hw.fresh.withParams fun _ => ⟨rfl, rfl⟩
        have hm := Midway.iterate hb hc.1 hg.ret (.generate 0) n
        have hres := preempted_update hb rfl hc.1 hc'.1 hg hg' hm
        exact ⟨hres.safe, hres.advertising, hres.packets⟩

/-- The world after a call without a generation of its own, preempted by an update of `g'`. -/
structure Handled (g' : Generation) (final : World) : Prop where
  safe : Safe final
  packets : ∀ p ∈ final.packets, p = advertisement g'.serviceData

theorem Handled.start {g' : Generation} (hw : Handled g' w) (a : Answers) :
    Handled g' (hubbleAdvertiserStart a w).2 :=
  ⟨safe_start hw.safe a, by simpa using hw.packets⟩

theorem Handled.stop {g' : Generation} (hw : Handled g' w) (ha : a.Succeeds) :
    Handled g' (hubbleAdvertiserStop a w).2 :=
  ⟨safe_stop hw.safe (absurd ha.stop), by simpa using hw.packets⟩

theorem handled_update {v : World} (hv : Safe v) (hnil : v.packets = []) (ha' : a'.Succeeds)
    {data : List UInt8} (hg' : (a'.advertiseGet data).Succeeds) :
    Handled (a'.advertiseGet data) (hubbleAdvertiserUpdateData a' data v).2 := by
  rw [updateData_refreshed hv ha' hg'.ret]
  refine ⟨hv.refreshed a' _, ?_⟩
  rw [packets_refreshed hv, hnil, hg'.covers.output_eq]
  simp

/-- A start, preempted at any of its places. -/
theorem preempted_start (hw : Safe w) (ha' : a'.Succeeds) {data : List UInt8}
    (hg' : (a'.advertiseGet data).Succeeds) (n : ℕ) :
    Handled (a'.advertiseGet data) (preemptedCall a a' .start n data w) := by
  rcases n with _ | _ | n
  · exact (handled_update hw.fresh rfl ha' hg').start a
  · set v : World := { w.fresh with mStarted := true }
    have hv : Safe v := ⟨⟨hw.framed, hw.handle, hw.allocated, hw.gapParams, hw.params⟩, fun _ => rfl⟩
    have hstarted : (hubbleAdvertiserUpdateData a' data v).2.mStarted = true := by
      rw [updateData_refreshed hv ha' hg'.ret, refreshed_started]
    have hfinal : preemptedCall a a' .start 1 data w =
        (hubbleAdvertiserStart a (hubbleAdvertiserUpdateData a' data v).2).2 := by
      rw [hubbleAdvertiserStart, ← hstarted]
      rfl
    rw [hfinal]
    exact (handled_update hv rfl ha' hg').start a
  · have hafter : standsAfter a .start (n + 2) w =
        ((hubbleAdvertiserStart a w.fresh).2, .returned (hubbleAdvertiserStart a w.fresh).1) :=
      returned_fixed _ _ n
    rw [preemptedCall, hafter]
    exact handled_update (safe_start hw.fresh a) (packets_start a w.fresh) ha' hg'

/-- A stop, preempted at any of its places. -/
theorem preempted_stop (hw : Safe w) (ha : a.Succeeds) (ha' : a'.Succeeds) {data : List UInt8}
    (hg' : (a'.advertiseGet data).Succeeds) (n : ℕ) :
    Handled (a'.advertiseGet data) (preemptedCall a a' .stop n data w) := by
  have hbefore := handled_update hw.fresh rfl ha' hg'
  have hstopped : Safe (hubbleAdvertiserStop a w.fresh).2 := safe_stop hw.fresh (absurd ha.stop)
  by_cases hh : w.mAdvHandle = bleGapAdvSetHandleNotSet
  · cases n with
    | zero => exact hbefore.stop ha
    | succ n =>
      have hstep : advStep a w.fresh (.stopTest .api) = (w.fresh, .returned (-eagain)) := by
        simp [advStep, World.fresh, hh, Caller.afterStop]
      have hafter : standsAfter a .stop (n + 1) w = (w.fresh, .returned (-eagain)) := by
        rw [standsAfter, Function.iterate_succ_apply]
        exact (congrArg _ hstep).trans (returned_fixed _ _ n)
      rw [preemptedCall, hafter]
      exact hbefore
  · have hstep : advStep a w.fresh (.stopTest .api) = (w.fresh, .stopClear .api) := by
      simp [advStep, World.fresh, hh]
    have hafter (n : ℕ) : standsAfter a .stop (n + 1) w =
        (fun s : World × Pc => advStep a s.1 s.2)^[n] (w.fresh, .stopClear .api) := by
      rw [standsAfter, Function.iterate_succ_apply]
      exact congrArg _ hstep
    rcases n with _ | _ | _ | n
    · exact hbefore.stop ha
    · have hh' : (hubbleAdvertiserUpdateData a' data w.fresh).2.mAdvHandle ≠
          bleGapAdvSetHandleNotSet := by
        rw [updateData_refreshed hw.fresh ha' hg'.ret]
        exact reconfigured_handle _ _ _
      rw [preemptedCall, hafter 0]
      show Handled _ (finishStopCall a { (hubbleAdvertiserUpdateData a' data w.fresh).2 with
        mStarted := false }).2
      rw [← hubbleAdvertiserStop_eq a hh']
      exact hbefore.stop ha
    · rw [preemptedCall, hafter 1]
      show Handled _ (finishStopCall a
        (hubbleAdvertiserUpdateData a' data { w.fresh with mStarted := false }).2).2
      obtain ⟨v, hv, hsafe, -, hvh, -, hpackets⟩ :=
        updateData_unflagged hw.fresh hh ha' hg'.ret
      rw [hv, ← hubbleAdvertiserStop_eq a hvh]
      refine Handled.stop ⟨hsafe, ?_⟩ ha
      rw [hg'.covers.output_eq, packets_fresh] at hpackets
      rcases hpackets with he | he <;> rw [he] <;> simp
    · have hreturn : standsAfter a .stop (n + 3) w =
          ((hubbleAdvertiserStop a w.fresh).2, .returned (hubbleAdvertiserStop a w.fresh).1) := by
        rw [hafter (n + 2), hubbleAdvertiserStop_eq a (w := w.fresh) hh]
        exact returned_fixed _ _ n
      rw [preemptedCall, hreturn]
      exact handled_update hstopped (packets_stop a w.fresh) ha' hg'

/-- The packets of a complete call are those of its generation. -/
theorem call_packets {c : Call} (hw : Safe w) (hc : c.Succeeds a) :
    ∀ p ∈ (c.exec a w.fresh).2.packets, Whole (c.generation? a).toList p := by
  intro p hp
  obtain ⟨sc, hsc, hpacket⟩ := List.mem_filterMap.mp hp
  cases sc with
  | start before h err => exact nomatch hpacket
  | stop before h err => exact nomatch hpacket
  | configure before h pData len err =>
    obtain ⟨d, hd, -, -, hbytes⟩ := configure_generated hw.framed hsc
    obtain ⟨-, rfl⟩ : err = nrfSuccess ∧ pData.prefixBytes len = p := by
      simpa [SdCall.packet?] using hpacket
    obtain ⟨g, hg, hgen⟩ := Option.bind_eq_some_iff.mp hd
    have hsucc := hc.2 g hg
    rw [if_pos hsucc.ret, hsucc.covers.output_eq, Option.some.injEq] at hgen
    exact ⟨g, Option.mem_toList.mpr hg, hgen ▸ hbytes⟩

/-- **One event**, from a safe world: it leaves the world safe, and mixes no generations if and only
if it is no preemption at an inseparable place. -/
theorem context_step {h : List (ContextEvent × List (List UInt8))} {w' : World} {e : ContextEvent}
    {ps : List (List UInt8)} (hw : Safe w) (hn : twoContexts.next w e = some (ps, w')) :
    Safe w' ∧ (NotMixed h w e ps w' ↔ PreemptedSeparably h w e ps w') := by
  cases e with
  | call c a =>
    simp only [twoContexts, Option.ite_none_right_eq_some, Option.some.injEq,
      Prod.mk.injEq] at hn
    obtain ⟨hc, rfl, rfl⟩ := hn
    exact ⟨safe_exec hw.fresh (absurd hc.1.stop), iff_of_true (call_packets hw hc) trivial⟩
  | preempted c a n data a' =>
    simp only [twoContexts, Option.ite_none_right_eq_some, Option.some.injEq,
      Prod.mk.injEq] at hn
    obtain ⟨⟨hc, hc'⟩, rfl, rfl⟩ := hn
    have hg' : (a'.advertiseGet data).Succeeds := hc'.2 _ rfl
    cases hp : c.payload? with
    | none =>
      have hhandled : Handled (a'.advertiseGet data) (preemptedCall a a' c n data w) := by
        rcases Call.payload?_eq_none hp with rfl | rfl | rfl
        · exact preempted_start hw hc'.1 hg' n
        · exact preempted_stop hw hc.1 hc'.1 hg' n
        · have hafter : standsAfter a (.init none) n w = (w.fresh, .returned (-einval)) :=
            returned_fixed _ _ n
          rw [preemptedCall, hafter]
          exact handled_update hw.fresh rfl hc'.1 hg'
      refine ⟨hhandled.safe, iff_of_true ⟨fun p hp' => ?_, absurd hp⟩ (absurd hp)⟩
      exact ⟨_, List.mem_append_right _ (List.mem_singleton_self _), hhandled.packets p hp'⟩
    | some d =>
      have hres := preempted_refresh hp hw hc hc' n
      have hlist : (c.generation? a).toList ++ [a'.advertiseGet data] =
          [a.advertiseGet d, a'.advertiseGet data] := by
        simp [Call.generation?, hp]
      refine ⟨hres.safe, ?_⟩
      simp only [NotMixed, PreemptedSeparably, hp, hlist, hres.advertising, ne_eq, reduceCtorEq,
        not_false_eq_true, true_implies]
      constructor
      · rintro ⟨hpackets, hagree⟩
        exact ⟨hagree, (hres.packets hagree).mp hpackets⟩
      · rintro ⟨hagree, hsep⟩
        exact ⟨(hres.packets hagree).mpr hsep, hagree⟩

end Runs

/-- **Generations are mixed exactly at the inseparable preemptions**: along a run from boot, of
complete calls and of calls preempted by an update of the handler, every packet accepted is the
complete advertisement of one generation and every preempted refresh preserves whether the set is
advertising, if and only if every refresh that is preempted finds `m_started` true to the set and is
preempted at a separable place. -/
theorem unmixed_iff (h : List (ContextEvent × List (List UInt8))) (w : World) :
    twoContexts.RunWith NotMixed h w ↔ twoContexts.RunWith PreemptedSeparably h w := by
  refine Mealy.runWith_iff (fun h w e ps w' hr _ hn => ?_) h w
  have hw : Safe w := by
    refine Mealy.reachable_invariant safe_boot (fun w e ps w' hw hn => ?_) ⟨h, hr.run⟩
    exact (context_step (h := []) hw hn).1
  exact (context_step hw hn).2

/-- An initialisation preempted after its length byte, when the handler refreshes with the payload
`"300"`: the second packet accepted has the handler's length byte, and no service data. -/
theorem mixed_init :
    ∃ w', twoContexts.next .boot
        (.preempted (.init (some ⟨500, 500⟩)) .storing 3 [0x33, 0x30, 0x30] .storing) =
          some ([advertisement [0x33, 0x30, 0x30], header 4], w') ∧
      ∀ h, ¬ NotMixed h .boot
        (.preempted (.init (some ⟨500, 500⟩)) .storing 3 [0x33, 0x30, 0x30] .storing)
        [advertisement [0x33, 0x30, 0x30], header 4] w' := by
  refine ⟨_, rfl, fun h hmix => ?_⟩
  have hwhole := hmix.1 (header 4) (by simp)
  revert hwhole
  decide

end HubbleNordic
