import HubbleNordic.Advertiser.Packet

/-!
# When a refresh restarts the radio

A refresh restarts the set exactly when `m_started` is set before it and each of its calls
succeeds.  The flag is meant to follow the application's explicit starts and stops; two paths break
that.

* The configuration error path of an update returns between the inner stop, which clears the flag,
  and the inner start, which would set it again: from then on successful updates are silent.
  `survives_iff` says exactly when a successful update leaves its packet on air.
* `hubble_advertiser_stop` returns before clearing the flag when no handle has been assigned:
  a start that failed for want of a handle survives the stop.  `stop_honoured_iff` says exactly
  when a stop is honoured.
-/

namespace HubbleNordic

/-! ### Refreshes and explicit calls -/

/-- An explicit start or stop by the application. -/
def Event.Explicit : Event → Prop
  | .call .start _ => True
  | .call .stop _ => True
  | _ => False

/-- The event made the set start advertising. -/
def Report.StartsAdvertising (r : Report) : Prop :=
  ∃ before h, .start before h nrfSuccess ∈ r.calls

/-- A call that returns an error does not return 0. -/
theorem neg_toInt32_eq_zero {err : UInt32} : -err.toInt32 = 0 ↔ err = nrfSuccess := by
  constructor
  · intro h
    have := congrArg (fun x : Int32 => (-x).toUInt32) h
    exact (by simpa using this : err = Int32.toUInt32 0)
  · rintro rfl
    rfl

/-! ### A refresh with the flag cleared is silent -/

theorem stop_of_unset {a : Answers} {w : World} (hh : w.mAdvHandle = bleGapAdvSetHandleNotSet) :
    hubbleAdvertiserStop a w = (-eagain, w) := if_pos hh

theorem stop_of_set {a : Answers} {w : World} (hh : w.mAdvHandle ≠ bleGapAdvSetHandleNotSet) :
    (hubbleAdvertiserStop a w).2.mStarted = false := by
  rw [hubbleAdvertiserStop, if_neg hh]
  rfl

theorem updateData_of_not_started {a : Answers} {w : World} (data : List UInt8)
    (hs : w.mStarted = false) :
    (hubbleAdvertiserUpdateData a data w).2.mStarted = false ∧
      ∀ c ∈ (hubbleAdvertiserUpdateData a data w).2.calls,
        c ∈ w.calls ∨ ∃ b h p len err, c = .configure b h p len err := by
  rw [updateData_eq]
  split_ifs
  · exact ⟨hs, fun c hc => Or.inl hc⟩
  · have hhalt : haltIfStarted a (w.loaded (a.advertiseGet data)) =
        w.loaded (a.advertiseGet data) := by
      simp [haltIfStarted, World.loaded, hs]
    rw [hhalt, hs, configureAndRestart_false]
    refine ⟨hs, fun c hc => ?_⟩
    rcases List.mem_append.mp hc with hc | hc
    · exact Or.inl hc
    · exact Or.inr ⟨_, _, _, _, _, List.mem_singleton.mp hc⟩

/-- An event that is neither a start nor a stop keeps a cleared flag cleared and starts nothing. -/
theorem quiet_next {w w' : World} {e : Event} {r : Report} (hs : w.mStarted = false)
    (he : ¬ e.Explicit) (hn : advertiser.next w e = some (r, w')) :
    w'.mStarted = false ∧ ¬ r.StartsAdvertising := by
  cases e with
  | advSetTerminated =>
    simp only [advertiser, Option.ite_none_right_eq_some, Option.some.injEq, Prod.mk.injEq] at hn
    obtain ⟨-, rfl, rfl⟩ := hn
    exact ⟨hs, by simp [Report.StartsAdvertising]⟩
  | call c a =>
    obtain ⟨rfl, rfl⟩ := advertiser_call.mp hn
    cases hp : c.payload? with
    | none =>
      rcases Call.payload?_eq_none hp with rfl | rfl | rfl
      · exact absurd trivial he
      · exact absurd trivial he
      · exact ⟨hs, by simp [Report.StartsAdvertising, Call.exec, hubbleAdvertiserInit, World.fresh]⟩
    | some data =>
      obtain ⟨p, -, hexec⟩ := c.exec_refresh hp a w.fresh
      obtain ⟨hs', hcalls⟩ := updateData_of_not_started (a := a)
        (w := { w.fresh with mGapParams := p }) data hs
      rw [hexec]
      refine ⟨hs', ?_⟩
      rintro ⟨before, h, hmem⟩
      rcases hcalls _ hmem with hc | ⟨_, _, _, _, _, hc⟩
      · exact List.not_mem_nil hc
      · cases hc

/-- From a world with the flag cleared, nothing starts advertising until the next explicit call. -/
theorem quiet_run {w v : World} {k : List (Event × Report)} (hs : w.mStarted = false)
    (hr : advertiser.RunFrom w k v) (hk : ∀ er ∈ k, ¬ er.1.Explicit) :
    ∀ er ∈ k, ¬ er.2.StartsAdvertising := by
  have key : (∀ er ∈ k, ¬ er.1.Explicit) →
      v.mStarted = false ∧ ∀ er ∈ k, ¬ er.2.StartsAdvertising := by
    refine Mealy.runFrom_invariant
      (I := fun k v => (∀ er ∈ k, ¬ er.1.Explicit) →
        v.mStarted = false ∧ ∀ er ∈ k, ¬ er.2.StartsAdvertising) ?_ ?_ hr
    · exact fun _ => ⟨hs, by simp⟩
    · intro k v e r v' _ ih hn hk
      simp only [List.forall_mem_append, List.forall_mem_singleton] at hk ⊢
      obtain ⟨hs, hquiet⟩ := ih hk.1
      obtain ⟨hs', hr⟩ := quiet_next hs hk.2 hn
      exact ⟨hs', hquiet, hr⟩
  exact (key hk).2

/-! ### A refresh with the flag set restarts -/

/-- An update whose calls all succeed starts the set if the flag is set. -/
theorem updateData_starts {a : Answers} {data : List UInt8} {w : World} (hw : Safe w)
    (hl : a.stop = nrfSuccess) (hg : (a.advertiseGet data).ret = 0)
    (hc : a.configure = nrfSuccess) (hst : a.start = nrfSuccess) (hs : w.mStarted = true) :
    ∃ before h,
      .start before h nrfSuccess ∈ (hubbleAdvertiserUpdateData a data w).2.calls := by
  rcases updateData_spec hw (absurd hl) (g := a.advertiseGet data) rfl with
    ⟨h, -⟩ | ⟨-, h, -⟩ | ⟨-, -, h, -⟩ | ⟨-, -, -, he⟩
  · exact absurd hg h
  · exact absurd hc h
  · rw [hs] at h
    cases h
  · rw [he, ← hst]
    exact ⟨_, _, List.mem_append_right _ (List.mem_singleton_self _)⟩

/-- **Stop is honoured** exactly when it found an assigned handle or a cleared flag.  Whatever the
answers: without any explicit call nothing ever starts advertising; and after a
`hubble_advertiser_stop` no later `hubble_advertiser_init` or `hubble_advertiser_update_data` starts
the set before the next explicit call, if and only if the stop was not made with the flag set and
no handle assigned. -/
theorem stop_honoured_iff {h : List (Event × Report)} {w : World} (hr : advertiser.Run h w) :
    ((∀ er ∈ h, ¬ er.1.Explicit) → ∀ er ∈ h, ¬ er.2.StartsAdvertising) ∧
    ∀ a r w', advertiser.next w (.call .stop a) = some (r, w') →
      ((∀ k v, advertiser.RunFrom w' k v → (∀ er ∈ k, ¬ er.1.Explicit) →
          ∀ er ∈ k, ¬ er.2.StartsAdvertising) ↔
        ¬ (w.mAdvHandle = bleGapAdvSetHandleNotSet ∧ w.mStarted = true)) := by
  refine ⟨fun hk => quiet_run rfl hr hk, fun a r w' hn => ?_⟩
  have hcons := reachable_consistent ⟨h, hr⟩
  obtain ⟨rfl, -⟩ := advertiser_call.mp hn
  have hrefused (hh : w.mAdvHandle = bleGapAdvSetHandleNotSet) :
      (Call.stop.exec a w.fresh).2 = w.fresh :=
    congrArg Prod.snd (stop_of_unset (w := w.fresh) hh)
  constructor
  · -- the flag survives the early return, so an update whose calls succeed starts the set
    rintro hquiet ⟨hh, hs⟩
    rw [hrefused hh] at hquiet
    have hsafe : Safe w.fresh := ⟨hcons.fresh, fun hadv => absurd hh (hcons.allocated hadv)⟩
    have hstep := (advertiser_call (w := w.fresh) (c := .updateData [])
      (a := .storing)).mpr ⟨rfl, rfl⟩
    refine hquiet _ _ (Mealy.RunFrom.nil.snoc hstep) (by simp [Event.Explicit]) _
      (List.mem_singleton_self _) ?_
    exact updateData_starts hsafe.fresh rfl rfl rfl rfl hs
  · intro hnot k v hk hexp
    have hs : (Call.stop.exec a w.fresh).2.mStarted = false := by
      by_cases hh : w.mAdvHandle = bleGapAdvSetHandleNotSet
      · rw [hrefused hh]
        exact (by simpa [hh] using hnot : w.mStarted = false)
      · exact stop_of_set (w := w.fresh) hh
    exact quiet_run hs hk hexp

/-- A stop on an advertising set is honoured. -/
theorem stop_honoured_on_air :
    ∃ h w r w', advertiser.Run h w ∧ w.softdevice.advertising = true ∧
      advertiser.next w (.call .stop .storing) = some (r, w') ∧
      ∀ k v, advertiser.RunFrom w' k v → (∀ er ∈ k, ¬ er.1.Explicit) →
        ∀ er ∈ k, ¬ er.2.StartsAdvertising := by
  have hrun : ∃ h w, advertiser.Run h w ∧ w.softdevice.advertising = true ∧
      w.mAdvHandle = 0 :=
    ⟨_, _, Mealy.runFrom_of_exec (M := advertiser) (s := .boot)
      (l := [.call (.init (some ⟨500, 500⟩)) .storing, .call .start .storing]) rfl, rfl, rfl⟩
  obtain ⟨h, w, hr, hadv, hh⟩ := hrun
  have hstep := (advertiser_call (w := w) (c := .stop) (a := .storing)).mpr ⟨rfl, rfl⟩
  refine ⟨h, w, _, _, hr, hadv, hstep, ((stop_honoured_iff hr).2 _ _ _ hstep).mpr ?_⟩
  exact fun hbad => absurd (hh.symm.trans hbad.1) (by decide)

/-- The last explicit call was a stop, or there has been none. -/
def stopped (h : List (Event × Report)) : Prop :=
  h.foldl (fun b er =>
    match er.1 with
    | .call .start _ => False
    | .call .stop _ => True
    | _ => b) True

/-- A stop that is not honoured: a start that fails for want of a handle, a stop, which returns
`-EAGAIN` and leaves the flag set, and an initialisation, which puts the set on air. -/
theorem stop_not_honoured :
    ∃ h w r w', advertiser.Run h w ∧
      h.map Prod.fst = [.call .start .storing, .call .stop .storing] ∧ stopped h ∧
      advertiser.next w (.call (.init (some ⟨500, 500⟩)) .storing) = some (r, w') ∧
      r.StartsAdvertising ∧ w'.softdevice.advertising = true :=
  ⟨_, _, _, _, Mealy.runFrom_of_exec (M := advertiser) (s := .boot)
    (l := [.call .start .storing, .call .stop .storing]) rfl, rfl, trivial, rfl,
    ⟨_, _, List.mem_cons_of_mem _ List.mem_cons_self⟩, rfl⟩

/-! ### Advertising survives refreshes -/

/-- An explicit start has returned 0, and no explicit stop has been made since. -/
def obliged (h : List (Event × Report)) : Prop :=
  h.foldl (fun b er =>
    match er.1 with
    | .call .start _ => b ∨ er.2.ret = 0
    | .call .stop _ => False
    | _ => b) False

/-- The generator run of a refresh event, with the answers of the event. -/
def Event.refresh? : Event → Option (Generation × Answers)
  | .call c a => (c.generation? a).map (·, a)
  | .advSetTerminated => none

/-- Since the last explicit start, the configuration of a refresh has failed after its generator
had succeeded. -/
def lapsed (h : List (Event × Report)) : Prop :=
  h.foldl (fun b er =>
    match er.1 with
    | .call .start _ => False
    | e => b ∨ ∃ g a, e.refresh? = some (g, a) ∧ g.ret = 0 ∧ a.configure ≠ nrfSuccess) False

/-- After the start the application made, a refresh that returns 0 leaves its packet on air. -/
def Survives (h : List (Event × Report)) (w : World) (e : Event) (r : Report) (w' : World) :
    Prop :=
  obliged h → ∀ g a, e.refresh? = some (g, a) → r.ret = 0 →
    w'.softdevice.advertising = true ∧
      w'.transmitted = advertisement (g.output w.hubbleAdvBuffer)

/-- After the start the application made, a refresh whose generation and configuration succeed
follows no failed configuration, and its own start succeeds. -/
def NoLapse (h : List (Event × Report)) (_ : World) (e : Event) (_ : Report) (_ : World) : Prop :=
  obliged h → ∀ g a, e.refresh? = some (g, a) → g.ret = 0 → a.configure = nrfSuccess →
    ¬ lapsed h ∧ a.start = nrfSuccess

theorem obliged_snoc (h : List (Event × Report)) (er : Event × Report) :
    obliged (h ++ [er]) ↔ match er.1 with
      | .call .start _ => obliged h ∨ er.2.ret = 0
      | .call .stop _ => False
      | _ => obliged h := by
  rcases er with ⟨(⟨c, a⟩ | _), r⟩
  · cases c <;> simp [obliged]
  · simp [obliged]

theorem lapsed_snoc (h : List (Event × Report)) (er : Event × Report) :
    lapsed (h ++ [er]) ↔ match er.1 with
      | .call .start _ => False
      | e => lapsed h ∨
          ∃ g a, e.refresh? = some (g, a) ∧ g.ret = 0 ∧ a.configure ≠ nrfSuccess := by
  rcases er with ⟨(⟨c, a⟩ | _), r⟩
  · cases c <;> simp [lapsed]
  · simp [lapsed]

theorem Event.refresh?_eq_some {e : Event} {g : Generation} {a : Answers} :
    e.refresh? = some (g, a) ↔
      ∃ c data, e = .call c a ∧ c.payload? = some data ∧ a.advertiseGet data = g := by
  cases e with
  | advSetTerminated => simp [refresh?]
  | call c b =>
    simp only [refresh?, Call.generation?, Option.map_map, Option.map_eq_some_iff,
      Function.comp_apply, Prod.mk.injEq, Event.call.injEq]
    constructor
    · rintro ⟨data, hd, rfl, rfl⟩
      exact ⟨c, data, ⟨rfl, rfl⟩, hd, rfl⟩
    · rintro ⟨_, data, ⟨rfl, rfl⟩, hd, rfl⟩
      exact ⟨data, hd, rfl, rfl⟩

/-- What a refresh does to a safe world: the four ways of an update, from a world that differs
from the one before in its parameters and its record of calls only. -/
theorem refresh_next {w w' : World} {e : Event} {r : Report} {g : Generation} {a : Answers}
    (hw : Safe w) (hn : lawfulAdvertiser.next w e = some (r, w'))
    (he : e.refresh? = some (g, a)) :
    ∃ p : GapAdvParams, let v : World := { w.fresh with mGapParams := p }
      (g.ret ≠ 0 ∧ r.ret = g.ret ∧ w' = v.scribbled g) ∨
      (g.ret = 0 ∧ a.configure ≠ nrfSuccess ∧ r.ret = -a.configure.toInt32 ∧
        w' = (v.ready a g).unconfigured a g.advLen) ∨
      (g.ret = 0 ∧ a.configure = nrfSuccess ∧ w.mStarted = false ∧ r.ret = 0 ∧
        w' = (v.ready a g).configured a g.advLen) ∨
      (g.ret = 0 ∧ a.configure = nrfSuccess ∧ w.mStarted = true ∧ r.ret = 0 ∧
        w' = ((v.ready a g).configured a g.advLen).restarted a) := by
  obtain ⟨c, data, rfl, hp, hg⟩ := Event.refresh?_eq_some.mp he
  obtain ⟨hl, hn⟩ := Mealy.restrict_next.mp hn
  obtain ⟨rfl, rfl⟩ := advertiser_call.mp hn
  obtain ⟨p, hp', hexec⟩ := c.exec_refresh hp a w.fresh
  refine ⟨p, ?_⟩
  rw [hexec]
  rcases updateData_spec (hw.fresh.withParams hp') hl hg with
    ⟨h1, h⟩ | ⟨h1, h2, h⟩ | ⟨h1, h2, h3, h⟩ | ⟨h1, h2, h3, h⟩ <;> rw [h]
  · exact Or.inl ⟨h1, rfl, rfl⟩
  · exact Or.inr (Or.inl ⟨h1, h2, rfl, rfl⟩)
  · exact Or.inr (Or.inr (Or.inl ⟨h1, h2, h3, rfl, rfl⟩))
  · exact Or.inr (Or.inr (Or.inr ⟨h1, h2, h3, rfl, rfl⟩))

/-- A start that returns 0 found an assigned handle. -/
theorem start_returns_zero {a : Answers} {w : World} (hw : Consistent w)
    (h : (hubbleAdvertiserStart a w).1 = 0) : w.mAdvHandle ≠ bleGapAdvSetHandleNotSet := by
  intro hunset
  have hnone := hw.handle
  rw [if_pos hunset] at hnone
  rcases w.softdevice.start_cases a.start w.mAdvHandle with ⟨-, hh, -⟩ | ⟨err, herr, he⟩
  · rw [hnone] at hh
    cases hh
  · simp only [hubbleAdvertiserStart, sdBleGapAdvStart, he, neg_toInt32_eq_zero] at h
    exact herr h

/-- **The flag and the history**: while the application is owed an advertisement, the handle is
assigned, and the flag is set exactly as long as no configuration has failed. -/
theorem started_iff_not_lapsed {h : List (Event × Report)} {w : World}
    (hr : lawfulAdvertiser.Run h w) (ho : obliged h) :
    w.mAdvHandle ≠ bleGapAdvSetHandleNotSet ∧ (w.mStarted = true ↔ ¬ lapsed h) := by
  refine Mealy.runFrom_invariant
    (I := fun h w => obliged h →
      w.mAdvHandle ≠ bleGapAdvSetHandleNotSet ∧ (w.mStarted = true ↔ ¬ lapsed h))
    (fun ho => absurd ho id) (fun h w e r w' hr ih hn ho => ?_) hr ho
  have hw := reachable_safe ⟨h, hr⟩
  rw [obliged_snoc] at ho
  rw [lapsed_snoc]
  cases hrefresh : e.refresh? with
  | some ga =>
    obtain ⟨g, a⟩ := ga
    obtain ⟨c, data, rfl, hp, -⟩ := Event.refresh?_eq_some.mp hrefresh
    have ho : obliged h := by cases c <;> simp_all [Call.payload?]
    have hlapsed : (match (Event.call c a, r).1 with
        | .call .start _ => False
        | e => lapsed h ∨ ∃ g a, e.refresh? = some (g, a) ∧ g.ret = 0 ∧ a.configure ≠ nrfSuccess) ↔
        lapsed h ∨ (g.ret = 0 ∧ a.configure ≠ nrfSuccess) := by
      cases c <;> simp_all [Call.payload?]
    rw [hlapsed]
    obtain ⟨hset, hflag⟩ := ih ho
    obtain ⟨p, h1 | h2 | h3 | h4⟩ := refresh_next hw hn hrefresh
    · obtain ⟨hret, -, rfl⟩ := h1
      exact ⟨hset, by simpa [hret, World.scribbled, World.fresh] using hflag⟩
    · -- the configuration failed between the inner stop and the inner start
      obtain ⟨hret, hconf, -, rfl⟩ := h2
      refine ⟨hset, ?_⟩
      simp [World.unconfigured, World.ready, World.halted, World.loaded, World.fresh, hset, hret,
        hconf]
    · obtain ⟨hret, hconf, hs, -, rfl⟩ := h3
      refine ⟨World.assignedHandle_ne a _, ?_⟩
      have : lapsed h := by
        by_contra hno
        rw [hflag.mpr hno] at hs
        cases hs
      simp [World.configured, World.ready, World.halted, World.loaded, World.fresh, hs, this]
    · obtain ⟨hret, hconf, hs, -, rfl⟩ := h4
      refine ⟨World.assignedHandle_ne a _, ?_⟩
      simp [World.restarted, hflag.mp hs, hconf]
  | none =>
    obtain ⟨-, hn⟩ := Mealy.restrict_next.mp hn
    cases e with
    | advSetTerminated =>
      exact absurd hn hw.no_termination
    | call c a =>
      obtain ⟨rfl, rfl⟩ := advertiser_call.mp hn
      have hp : c.payload? = none := by
        cases hp : c.payload? <;> simp_all [Event.refresh?, Call.generation?]
      rcases Call.payload?_eq_none hp with rfl | rfl | rfl
      · refine ⟨?_, by simp [Call.exec, hubbleAdvertiserStart, sdBleGapAdvStart]⟩
        rcases ho with ho | ho
        · exact (ih ho).1
        · exact start_returns_zero (w := w.fresh) (a := a) hw.toConsistent.fresh ho
      · exact absurd ho id
      · simpa [hrefresh, Call.exec, hubbleAdvertiserInit, World.fresh] using ih ho

/-- **Advertising survives refreshes** exactly along the runs without a lapse: after a start that
returned 0, every later refresh that returns 0 leaves the set advertising its own packet, if and
only if no refresh with a successful generation and configuration comes after one whose
configuration failed (since the last explicit start), and the inner start of each succeeds. -/
theorem survives_iff (h : List (Event × Report)) (w : World) :
    lawfulAdvertiser.RunWith Survives h w ↔ lawfulAdvertiser.RunWith NoLapse h w := by
  refine Mealy.runWith_iff (fun h w e r w' hr _ hn => ?_) h w
  have hw := reachable_safe ⟨h, hr.run⟩
  constructor
  · intro hsurv ho g a he hret hconf
    obtain ⟨hset, hflag⟩ := started_iff_not_lapsed hr.run ho
    replace hsurv := hsurv ho g a he
    obtain ⟨p, h1 | h2 | h3 | h4⟩ := refresh_next hw hn he
    · exact absurd hret h1.1
    · exact absurd hconf h2.2.1
    · obtain ⟨-, -, hs, hzero, rfl⟩ := h3
      exact nomatch (hsurv hzero).1
    · obtain ⟨-, -, hs, hzero, rfl⟩ := h4
      exact ⟨hflag.mp hs, by simpa [World.restarted] using (hsurv hzero).1⟩
  · intro hlapse ho g a he hzero
    obtain ⟨hset, hflag⟩ := started_iff_not_lapsed hr.run ho
    replace hlapse := hlapse ho g a he
    obtain ⟨p, h1 | h2 | h3 | h4⟩ := refresh_next hw hn he
    · exact absurd (h1.2.1.symm.trans hzero) h1.1
    · exact absurd (neg_toInt32_eq_zero.mp (h2.2.2.1.symm.trans hzero)) h2.2.1
    · obtain ⟨hret, hconf, hs, -, -⟩ := h3
      rw [hflag.mpr (hlapse hret hconf).1] at hs
      cases hs
    · obtain ⟨hret, hconf, hs, -, rfl⟩ := h4
      refine ⟨by simpa [World.restarted] using (hlapse hret hconf).2, ?_⟩
      exact loaded_packet (w := { w.fresh with mGapParams := p }) hw.framed g

/-- One failed configuration silences the refreshes after it: initialise, start, an update whose
configuration runs out of memory, and an update whose calls all succeed. -/
theorem silent_refresh :
    ∃ h w r w', lawfulAdvertiser.Run h w ∧
      h.map Prod.fst = [.call (.init (some ⟨500, 500⟩)) .storing, .call .start .storing,
        .call (.updateData [0x33]) { Answers.storing with configure := nrfErrorNoMem }] ∧
      obliged h ∧
      lawfulAdvertiser.next w (.call (.updateData [0x36]) .storing) = some (r, w') ∧
      r.ret = 0 ∧ w'.softdevice.advertising = false :=
  ⟨_, _, _, _, Mealy.runFrom_of_exec (M := lawfulAdvertiser) (s := .boot)
    (l := [.call (.init (some ⟨500, 500⟩)) .storing, .call .start .storing,
      .call (.updateData [0x33]) { Answers.storing with configure := nrfErrorNoMem }]) rfl,
    rfl, Or.inr rfl, rfl, rfl, rfl⟩

end HubbleNordic
