import HubbleNordic.AdStructure
import HubbleNordic.Advertiser.Spec

/-!
# What the SoftDevice is asked to do

Every SoftDevice call of every run: what a refresh passes to `sd_ble_gap_adv_set_configure`, and
in which state of the set the calls are made.

* `updateData_calls`: the calls an update adds to the record;
* `configured_wellFormed`: every configured packet is two length-type-value structures, the second
  of which carries the service data of the most recent successful generation;
* `refresh_targets_idle`: a set is never reconfigured, nor restarted by a refresh, while it is on
  air.
-/

namespace HubbleNordic

/-! ### The packet -/

/-- The two structures of an advertisement: the list of service UUIDs, and the service data (whose
value starts with the UUID bytes the header does not hold). -/
def adStructures (d : List UInt8) : List AdStructure :=
  [⟨adTypeComplete16bitUuids, [0xA6, 0xFC]⟩, ⟨adTypeServiceData, d⟩]

theorem advertisement_eq_encodeAll (d : List UInt8) :
    advertisement d = AdStructure.encodeAll (adStructures d) := by
  simp [advertisement, header, adStructures, AdStructure.encodeAll, AdStructure.encode]

theorem parse_advertisement {d : List UInt8} (hd : d.length ≤ outCapacity) :
    AdStructure.parse (advertisement d) = some (adStructures d) := by
  rw [advertisement_eq_encodeAll]
  refine AdStructure.parse_encodeAll fun s hs => ?_
  simp only [adStructures, List.mem_cons, List.not_mem_nil, or_false] at hs
  rcases hs with rfl | rfl
  · simp
  · exact lt_of_le_of_lt hd (by decide)

/-- The packet a loaded buffer holds is the complete advertisement of the generation. -/
theorem loaded_packet {w : World} (hw : w.hubbleAdvBuffer.Framed) (g : Generation) :
    (w.loaded g).hubbleAdvBuffer.prefixBytes g.advLen =
      advertisement (g.output w.hubbleAdvBuffer) := by
  have hframed := (hw.writeAll g.writes).setLength (UInt8.ofNat (g.outLen.val + 1))
  rw [World.loaded, Generation.advLen, hframed.prefixBytes g.outLen_le,
    AdvBuffer.setLength_four, AdvBuffer.outRange_setLength, advertisement,
    Generation.output_length]
  rfl

/-! ### The calls of a refresh -/

/-- The configurations among the calls of an update pass the loaded buffer. -/
def PassesLoaded (g : Generation) (w : World) : SdCall → Prop
  | .configure _ _ pData len _ => g.ret = 0 ∧ pData = (w.loaded g).hubbleAdvBuffer ∧ len = g.advLen
  | _ => True

theorem start_calls (a : Answers) (w : World) :
    ∃ err, (hubbleAdvertiserStart a w).2.calls =
      w.calls ++ [.start w.softdevice w.mAdvHandle err] := ⟨_, rfl⟩

theorem haltIfStarted_calls (a : Answers) (w : World) :
    (haltIfStarted a w).hubbleAdvBuffer = w.hubbleAdvBuffer ∧
      ∃ l, (haltIfStarted a w).calls = w.calls ++ l ∧ ∀ c ∈ l, ∃ b h e, c = .stop b h e := by
  unfold haltIfStarted hubbleAdvertiserStop
  split_ifs
  · exact ⟨rfl, [], by simp⟩
  · exact ⟨rfl, [_], rfl, by simp⟩
  · exact ⟨rfl, [], by simp⟩

/-- What an update adds to the record of SoftDevice calls, under any answers. -/
theorem updateData_calls (a : Answers) (data : List UInt8) (w : World) :
    ∃ l, (hubbleAdvertiserUpdateData a data w).2.calls = w.calls ++ l ∧
      ∀ c ∈ l, PassesLoaded (a.advertiseGet data) w c := by
  rw [updateData_eq]
  split_ifs with hret
  · exact ⟨[], by simp [World.scribbled]⟩
  · have hret : (a.advertiseGet data).ret = 0 := not_not.mp hret
    obtain ⟨hbuf, l, hl, hstops⟩ := haltIfStarted_calls a (w.loaded (a.advertiseGet data))
    set v := haltIfStarted a (w.loaded (a.advertiseGet data))
    have hconf : ∃ err, (sdBleGapAdvSetConfigure a (a.advertiseGet data).advLen v).2.calls =
        v.calls ++ [.configure v.softdevice v.mAdvHandle v.hubbleAdvBuffer
          (a.advertiseGet data).advLen err] := ⟨_, rfl⟩
    obtain ⟨err, hconf⟩ := hconf
    have hpre : ∀ c ∈ l ++ [SdCall.configure v.softdevice v.mAdvHandle v.hubbleAdvBuffer
        (a.advertiseGet data).advLen err], PassesLoaded (a.advertiseGet data) w c := by
      intro c hc
      rcases List.mem_append.mp hc with hc | hc
      · obtain ⟨b, h, e, rfl⟩ := hstops c hc
        trivial
      · rw [List.mem_singleton.mp hc]
        exact ⟨hret, hbuf, rfl⟩
    have hcalls : (sdBleGapAdvSetConfigure a (a.advertiseGet data).advLen v).2.calls =
        w.calls ++ (l ++ [SdCall.configure v.softdevice v.mAdvHandle v.hubbleAdvBuffer
          (a.advertiseGet data).advLen err]) := by
      rw [hconf, hl, List.append_assoc]
      rfl
    unfold configureAndRestart
    dsimp only
    split_ifs
    · exact ⟨_, hcalls, hpre⟩
    · obtain ⟨e, he⟩ := start_calls a (sdBleGapAdvSetConfigure a (a.advertiseGet data).advLen v).2
      refine ⟨_, by rw [he, hcalls, List.append_assoc], fun c hc => ?_⟩
      rcases List.mem_append.mp hc with hc | hc
      · exact hpre c hc
      · rw [List.mem_singleton.mp hc]
        trivial
    · exact ⟨_, hcalls, hpre⟩

/-- A call that is not a refresh configures nothing. -/
theorem exec_calls_of_not_refresh {c : Call} (hc : c.payload? = none) (a : Answers) (w : World) :
    ∀ sc ∈ (c.exec a w.fresh).2.calls, (∃ b h e, sc = .start b h e) ∨ ∃ b h e, sc = .stop b h e := by
  rcases Call.payload?_eq_none hc with rfl | rfl | rfl
  · simp [Call.exec, hubbleAdvertiserStart, sdBleGapAdvStart, World.fresh]
  · intro sc
    simp only [Call.exec, hubbleAdvertiserStop, sdBleGapAdvStop]
    split_ifs
    · simp [World.fresh]
    · exact fun hsc => Or.inr ⟨_, _, _, List.mem_singleton.mp hsc⟩
  · simp [Call.exec, hubbleAdvertiserInit, World.fresh]

/-- A configuration made by a call passes the complete advertisement of the call's generation. -/
theorem configure_generated {w : World} (hw : w.hubbleAdvBuffer.Framed) {c : Call} {a : Answers}
    {before : Softdevice} {handle : UInt8} {pData : AdvBuffer} {len : UInt16} {err : UInt32}
    (hc : .configure before handle pData len err ∈ (c.exec a w.fresh).2.calls) :
    ∃ d, c.generated a w = some d ∧ d.length ≤ outCapacity ∧ len.toNat = d.length + 6 ∧
      pData.prefixBytes len = advertisement d := by
  cases hp : c.payload? with
  | none =>
    rcases exec_calls_of_not_refresh hp a w _ hc with ⟨b, h, e, he⟩ | ⟨b, h, e, he⟩ <;> cases he
  | some data =>
    obtain ⟨p, -, he⟩ := c.exec_refresh hp a w.fresh
    obtain ⟨l, hl, hpass⟩ := updateData_calls a data { w.fresh with mGapParams := p }
    rw [he, hl] at hc
    simp only [World.fresh, List.nil_append] at hc
    obtain ⟨hret, rfl, rfl⟩ := hpass _ hc
    refine ⟨(a.advertiseGet data).output w.hubbleAdvBuffer, ?_, ?_, ?_, ?_⟩
    · simp [Call.generated, Call.generation?, hp, hret]
    · simpa using (a.advertiseGet data).outLen_le
    · simpa using (a.advertiseGet data).advLen_toNat
    · exact loaded_packet (w := { w.fresh with mGapParams := p }) hw (a.advertiseGet data)

/-- The service data of the most recent successful generation of a run. -/
def lastGenerated (h : List (Event × Report)) : Option (List UInt8) :=
  (h.filterMap fun er => er.2.generated).getLast?

theorem lastGenerated_snoc {h : List (Event × Report)} {e : Event} {r : Report} {d : List UInt8}
    (hd : r.generated = some d) : lastGenerated (h ++ [(e, r)]) = some d := by
  simp [lastGenerated, List.filterMap_append, hd]

/-- **Every configured packet is well formed and carries the latest service data**: in every run,
under any answers, what a call passes to `sd_ble_gap_adv_set_configure` has at most 31 bytes and is
exactly two structures, the second of which holds the most recently generated service data. -/
theorem configured_wellFormed {h : List (Event × Report)} {w w' : World} {e : Event} {r : Report}
    (hr : advertiser.Run h w) (hn : advertiser.next w e = some (r, w'))
    {before : Softdevice} {handle : UInt8} {pData : AdvBuffer} {len : UInt16} {err : UInt32}
    (hc : .configure before handle pData len err ∈ r.calls) :
    len.toNat ≤ 31 ∧ (pData.prefixBytes len).length = len.toNat ∧
      ∃ d, lastGenerated (h ++ [(e, r)]) = some d ∧
        AdStructure.parse (pData.prefixBytes len) =
          some [⟨0x03, [0xA6, 0xFC]⟩, ⟨0x16, d⟩] := by
  have hw := reachable_consistent ⟨h, hr⟩
  cases e with
  | advSetTerminated =>
    exact absurd hn hw.no_termination
  | call c a =>
    obtain ⟨rfl, rfl⟩ := advertiser_call.mp hn
    obtain ⟨d, hd, hcap, hlen, hpacket⟩ := configure_generated hw.framed hc
    refine ⟨?_, ?_, d, lastGenerated_snoc hd, ?_⟩
    · simp only [outCapacity, bleGapAdvSetDataSizeMax] at hcap
      omega
    · rw [hpacket, hlen, advertisement, List.length_append, header_length, Nat.add_comm]
    · rw [hpacket]
      exact parse_advertisement hcap

/-- Refreshes with five bytes, with six that cannot be configured, and with one, stored by a
generator that then fails. -/
def longerAndFailed : List Event :=
  [.call (.init (some ⟨500, 500⟩)) .storing, .call .start .storing,
    .call (.updateData [0x31, 0x32, 0x33, 0x34, 0x35]) .storing,
    .call (.updateData [0x41, 0x42, 0x43, 0x44, 0x45, 0x46])
      { Answers.storing with configure := nrfErrorNoMem },
    .call (.updateData [0x37])
      { Answers.storing with advertiseGet := fun d => { Generation.storing d with ret := -1 } }]

/-- The packet that a refresh with the payload `"42"` configures after these. -/
theorem configured_wellFormed_shorter :
    ∃ h w r w' before pData len, advertiser.Run h w ∧ h.map Prod.fst = longerAndFailed ∧
      w.hubbleAdvBuffer.outRange.take 6 = [0x37, 0x42, 0x43, 0x44, 0x45, 0x46] ∧
      advertiser.next w (.call (.updateData [0x34, 0x32]) .storing) = some (r, w') ∧
      .configure before 0 pData len nrfSuccess ∈ r.calls ∧
      AdStructure.parse (pData.prefixBytes len) =
        some [⟨0x03, [0xA6, 0xFC]⟩, ⟨0x16, [0x34, 0x32]⟩] := by
  have hrun : ∃ h w r w' before pData len, advertiser.Run h w ∧
      h.map Prod.fst = longerAndFailed ∧
      w.hubbleAdvBuffer.outRange.take 6 = [0x37, 0x42, 0x43, 0x44, 0x45, 0x46] ∧
      advertiser.next w (.call (.updateData [0x34, 0x32]) .storing) = some (r, w') ∧
      .configure before 0 pData len nrfSuccess ∈ r.calls ∧ r.generated = some [0x34, 0x32] :=
    ⟨_, _, _, _, _, _, _, Mealy.runFrom_of_exec (M := advertiser) (s := .boot)
      (l := longerAndFailed) rfl, rfl, rfl, rfl, List.mem_singleton_self _, rfl⟩
  obtain ⟨h, w, r, w', before, pData, len, hr, hh, hstale, hn, hc, hgen⟩ := hrun
  obtain ⟨-, -, d, hd, hparse⟩ := configured_wellFormed hr hn hc
  obtain rfl := Option.some.inj ((lastGenerated_snoc hgen).symm.trans hd)
  exact ⟨h, w, r, w', before, pData, len, hr, hh, hstale, hn, hc, hparse⟩

/-! ### The set is idle when a refresh touches it -/

/-- The set was idle when the call was made, if the call configures or starts it. -/
def TargetsIdle : SdCall → Prop
  | .configure before _ _ _ _ => before.advertising = false
  | .start before _ _ => before.advertising = false
  | .stop _ _ _ => True

theorem haltCalls_targetsIdle (a : Answers) (w : World) : ∀ c ∈ haltCalls a w, TargetsIdle c := by
  unfold haltCalls
  split_ifs <;> simp [TargetsIdle]

theorem updateData_targetsIdle {w : World} (hw : Safe w) {a : Answers}
    (hl : a.stop ≠ nrfSuccess → ¬ w.softdevice.OnAir w.mAdvHandle) (data : List UInt8) :
    ∀ c ∈ (hubbleAdvertiserUpdateData a data w).2.calls, c ∈ w.calls ∨ TargetsIdle c := by
  have hhalt := haltCalls_targetsIdle a (w.loaded (a.advertiseGet data))
  rcases updateData_spec hw hl (g := a.advertiseGet data) rfl with
    ⟨-, he⟩ | ⟨-, -, he⟩ | ⟨-, -, -, he⟩ | ⟨-, -, -, he⟩ <;> rw [he] <;> intro c hc
  · exact Or.inl hc
  all_goals
    simp only [World.ready, World.unconfigured, World.restarted, World.configured, World.halted,
      World.loaded, List.mem_append, List.mem_singleton] at hc
  · rcases hc with (hc | hc) | rfl
    · exact Or.inl hc
    · exact Or.inr (hhalt c hc)
    · exact Or.inr rfl
  · rcases hc with (hc | hc) | rfl
    · exact Or.inl hc
    · exact Or.inr (hhalt c hc)
    · exact Or.inr rfl
  · rcases hc with ((hc | hc) | rfl) | rfl
    · exact Or.inl hc
    · exact Or.inr (hhalt c hc)
    · exact Or.inr rfl
    · exact Or.inr rfl

/-- **The set is never reconfigured or restarted on air by a refresh**: over a SoftDevice that keeps
to its contract, in every reachable world an advertising set is flagged as started and its handle
is known; so no configuration, and no start made inside `hubble_advertiser_update_data`, ever
targets an advertising set. -/
theorem refresh_targets_idle {w : World} (hr : lawfulAdvertiser.Reachable w) :
    (w.softdevice.advertising = true →
      w.mStarted = true ∧ w.mAdvHandle ≠ bleGapAdvSetHandleNotSet) ∧
    ∀ e r w', lawfulAdvertiser.next w e = some (r, w') → ∀ sc ∈ r.calls,
      (∀ before h pData len err, sc = .configure before h pData len err →
        before.advertising = false) ∧
      (∀ before h err, sc = .start before h err →
        (∃ c a, e = .call c a ∧ c.payload? ≠ none) → before.advertising = false) := by
  have hw := reachable_safe hr
  refine ⟨fun h => ⟨hw.started h, hw.allocated h⟩, fun e r w' hn sc hsc => ?_⟩
  obtain ⟨hl, hn⟩ := Mealy.restrict_next.mp hn
  cases e with
  | advSetTerminated =>
    exact absurd hn hw.no_termination
  | call c a =>
    obtain ⟨rfl, rfl⟩ := advertiser_call.mp hn
    cases hp : c.payload? with
    | none =>
      refine ⟨?_, ?_⟩
      · rintro before h pData len err rfl
        rcases exec_calls_of_not_refresh hp a w _ hsc with ⟨b, h, e, he⟩ | ⟨b, h, e, he⟩ <;>
          cases he
      · rintro before h err rfl ⟨c', a', he, hp'⟩
        cases he
        exact absurd hp hp'
    | some data =>
      obtain ⟨p, hp', he⟩ := c.exec_refresh hp a w.fresh
      rw [he] at hsc
      have hidle := (updateData_targetsIdle (hw.fresh.withParams hp') hl data sc hsc).resolve_left
        List.not_mem_nil
      refine ⟨?_, ?_⟩
      · rintro before h pData len err rfl
        exact hidle
      · rintro before h err rfl -
        exact hidle

/-- On air after an initialisation and a start, the set is flagged and has its handle. -/
theorem refresh_targets_idle_on_air :
    ∃ w, lawfulAdvertiser.Reachable w ∧ w.softdevice.advertising = true ∧
      (w.mStarted = true ∧ w.mAdvHandle ≠ bleGapAdvSetHandleNotSet) := by
  have hrun : ∃ h w, lawfulAdvertiser.Run h w ∧ w.softdevice.advertising = true :=
    ⟨_, _, Mealy.runFrom_of_exec (M := lawfulAdvertiser) (s := .boot)
      (l := [.call (.init (some ⟨500, 500⟩)) .storing, .call .start .storing]) rfl, rfl⟩
  obtain ⟨h, w, hr, hadv⟩ := hrun
  exact ⟨w, ⟨h, hr⟩, hadv, (refresh_targets_idle ⟨h, hr⟩).1 hadv⟩

end HubbleNordic
