import HubbleNordic.Advertiser.OnAir
import HubbleNordic.Advertiser.Packet

/-!
# An update that is preempted by another

Between any two steps of an update, the timer handler may run a complete update of its own.  The
buffer, the length byte and `m_started` are shared by the two, while `out_len` and `start_after` are
local to each: the packet the preempted update has accepted afterwards is the buffer the handler has
changed, cut to the length of its own generation.

* `World.packets`: the packets `sd_ble_gap_adv_set_configure` accepted;
* `Pc.Separable`: the places where the other update may come in between without harm;
* `stale_packet_iff`, `output_interleaved`: the packet of the preempted update;
* `preempted_update`: what the two leave behind, at each place (`Resumed`).
-/

namespace HubbleNordic

/-! ### Packets and places -/

/-- The packet of a configuration that was accepted. -/
def SdCall.packet? : SdCall → Option (List UInt8)
  | .configure _ _ pData len err =>
      if err = nrfSuccess then some (pData.prefixBytes len) else none
  | _ => none

/-- The packets accepted by the SoftDevice, in order. -/
def World.packets (w : World) : List (List UInt8) := w.calls.filterMap SdCall.packet?

/-- The packet is the complete advertisement of one of the generations. -/
def Whole (gs : List Generation) (p : List UInt8) : Prop := ∃ g ∈ gs, p = advertisement g.serviceData

instance (gs : List Generation) (p : List UInt8) : Decidable (Whole gs p) :=
  inferInstanceAs (Decidable (∃ g ∈ gs, _))

/-- The service data `g` ends with, when `g'` stores its bytes after the first `k` of `g`. -/
def Generation.interleaved (g g' : Generation) (k : ℕ) : List UInt8 :=
  overlay (g.writes.take k ++ g'.writes ++ g.writes.drop k) (List.replicate g.outLen.val 0)

/-- A place where the generation `g'` may come in between without mixing.  Up to the length byte, the
bytes that end up in the out range must be those of one of the two; from there to the configuration
the two must be equally long. -/
def Pc.Separable (g' : Generation) : Pc → Prop
  | .generate g k => g.interleaved g' k = g.serviceData ∨ g.interleaved g' k = g'.serviceData
  | .lengthByte g =>
      g.interleaved g' g.writes.length = g.serviceData ∨
        g.interleaved g' g.writes.length = g'.serviceData
  | .describe g | .saveStarted g | .testStarted g _ | .stopTest (.update g _)
  | .stopClear (.update g _) | .stopCall (.update g _) | .configure g _ =>
      g.outLen.val = g'.outLen.val
  | _ => True

/-! ### The packets of an update -/

section Packets

variable (a : Answers) (g : Generation) (len : UInt16) (w : World)

theorem packet?_configure (sd : Softdevice) (h : UInt8) (b : AdvBuffer) (err : UInt32) :
    SdCall.packet? (.configure sd h b len err) =
      if err = nrfSuccess then some (b.prefixBytes len) else none := rfl

/-- One more SoftDevice call adds its packet, if it has one. -/
theorem packets_snoc {v : World} {c : SdCall} (h : w.calls = v.calls ++ [c]) :
    w.packets = v.packets ++ c.packet?.toList := by
  rw [World.packets, h, List.filterMap_append, ← World.packets]
  cases hc : c.packet? with
  | none => rw [List.filterMap_cons_none hc, Option.toList_none, List.filterMap_nil]
  | some p => rw [List.filterMap_cons_some hc, Option.toList_some, List.filterMap_nil]

@[simp] theorem packets_fresh : w.fresh.packets = [] := rfl

@[simp] theorem packets_loaded : (w.loaded g).packets = w.packets := rfl

@[simp] theorem packets_halted : (w.halted a).packets = w.packets := by
  simp only [World.packets, World.halted, haltCalls, List.filterMap_append]
  split_ifs <;> exact List.append_nil _

@[simp] theorem packets_configured :
    (w.configured a len).packets = w.packets ++ [w.hubbleAdvBuffer.prefixBytes len] := by
  rw [packets_snoc (v := w) _ rfl, packet?_configure, if_pos rfl, Option.toList_some]

@[simp] theorem packets_restarted : (w.restarted a).packets = w.packets :=
  (packets_snoc _ rfl).trans (List.append_nil _)

@[simp] theorem packets_start : (hubbleAdvertiserStart a w).2.packets = w.packets :=
  (packets_snoc _ rfl).trans (List.append_nil _)

@[simp] theorem packets_stop : (hubbleAdvertiserStop a w).2.packets = w.packets := by
  unfold hubbleAdvertiserStop
  split_ifs
  · rfl
  · exact (packets_snoc _ rfl).trans (List.append_nil _)

theorem packets_reconfigured :
    (w.reconfigured a len).packets = w.packets ++ [w.hubbleAdvBuffer.prefixBytes len] := by
  have hbuf : (w.halted a).hubbleAdvBuffer = w.hubbleAdvBuffer := rfl
  unfold World.reconfigured
  split_ifs <;> simp [hbuf]

end Packets

/-! ### What a reconfiguration leaves behind -/

theorem Safe.reconfigured {w : World} (hw : Safe w) (a : Answers) (len : UInt16) :
    Safe (w.reconfigured a len) := by
  have hconf := (hw.halted a).configured a len
  unfold World.reconfigured
  split_ifs
  · exact hconf.restarted a (World.assignedHandle_ne a _)
  · exact hconf

theorem Safe.refreshed {w : World} (hw : Safe w) (a : Answers) (g : Generation) :
    Safe (w.refreshed a g) := (hw.loaded g).reconfigured a g.advLen

/-- The flag survives a stop, a configuration and a start. -/
theorem reconfigured_started (a : Answers) (len : UInt16) (w : World) :
    (w.reconfigured a len).mStarted = w.mStarted := by
  by_cases hs : w.mStarted = true
  · simp [World.reconfigured, World.restarted, hs]
  · simp [World.reconfigured, World.configured, World.halted, hs]

/-- The set advertises again if and only if the flag is set. -/
theorem reconfigured_advertising {a : Answers} (ha : a.Succeeds) (len : UInt16) (w : World) :
    (w.reconfigured a len).softdevice.advertising = w.mStarted := by
  by_cases hs : w.mStarted = true
  · simp [World.reconfigured, World.restarted, hs, ha.start]
  · simp [World.reconfigured, World.configured, hs]

theorem reconfigured_handle (a : Answers) (len : UInt16) (w : World) :
    (w.reconfigured a len).mAdvHandle ≠ bleGapAdvSetHandleNotSet := by
  unfold World.reconfigured
  split_ifs <;> exact World.assignedHandle_ne a (w.halted a)

@[simp] theorem reconfigured_buffer (a : Answers) (len : UInt16) (w : World) :
    (w.reconfigured a len).hubbleAdvBuffer = w.hubbleAdvBuffer := by
  unfold World.reconfigured
  split_ifs <;> rfl

/-- What is left of an update whose calls succeed, once its buffer is loaded. -/
theorem finishLoaded_eq {a : Answers} {w : World} (hw : Safe w) (ha : a.Succeeds)
    (g : Generation) : (finishLoaded a g w).2 = w.reconfigured a g.advLen := by
  have hconf := configure_succeeds g.advLen (hw.halted a).toConsistent rfl ha.configure
  rw [finishLoaded, haltIfStarted_eq hw (absurd ha.stop)]
  cases hs : w.mStarted with
  | false => simp [configureAndRestart, hconf, World.reconfigured, hs]
  | true =>
    have hstart := hubbleAdvertiserStart_eq (a := a)
      (w := (w.halted a).configured a g.advLen) rfl rfl
    simp [configureAndRestart, hconf, hstart, World.reconfigured, hs]

/-- An update whose calls succeed, from the place where `k` bytes are stored. -/
theorem finish_generate {a : Answers} {w : World} (hw : Safe w) (ha : a.Succeeds)
    {g : Generation} (hg : g.ret = 0) (k : ℕ) :
    ((Pc.generate g k).finish a w).2 = w.refreshed a { g with writes := g.writes.drop k } := by
  simp only [Pc.finish, hg, ne_eq, not_true_eq_false, if_false]
  exact finishLoaded_eq (hw.loaded { g with writes := g.writes.drop k }) ha g

theorem updateData_refreshed {a : Answers} {w : World} (hw : Safe w) (ha : a.Succeeds)
    {data : List UInt8} (hg : (a.advertiseGet data).ret = 0) :
    (hubbleAdvertiserUpdateData a data w).2 = w.refreshed a (a.advertiseGet data) := by
  rw [updateData_eq_finish]
  exact finish_generate hw ha hg 0

theorem refreshed_started (a : Answers) (g : Generation) (w : World) :
    (w.refreshed a g).mStarted = w.mStarted := reconfigured_started a g.advLen (w.loaded g)

theorem refreshed_advertising {a : Answers} (ha : a.Succeeds) (g : Generation) (w : World) :
    (w.refreshed a g).softdevice.advertising = w.mStarted :=
  reconfigured_advertising ha g.advLen (w.loaded g)

/-- An update has the complete advertisement of its generation accepted. -/
theorem packets_refreshed {w : World} (hw : Safe w) (a : Answers) (g : Generation) :
    (w.refreshed a g).packets = w.packets ++ [advertisement (g.output w.hubbleAdvBuffer)] := by
  rw [World.refreshed, packets_reconfigured, loaded_packet hw.framed, packets_loaded]

/-! ### The packet of a preempted update -/

theorem whole_pair {g g' : Generation} {p : List UInt8} :
    Whole [g, g'] p ↔ p = advertisement g.serviceData ∨ p = advertisement g'.serviceData := by
  simp [Whole]

/-- Of the handler's packets followed by one more, only the last one is in question. -/
theorem whole_append_iff {g g' : Generation} {ps : List (List UInt8)} {p : List UInt8}
    (hps : ∀ q ∈ ps, q = advertisement g'.serviceData) :
    (∀ q ∈ ps ++ [p], Whole [g, g'] q) ↔ Whole [g, g'] p := by
  simp only [List.forall_mem_append, List.forall_mem_singleton]
  exact and_iff_right fun q hq => whole_pair.mpr (Or.inr (hps q hq))

/-- A buffer loaded with the generation `g'`, sent with the length of `g`: the length byte is that of
`g'` and the total length that of `g`. -/
theorem stale_packet_iff {w : World} (hw : w.hubbleAdvBuffer.Framed) {g g' : Generation}
    (hg' : g'.Covers) :
    Whole [g, g'] ((w.loaded g').hubbleAdvBuffer.prefixBytes g.advLen) ↔
      g.outLen.val = g'.outLen.val := by
  have hframed := (hw.writeAll g'.writes).setLength (UInt8.ofNat (g'.outLen.val + 1))
  rw [whole_pair]
  constructor
  · rw [World.loaded, Generation.advLen, hframed.prefixBytes g.outLen_le, AdvBuffer.setLength_four]
    rintro (h | h)
    · obtain ⟨hlen, -⟩ := header_append_inj.mp h
      rw [Generation.serviceData_length] at hlen
      exact (lengthByte_inj g'.outLen_le g.outLen_le hlen).symm
    · obtain ⟨-, hdata⟩ := header_append_inj.mp h
      have hlen := congrArg List.length hdata
      simpa [min_eq_left g.outLen_le] using hlen
  · intro hlen
    have hadv : g.advLen = g'.advLen := by rw [Generation.advLen, hlen, Generation.advLen]
    right
    rw [hadv, loaded_packet hw, hg'.output_eq]

/-- What a generator run interrupted after `k` bytes by another one leaves in the out range. -/
theorem output_interleaved {g : Generation} (hg : g.Covers) (g' : Generation) (k : ℕ) (w : World) :
    ({ g with writes := g.writes.drop k } : Generation).output
        ((w.stored (g.writes.take k)).loaded g').hubbleAdvBuffer = g.interleaved g' k := by
  rw [Generation.output_eq]
  simp only [World.loaded, World.stored, AdvBuffer.outRange_setLength,
    AdvBuffer.outRange_writeAll, take_overlay]
  rw [← overlay_append, ← overlay_append, ← List.append_assoc]
  refine overlay_eq_of_stored (by simpa using g.outLen_le) fun i hi => ?_
  -- every index below `out_len` is stored by `g` itself, before or after the interruption
  have hi : i < g.outLen.val ∧ i < outCapacity := by simpa using hi
  obtain ⟨b, hb, hbi⟩ := hg i hi.1
  rw [← List.take_append_drop k g.writes] at hb
  refine ⟨b, ?_, hbi⟩
  rcases List.mem_append.mp hb with hb | hb
  · exact List.mem_append_left _ (List.mem_append_left _ hb)
  · exact List.mem_append_right _ hb

/-! ### What a preempted update leaves behind -/

/-- The world `final` after an update of `g`, begun in `b` and preempted at `pc` by one of `g'`. -/
structure Resumed (b : World) (g g' : Generation) (pc : Pc) (final : World) : Prop where
  safe : Safe final
  advertising : final.softdevice.advertising = b.mStarted
  packets : b.mStarted = b.softdevice.advertising →
    ((∀ p ∈ final.packets, Whole [g, g'] p) ↔ pc.Separable g')

theorem Resumed.congr {b final : World} {g g' : Generation} {pc pc' : Pc}
    (h : Resumed b g g' pc final) (hpc : pc'.Separable g' ↔ pc.Separable g') :
    Resumed b g g' pc' final :=
  ⟨h.safe, h.advertising, fun hagree => (h.packets hagree).trans hpc.symm⟩

/-- The world after a configuration that returned the error `err`. -/
def World.refused (err : UInt32) (len : UInt16) (w : World) : World :=
  { w with calls := w.calls ++ [.configure w.softdevice w.mAdvHandle w.hubbleAdvBuffer len err] }

theorem Safe.refused {w : World} (hw : Safe w) (err : UInt32) (len : UInt16) :
    Safe (w.refused err len) :=
  ⟨⟨hw.framed, hw.handle, hw.allocated, hw.gapParams, hw.params⟩, hw.started⟩

theorem packets_refused {err : UInt32} (herr : err ≠ nrfSuccess) (len : UInt16) (w : World) :
    (w.refused err len).packets = w.packets := by
  rw [packets_snoc (v := w) _ rfl, packet?_configure, if_neg herr, Option.toList_none,
    List.append_nil]

/-- An advertising set is not configured. -/
theorem configure_refused {a : Answers} {w : World} (len : UInt16) (hw : Consistent w)
    (hon : w.softdevice.advertising = true) :
    ∃ err, err ≠ nrfSuccess ∧ sdBleGapAdvSetConfigure a len w = (err, w.refused err len) := by
  rcases w.softdevice.configure_cases a.configure a.newHandle w.mAdvHandle len w.mGapParams with
    ⟨hh, -, -⟩ | ⟨-, hidle, -⟩ | ⟨err, herr, he⟩
  · exact absurd hh (hw.allocated hon)
  · exact absurd hon (by simp [hidle])
  · exact ⟨err, herr, by simp [sdBleGapAdvSetConfigure, he, World.refused]⟩

/-- A started set with a handle advertises, whether the start was needed or not. -/
theorem start_advertising {a : Answers} (ha : a.Succeeds) {w : World} (hw : Safe w)
    (hh : w.mAdvHandle ≠ bleGapAdvSetHandleNotSet) :
    (hubbleAdvertiserStart a w).2.softdevice.advertising = true := by
  have hset := hw.handle_eq hh
  cases hadv : w.softdevice.advertising with
  | true => simp [hubbleAdvertiserStart, sdBleGapAdvStart, Softdevice.start, ha.start, hadv]
  | false =>
    rw [hubbleAdvertiserStart_eq hset hadv]
    simp [World.restarted, ha.start]

theorem Safe.stored {w : World} (hw : Safe w) (bs : List Write) : Safe (w.stored bs) :=
  ⟨⟨hw.framed.writeAll bs, hw.handle, hw.allocated, hw.gapParams, hw.params⟩, hw.started⟩

section Places

variable {a a' : Answers} {g g' : Generation} {b : World}

/-- Preempted in the generator: both generations are configured, the second one interleaved. -/
theorem resumed_generate (hb : Safe b) (hnil : b.packets = []) (ha : a.Succeeds) (hg : g.Succeeds)
    (hg' : g'.Succeeds) (k : ℕ) :
    Resumed b g g' (.generate g k)
      (((b.stored (g.writes.take k)).refreshed a' g').refreshed a
        { g with writes := g.writes.drop k }) := by
  set v := b.stored (g.writes.take k)
  have hv : Safe v := hb.stored _
  refine ⟨(hv.refreshed a' g').refreshed a _, ?_, fun _ => ?_⟩
  · rw [refreshed_advertising ha, refreshed_started]
    rfl
  · have hvnil : v.packets = [] := hnil
    have hbuf : (v.refreshed a' g').hubbleAdvBuffer = (v.loaded g').hubbleAdvBuffer :=
      reconfigured_buffer _ _ _
    rw [packets_refreshed (hv.refreshed a' g'), packets_refreshed hv, hvnil, hg'.covers.output_eq,
      hbuf, output_interleaved hg.covers, whole_append_iff (by simp), whole_pair,
      advertisement_inj, advertisement_inj]
    rfl

/-- Preempted once the buffer is loaded: both generations are configured from the handler's buffer,
the second one with its own length. -/
theorem resumed_loaded (hb : Safe b) (hnil : b.packets = []) (ha : a.Succeeds)
    (hg' : g'.Succeeds) {pc : Pc} (hpc : pc.Separable g' ↔ g.outLen.val = g'.outLen.val) :
    Resumed b g g' pc (((b.loaded g).refreshed a' g').reconfigured a g.advLen) := by
  have hv : Safe (b.loaded g) := hb.loaded g
  refine ⟨(hv.refreshed a' g').reconfigured a _, ?_, fun _ => ?_⟩
  · rw [reconfigured_advertising ha, refreshed_started]
    rfl
  · have hvnil : (b.loaded g).packets = [] := hnil
    have hbuf : ((b.loaded g).refreshed a' g').hubbleAdvBuffer =
        ((b.loaded g).loaded g').hubbleAdvBuffer := reconfigured_buffer _ _ _
    rw [packets_reconfigured, packets_refreshed hv, hvnil, hg'.covers.output_eq, hbuf, hpc,
      whole_append_iff (by simp), stale_packet_iff hv.framed hg'.covers]

/-- An update of the handler while the flag is cleared and the set not yet stopped: it loads the
buffer, and its configuration is refused if the set is on air. -/
theorem updateData_unflagged {u : World} (hu : Safe u)
    (hh : u.mAdvHandle ≠ bleGapAdvSetHandleNotSet) (ha' : a'.Succeeds) {data : List UInt8}
    (hg' : (a'.advertiseGet data).ret = 0) :
    ∃ v : World, (hubbleAdvertiserUpdateData a' data { u with mStarted := false }).2 =
        { v with mStarted := false } ∧
      Safe v ∧ v.mStarted = u.mStarted ∧ v.mAdvHandle ≠ bleGapAdvSetHandleNotSet ∧
      v.hubbleAdvBuffer = (u.loaded (a'.advertiseGet data)).hubbleAdvBuffer ∧
      (v.packets = u.packets ∨
        v.packets =
          u.packets ++ [advertisement ((a'.advertiseGet data).output u.hubbleAdvBuffer)]) := by
  set g' := a'.advertiseGet data
  have hl : Safe (u.loaded g') := hu.loaded g'
  have hupdate : (hubbleAdvertiserUpdateData a' data { u with mStarted := false }).2 =
      (sdBleGapAdvSetConfigure a' g'.advLen { u.loaded g' with mStarted := false }).2 := by
    rw [updateData_eq, if_neg (by simpa using hg'), configureAndRestart_false]
    rfl
  have hcons : Consistent { u.loaded g' with mStarted := false } :=
    ⟨hl.framed, hl.handle, hl.allocated, hl.gapParams, hl.params⟩
  cases hadv : u.softdevice.advertising with
  | true =>
    -- the flag says that there is nothing to stop, so the set is still on air
    obtain ⟨err, herr, he⟩ := configure_refused (a := a') g'.advLen hcons hadv
    refine ⟨(u.loaded g').refused err g'.advLen, ?_, hl.refused _ _, rfl, hh, rfl, Or.inl ?_⟩
    · rw [hupdate, he]
      rfl
    · rw [packets_refused herr, packets_loaded]
  | false =>
    have he := configure_succeeds g'.advLen hcons hadv ha'.configure
    refine ⟨(u.loaded g').configured a' g'.advLen, ?_, hl.configured _ _, rfl,
      World.assignedHandle_ne _ _, rfl, Or.inr ?_⟩
    · rw [hupdate, he]
      rfl
    · rw [packets_configured, loaded_packet hu.framed, packets_loaded]

/-- Preempted between clearing the flag and stopping the set. -/
theorem resumed_stopCall (hb : Safe b) (hnil : b.packets = []) (hs : b.mStarted = true)
    (hh : b.mAdvHandle ≠ bleGapAdvSetHandleNotSet) (ha : a.Succeeds) (ha' : a'.Succeeds)
    {data : List UInt8} (hg' : (a'.advertiseGet data).Succeeds) :
    Resumed b g (a'.advertiseGet data) (.stopCall (.update g b.mStarted))
      ((Pc.stopCall (.update g b.mStarted)).finish a
        (hubbleAdvertiserUpdateData a' data { b.loaded g with mStarted := false }).2).2 := by
  set g' := a'.advertiseGet data
  have hl : Safe (b.loaded g) := hb.loaded g
  obtain ⟨v, hv, hsafe, hvs, hvh, hbuf, hpackets⟩ :=
    updateData_unflagged hl hh ha' hg'.ret
  have hvs : v.mStarted = true := hvs.trans hs
  have hfinish : ((Pc.stopCall (.update g b.mStarted)).finish a { v with mStarted := false }).2 =
      v.reconfigured a g.advLen := by
    rw [← finishLoaded_eq hsafe ha, finishLoaded, haltIfStarted, if_pos hvs, hvs, hs,
      hubbleAdvertiserStop_eq a hvh]
    rfl
  rw [hv, hfinish]
  refine ⟨hsafe.reconfigured a _, ?_, fun _ => ?_⟩
  · rw [reconfigured_advertising ha, hvs, hs]
  · have hlnil : (b.loaded g).packets = [] := hnil
    have hps : ∀ q ∈ v.packets, q = advertisement g'.serviceData := by
      rw [hg'.covers.output_eq, hlnil] at hpackets
      rcases hpackets with he | he <;> rw [he] <;> simp [g']
    rw [packets_reconfigured, whole_append_iff hps, hbuf]
    exact stale_packet_iff hl.framed hg'.covers

/-- Preempted before the configuration. -/
theorem resumed_configure (hb : Safe b) (hnil : b.packets = []) (ha : a.Succeeds)
    (ha' : a'.Succeeds) (hg' : g'.Succeeds) :
    Resumed b g g' (.configure g b.mStarted)
      (configureAndRestart a g.advLen b.mStarted ((b.ready a g).refreshed a' g')).2 := by
  have hready : Safe (b.ready a g) := hb.ready a g
  have hready_nil : (b.ready a g).packets = [] := by
    rw [World.ready, packets_halted, packets_loaded, hnil]
  set v := (b.ready a g).refreshed a' g'
  have hv : Safe v := hready.refreshed a' g'
  have hbuf : v.hubbleAdvBuffer = ((b.ready a g).loaded g').hubbleAdvBuffer :=
    reconfigured_buffer _ _ _
  have hadv : v.softdevice.advertising = (b.ready a g).mStarted := refreshed_advertising ha' g' _
  have hpackets : v.packets = [advertisement g'.serviceData] := by
    rw [packets_refreshed hready, hready_nil, hg'.covers.output_eq, List.nil_append]
  cases hflag : (b.ready a g).mStarted with
  | true =>
    -- no handle was assigned when the flag was set: the handler's start puts the set on air, and
    -- the configuration is refused
    obtain ⟨hs, hh⟩ : b.mStarted = true ∧ b.mAdvHandle = bleGapAdvSetHandleNotSet := by
      simpa [World.ready, World.halted, World.loaded] using hflag
    obtain ⟨err, herr, he⟩ :=
      configure_refused (a := a) g.advLen hv.toConsistent (hadv.trans hflag)
    have hfinal : (configureAndRestart a g.advLen b.mStarted v).2 = v.refused err g.advLen := by
      simp [configureAndRestart, he, herr]
    rw [hfinal]
    refine ⟨hv.refused _ _, ?_, fun hagree => ?_⟩
    · rw [hs, ← hflag]
      exact hadv
    · exact absurd hh (hb.allocated (hagree ▸ hs))
  | false =>
    have he := configure_succeeds g.advLen hv.toConsistent (hadv.trans hflag) ha.configure
    have hsep : (∀ p ∈ (v.configured a g.advLen).packets, Whole [g, g'] p) ↔
        g.outLen.val = g'.outLen.val := by
      rw [packets_configured, hpackets, whole_append_iff (by simp), hbuf,
        stale_packet_iff hready.framed hg'.covers]
    have hconf : Safe (v.configured a g.advLen) := hv.configured _ _
    cases hs : b.mStarted with
    | false =>
      have hfinal : (configureAndRestart a g.advLen false v).2 = v.configured a g.advLen := by
        simp [configureAndRestart, he]
      rw [hfinal]
      exact ⟨hconf, hs.symm, fun _ => hsep⟩
    | true =>
      have hfinal : (configureAndRestart a g.advLen true v).2 =
          (v.configured a g.advLen).restarted a := by
        have hstart := hubbleAdvertiserStart_eq (a := a) (w := v.configured a g.advLen) rfl rfl
        simp [configureAndRestart, he, hstart]
      rw [hfinal]
      refine ⟨hconf.restarted a (World.assignedHandle_ne _ _), ?_, fun _ => ?_⟩
      · simp [World.restarted, ha.start, hs]
      · rw [packets_restarted]
        exact hsep

/-- Preempted around the setting of the flag: the handler's packet follows the update's own. -/
theorem resumed_start {u : World} (hu : Safe u) (hpackets : u.packets = [advertisement g.serviceData])
    (hs : b.mStarted = true) (ha : a.Succeeds) (hg' : g'.Succeeds) {pc : Pc}
    (hpc : pc.Separable g') :
    Resumed b g g' pc (hubbleAdvertiserStart a (u.refreshed a' g')).2 := by
  have hv : Safe (u.refreshed a' g') := hu.refreshed a' g'
  refine ⟨safe_start hv a, ?_, fun _ => iff_of_true ?_ hpc⟩
  · rw [start_advertising ha hv (reconfigured_handle _ _ _), hs]
  · rw [packets_start, packets_refreshed hu, hpackets, hg'.covers.output_eq]
    simp [whole_pair]

/-- Preempted after its last step. -/
theorem resumed_returned (hb : Safe b) (hnil : b.packets = []) (hg : g.Succeeds)
    (ha' : a'.Succeeds) (hg' : g'.Succeeds) :
    Resumed b g g' (.returned 0) ((b.refreshed a g).refreshed a' g') := by
  have hv : Safe (b.refreshed a g) := hb.refreshed a g
  refine ⟨hv.refreshed a' g', ?_, fun _ => iff_of_true ?_ trivial⟩
  · rw [refreshed_advertising ha', refreshed_started]
  · rw [packets_refreshed hv, packets_refreshed hb, hnil, hg.covers.output_eq,
      hg'.covers.output_eq]
    simp [whole_pair]

/-- **A preempted update**, at each of its places. -/
theorem preempted_update (hb : Safe b) (hnil : b.packets = []) (ha : a.Succeeds)
    (ha' : a'.Succeeds) (hg : g.Succeeds) {data : List UInt8}
    (hg' : (a'.advertiseGet data).Succeeds) {v : World} {pc : Pc} (hm : Midway a g b v pc) :
    Resumed b g (a'.advertiseGet data) pc
      (pc.finish a (hubbleAdvertiserUpdateData a' data v).2).2 := by
  set g' := a'.advertiseGet data
  have hready : Safe (b.ready a g) := hb.ready a g
  have hready_packets : ((b.ready a g).configured a g.advLen).packets =
      [advertisement g.serviceData] := by
    rw [packets_configured, World.ready, packets_halted, packets_loaded, hnil,
      ← hg.covers.output_eq b.hubbleAdvBuffer, ← loaded_packet hb.framed]
    rfl
  have hloaded : (hubbleAdvertiserUpdateData a' data (b.loaded g)).2 =
      (b.loaded g).refreshed a' g' := updateData_refreshed (hb.loaded g) ha' hg'.ret
  have hloaded_safe : Safe ((b.loaded g).refreshed a' g') := (hb.loaded g).refreshed a' g'
  have hflag : ((b.loaded g).refreshed a' g').mStarted = b.mStarted := refreshed_started _ _ _
  have hhandle : ((b.loaded g).refreshed a' g').mAdvHandle ≠ bleGapAdvSetHandleNotSet :=
    reconfigured_handle _ _ _
  have hrest := finishLoaded_eq hloaded_safe ha g
  cases hm with
  | generate k =>
    rw [updateData_refreshed (hb.stored _) ha' hg'.ret,
      finish_generate ((hb.stored _).refreshed a' g') ha hg.ret]
    exact resumed_generate hb hnil ha hg hg' k
  | lengthByte =>
    -- the generator with all its bytes stored, as far as the other update can tell
    have hfinish (x : World) :
        (Pc.lengthByte g).finish a x = (Pc.generate g g.writes.length).finish a x := by
      simp [Pc.finish, hg.ret, AdvBuffer.writeAll]
    have hscribbled : b.scribbled g = b.stored (g.writes.take g.writes.length) := by
      rw [List.take_length]
      rfl
    rw [hscribbled, updateData_refreshed (hb.stored _) ha' hg'.ret, hfinish,
      finish_generate ((hb.stored _).refreshed a' g') ha hg.ret]
    exact (resumed_generate hb hnil ha hg hg' g.writes.length).congr Iff.rfl
  | describe =>
    rw [hloaded]
    show Resumed b g g' _ (finishLoaded a g _).2
    rw [hrest]
    exact resumed_loaded hb hnil ha hg' Iff.rfl
  | saveStarted =>
    rw [hloaded]
    show Resumed b g g' _ (finishLoaded a g _).2
    rw [hrest]
    exact resumed_loaded hb hnil ha hg' Iff.rfl
  | testStarted =>
    have hfinish : (Pc.testStarted g b.mStarted).finish a ((b.loaded g).refreshed a' g') =
        finishLoaded a g ((b.loaded g).refreshed a' g') := by
      rw [finishLoaded, hflag]
      rfl
    rw [hloaded, hfinish, hrest]
    exact resumed_loaded hb hnil ha hg' Iff.rfl
  | stopTest hs =>
    have hfinish : (Pc.stopTest (.update g b.mStarted)).finish a ((b.loaded g).refreshed a' g') =
        finishLoaded a g ((b.loaded g).refreshed a' g') := by
      rw [finishLoaded, haltIfStarted, hflag, if_pos hs]
      rfl
    rw [hloaded, hfinish, hrest]
    exact resumed_loaded hb hnil ha hg' Iff.rfl
  | stopClear hs hh =>
    have hfinish : (Pc.stopClear (.update g b.mStarted)).finish a ((b.loaded g).refreshed a' g') =
        finishLoaded a g ((b.loaded g).refreshed a' g') := by
      rw [finishLoaded, haltIfStarted, hflag, if_pos hs, hubbleAdvertiserStop_eq a hhandle]
      rfl
    rw [hloaded, hfinish, hrest]
    exact resumed_loaded hb hnil ha hg' Iff.rfl
  | stopCall hs hh => exact resumed_stopCall hb hnil hs hh ha ha' hg'
  | configure =>
    rw [updateData_refreshed hready ha' hg'.ret]
    exact resumed_configure hb hnil ha ha' hg'
  | startSet hs =>
    have hconf := hready.configured a g.advLen
    rw [updateData_refreshed hconf ha' hg'.ret]
    exact resumed_start hconf hready_packets hs ha hg' trivial
  | startCall hs =>
    set u : World := { (b.ready a g).configured a g.advLen with mStarted := true }
    have hu : Safe u :=
      ⟨⟨(hready.configured a g.advLen).framed, (hready.configured a g.advLen).handle,
        (hready.configured a g.advLen).allocated, hready.gapParams, hready.gapParams⟩,
        fun _ => rfl⟩
    have hstarted : (u.refreshed a' g').mStarted = true := refreshed_started _ _ _
    have hfinish : ((Pc.startCall (.update g b.mStarted)).finish a (u.refreshed a' g')).2 =
        (hubbleAdvertiserStart a (u.refreshed a' g')).2 := by
      rw [hubbleAdvertiserStart, ← hstarted]
      rfl
    rw [updateData_refreshed hu ha' hg'.ret, hfinish]
    exact resumed_start hu hready_packets hs ha hg' trivial
  | returned =>
    rw [updateData_refreshed (hb.refreshed a g) ha' hg'.ret]
    exact resumed_returned hb hnil hg ha' hg'

end Places

end HubbleNordic
