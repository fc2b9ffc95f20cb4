import HubbleNordic.Advertiser.Restart

/-!
# A refresh that fails

`hubble_advertiser_update_data` returns nonzero when the generator fails or the configuration does.
The generator has by then written into the buffer on air; before the configuration the length byte
has been written as well, and the set stopped.

* `LeftAlone`, `LeftOnAir`: the advertiser is as it was, with the bytes it would transmit, or with
  those it does transmit;
* `failed_update`: the two worlds a failing update can leave behind, whatever the answers;
* `failed_refresh_iff`: exactly when a failing refresh leaves the advertiser as it was.
-/

namespace HubbleNordic

/-- The set advertises as before, the bytes of a transmission are as before, and so is the flag. -/
structure LeftAlone (w w' : World) : Prop where
  advertising : w'.softdevice.advertising = w.softdevice.advertising
  transmitted : w'.transmitted = w.transmitted
  mStarted : w'.mStarted = w.mStarted

/-- The same, where the bytes of a set that does not advertise do not matter. -/
structure LeftOnAir (w w' : World) : Prop where
  advertising : w'.softdevice.advertising = w.softdevice.advertising
  transmitted : w.softdevice.advertising = true → w'.transmitted = w.transmitted
  mStarted : w'.mStarted = w.mStarted

/-- An update would stop the set: the flag is set and a handle is assigned. -/
def World.Stoppable (w : World) : Prop :=
  w.mStarted = true ∧ w.mAdvHandle ≠ bleGapAdvSetHandleNotSet

instance (w : World) : Decidable w.Stoppable := inferInstanceAs (Decidable (_ ∧ _))

/-- Within the length the set last accepted, the generator run stores the bytes that stood there,
and the length byte of a run that succeeds is the one that stood there. -/
def Generation.Repeats (g : Generation) (w : World) : Prop :=
  (g.ret = 0 → 4 < w.softdevice.len.toNat →
    w.hubbleAdvBuffer[4]? = some (UInt8.ofNat (g.outLen.val + 1))) ∧
  (overlay g.writes w.hubbleAdvBuffer.outRange).take (w.softdevice.len.toNat - 6) =
    w.hubbleAdvBuffer.outRange.take (w.softdevice.len.toNat - 6)

/-! ### Framed buffers that transmit the same bytes -/

theorem take_header_eq_iff (l m : UInt8) (n : ℕ) :
    (header l).take n = (header m).take n ↔ (4 < n → l = m) := by
  constructor
  · intro h hn
    have hget := congrArg (fun d : List UInt8 => d[4]?) h
    simpa [List.getElem?_take, hn, header] using hget
  · intro h
    by_cases hn : 4 < n
    · rw [h hn]
    · have hn : n ≤ 4 := Nat.not_lt.mp hn
      interval_cases n <;> rfl

/-- Framed buffers transmit the same bytes if they agree on the length byte and the service data,
as far as the length reaches. -/
theorem AdvBuffer.Framed.prefixBytes_eq_iff {b d : AdvBuffer} (hb : b.Framed) (hd : d.Framed)
    (len : UInt16) :
    b.prefixBytes len = d.prefixBytes len ↔
      (4 < len.toNat → b[4] = d[4]) ∧
        b.outRange.take (len.toNat - 6) = d.outRange.take (len.toNat - 6) := by
  have hsplit {b : AdvBuffer} (hb : b.Framed) : b.prefixBytes len =
      (header b[4]).take len.toNat ++ b.outRange.take (len.toNat - 6) := by
    rw [AdvBuffer.prefixBytes, hb, List.take_append, header_length]
  rw [hsplit hb, hsplit hd, ← take_header_eq_iff]
  constructor
  · intro h
    exact List.append_inj h (by simp)
  · rintro ⟨h1, h2⟩
    rw [h1, h2]

/-! ### What a failing update leaves behind -/

theorem haltIfStarted_of_not {a : Answers} {w : World} (h : ¬ w.Stoppable) :
    haltIfStarted a w = w := by
  unfold haltIfStarted
  split_ifs with hs
  · have hh : w.mAdvHandle = bleGapAdvSetHandleNotSet := by
      by_contra hh
      exact h ⟨hs, hh⟩
    rw [stop_of_unset hh]
  · rfl

theorem haltIfStarted_mStarted {a : Answers} {w : World} (h : w.Stoppable) :
    (haltIfStarted a w).mStarted = false := by
  rw [haltIfStarted, if_pos h.1]
  exact stop_of_set h.2

/-- The inner stop leaves the buffer alone, and the length the set accepted. -/
theorem haltIfStarted_transmitted (a : Answers) (w : World) :
    (haltIfStarted a w).transmitted = w.transmitted := by
  by_cases h : w.Stoppable
  · rw [haltIfStarted, if_pos h.1, hubbleAdvertiserStop, if_neg h.2]
    rcases w.softdevice.stop_cases a.stop w.mAdvHandle with ⟨-, -, he⟩ | ⟨-, err, -, he⟩ <;>
      simp [sdBleGapAdvStop, he, World.transmitted]
  · rw [haltIfStarted_of_not h]

/-- **A failing update**: the generator failed, or it succeeded and the configuration failed. -/
theorem failed_update {a : Answers} {data : List UInt8} {w : World} {g : Generation}
    (hg : a.advertiseGet data = g) (hret : (hubbleAdvertiserUpdateData a data w).1 ≠ 0) :
    (g.ret ≠ 0 ∧ (hubbleAdvertiserUpdateData a data w).2 = w.scribbled g) ∨
    (g.ret = 0 ∧ ∃ cs, (hubbleAdvertiserUpdateData a data w).2 =
      { haltIfStarted a (w.loaded g) with calls := cs }) := by
  subst hg
  rw [updateData_eq] at hret ⊢
  split_ifs at hret ⊢ with h
  · exact Or.inl ⟨h, rfl⟩
  · right
    refine ⟨not_not.mp h, ?_⟩
    set v := haltIfStarted a (w.loaded (a.advertiseGet data))
    rcases v.softdevice.configure_cases a.configure a.newHandle v.mAdvHandle
      (a.advertiseGet data).advLen v.mGapParams with ⟨-, -, he⟩ | ⟨-, -, he⟩ | ⟨err, herr, he⟩
    · exact absurd (by simp [configureAndRestart, sdBleGapAdvSetConfigure, he]) hret
    · exact absurd (by simp [configureAndRestart, sdBleGapAdvSetConfigure, he]) hret
    · refine ⟨v.calls ++ [.configure v.softdevice v.mAdvHandle v.hubbleAdvBuffer
        (a.advertiseGet data).advLen err], ?_⟩
      simp [configureAndRestart, sdBleGapAdvSetConfigure, he, herr]

section Failing

variable {a : Answers} {data : List UInt8} {w : World} {g : Generation}
  (hg : a.advertiseGet data = g) (hret : (hubbleAdvertiserUpdateData a data w).1 ≠ 0)

include hg hret

/-- The bytes of a transmission after a failing update. -/
theorem failed_transmitted_iff (hw : w.hubbleAdvBuffer.Framed) :
    (hubbleAdvertiserUpdateData a data w).2.transmitted = w.transmitted ↔ g.Repeats w := by
  have hscribbled := hw.writeAll g.writes
  have hfour : w.hubbleAdvBuffer[4]? = some w.hubbleAdvBuffer[4] :=
    Vector.getElem?_eq_getElem (by norm_num)
  rw [Generation.Repeats, hfour, Option.some.injEq, eq_comm (a := w.hubbleAdvBuffer[4])]
  rcases failed_update hg hret with ⟨h, he⟩ | ⟨h, cs, he⟩ <;> rw [he]
  · have hiff := hscribbled.prefixBytes_eq_iff hw w.softdevice.len
    rw [AdvBuffer.writeAll_four, AdvBuffer.outRange_writeAll] at hiff
    simpa [h, World.transmitted, World.scribbled] using hiff
  · have hiff := (hscribbled.setLength (UInt8.ofNat (g.outLen.val + 1))).prefixBytes_eq_iff hw
      w.softdevice.len
    rw [AdvBuffer.setLength_four, AdvBuffer.outRange_setLength,
      AdvBuffer.outRange_writeAll] at hiff
    have hhalt : World.transmitted { haltIfStarted a (w.loaded g) with calls := cs } =
        (w.loaded g).transmitted := haltIfStarted_transmitted a (w.loaded g)
    rw [hhalt]
    simpa [h, World.transmitted, World.loaded] using hiff

/-- The flag after a failing update: cleared where the configuration failed after a stop. -/
theorem failed_mStarted_iff :
    (hubbleAdvertiserUpdateData a data w).2.mStarted = w.mStarted ↔
      (g.ret = 0 → ¬ w.Stoppable) := by
  rcases failed_update hg hret with ⟨h, he⟩ | ⟨h, cs, he⟩ <;> rw [he]
  · exact iff_of_true rfl fun h0 => absurd h0 h
  · by_cases hstop : w.Stoppable
    · have hcleared : (haltIfStarted a (w.loaded g)).mStarted = false :=
        haltIfStarted_mStarted (w := w.loaded g) hstop
      refine iff_of_false ?_ fun hno => hno h hstop
      rw [hstop.1]
      simp [hcleared]
    · have hsame : haltIfStarted a (w.loaded g) = w.loaded g :=
        haltIfStarted_of_not (w := w.loaded g) hstop
      refine iff_of_true ?_ fun _ => hstop
      rw [hsame]
      rfl

/-- A failing update that stops nothing leaves the set advertising, or idle, as it was. -/
theorem failed_advertising (hstop : g.ret = 0 → ¬ w.Stoppable) :
    (hubbleAdvertiserUpdateData a data w).2.softdevice.advertising =
      w.softdevice.advertising := by
  rcases failed_update hg hret with ⟨h, he⟩ | ⟨h, cs, he⟩ <;> rw [he]
  · rfl
  · have hsame : haltIfStarted a (w.loaded g) = w.loaded g :=
      haltIfStarted_of_not (w := w.loaded g) (hstop h)
    rw [hsame]
    rfl

end Failing

/-! ### Runs -/

/-- **A failing refresh leaves the advertiser as it was** exactly when it was not the configuration
that failed after a stop, and the bytes stored by then are the ones that stood there; for a set that
is not advertising the bytes matter only to what it would transmit.  Whatever the answers. -/
theorem failed_refresh_iff {w w' : World} {e : Event} {r : Report} {g : Generation} {a : Answers}
    (hr : advertiser.Reachable w) (hn : advertiser.next w e = some (r, w'))
    (he : e.refresh? = some (g, a)) (hret : r.ret ≠ 0) :
    (LeftAlone w w' ↔ (g.ret = 0 → ¬ w.Stoppable) ∧ g.Repeats w) ∧
    (LeftOnAir w w' ↔ (g.ret = 0 → ¬ w.Stoppable) ∧
      (w.softdevice.advertising = true → g.Repeats w)) := by
  have hw := reachable_consistent hr
  obtain ⟨c, data, rfl, hp, hg⟩ := Event.refresh?_eq_some.mp he
  obtain ⟨rfl, rfl⟩ := advertiser_call.mp hn
  obtain ⟨p, -, hexec⟩ := c.exec_refresh hp a w.fresh
  rw [hexec] at hret ⊢
  -- the update runs in `w`, but for its parameters and its record of calls
  have hbytes := failed_transmitted_iff hg hret hw.framed
  have hflag := failed_mStarted_iff hg hret
  have hadv := failed_advertising hg hret
  constructor
  · constructor
    · intro h
      exact ⟨hflag.mp h.mStarted, hbytes.mp h.transmitted⟩
    · rintro ⟨hstop, hrep⟩
      exact ⟨hadv hstop, hbytes.mpr hrep, hflag.mpr hstop⟩
  · constructor
    · intro h
      exact ⟨hflag.mp h.mStarted, fun hon => hbytes.mp (h.transmitted hon)⟩
    · rintro ⟨hstop, hrep⟩
      exact ⟨hadv hstop, fun hon => hbytes.mpr (hrep hon), hflag.mpr hstop⟩

/-- `EPERM`. -/
def eperm : Int32 := 1

/-- A generator that stores `ws` and then refuses to reuse a nonce. -/
def Generation.refused (ws : List Write) : Generation := ⟨ws, -eperm, 0⟩

/-- Initialise with the service data `11`, and start. -/
def onAirEleven : List Event :=
  [.call (.init (some ⟨500, 500⟩))
      { Answers.storing with advertiseGet := fun _ => .storing [0x11] },
    .call .start .storing]

/-- A generator that is refused before it stores a byte leaves the packet on air. -/
theorem failed_refresh_refused :
    ∃ h w r w', advertiser.Run h w ∧ h.map Prod.fst = onAirEleven ∧
      advertiser.next w (.call (.updateData [0x33])
        { Answers.storing with advertiseGet := fun _ => .refused [] }) = some (r, w') ∧
      r.ret = -eperm ∧ LeftAlone w w' := by
  have hrun : ∃ h w, advertiser.Run h w ∧ h.map Prod.fst = onAirEleven :=
    ⟨_, _, Mealy.runFrom_of_exec (M := advertiser) (s := .boot) (l := onAirEleven) rfl, rfl⟩
  obtain ⟨h, w, hr, hh⟩ := hrun
  have hstep := (advertiser_call (w := w) (c := .updateData [0x33])
    (a := { Answers.storing with advertiseGet := fun _ => .refused [] })).mpr ⟨rfl, rfl⟩
  refine ⟨h, w, _, _, hr, hh, hstep, rfl,
    (failed_refresh_iff (g := .refused []) ⟨h, hr⟩ hstep rfl (show -eperm ≠ 0 by decide)).1.mpr ?_⟩
  exact ⟨fun h0 => absurd h0 (by decide), fun h0 => absurd h0 (by decide), rfl⟩

/-- **Two failing updates of a set on air**: a configuration that runs out of memory leaves it idle,
with the flag cleared; a generator that stores a byte and is then refused leaves that byte on
air. -/
theorem failed_refresh_not_atomic :
    ∃ h w r v r' v', advertiser.Run h w ∧ h.map Prod.fst = onAirEleven ∧
      w.softdevice.advertising = true ∧ w.transmitted = advertisement [0x11] ∧
      advertiser.next w (.call (.updateData [0x33])
        { Answers.storing with configure := nrfErrorNoMem }) = some (r, v) ∧
      r.ret = -nrfErrorNoMem.toInt32 ∧ v.softdevice.advertising = false ∧ v.mStarted = false ∧
      advertiser.next w (.call (.updateData [0x33])
        { Answers.storing with advertiseGet := fun _ => .refused [(⟨0, by decide⟩, 0x33)] }) =
          some (r', v') ∧
      r'.ret = -eperm ∧ v'.softdevice.advertising = true ∧ v'.transmitted ≠ w.transmitted :=
  ⟨_, _, _, _, _, _, Mealy.runFrom_of_exec (M := advertiser) (s := .boot) (l := onAirEleven) rfl,
    rfl, rfl, rfl, rfl, rfl, rfl, rfl, rfl, rfl, rfl, by decide⟩

end HubbleNordic
