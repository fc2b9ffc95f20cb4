import HubbleNordic.Advertiser.Steps

/-!
# What is on air while a call is under way

While its set is advertising, the SoftDevice reads the accepted number of bytes off the application's
buffer at each transmission.  The generator writes into that very buffer, the length byte is patched
next, and only then is the set stopped: a transmission in between may send bytes of two generations,
or a length byte that does not fit the packet.

* `Air`, `AirEvent` and the machine `onAir`: API calls step by step, every call to the SDK and the
  SoftDevice succeeding where the contract allows, with transmissions at any point in between;
* `Sound`: what holds at every point; `Within`, where a call can stand;
* `transmitted_iff`: one transmission, at any place;
* `onAir_intact_iff`: a run transmits nothing but complete advertisements of single generations if
  and only if each of its transmissions is harmless;
* `mixed_packet`: a run that transmits bytes of two generations.
-/

namespace HubbleNordic

/-- The world, the place and the answers of the call under way, the service data of the packet the
SoftDevice last accepted, and the generator runs begun so far. -/
structure Air where
  world : World
  pc : Pc
  answers : Answers
  accepted : List UInt8
  begun : List Generation

/-- An API call begins, makes one step, or a transmission takes place. -/
inductive AirEvent
  | call (c : Call) (get : List UInt8 → Generation)
      (handle : {h : UInt8 // h ≠ bleGapAdvSetHandleNotSet})
  | tick
  | radio

/-- No call is under way. -/
def Pc.Idle : Pc → Prop
  | .returned _ => True
  | _ => False

instance (pc : Pc) : Decidable pc.Idle := by cases pc <;> unfold Pc.Idle <;> infer_instance

/-- A generator run that succeeds, and stores every byte of its output. -/
structure Generation.Succeeds (g : Generation) : Prop where
  ret : g.ret = 0
  covers : g.Covers

instance (g : Generation) : Decidable g.Succeeds :=
  decidable_of_iff (g.ret = 0 ∧ g.Covers) ⟨fun h => ⟨h.1, h.2⟩, fun h => ⟨h.ret, h.covers⟩⟩

def Air.boot : Air := ⟨.boot, .returned 0, .storing, [], []⟩

/-- The service data accepted after a step, where that of `d` is before: a configuration that
succeeds is for its own generation. -/
def acceptedAfter (a : Answers) (w : World) (d : List UInt8) : Pc → List UInt8
  | .configure g _ =>
      if (sdBleGapAdvSetConfigure a g.advLen w).1 = nrfSuccess then g.serviceData else d
  | _ => d

/-- The device, with every call to the SDK and the SoftDevice succeeding where the contract allows.
A transmission outputs its bytes. -/
def onAir : Mealy Air AirEvent (Option (List UInt8)) where
  init := .boot
  next s
    | .call c get handle =>
        let a := Answers.success get handle
        if s.pc.Idle ∧ ∀ g ∈ c.generation? a, g.Succeeds then
          some (none, { s with
            world := s.world.fresh
            pc := c.enter a
            answers := a
            begun := s.begun ++ (c.generation? a).toList })
        else none
    | .tick =>
        let (w, pc) := advStep s.answers s.world s.pc
        some (none, { s with
          world := w
          pc := pc
          accepted := acceptedAfter s.answers s.world s.accepted s.pc })
    | .radio =>
        if s.world.softdevice.advertising = true then some (some s.world.transmitted, s) else none

/-- Every transmission is the complete advertisement of a single generation. -/
def Intact (_ : List (AirEvent × Option (List UInt8))) (s : Air) (_ : AirEvent)
    (o : Option (List UInt8)) (_ : Air) : Prop :=
  ∀ bytes ∈ o, ∃ g ∈ s.begun, bytes = advertisement g.serviceData

/-- A transmission is harmless at a place, where `d` is accepted and `gs` are begun.  While a
generation is under way, the bytes it has stored so far must have turned the accepted service data
into that of a generation; from the length byte to the stop, the new service data must be as long as
the accepted one. -/
def Pc.Harmless (d : List UInt8) (gs : List Generation) : Pc → Prop
  | .generate g k => ∃ g' ∈ gs, overlay (g.writes.take k) d = g'.serviceData
  | .lengthByte g => ∃ g' ∈ gs, overlay g.writes d = g'.serviceData
  | .describe g | .saveStarted g | .testStarted g _ | .stopTest (.update g _)
  | .stopClear (.update g _) | .stopCall (.update g _) => g.outLen.val = d.length
  | _ => True

/-- Every transmission is harmless. -/
def RadioHarmless (_ : List (AirEvent × Option (List UInt8))) (s : Air) (e : AirEvent)
    (_ : Option (List UInt8)) (_ : Air) : Prop :=
  e = .radio → s.pc.Harmless s.accepted s.begun

/-! ### Where a call can stand -/

/-- The buffer of `w` holds the advertisement of `d`, and the SoftDevice has accepted its length. -/
structure Loads (w : World) (d : List UInt8) : Prop where
  le : d.length ≤ outCapacity
  lengthByte : w.hubbleAdvBuffer[4] = UInt8.ofNat (d.length + 1)
  data : w.hubbleAdvBuffer.outRange.take d.length = d
  len : w.softdevice.len = UInt16.ofNat (d.length + 6)

/-- Between calls: a set with a handle is loaded with the service data of a generation. -/
def Settled (d : List UInt8) (gs : List Generation) (w : World) : Prop :=
  w.mAdvHandle ≠ bleGapAdvSetHandleNotSet → Loads w d ∧ ∃ g ∈ gs, d = g.serviceData

/-- A place in an update before its configuration is accepted. -/
def Pc.Loading : Pc → Prop
  | .generate _ _ | .lengthByte _ | .describe _ | .saveStarted _ | .testStarted _ _
  | .stopTest (.update _ _) | .stopClear (.update _ _) | .stopCall (.update _ _)
  | .configure _ _ => True
  | _ => False

/-- The world and the place of a call, relative to a world `w` between calls. -/
inductive Within (a : Answers) (gs : List Generation) (w : World) : World → Pc → Prop
  | returned (ret : Int32) : Within a gs w w (.returned ret)
  | startSet (c : Caller) : Within a gs w w (.startSet c)
  | startCall (c : Caller) : Within a gs w { w with mStarted := true } (.startCall c)
  | stopTest : Within a gs w w (.stopTest .api)
  | stopClear (hh : w.mAdvHandle ≠ bleGapAdvSetHandleNotSet) : Within a gs w w (.stopClear .api)
  | stopCall (hh : w.mAdvHandle ≠ bleGapAdvSetHandleNotSet) :
      Within a gs w { w with mStarted := false } (.stopCall .api)
  | params (config : HubbleAdvertiserConfig) (hmem : a.advertiseGet [] ∈ gs)
      (hg : (a.advertiseGet []).Succeeds) : Within a gs w w (.params config)
  | update (g : Generation) (hmem : g ∈ gs) (hg : g.Succeeds) {v : World} {pc : Pc}
      (hm : Midway a g w v pc) (hpc : pc.Loading) : Within a gs w v pc

/-- What holds at every point of every run. -/
def Sound (s : Air) : Prop :=
  s.answers.Succeeds ∧
    ∃ w, Safe w ∧ Settled s.accepted s.begun w ∧ Within s.answers s.begun w s.world s.pc

/-! ### One transmission -/

theorem header_append_inj {l l' : UInt8} {d d' : List UInt8} :
    header l ++ d = header l' ++ d' ↔ l = l' ∧ d = d' := by
  constructor
  · intro h
    obtain ⟨h1, h2⟩ := List.append_inj h rfl
    exact ⟨header_injective h1, h2⟩
  · rintro ⟨rfl, rfl⟩
    rfl

theorem advertisement_inj {d e : List UInt8} : advertisement d = advertisement e ↔ d = e :=
  ⟨advertisement_injective, congrArg advertisement⟩

/-- A transmission reads a framed buffer as its length byte and its out range. -/
theorem transmitted_eq {v w : World} {d : List UInt8} (hw : Loads w d)
    (hv : v.hubbleAdvBuffer.Framed) (hlen : v.softdevice.len = w.softdevice.len) :
    v.transmitted = header v.hubbleAdvBuffer[4] ++ v.hubbleAdvBuffer.outRange.take d.length := by
  rw [World.transmitted, hlen, hw.len]
  exact hv.prefixBytes hw.le

theorem transmitted_loads {w : World} {d : List UInt8} (hf : w.hubbleAdvBuffer.Framed)
    (hw : Loads w d) : w.transmitted = advertisement d := by
  rw [transmitted_eq hw hf rfl, hw.lengthByte, hw.data, advertisement]

/-- Once bytes have been stored, a transmission reads them laid over the accepted service data. -/
theorem transmitted_stored {w : World} {d : List UInt8} (hf : w.hubbleAdvBuffer.Framed)
    (hw : Loads w d) (bs : List Write) :
    (w.stored bs).transmitted = advertisement (overlay bs d) := by
  rw [transmitted_eq (v := w.stored bs) hw (hf.writeAll bs) rfl, World.stored,
    AdvBuffer.writeAll_four,
    AdvBuffer.outRange_writeAll, take_overlay, hw.data, hw.lengthByte, advertisement,
    overlay_length]

/-- Once the length byte is written, a transmission reads it in front of as many bytes as were
accepted. -/
theorem transmitted_loaded {w : World} {d : List UInt8} (hf : w.hubbleAdvBuffer.Framed)
    (hw : Loads w d) (g : Generation) :
    (w.loaded g).transmitted =
      header (UInt8.ofNat (g.outLen.val + 1)) ++ overlay g.writes d := by
  rw [transmitted_eq (v := w.loaded g) hw ((hf.writeAll g.writes).setLength _) rfl, World.loaded,
    AdvBuffer.setLength_four, AdvBuffer.outRange_setLength, AdvBuffer.outRange_writeAll,
    take_overlay, hw.data]

theorem lengthByte_inj {m n : ℕ} (hm : m ≤ outCapacity) (hn : n ≤ outCapacity)
    (h : UInt8.ofNat (m + 1) = UInt8.ofNat (n + 1)) : m = n := by
  have h := congrArg UInt8.toNat h
  simp only [outCapacity, bleGapAdvSetDataSizeMax] at hm hn
  rw [UInt8.toNat_ofNat_of_lt' (by simp only [UInt8.size]; omega),
    UInt8.toNat_ofNat_of_lt' (by simp only [UInt8.size]; omega)] at h
  omega

/-- A transmission after the length byte is that of a complete advertisement if and only if the new
service data is as long as the accepted one. -/
theorem transmitted_loaded_iff {w : World} {d : List UInt8} {gs : List Generation}
    {g : Generation} (hf : w.hubbleAdvBuffer.Framed) (hw : Loads w d) (hmem : g ∈ gs)
    (hg : g.Succeeds) :
    (∃ g' ∈ gs, (w.loaded g).transmitted = advertisement g'.serviceData) ↔
      g.outLen.val = d.length := by
  rw [transmitted_loaded hf hw g]
  constructor
  · rintro ⟨g', -, h⟩
    obtain ⟨hlen, hdata⟩ := header_append_inj.mp h
    have hdlen := congrArg List.length hdata
    rw [overlay_length] at hdlen
    rw [hdlen]
    exact lengthByte_inj g.outLen_le (by simpa using g'.outLen_le) hlen
  · intro hlen
    refine ⟨g, hmem, ?_⟩
    rw [hg.covers.overlay_eq hlen.symm, advertisement, Generation.serviceData_length]

/-! ### Every point of every run is sound -/

theorem Settled.congr {d : List UInt8} {gs : List Generation} {w v : World}
    (hw : Settled d gs w) (hbuf : v.hubbleAdvBuffer = w.hubbleAdvBuffer)
    (hh : v.mAdvHandle = w.mAdvHandle) (hlen : v.softdevice.len = w.softdevice.len) :
    Settled d gs v := by
  intro hset
  obtain ⟨hload, hg⟩ := hw (hh ▸ hset)
  exact ⟨⟨hload.le, by rw [hbuf]; exact hload.lengthByte, by rw [hbuf]; exact hload.data,
    by rw [hlen]; exact hload.len⟩, hg⟩

theorem Settled.mono {d : List UInt8} {gs gs' : List Generation} {w : World}
    (hw : Settled d gs w) (hgs : ∀ g ∈ gs, g ∈ gs') : Settled d gs' w := by
  intro hset
  obtain ⟨hload, g, hg, hd⟩ := hw hset
  exact ⟨hload, g, hgs g hg, hd⟩

/-- A configured world is settled on the generation just loaded. -/
theorem settled_configured {w : World} (a : Answers) {g : Generation} {gs : List Generation}
    (hmem : g ∈ gs) (hg : g.Succeeds) :
    Settled g.serviceData gs ((w.ready a g).configured a g.advLen) := by
  refine fun _ => ⟨⟨by simpa using g.outLen_le, ?_, ?_, ?_⟩, g, hmem, rfl⟩
  · simp [World.configured, World.ready, World.halted, World.loaded]
  · have hout := hg.covers.output_eq w.hubbleAdvBuffer
    simp only [Generation.output] at hout
    simpa [World.configured, World.ready, World.halted, World.loaded] using hout
  · simp [World.configured, Generation.advLen]

theorem start_settled {d : List UInt8} {gs : List Generation} {w : World} (a : Answers)
    (hw : Settled d gs w) : Settled d gs (hubbleAdvertiserStart a w).2 := by
  refine hw.congr rfl rfl ?_
  rcases w.softdevice.start_cases a.start w.mAdvHandle with ⟨-, -, -, he⟩ | ⟨err, -, he⟩ <;>
    simp [hubbleAdvertiserStart, sdBleGapAdvStart, he]

theorem stop_settled {d : List UInt8} {gs : List Generation} {w : World} (a : Answers)
    (hw : Settled d gs w) : Settled d gs (hubbleAdvertiserStop a w).2 := by
  unfold hubbleAdvertiserStop
  split_ifs
  · exact hw
  · refine hw.congr rfl rfl ?_
    rcases w.softdevice.stop_cases a.stop w.mAdvHandle with ⟨-, -, he⟩ | ⟨-, err, -, he⟩ <;>
      simp [sdBleGapAdvStop, he]

/-- Before the configuration, the next place is another one before the configuration. -/
theorem loading_step {a : Answers} {g : Generation} {w v : World} {pc : Pc} (hg : g.ret = 0)
    (hm : Midway a g w v pc) (hpc : pc.Loading) (hconf : ∀ sa, pc ≠ .configure g sa) :
    (advStep a v pc).2.Loading := by
  cases hm with
  | generate k => cases hb : g.writes[k]? <;> simp [advStep, hb, hg, Pc.Loading]
  | lengthByte => trivial
  | describe => trivial
  | saveStarted => trivial
  | testStarted => simp only [advStep]; split_ifs <;> trivial
  | stopTest hs => simp only [advStep]; split_ifs <;> trivial
  | stopClear hs hh => trivial
  | stopCall hs hh => trivial
  | configure => exact absurd rfl (hconf _)
  | startSet hs => exact absurd hpc id
  | startCall hs => exact absurd hpc id
  | returned => exact absurd hpc id

/-- The configuration of an update whose calls succeed settles the set on its generation. -/
theorem within_configure {a : Answers} {g : Generation} {gs : List Generation} {w : World}
    (d : List UInt8) (hw : Safe w) (ha : a.Succeeds) (hmem : g ∈ gs) (hg : g.Succeeds) :
    let v := (w.ready a g).configured a g.advLen
    acceptedAfter a (w.ready a g) d (.configure g w.mStarted) = g.serviceData ∧ Safe v ∧
      Settled g.serviceData gs v ∧
      Within a gs v (advStep a (w.ready a g) (.configure g w.mStarted)).1
        (advStep a (w.ready a g) (.configure g w.mStarted)).2 := by
  have hready := hw.ready a g
  have hconf := configure_succeeds g.advLen hready.toConsistent rfl ha.configure
  refine ⟨by simp [acceptedAfter, hconf], hready.configured a _,
    settled_configured a hmem hg, ?_⟩
  cases hs : w.mStarted with
  | true =>
    have hpc : advStep a (w.ready a g) (.configure g true) =
        ((w.ready a g).configured a g.advLen, .startSet (.update g true)) := by
      simp [advStep, hconf]
    rw [hpc]
    exact .startSet _
  | false =>
    have hpc : advStep a (w.ready a g) (.configure g false) =
        ((w.ready a g).configured a g.advLen, .returned 0) := by
      simp [advStep, hconf]
    rw [hpc]
    exact .returned 0

/-- **One step**: from a place within a call, relative to a safe and settled world, to another. -/
theorem within_step {a : Answers} {d : List UInt8} {gs : List Generation} {w v : World} {pc : Pc}
    (ha : a.Succeeds) (hw : Safe w) (hset : Settled d gs w) (hwithin : Within a gs w v pc) :
    ∃ w', Safe w' ∧ Settled (acceptedAfter a v d pc) gs w' ∧
      Within a gs w' (advStep a v pc).1 (advStep a v pc).2 := by
  cases hwithin with
  | returned ret => exact ⟨w, hw, hset, .returned ret⟩
  | startSet c => exact ⟨w, hw, hset, .startCall c⟩
  | startCall c =>
    refine ⟨(hubbleAdvertiserStart a w).2, safe_start hw a, start_settled a hset, ?_⟩
    cases c with
    | api => exact .returned _
    | update g startAfter => exact .returned _
  | stopTest =>
    refine ⟨w, hw, hset, ?_⟩
    by_cases hh : w.mAdvHandle = bleGapAdvSetHandleNotSet
    · simp only [advStep, if_pos hh]
      exact .returned _
    · simp only [advStep, if_neg hh]
      exact .stopClear hh
  | stopClear hh => exact ⟨w, hw, hset, .stopCall hh⟩
  | stopCall hh =>
    have hstop : (hubbleAdvertiserStop a w).2 =
        (sdBleGapAdvStop a { w with mStarted := false }).2 := by
      rw [hubbleAdvertiserStop, if_neg hh]
    have hsafe := safe_stop hw (a := a) (absurd ha.stop)
    have hsettled := stop_settled a hset
    rw [hstop] at hsafe hsettled
    exact ⟨_, hsafe, hsettled, .returned _⟩
  | params config hmem hg =>
    exact ⟨initGapParams config w, hw.withParams (fun _ => ⟨rfl, rfl⟩), hset.congr rfl rfl rfl,
      .update _ hmem hg (.generate 0) trivial⟩
  | update g hmem hg hm hpc =>
    by_cases hconf : ∃ sa, pc = .configure g sa
    · obtain ⟨sa, rfl⟩ := hconf
      cases hm with
      | configure =>
        obtain ⟨hacc, hsafe, hsettled, hstep⟩ := within_configure d hw ha hmem hg
        rw [hacc]
        exact ⟨_, hsafe, hsettled, hstep⟩
    · simp only [not_exists] at hconf
      have hacc : acceptedAfter a v d pc = d := by
        cases hm <;> first | rfl | exact absurd rfl (hconf _)
      rw [hacc]
      exact ⟨w, hw, hset, .update g hmem hg (hm.step hw ha hg.ret)
        (loading_step hg.ret hm hpc hconf)⟩

theorem within_idle {a : Answers} {gs : List Generation} {w v : World} {pc : Pc} (hpc : pc.Idle)
    (h : Within a gs w v pc) : v = w := by
  cases h with
  | returned ret => rfl
  | update g hmem hg hm hload => cases hm <;> first | exact hpc.elim | exact hload.elim
  | _ => exact hpc.elim

/-- A call begins within its own place. -/
theorem within_enter {c : Call} {a : Answers} {gs : List Generation} (w : World)
    (hg : ∀ g ∈ c.generation? a, g.Succeeds ∧ g ∈ gs) : Within a gs w w (c.enter a) := by
  cases c with
  | init config =>
    cases config with
    | none => exact .returned _
    | some config =>
      obtain ⟨hsucc, hmem⟩ := hg _ rfl
      exact .params config hmem hsucc
  | start => exact .startSet _
  | stop => exact .stopTest
  | updateData data =>
    obtain ⟨hsucc, hmem⟩ := hg _ rfl
    exact .update _ hmem hsucc (.generate 0) trivial

/-- **Every point of every run is sound.** -/
theorem sound_run {h : List (AirEvent × Option (List UInt8))} {s : Air} (hr : onAir.Run h s) :
    Sound s := by
  refine Mealy.runFrom_invariant (I := fun _ s => Sound s) ?_ (fun h s e o s' _ hs hn => ?_) hr
  · exact ⟨⟨rfl, rfl, rfl⟩, .boot, safe_boot, fun hh => absurd rfl hh, .returned 0⟩
  · obtain ⟨ha, w, hw, hset, hwithin⟩ := hs
    cases e with
    | call c get handle =>
      simp only [onAir, Option.ite_none_right_eq_some, Option.some.injEq, Prod.mk.injEq] at hn
      obtain ⟨⟨hidle, hg⟩, -, rfl⟩ := hn
      obtain hworld := within_idle hidle hwithin
      refine ⟨⟨rfl, rfl, rfl⟩, s.world.fresh, ?_, ?_, ?_⟩
      · rw [hworld]
        exact hw.fresh
      · refine Settled.congr (hset.mono fun g hmem => List.mem_append_left _ hmem) ?_ ?_ ?_ <;>
          rw [hworld] <;> rfl
      · refine within_enter _ fun g hmem => ⟨hg g hmem, List.mem_append_right _ ?_⟩
        exact Option.mem_toList.mpr hmem
    | tick =>
      simp only [onAir, Option.some.injEq, Prod.mk.injEq] at hn
      obtain ⟨-, rfl⟩ := hn
      exact ⟨ha, within_step ha hw hset hwithin⟩
    | radio =>
      simp only [onAir, Option.ite_none_right_eq_some, Option.some.injEq, Prod.mk.injEq] at hn
      obtain ⟨-, -, rfl⟩ := hn
      exact ⟨ha, w, hw, hset, hwithin⟩

/-! ### What is transmitted -/

/-- **One transmission**, at any place: it is the complete advertisement of a generation begun if and
only if the place is harmless. -/
theorem transmitted_iff {a : Answers} {d : List UInt8} {gs : List Generation} {w v : World}
    {pc : Pc} (hw : Safe w) (hset : Settled d gs w) (hwithin : Within a gs w v pc)
    (hadv : v.softdevice.advertising = true) :
    (∃ g ∈ gs, v.transmitted = advertisement g.serviceData) ↔ pc.Harmless d gs := by
  have hintact (hon : w.softdevice.advertising = true) :
      ∃ g ∈ gs, w.transmitted = advertisement g.serviceData := by
    obtain ⟨hload, g, hg, rfl⟩ := hset (hw.allocated hon)
    exact ⟨g, hg, transmitted_loads hw.framed hload⟩
  cases hwithin with
  | returned ret => exact iff_of_true (hintact hadv) trivial
  | startSet c => exact iff_of_true (hintact hadv) trivial
  | startCall c => exact iff_of_true (hintact hadv) trivial
  | stopTest => exact iff_of_true (hintact hadv) trivial
  | stopClear hh => exact iff_of_true (hintact hadv) trivial
  | stopCall hh => exact iff_of_true (hintact hadv) trivial
  | params config hmem hg => exact iff_of_true (hintact hadv) trivial
  | update g hmem hg hm hpc =>
    have hloads (hon : w.softdevice.advertising = true) : Loads w d :=
      (hset (hw.allocated hon)).1
    have hadvertisement (e : List UInt8) :
        (∃ g ∈ gs, advertisement e = advertisement g.serviceData) ↔
          ∃ g ∈ gs, e = g.serviceData := by
      simp only [advertisement_inj]
    have hloaded (hon : w.softdevice.advertising = true) :=
      transmitted_loaded_iff hw.framed (hloads hon) hmem hg
    cases hm with
    | generate k =>
      rw [transmitted_stored hw.framed (hloads hadv)]
      exact hadvertisement _
    | lengthByte =>
      have hstored := transmitted_stored hw.framed (hloads hadv) g.writes
      rw [show w.scribbled g = w.stored g.writes from rfl, hstored]
      exact hadvertisement _
    | describe => exact hloaded hadv
    | saveStarted => exact hloaded hadv
    | testStarted => exact hloaded hadv
    | stopTest hs => exact hloaded hadv
    | stopClear hs hh => exact hloaded hadv
    | stopCall hs hh => exact hloaded hadv
    | configure => exact absurd hadv (by simp [World.ready, World.halted, Softdevice.idle])
    | startSet hs => exact hpc.elim
    | startCall hs => exact hpc.elim
    | returned => exact hpc.elim

/-- **On-air integrity holds exactly along the harmless runs**: whatever the calls, the payloads and
the placement of the transmissions, everything a run transmits is the complete advertisement of one
generation if and only if each of its transmissions takes place at a harmless point. -/
theorem onAir_intact_iff (h : List (AirEvent × Option (List UInt8))) (s : Air) :
    onAir.RunWith Intact h s ↔ onAir.RunWith RadioHarmless h s := by
  refine Mealy.runWith_iff (fun h s e o s' hr _ hn => ?_) h s
  obtain ⟨-, w, hw, hset, hwithin⟩ := sound_run hr.run
  cases e with
  | call c get handle =>
    simp only [onAir, Option.ite_none_right_eq_some, Option.some.injEq, Prod.mk.injEq] at hn
    obtain ⟨-, rfl, -⟩ := hn
    simp [Intact, RadioHarmless]
  | tick =>
    simp only [onAir, Option.some.injEq, Prod.mk.injEq] at hn
    obtain ⟨rfl, -⟩ := hn
    simp [Intact, RadioHarmless]
  | radio =>
    simp only [onAir, Option.ite_none_right_eq_some, Option.some.injEq, Prod.mk.injEq] at hn
    obtain ⟨hadv, rfl, -⟩ := hn
    simpa [Intact, RadioHarmless] using transmitted_iff hw hset hwithin hadv

/-- Initialise with the service data `11 22` and start; then an update, with a transmission after the
first byte of `33 44` has been stored. -/
def mixedEvents : List AirEvent :=
  [.call (.init (some ⟨500, 500⟩)) (fun _ => .storing [0x11, 0x22]) Answers.storing.newHandle,
    .tick, .tick, .tick, .tick, .tick, .tick, .tick, .tick, .tick,
    .call .start (fun _ => .storing []) Answers.storing.newHandle, .tick, .tick,
    .call (.updateData []) (fun _ => .storing [0x33, 0x44]) Answers.storing.newHandle, .tick,
    .radio]

/-- A packet of two generations: the service data `11 22` is on air when the next generation, of
`33 44`, has stored its first byte; the transmission at that point sends `33 22`. -/
theorem mixed_packet :
    ∃ h s, onAir.Run h s ∧
      h.getLast?.bind Prod.snd = some (advertisement [0x33, 0x22]) ∧
      s.begun = [.storing [0x11, 0x22], .storing [0x33, 0x44]] ∧
      ∀ g ∈ s.begun, advertisement [0x33, 0x22] ≠ advertisement g.serviceData := by
  have hpacket : ((onAir.exec .boot mixedEvents).bind fun r => r.1.getLast?.bind Prod.snd) =
      some (advertisement [0x33, 0x22]) := by decide +kernel
  have hbegun : ((onAir.exec .boot mixedEvents).map fun r => r.2.begun) =
      some [.storing [0x11, 0x22], .storing [0x33, 0x44]] := rfl
  obtain ⟨⟨h, s⟩, hexec, hlast⟩ := Option.bind_eq_some_iff.mp hpacket
  rw [hexec, Option.map_some, Option.some.injEq] at hbegun
  refine ⟨h, s, Mealy.runFrom_of_exec hexec, hlast, hbegun, ?_⟩
  rw [hbegun]
  decide

end HubbleNordic
