import HubbleNordic.Mealy
import HubbleNordic.Advertiser.Buffer

/-!
# The advertiser: `hubble_advertiser.c`

The four API functions, as the source has them, over a `World` that holds the file's static
variables and the SoftDevice.  The SDK's generator and the SoftDevice answer each call as an
`Answers` record says; quantifying over it quantifies over payloads and outcomes.

* `hubbleAdvertiserInit`, `hubbleAdvertiserStart`, `hubbleAdvertiserStop`,
  `hubbleAdvertiserUpdateData`;
* `Call`, `Event`, `Report` and the machine `advertiser` whose runs are the sequences of completed
  API calls from boot;
* `Lawful` and `lawfulAdvertiser`: the runs in which the SoftDevice keeps to the contract that
  stopping an advertising set succeeds.
-/

namespace HubbleNordic

/-- `EAGAIN`. -/
def eagain : Int32 := 11

/-- `EINVAL`. -/
def einval : Int32 := 22

/-- `hubble_advertiser_config_t`. -/
structure HubbleAdvertiserConfig where
  intervalMin : UInt32
  intervalMax : UInt32

/-- How the SDK and the SoftDevice answer the calls made inside one API call. -/
structure Answers where
  /-- What `hubble_ble_advertise_get` does with the payload it is given. -/
  advertiseGet : List UInt8 → Generation
  /-- The result `sd_ble_gap_adv_set_configure` would like to return. -/
  configure : UInt32
  /-- The handle it assigns when it allocates a set. -/
  newHandle : {h : UInt8 // h ≠ bleGapAdvSetHandleNotSet}
  /-- The result `sd_ble_gap_adv_start` would like to return. -/
  start : UInt32
  /-- The result `sd_ble_gap_adv_stop` would like to return. -/
  stop : UInt32

/-- All calls succeed whenever the SoftDevice's contract allows it. -/
def Answers.success (get : List UInt8 → Generation)
    (handle : {h : UInt8 // h ≠ bleGapAdvSetHandleNotSet}) : Answers :=
  ⟨get, nrfSuccess, handle, nrfSuccess, nrfSuccess⟩

/-- A generator run that stores the bytes of `d`, as far as they fit, and returns 0. -/
def Generation.storing (d : List UInt8) : Generation where
  writes := (List.finRange outCapacity).filterMap fun i => d[i.val]?.map fun b => (i, b)
  ret := 0
  outLen := ⟨min d.length outCapacity, by omega⟩

/-- Every call succeeds where it may, and the generator stores its payload. -/
def Answers.storing : Answers := .success Generation.storing ⟨0, by decide⟩

/-- A SoftDevice call the advertiser made: the SoftDevice's state before it, the handle it was
made on and the result; for `sd_ble_gap_adv_set_configure` also the bytes behind `p_data` at the
time of the call, and `len`. -/
inductive SdCall
  | configure (before : Softdevice) (handle : UInt8) (pData : AdvBuffer) (len : UInt16)
      (err : UInt32)
  | start (before : Softdevice) (handle : UInt8) (err : UInt32)
  | stop (before : Softdevice) (handle : UInt8) (err : UInt32)

/-- The static variables of `hubble_advertiser.c` and the SoftDevice; `calls` lists the SoftDevice
calls made by the API call in progress, or by the last one. -/
structure World where
  hubbleAdvBuffer : AdvBuffer
  mAdvHandle : UInt8
  mGapParams : GapAdvParams
  mStarted : Bool
  softdevice : Softdevice
  calls : List SdCall

namespace World

/-- The static initialisers. -/
def boot : World := ⟨.boot, bleGapAdvSetHandleNotSet, .zero, false, .boot, []⟩

/-- The bytes a transmission sends: the accepted length, read from the live buffer. -/
def transmitted (w : World) : List UInt8 := w.hubbleAdvBuffer.prefixBytes w.softdevice.len

end World

/-! ### The calls to the SDK and the SoftDevice -/

variable (a : Answers)

/-- `hubble_ble_advertise_get(data, len, &_hubble_adv_buffer[6], &out_len)`: what it returns, and
`out_len` afterwards. -/
def hubbleBleAdvertiseGet (data : List UInt8) (w : World) : Int32 × ℕ × World :=
  let g := a.advertiseGet data
  (g.ret, g.outLen, { w with hubbleAdvBuffer := w.hubbleAdvBuffer.writeAll g.writes })

/-- `sd_ble_gap_adv_set_configure(&m_adv_handle, &gap_data, &m_gap_params)`, where `gap_data`
points to `_hubble_adv_buffer` and has the length `len`. -/
def sdBleGapAdvSetConfigure (len : UInt16) (w : World) : UInt32 × World :=
  let (err, h, sd) :=
    w.softdevice.configure a.configure a.newHandle w.mAdvHandle len w.mGapParams
  (err, { w with
    mAdvHandle := h
    softdevice := sd
    calls := w.calls ++ [.configure w.softdevice w.mAdvHandle w.hubbleAdvBuffer len err] })

/-- `sd_ble_gap_adv_start(m_adv_handle, APP_BLE_CONN_CFG_TAG)`. -/
def sdBleGapAdvStart (w : World) : UInt32 × World :=
  let (err, sd) := w.softdevice.start a.start w.mAdvHandle
  (err, { w with
    softdevice := sd
    calls := w.calls ++ [.start w.softdevice w.mAdvHandle err] })

/-- `sd_ble_gap_adv_stop(m_adv_handle)`. -/
def sdBleGapAdvStop (w : World) : UInt32 × World :=
  let (err, sd) := w.softdevice.stop a.stop w.mAdvHandle
  (err, { w with
    softdevice := sd
    calls := w.calls ++ [.stop w.softdevice w.mAdvHandle err] })

/-! ### The API functions -/

/-- `hubble_advertiser_start`. -/
def hubbleAdvertiserStart (w : World) : Int32 × World :=
  let w := { w with mStarted := true }
  let (err, w) := sdBleGapAdvStart a w
  (-err.toInt32, w)

/-- `hubble_advertiser_stop`. -/
def hubbleAdvertiserStop (w : World) : Int32 × World :=
  if w.mAdvHandle = bleGapAdvSetHandleNotSet then (-eagain, w)
  else
    let w := { w with mStarted := false }
    let (err, w) := sdBleGapAdvStop a w
    (-err.toInt32, w)

/-- `hubble_advertiser_update_data`. -/
def hubbleAdvertiserUpdateData (data : List UInt8) (w : World) : Int32 × World :=
  let (ret, outLen, w) := hubbleBleAdvertiseGet a data w
  if ret ≠ 0 then (ret, w)
  else
    let w := { w with hubbleAdvBuffer := w.hubbleAdvBuffer.setLength (UInt8.ofNat (outLen + 1)) }
    let len := UInt16.ofNat (outLen + 6)
    let startAfter := w.mStarted
    let w := if w.mStarted then (hubbleAdvertiserStop a w).2 else w -- its result is dropped
    let (err, w) := sdBleGapAdvSetConfigure a len w
    if err ≠ nrfSuccess then (-err.toInt32, w)
    else
      -- so is that of the start
      let w := if startAfter then (hubbleAdvertiserStart a w).2 else w
      (0, w)

/-- The assignments to `m_gap_params` in `hubble_advertiser_init`. -/
def initGapParams (config : HubbleAdvertiserConfig) (w : World) : World :=
  { w with
    mGapParams :=
      { w.mGapParams with
        type := 0x05 -- BLE_GAP_ADV_TYPE_NONCONNECTABLE_NONSCANNABLE_UNDIRECTED
        pPeerAddr := none
        filterPolicy := 0x00 -- BLE_GAP_ADV_FP_ANY
        interval := config.intervalMin
        duration := 0
        primaryPhy := 0x01 -- BLE_GAP_PHY_1MBPS
        maxAdvEvts := 0 } }

/-- `hubble_advertiser_init`; `none` is the null pointer. -/
def hubbleAdvertiserInit (config : Option HubbleAdvertiserConfig) (w : World) : Int32 × World :=
  match config with
  | none => (-einval, w)
  | some config => hubbleAdvertiserUpdateData a [] (initGapParams config w)

/-! ### Runs of API calls -/

/-- An API call. -/
inductive Call
  | init (config : Option HubbleAdvertiserConfig)
  | start
  | stop
  | updateData (data : List UInt8)

/-- What happens in a run: a complete API call, or the SoftDevice ending the advertising set by
itself, which it may do only to a set that has a duration or a number of events. -/
inductive Event
  | call (c : Call) (a : Answers)
  | advSetTerminated

/-- What an event shows: the value the call returned, the SoftDevice calls it made, and the service
data its generator left in the buffer, where it returned 0. -/
structure Report where
  ret : Int32
  calls : List SdCall
  generated : Option (List UInt8)

namespace Call

/-- The body of the call. -/
def exec (a : Answers) : Call → World → Int32 × World
  | .init config => hubbleAdvertiserInit a config
  | .start => hubbleAdvertiserStart a
  | .stop => hubbleAdvertiserStop a
  | .updateData data => hubbleAdvertiserUpdateData a data

/-- The payload the call hands to the generator, if it comes to that: the call is a refresh. -/
def payload? : Call → Option (List UInt8)
  | .init (some _) => some []
  | .updateData data => some data
  | _ => none

/-- The generator run of a refresh. -/
def generation? (c : Call) (a : Answers) : Option Generation := c.payload?.map a.advertiseGet

/-- The service data the call's generator leaves in the buffer of `w`, where it returns 0. -/
def generated (c : Call) (a : Answers) (w : World) : Option (List UInt8) :=
  (c.generation? a).bind fun g => if g.ret = 0 then some (g.output w.hubbleAdvBuffer) else none

end Call

/-- The advertiser under any answers; an API call starts with an empty list of SoftDevice calls. -/
def advertiser : Mealy World Event Report where
  init := .boot
  next w
    | .call c a =>
        let (ret, w') := c.exec a { w with calls := [] }
        some (⟨ret, w'.calls, c.generated a w⟩, w')
    | .advSetTerminated =>
        if w.softdevice.advertising = true ∧ ¬ w.softdevice.params.Endless then
          some (⟨0, [], none⟩, { w with softdevice := { w.softdevice with advertising := false } })
        else none

/-- The SoftDevice keeps to its contract on `sd_ble_gap_adv_stop`: it fails only on an unknown
handle or an idle set.  An API call makes no other SoftDevice call before its stop. -/
def Lawful (w : World) : Event → Prop
  | .call _ a => a.stop ≠ nrfSuccess → ¬ w.softdevice.OnAir w.mAdvHandle
  | .advSetTerminated => True

instance (w : World) (e : Event) : Decidable (Lawful w e) := by
  cases e <;> unfold Lawful <;> infer_instance

/-- The advertiser over a SoftDevice that keeps to its contract. -/
def lawfulAdvertiser : Mealy World Event Report := advertiser.restrict Lawful

end HubbleNordic
