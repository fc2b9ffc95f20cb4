import Mathlib.Tactic

/-!
# The SoftDevice's advertising set, as the application sees it

The SoftDevice is not part of the repository; this module states the contract the application
relies on.  Every call takes the result the SoftDevice would like to return (`answer`, with
`nrfSuccess` for "as the contract allows") and is refused where the contract refuses it:

* `sd_ble_gap_adv_set_configure` allocates a set and assigns its handle, or reconfigures the set
  of a known handle; it never starts a set and refuses an advertising one;
* `sd_ble_gap_adv_start` makes a configured idle set advertise;
* `sd_ble_gap_adv_stop` makes an advertising set idle;
* a call that returns an error changes nothing.

The advertising data is not copied: a set remembers the length it accepted, and the bytes on air
are read from the application's buffer at the instant of a transmission.
-/

namespace HubbleNordic

/-- `BLE_GAP_ADV_SET_DATA_SIZE_MAX`: the size of a legacy advertisement. -/
abbrev bleGapAdvSetDataSizeMax : ℕ := 31

/-- `BLE_GAP_ADV_SET_HANDLE_NOT_SET`. -/
def bleGapAdvSetHandleNotSet : UInt8 := 0xFF

/-- `NRF_SUCCESS`. -/
def nrfSuccess : UInt32 := 0

/-- `NRF_ERROR_NO_MEM`: every advertising set is taken. -/
def nrfErrorNoMem : UInt32 := 4

/-- `NRF_ERROR_INVALID_STATE`: the set is advertising, or is not. -/
def nrfErrorInvalidState : UInt32 := 8

/-- `BLE_ERROR_INVALID_ADV_HANDLE`: the handle is unknown. -/
def bleErrorInvalidAdvHandle : UInt32 := 0x3004

/-- `ble_gap_adv_params_t`, the fields the application sets. -/
structure GapAdvParams where
  type : UInt8
  pPeerAddr : Option (List UInt8)
  filterPolicy : UInt8
  interval : UInt32
  duration : UInt16
  primaryPhy : UInt8
  maxAdvEvts : UInt8
  deriving DecidableEq

/-- A zeroed `ble_gap_adv_params_t`. -/
def GapAdvParams.zero : GapAdvParams := ⟨0, none, 0, 0, 0, 0, 0⟩

/-- A set with these parameters never ends by itself. -/
def GapAdvParams.Endless (p : GapAdvParams) : Prop := p.duration = 0 ∧ p.maxAdvEvts = 0

instance (p : GapAdvParams) : Decidable p.Endless :=
  inferInstanceAs (Decidable (_ ∧ _))

/-- The SoftDevice's side of the advertising set: its handle once it is allocated, the length and
the parameters last accepted, and whether it is advertising. -/
structure Softdevice where
  handle : Option UInt8
  len : UInt16
  params : GapAdvParams
  advertising : Bool
  deriving DecidableEq

namespace Softdevice

/-- No set is allocated. -/
def boot : Softdevice := ⟨none, 0, .zero, false⟩

/-- `h` is the handle of an advertising set. -/
def OnAir (sd : Softdevice) (h : UInt8) : Prop := sd.handle = some h ∧ sd.advertising = true

instance (sd : Softdevice) (h : UInt8) : Decidable (sd.OnAir h) :=
  inferInstanceAs (Decidable (_ ∧ _))

/-- The same set, not advertising. -/
def idle (sd : Softdevice) : Softdevice := { sd with advertising := false }

theorem idle_eq {sd : Softdevice} (h : sd.advertising = false) : sd.idle = sd := by
  simp [idle, ← h]

/-- The result of a call on an unknown handle, or in the wrong state. -/
def refusal (sd : Softdevice) (h : UInt8) : UInt32 :=
  if sd.handle = some h then nrfErrorInvalidState else bleErrorInvalidAdvHandle

/-- `sd_ble_gap_adv_set_configure` with the handle `h`; `newHandle` is the handle a newly
allocated set gets.  Returns the result, the handle afterwards and the new state. -/
def configure (sd : Softdevice) (answer : UInt32) (newHandle h : UInt8) (len : UInt16)
    (params : GapAdvParams) : UInt32 × UInt8 × Softdevice :=
  if answer ≠ nrfSuccess then (answer, h, sd)
  else if h = bleGapAdvSetHandleNotSet then
    if sd.handle = none then
      (nrfSuccess, newHandle, { sd with handle := some newHandle, len := len, params := params })
    else (nrfErrorNoMem, h, sd) -- there is one set only
  else if sd.handle = some h ∧ sd.advertising = false then
    (nrfSuccess, h, { sd with len := len, params := params })
  else (sd.refusal h, h, sd)

/-- `sd_ble_gap_adv_start`. -/
def start (sd : Softdevice) (answer : UInt32) (h : UInt8) : UInt32 × Softdevice :=
  if answer ≠ nrfSuccess then (answer, sd)
  else if sd.handle = some h ∧ sd.advertising = false then
    (nrfSuccess, { sd with advertising := true })
  else (sd.refusal h, sd)

/-- `sd_ble_gap_adv_stop`. -/
def stop (sd : Softdevice) (answer : UInt32) (h : UInt8) : UInt32 × Softdevice :=
  if answer ≠ nrfSuccess then (answer, sd)
  else if sd.OnAir h then (nrfSuccess, { sd with advertising := false })
  else (sd.refusal h, sd)

theorem refusal_ne_success (sd : Softdevice) (h : UInt8) : sd.refusal h ≠ nrfSuccess := by
  unfold refusal
  split_ifs <;> decide

/-- What `sd_ble_gap_adv_set_configure` can do. -/
theorem configure_cases (sd : Softdevice) (answer : UInt32) (newHandle h : UInt8) (len : UInt16)
    (params : GapAdvParams) :
    (h = bleGapAdvSetHandleNotSet ∧ sd.handle = none ∧
      sd.configure answer newHandle h len params =
        (nrfSuccess, newHandle,
          { sd with handle := some newHandle, len := len, params := params })) ∨
    (sd.handle = some h ∧ sd.advertising = false ∧
      sd.configure answer newHandle h len params =
        (nrfSuccess, h, { sd with len := len, params := params })) ∨
    (∃ err, err ≠ nrfSuccess ∧ sd.configure answer newHandle h len params = (err, h, sd)) := by
  unfold configure
  split_ifs with h1 h2 h3 h4
  · exact Or.inr (Or.inr ⟨answer, h1, rfl⟩)
  · exact Or.inl ⟨h2, h3, rfl⟩
  · exact Or.inr (Or.inr ⟨nrfErrorNoMem, by decide, rfl⟩)
  · exact Or.inr (Or.inl ⟨h4.1, h4.2, rfl⟩)
  · exact Or.inr (Or.inr ⟨_, sd.refusal_ne_success h, rfl⟩)

/-- What `sd_ble_gap_adv_start` can do. -/
theorem start_cases (sd : Softdevice) (answer : UInt32) (h : UInt8) :
    (answer = nrfSuccess ∧ sd.handle = some h ∧ sd.advertising = false ∧
      sd.start answer h = (nrfSuccess, { sd with advertising := true })) ∨
    (∃ err, err ≠ nrfSuccess ∧ sd.start answer h = (err, sd)) := by
  unfold start
  split_ifs with h1 h2
  · exact Or.inr ⟨answer, h1, rfl⟩
  · exact Or.inl ⟨not_not.mp h1, h2.1, h2.2, rfl⟩
  · exact Or.inr ⟨_, sd.refusal_ne_success h, rfl⟩

/-- What `sd_ble_gap_adv_stop` can do. -/
theorem stop_cases (sd : Softdevice) (answer : UInt32) (h : UInt8) :
    (answer = nrfSuccess ∧ sd.OnAir h ∧
      sd.stop answer h = (nrfSuccess, { sd with advertising := false })) ∨
    ((answer = nrfSuccess → ¬ sd.OnAir h) ∧
      ∃ err, err ≠ nrfSuccess ∧ sd.stop answer h = (err, sd)) := by
  unfold stop
  split_ifs with h1 h2
  · exact Or.inr ⟨fun h => absurd h h1, answer, h1, rfl⟩
  · exact Or.inl ⟨not_not.mp h1, h2, rfl⟩
  · exact Or.inr ⟨fun _ => h2, _, sd.refusal_ne_success h, rfl⟩

end Softdevice

end HubbleNordic
