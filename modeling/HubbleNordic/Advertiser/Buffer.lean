import HubbleNordic.Softdevice

/-!
# The advertisement buffer

`_hubble_adv_buffer` of `hubble_advertiser.c`: 31 bytes, the first six of them a fixed header
around the length byte at index 4; the SDK's generator writes the service data behind them,
straight into the buffer.

* `AdvBuffer`, `boot`, `setLength`, `writeOut`, `outRange`;
* `Generation`: one run of `hubble_ble_advertise_get`, as the byte writes it makes and what it
  returns; the type lets it write nowhere outside the out range;
* `Framed`: the five bytes around the length byte are as initialised.  Nothing the application
  does changes them, so a framed buffer is its length byte and its out range.
-/

namespace HubbleNordic

/-- `AD_TYPE_COMPLETE_16BIT_UUIDS`. -/
def adTypeComplete16bitUuids : UInt8 := 0x03

/-- `AD_TYPE_SERVICE_DATA`. -/
def adTypeServiceData : UInt8 := 0x16

/-- The out range handed to the generator: `sizeof(_hubble_adv_buffer) - 6`. -/
abbrev outCapacity : ℕ := bleGapAdvSetDataSizeMax - 6

/-- The bytes of `_hubble_adv_buffer`. -/
abbrev AdvBuffer := Vector UInt8 bleGapAdvSetDataSizeMax

/-- A byte stored by the generator: an index into the out range and the byte. -/
abbrev Write := Fin outCapacity × UInt8

/-- The bytes in front of the service data, with `l` for the length byte. -/
def header (l : UInt8) : List UInt8 :=
  [0x03, adTypeComplete16bitUuids, 0xA6, 0xFC, l, adTypeServiceData]

/-- The complete advertisement carrying the service data `d`. -/
def advertisement (d : List UInt8) : List UInt8 := header (UInt8.ofNat (d.length + 1)) ++ d

@[simp] theorem header_length (l : UInt8) : (header l).length = 6 := rfl

theorem header_injective : Function.Injective header := by
  intro a b h
  simpa [header] using h

/-- Advertisements of the size of the buffer are told apart by their service data. -/
theorem advertisement_injective {d e : List UInt8} (h : advertisement d = advertisement e) :
    d = e := by
  have := congrArg (List.drop 6) h
  simpa [advertisement, List.drop_left' (header_length _)] using this

/-- The generator's writes on the bytes of an out range; an index past the end is ignored. -/
def overlay (ws : List Write) (d : List UInt8) : List UInt8 :=
  ws.foldl (fun d w => d.set w.1.val w.2) d

@[simp] theorem overlay_nil (d : List UInt8) : overlay [] d = d := rfl

@[simp] theorem overlay_cons (w : Write) (ws : List Write) (d : List UInt8) :
    overlay (w :: ws) d = overlay ws (d.set w.1.val w.2) := rfl

theorem overlay_append (vs ws : List Write) (d : List UInt8) :
    overlay (vs ++ ws) d = overlay ws (overlay vs d) := by
  simp [overlay, List.foldl_append]

@[simp] theorem overlay_length (ws : List Write) (d : List UInt8) :
    (overlay ws d).length = d.length := by
  induction ws generalizing d with
  | nil => rfl
  | cons w ws ih => simp [ih]

/-- A prefix of the out range sees only the writes that fall into it. -/
theorem take_overlay (ws : List Write) (d : List UInt8) (n : ℕ) :
    (overlay ws d).take n = overlay ws (d.take n) := by
  induction ws generalizing d with
  | nil => rfl
  | cons w ws ih => rw [overlay_cons, ih, overlay_cons, List.take_set]

/-- Two out ranges agree after the same writes wherever they agreed before or were written. -/
theorem overlay_congr {ws : List Write} {d e : List UInt8} (hlen : d.length = e.length) {i : ℕ}
    (h : d[i]? = e[i]? ∨ ∃ w ∈ ws, w.1.val = i) : (overlay ws d)[i]? = (overlay ws e)[i]? := by
  induction ws generalizing d e with
  | nil => simpa using h
  | cons w ws ih =>
    rw [overlay_cons, overlay_cons]
    refine ih (by simpa using hlen) ?_
    by_cases hi : w.1.val = i
    · left
      simp [List.getElem?_set, hi, hlen]
    · rcases h with h | ⟨v, hv, hvi⟩
      · left
        simp [hi, h]
      · rcases List.mem_cons.mp hv with rfl | hv
        · exact absurd hvi hi
        · exact Or.inr ⟨v, hv, hvi⟩

/-- Writes that store every byte leave nothing of the old ones. -/
theorem overlay_eq_of_stored {ws : List Write} {d e : List UInt8} (hlen : d.length = e.length)
    (h : ∀ i < d.length, ∃ w ∈ ws, w.1.val = i) : overlay ws d = overlay ws e := by
  apply List.ext_getElem?
  intro i
  by_cases hi : i < d.length
  · exact overlay_congr hlen (Or.inr (h i hi))
  · rw [List.getElem?_eq_none (by simpa using hi), List.getElem?_eq_none (by simpa [← hlen] using hi)]

namespace AdvBuffer

/-- The initial contents. -/
def boot : AdvBuffer :=
  ⟨#[0x03, adTypeComplete16bitUuids, 0xA6, 0xFC, 0x01, adTypeServiceData,
    0, 0, 0, 0, 0, 0, 0, 0, 0, 0, 0, 0, 0, 0, 0, 0, 0, 0, 0, 0, 0, 0, 0, 0, 0], rfl⟩

theorem outIndex_lt (i : Fin outCapacity) : 6 + i.val < bleGapAdvSetDataSizeMax := by
  have := i.isLt
  simp only [outCapacity, bleGapAdvSetDataSizeMax] at this ⊢
  omega

/-- `_hubble_adv_buffer[4] = l`. -/
def setLength (b : AdvBuffer) (l : UInt8) : AdvBuffer := b.set 4 l

/-- The generator stores a byte: `(&_hubble_adv_buffer[6])[w.1] = w.2`. -/
def writeOut (b : AdvBuffer) (w : Write) : AdvBuffer := b.set (6 + w.1.val) w.2 (outIndex_lt w.1)

/-- The generator stores bytes one after the other. -/
def writeAll (b : AdvBuffer) (ws : List Write) : AdvBuffer := ws.foldl writeOut b

/-- The bytes from `&_hubble_adv_buffer[6]` on. -/
def outRange (b : AdvBuffer) : List UInt8 := b.toList.drop 6

/-- The first `len` bytes, as a transmission reads them. -/
def prefixBytes (b : AdvBuffer) (len : UInt16) : List UInt8 := b.toList.take len.toNat

/-- The bytes around the length byte are as initialised. -/
def Framed (b : AdvBuffer) : Prop := b.toList = header b[4] ++ b.outRange

instance (b : AdvBuffer) : Decidable b.Framed := inferInstanceAs (Decidable (_ = _))

@[simp] theorem outRange_length (b : AdvBuffer) : b.outRange.length = outCapacity := by
  simp [outRange]

theorem framed_boot : boot.Framed := by decide

/-! ### The length byte -/

@[simp] theorem setLength_four (b : AdvBuffer) (l : UInt8) : (b.setLength l)[4] = l := by
  simp [setLength]

@[simp] theorem outRange_setLength (b : AdvBuffer) (l : UInt8) :
    (b.setLength l).outRange = b.outRange := by
  simp [setLength, outRange, Vector.toList_set, List.drop_set]

theorem Framed.setLength {b : AdvBuffer} (hb : b.Framed) (l : UInt8) : (b.setLength l).Framed := by
  have h : (b.setLength l).toList = b.toList.set 4 l := Vector.toList_set ..
  rw [Framed, h, hb, outRange_setLength, setLength_four]
  rfl

/-! ### The service data -/

@[simp] theorem writeOut_four (b : AdvBuffer) (w : Write) : (b.writeOut w)[4] = b[4] := by
  simp only [writeOut]
  exact Vector.getElem_set_ne _ _ (by omega)

@[simp] theorem outRange_writeOut (b : AdvBuffer) (w : Write) :
    (b.writeOut w).outRange = b.outRange.set w.1.val w.2 := by
  simp [writeOut, outRange, Vector.toList_set, List.drop_set]

theorem Framed.writeOut {b : AdvBuffer} (hb : b.Framed) (w : Write) : (b.writeOut w).Framed := by
  have h : (b.writeOut w).toList = b.toList.set (6 + w.1.val) w.2 :=
    Vector.toList_set ..
  rw [Framed, h, hb, outRange_writeOut, writeOut_four,
    List.set_append_right _ _ (by simp), header_length, Nat.add_sub_cancel_left]

@[simp] theorem writeAll_four (b : AdvBuffer) (ws : List Write) : (b.writeAll ws)[4] = b[4] := by
  induction ws generalizing b with
  | nil => rfl
  | cons w ws ih => exact (ih _).trans (writeOut_four b w)

@[simp] theorem outRange_writeAll (b : AdvBuffer) (ws : List Write) :
    (b.writeAll ws).outRange = overlay ws b.outRange := by
  induction ws generalizing b with
  | nil => rfl
  | cons w ws ih => exact (ih _).trans (by rw [outRange_writeOut, overlay_cons])

theorem Framed.writeAll {b : AdvBuffer} (hb : b.Framed) (ws : List Write) :
    (b.writeAll ws).Framed := by
  induction ws generalizing b with
  | nil => exact hb
  | cons w ws ih => exact ih (hb.writeOut w)

/-- What a transmission of `n` bytes of service data reads off a framed buffer. -/
theorem Framed.prefixBytes {b : AdvBuffer} (hb : b.Framed) {n : ℕ} (hn : n ≤ outCapacity) :
    b.prefixBytes (UInt16.ofNat (n + 6)) = header b[4] ++ b.outRange.take n := by
  have hlt : n + 6 < UInt16.size := by
    simp only [outCapacity, bleGapAdvSetDataSizeMax, UInt16.size] at *
    omega
  rw [AdvBuffer.prefixBytes, UInt16.toNat_ofNat_of_lt' hlt, hb, List.take_append,
    List.take_of_length_le (by simp), header_length, Nat.add_sub_cancel]

end AdvBuffer

/-! ### The generator -/

/-- One run of `hubble_ble_advertise_get`: the bytes it stores into the out range, in order, what
it returns, and the `*out_len` it sets on success. -/
structure Generation where
  writes : List Write
  ret : Int32
  outLen : Fin (outCapacity + 1)

namespace Generation

theorem outLen_le (g : Generation) : g.outLen.val ≤ outCapacity := Nat.lt_succ_iff.mp g.outLen.isLt

/-- The service data a successful run leaves behind in the buffer `b`. -/
def output (g : Generation) (b : AdvBuffer) : List UInt8 :=
  (b.writeAll g.writes).outRange.take g.outLen.val

@[simp] theorem output_length (g : Generation) (b : AdvBuffer) :
    (g.output b).length = g.outLen.val := by
  simpa [output] using g.outLen_le

theorem output_eq (g : Generation) (b : AdvBuffer) :
    g.output b = overlay g.writes (b.outRange.take g.outLen.val) := by
  rw [output, AdvBuffer.outRange_writeAll, take_overlay]

/-- Every byte of the output is stored by the run itself. -/
def Covers (g : Generation) : Prop := ∀ i < g.outLen.val, ∃ w ∈ g.writes, w.1.val = i

instance (g : Generation) : Decidable g.Covers := by unfold Covers; infer_instance

/-- The output of a run that stores every byte of it. -/
def serviceData (g : Generation) : List UInt8 :=
  overlay g.writes (List.replicate g.outLen.val 0)

@[simp] theorem serviceData_length (g : Generation) :
    g.serviceData.length = g.outLen.val := by
  simp [serviceData]

/-- A run that stores every byte of its output leaves it on any old bytes. -/
theorem Covers.overlay_eq {g : Generation} (hg : g.Covers) {d : List UInt8}
    (hd : d.length = g.outLen.val) : overlay g.writes d = g.serviceData :=
  overlay_eq_of_stored (by simpa using hd) (by rwa [hd])

theorem Covers.output_eq {g : Generation} (hg : g.Covers) (b : AdvBuffer) :
    g.output b = g.serviceData := by
  rw [g.output_eq]
  exact hg.overlay_eq (by simpa using g.outLen_le)

end Generation

end HubbleNordic
