import HubbleNordic.Crypto.Backend
import HubbleNordic.NoncePeriod

/-!
# What a repeated nonce gives away

The SDK encrypts an advertisement's payload with `hubble_crypto_aes_ctr`, under a key and a counter
block that it derives from the device key and the nonce `(EID counter, sequence number)`; `derive`
is that derivation, which is not part of the repository.

* `Keyed`: the port is called with the key and the counter block of a nonce;
* `keystream_repeats`: calls of `hubble_ble_advertise_get` with the same number in two boots, or a
  multiple of 36864 calls apart, use one keystream.
-/

namespace HubbleNordic

/-- The key and the counter block in memory are those derived from the nonce, if there is one. -/
def Keyed (derive : ℕ × ℕ → List UInt8 × List UInt8) (nonce : Option (ℕ × ℕ)) (b : CryptoBackend)
    (c : CtrArgs) (m : Memory) : Prop :=
  ∀ n ∈ nonce, (m.read ⟨c.key, b.keySize⟩,
    m.read ⟨c.nonceCounter, hubbleNonceBufferSize⟩) = derive n

/-- The text that is written under the key of a nonce. -/
theorem Keyed.text {derive : ℕ × ℕ → List UInt8 × List UInt8} {n : ℕ × ℕ} {b : CryptoBackend}
    {c : CtrArgs} {m : Memory} (hk : Keyed derive (some n) b c m) (A : Aes) :
    c.text A b.keySize m = A.ctr.crypt (derive n).1 (derive n).2 (m.read ⟨c.data, c.len⟩) := by
  rw [CtrArgs.text, ← hk n rfl]

/-- **Every boot encrypts under the keystreams of the one before**: in any two runs in which every
call emits, whatever the delays and the payloads, two calls whose numbers agree modulo 36864 write
ciphertexts that differ in exactly the bits in which their payloads do. -/
theorem keystream_repeats (A : Aes) (derive : ℕ × ℕ → List UInt8 × List UInt8)
    {h h' : List (DeviceEvent × NonceReport)} {s s' : Device}
    (hr : device.Run h s) (he : ∀ er ∈ h, Emits er) (hr' : device.Run h' s')
    (he' : ∀ er ∈ h', Emits er) {i j : ℕ} {x y : DeviceEvent × NonceReport}
    (hi : h[i]? = some x) (hj : h'[j]? = some y) (hij : i % cycleCalls = j % cycleCalls)
    {b b' : CryptoBackend} {c c' : CtrArgs} {m m' : Memory} (hclear : b.Clear c)
    (hclear' : b'.Clear c') (hkeyed : Keyed derive x.2.nonce b c m)
    (hkeyed' : Keyed derive y.2.nonce b' c' m') (hret : (b.aesCtr A c m).1 = 0)
    (hret' : (b'.aesCtr A c' m').1 = 0) :
    List.zipWith (· ^^^ ·) ((b.aesCtr A c m).2.read ⟨c.output, c.len⟩)
        ((b'.aesCtr A c' m').2.read ⟨c'.output, c'.len⟩) =
      List.zipWith (· ^^^ ·) (m.read ⟨c.data, c.len⟩) (m'.read ⟨c'.data, c'.len⟩) := by
  rw [(emitting_run hr he).nonce i x hi] at hkeyed
  rw [(emitting_run hr' he').nonce j y hj, ← callNonce_eq_iff.mpr hij] at hkeyed'
  rw [(aesCtr_spec A b hclear m).text hret, (aesCtr_spec A b' hclear' m').text hret',
    hkeyed.text, hkeyed'.text]
  exact A.ctr.xor_crypt _ _ _ _

/-- The second calls of two boots send `300` and `512`. -/
theorem keystream_repeats_second :
    ∃ m m' : Memory,
      List.zipWith (· ^^^ ·)
        (((CryptoBackend.nrf ⟨0, 0, []⟩).aesCtr .zeroKey ⟨0, 16, 32, 3, 64⟩ m).2.read ⟨64, 3⟩)
        (((CryptoBackend.nrf ⟨0, 0, []⟩).aesCtr .zeroKey ⟨0, 16, 32, 3, 64⟩ m').2.read ⟨64, 3⟩) =
      List.zipWith (· ^^^ ·) [0x33, 0x30, 0x30] [0x35, 0x31, 0x32] := by
  have hrun : ∃ h s x, device.Run h s ∧ (∀ er ∈ h, Emits er) ∧ h[1]? = some x :=
    ⟨_, _, _, Mealy.runFrom_of_exec (M := device) (s := ⟨.boot, 0, 0⟩)
      (l := [.init .emitted, .firing 9830400 9830400 .emitted]) rfl, by simp [Emits], rfl⟩
  obtain ⟨h, s, x, hr, he, hx⟩ := hrun
  have hread (d : List UInt8) (hd : d.length = 3) :
      (Memory.store (fun _ => 0) 32 d).read ⟨32, 3⟩ = d := by
    have := Memory.read_store (fun _ => 0) 32 d
    rwa [hd] at this
  have hclear : (CryptoBackend.nrf ⟨0, 0, []⟩).Clear ⟨0, 16, 32, 3, 64⟩ :=
    fun _ h => absurd h List.not_mem_nil
  have hkeyed (d : List UInt8) : Keyed (fun _ => (List.replicate 16 0, List.replicate 16 0))
      x.2.nonce (.nrf ⟨0, 0, []⟩) ⟨0, 16, 32, 3, 64⟩ (Memory.store (fun _ => 0) 32 d) := by
    have hzero (p : ℕ) (hp : p + 16 ≤ 32) :
        (Memory.store (fun _ => 0) 32 d).read ⟨p, 16⟩ = List.replicate 16 0 := by
      refine ((Memory.sameOutside_store (b := ⟨32, d.length⟩) _ le_rfl).read ?_).trans rfl
      intro b hb
      rw [List.mem_singleton.mp hb]
      exact Or.inr hp
    exact fun n _ => Prod.ext (hzero 0 (by norm_num)) (hzero 16 (by norm_num))
  refine ⟨Memory.store (fun _ => 0) 32 [0x33, 0x30, 0x30],
    Memory.store (fun _ => 0) 32 [0x35, 0x31, 0x32], ?_⟩
  rw [← hread [0x33, 0x30, 0x30] rfl, ← hread [0x35, 0x31, 0x32] rfl]
  exact keystream_repeats .zeroKey _ hr he hr he hx hx rfl hclear hclear (hkeyed _) (hkeyed _)
    rfl rfl

end HubbleNordic
