import HubbleNordic.CounterMode
import HubbleNordic.Memory
import HubbleNordic.Softdevice

/-!
# The crypto ports: `hubble_crypto_nrf.c`, `hubble_crypto_cc310.c`, `hubble_crypto_oberon.c`

A build links one of three implementations of the SDK's crypto port, each over an engine that is not
part of the repository.  The engines compute one `Aes`; apart from that an engine returns what it
likes, and one that fails may have written any bytes within the output it was given.

* `hubbleCryptoZeroize`, the same in all three files, and `hubbleCryptoZeroize_eq`;
* `Nrf`, `Cc310`, `Oberon`: `hubble_crypto_init`, `hubble_crypto_aes_ctr`, `hubble_crypto_cmac` of
  each file.
-/

namespace HubbleNordic

/-- `EIO`. -/
def eio : Int32 := 5

/-- `NRF_ERROR_MODULE_ALREADY_INITIALIZED`. -/
def nrfErrorModuleAlreadyInitialized : UInt32 := 0x8005

/-- `HUBBLE_AES_BLOCK_SIZE`. -/
def hubbleAesBlockSize : ℕ := 16

/-- `HUBBLE_NONCE_BUFFER_SIZE`. -/
def hubbleNonceBufferSize : ℕ := 16

/-- AES in counter mode and as a MAC, under the bytes of a key. -/
structure Aes where
  ctr : CounterMode (List UInt8) (List UInt8) hubbleAesBlockSize
  cmac : List UInt8 → List UInt8 → Vector UInt8 hubbleAesBlockSize

/-- The arguments of `hubble_crypto_aes_ctr`. -/
structure CtrArgs where
  key : ℕ
  nonceCounter : ℕ
  data : ℕ
  len : ℕ
  output : ℕ

/-- The arguments of `hubble_crypto_cmac`. -/
structure CmacArgs where
  key : ℕ
  input : ℕ
  inputLen : ℕ
  output : ℕ

/-- The text that `hubble_crypto_aes_ctr` is to write. -/
def CtrArgs.text (A : Aes) (keySize : ℕ) (c : CtrArgs) (m : Memory) : List UInt8 :=
  A.ctr.crypt (m.read ⟨c.key, keySize⟩) (m.read ⟨c.nonceCounter, hubbleNonceBufferSize⟩)
    (m.read ⟨c.data, c.len⟩)

/-- The tag that `hubble_crypto_cmac` is to write. -/
def CmacArgs.tag (A : Aes) (keySize : ℕ) (c : CmacArgs) (m : Memory) : List UInt8 :=
  (A.cmac (m.read ⟨c.key, keySize⟩) (m.read ⟨c.input, c.inputLen⟩)).toList

/-- What an engine leaves in its output: the result, or, where it fails, any bytes in its place. -/
def engineWrite (ok : Bool) (result leftover : List UInt8) (output : ℕ) (m : Memory) : Memory :=
  m.store output (if ok then result else leftover.take result.length)

/-! ### `hubble_crypto_zeroize` -/

/-- `hubble_crypto_zeroize`, with `buf` moved along by each turn of the loop. -/
def hubbleCryptoZeroize (m : Memory) (buf : ℕ) : ℕ → Memory
  | 0 => m
  | len + 1 => hubbleCryptoZeroize (m.store buf [0]) (buf + 1) len

/-- The loop zeroes the buffer and nothing else. -/
theorem hubbleCryptoZeroize_eq (m : Memory) (buf len : ℕ) :
    hubbleCryptoZeroize m buf len = m.store buf (List.replicate len 0) := by
  induction len generalizing m buf with
  | zero => simp [hubbleCryptoZeroize]
  | succ len ih => rw [hubbleCryptoZeroize, ih, List.replicate_succ, ← Memory.store_cons]

/-! ### `hubble_crypto_nrf.c` -/

/-- How `nrf_crypto` answers. -/
structure NrfCrypto where
  init : UInt32
  crypt : UInt32
  leftover : List UInt8

namespace Nrf

/-- `CONFIG_HUBBLE_KEY_SIZE`. -/
def keySize : ℕ := 16

/-- `hubble_crypto_init`. -/
def hubbleCryptoInit (ret : UInt32) : Int32 :=
  if ret ≠ nrfSuccess ∧ ret ≠ nrfErrorModuleAlreadyInitialized then -eio else 0

/-- `hubble_crypto_aes_ctr`. -/
def hubbleCryptoAesCtr (A : Aes) (e : NrfCrypto) (c : CtrArgs) (m : Memory) : Int32 × Memory :=
  if c.len = 0 then (0, m)
  else
    let m := engineWrite (e.crypt == nrfSuccess) (c.text A keySize m) e.leftover c.output m
    if e.crypt ≠ nrfSuccess then (-eio, m) else (0, m)

/-- `hubble_crypto_cmac`. -/
def hubbleCryptoCmac (A : Aes) (e : NrfCrypto) (c : CmacArgs) (m : Memory) : Int32 × Memory :=
  let m := engineWrite (e.crypt == nrfSuccess) (c.tag A keySize m) e.leftover c.output m
  if e.crypt ≠ nrfSuccess then (-eio, m) else (0, m)

end Nrf

/-! ### `hubble_crypto_cc310.c` -/

/-- `SASI_OK`. -/
def sasiOk : UInt32 := 0

/-- The modes the port asks for. -/
inductive SasiMode
  | ctr
  | cmac
  deriving DecidableEq

/-- The driver calls between `SaSi_AesInit` and `SaSi_AesFree`: `SaSi_AesSetKey`, `SaSi_AesSetIv`
and `SaSi_AesFinish`. -/
inductive SasiOp
  | setKey (keySize : ℕ)
  | setIv
  | finish (dataInSize dataOutSize : ℕ)
  deriving DecidableEq

/-- The driver call that reads the data and writes the output. -/
def SasiOp.finishes : SasiOp → Bool
  | .finish _ _ => true
  | _ => false

/-- A call of the driver, with its result where the port looks at it. -/
inductive SasiCall
  | init (mode : SasiMode) (rc : UInt32)
  | op (o : SasiOp) (rc : UInt32)
  | free
  deriving DecidableEq

/-- How the driver answers. -/
structure SasiDriver where
  init : UInt32
  rc : SasiOp → UInt32
  leftover : List UInt8

/-- What a port function returns, the memory, and the driver calls it made. -/
structure SasiResult where
  ret : Int32
  memory : Memory
  calls : List SasiCall

namespace Cc310

/-- `CONFIG_HUBBLE_KEY_SIZE`. -/
def keySize : ℕ := 16

/-- `hubble_crypto_init`. -/
def hubbleCryptoInit (ret : UInt32) : Int32 :=
  if ret ≠ nrfSuccess ∧ ret ≠ nrfErrorModuleAlreadyInitialized then -eio else 0

/-- The driver calls up to the label `out`: the first that fails jumps there.  `write` is what
`SaSi_AesFinish` does to the memory. -/
def operations (e : SasiDriver) (write : Memory → Memory) :
    List SasiOp → Memory → SasiResult
  | [], m => ⟨0, m, []⟩
  | o :: os, m =>
      let m := if o.finishes then write m else m
      if e.rc o ≠ sasiOk then ⟨-eio, m, [.op o (e.rc o)]⟩
      else
        let r := operations e write os m
        { r with calls := .op o (e.rc o) :: r.calls }

/-- `SaSi_AesInit`, the driver calls, and `SaSi_AesFree` unless the first has failed. -/
def session (e : SasiDriver) (mode : SasiMode) (ops : List SasiOp) (write : Memory → Memory)
    (m : Memory) : SasiResult :=
  if e.init ≠ sasiOk then ⟨-eio, m, [.init mode e.init]⟩
  else
    let r := operations e write ops m
    { r with calls := .init mode e.init :: r.calls ++ [.free] }

/-- The driver calls of `hubble_crypto_aes_ctr`. -/
def ctrOps (len : ℕ) : List SasiOp := [.setKey keySize, .setIv, .finish len len]

/-- `hubble_crypto_aes_ctr`. -/
def hubbleCryptoAesCtr (A : Aes) (e : SasiDriver) (c : CtrArgs) (m : Memory) : SasiResult :=
  if c.len = 0 then ⟨0, m, []⟩
  else session e .ctr (ctrOps c.len)
    (engineWrite (e.rc (.finish c.len c.len) == sasiOk) (c.text A keySize m) e.leftover c.output) m

/-- The driver calls of `hubble_crypto_cmac`, which needs no IV. -/
def cmacOps (inputLen : ℕ) : List SasiOp :=
  [.setKey keySize, .finish inputLen hubbleAesBlockSize]

/-- `hubble_crypto_cmac`. -/
def hubbleCryptoCmac (A : Aes) (e : SasiDriver) (c : CmacArgs) (m : Memory) : SasiResult :=
  session e .cmac (cmacOps c.inputLen)
    (engineWrite (e.rc (.finish c.inputLen hubbleAesBlockSize) == sasiOk) (c.tag A keySize m)
      e.leftover c.output) m

end Cc310

/-! ### `hubble_crypto_oberon.c` -/

/-- What `ocrypto` keeps in its context, which lies on the stack at `ctx`: the bytes after
`ocrypto_aes_ctr_init` and after `ocrypto_aes_ctr_encrypt`, for a key, a nonce and a text. -/
structure Ocrypto where
  ctx : ℕ
  size : ℕ
  init : List UInt8 → List UInt8 → Vector UInt8 size
  encrypt : List UInt8 → List UInt8 → List UInt8 → Vector UInt8 size

namespace Oberon

/-- `CONFIG_HUBBLE_KEY_SIZE`. -/
def keySize : ℕ := 32

/-- `hubble_crypto_init`. -/
def hubbleCryptoInit : Int32 := 0

/-- `hubble_crypto_aes_ctr`. -/
def hubbleCryptoAesCtr (A : Aes) (e : Ocrypto) (c : CtrArgs) (m : Memory) : Int32 × Memory :=
  if c.len = 0 then (0, m)
  else
    let key := m.read ⟨c.key, keySize⟩
    let nonce := m.read ⟨c.nonceCounter, hubbleNonceBufferSize⟩
    let m := m.store e.ctx (e.init key nonce).toList
    let data := m.read ⟨c.data, c.len⟩
    let m := m.store c.output (A.ctr.crypt key nonce data)
    let m := m.store e.ctx (e.encrypt key nonce data).toList
    (0, hubbleCryptoZeroize m e.ctx e.size)

/-- `hubble_crypto_cmac`. -/
def hubbleCryptoCmac (A : Aes) (c : CmacArgs) (m : Memory) : Int32 × Memory :=
  (0, m.store c.output (c.tag A keySize m))

end Oberon

end HubbleNordic
