import HubbleNordic.Advertiser.Spec
import HubbleNordic.Application.Refresh
import HubbleNordic.Base64
import Mathlib.Algebra.Order.Floor.Div

/-!
# Initialisation: `hubble_stack_init` of `main.c`

The key arrives as base64 text.  The function decodes it into a scratch buffer, checks the size,
copies it to `master_key` and only then initialises the stack, whatever the answers.

* `CString`, `Libb64`: the text, and the decoder with what the code relies on; `Libb64.plain` is
  one;
* `keyB64MaxChars`, `keyDecodeBufSize`, `hubbleStackInit`;
* `hubbleStackInit_accepted`, `hubbleStackInit_rejected`: the two ways it can go;
* `key_decoding`: the scratch buffer is never overrun, an encoded key is decoded, and the key is
  taken and the stack initialised together or not at all;
* `hubbleStackInit_run`: what it does to the advertiser is a run of two API calls.
-/

namespace HubbleNordic

/-- A string without its terminator. -/
structure CString where
  bytes : List UInt8
  terminator_not_mem : 0 ∉ bytes

/-- The bytes of a string in memory. -/
def CString.memory (s : CString) : List UInt8 := s.bytes ++ [0]

/-- What a call of `base64_decode_block` does: the value it returns, its output buffer afterwards,
and the indices of the output it has read or written. -/
structure Decoded where
  cnt : ℕ
  out : ℕ → UInt8
  touched : List ℕ

/-- `base64_decode_block`, from a state that `base64_init_decodestate` has set, as a function of the
text and of the output buffer before.  It is not part of the repository; the fields after the first
are what the code relies on. -/
structure Libb64 where
  decodeBlock : List UInt8 → (ℕ → UInt8) → Decoded
  cnt_eq : ∀ code out, (decodeBlock code out).cnt = 6 * (Base64.symbols code).length / 8
  out_eq : ∀ code out i b, (Base64.decode (Base64.symbols code))[i]? = some b →
    (decodeBlock code out).out i = b
  touched_le : ∀ code out, ∀ i ∈ (decodeBlock code out).touched, i ≤ (decodeBlock code out).cnt

/-- A decoder that stores the complete bytes and reads one past them. -/
def Libb64.plain : Libb64 where
  decodeBlock code out :=
    { cnt := 6 * (Base64.symbols code).length / 8
      out := fun i => (Base64.decode (Base64.symbols code))[i]?.getD (out i)
      touched := List.range (6 * (Base64.symbols code).length / 8 + 1) }
  cnt_eq _ _ := rfl
  out_eq _ _ _ _ h := by simp only [h, Option.getD_some]
  touched_le _ _ _ hi := Nat.lt_succ_iff.mp (List.mem_range.mp hi)

/-- `KEY_B64_MAX_CHARS`, for `CONFIG_HUBBLE_KEY_SIZE = k`. -/
def keyB64MaxChars (k : ℕ) : ℕ := (k + 2) / 3 * 4

/-- `KEY_DECODE_BUF_SIZE`. -/
def keyDecodeBufSize (k : ℕ) : ℕ := keyB64MaxChars k * 6 / 8 + 1

/-- `APP_ADV_INTERVAL`, in units of 625 microseconds. -/
def appAdvInterval : UInt32 := 500

/-- The calls made once the key has been accepted. -/
inductive StackCall (k : ℕ)
  | hubbleInit (counter : ℕ) (key : Vector UInt8 k)
  | hubbleAdvertiserInit (config : HubbleAdvertiserConfig)
  | hubbleAdvertiserStart
  | appTimerCreate
  | appTimerStart (ticks : ℕ)

/-- The two errors the function logs. -/
inductive KeyError
  /-- `Key too long: %u encoded chars (max %u)` -/
  | tooLong (chars max : ℕ)
  /-- `Incorrect key size: decoded %u bytes, expected %u` -/
  | incorrectSize (decoded expected : ℕ)

/-- `master_key`, and the advertiser. -/
structure HubbleStack (k : ℕ) where
  masterKey : Vector UInt8 k
  world : World

/-- What a run of `hubble_stack_init` does: the state afterwards, the calls it made, the indices of
`key_buf` it touched, and the error it logged. -/
structure StackInit (k : ℕ) where
  stack : HubbleStack k
  calls : List (StackCall k)
  touched : List ℕ
  error : Option KeyError

/-- The configuration handed to `hubble_advertiser_init`. -/
def stackConfig : HubbleAdvertiserConfig := ⟨appAdvInterval, appAdvInterval⟩

/-- `hubble_stack_init`, where `HUBBLE_KEY_B64_STR` is `str`; `keyBuf` is the scratch buffer as it
was on the stack.  `a` and `b` answer the calls inside `hubble_advertiser_init` and
`hubble_advertiser_start`. -/
def hubbleStackInit {k : ℕ} (lib : Libb64) (a b : Answers) (str : CString) (keyBuf : ℕ → UInt8)
    (s : HubbleStack k) : StackInit k :=
  let keyB64Len := strlen str.memory
  if keyB64Len > keyB64MaxChars k then
    ⟨s, [], [], some (.tooLong keyB64Len (keyB64MaxChars k))⟩
  else
    let d := lib.decodeBlock (str.memory.take keyB64Len) keyBuf
    if d.cnt ≠ k then ⟨s, [], d.touched, some (.incorrectSize d.cnt k)⟩
    else
      let masterKey : Vector UInt8 k := .ofFn fun i => d.out i -- memcpy, which reads `k` bytes
      let (_, world) := hubbleAdvertiserInit a (some stackConfig) s.world.fresh
      let (_, world) := hubbleAdvertiserStart b world.fresh
      ⟨⟨masterKey, world⟩,
        [.hubbleInit 0 masterKey, .hubbleAdvertiserInit stackConfig, .hubbleAdvertiserStart,
          .appTimerCreate, .appTimerStart advUpdateIntervalTicks],
        d.touched ++ List.range k, none⟩

/-- The key in `master_key` has been handed to the stack, and everything has been started. -/
def StackInit.Initialised {k : ℕ} (o : StackInit k) : Prop :=
  o.calls = [.hubbleInit 0 o.stack.masterKey, .hubbleAdvertiserInit stackConfig,
    .hubbleAdvertiserStart, .appTimerCreate, .appTimerStart advUpdateIntervalTicks]

/-- A text of at most `4 * ⌈k / 3⌉` characters whose symbols make `k` complete bytes. -/
def Acceptable (k : ℕ) (text : List UInt8) : Prop :=
  text.length ≤ 4 * (k ⌈/⌉ 3) ∧ 6 * (Base64.symbols text).length / 8 = k

/-! ### The bounds -/

theorem keyB64MaxChars_eq (k : ℕ) : keyB64MaxChars k = 4 * (k ⌈/⌉ 3) := by
  rw [keyB64MaxChars, Nat.ceilDiv_eq_add_pred_div, Nat.mul_comm]
  rfl

theorem CString.strlen_memory (s : CString) : strlen s.memory = s.bytes.length :=
  strlen_append s.terminator_not_mem

theorem CString.take_memory (s : CString) : s.memory.take s.bytes.length = s.bytes :=
  List.take_left

/-- The cap on the text bounds the bytes it decodes to, and so what the decoder touches. -/
theorem touched_lt (lib : Libb64) {k : ℕ} {text : List UInt8} {out : ℕ → UInt8}
    (h : text.length ≤ keyB64MaxChars k) :
    ∀ i ∈ (lib.decodeBlock text out).touched, i < keyDecodeBufSize k := by
  intro i hi
  have hcnt := lib.touched_le text out i hi
  rw [lib.cnt_eq] at hcnt
  have hsymbols := Base64.length_symbols_le text
  have hbytes : 6 * (Base64.symbols text).length / 8 ≤ keyB64MaxChars k * 6 / 8 :=
    Nat.div_le_div_right (by omega)
  exact Nat.lt_succ_of_le (hcnt.trans hbytes)

/-- An encoded key is acceptable. -/
theorem acceptable_encode {k : ℕ} (key : Vector UInt8 k) :
    Acceptable k (Base64.encode key.toList) := by
  constructor
  · rw [Base64.length_encode, Vector.length_toList, ← keyB64MaxChars_eq, keyB64MaxChars]
    omega
  · rw [← Base64.length_decode, Base64.decode_symbols_encode, Vector.length_toList]

/-! ### The two ways -/

section StackInit

variable {k : ℕ} (lib : Libb64) (a b : Answers) (str : CString) (keyBuf : ℕ → UInt8)
  (s : HubbleStack k)

theorem hubbleStackInit_accepted (h : Acceptable k str.bytes) :
    (hubbleStackInit lib a b str keyBuf s).Initialised ∧
      (hubbleStackInit lib a b str keyBuf s).stack.masterKey =
        .ofFn (fun i => (lib.decodeBlock str.bytes keyBuf).out i) ∧
      (hubbleStackInit lib a b str keyBuf s).stack.world =
        (hubbleAdvertiserStart b (hubbleAdvertiserInit a (some stackConfig)
          s.world.fresh).2.fresh).2 ∧
      (hubbleStackInit lib a b str keyBuf s).touched =
        (lib.decodeBlock str.bytes keyBuf).touched ++ List.range k ∧
      (hubbleStackInit lib a b str keyBuf s).error = none := by
  obtain ⟨hlen, hcnt⟩ := h
  rw [← keyB64MaxChars_eq] at hlen
  have hsize : (lib.decodeBlock str.bytes keyBuf).cnt = k := by rw [lib.cnt_eq, hcnt]
  simp only [StackInit.Initialised, hubbleStackInit, str.strlen_memory, str.take_memory,
    if_neg (Nat.not_lt.mpr hlen), hsize, ne_eq, not_true_eq_false, if_false, and_self]

theorem hubbleStackInit_rejected (h : ¬ Acceptable k str.bytes) :
    (hubbleStackInit lib a b str keyBuf s).calls = [] ∧
      (hubbleStackInit lib a b str keyBuf s).stack = s ∧
      (hubbleStackInit lib a b str keyBuf s).error ≠ none ∧
      ∀ i ∈ (hubbleStackInit lib a b str keyBuf s).touched, i < keyDecodeBufSize k := by
  rw [Acceptable, ← keyB64MaxChars_eq] at h
  by_cases hlen : str.bytes.length ≤ keyB64MaxChars k
  · have hsize : (lib.decodeBlock str.bytes keyBuf).cnt ≠ k := by
      rw [lib.cnt_eq]
      exact fun hcnt => h ⟨hlen, hcnt⟩
    simp only [hubbleStackInit, str.strlen_memory, str.take_memory,
      if_neg (Nat.not_lt.mpr hlen), if_pos hsize]
    exact ⟨trivial, trivial, Option.some_ne_none _, touched_lt lib hlen⟩
  · simp [hubbleStackInit, str.strlen_memory, Nat.not_le.mp hlen]

/-- With an acceptable text, what the advertiser sees is a run of two API calls. -/
theorem hubbleStackInit_run (h : Acceptable k str.bytes) :
    ∃ r r', advertiser.RunFrom s.world
      [(.call (.init (some stackConfig)) a, r), (.call .start b, r')]
      (hubbleStackInit lib a b str keyBuf s).stack.world := by
  obtain ⟨-, -, hworld, -⟩ := hubbleStackInit_accepted lib a b str keyBuf s h
  rw [hworld]
  exact ⟨_, _, .cons (advertiser_call.mpr ⟨rfl, rfl⟩)
    (.cons (advertiser_call.mpr ⟨rfl, rfl⟩) .nil)⟩

/-- **Key decoding is bounded, round-trips, and is all-or-nothing**, for every key size, text, and
scratch buffer, and whatever the answers; with an acceptable text the advertiser is initialised, and
then started. -/
theorem key_decoding :
    (∀ i ∈ (hubbleStackInit lib a b str keyBuf s).touched, i < keyDecodeBufSize k) ∧
    (∀ key : Vector UInt8 k, str.bytes = Base64.encode key.toList →
      (hubbleStackInit lib a b str keyBuf s).stack.masterKey = key ∧
        (hubbleStackInit lib a b str keyBuf s).Initialised) ∧
    ((hubbleStackInit lib a b str keyBuf s).Initialised ↔ Acceptable k str.bytes) ∧
    (¬ Acceptable k str.bytes → (hubbleStackInit lib a b str keyBuf s).calls = [] ∧
      (hubbleStackInit lib a b str keyBuf s).stack = s) ∧
    (Acceptable k str.bytes → (hubbleStackInit lib a b str keyBuf s).stack.world =
      (hubbleAdvertiserStart b (hubbleAdvertiserInit a (some stackConfig)
        s.world.fresh).2.fresh).2) := by
  have hacc := hubbleStackInit_accepted lib a b str keyBuf s
  have hrej := hubbleStackInit_rejected lib a b str keyBuf s
  refine ⟨?_, ?_, ⟨?_, fun h => (hacc h).1⟩, fun h => ⟨(hrej h).1, (hrej h).2.1⟩,
    fun h => (hacc h).2.2.1⟩
  · by_cases h : Acceptable k str.bytes
    · obtain ⟨-, -, -, htouched, -⟩ := hacc h
      have hlen : str.bytes.length ≤ keyB64MaxChars k := by
        rw [keyB64MaxChars_eq]
        exact h.1
      have hk : k < keyDecodeBufSize k := by
        rw [keyDecodeBufSize, keyB64MaxChars]
        omega
      intro i hi
      rw [htouched] at hi
      rcases List.mem_append.mp hi with hi | hi
      · exact touched_lt lib hlen i hi
      · exact lt_trans (List.mem_range.mp hi) hk
    · exact (hrej h).2.2.2
  · intro key hstr
    have h : Acceptable k str.bytes := by
      rw [hstr]
      exact acceptable_encode key
    obtain ⟨hinit, hkey, -⟩ := hacc h
    refine ⟨?_, hinit⟩
    rw [hkey]
    refine Vector.ext fun i hi => ?_
    rw [Vector.getElem_ofFn]
    apply lib.out_eq
    rw [hstr, Base64.decode_symbols_encode]
    simp [hi]
  · intro hinit
    by_contra h
    rw [StackInit.Initialised, (hrej h).1] at hinit
    cases hinit

end StackInit

/-- The bytes `00` to `0F`, from the 24 characters `AAECAwQFBgcICQoLDA0ODw==`. -/
theorem key_decoding_sixteen :
    let key : Vector UInt8 16 := .ofFn fun i => UInt8.ofNat i.val
    let text := [0x41, 0x41, 0x45, 0x43, 0x41, 0x77, 0x51, 0x46, 0x42, 0x67, 0x63, 0x49, 0x43,
      0x51, 0x6F, 0x4C, 0x44, 0x41, 0x30, 0x4F, 0x44, 0x77, 0x3D, 0x3D]
    ∃ str o, str.bytes = text ∧
      o = hubbleStackInit .plain .storing .storing str (fun _ => 0) ⟨.replicate 16 0, .boot⟩ ∧
      o.stack.masterKey = key ∧ o.Initialised :=
  ⟨⟨_, by decide⟩, _, rfl, rfl, (key_decoding .plain .storing .storing ⟨_, by decide⟩
    (fun _ => 0) ⟨.replicate 16 0, .boot⟩).2.1 _ (by decide)⟩

end HubbleNordic
