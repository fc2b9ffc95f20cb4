import HubbleNordic.Crypto.Model

/-!
# One crypto port, three backends

What the SDK may rely on whichever backend a build links: `aes_ctr` and `cmac` return 0 or `-EIO`, 0
only with the result in place, and touch nothing else.

* `CryptoBackend`: one of the three files, with its engine;
* `CtrSpec`, `aesCtr_spec`: `hubble_crypto_aes_ctr`;
* `CmacSpec`, `cmac_spec`: `hubble_crypto_cmac`;
* `PortCall`, `runAll`: sequences of calls of the port;
* `aes_ctr_round_trip`: what one backend has encrypted another decrypts, whatever calls lie between.
-/

namespace HubbleNordic

/-- A backend, with the answers of its engine. -/
inductive CryptoBackend
  | nrf (e : NrfCrypto)
  | cc310 (e : SasiDriver)
  | oberon (e : Ocrypto)

namespace CryptoBackend

/-- `CONFIG_HUBBLE_KEY_SIZE`. -/
def keySize : CryptoBackend → ℕ
  | nrf _ => Nrf.keySize
  | cc310 _ => Cc310.keySize
  | oberon _ => Oberon.keySize

/-- `hubble_crypto_aes_ctr`. -/
def aesCtr (A : Aes) (c : CtrArgs) (m : Memory) : CryptoBackend → Int32 × Memory
  | nrf e => Nrf.hubbleCryptoAesCtr A e c m
  | cc310 e => ((Cc310.hubbleCryptoAesCtr A e c m).ret, (Cc310.hubbleCryptoAesCtr A e c m).memory)
  | oberon e => Oberon.hubbleCryptoAesCtr A e c m

/-- `hubble_crypto_cmac`. -/
def cmac (A : Aes) (c : CmacArgs) (m : Memory) : CryptoBackend → Int32 × Memory
  | nrf e => Nrf.hubbleCryptoCmac A e c m
  | cc310 e => ((Cc310.hubbleCryptoCmac A e c m).ret, (Cc310.hubbleCryptoCmac A e c m).memory)
  | oberon _ => Oberon.hubbleCryptoCmac A c m

/-- The context on the stack whose bytes matter: that of `ocrypto_aes_ctr`. -/
def context : CryptoBackend → List Buffer
  | oberon e => [⟨e.ctx, e.size⟩]
  | _ => []

/-- The engine calls that `hubble_crypto_aes_ctr` makes for a nonempty text all succeed. -/
def CtrSucceeds (c : CtrArgs) : CryptoBackend → Prop
  | nrf e => e.crypt = nrfSuccess
  | cc310 e => e.init = sasiOk ∧ ∀ o ∈ Cc310.ctrOps c.len, e.rc o = sasiOk
  | oberon _ => True

/-- The engine calls that `hubble_crypto_cmac` makes all succeed. -/
def CmacSucceeds (c : CmacArgs) : CryptoBackend → Prop
  | nrf e => e.crypt = nrfSuccess
  | cc310 e => e.init = sasiOk ∧ ∀ o ∈ Cc310.cmacOps c.inputLen, e.rc o = sasiOk
  | oberon _ => True

end CryptoBackend

/-! ### Engines -/

theorem neg_eio_ne_zero : -eio ≠ 0 := by decide

theorem sameOutside_engineWrite (ok : Bool) {result : List UInt8} (leftover : List UInt8)
    {b : Buffer} (m : Memory) (h : result.length = b.size) :
    Memory.SameOutside [b] m (engineWrite ok result leftover b.address m) := by
  refine Memory.sameOutside_store m ?_
  cases ok with
  | true => exact h.le
  | false => exact (List.length_take_le _ _).trans h.le

/-- A session returns 0 exactly if all its driver calls succeed. -/
theorem operations_ret (e : SasiDriver) (write : Memory → Memory) (ops : List SasiOp)
    (m : Memory) :
    (Cc310.operations e write ops m).ret = if ∀ o ∈ ops, e.rc o = sasiOk then 0 else -eio := by
  induction ops generalizing m with
  | nil => simp [Cc310.operations]
  | cons o os ih =>
    by_cases ho : e.rc o = sasiOk
    · simp [Cc310.operations, ho, ih]
    · simp [Cc310.operations, ho]

/-- `SaSi_AesFinish` is reached as often as it stands among the driver calls. -/
theorem operations_memory {e : SasiDriver} (write : Memory → Memory) {ops : List SasiOp}
    (h : ∀ o ∈ ops, e.rc o = sasiOk) (m : Memory) :
    (Cc310.operations e write ops m).memory = write^[ops.countP SasiOp.finishes] m := by
  induction ops generalizing m with
  | nil => rfl
  | cons o os ih =>
    obtain ⟨ho, hos⟩ := List.forall_mem_cons.mp h
    cases hf : o.finishes <;> simp [Cc310.operations, ho, hf, ih hos]

/-- Only `SaSi_AesFinish` writes. -/
theorem operations_sameOutside {e : SasiDriver} {write : Memory → Memory} {l : List Buffer}
    (hw : ∀ m, Memory.SameOutside l m (write m)) (ops : List SasiOp) (m : Memory) :
    Memory.SameOutside l m (Cc310.operations e write ops m).memory := by
  induction ops generalizing m with
  | nil => exact .refl l m
  | cons o os ih =>
    have hstep : Memory.SameOutside l m (if o.finishes then write m else m) := by
      split_ifs
      · exact hw m
      · exact .refl l m
    by_cases ho : e.rc o = sasiOk
    · simp only [Cc310.operations, ho, ne_eq, not_true, if_false]
      exact (hstep.trans (ih _)).mono (List.append_subset.mpr ⟨fun _ h => h, fun _ h => h⟩)
    · simpa only [Cc310.operations, ho, ne_eq, not_false_eq_true, if_true] using hstep

/-- A session with one `SaSi_AesFinish`. -/
theorem session_spec (e : SasiDriver) (mode : SasiMode) (ops : List SasiOp)
    {write : Memory → Memory} {l : List Buffer} (hw : ∀ m, Memory.SameOutside l m (write m))
    (hops : ops.countP SasiOp.finishes = 1) (m : Memory) :
    let r := Cc310.session e mode ops write m
    (r.ret = 0 ∨ r.ret = -eio) ∧
    (r.ret = 0 ↔ e.init = sasiOk ∧ ∀ o ∈ ops, e.rc o = sasiOk) ∧
    (r.ret = 0 → r.memory = write m) ∧ Memory.SameOutside l m r.memory := by
  by_cases hinit : e.init = sasiOk
  · have hret := operations_ret e write ops m
    have hframe := operations_sameOutside (e := e) hw ops m
    simp only [Cc310.session, hinit, ne_eq, not_true, if_false, true_and]
    by_cases hall : ∀ o ∈ ops, e.rc o = sasiOk
    · have hmem := operations_memory write hall m
      rw [hops, Function.iterate_one] at hmem
      rw [if_pos hall] at hret
      exact ⟨Or.inl hret, ⟨fun _ => hall, fun _ => hret⟩, fun _ => hmem, hframe⟩
    · rw [if_neg hall] at hret
      have hne : (Cc310.operations e write ops m).ret ≠ 0 := hret ▸ neg_eio_ne_zero
      exact ⟨Or.inr hret, ⟨fun h => absurd h hne, fun h => absurd h hall⟩,
        fun h => absurd h hne, hframe⟩
  · simp only [Cc310.session, hinit, ne_eq, not_false_eq_true, if_true, false_and, iff_false]
    exact ⟨Or.inr trivial, neg_eio_ne_zero, fun h => absurd h neg_eio_ne_zero, .refl l m⟩

/-! ### `hubble_crypto_aes_ctr` -/

/-- What the SDK may rely on: an empty text costs no engine call; otherwise the result is 0 if all
engine calls succeed and `-EIO` if one fails; with 0 the text is in the output; nothing changes
outside the output and the engine's context; and no byte of that is left behind. -/
structure CtrSpec (A : Aes) (b : CryptoBackend) (c : CtrArgs) (m : Memory) (r : Int32 × Memory) :
    Prop where
  empty : c.len = 0 → r = (0, m)
  ret : r.1 = 0 ∨ r.1 = -eio
  ret_iff : r.1 = 0 ↔ c.len = 0 ∨ b.CtrSucceeds c
  text : r.1 = 0 → r.2.read ⟨c.output, c.len⟩ = c.text A b.keySize m
  frame : Memory.SameOutside (⟨c.output, c.len⟩ :: b.context) m r.2
  wiped : c.len ≠ 0 → ∀ x ∈ b.context, r.2.read x = List.replicate x.size 0

/-- The engine's context overlaps neither text. -/
def CryptoBackend.Clear (b : CryptoBackend) (c : CtrArgs) : Prop :=
  ∀ x ∈ b.context, x.Apart ⟨c.data, c.len⟩ ∧ x.Apart ⟨c.output, c.len⟩

@[simp] theorem length_text (A : Aes) (keySize : ℕ) (c : CtrArgs) (m : Memory) :
    (c.text A keySize m).length = c.len := by
  simp [CtrArgs.text]

theorem text_empty (A : Aes) (keySize : ℕ) {c : CtrArgs} (m : Memory) (h : c.len = 0) :
    m.read ⟨c.output, c.len⟩ = c.text A keySize m :=
  (List.eq_nil_of_length_eq_zero (by simpa using h)).trans
    (List.eq_nil_of_length_eq_zero (by simpa using h)).symm

/-- No engine is asked for an empty text. -/
theorem ctrSpec_empty (A : Aes) (b : CryptoBackend) {c : CtrArgs} (m : Memory) (h : c.len = 0) :
    CtrSpec A b c m (0, m) where
  empty _ := rfl
  ret := Or.inl rfl
  ret_iff := ⟨fun _ => Or.inl h, fun _ => rfl⟩
  text _ := text_empty A b.keySize m h
  frame := .refl _ m
  wiped h' := absurd h h'

theorem read_engineWrite {text : List UInt8} (leftover : List UInt8) {b : Buffer} (m : Memory)
    (h : text.length = b.size) : (engineWrite true text leftover b.address m).read b = text := by
  have hread := Memory.read_store m b.address text
  rw [h] at hread
  exact hread

/-- A nonempty text, whose engine calls leave `m'`. -/
theorem ctrSpec_nonempty {A : Aes} {b : CryptoBackend} {c : CtrArgs} {m m' : Memory} {ret : Int32}
    (h : c.len ≠ 0) (hret : ret = 0 ∨ ret = -eio) (hiff : ret = 0 ↔ b.CtrSucceeds c)
    (htext : ret = 0 → m'.read ⟨c.output, c.len⟩ = c.text A b.keySize m)
    (hframe : Memory.SameOutside (⟨c.output, c.len⟩ :: b.context) m m')
    (hwiped : ∀ x ∈ b.context, m'.read x = List.replicate x.size 0) :
    CtrSpec A b c m (ret, m') where
  empty h' := absurd h' h
  ret := hret
  ret_iff := ⟨fun h' => Or.inr (hiff.mp h'), fun h' => hiff.mpr (h'.resolve_left h)⟩
  text := htext
  frame := hframe
  wiped _ := hwiped

theorem nrf_aesCtr_spec (A : Aes) (e : NrfCrypto) (c : CtrArgs) (m : Memory) :
    CtrSpec A (.nrf e) c m (Nrf.hubbleCryptoAesCtr A e c m) := by
  by_cases hlen : c.len = 0
  · rw [Nrf.hubbleCryptoAesCtr, if_pos hlen]
    exact ctrSpec_empty A (.nrf e) m hlen
  · have hframe := sameOutside_engineWrite (b := ⟨c.output, c.len⟩) (e.crypt == nrfSuccess)
      e.leftover m (length_text A Nrf.keySize c m)
    rw [Nrf.hubbleCryptoAesCtr, if_neg hlen]
    by_cases hok : e.crypt = nrfSuccess
    · have hread := read_engineWrite (b := ⟨c.output, c.len⟩) e.leftover m
        (length_text A Nrf.keySize c m)
      simp only [hok, beq_self_eq_true, ne_eq, not_true, if_false] at hframe ⊢
      exact ctrSpec_nonempty hlen (Or.inl rfl) ⟨fun _ => hok, fun _ => rfl⟩ (fun _ => hread)
        hframe fun x hx => nomatch hx
    · simp only [hok, ne_eq, not_false_eq_true, if_true]
      exact ctrSpec_nonempty hlen (Or.inr rfl)
        ⟨fun h => absurd h neg_eio_ne_zero, fun h => absurd h hok⟩
        (fun h => absurd h neg_eio_ne_zero) hframe fun x hx => nomatch hx

theorem cc310_aesCtr_spec (A : Aes) (e : SasiDriver) (c : CtrArgs) (m : Memory) :
    CtrSpec A (.cc310 e) c m
      ((Cc310.hubbleCryptoAesCtr A e c m).ret, (Cc310.hubbleCryptoAesCtr A e c m).memory) := by
  by_cases hlen : c.len = 0
  · rw [Cc310.hubbleCryptoAesCtr, if_pos hlen]
    exact ctrSpec_empty A (.cc310 e) m hlen
  · have hwrite (m' : Memory) := sameOutside_engineWrite (b := ⟨c.output, c.len⟩)
      (e.rc (.finish c.len c.len) == sasiOk) e.leftover m' (length_text A Cc310.keySize c m)
    obtain ⟨hret, hiff, hmem, hframe⟩ :=
      session_spec e .ctr (Cc310.ctrOps c.len) hwrite rfl m
    rw [Cc310.hubbleCryptoAesCtr, if_neg hlen]
    refine ctrSpec_nonempty hlen hret hiff (fun h => ?_) hframe fun x hx => nomatch hx
    rw [hmem h, (hiff.mp h).2 (.finish c.len c.len) (by simp [Cc310.ctrOps])]
    exact read_engineWrite (b := ⟨c.output, c.len⟩) e.leftover m
      (length_text A Cc310.keySize c m)

theorem oberon_aesCtr_spec (A : Aes) (e : Ocrypto) {c : CtrArgs}
    (hclear : (CryptoBackend.oberon e).Clear c) (m : Memory) :
    CtrSpec A (.oberon e) c m (Oberon.hubbleCryptoAesCtr A e c m) := by
  by_cases hlen : c.len = 0
  · rw [Oberon.hubbleCryptoAesCtr, if_pos hlen]
    exact ctrSpec_empty A (.oberon e) m hlen
  · obtain ⟨hdata, hout⟩ := hclear _ List.mem_cons_self
    rw [Oberon.hubbleCryptoAesCtr, if_neg hlen]
    dsimp only
    rw [hubbleCryptoZeroize_eq]
    -- the three memories between the calls
    generalize hm₁ : m.store e.ctx _ = m₁
    have h₁ : Memory.SameOutside [⟨e.ctx, e.size⟩] m m₁ :=
      hm₁ ▸ Memory.sameOutside_store (b := ⟨e.ctx, e.size⟩) m Vector.length_toList.le
    have htext : A.ctr.crypt (m.read ⟨c.key, Oberon.keySize⟩)
        (m.read ⟨c.nonceCounter, hubbleNonceBufferSize⟩) (m₁.read ⟨c.data, c.len⟩) =
        c.text A Oberon.keySize m := by
      rw [h₁.read (by simpa using hdata), CtrArgs.text]
    rw [htext]
    generalize hm₂ : m₁.store c.output _ = m₂
    have h₂ : Memory.SameOutside [⟨c.output, c.len⟩] m₁ m₂ :=
      hm₂ ▸ Memory.sameOutside_store (b := ⟨c.output, c.len⟩) m₁ (length_text _ _ _ _).le
    have hread : m₂.read ⟨c.output, c.len⟩ = c.text A Oberon.keySize m := by
      have := Memory.read_store m₁ c.output (c.text A Oberon.keySize m)
      rwa [length_text, hm₂] at this
    generalize hm₃ : m₂.store e.ctx _ = m₃
    have h₃ : Memory.SameOutside [⟨e.ctx, e.size⟩] m₂ m₃ :=
      hm₃ ▸ Memory.sameOutside_store (b := ⟨e.ctx, e.size⟩) m₂ Vector.length_toList.le
    have h₄ : Memory.SameOutside [⟨e.ctx, e.size⟩] m₃
        (m₃.store e.ctx (List.replicate e.size 0)) :=
      Memory.sameOutside_store (b := ⟨e.ctx, e.size⟩) m₃ List.length_replicate.le
    refine ctrSpec_nonempty hlen (Or.inl rfl) ⟨fun _ => trivial, fun _ => rfl⟩ (fun _ => ?_) ?_
      fun x hx => ?_
    · rw [h₄.read (by simpa using hout), h₃.read (by simpa using hout), hread]
      rfl
    · refine (((h₁.trans h₂).trans h₃).trans h₄).mono ?_
      simp [CryptoBackend.context]
    · obtain rfl : x = ⟨e.ctx, e.size⟩ := by simpa [CryptoBackend.context] using hx
      have := Memory.read_store m₃ e.ctx (List.replicate e.size 0)
      rwa [List.length_replicate] at this

/-- **`hubble_crypto_aes_ctr` keeps its specification**, whichever backend is linked and whatever
its engine answers. -/
theorem aesCtr_spec (A : Aes) (b : CryptoBackend) {c : CtrArgs} (hclear : b.Clear c)
    (m : Memory) : CtrSpec A b c m (b.aesCtr A c m) := by
  cases b with
  | nrf e => exact nrf_aesCtr_spec A e c m
  | cc310 e => exact cc310_aesCtr_spec A e c m
  | oberon e => exact oberon_aesCtr_spec A e hclear m

/-! ### `hubble_crypto_cmac` -/

/-- What the SDK may rely on: 0 if all engine calls succeed and `-EIO` if one fails; with 0 the tag
is in the output; and nothing else changes. -/
structure CmacSpec (A : Aes) (b : CryptoBackend) (c : CmacArgs) (m : Memory)
    (r : Int32 × Memory) : Prop where
  ret : r.1 = 0 ∨ r.1 = -eio
  ret_iff : r.1 = 0 ↔ b.CmacSucceeds c
  tag : r.1 = 0 → r.2.read ⟨c.output, hubbleAesBlockSize⟩ = c.tag A b.keySize m
  frame : Memory.SameOutside [⟨c.output, hubbleAesBlockSize⟩] m r.2

@[simp] theorem length_tag (A : Aes) (keySize : ℕ) (c : CmacArgs) (m : Memory) :
    (c.tag A keySize m).length = hubbleAesBlockSize := by
  simp [CmacArgs.tag]

/-- **`hubble_crypto_cmac` keeps its specification.** -/
theorem cmac_spec (A : Aes) (b : CryptoBackend) (c : CmacArgs) (m : Memory) :
    CmacSpec A b c m (b.cmac A c m) := by
  have hlen := length_tag A b.keySize c m
  cases b with
  | nrf e =>
    have hframe := sameOutside_engineWrite (b := ⟨c.output, hubbleAesBlockSize⟩)
      (e.crypt == nrfSuccess) e.leftover m hlen
    have hread := read_engineWrite (b := ⟨c.output, hubbleAesBlockSize⟩) e.leftover m hlen
    rw [CryptoBackend.cmac, Nrf.hubbleCryptoCmac]
    by_cases hok : e.crypt = nrfSuccess
    · simp only [hok, beq_self_eq_true, ne_eq, not_true, if_false] at hframe ⊢
      exact ⟨Or.inl rfl, ⟨fun _ => hok, fun _ => rfl⟩, fun _ => hread, hframe⟩
    · simp only [hok, ne_eq, not_false_eq_true, if_true]
      exact ⟨Or.inr rfl, ⟨fun h => absurd h neg_eio_ne_zero, fun h => absurd h hok⟩,
        fun h => absurd h neg_eio_ne_zero, hframe⟩
  | cc310 e =>
    have hwrite (m' : Memory) := sameOutside_engineWrite (b := ⟨c.output, hubbleAesBlockSize⟩)
      (e.rc (.finish c.inputLen hubbleAesBlockSize) == sasiOk) e.leftover m' hlen
    obtain ⟨hret, hiff, hmem, hframe⟩ :=
      session_spec e .cmac (Cc310.cmacOps c.inputLen) hwrite rfl m
    refine ⟨hret, hiff, fun h => ?_, hframe⟩
    refine (congrArg (Memory.read · _) (hmem h)).trans ?_
    rw [(hiff.mp h).2 (.finish c.inputLen hubbleAesBlockSize) (by simp [Cc310.cmacOps])]
    exact read_engineWrite (b := ⟨c.output, hubbleAesBlockSize⟩) e.leftover m hlen
  | oberon e =>
    refine ⟨Or.inl rfl, ⟨fun _ => trivial, fun _ => rfl⟩, fun _ => ?_, ?_⟩
    · have := Memory.read_store m c.output (c.tag A Oberon.keySize m)
      rwa [length_tag] at this
    · exact Memory.sameOutside_store (b := ⟨c.output, hubbleAesBlockSize⟩) m hlen.le

/-! ### Sequences of calls -/

/-- A call of the port, with its backend and the answers of its engine. -/
inductive PortCall
  | aesCtr (b : CryptoBackend) (c : CtrArgs)
  | cmac (b : CryptoBackend) (c : CmacArgs)

namespace PortCall

/-- The call. -/
def run (A : Aes) (m : Memory) : PortCall → Int32 × Memory
  | aesCtr b c => b.aesCtr A c m
  | cmac b c => b.cmac A c m

/-- The buffers it may change. -/
def changes : PortCall → List Buffer
  | aesCtr b c => ⟨c.output, c.len⟩ :: b.context
  | cmac _ c => [⟨c.output, hubbleAesBlockSize⟩]

/-- Its context overlaps neither text. -/
def Clear : PortCall → Prop
  | aesCtr b c => b.Clear c
  | cmac _ _ => True

end PortCall

/-- The memory after a sequence of calls. -/
def runAll (A : Aes) (l : List PortCall) (m : Memory) : Memory :=
  l.foldl (fun m p => (p.run A m).2) m

theorem PortCall.sameOutside_run (A : Aes) {p : PortCall} (hp : p.Clear) (m : Memory) :
    Memory.SameOutside p.changes m (p.run A m).2 := by
  cases p with
  | aesCtr b c => exact (aesCtr_spec A b hp m).frame
  | cmac b c => exact (cmac_spec A b c m).frame

/-- A sequence of calls changes what its calls may change. -/
theorem sameOutside_runAll (A : Aes) {l : List PortCall} (hl : ∀ p ∈ l, p.Clear) (m : Memory) :
    Memory.SameOutside (l.flatMap PortCall.changes) m (runAll A l m) := by
  induction l generalizing m with
  | nil => exact .refl _ m
  | cons p l ih =>
    obtain ⟨hp, hl⟩ := List.forall_mem_cons.mp hl
    rw [List.flatMap_cons]
    exact (PortCall.sameOutside_run A hp m).trans (ih hl _)

/-- The call `c'` of `b'` takes back the output of the call `c` of `b`, with the same key and nonce. -/
structure TakesBack (b b' : CryptoBackend) (c c' : CtrArgs) : Prop where
  keySize : b'.keySize = b.keySize
  key : c'.key = c.key
  nonceCounter : c'.nonceCounter = c.nonceCounter
  data : c'.data = c.output
  len : c'.len = c.len

/-- None of the buffers overlaps the key or the nonce of the call. -/
def SparesKey (l : List Buffer) (b : CryptoBackend) (c : CtrArgs) : Prop :=
  ∀ x ∈ l, x.Apart ⟨c.key, b.keySize⟩ ∧ x.Apart ⟨c.nonceCounter, hubbleNonceBufferSize⟩

/-- **What one backend encrypts another decrypts**: whatever the engines answer and whatever calls
of the port lie between, if both calls return 0 the second leaves the data of the first in its
output, provided that nothing in between overwrites the key, the nonce or the ciphertext. The texts
may overlap, as when they are encrypted in place. -/
theorem aes_ctr_round_trip (A : Aes) {b b' : CryptoBackend} {c c' : CtrArgs}
    (hback : TakesBack b b' c c') (hclear : b.Clear c) (hclear' : b'.Clear c')
    (hkey : SparesKey (PortCall.aesCtr b c).changes b c) {between : List PortCall}
    (hbetween : ∀ p ∈ between, p.Clear ∧ SparesKey p.changes b c ∧
      ∀ x ∈ p.changes, x.Apart ⟨c.output, c.len⟩) {m : Memory}
    (h : (b.aesCtr A c m).1 = 0)
    (h' : (b'.aesCtr A c' (runAll A between (b.aesCtr A c m).2)).1 = 0) :
    (b'.aesCtr A c' (runAll A between (b.aesCtr A c m).2)).2.read ⟨c'.output, c'.len⟩ =
      m.read ⟨c.data, c.len⟩ := by
  have hfirst := aesCtr_spec A b hclear m
  have hmid := sameOutside_runAll A (fun p hp => (hbetween p hp).1) (b.aesCtr A c m).2
  have hspared {k : Buffer} (hk : ∀ p ∈ between, ∀ x ∈ p.changes, x.Apart k) :
      (runAll A between (b.aesCtr A c m).2).read k = (b.aesCtr A c m).2.read k := by
    refine hmid.read fun x hx => ?_
    obtain ⟨p, hp, hxp⟩ := List.mem_flatMap.mp hx
    exact hk p hp x hxp
  rw [(aesCtr_spec A b' hclear' _).text h', CtrArgs.text, hback.keySize, hback.key,
    hback.nonceCounter, hback.data, hback.len]
  rw [hspared fun p hp x hx => ((hbetween p hp).2.1 x hx).1,
    hspared fun p hp x hx => ((hbetween p hp).2.1 x hx).2,
    hspared fun p hp x hx => (hbetween p hp).2.2 x hx, hfirst.text h,
    hfirst.frame.read fun x hx => (hkey x hx).1, hfirst.frame.read fun x hx => (hkey x hx).2]
  exact A.ctr.crypt_crypt _ _ _

/-- AES-128 under the key of sixteen zero bytes: the encryption of the zero block, and the tag of
the empty message. -/
def Aes.zeroKey : Aes where
  ctr :=
    { block := fun _ _ => #v[0x66, 0xE9, 0x4B, 0xD4, 0xEF, 0x8A, 0x2C, 0x3B, 0x88, 0x4C, 0xFA, 0x59,
        0xCA, 0x34, 0x2B, 0x2E]
      next := id
      width_pos := Nat.succ_pos _ }
  cmac _ _ := #v[0x43, 0x87, 0xC1, 0x4B, 0x46, 0xEF, 0x7E, 0x17, 0x6D, 0xCE, 0xEF, 0xA8, 0x62, 0xD7,
    0x2F, 0xF9]

/-- `nrf_crypto` encrypts `300`; a MAC and an encryption that fails lie in between; CryptoCell
decrypts. -/
theorem aes_ctr_round_trip_between :
    ∃ m : Memory, m.read ⟨32, 3⟩ = [0x33, 0x30, 0x30] ∧
      ((CryptoBackend.cc310 ⟨0, fun _ => 0, []⟩).aesCtr .zeroKey ⟨0, 16, 64, 3, 96⟩
        (runAll .zeroKey [.cmac (.nrf ⟨0, 0, []⟩) ⟨0, 32, 0, 128⟩,
            .aesCtr (.nrf ⟨0, 1, [1, 2, 3]⟩) ⟨0, 16, 32, 3, 160⟩]
          ((CryptoBackend.nrf ⟨0, 0, []⟩).aesCtr .zeroKey ⟨0, 16, 32, 3, 64⟩ m).2)).2.read ⟨96, 3⟩ =
        [0x33, 0x30, 0x30] := by
  have hm : (Memory.store (fun _ => 0) 32 [0x33, 0x30, 0x30]).read ⟨32, 3⟩ =
      [0x33, 0x30, 0x30] := Memory.read_store _ 32 [0x33, 0x30, 0x30]
  refine ⟨_, hm, ?_⟩
  have hback : TakesBack (.nrf ⟨0, 0, []⟩) (.cc310 ⟨0, fun _ => 0, []⟩) ⟨0, 16, 32, 3, 64⟩
      ⟨0, 16, 64, 3, 96⟩ := ⟨rfl, rfl, rfl, rfl, rfl⟩
  refine (aes_ctr_round_trip .zeroKey hback (fun _ h => nomatch h) (fun _ h => nomatch h) ?_
    (fun p hp => ?_) rfl rfl).trans hm
  · simp [SparesKey, PortCall.changes, CryptoBackend.context, Buffer.Apart,
      CryptoBackend.keySize, Nrf.keySize, hubbleNonceBufferSize]
  · simp only [List.mem_cons, List.not_mem_nil, or_false] at hp
    rcases hp with rfl | rfl
    · simp [PortCall.Clear, SparesKey, PortCall.changes, Buffer.Apart, CryptoBackend.keySize,
        Nrf.keySize, hubbleNonceBufferSize]
    · simp [PortCall.Clear, CryptoBackend.Clear, SparesKey, PortCall.changes,
        CryptoBackend.context, Buffer.Apart, CryptoBackend.keySize, Nrf.keySize,
        hubbleNonceBufferSize]

end HubbleNordic
