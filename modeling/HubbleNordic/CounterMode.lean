import Mathlib.Tactic

/-!
# Counter mode

A block cipher turns successive counter blocks into a keystream, which is XORed into the text.

* `CounterMode`, `keystream`, `crypt`;
* `crypt_crypt`: a second pass undoes the first;
* `xor_crypt`: two texts under one keystream, XORed, are their plaintexts XORed.
-/

/-- A block cipher with keys `κ` on counter blocks `β`, each encrypted to `w` bytes, and the
counter's successor. -/
structure CounterMode (κ β : Type*) (w : ℕ) where
  block : κ → β → Vector UInt8 w
  next : β → β
  width_pos : 0 < w

namespace CounterMode

variable {κ β : Type*} {w : ℕ} (C : CounterMode κ β w) (k : κ) (iv : β)

/-- Byte `j` of the keystream from the counter block `iv`. -/
def keystream (j : ℕ) : UInt8 :=
  (C.block k (C.next^[j / w] iv)).get ⟨j % w, Nat.mod_lt _ C.width_pos⟩

/-- Encrypt, or decrypt. -/
def crypt (data : List UInt8) : List UInt8 :=
  data.mapIdx fun j b => b ^^^ C.keystream k iv j

@[simp] theorem length_crypt (data : List UInt8) : (C.crypt k iv data).length = data.length := by
  simp [crypt]

theorem getElem?_crypt (data : List UInt8) (j : ℕ) :
    (C.crypt k iv data)[j]? = data[j]?.map (· ^^^ C.keystream k iv j) := by
  simp [crypt]

/-- **A second pass undoes the first.** -/
theorem crypt_crypt (data : List UInt8) : C.crypt k iv (C.crypt k iv data) = data := by
  apply List.ext_getElem?
  intro j
  rw [getElem?_crypt, getElem?_crypt, Option.map_map]
  cases data[j]? with
  | none => rfl
  | some b =>
    have hself : (b ^^^ C.keystream k iv j) ^^^ C.keystream k iv j = b := by
      rw [UInt8.xor_assoc, UInt8.xor_self, UInt8.xor_zero]
    exact congrArg some hself

/-- **Two texts under one keystream**: the cipher falls out of their XOR. -/
theorem xor_crypt (a b : List UInt8) :
    List.zipWith (· ^^^ ·) (C.crypt k iv a) (C.crypt k iv b) = List.zipWith (· ^^^ ·) a b := by
  apply List.ext_getElem?
  intro j
  rw [List.getElem?_zipWith, List.getElem?_zipWith, getElem?_crypt, getElem?_crypt]
  cases a[j]? with
  | none => rfl
  | some x =>
    cases b[j]? with
    | none => rfl
    | some y =>
      have hswap : (x ^^^ C.keystream k iv j) ^^^ (y ^^^ C.keystream k iv j) = x ^^^ y := by
        rw [UInt8.xor_assoc, UInt8.xor_comm y, ← UInt8.xor_assoc (C.keystream k iv j),
          UInt8.xor_self, UInt8.zero_xor]
      simp [hswap]

end CounterMode
