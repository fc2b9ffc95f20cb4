import Mathlib.Tactic

/-!
# Base64

Three bytes are four symbols of six bits each; the last group is padded.

* `symbol`, `value?`: the alphabet; `symbols`: the values of a text, everything else skipped;
* `encode`: the standard encoding, with padding;
* `decode`: the complete bytes of a sequence of six-bit values, as `length_decode` counts them;
* `decode_symbols_encode`: what was encoded is read back.
-/

namespace Base64

/-- The symbol of a six-bit value: `A` to `Z`, `a` to `z`, `0` to `9`, `+` and `/`. -/
def symbol (v : Fin 64) : UInt8 :=
  if v.val < 26 then UInt8.ofNat (0x41 + v.val)
  else if v.val < 52 then UInt8.ofNat (0x61 + (v.val - 26))
  else if v.val < 62 then UInt8.ofNat (0x30 + (v.val - 52))
  else if v.val = 62 then 0x2B
  else 0x2F

/-- The character that fills up the last group: `=`. -/
def pad : UInt8 := 0x3D

/-- The value of a symbol; `none` outside the alphabet. -/
def value? (c : UInt8) : Option (Fin 64) := (List.finRange 64).find? fun v => symbol v = c

/-- The values of the symbols of a text, everything outside the alphabet skipped. -/
def symbols (text : List UInt8) : List (Fin 64) := text.filterMap value?

/-- The four values of the bytes `x y z`. -/
def value₀ (x : UInt8) : Fin 64 := Fin.ofNat 64 (x.toNat / 4)
def value₁ (x y : UInt8) : Fin 64 := Fin.ofNat 64 (x.toNat % 4 * 16 + y.toNat / 16)
def value₂ (y z : UInt8) : Fin 64 := Fin.ofNat 64 (y.toNat % 16 * 4 + z.toNat / 64)
def value₃ (z : UInt8) : Fin 64 := Fin.ofNat 64 (z.toNat % 64)

/-- The three bytes of the values `a b c d`. -/
def byte₀ (a b : Fin 64) : UInt8 := UInt8.ofNat (a.val * 4 + b.val / 16)
def byte₁ (b c : Fin 64) : UInt8 := UInt8.ofNat (b.val % 16 * 16 + c.val / 4)
def byte₂ (c d : Fin 64) : UInt8 := UInt8.ofNat (c.val % 4 * 64 + d.val)

/-- The standard encoding, with padding. -/
def encode : List UInt8 → List UInt8
  | [] => []
  | [x] => [symbol (value₀ x), symbol (value₁ x 0), pad, pad]
  | [x, y] => [symbol (value₀ x), symbol (value₁ x y), symbol (value₂ y 0), pad]
  | x :: y :: z :: ds =>
      symbol (value₀ x) :: symbol (value₁ x y) :: symbol (value₂ y z) :: symbol (value₃ z) ::
        encode ds

/-- The complete bytes of a sequence of values, six bits each. -/
def decode : List (Fin 64) → List UInt8
  | [] => []
  | [_] => []
  | [a, b] => [byte₀ a b]
  | [a, b, c] => [byte₀ a b, byte₁ b c]
  | a :: b :: c :: d :: vs => byte₀ a b :: byte₁ b c :: byte₂ c d :: decode vs

/-! ### Symbols -/

@[simp] theorem value?_symbol (v : Fin 64) : value? (symbol v) = some v := by
  revert v
  decide

@[simp] theorem value?_pad : value? pad = none := by decide

@[simp] theorem symbols_nil : symbols [] = [] := rfl

@[simp] theorem symbols_symbol_cons (v : Fin 64) (text : List UInt8) :
    symbols (symbol v :: text) = v :: symbols text :=
  List.filterMap_cons_some (value?_symbol v)

@[simp] theorem symbols_pad_cons (text : List UInt8) : symbols (pad :: text) = symbols text :=
  List.filterMap_cons_none value?_pad

theorem length_symbols_le (text : List UInt8) : (symbols text).length ≤ text.length :=
  List.length_filterMap_le _ _

/-! ### One group -/

@[simp] theorem byte₀_value (x y : UInt8) : byte₀ (value₀ x) (value₁ x y) = x := by
  have hx := x.toNat_lt
  have hy := y.toNat_lt
  apply UInt8.toNat_inj.mp
  simp only [byte₀, value₀, value₁, Fin.val_ofNat, UInt8.toNat_ofNat']
  omega

@[simp] theorem byte₁_value (x y z : UInt8) : byte₁ (value₁ x y) (value₂ y z) = y := by
  have hy := y.toNat_lt
  have hz := z.toNat_lt
  apply UInt8.toNat_inj.mp
  simp only [byte₁, value₁, value₂, Fin.val_ofNat, UInt8.toNat_ofNat']
  omega

@[simp] theorem byte₂_value (y z : UInt8) : byte₂ (value₂ y z) (value₃ z) = z := by
  have hz := z.toNat_lt
  apply UInt8.toNat_inj.mp
  simp only [byte₂, value₂, value₃, Fin.val_ofNat, UInt8.toNat_ofNat']
  omega

/-! ### Whole texts -/

/-- Every group of three bytes, also the last, is four characters. -/
theorem length_encode (ds : List UInt8) : (encode ds).length = 4 * ((ds.length + 2) / 3) := by
  induction ds using encode.induct with
  | case1 => rfl
  | case2 x => simp [encode]
  | case3 x y => simp [encode]
  | case4 x y z ds ih =>
    simp only [encode, List.length_cons, ih]
    omega

theorem length_decode (vs : List (Fin 64)) : (decode vs).length = 6 * vs.length / 8 := by
  induction vs using decode.induct with
  | case1 => rfl
  | case2 a => simp [decode]
  | case3 a b => simp [decode]
  | case4 a b c => simp [decode]
  | case5 a b c d vs ih =>
    simp only [decode, List.length_cons, ih]
    omega

/-- **What was encoded is read back**: group by group. -/
theorem decode_symbols_encode (ds : List UInt8) : decode (symbols (encode ds)) = ds := by
  induction ds using encode.induct with
  | case1 => rfl
  | case2 x => simp [encode, decode]
  | case3 x y => simp [encode, decode]
  | case4 x y z ds ih => simp [encode, decode, ih]

/-- `Mana` is `TWFuYQ==`. -/
example : encode [0x4D, 0x61, 0x6E, 0x61] =
    [0x54, 0x57, 0x46, 0x75, 0x59, 0x51, 0x3D, 0x3D] := by decide

end Base64
