import Mathlib.Tactic

/-!
# Decimal numerals in ASCII

* `value`: the number a string of digits stands for, most significant digit first;
* `IsNumeral n s`: `s` is the decimal numeral of `n`, without leading zeros;
* `print`: the numeral of a number; `isNumeral_print_iff`: it is the numeral of no other number;
* `printInt`, `readInt`: the same with a sign.
-/

namespace Decimal

/-- The byte of a digit. -/
def digit (d : ℕ) : UInt8 := UInt8.ofNat (0x30 + d)

/-- The number a string of digits stands for. -/
def value (s : List UInt8) : ℕ := s.foldl (fun acc b => 10 * acc + (b.toNat - 0x30)) 0

/-- The decimal numeral of `n`. -/
structure IsNumeral (n : ℕ) (s : List UInt8) : Prop where
  ne_nil : s ≠ []
  digits : ∀ b ∈ s, 0x30 ≤ b.toNat ∧ b.toNat ≤ 0x39
  no_leading_zero : s.head? = some (digit 0) → s = [digit 0]
  value : value s = n

/-- The digits of `n`. -/
def print (n : ℕ) : List UInt8 := (Nat.toDigits 10 n).map Char.toUInt8

variable {n m d : ℕ} {s : List UInt8}

theorem digit_toNat (hd : d < 10) : (digit d).toNat = 0x30 + d :=
  UInt8.toNat_ofNat_of_lt' (by simp only [UInt8.size]; omega)

theorem digitChar_toUInt8 (hd : d < 10) : (Nat.digitChar d).toUInt8 = digit d := by
  interval_cases d <;> rfl

theorem value_snoc (hd : d < 10) : value (s ++ [digit d]) = 10 * value s + d := by
  simp [value, digit_toNat hd]

/-- The last digit comes off the end. -/
theorem print_eq (n : ℕ) :
    print n = if n < 10 then [digit n] else print (n / 10) ++ [digit (n % 10)] := by
  unfold print
  rw [Nat.toDigits_eq_if (by norm_num)]
  split_ifs with hn
  · rw [List.map_singleton, digitChar_toUInt8 hn]
  · rw [List.map_append, List.map_singleton, digitChar_toUInt8 (Nat.mod_lt n (by norm_num))]

theorem isNumeral_digit (hd : d < 10) : IsNumeral d [digit d] where
  ne_nil := List.cons_ne_nil _ _
  digits b hb := by
    rw [List.mem_singleton.mp hb, digit_toNat hd]
    omega
  no_leading_zero h := by simpa using h
  value := by simpa [Decimal.value] using value_snoc (s := []) hd

/-- A digit after the numeral of a positive number. -/
theorem IsNumeral.snoc (hs : IsNumeral n s) (hn : 0 < n) (hd : d < 10) :
    IsNumeral (10 * n + d) (s ++ [digit d]) where
  ne_nil := by simp
  digits b hb := by
    rcases List.mem_append.mp hb with hb | hb
    · exact hs.digits b hb
    · exact (isNumeral_digit hd).digits b hb
  no_leading_zero h := by
    rw [List.head?_append_of_ne_nil _ hs.ne_nil] at h
    have hzero : Decimal.value s = 0 := by
      rw [hs.no_leading_zero h]
      rfl
    have hval := hs.value
    omega
  value := by rw [value_snoc hd, hs.value]

/-- **Printing gives the numeral**: by induction on the number of digits. -/
theorem isNumeral_print (n : ℕ) : IsNumeral n (print n) := by
  induction n using Nat.strongRecOn with
  | ind n ih =>
    rw [print_eq]
    split_ifs with hn
    · exact isNumeral_digit hn
    · have hinit := ih (n / 10) (by omega)
      have h := hinit.snoc (by omega) (Nat.mod_lt n (by norm_num))
      rwa [Nat.div_add_mod] at h

theorem isNumeral_print_iff : IsNumeral n (print m) ↔ n = m := by
  constructor
  · intro h
    rw [← h.value, (isNumeral_print m).value]
  · rintro rfl
    exact isNumeral_print n

theorem length_print_le {k : ℕ} (hk : 0 < k) (hn : n < 10 ^ k) : (print n).length ≤ k := by
  rw [print, List.length_map]
  exact (Nat.length_toDigits_le_iff (by norm_num) hk).mpr hn

/-- A numeral holds no string terminator. -/
theorem IsNumeral.zero_not_mem (hs : IsNumeral n s) : 0 ∉ s :=
  fun h => absurd (hs.digits 0 h).1 (by decide)

/-! ### With a sign -/

/-- The minus sign. -/
def minus : UInt8 := 0x2D

/-- The digits of `z`, after a minus sign if it is negative. -/
def printInt (z : ℤ) : List UInt8 := if z < 0 then minus :: print z.natAbs else print z.natAbs

/-- The integer that a string of digits with an optional minus sign stands for. -/
def readInt (s : List UInt8) : ℤ :=
  if s.head? = some minus then -(value s.tail : ℤ) else value s

variable {z : ℤ} {b : UInt8}

/-- A byte of a signed numeral is the minus sign or a digit. -/
theorem mem_printInt (hb : b ∈ printInt z) : b = minus ∨ 0x30 ≤ b.toNat ∧ b.toNat ≤ 0x39 := by
  have hdigits := (isNumeral_print z.natAbs).digits b
  unfold printInt at hb
  split_ifs at hb
  · rcases List.mem_cons.mp hb with rfl | hb
    · exact .inl rfl
    · exact .inr (hdigits hb)
  · exact .inr (hdigits hb)

theorem readInt_printInt (z : ℤ) : readInt (printInt z) = z := by
  have hval := (isNumeral_print z.natAbs).value
  unfold printInt
  split_ifs with hz
  · have hsign : readInt (minus :: print z.natAbs) = -(value (print z.natAbs) : ℤ) := if_pos rfl
    rw [hsign, hval]
    omega
  · have hhead : (print z.natAbs).head? ≠ some minus := by
      intro h
      have := ((isNumeral_print z.natAbs).digits _ (List.mem_of_mem_head? h)).1
      exact absurd this (by decide)
    rw [readInt, if_neg hhead, hval]
    omega

theorem length_printInt_le {k : ℕ} (hk : 0 < k) (hz : z.natAbs < 10 ^ k) :
    (printInt z).length ≤ k + 1 := by
  have hlen := length_print_le hk hz
  unfold printInt
  split_ifs
  · exact Nat.succ_le_succ hlen
  · omega

end Decimal
