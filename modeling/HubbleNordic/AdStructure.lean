import Mathlib.Tactic

/-!
# Length-type-value structures

Advertising data is a sequence of structures: a length byte, a type byte, and a value of one byte
less than the length.  `parse` reads a byte string by that rule and accepts it only if no byte is
left over; a length of zero, which ends the data early, is not a structure.

* `encode`, `encodeAll`, `parse`;
* `parse_encodeAll`: what was encoded is read back, whatever the values, as long as each fits its
  length byte.
-/

/-- A type byte and its value. -/
structure AdStructure where
  adType : UInt8
  value : List UInt8
  deriving DecidableEq

namespace AdStructure

/-- The bytes of a structure. -/
def encode (s : AdStructure) : List UInt8 :=
  UInt8.ofNat (s.value.length + 1) :: s.adType :: s.value

/-- The bytes of a sequence of structures. -/
def encodeAll (l : List AdStructure) : List UInt8 := l.flatMap encode

/-- Read at most `n` structures; every byte has to be used up. -/
def parseFuel : ℕ → List UInt8 → Option (List AdStructure)
  | _, [] => some []
  | 0, _ :: _ => none
  | n + 1, len :: rest =>
      match rest.take len.toNat with
      | [] => none
      | adType :: value =>
          if rest.length < len.toNat then none
          else (parseFuel n (rest.drop len.toNat)).map (⟨adType, value⟩ :: ·)

/-- Read a byte string as a sequence of structures with no byte left over. -/
def parse (bytes : List UInt8) : Option (List AdStructure) := parseFuel bytes.length bytes

theorem parseFuel_encode_append {s : AdStructure} (hs : s.value.length < 255) (n : ℕ)
    (bytes : List UInt8) :
    parseFuel (n + 1) (s.encode ++ bytes) = (parseFuel n bytes).map (s :: ·) := by
  have hlen : (UInt8.ofNat (s.value.length + 1)).toNat = (s.adType :: s.value).length := by
    rw [UInt8.toNat_ofNat_of_lt' (by simp only [UInt8.size]; omega), List.length_cons]
  have hsplit : s.encode ++ bytes =
      UInt8.ofNat (s.value.length + 1) :: ((s.adType :: s.value) ++ bytes) := rfl
  have htake : ((s.adType :: s.value) ++ bytes).take (s.adType :: s.value).length =
      s.adType :: s.value := List.take_left
  have hdrop : ((s.adType :: s.value) ++ bytes).drop (s.adType :: s.value).length = bytes :=
    List.drop_left
  have hfits : ¬ ((s.adType :: s.value) ++ bytes).length < (s.adType :: s.value).length := by
    rw [List.length_append]
    omega
  rw [← hlen] at htake hdrop hfits
  rw [hsplit, parseFuel, htake, hdrop]
  exact if_neg hfits

/-- Structures that fit their length bytes are read back. -/
theorem parse_encodeAll {l : List AdStructure} (hl : ∀ s ∈ l, s.value.length < 255) :
    parse (encodeAll l) = some l := by
  have key : ∀ n, (encodeAll l).length ≤ n → parseFuel n (encodeAll l) = some l := by
    induction l with
    | nil => intro n _; cases n <;> rfl
    | cons s l ih =>
      intro n hn
      have hcons : encodeAll (s :: l) = s.encode ++ encodeAll l := List.flatMap_cons
      rw [hcons, List.length_append] at hn
      have hpos : 0 < s.encode.length := by simp [encode]
      obtain ⟨m, rfl⟩ : ∃ m, n = m + 1 := ⟨n - 1, by omega⟩
      rw [hcons, parseFuel_encode_append (hl s List.mem_cons_self),
        ih (fun t ht => hl t (List.mem_cons_of_mem _ ht)) m (by omega)]
      rfl
  exact key _ le_rfl

end AdStructure
