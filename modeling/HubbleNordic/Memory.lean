import Mathlib.Data.List.GetD
import Mathlib.Tactic

/-!
# A byte-addressed memory

Buffers are given by their address and their size and do not wrap around.

* `read`, `store`: the bytes of a buffer, and a memory with other bytes in their place;
* `SameOutside`: two memories that agree outside some buffers;
* `read_store` and `SameOutside.read`: what is read after a change.
-/

/-- A memory. -/
abbrev Memory := ℕ → UInt8

/-- A buffer in it. -/
structure Buffer where
  address : ℕ
  size : ℕ
  deriving DecidableEq

/-- The address lies in the buffer. -/
def Buffer.Holds (b : Buffer) (x : ℕ) : Prop := b.address ≤ x ∧ x < b.address + b.size

/-- The buffers do not overlap. -/
def Buffer.Apart (b c : Buffer) : Prop :=
  b.address + b.size ≤ c.address ∨ c.address + c.size ≤ b.address

instance (b c : Buffer) : Decidable (b.Apart c) := inferInstanceAs (Decidable (_ ∨ _))

namespace Memory

/-- The bytes of a buffer. -/
def read (m : Memory) (b : Buffer) : List UInt8 :=
  (List.range b.size).map fun i => m (b.address + i)

/-- The memory with `bs` from `p` on. -/
def store (m : Memory) (p : ℕ) (bs : List UInt8) : Memory := fun x =>
  if p ≤ x then bs.getD (x - p) (m x) else m x

/-- The memories agree outside the buffers. -/
def SameOutside (l : List Buffer) (m m' : Memory) : Prop :=
  ∀ x, (∀ b ∈ l, ¬ b.Holds x) → m' x = m x

variable {m m' m'' : Memory} {l l' : List Buffer} {b c : Buffer}

@[simp] theorem length_read (m : Memory) (b : Buffer) : (m.read b).length = b.size := by
  simp [read]

theorem read_congr (h : ∀ x, b.Holds x → m' x = m x) : m'.read b = m.read b := by
  unfold read
  refine List.map_congr_left fun i hi => ?_
  have := List.mem_range.mp hi
  exact h _ ⟨by omega, by omega⟩

@[simp] theorem store_nil (m : Memory) (p : ℕ) : m.store p [] = m := by
  funext x
  simp [store]

theorem store_cons (m : Memory) (p : ℕ) (v : UInt8) (bs : List UInt8) :
    m.store p (v :: bs) = (m.store p [v]).store (p + 1) bs := by
  funext x
  unfold store
  rcases lt_trichotomy x p with h | rfl | h
  · rw [if_neg (by omega), if_neg (by omega), if_neg (by omega)]
  · rw [if_pos le_rfl, if_neg (by omega), if_pos le_rfl, Nat.sub_self]
    rfl
  · obtain ⟨d, rfl⟩ := Nat.exists_eq_add_of_lt h
    rw [if_pos (by omega), if_pos (by omega), if_pos (by omega),
      show p + d + 1 - p = d + 1 by omega, show p + d + 1 - (p + 1) = d by omega]
    rfl

/-- What is stored is read. -/
theorem read_store (m : Memory) (p : ℕ) (bs : List UInt8) :
    (m.store p bs).read ⟨p, bs.length⟩ = bs := by
  apply List.ext_getElem (by simp)
  intro i h _
  rw [length_read] at h
  simp [read, store, List.getElem?_eq_getElem h]

/-! ### What a change leaves alone -/

theorem SameOutside.refl (l : List Buffer) (m : Memory) : SameOutside l m m := fun _ _ => rfl

theorem SameOutside.mono (h : SameOutside l m m') (hl : l ⊆ l') : SameOutside l' m m' :=
  fun x hx => h x fun b hb => hx b (hl hb)

theorem SameOutside.trans (h : SameOutside l m m') (h' : SameOutside l' m' m'') :
    SameOutside (l ++ l') m m'' := by
  intro x hx
  rw [h' x fun b hb => hx b (List.mem_append_right _ hb)]
  exact h x fun b hb => hx b (List.mem_append_left _ hb)

/-- A store within a buffer. -/
theorem sameOutside_store (m : Memory) {bs : List UInt8} (h : bs.length ≤ b.size) :
    SameOutside [b] m (m.store b.address bs) := by
  intro x hx
  replace hx := hx b List.mem_cons_self
  unfold Buffer.Holds at hx
  unfold store
  split_ifs with hp
  · exact List.getD_eq_default _ _ (by omega)
  · rfl

/-- A buffer apart from those that change. -/
theorem SameOutside.read (h : SameOutside l m m') (hc : ∀ b ∈ l, b.Apart c) :
    m'.read c = m.read c := by
  refine read_congr fun x hx => h x fun b hb hbx => ?_
  have := hc b hb
  unfold Buffer.Apart at this
  unfold Buffer.Holds at hx hbx
  omega

end Memory
