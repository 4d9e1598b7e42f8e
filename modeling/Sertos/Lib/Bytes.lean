import Mathlib.Data.List.GetD
import Mathlib.Algebra.Order.Ring.Nat
import Mathlib.Tactic.Common

/-!
# Memory by the byte

Memory with addresses of `w` bits, and what the writing of a block of bytes does to it.  Address
arithmetic wraps around, so a lemma about a block asks that the block does not; `Within` then says
which addresses it covers.

`alignDown` clears the low bits of an address with a mask.  For a power of two that is rounding down
to a multiple of it (`toNat_alignDown`).
-/

set_option autoImplicit false

namespace Bytes

variable {w n k : ℕ} {a x : BitVec w} {bytes : List UInt8}

/-! ## Blocks -/

/-- Memory with addresses of `w` bits. -/
abbrev Memory (w : ℕ) := BitVec w → UInt8

/-- `x` is one of the `n` addresses from `a` on. -/
def Within (a : BitVec w) (n : ℕ) (x : BitVec w) : Prop :=
  a.toNat ≤ x.toNat ∧ x.toNat < a.toNat + n

instance (a : BitVec w) (n : ℕ) (x : BitVec w) : Decidable (Within a n x) :=
  inferInstanceAs (Decidable (_ ∧ _))

theorem Within.toNat_sub (h : Within a n x) : (x - a).toNat = x.toNat - a.toNat := by
  have hx := x.isLt
  have ha := a.isLt
  rw [BitVec.toNat_sub, show 2 ^ w - a.toNat + x.toNat = x.toNat - a.toNat + 2 ^ w by
    have := h.1
    omega, Nat.add_mod_right, Nat.mod_eq_of_lt (by omega)]

/-- An address outside a block that does not wrap around is at least its size away, going up. -/
theorem le_toNat_sub (hfit : a.toNat + n ≤ 2 ^ w) (h : ¬ Within a n x) : n ≤ (x - a).toNat := by
  have hx := x.isLt
  rw [BitVec.toNat_sub]
  rcases Nat.lt_or_ge x.toNat a.toNat with hlt | hge
  · rw [Nat.mod_eq_of_lt (by omega)]
    omega
  · have hfar : a.toNat + n ≤ x.toNat := not_lt.1 fun hlt => h ⟨hge, hlt⟩
    rw [show 2 ^ w - a.toNat + x.toNat = x.toNat - a.toNat + 2 ^ w by omega, Nat.add_mod_right,
      Nat.mod_eq_of_lt (by omega)]
    omega

theorem toNat_add_ofNat (h : a.toNat + n < 2 ^ w) : (a + BitVec.ofNat w n).toNat = a.toNat + n := by
  rw [BitVec.toNat_add, BitVec.toNat_ofNat, Nat.add_mod_mod, Nat.mod_eq_of_lt h]

theorem toNat_sub_ofNat (h : n ≤ a.toNat) : (a - BitVec.ofNat w n).toNat = a.toNat - n := by
  have hn : (BitVec.ofNat w n).toNat = n := by
    rw [BitVec.toNat_ofNat, Nat.mod_eq_of_lt (h.trans_lt a.isLt)]
  rw [BitVec.toNat_sub_of_le (by rwa [BitVec.le_def, hn]), hn]

/-- Writes a block of bytes, the first of them at `a`. -/
def Memory.write (m : Memory w) (a : BitVec w) (bytes : List UInt8) : Memory w :=
  fun x => bytes.getD (x - a).toNat (m x)

theorem Memory.write_of_not_within (m : Memory w) (hfit : a.toNat + bytes.length ≤ 2 ^ w)
    (h : ¬ Within a bytes.length x) : m.write a bytes x = m x :=
  List.getD_eq_default _ _ (le_toNat_sub hfit h)

theorem Memory.write_of_within (m : Memory w) (h : Within a bytes.length x) :
    bytes[x.toNat - a.toNat]? = some (m.write a bytes x) := by
  have hlt : x.toNat - a.toNat < bytes.length := by
    have := h.1
    have := h.2
    omega
  rw [write, h.toNat_sub, List.getD_eq_getElem _ _ hlt, List.getElem?_eq_getElem hlt]

/-- Filling a block with one value. -/
theorem Memory.write_replicate {b : UInt8} (m : Memory w) (h : Within a n x) :
    m.write a (List.replicate n b) x = b := by
  have hwithin : Within a (List.replicate n b).length x := by rwa [List.length_replicate]
  have hwrite := m.write_of_within hwithin
  exact List.eq_of_mem_replicate (List.mem_of_getElem? hwrite)

/-! ## Words in memory -/

inductive ByteOrder
  | littleEndian
  | bigEndian
deriving DecidableEq, Repr

/-- The bytes of a word of `size` bytes, the one at the lowest address first. -/
def ofWord (order : ByteOrder) (size : ℕ) (x : BitVec w) : List UInt8 :=
  let bytes := (List.range size).map fun i => UInt8.ofNat (x.toNat / 256 ^ i)
  match order with
  | .littleEndian => bytes
  | .bigEndian => bytes.reverse

theorem length_ofWord (order : ByteOrder) (size : ℕ) (x : BitVec w) :
    (ofWord order size x).length = size := by
  cases order <;> simp [ofWord]

theorem length_flatMap_ofWord (order : ByteOrder) (size : ℕ) (words : List (BitVec w)) :
    (words.flatMap (ofWord order size)).length = words.length * size := by
  induction words with
  | nil => simp
  | cons x words ih =>
    rw [List.flatMap_cons, List.length_append, length_ofWord, ih, List.length_cons, Nat.succ_mul,
      Nat.add_comm]

theorem head?_flatMap_ofWord {size : ℕ} (hsize : 0 < size) (order : ByteOrder) (x : BitVec w)
    (words : List (BitVec w)) :
    ((x :: words).flatMap (ofWord order size)).head? = (ofWord order size x).head? := by
  have hne : ofWord order size x ≠ [] := by
    rw [← List.length_pos_iff, length_ofWord]
    exact hsize
  obtain ⟨b, rest, hbytes⟩ := List.exists_cons_of_ne_nil hne
  rw [List.flatMap_cons, hbytes]
  rfl

/-! ## Rounding down -/

/-- Clears the bits of `n - 1`. -/
def alignDown (n : ℕ) (a : BitVec w) : BitVec w := a &&& ~~~(BitVec.ofNat w n - 1)

theorem alignDown_eq_shift (hk : k < w) (a : BitVec w) : alignDown (2 ^ k) a = a >>> k <<< k := by
  have hmask : (BitVec.ofNat w (2 ^ k) - 1).toNat = 2 ^ k - 1 := by
    have hpow : 2 ^ k < 2 ^ w := Nat.pow_lt_pow_right (by decide) hk
    have hone : (BitVec.ofNat w (2 ^ k)).toNat = 2 ^ k := by
      rw [BitVec.toNat_ofNat, Nat.mod_eq_of_lt hpow]
    have hsub := toNat_sub_ofNat (a := BitVec.ofNat w (2 ^ k)) (n := 1)
      (by rw [hone]; exact Nat.one_le_two_pow)
    rwa [hone] at hsub
  refine BitVec.eq_of_getLsbD_eq fun i hi => ?_
  rw [alignDown, BitVec.getLsbD_and, BitVec.getLsbD_not, BitVec.getLsbD_shiftLeft,
    BitVec.getLsbD_ushiftRight, ← BitVec.testBit_toNat (BitVec.ofNat w (2 ^ k) - 1), hmask,
    Nat.testBit_two_pow_sub_one]
  by_cases hik : i < k
  · simp [hik]
  · rw [Nat.add_sub_cancel' (not_lt.1 hik)]
    simp [hi, hik]

/-- **Clearing the low bits rounds down.** -/
theorem toNat_alignDown (hk : k < w) (a : BitVec w) :
    (alignDown (2 ^ k) a).toNat = a.toNat / 2 ^ k * 2 ^ k := by
  rw [alignDown_eq_shift hk, BitVec.toNat_shiftLeft, BitVec.toNat_ushiftRight, Nat.shiftLeft_eq,
    Nat.shiftRight_eq_div_pow]
  exact Nat.mod_eq_of_lt ((Nat.div_mul_le_self _ _).trans_lt a.isLt)

end Bytes
