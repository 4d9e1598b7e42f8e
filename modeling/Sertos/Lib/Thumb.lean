import Mathlib.Data.BitVec
import Mathlib.Logic.Function.Basic
import Mathlib.Tactic.Common

/-!
# A subset of Thumb

The instructions of a context switch on a Cortex-M core, over a memory of 32-bit words: moves
between registers, loads and stores of one register and of several, the process stack pointer and
its limit, and a branch forward.  An access at an address that is no multiple of four is a fault,
and there is no state after it.

A call of a function is not executed but taken from a relation between the states before and after
it (`Exec`), so a program can be run around a function of which only a contract is known.

Memory is written and read in blocks of consecutive words.  The lemmas about `Memory.write` and
`Memory.read` say which words a block covers (`Within`), and nothing else about addresses is needed
to use them.
-/

set_option autoImplicit false

namespace Thumb

/-- A machine word, also as an address. -/
abbrev Word := BitVec 32

/-! ## Memory -/

/-- The word at each address that is a multiple of four. -/
abbrev Memory := Word → Word

/-- The address is a multiple of four. -/
def Aligned (a : Word) : Prop := a.toNat % 4 = 0

instance : DecidablePred Aligned := fun a => inferInstanceAs (Decidable (a.toNat % 4 = 0))

theorem Aligned.add {a b : Word} (ha : Aligned a) (hb : Aligned b) : Aligned (a + b) := by
  rw [Aligned] at *
  rw [BitVec.toNat_add]
  omega

theorem Aligned.sub {a b : Word} (ha : Aligned a) (hb : Aligned b) : Aligned (a - b) := by
  rw [Aligned] at *
  rw [BitVec.toNat_sub]
  omega

/-- The size of `n` words. -/
@[irreducible] def bytes (n : ℕ) : Word := BitVec.ofNat 32 (4 * n)

theorem aligned_bytes (n : ℕ) : Aligned (bytes n) := by
  rw [Aligned, bytes, BitVec.toNat_ofNat]
  omega

theorem bytes_succ (n : ℕ) : bytes (n + 1) = 4 + bytes n := by
  rw [bytes, bytes, Nat.mul_add, Nat.add_comm, BitVec.ofNat_add]
  rfl

theorem bytes_add (m n : ℕ) : bytes (m + n) = bytes m + bytes n := by
  rw [bytes, bytes, bytes, Nat.mul_add, BitVec.ofNat_add]

/-- `x` is the address of one of the `n` words from `a` on. -/
def Within (a : Word) (n : ℕ) (x : Word) : Prop := ∃ i < n, x = a + bytes i

section Within

variable {a x : Word} {m n : ℕ}

theorem within_succ : Within a (n + 1) x ↔ x = a ∨ Within (a + 4) n x := by
  constructor
  · rintro ⟨i, hi, rfl⟩
    cases i with
    | zero => exact Or.inl (by simp [bytes])
    | succ i =>
      exact Or.inr ⟨i, Nat.lt_of_succ_lt_succ hi, by rw [bytes_succ, BitVec.add_assoc]⟩
  · rintro (rfl | ⟨i, hi, rfl⟩)
    · exact ⟨0, Nat.succ_pos n, by simp [bytes]⟩
    · exact ⟨i + 1, Nat.succ_lt_succ hi, by rw [bytes_succ, BitVec.add_assoc]⟩

theorem Within.mono (h : Within a m x) (hmn : m ≤ n) : Within a n x := by
  obtain ⟨i, hi, rfl⟩ := h
  exact ⟨i, hi.trans_le hmn, rfl⟩

/-- A block that does not wrap around does not come back to what is below it. -/
theorem not_within_below (h : 4 * (m + n) ≤ 2 ^ 32) (hm : Within a m x) :
    ¬ Within (a + bytes m) n x := by
  obtain ⟨i, hi, rfl⟩ := hm
  rintro ⟨j, hj, e⟩
  rw [BitVec.add_assoc, ← bytes_add, BitVec.add_right_inj] at e
  have e' := congrArg BitVec.toNat e
  rw [bytes, bytes, BitVec.toNat_ofNat, BitVec.toNat_ofNat, Nat.mod_eq_of_lt (by omega),
    Nat.mod_eq_of_lt (by omega)] at e'
  omega

/-- The words of a block that ends at `a` and does not wrap around. -/
theorem toNat_of_within_sub (h : 4 * n ≤ a.toNat) (hx : Within (a - bytes n) n x) :
    a.toNat - 4 * n ≤ x.toNat ∧ x.toNat < a.toNat := by
  obtain ⟨i, hi, rfl⟩ := hx
  have hn : (bytes n).toNat = 4 * n := by
    rw [bytes, BitVec.toNat_ofNat, Nat.mod_eq_of_lt (by omega)]
  have hi' : (bytes i).toNat = 4 * i := by
    rw [bytes, BitVec.toNat_ofNat, Nat.mod_eq_of_lt (by omega)]
  rw [BitVec.toNat_add, BitVec.toNat_sub, hn, hi']
  omega

end Within

namespace Memory

/-- Writes consecutive words. -/
def write (m : Memory) (a : Word) : List Word → Memory
  | [] => m
  | w :: ws => write (Function.update m a w) (a + 4) ws

/-- Reads `n` consecutive words. -/
def read (m : Memory) (a : Word) : ℕ → List Word
  | 0 => []
  | n + 1 => m a :: read m (a + 4) n

variable {m m' : Memory} {a b x : Word} {ws vs : List Word} {n k : ℕ}

@[simp] theorem length_read : (m.read a n).length = n := by
  induction n generalizing a with
  | zero => rfl
  | succ n ih => rw [read, List.length_cons, ih]

theorem write_of_not_within (h : ¬ Within a ws.length x) : m.write a ws x = m x := by
  induction ws generalizing m a with
  | nil => rfl
  | cons w ws ih =>
    rw [List.length_cons, within_succ, not_or] at h
    rw [write, ih h.2, Function.update_of_ne h.1]

theorem write_singleton (w : Word) : m.write a [w] = Function.update m a w := rfl

theorem read_congr (h : ∀ x, Within a n x → m' x = m x) : m'.read a n = m.read a n := by
  induction n generalizing a with
  | zero => rfl
  | succ n ih =>
    rw [read, read, h a (within_succ.2 (Or.inl rfl)),
      ih fun x hx => h x (within_succ.2 (Or.inr hx))]

theorem read_add : m.read a (n + k) = m.read a n ++ m.read (a + bytes n) k := by
  induction n generalizing a with
  | zero => simp [read, bytes]
  | succ n ih =>
    rw [Nat.add_right_comm, read, read, ih, List.cons_append, bytes_succ, BitVec.add_assoc]

/-- What was written is read back. -/
theorem read_write (h : 4 * ws.length ≤ 2 ^ 32) : (m.write a ws).read a ws.length = ws := by
  induction ws generalizing m a with
  | nil => rfl
  | cons w ws ih =>
    rw [List.length_cons] at h
    have hbelow : ¬ Within (a + 4) ws.length a := by
      have hself : Within a 1 a := ⟨0, Nat.one_pos, by simp [bytes]⟩
      have hroom : 4 * (1 + ws.length) ≤ 2 ^ 32 := by omega
      simpa [bytes] using not_within_below hroom hself
    rw [List.length_cons, read, write, ih (by omega), write_of_not_within hbelow,
      Function.update_self]

theorem write_update (h : ¬ Within b ws.length a) (w : Word) :
    write (Function.update m a w) b ws = Function.update (m.write b ws) a w := by
  induction ws generalizing m b with
  | nil => rfl
  | cons v ws ih =>
    rw [List.length_cons, within_succ, not_or] at h
    rw [write, write, Function.update_comm h.1, ih h.2]

/-- A block that is written from the bottom upwards. -/
theorem write_append (m : Memory) (a : Word) (ws vs : List Word) :
    (m.write a ws).write (a + bytes ws.length) vs = m.write a (ws ++ vs) := by
  induction ws generalizing m a with
  | nil => simp [write, bytes]
  | cons w ws ih =>
    rw [List.cons_append, write, write, List.length_cons, bytes_succ, ← BitVec.add_assoc, ih]

/-- A block that is written from the top downwards. -/
theorem write_write (m : Memory) (a : Word) (n : ℕ) (ws vs : List Word) (hn : ws.length = n)
    (h : 4 * (ws.length + vs.length) ≤ 2 ^ 32) :
    (m.write (a + bytes n) vs).write a ws = m.write a (ws ++ vs) := by
  subst hn
  induction ws generalizing m a with
  | nil => simp [write, bytes]
  | cons w ws ih =>
    rw [List.length_cons] at h
    have hself : Within a (ws.length + 1) a := ⟨0, Nat.succ_pos _, by simp [bytes]⟩
    have hnot : ¬ Within (a + bytes (ws.length + 1)) vs.length a := not_within_below h hself
    rw [List.cons_append, write, write, List.length_cons, ← write_update hnot, bytes_succ,
      ← BitVec.add_assoc, ih _ _ (by omega)]

end Memory

/-! ## Instructions -/

/-- The general purpose registers, the stack pointer in use and the link register. -/
inductive Reg
  | r0 | r1 | r2 | r3 | r4 | r5 | r6 | r7 | r8 | r9 | r10 | r11 | r12 | sp | lr
  deriving DecidableEq

/-- The state of the processor, with `fp` for the floating point registers `s0` to `s31` and `z` for
the zero flag. -/
structure State where
  reg : Reg → Word
  fp : ℕ → Word
  psp : Word
  psplim : Word
  z : Bool
  primask : Bool
  mem : Memory

/-- The instructions without branches.  An immediate operand is a word, and so is a literal loaded
with `ldr`. -/
inductive Op
  | cpsid | cpsie | isb
  | mrsPsp (rd : Reg) | msrPsp (rn : Reg) | msrPsplim (rn : Reg)
  | mov (rd rm : Reg) | adds (rd : Reg) (imm : Word) | subs (rd : Reg) (imm : Word)
  | cmp (rn : Reg) (imm : Word) | tst (rn : Reg) (imm : Word)
  | ldrLiteral (rt : Reg) (literal : Word) | ldr (rt rn : Reg) (imm : Word) | str (rt rn : Reg)
  | stmia (rn : Reg) (rs : List Reg) | stmdb (rn : Reg) (rs : List Reg)
  | ldmia (rn : Reg) (rs : List Reg)
  | vstmdb (rn : Reg) (first n : ℕ) | vldmia (rn : Reg) (first n : ℕ)

/-- `push` stores downwards from the stack pointer. -/
@[simp] def Op.push (rs : List Reg) : Op := .stmdb .sp rs

/-- `pop` loads upwards from the stack pointer. -/
@[simp] def Op.pop (rs : List Reg) : Op := .ldmia .sp rs

namespace State

@[simps] def set (s : State) (rd : Reg) (w : Word) : State :=
  { s with reg := Function.update s.reg rd w }

@[simps] def setPsp (s : State) (w : Word) : State := { s with psp := w }

@[simps] def setPsplim (s : State) (w : Word) : State := { s with psplim := w }

@[simps] def setPrimask (s : State) (b : Bool) : State := { s with primask := b }

/-- The zero flag for a result. -/
@[simps] def setFlag (s : State) (w : Word) : State := { s with z := w == 0 }

@[simps] def write (s : State) (a : Word) (ws : List Word) : State :=
  { s with mem := s.mem.write a ws }

/-- Loads consecutive words, the lowest into the first register. -/
@[simp] def load (s : State) : List Reg → Word → State
  | [], _ => s
  | rd :: rs, a => load (s.set rd (s.mem a)) rs (a + 4)

/-- Loads consecutive words into the `n` floating point registers from `first` on. -/
@[simps] def loadFp (s : State) (first n : ℕ) (a : Word) : State :=
  { s with fp := fun i =>
      if first ≤ i ∧ i < first + n then s.mem (a + bytes (i - first)) else s.fp i }

section Fields

variable {s : State} {rd : Reg} {w a : Word} {b : Bool} {ws : List Word}

@[simp] theorem mem_set : (s.set rd w).mem = s.mem := rfl

@[simp] theorem mem_setPrimask : (s.setPrimask b).mem = s.mem := rfl

@[simp] theorem mem_setFlag : (s.setFlag w).mem = s.mem := rfl

@[simp] theorem mem_write : (s.write a ws).mem = s.mem.write a ws := rfl

@[simp] theorem fp_set : (s.set rd w).fp = s.fp := rfl

@[simp] theorem fp_setPrimask : (s.setPrimask b).fp = s.fp := rfl

@[simp] theorem fp_setFlag : (s.setFlag w).fp = s.fp := rfl

end Fields

/-- The `n` floating point registers from `first` on. -/
def fpRegs (s : State) (first n : ℕ) : List Word := (List.range' first n).map s.fp

end State

/-- The state after an instruction; none if it loads from or stores to an address that is not
aligned. -/
@[simp] def Op.step : Op → State → Option State
  | .cpsid, s => some (s.setPrimask true)
  | .cpsie, s => some (s.setPrimask false)
  | .isb, s => some s
  | .mrsPsp rd, s => some (s.set rd s.psp)
  | .msrPsp rn, s => some (s.setPsp (s.reg rn))
  | .msrPsplim rn, s => some (s.setPsplim (s.reg rn))
  | .mov rd rm, s => some (s.set rd (s.reg rm))
  | .adds rd imm, s => some ((s.set rd (s.reg rd + imm)).setFlag (s.reg rd + imm))
  | .subs rd imm, s => some ((s.set rd (s.reg rd - imm)).setFlag (s.reg rd - imm))
  | .cmp rn imm, s => some (s.setFlag (s.reg rn - imm))
  | .tst rn imm, s => some (s.setFlag (s.reg rn &&& imm))
  | .ldrLiteral rt literal, s => some (s.set rt literal)
  | .ldr rt rn imm, s =>
    if Aligned (s.reg rn + imm) then some (s.set rt (s.mem (s.reg rn + imm))) else none
  | .str rt rn, s =>
    if Aligned (s.reg rn) then some (s.write (s.reg rn) [s.reg rt]) else none
  | .stmia rn rs, s =>
    if Aligned (s.reg rn) then
      some ((s.write (s.reg rn) (rs.map s.reg)).set rn (s.reg rn + bytes rs.length))
    else none
  | .stmdb rn rs, s =>
    if Aligned (s.reg rn - bytes rs.length) then
      some ((s.write (s.reg rn - bytes rs.length) (rs.map s.reg)).set rn
        (s.reg rn - bytes rs.length))
    else none
  | .ldmia rn rs, s =>
    if Aligned (s.reg rn) then
      some ((s.load rs (s.reg rn)).set rn (s.reg rn + bytes rs.length))
    else none
  | .vstmdb rn first n, s =>
    if Aligned (s.reg rn - bytes n) then
      some ((s.write (s.reg rn - bytes n) (s.fpRegs first n)).set rn (s.reg rn - bytes n))
    else none
  | .vldmia rn first n, s =>
    if Aligned (s.reg rn) then
      some ((s.loadFp first n (s.reg rn)).set rn (s.reg rn + bytes n))
    else none

/-- An instruction of a program: `eq` is one under `it eq`, `bl` calls a function, and `bx` leaves
the program. -/
inductive Instr (ι : Type)
  | op (o : Op) | eq (o : Op) | beq (l : ι) | label (l : ι) | bl (f : ι) | bx (rn : Reg)

/-- A run of a program to its `bx`, with `callee` relating the states around each call.  The first
argument is the label that a branch taken before looks for. -/
@[simp] def Exec {ι : Type} [DecidableEq ι] (callee : ι → State → State → Prop) :
    Option ι → List (Instr ι) → State → State → Prop
  | _, [], _, _ => False
  | some l, .label k :: is, s, s' => Exec callee (if k = l then none else some l) is s s'
  | some l, _ :: is, s, s' => Exec callee (some l) is s s'
  | none, .op o :: is, s, s' => ∃ t, o.step s = some t ∧ Exec callee none is t s'
  | none, .eq o :: is, s, s' =>
    if s.z then ∃ t, o.step s = some t ∧ Exec callee none is t s' else Exec callee none is s s'
  | none, .beq l :: is, s, s' => Exec callee (if s.z then some l else none) is s s'
  | none, .label _ :: is, s, s' => Exec callee none is s s'
  | none, .bl f :: is, s, s' => ∃ link t, callee f (s.set .lr link) t ∧ Exec callee none is t s'
  | none, .bx _ :: _, s, s' => s' = s

end Thumb
