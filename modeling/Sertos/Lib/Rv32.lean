import Sertos.Lib.Thumb

/-!
# A subset of RV32

The instructions of a trap handler on a 32-bit RISC-V core: loads and stores of integer and floating
point registers, the control and status registers of machine mode, branches forward and the return
from a trap.  Words and memory are those of `Sertos.Lib.Thumb`; an access at an address that is no
multiple of four is a fault, and there is no state after it.

`State.trap` is what the hardware does on entry to a handler, `State.mret` what it does at the end;
`MPRV`, which the return clears when it leaves machine mode, is left out.
A call of a function is taken from a relation between the states before and after it (`Exec`).  A
branch backward finds no label, so a program that waits in a loop for ever has no state after it.

The blocks of stores and loads of a context are run as a whole: `exec_storeRegs` and
`exec_loadRegs` turn them into one write and one read of consecutive words, whatever their length.
-/

set_option autoImplicit false

namespace Rv32

open Thumb (Word Memory Aligned bytes Within aligned_bytes bytes_succ bytes_add)

/-! ## States -/

/-- The general purpose registers, without `zero`. -/
inductive Reg
  | ra | sp | gp | tp | t0 | t1 | t2 | s0 | s1 | a0 | a1 | a2 | a3 | a4 | a5 | a6 | a7
  | s2 | s3 | s4 | s5 | s6 | s7 | s8 | s9 | s10 | s11 | t3 | t4 | t5 | t6
  deriving DecidableEq

/-- The state of the processor, with `fp` for the registers `f0` to `f31` and `mode` for the
privilege mode. -/
structure State where
  reg : Reg → Word
  fp : ℕ → Word
  fcsr : Word
  pc : Word
  mode : BitVec 2
  mepc : Word
  mstatus : Word
  mcause : Word
  mtvec : Word
  mem : Memory

inductive Csr
  | mepc | mstatus | mcause | mtvec
  deriving DecidableEq

namespace State

@[simps] def set (s : State) (rd : Reg) (w : Word) : State :=
  { s with reg := Function.update s.reg rd w }

@[simps] def setFp (s : State) (fd : ℕ) (w : Word) : State :=
  { s with fp := Function.update s.fp fd w }

@[simps] def setFcsr (s : State) (w : Word) : State := { s with fcsr := w }

@[simps] def write (s : State) (a : Word) (ws : List Word) : State :=
  { s with mem := s.mem.write a ws }

@[simp] def csr (s : State) : Csr → Word
  | .mepc => s.mepc
  | .mstatus => s.mstatus
  | .mcause => s.mcause
  | .mtvec => s.mtvec

@[simp] def setCsr (s : State) : Csr → Word → State
  | .mepc, w => { s with mepc := w }
  | .mstatus, w => { s with mstatus := w }
  | .mcause, w => { s with mcause := w }
  | .mtvec, w => { s with mtvec := w }

theorem reg_set_self (s : State) (rd : Reg) (w : Word) : (s.set rd w).reg rd = w :=
  Function.update_self ..

@[simp] theorem set_set (s : State) (rd : Reg) (w v : Word) :
    (s.set rd w).set rd v = s.set rd v := by
  rw [set, set, set, Function.update_idem]

/-- Loads consecutive words, the lowest into the first register. -/
def load (s : State) : List Reg → Word → State
  | [], _ => s
  | rd :: rs, a => load (s.set rd (s.mem a)) rs (a + 4)

/-- Loads consecutive words into the `n` floating point registers from `first` on. -/
def loadFp (s : State) : ℕ → ℕ → Word → State
  | _, 0, _ => s
  | first, n + 1, a => loadFp (s.setFp first (s.mem a)) (first + 1) n (a + 4)

/-- The `n` floating point registers from `first` on. -/
def fpRegs (s : State) (first n : ℕ) : List Word := (List.range' first n).map s.fp

/-! ### Loading -/

variable {s : State} {rs : List Reg} {r : Reg} {a : Word} {first n i : ℕ}

theorem load_frame : s.load rs a = { s with reg := (s.load rs a).reg } := by
  induction rs generalizing s a with
  | nil => rfl
  | cons rd rs ih => rw [load, ih]; rfl

theorem load_of_notMem (h : r ∉ rs) : (s.load rs a).reg r = s.reg r := by
  induction rs generalizing s a with
  | nil => rfl
  | cons rd rs ih =>
    rw [List.mem_cons, not_or] at h
    rw [load, ih h.2]
    exact Function.update_of_ne h.1 _ _

/-- The registers hold the words. -/
theorem map_load (hnodup : rs.Nodup) : rs.map (s.load rs a).reg = s.mem.read a rs.length := by
  induction rs generalizing s a with
  | nil => rfl
  | cons rd rs ih =>
    rw [List.nodup_cons] at hnodup
    rw [List.map_cons, load, load_of_notMem hnodup.1, ih hnodup.2]
    exact congrArg (· :: _) (Function.update_self ..)

theorem loadFp_frame : s.loadFp first n a = { s with fp := (s.loadFp first n a).fp } := by
  induction n generalizing s first a with
  | zero => rfl
  | succ n ih => rw [loadFp, ih]; rfl

theorem loadFp_of_lt (h : i < first) : (s.loadFp first n a).fp i = s.fp i := by
  induction n generalizing s first a with
  | zero => rfl
  | succ n ih =>
    rw [loadFp, ih (Nat.lt_succ_of_lt h)]
    exact Function.update_of_ne h.ne _ _

/-- The floating point registers hold the words. -/
theorem fpRegs_loadFp : (s.loadFp first n a).fpRegs first n = s.mem.read a n := by
  induction n generalizing s first a with
  | zero => rfl
  | succ n ih =>
    rw [fpRegs, List.range'_succ, List.map_cons, loadFp, loadFp_of_lt (Nat.lt_succ_self first)]
    exact congrArg₂ (· :: ·) (Function.update_self ..) ih

end State

/-! ## Traps -/

/-- The bits `MIE`, `MPIE` and `MPP` of `mstatus`. -/
def trapBits : Word := 0x1888

/-- `mstatus` on entry to a handler from a mode: `MIE` goes to `MPIE`, and the mode to `MPP`. -/
def trapStatus (mode : BitVec 2) (w : Word) : Word :=
  (w &&& ~~~trapBits) ||| (if w.getLsbD 3 then (0x80 : Word) else 0) ||| mode.setWidth 32 <<< 11

/-- `mstatus` after the return from a handler: `MPIE` goes to `MIE`. -/
def mretStatus (w : Word) : Word :=
  (w &&& ~~~trapBits) ||| (if w.getLsbD 7 then (0x8 : Word) else 0) ||| 0x80

/-- `MPP`. -/
def mpp (w : Word) : BitVec 2 := w.extractLsb' 11 2

section Status

variable {mode : BitVec 2} {w v : Word} {i : ℕ}

theorem getLsbD_trapBits (hi : i < 32) :
    trapBits.getLsbD i = decide (i = 3 ∨ i = 7 ∨ i = 11 ∨ i = 12) := by
  have hall : ∀ i : Fin 32, trapBits.getLsbD i =
      decide (i.1 = 3 ∨ i.1 = 7 ∨ i.1 = 11 ∨ i.1 = 12) := by decide
  exact hall ⟨i, hi⟩

/-- The other bits stay. -/
theorem getLsbD_trapStatus (hi : i < 32) (hbit : i ≠ 3 ∧ i ≠ 7 ∧ i ≠ 11 ∧ i ≠ 12) :
    (trapStatus mode w).getLsbD i = w.getLsbD i := by
  have hif : ∀ b : Bool, (if b then (0x80 : Word) else 0).getLsbD i = false := by
    have hall : ∀ i : Fin 32, i.1 ≠ 7 → (0x80 : Word).getLsbD i = false := by decide
    intro b
    cases b
    · simp
    · exact hall ⟨i, hi⟩ hbit.2.1
  have hmode : (mode.setWidth 32 <<< 11 : Word).getLsbD i = false := by
    have hall : ∀ mode : BitVec 2, ∀ i : Fin 32, i.1 ≠ 11 → i.1 ≠ 12 →
        (mode.setWidth 32 <<< 11 : Word).getLsbD i = false := by decide
    exact hall mode ⟨i, hi⟩ hbit.2.2.1 hbit.2.2.2
  rw [trapStatus, BitVec.getLsbD_or, BitVec.getLsbD_or, BitVec.getLsbD_and, BitVec.getLsbD_not,
    getLsbD_trapBits hi, hif, hmode]
  simp [hbit, hi]

theorem getLsbD_mretStatus (hi : i < 32) (hbit : i ≠ 3 ∧ i ≠ 7 ∧ i ≠ 11 ∧ i ≠ 12) :
    (mretStatus w).getLsbD i = w.getLsbD i := by
  have hif : ∀ b : Bool, (if b then (0x8 : Word) else 0).getLsbD i = false := by
    have hall : ∀ i : Fin 32, i.1 ≠ 3 → (0x8 : Word).getLsbD i = false := by decide
    intro b
    cases b
    · simp
    · exact hall ⟨i, hi⟩ hbit.1
  have hone : (0x80 : Word).getLsbD i = false := by
    have hall : ∀ i : Fin 32, i.1 ≠ 7 → (0x80 : Word).getLsbD i = false := by decide
    exact hall ⟨i, hi⟩ hbit.2.1
  rw [mretStatus, BitVec.getLsbD_or, BitVec.getLsbD_or, BitVec.getLsbD_and, BitVec.getLsbD_not,
    getLsbD_trapBits hi, hif, hone]
  simp [hbit, hi]

/-- `MPIE` in a handler is the `MIE` of the code that was interrupted, whatever is added at other
bits, -/
theorem getLsbD_seven_trapStatus (hv : v.getLsbD 7 = false) :
    (trapStatus mode w ||| v).getLsbD 7 = w.getLsbD 3 := by
  have hmode : (mode.setWidth 32 <<< 11 : Word).getLsbD 7 = false := by
    have hall : ∀ mode : BitVec 2, (mode.setWidth 32 <<< 11 : Word).getLsbD 7 = false := by decide
    exact hall mode
  have hif : (if w.getLsbD 3 then (0x80 : Word) else 0).getLsbD 7 = w.getLsbD 3 := by
    cases w.getLsbD 3 <;> rfl
  rw [BitVec.getLsbD_or, hv, Bool.or_false, trapStatus, BitVec.getLsbD_or, BitVec.getLsbD_or,
    BitVec.getLsbD_and, BitVec.getLsbD_not, getLsbD_trapBits (by decide), hif, hmode]
  simp

/-- and `MIE` after it is `MPIE`. -/
theorem getLsbD_three_mretStatus : (mretStatus w).getLsbD 3 = w.getLsbD 7 := by
  have hif : (if w.getLsbD 7 then (0x8 : Word) else 0).getLsbD 3 = w.getLsbD 7 := by
    cases w.getLsbD 7 <;> rfl
  have hone : (0x80 : Word).getLsbD 3 = false := by decide
  rw [mretStatus, BitVec.getLsbD_or, BitVec.getLsbD_or, BitVec.getLsbD_and, BitVec.getLsbD_not,
    getLsbD_trapBits (by decide), hif, hone]
  simp

/-- `MPP` in a handler is the mode of the code that was interrupted. -/
theorem mpp_trapStatus (hv : v.getLsbD 11 = false ∧ v.getLsbD 12 = false) :
    mpp (trapStatus mode w ||| v) = mode := by
  have hif : ∀ b : Bool, ∀ i : Fin 2,
      (if b then (0x80 : Word) else 0).getLsbD (11 + i.1) = false := by decide
  have hmode : ∀ mode : BitVec 2, ∀ i : Fin 2,
      (mode.setWidth 32 <<< 11 : Word).getLsbD (11 + i.1) = mode.getLsbD i.1 := by decide
  have hv : ∀ i : Fin 2, v.getLsbD (11 + i.1) = false := by
    intro i
    match i with
    | 0 => exact hv.1
    | 1 => exact hv.2
  have hmask : ∀ i : Fin 2, trapBits.getLsbD (11 + i.1) = true := by decide
  refine BitVec.eq_of_getLsbD_eq fun i hi => ?_
  rw [mpp, BitVec.getLsbD_extractLsb', BitVec.getLsbD_or, hv ⟨i, hi⟩, trapStatus,
    BitVec.getLsbD_or, BitVec.getLsbD_or, BitVec.getLsbD_and, BitVec.getLsbD_not, hmask ⟨i, hi⟩,
    hif _ ⟨i, hi⟩, hmode mode ⟨i, hi⟩]
  simp [hi]

end Status

namespace State

/-- Entry to a handler. -/
@[simps] def trap (s : State) (mcause : Word) : State :=
  { s with
    pc := s.mtvec
    mepc := s.pc
    mcause := mcause
    mstatus := trapStatus s.mode s.mstatus
    mode := 3 }

/-- The return from a handler.  The hart has a user mode. -/
@[simps] def mret (s : State) : State :=
  { s with
    pc := s.mepc
    mode := mpp s.mstatus
    mstatus := mretStatus s.mstatus }

end State

/-! ## Instructions -/

/-- The instructions without branches.  An offset is a number of bytes, and `li` also stands for
`la`. -/
inductive Op
  | addi (rd rs : Reg) (imm : Word) | li (rd : Reg) (imm : Word)
  | lw (rd : Reg) (offset : ℕ) (rs : Reg) | sw (rt : Reg) (offset : ℕ) (rs : Reg)
  | flw (fd : ℕ) (offset : ℕ) (rs : Reg) | fsw (ft : ℕ) (offset : ℕ) (rs : Reg)
  | csrr (rd : Reg) (csr : Csr) | csrw (csr : Csr) (rs : Reg) | csrs (csr : Csr) (rs : Reg)
  | frcsr (rd : Reg) | fscsr (rs : Reg)
  | wfi

/-- The field `FS` of `mstatus` is not zero: the floating point unit is accessible. -/
def State.FpuOn (s : State) : Prop := s.mstatus &&& 3 <<< 13 ≠ 0

instance (s : State) : Decidable s.FpuOn := inferInstanceAs (Decidable (_ ≠ _))

theorem State.fpuOn_of_or {s : State} {w : Word} (h : s.mstatus = w ||| 3 <<< 13) : s.FpuOn := by
  have hmask : (w ||| 3 <<< 13) &&& 3 <<< 13 = (3 <<< 13 : Word) := by
    ext i hi
    simp
    tauto
  rw [State.FpuOn, h, hmask]
  decide

/-- The address of an access. -/
def State.addr (s : State) (offset : ℕ) (rs : Reg) : Word := s.reg rs + BitVec.ofNat 32 offset

/-- The state after an instruction; none if it loads from or stores to an address that is not
aligned, or uses the floating point unit while that is not accessible. -/
@[simp] def Op.step : Op → State → Option State
  | .addi rd rs imm, s => some (s.set rd (s.reg rs + imm))
  | .li rd imm, s => some (s.set rd imm)
  | .lw rd offset rs, s =>
    if Aligned (s.addr offset rs) then some (s.set rd (s.mem (s.addr offset rs))) else none
  | .sw rt offset rs, s =>
    if Aligned (s.addr offset rs) then some (s.write (s.addr offset rs) [s.reg rt]) else none
  | .flw fd offset rs, s =>
    if s.FpuOn ∧ Aligned (s.addr offset rs) then some (s.setFp fd (s.mem (s.addr offset rs)))
    else none
  | .fsw ft offset rs, s =>
    if s.FpuOn ∧ Aligned (s.addr offset rs) then some (s.write (s.addr offset rs) [s.fp ft])
    else none
  | .csrr rd csr, s => some (s.set rd (s.csr csr))
  | .csrw csr rs, s => some (s.setCsr csr (s.reg rs))
  | .csrs csr rs, s => some (s.setCsr csr (s.csr csr ||| s.reg rs))
  | .frcsr rd, s => if s.FpuOn then some (s.set rd s.fcsr) else none
  | .fscsr rs, s => if s.FpuOn then some (s.setFcsr (s.reg rs)) else none
  | .wfi, s => some s

/-- An instruction of a program: `call` calls a function, and `mret` leaves the program. -/
inductive Instr (ι : Type)
  | op (o : Op) | j (l : ι) | bgez (rs : Reg) (l : ι) | beqz (rs : Reg) (l : ι)
  | beq (rs rt : Reg) (l : ι) | bne (rs rt : Reg) (l : ι) | label (l : ι) | call (f : ι) | mret

/-- A run of a program to its `mret`, with `callee` relating the states around each call.  The first
argument is the label that a branch taken before looks for. -/
def Exec {ι : Type} [DecidableEq ι] (callee : ι → State → State → Prop) :
    Option ι → List (Instr ι) → State → State → Prop
  | _, [], _, _ => False
  | some l, .label k :: is, s, s' => Exec callee (if k = l then none else some l) is s s'
  | some l, _ :: is, s, s' => Exec callee (some l) is s s'
  | none, .op o :: is, s, s' => ∃ t, o.step s = some t ∧ Exec callee none is t s'
  | none, .j l :: is, s, s' => Exec callee (some l) is s s'
  | none, .bgez rs l :: is, s, s' =>
    Exec callee (if (s.reg rs).msb then none else some l) is s s'
  | none, .beqz rs l :: is, s, s' => Exec callee (if s.reg rs = 0 then some l else none) is s s'
  | none, .beq rs rt l :: is, s, s' =>
    Exec callee (if s.reg rs = s.reg rt then some l else none) is s s'
  | none, .bne rs rt l :: is, s, s' =>
    Exec callee (if s.reg rs = s.reg rt then none else some l) is s s'
  | none, .label _ :: is, s, s' => Exec callee none is s s'
  | none, .call f :: is, s, s' =>
    ∃ link t, callee f (s.set .ra link) t ∧ Exec callee none is t s'
  | none, .mret :: _, s, s' => s' = s.mret

/-! ## Blocks of stores and loads -/

/-- Stores registers one after the other, the first at the offset. -/
def storeRegs {ι : Type} (offset : ℕ) : List Reg → List (Instr ι)
  | [] => []
  | r :: rs => .op (.sw r offset .sp) :: storeRegs (offset + 4) rs

/-- Loads registers one after the other, the first from the offset. -/
def loadRegs {ι : Type} (offset : ℕ) : List Reg → List (Instr ι)
  | [] => []
  | r :: rs => .op (.lw r offset .sp) :: loadRegs (offset + 4) rs

/-- Stores `n` floating point registers from `first` on. -/
def storeFps {ι : Type} (offset first : ℕ) : ℕ → List (Instr ι)
  | 0 => []
  | n + 1 => .op (.fsw first offset .sp) :: storeFps (offset + 4) (first + 1) n

/-- Loads `n` floating point registers from `first` on. -/
def loadFps {ι : Type} (offset first : ℕ) : ℕ → List (Instr ι)
  | 0 => []
  | n + 1 => .op (.flw first offset .sp) :: loadFps (offset + 4) (first + 1) n

section Labels

variable {ι : Type} {offset first n : ℕ} {rs : List Reg} {l : ι}

theorem label_notMem_loadRegs : .label l ∉ (loadRegs offset rs : List (Instr ι)) := by
  induction rs generalizing offset with
  | nil => exact List.not_mem_nil
  | cons r rs ih => simpa [loadRegs] using ih

theorem label_notMem_storeFps : .label l ∉ (storeFps offset first n : List (Instr ι)) := by
  induction n generalizing offset first with
  | zero => exact List.not_mem_nil
  | succ n ih => simpa [storeFps] using ih

theorem label_notMem_loadFps : .label l ∉ (loadFps offset first n : List (Instr ι)) := by
  induction n generalizing offset first with
  | zero => exact List.not_mem_nil
  | succ n ih => simpa [loadFps] using ih

end Labels

section Blocks

variable {ι : Type} [DecidableEq ι] {callee : ι → State → State → Prop} {s s' : State}
  {offset first n : ℕ} {rs : List Reg} {rest : List (Instr ι)} {l : ι}

theorem aligned_addr (hsp : Aligned (s.reg .sp)) (h : offset % 4 = 0) :
    Aligned (s.addr offset .sp) := by
  refine hsp.add ?_
  rw [Aligned, BitVec.toNat_ofNat]
  omega

theorem addr_add_four {r : Reg} : s.addr (offset + 4) r = s.addr offset r + 4 := by
  rw [State.addr, State.addr, BitVec.ofNat_add, BitVec.add_assoc]
  rfl

/-- A block of stores is one write. -/
theorem exec_storeRegs (hsp : Aligned (s.reg .sp)) (h : offset % 4 = 0) :
    Exec callee none (storeRegs offset rs ++ rest) s s' ↔
      Exec callee none rest (s.write (s.addr offset .sp) (rs.map s.reg)) s' := by
  induction rs generalizing s offset with
  | nil => rfl
  | cons r rs ih =>
    have hstep : (Op.sw r offset .sp).step s = some (s.write (s.addr offset .sp) [s.reg r]) :=
      if_pos (aligned_addr hsp h)
    rw [storeRegs, List.cons_append, Exec, hstep]
    simp only [Option.some.injEq, exists_eq_left']
    refine (ih (s := s.write (s.addr offset .sp) [s.reg r]) hsp (by omega)).trans ?_
    exact Iff.of_eq (congrArg (fun a => Exec callee none rest
      ((s.write (s.addr offset .sp) [s.reg r]).write a (rs.map s.reg)) s') addr_add_four)

/-- A block of loads is one read. -/
theorem exec_loadRegs (hsp : Aligned (s.reg .sp)) (h : offset % 4 = 0) (hrs : .sp ∉ rs) :
    Exec callee none (loadRegs offset rs ++ rest) s s' ↔
      Exec callee none rest (s.load rs (s.addr offset .sp)) s' := by
  induction rs generalizing s offset with
  | nil => rfl
  | cons r rs ih =>
    rw [List.mem_cons, not_or] at hrs
    have hkept : (s.set r (s.mem (s.addr offset .sp))).reg .sp = s.reg .sp :=
      Function.update_of_ne hrs.1 _ _
    have hstep : (Op.lw r offset .sp).step s = some (s.set r (s.mem (s.addr offset .sp))) :=
      if_pos (aligned_addr hsp h)
    have haddr : (s.set r (s.mem (s.addr offset .sp))).addr (offset + 4) .sp =
        s.addr offset .sp + 4 := by
      rw [← addr_add_four]
      exact congrArg (· + BitVec.ofNat 32 (offset + 4)) hkept
    rw [loadRegs, List.cons_append, Exec, hstep]
    simp only [Option.some.injEq, exists_eq_left']
    rw [ih (by rwa [hkept]) (by omega) hrs.2, haddr, State.load]

theorem exec_storeFps (hfs : s.FpuOn) (hsp : Aligned (s.reg .sp)) (h : offset % 4 = 0) :
    Exec callee none (storeFps offset first n ++ rest) s s' ↔
      Exec callee none rest (s.write (s.addr offset .sp) (s.fpRegs first n)) s' := by
  induction n generalizing s offset first with
  | zero => rfl
  | succ n ih =>
    have hstep : (Op.fsw first offset .sp).step s =
        some (s.write (s.addr offset .sp) [s.fp first]) :=
      if_pos ⟨hfs, aligned_addr hsp h⟩
    rw [storeFps, List.cons_append, Exec, hstep]
    simp only [Option.some.injEq, exists_eq_left']
    refine (ih (s := s.write (s.addr offset .sp) [s.fp first]) hfs hsp (by omega)).trans ?_
    exact Iff.of_eq (congrArg (fun a => Exec callee none rest
      ((s.write (s.addr offset .sp) [s.fp first]).write a (s.fpRegs (first + 1) n)) s')
      addr_add_four)

theorem exec_loadFps (hfs : s.FpuOn) (hsp : Aligned (s.reg .sp)) (h : offset % 4 = 0) :
    Exec callee none (loadFps offset first n ++ rest) s s' ↔
      Exec callee none rest (s.loadFp first n (s.addr offset .sp)) s' := by
  induction n generalizing s offset first with
  | zero => rfl
  | succ n ih =>
    have hstep : (Op.flw first offset .sp).step s =
        some (s.setFp first (s.mem (s.addr offset .sp))) :=
      if_pos ⟨hfs, aligned_addr hsp h⟩
    rw [loadFps, List.cons_append, Exec, hstep]
    simp only [Option.some.injEq, exists_eq_left']
    refine (ih (s := s.setFp first (s.mem (s.addr offset .sp))) hfs hsp (by omega)).trans ?_
    exact Iff.of_eq (congrArg (fun a => Exec callee none rest
      ((s.setFp first (s.mem (s.addr offset .sp))).loadFp (first + 1) n a) s') addr_add_four)

/-! ### Branches past a block -/

/-- A branch goes past what has no labels. -/
theorem exec_past {is : List (Instr ι)} (h : ∀ k, .label k ∉ is) :
    Exec callee (some l) (is ++ rest) s s' ↔ Exec callee (some l) rest s s' := by
  induction is with
  | nil => rfl
  | cons i is ih =>
    have hrest := ih fun k hk => h k (List.mem_cons_of_mem _ hk)
    cases i with
    | label k => exact absurd List.mem_cons_self (h k)
    | op _ => exact hrest
    | j _ => exact hrest
    | bgez _ _ => exact hrest
    | beqz _ _ => exact hrest
    | beq _ _ _ => exact hrest
    | bne _ _ _ => exact hrest
    | call _ => exact hrest
    | mret => exact hrest

end Blocks

end Rv32
