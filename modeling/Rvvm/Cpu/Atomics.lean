import Rvvm.Cpu.Common

/-! The interpreter of atomic instructions, on RAM and, through a bounce buffer, on devices. -/
namespace Rvvm

variable {δ : Type}

inductive AmoOp
  | add | swap | lr | sc | xor | cas | or | and | min | max | minu | maxu
  deriving DecidableEq, Repr

def amoOp : Nat → Option AmoOp
  | 0x00 => some .add
  | 0x01 => some .swap
  | 0x02 => some .lr
  | 0x03 => some .sc
  | 0x04 => some .xor
  | 0x05 => some .cas
  | 0x08 => some .or
  | 0x0C => some .and
  | 0x10 => some .min
  | 0x14 => some .max
  | 0x18 => some .minu
  | 0x1C => some .maxu
  | _ => none

/-- What a read-modify-write operation stores. The others are handled on their own. -/
def AmoOp.stored {w : Nat} (old val : BitVec w) : AmoOp → BitVec w
  | .add => old + val
  | .xor => old ^^^ val
  | .or => old ||| val
  | .and => old &&& val
  | .min => if old.slt val then old else val
  | .max => if val.slt old then old else val
  | .minu => if old.ult val then old else val
  | .maxu => if val.ult old then old else val
  | .swap | .lr | .sc | .cas => val

def RmwPtr.load (ptr : RmwPtr) (vm : Hart δ) (size : Nat) : List Byte :=
  match ptr with
  | .host p => vm.host.load p size
  | .bounce data => data

/-- Stores the operand; a device gets it when the bounce buffer is committed. -/
def RmwPtr.store (ptr : RmwPtr) (vm : Hart δ) (vaddr : Addr) (data : List Byte) : Hart δ :=
  match ptr with
  | .host p => { vm with host := vm.host.store p data }
  | .bounce _ => riscvRmwMmioCommit vm vaddr data

section Interpreter
variable (xl : Xlen) (vm : Hart δ) (insn : BitVec 32)

/-- The switch on the operation, for an operand of `size` bytes that has been translated. The
destination is written before a bounce buffer is committed. -/
def amoExecute (size : Nat) (op : AmoOp) (vaddr : Addr) (ptr : RmwPtr) : Hart δ :=
  let rds := regField insn 7
  let w := 8 * size
  let old : BitVec w := (leWord (ptr.load vm size)).setWidth w
  let val : BitVec w := (riscvReadReg xl vm (regField insn 20)).setWidth w
  let bytes (value : BitVec w) : List Byte := wordBytes (value.setWidth 64) size
  match op with
  | .lr =>
    let vm := { vm with lrsc := true, lrscAddr := vaddr, lrscCas := old.setWidth 64 }
    vm.writeReg rds (old.signExtend 64)
  | .sc =>
    if vm.lrsc ∧ vm.lrscAddr = vaddr ∧ old = vm.lrscCas.setWidth w then
      ptr.store { vm.writeReg rds 0 with lrsc := false } vaddr (bytes val)
    else { vm.writeReg rds 1 with lrsc := false }
  | .cas =>
    let expected : BitVec w := (riscvReadReg xl vm rds).setWidth w
    ptr.store (vm.writeReg rds (old.signExtend 64)) vaddr
      (bytes (if old = expected then val else old))
  | op => ptr.store (vm.writeReg rds (old.signExtend 64)) vaddr (bytes (op.stored old val))

/-- `riscv_emulate_atomic_b` to `..._d`, which differ in the operand size; the narrow ones have
no reservations. -/
def riscvEmulateAtomic (size : Nat) (narrow : Bool) : Hart δ :=
  let vaddr := toAddr (riscvReadReg xl vm (regField insn 15))
  match amoOp (insn >>> 27).toNat with
  | none => riscvIllegalInsn vm insn
  | some op =>
    if narrow ∧ (op = .lr ∨ op = .sc) then riscvIllegalInsn vm insn
    else if vaddrAligned vaddr size then
      match riscvPtrTranslate vm vaddr size true (if op = .lr then .read else .write) with
      | (none, vm) => vm
      | (some ptr, vm) => amoExecute xl vm insn size op vaddr ptr
    else riscvTrap vm (if op = .lr then .loadMisalign else .storeMisalign) vaddr

/-- Two consecutive registers, the lower one first; register 0 stands for a zero pair. -/
def regPair (reg : BitVec 5) (second : BitVec 5) : List Byte :=
  let half := xl.width / 8
  if reg = 0 then List.replicate (2 * half) 0
  else wordBytes (vm.registers reg) half ++ wordBytes (vm.registers second) half

/-- The new value of a double-width compare-and-swap. The 32-bit variant takes the low register
for both halves. -/
def dwcasValue (rs2 : BitVec 5) : List Byte :=
  match xl with
  | .rv64 => regPair .rv64 vm rs2 (rs2 + 1)
  | .rv32 => regPair .rv32 vm rs2 rs2

def dwcasExecute (vaddr : Addr) (ptr : RmwPtr) : Hart δ :=
  let half := xl.width / 8
  let rds := regField insn 7
  let old := ptr.load vm (2 * half)
  let stored := if old = regPair xl vm rds (rds + 1) then dwcasValue xl vm (regField insn 20) else old
  let word (bytes : List Byte) : BitVec xl.width := (leWord bytes).setWidth _
  let written := if rds = 0 then vm
    else riscvWriteReg xl (riscvWriteReg xl vm rds (word (old.take half))) (rds + 1) (word (old.drop half))
  ptr.store written vaddr stored

def riscvEmulateAtomicDwcas : Hart δ :=
  let rds := regField insn 7
  let rs2 := regField insn 20
  let size := 2 * (xl.width / 8)
  let vaddr := toAddr (riscvReadReg xl vm (regField insn 15))
  if amoOp (insn >>> 27).toNat ≠ some .cas ∨ rds.getLsbD 0 ∨ rs2.getLsbD 0 then riscvIllegalInsn vm insn
  else if vaddrAligned vaddr size then
    match riscvPtrTranslate vm vaddr size true .write with
    | (none, vm) => vm
    | (some ptr, vm) => dwcasExecute xl vm insn vaddr ptr
  else riscvTrap vm .storeMisalign vaddr

def riscvEmulateAOpcAmo : Hart δ :=
  match (bitExtU32 insn 12 3).toNat, xl with
  | 0x0, _ => riscvEmulateAtomic xl vm insn 1 true
  | 0x1, _ => riscvEmulateAtomic xl vm insn 2 true
  | 0x2, _ => riscvEmulateAtomic xl vm insn 4 false
  | 0x3, .rv64 => riscvEmulateAtomic xl vm insn 8 false
  | 0x4, .rv64 => riscvEmulateAtomicDwcas xl vm insn
  | 0x3, .rv32 => riscvEmulateAtomicDwcas xl vm insn
  | _, _ => riscvIllegalInsn vm insn

end Interpreter

end Rvvm
