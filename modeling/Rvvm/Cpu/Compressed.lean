import Rvvm.Cpu.Base

/-! The interpreter of 16-bit instructions. The word is the low half of what was fetched; the
upper half may hold the next instruction, and no decoder looks at it. -/
namespace Rvvm

variable {δ : Type}

section Decode
variable (insn : BitVec 32)

def decodeCAddi4spnImm : BitVec 32 :=
  ((insn >>> 1) &&& 0x03C0#32) ||| ((insn >>> 2) &&& 0x0008#32) ||| ((insn >>> 4) &&& 0x0004#32) |||
    ((insn >>> 7) &&& 0x0030#32)

def decodeCJalImm : BitVec 32 :=
  let imm := ((insn >>> 1) &&& 0x0B40#32) ||| ((insn >>> 2) &&& 0x000E#32) |||
    ((insn >>> 7) &&& 0x0010#32) ||| ((insn <<< 1) &&& 0x0080#32) ||| ((insn <<< 2) &&& 0x0400#32) |||
    ((insn <<< 3) &&& 0x0020#32)
  bitExtI32 imm 0 12

def decodeCLdOff : BitVec 32 := ((insn <<< 1) &&& 0xC0#32) ||| ((insn >>> 7) &&& 0x38#32)

def decodeCLwOff : BitVec 32 :=
  ((insn <<< 1) &&& 0x40#32) ||| ((insn >>> 4) &&& 0x04#32) ||| ((insn >>> 7) &&& 0x38#32)

def decodeCLdspOff : BitVec 32 :=
  ((insn >>> 2) &&& 0x0018#32) ||| ((insn >>> 7) &&& 0x0020#32) ||| ((insn <<< 4) &&& 0x01C0#32)

def decodeCLwspOff : BitVec 32 :=
  ((insn >>> 2) &&& 0x1C#32) ||| ((insn >>> 7) &&& 0x20#32) ||| ((insn <<< 4) &&& 0xC0#32)

def decodeCSdspOff : BitVec 32 := ((insn >>> 1) &&& 0x01C0#32) ||| ((insn >>> 7) &&& 0x0038#32)

def decodeCSwspOff : BitVec 32 := ((insn >>> 1) &&& 0xC0#32) ||| ((insn >>> 7) &&& 0x3C#32)

def decodeCAluImm : BitVec 32 :=
  (((insn <<< 25) >>> 1) ||| ((insn >>> 12) <<< 31)).sshiftRight 26

def decodeCAddi16spOff : BitVec 32 :=
  let imm := ((insn >>> 2) &&& 0x0010#32) ||| ((insn <<< 3) &&& 0x0020#32) |||
    ((insn <<< 1) &&& 0x0040#32) ||| ((insn <<< 4) &&& 0x0180#32) ||| ((insn >>> 3) &&& 0x0200#32)
  bitExtI32 imm 0 10

def decodeCLuiImm : BitVec 32 :=
  (((insn &&& 0x7C#32) <<< 24) ||| ((insn >>> 12) <<< 31)).sshiftRight 14

def decodeCBranchImm : BitVec 32 :=
  let imm := ((insn >>> 2) &&& 0x0006#32) ||| ((insn >>> 7) &&& 0x0018#32) |||
    ((insn <<< 3) &&& 0x0020#32) ||| ((insn <<< 1) &&& 0x00C0#32) ||| ((insn >>> 4) &&& 0x0100#32)
  bitExtI32 imm 0 9

def decodeCShamt (xl : Xlen) : Nat :=
  match xl with
  | .rv32 => (bitExtU32 insn 2 5).toNat
  | .rv64 => (bitExtU32 insn 2 5 ||| (bitExtU32 insn 12 1 <<< 5)).toNat

/-- The three-bit register fields name `x8` to `x15`. -/
def cRegField (pos : Nat) : BitVec 5 := (bitExtU32 insn pos 3 + 8).setWidth 5

def decodeCByteOff : BitVec 32 := ((insn &&& 0x20#32) >>> 4) ||| ((insn &&& 0x40#32) >>> 6)

def decodeCHalfOff : BitVec 32 := (insn &&& 0x20#32) >>> 4

end Decode

section Interpreter
variable (xl : Xlen) (vm : Hart δ) (insn : BitVec 32)

def cAddr (base : BitVec 5) (off : BitVec 32) : Addr :=
  toAddr (riscvReadReg xl vm base + off.setWidth xl.width)

def cJump (off : BitVec 32) : Hart δ :=
  riscvWritePc xl vm (riscvReadPc xl vm + off.signExtend xl.width - 2)

def riscvEmulateCC0 : Hart δ :=
  let rds := cRegField insn 2
  let rs1 := cRegField insn 7
  let illegal := riscvIllegalInsn vm insn
  match (bitExtU32 insn 13 3).toNat, xl with
  | 0x0, _ =>
    let imm := decodeCAddi4spnImm insn
    if imm ≠ 0 then riscvWriteReg xl vm rds (riscvReadReg xl vm 2 + imm.setWidth xl.width)
    else illegal
  | 0x1, _ =>
    if riscvFpuIsEnabled vm then riscvLoadDouble vm (cAddr xl vm rs1 (decodeCLdOff insn)) rds
    else illegal
  | 0x2, _ => riscvLoad .s32 vm (cAddr xl vm rs1 (decodeCLwOff insn)) rds
  | 0x3, .rv32 =>
    if riscvFpuIsEnabled vm then riscvLoadFloat vm (cAddr xl vm rs1 (decodeCLwOff insn)) rds
    else illegal
  | 0x3, .rv64 => riscvLoad .u64 vm (cAddr xl vm rs1 (decodeCLdOff insn)) rds
  | 0x4, _ =>
    match (bitExtU32 insn 10 3).toNat with
    | 0x0 => riscvLoad .u8 vm (cAddr xl vm rs1 (decodeCByteOff insn)) rds
    | 0x1 =>
      if insn &&& 0x40#32 ≠ 0 then riscvLoad .s16 vm (cAddr xl vm rs1 (decodeCHalfOff insn)) rds
      else riscvLoad .u16 vm (cAddr xl vm rs1 (decodeCHalfOff insn)) rds
    | 0x2 => riscvStore .u8 vm (cAddr xl vm rs1 (decodeCByteOff insn)) rds
    | 0x3 =>
      if insn &&& 0x40#32 = 0 then riscvStore .u16 vm (cAddr xl vm rs1 (decodeCHalfOff insn)) rds
      else illegal
    | _ => illegal
  | 0x5, _ =>
    if riscvFpuIsEnabled vm then riscvStoreDouble vm (cAddr xl vm rs1 (decodeCLdOff insn)) rds
    else illegal
  | 0x6, _ => riscvStore .u32 vm (cAddr xl vm rs1 (decodeCLwOff insn)) rds
  | 0x7, .rv32 =>
    if riscvFpuIsEnabled vm then riscvStoreFloat vm (cAddr xl vm rs1 (decodeCLwOff insn)) rds
    else illegal
  | 0x7, .rv64 => riscvStore .u64 vm (cAddr xl vm rs1 (decodeCLdOff insn)) rds
  | _, _ => illegal

/-- The last switch of quadrant 1, on `insn & 0x1C60`; `none` is illegal. -/
def cAluValue (reg1 reg2 : BitVec xl.width) : Option (BitVec xl.width) :=
  match (insn &&& 0x1C60#32).toNat, xl with
  | 0x0C00, _ => some (reg1 - reg2)
  | 0x0C20, _ => some (reg1 ^^^ reg2)
  | 0x0C40, _ => some (reg1 ||| reg2)
  | 0x0C60, _ => some (reg1 &&& reg2)
  | 0x1C00, .rv64 => some (((reg1 - reg2).setWidth 32).signExtend _)
  | 0x1C20, .rv64 => some (((reg1 + reg2).setWidth 32).signExtend _)
  | 0x1C40, _ => some (reg1 * reg2)
  | 0x1C60, _ =>
    match (bitExtU32 insn 2 3).toNat, xl with
    | 0x0, _ => some ((reg1.setWidth 8).setWidth _)
    | 0x1, _ => some ((reg1.setWidth 8).signExtend _)
    | 0x2, _ => some ((reg1.setWidth 16).setWidth _)
    | 0x3, _ => some ((reg1.setWidth 16).signExtend _)
    | 0x4, .rv64 => some ((reg1.setWidth 32).setWidth _)
    | 0x5, _ => some (~~~ reg1)
    | _, _ => none
  | _, _ => none

/-- What follows the first switch of quadrant 1. Words that leave that switch through `break`
are executed here too. -/
def riscvEmulateCC1Alu : Hart δ :=
  let rds := cRegField insn 7
  let reg1 := riscvReadReg xl vm rds
  match (bitExtU32 insn 10 2).toNat with
  | 0x0 => riscvWriteReg xl vm rds (reg1 >>> decodeCShamt insn xl)
  | 0x1 => riscvWriteReg xl vm rds (reg1.sshiftRight (decodeCShamt insn xl))
  | 0x2 => riscvWriteReg xl vm rds (reg1 &&& (decodeCAluImm insn).signExtend xl.width)
  | _ =>
    match cAluValue xl insn reg1 (riscvReadReg xl vm (cRegField insn 2)) with
    | some value => riscvWriteReg xl vm rds value
    | none => riscvIllegalInsn vm insn

def riscvEmulateCC1 : Hart δ :=
  let rds := regField insn 7
  match (bitExtU32 insn 13 3).toNat, xl with
  | 0x0, _ =>
    riscvWriteReg xl vm rds (riscvReadReg xl vm rds + (decodeCAluImm insn).signExtend xl.width)
  | 0x1, .rv64 =>
    if rds ≠ 0 then
      let sum := riscvReadReg .rv64 vm rds + (decodeCAluImm insn).signExtend 64
      riscvWriteReg .rv64 vm rds ((sum.setWidth 32).signExtend 64)
    else riscvEmulateCC1Alu xl vm insn
  | 0x1, .rv32 =>
    let linked := riscvWriteReg .rv32 vm 1 (riscvReadPc .rv32 vm + 2)
    riscvWritePc .rv32 linked (riscvReadPc .rv32 vm + decodeCJalImm insn - 2)
  | 0x2, _ => riscvWriteReg xl vm rds ((decodeCAluImm insn).signExtend xl.width)
  | 0x3, _ =>
    if insn &&& 0x107C#32 ≠ 0 then
      if rds = 2 then
        riscvWriteReg xl vm 2 (riscvReadReg xl vm 2 + (decodeCAddi16spOff insn).signExtend xl.width)
      else riscvWriteReg xl vm rds ((decodeCLuiImm insn).signExtend xl.width)
    else if rds.getLsbD 0 && !rds.getLsbD 4 then vm
    else riscvEmulateCC1Alu xl vm insn
  | 0x5, _ => cJump xl vm (decodeCJalImm insn)
  | 0x6, _ =>
    if riscvReadReg xl vm (cRegField insn 7) ≠ 0 then vm else cJump xl vm (decodeCBranchImm insn)
  | 0x7, _ =>
    if riscvReadReg xl vm (cRegField insn 7) = 0 then vm else cJump xl vm (decodeCBranchImm insn)
  | _, _ => riscvEmulateCC1Alu xl vm insn

/-- A register jump of a compressed instruction: bit 0 of the target is kept. -/
def cJumpReg (reg : BitVec 5) : Hart δ := riscvWritePc xl vm (riscvReadReg xl vm reg - 2)

def riscvEmulateCC2 : Hart δ :=
  let rds := regField insn 7
  let rs2 := regField insn 2
  let illegal := riscvIllegalInsn vm insn
  match (bitExtU32 insn 12 4).toNat, xl with
  | 0x0, _ | 0x1, _ => riscvWriteReg xl vm rds (riscvReadReg xl vm rds <<< decodeCShamt insn xl)
  | 0x2, _ | 0x3, _ =>
    if riscvFpuIsEnabled vm then riscvLoadDouble vm (cAddr xl vm 2 (decodeCLdspOff insn)) rds
    else illegal
  | 0x4, _ | 0x5, _ =>
    if rds ≠ 0 then riscvLoad .s32 vm (cAddr xl vm 2 (decodeCLwspOff insn)) rds else illegal
  | 0x6, .rv32 | 0x7, .rv32 =>
    if riscvFpuIsEnabled vm then riscvLoadFloat vm (cAddr xl vm 2 (decodeCLwspOff insn)) rds
    else illegal
  | 0x6, .rv64 | 0x7, .rv64 =>
    if rds ≠ 0 then riscvLoad .u64 vm (cAddr xl vm 2 (decodeCLdspOff insn)) rds else illegal
  | 0x8, _ =>
    if rs2 ≠ 0 then riscvWriteReg xl vm rds (riscvReadReg xl vm rs2)
    else if rds ≠ 0 then cJumpReg xl vm rds
    else illegal
  | 0x9, _ =>
    if rs2 ≠ 0 then riscvWriteReg xl vm rds (riscvReadReg xl vm rds + riscvReadReg xl vm rs2)
    else if rds ≠ 0 then
      -- the link register is written before the target is read
      cJumpReg xl (riscvWriteReg xl vm 1 (riscvReadPc xl vm + 2)) rds
    else riscvBreakpoint vm
  | 0xA, _ | 0xB, _ =>
    if riscvFpuIsEnabled vm then riscvStoreDouble vm (cAddr xl vm 2 (decodeCSdspOff insn)) rs2
    else illegal
  | 0xC, _ | 0xD, _ => riscvStore .u32 vm (cAddr xl vm 2 (decodeCSwspOff insn)) rs2
  | 0xE, .rv32 | 0xF, .rv32 =>
    -- the source decodes this store with the load offset
    if riscvFpuIsEnabled vm then riscvStoreFloat vm (cAddr xl vm 2 (decodeCLwspOff insn)) rs2
    else illegal
  | 0xE, .rv64 | 0xF, .rv64 => riscvStore .u64 vm (cAddr xl vm 2 (decodeCSdspOff insn)) rs2
  | _, _ => illegal

end Interpreter

def riscvEmulateInsn (lib : FpuLib) (xl : Xlen) (vm : Hart δ) (insn : BitVec 32) : Hart δ :=
  match (insn &&& 0x3#32).toNat with
  | 0x0 => (riscvEmulateCC0 xl vm insn).advance 2
  | 0x1 => (riscvEmulateCC1 xl vm insn).advance 2
  | 0x2 => (riscvEmulateCC2 xl vm insn).advance 2
  | _ => (riscvEmulateI lib xl ⟨4, insn⟩ vm insn).advance 4

/-- The state the dispatch loop hands to `riscv_emulate_insn`: `x0` has just been zeroed. -/
def Hart.zeroX0 (vm : Hart δ) : Hart δ := vm.writeReg 0 0

end Rvvm
