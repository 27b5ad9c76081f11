import Rvvm.Cpu.Csr
import Rvvm.Cpu.Atomics
import Rvvm.Cpu.Fpu

/-! The interpreter of 32-bit instructions: integer, bit-manipulation, memory-ordering and
privileged opcodes, floating-point loads and stores, and the dispatch on the opcode. -/
namespace Rvvm
open BitVec

variable {δ : Type}

inductive Cond
  | beq | bne | blt | bge | bltu | bgeu
  deriving DecidableEq, Repr

section
variable {w : Nat}

def ofFlag (b : Bool) : BitVec w := if b then 1 else 0

def mulHigh (x y : BitVec (2 * w)) : BitVec w := ((x * y) >>> w).setWidth w

def Cond.holds : Cond → BitVec w → BitVec w → Bool
  | .beq, x, y => x == y
  | .bne, x, y => x != y
  | .blt, x, y => x.slt y
  | .bge, x, y => !x.slt y
  | .bltu, x, y => x.ult y
  | .bgeu, x, y => !x.ult y

end

def decodeIShamt (xl : Xlen) (insn : BitVec 32) : Nat :=
  match xl with
  | .rv32 => (bitExtU32 insn 20 5).toNat
  | .rv64 => (bitExtU32 insn 20 6).toNat

def decodeIShiftFunct7 (xl : Xlen) (insn : BitVec 32) : Nat :=
  match xl with
  | .rv32 => (insn >>> 25).toNat
  | .rv64 => ((insn >>> 26) <<< 1).toNat

def decodeIBranchOff (insn : BitVec 32) : BitVec 32 :=
  (insn.sshiftRight 31 <<< 12) ||| ((insn >>> 7) &&& 0x1E#32) ||| ((insn &&& 0x80#32) <<< 4) |||
    ((insn >>> 20) &&& 0x7E0#32)

def decodeIJalOff (insn : BitVec 32) : BitVec 32 :=
  (insn.sshiftRight 31 <<< 20) ||| (insn &&& 0xFF000#32) ||| ((insn >>> 9) &&& 0x800#32) |||
    ((insn >>> 20) &&& 0x7FE#32)

def decodeIStoreOff (insn : BitVec 32) : BitVec 32 :=
  (insn.sshiftRight 25 <<< 5) ||| bitExtU32 insn 7 5

section Interpreter
variable (xl : Xlen) (how : Fetched) (vm : Hart δ) (insn : BitVec 32)

def riscvEmulateIOpcLoad : Hart δ :=
  let rds := regField insn 7
  let rs1 := regField insn 15
  let off := (bitExtI32 insn 20 12).signExtend xl.width
  let addr := toAddr (riscvReadReg xl vm rs1 + off)
  match (bitExtU32 insn 12 3).toNat, xl with
  | 0x0, _ => riscvLoad .s8 vm addr rds
  | 0x1, _ => riscvLoad .s16 vm addr rds
  | 0x2, _ => riscvLoad .s32 vm addr rds
  | 0x3, .rv64 => riscvLoad .u64 vm addr rds
  | 0x4, _ => riscvLoad .u8 vm addr rds
  | 0x5, _ => riscvLoad .u16 vm addr rds
  | 0x6, .rv64 => riscvLoad .u32 vm addr rds
  | _, _ => riscvIllegalInsn vm how.word

def riscvEmulateIOpcStore : Hart δ :=
  let rs1 := regField insn 15
  let rs2 := regField insn 20
  let off := (decodeIStoreOff insn).signExtend xl.width
  let addr := toAddr (riscvReadReg xl vm rs1 + off)
  match (bitExtU32 insn 12 3).toNat, xl with
  | 0x0, _ => riscvStore .u8 vm addr rs2
  | 0x1, _ => riscvStore .u16 vm addr rs2
  | 0x2, _ => riscvStore .u32 vm addr rs2
  | 0x3, .rv64 => riscvStore .u64 vm addr rs2
  | _, _ => riscvIllegalInsn vm how.word

def riscvEmulateFOpcLoad : Hart δ :=
  let rds := regField insn 7
  let rs1 := regField insn 15
  let off := (bitExtI32 insn 20 12).signExtend xl.width
  let addr := toAddr (riscvReadReg xl vm rs1 + off)
  if riscvFpuIsEnabled vm then
    match (bitExtU32 insn 12 3).toNat with
    | 0x2 => riscvLoadFloat vm addr rds
    | 0x3 => riscvLoadDouble vm addr rds
    | _ => riscvIllegalInsn vm how.word
  else riscvIllegalInsn vm how.word

def riscvEmulateFOpcStore : Hart δ :=
  let rs1 := regField insn 15
  let rs2 := regField insn 20
  let off := (decodeIStoreOff insn).signExtend xl.width
  let addr := toAddr (riscvReadReg xl vm rs1 + off)
  if riscvFpuIsEnabled vm then
    match (bitExtU32 insn 12 3).toNat with
    | 0x2 => riscvStoreFloat vm addr rs2
    | 0x3 => riscvStoreDouble vm addr rs2
    | _ => riscvIllegalInsn vm how.word
  else riscvIllegalInsn vm how.word

/-- The shift and bit instructions of `OP-IMM` with `funct3 = 1`; `none` is illegal. -/
def immShiftLeft (src : BitVec xl.width) (shamt : Nat) : Option (BitVec xl.width) :=
  let bit := (1 : BitVec xl.width) <<< shamt
  match decodeIShiftFunct7 xl insn with
  | 0x00 => some (src <<< shamt)
  | 0x04 =>
    match xl with
    | .rv32 => if shamt = 0x0F then some (bitZip32 src) else none
    | .rv64 => none
  | 0x14 => some (src ||| bit)
  | 0x24 => some (src &&& ~~~ bit)
  | 0x34 => some (src ^^^ bit)
  | 0x30 =>
    match shamt with
    | 0x00 => some (bitClz src)
    | 0x01 => some (bitCtz src)
    | 0x02 => some (bitPopcnt src)
    | 0x04 => some ((src.setWidth 8).signExtend xl.width)
    | 0x05 => some ((src.setWidth 16).signExtend xl.width)
    | _ => none
  | _ => none

def immShiftRight (src : BitVec xl.width) (shamt : Nat) : Option (BitVec xl.width) :=
  match decodeIShiftFunct7 xl insn with
  | 0x00 => some (src >>> shamt)
  | 0x20 => some (src.sshiftRight shamt)
  | 0x04 =>
    match xl with
    | .rv32 => if shamt = 0x0F then some (bitUnzip32 src) else none
    | .rv64 => none
  | 0x14 => if shamt = 0x07 then some ((bitOrcB (src.setWidth 64)).setWidth xl.width) else none
  | 0x24 => some ((src >>> shamt) &&& 1)
  | 0x34 =>
    match xl, shamt with
    | .rv32, 0x07 => some ((bitBrev8 (src.setWidth 64)).setWidth 32)
    | .rv64, 0x07 => some (bitBrev8 src)
    | .rv32, 0x18 => some (byteswapUint32 src)
    | .rv64, 0x38 => some (byteswapUint64 src)
    | _, _ => none
  | 0x30 => some (bitRotr src shamt)
  | _ => none

def riscvEmulateIOpcImm : Hart δ :=
  let rds := regField insn 7
  let rs1 := regField insn 15
  let imm := (bitExtI32 insn 20 12).signExtend xl.width
  let src := riscvReadReg xl vm rs1
  let result := match (bitExtU32 insn 12 3).toNat with
    | 0x0 => some (src + imm)
    | 0x1 => immShiftLeft xl insn src (decodeIShamt xl insn)
    | 0x2 => some (ofFlag (src.slt imm))
    | 0x3 => some (ofFlag (src.ult imm))
    | 0x4 => some (src ^^^ imm)
    | 0x5 => immShiftRight xl insn src (decodeIShamt xl insn)
    | 0x6 => some (src ||| imm)
    | 0x7 => some (src &&& imm)
    | _ => none
  match result with
  | some value => riscvWriteReg xl vm rds value
  | none => riscvIllegalInsn vm how.word

def upperImm : BitVec xl.width := (insn &&& 0xFFFFF000#32).signExtend xl.width

def riscvEmulateIAuipc : Hart δ :=
  riscvWriteReg xl vm (regField insn 7) (riscvReadPc xl vm + upperImm xl insn)

def riscvEmulateILui : Hart δ := riscvWriteReg xl vm (regField insn 7) (upperImm xl insn)

def immWord (src : BitVec 32) : Option (BitVec 64) :=
  if (bitExtU32 insn 12 3).toNat = 0 then some ((src + bitExtI32 insn 20 12).signExtend 64)
  else
    let shamt := (bitExtU32 insn 20 5).toNat
    match (insn &&& 0xFE007000#32).toNat with
    | 0x00001000 => some ((src <<< shamt).signExtend 64)
    | 0x08001000 | 0x0A001000 => some (src.setWidth 64 <<< (bitExtU32 insn 20 6).toNat)
    | 0x60001000 =>
      match shamt with
      | 0x00 => some ((bitClz src).setWidth 64)
      | 0x01 => some ((bitCtz src).setWidth 64)
      | 0x02 => some ((bitPopcnt src).setWidth 64)
      | _ => none
    | 0x00005000 => some ((src >>> shamt).signExtend 64)
    | 0x40005000 => some ((src.sshiftRight shamt).signExtend 64)
    | 0x60005000 => some ((bitRotr src shamt).signExtend 64)
    | _ => none

def riscvEmulateIOpcImm32 : Hart δ :=
  match immWord insn ((vm.registers (regField insn 15)).setWidth 32) with
  | some value => vm.writeReg (regField insn 7) value
  | none => riscvIllegalInsn vm how.word

def divSigned {w : Nat} (x y : BitVec w) : BitVec w :=
  if x = intMin w ∧ y = allOnes w then intMin w
  else if y ≠ 0 then x.sdiv y else allOnes w

def divUnsigned {w : Nat} (x y : BitVec w) : BitVec w := if y ≠ 0 then x / y else allOnes w

def remSigned {w : Nat} (x y : BitVec w) : BitVec w :=
  if x = intMin w ∧ y = allOnes w then 0 else if y ≠ 0 then x.srem y else x

def remUnsigned {w : Nat} (x y : BitVec w) : BitVec w := if y ≠ 0 then x % y else x

def opValue (reg1 reg2 : BitVec xl.width) : Option (BitVec xl.width) :=
  let shamt := reg2.toNat % xl.width
  let bit := (1 : BitVec xl.width) <<< shamt
  match (insn &&& 0xFE007000#32).toNat with
  | 0x00000000 => some (reg1 + reg2)
  | 0x40000000 => some (reg1 - reg2)
  | 0x00001000 => some (reg1 <<< shamt)
  | 0x00002000 => some (ofFlag (reg1.slt reg2))
  | 0x00003000 => some (ofFlag (reg1.ult reg2))
  | 0x00004000 => some (reg1 ^^^ reg2)
  | 0x00005000 => some (reg1 >>> shamt)
  | 0x40005000 => some (reg1.sshiftRight shamt)
  | 0x00006000 => some (reg1 ||| reg2)
  | 0x00007000 => some (reg1 &&& reg2)
  | 0x02000000 => some (reg1 * reg2)
  | 0x02001000 => some (mulHigh (reg1.signExtend _) (reg2.signExtend _))
  | 0x02002000 => some (mulHigh (reg1.signExtend _) (reg2.setWidth _))
  | 0x02003000 => some (mulHigh (reg1.setWidth _) (reg2.setWidth _))
  | 0x02004000 => some (divSigned reg1 reg2)
  | 0x02005000 => some (divUnsigned reg1 reg2)
  | 0x02006000 => some (remSigned reg1 reg2)
  | 0x02007000 => some (remUnsigned reg1 reg2)
  | 0x08004000 =>
    match xl with
    | .rv32 => some ((reg1 &&& 0xFFFF#32) ||| (reg2 <<< 16))
    | .rv64 => some ((reg1 &&& 0xFFFFFFFF#64) ||| (reg2 <<< 32))
  | 0x08007000 => some ((reg1.setWidth 8).setWidth _ ||| ((reg2.setWidth 8).setWidth _ <<< 8))
  | 0x0A001000 => some (bitClmul reg1 reg2)
  | 0x0A002000 => some (bitClmulr reg1 reg2)
  | 0x0A003000 => some (bitClmulh reg1 reg2)
  | 0x0A004000 => some (if reg1.slt reg2 then reg1 else reg2)
  | 0x0A005000 => some (if reg1.ult reg2 then reg1 else reg2)
  | 0x0A006000 => some (if reg2.slt reg1 then reg1 else reg2)
  | 0x0A007000 => some (if reg2.ult reg1 then reg1 else reg2)
  | 0x40004000 => some (reg1 ^^^ ~~~ reg2)
  | 0x40006000 => some (reg1 ||| ~~~ reg2)
  | 0x40007000 => some (reg1 &&& ~~~ reg2)
  | 0x60001000 => some (bitRotl reg1 shamt)
  | 0x60005000 => some (bitRotr reg1 shamt)
  | 0x0E005000 => some (if reg2 ≠ 0 then reg1 else 0)
  | 0x0E007000 => some (if reg2 ≠ 0 then 0 else reg1)
  | 0x20002000 => some (reg2 + (reg1 <<< 1))
  | 0x20004000 => some (reg2 + (reg1 <<< 2))
  | 0x20006000 => some (reg2 + (reg1 <<< 3))
  | 0x28002000 => some ((riscvBitXperm4 (reg1.setWidth 64) (reg2.setWidth 64)).setWidth _)
  | 0x28004000 => some ((riscvBitXperm8 (reg1.setWidth 64) (reg2.setWidth 64)).setWidth _)
  | 0x28001000 => some (reg1 ||| bit)
  | 0x48001000 => some (reg1 &&& ~~~ bit)
  | 0x48005000 => some ((reg1 >>> shamt) &&& 1)
  | 0x68001000 => some (reg1 ^^^ bit)
  | _ => none

def riscvEmulateIOpcOp : Hart δ :=
  match opValue xl insn (riscvReadReg xl vm (regField insn 15)) (riscvReadReg xl vm (regField insn 20)) with
  | some value => riscvWriteReg xl vm (regField insn 7) value
  | none => riscvIllegalInsn vm how.word

/-- `OP-32` of RV64: 32-bit operands, except the second one of the address generators. -/
def opWord (reg1 reg2 : BitVec 32) (full2 : BitVec 64) : Option (BitVec 64) :=
  let shamt := reg2.toNat % 32
  let rot := reg2.toNat % 64
  match (insn &&& 0xFE007000#32).toNat with
  | 0x00000000 => some ((reg1 + reg2).signExtend 64)
  | 0x40000000 => some ((reg1 - reg2).signExtend 64)
  | 0x00001000 => some ((reg1 <<< shamt).signExtend 64)
  | 0x00005000 => some ((reg1 >>> shamt).signExtend 64)
  | 0x40005000 => some ((reg1.sshiftRight shamt).signExtend 64)
  | 0x02000000 => some ((reg1 * reg2).signExtend 64)
  | 0x02004000 => some ((divSigned reg1 reg2).signExtend 64)
  | 0x02005000 => some ((divUnsigned reg1 reg2).signExtend 64)
  | 0x02006000 => some ((remSigned reg1 reg2).signExtend 64)
  | 0x02007000 => some ((remUnsigned reg1 reg2).signExtend 64)
  | 0x08004000 => some (((reg1 &&& 0xFFFF#32) ||| (reg2 <<< 16)).signExtend 64)
  | 0x60001000 => some ((bitRotl reg1 rot).signExtend 64)
  | 0x60005000 => some ((bitRotr reg1 rot).signExtend 64)
  | 0x08000000 => some (full2 + reg1.setWidth 64)
  | 0x20002000 => some (full2 + (reg1.setWidth 64 <<< 1))
  | 0x20004000 => some (full2 + (reg1.setWidth 64 <<< 2))
  | 0x20006000 => some (full2 + (reg1.setWidth 64 <<< 3))
  | _ => none

def riscvEmulateIOpcOp32 : Hart δ :=
  let reg1 := vm.registers (regField insn 15)
  let reg2 := vm.registers (regField insn 20)
  match opWord insn (reg1.setWidth 32) (reg2.setWidth 32) reg2 with
  | some value => vm.writeReg (regField insn 7) value
  | none => riscvIllegalInsn vm how.word

/-- A taken branch: the increment after the instruction is subtracted from the target. -/
def riscvJump (off : BitVec 32) : Hart δ :=
  riscvWritePc xl vm (riscvReadPc xl vm + off.signExtend xl.width - BitVec.ofNat xl.width how.len)

def riscvEmulateIOpcBranch : Hart δ :=
  let reg1 := riscvReadReg xl vm (regField insn 15)
  let reg2 := riscvReadReg xl vm (regField insn 20)
  let branch (cond : Cond) : Hart δ :=
    if cond.holds reg1 reg2 then riscvJump xl how vm (decodeIBranchOff insn) else vm
  match (bitExtU32 insn 12 3).toNat with
  | 0x0 => branch .beq
  | 0x1 => branch .bne
  | 0x4 => branch .blt
  | 0x5 => branch .bge
  | 0x6 => branch .bltu
  | 0x7 => branch .bgeu
  | _ => riscvIllegalInsn vm how.word

def riscvEmulateIJalr : Hart δ :=
  if (bitExtU32 insn 12 3).toNat = 0 then
    let off := (bitExtI32 insn 20 12).signExtend xl.width
    let jmpAddr := riscvReadReg xl vm (regField insn 15)
    let linked := riscvWriteReg xl vm (regField insn 7) (riscvReadPc xl vm + BitVec.ofNat _ how.len)
    riscvWritePc xl linked (((jmpAddr + off) &&& ~~~ 1) - BitVec.ofNat _ how.len)
  else riscvIllegalInsn vm how.word

def riscvEmulateIJal : Hart δ :=
  let linked := riscvWriteReg xl vm (regField insn 7) (riscvReadPc xl vm + BitVec.ofNat _ how.len)
  riscvJump xl how linked (decodeIJalOff insn)

end Interpreter

section System
variable (how : Fetched) (vm : Hart δ) (insn : BitVec 32)

def riscvMstatusAllowed (bit : Nat) : Bool :=
  (decide (Priv.supervisor.code ≤ vm.privMode.code) && !vm.csr.status.getLsbD bit) ||
    decide (vm.privMode = .machine)

def ecallCause : Priv → TrapCause
  | .user => .ecallUmode
  | .supervisor => .ecallSmode
  | .hypervisor => .ecallHmode
  | .machine => .ecallMmode

/-- The return of `SRET`: `SPP` and `SPIE` are popped. `MPRV` is left alone. -/
def riscvSret : Hart δ :=
  let nextPriv := Priv.ofCode (bitCut vm.csr.status 8 1).toNat
  let status := bitReplace vm.csr.status 8 1 Priv.user.bits
  let status := bitReplace status 1 1 (bitCut status 5 1)
  let vm := vm.setStatus (bitReplace status 5 1 1)
  let vm := { vm with pc := vm.csr.epc .supervisor - BitVec.ofNat 64 how.len }
  riscvHartCheckInterrupts (riscvSwitchPriv vm nextPriv)

/-- The return of `MRET`; `MPRV` is cleared on leaving machine mode. -/
def riscvMret : Hart δ :=
  let nextPriv := Priv.ofCode (bitCut vm.csr.status 11 2).toNat
  let status := if nextPriv.code < Priv.machine.code then vm.csr.status &&& ~~~ (1#64 <<< 17)
    else vm.csr.status
  let status := bitReplace status 11 2 Priv.user.bits
  let status := bitReplace status 3 1 (bitCut status 7 1)
  let vm := vm.setStatus (bitReplace status 7 1 1)
  let vm := { vm with pc := vm.csr.epc .machine - BitVec.ofNat 64 how.len }
  riscvHartCheckInterrupts (riscvSwitchPriv vm nextPriv)

def riscvSfenceVma (rs1 : BitVec 5) : Hart δ :=
  if rs1 ≠ 0 then riscvTlbFlushPage vm (vm.registers rs1) else riscvTlbFlush vm

def riscvEmulateCsr (val : BitVec 64) (op : CsrOp) : Hart δ :=
  let result := riscvCsrOp vm (insn.extractLsb' 20 12) val op
  if result.ret then result.vm.writeReg (regField insn 7) result.dest
  else riscvIllegalInsn result.vm how.word

def riscvEmulateSystemOther : Hart δ :=
  let rs1 := regField insn 15
  let uimm := bitExtU32 insn 15 5
  match (bitExtU32 insn 12 3).toNat with
  | 0x0 =>
    if insn &&& 0xFE007FFF#32 = 0x12000073#32 ∧ riscvMstatusAllowed vm 20 then riscvSfenceVma vm rs1
    else riscvIllegalInsn vm how.word
  | 0x1 => riscvEmulateCsr how vm insn (vm.registers rs1) .swap
  | 0x2 => riscvEmulateCsr how vm insn (vm.registers rs1) .setbits
  | 0x3 => riscvEmulateCsr how vm insn (vm.registers rs1) .clearbits
  | 0x4 => if insn &&& 0xB0000000#32 = 0x80000000#32 then vm else riscvIllegalInsn vm how.word
  | 0x5 => riscvEmulateCsr how vm insn (uimm.setWidth 64) .swap
  | 0x6 => riscvEmulateCsr how vm insn (uimm.setWidth 64) .setbits
  | 0x7 => riscvEmulateCsr how vm insn (uimm.setWidth 64) .clearbits
  | _ => riscvIllegalInsn vm how.word

/-- `WFI` and `WRS` only stall the hart. -/
def riscvEmulateOpcSystem : Hart δ :=
  match insn.toNat with
  | 0x00000073 => riscvTrap vm (ecallCause vm.privMode) 0
  | 0x00100073 => riscvBreakpoint vm
  | 0x10200073 =>
    if riscvMstatusAllowed vm 22 then riscvSret how vm else riscvEmulateSystemOther how vm insn
  | 0x30200073 =>
    if vm.privMode = .machine then riscvMret how vm else riscvEmulateSystemOther how vm insn
  | 0x10500073 =>
    if riscvMstatusAllowed vm 21 then vm else riscvEmulateSystemOther how vm insn
  | 0x00D00073 | 0x01D00073 => vm
  | _ => riscvEmulateSystemOther how vm insn

def riscvCboZero (vaddr : Addr) : Hart δ :=
  match riscvPtrTranslate vm (vaddr &&& ~~~ 63#64) 64 false .write with
  | (some (.host p), vm) => { vm with host := vm.host.store p (List.replicate 64 0) }
  | (_, vm) => vm

/-- Fences order memory accesses, which this model makes one at a time; only `fence.i` and the
cache-block operations have an effect. -/
def riscvEmulateOpcMiscMem : Hart δ :=
  let rds := regField insn 7
  match (bitExtU32 insn 12 3).toNat with
  | 0x0 => vm
  | 0x1 => if vm.jitHarvard && !vm.jitEnabled then vm else riscvJitTlbFlush vm
  | 0x2 =>
    match (insn >>> 20).toNat with
    | 0x0 => if rds = 0 ∧ riscvCsrCbiEnabled vm then vm else riscvIllegalInsn vm how.word
    | 0x1 | 0x2 => if rds = 0 ∧ riscvCsrCbcfEnabled vm then vm else riscvIllegalInsn vm how.word
    | 0x4 =>
      if rds = 0 ∧ riscvCsrCbzEnabled vm then riscvCboZero vm (vm.registers (regField insn 15))
      else riscvIllegalInsn vm how.word
    | _ => riscvIllegalInsn vm how.word
  | _ => riscvIllegalInsn vm how.word

end System

def riscvEmulateI (lib : FpuLib) (xl : Xlen) (how : Fetched) (vm : Hart δ) (insn : BitVec 32) :
    Hart δ :=
  match (insn &&& 0x7C#32).toNat, xl with
  | 0x00, _ => riscvEmulateIOpcLoad xl how vm insn
  | 0x04, _ => riscvEmulateFOpcLoad xl how vm insn
  | 0x0C, _ => riscvEmulateOpcMiscMem how vm insn
  | 0x10, _ => riscvEmulateIOpcImm xl how vm insn
  | 0x14, _ => riscvEmulateIAuipc xl vm insn
  | 0x18, .rv64 => riscvEmulateIOpcImm32 how vm insn
  | 0x20, _ => riscvEmulateIOpcStore xl how vm insn
  | 0x24, _ => riscvEmulateFOpcStore xl how vm insn
  | 0x2C, _ => riscvEmulateAOpcAmo xl vm insn
  | 0x30, _ => riscvEmulateIOpcOp xl how vm insn
  | 0x34, _ => riscvEmulateILui xl vm insn
  | 0x38, .rv64 => riscvEmulateIOpcOp32 how vm insn
  | 0x40, _ => riscvEmulateFFma lib vm insn false false
  | 0x44, _ => riscvEmulateFFma lib vm insn false true
  | 0x48, _ => riscvEmulateFFma lib vm insn true false
  | 0x4C, _ => riscvEmulateFFma lib vm insn true true
  | 0x50, _ => riscvEmulateFOpcOp lib vm insn
  | 0x60, _ => riscvEmulateIOpcBranch xl how vm insn
  | 0x64, _ => riscvEmulateIJalr xl how vm insn
  | 0x6C, _ => riscvEmulateIJal xl how vm insn
  | 0x70, _ => riscvEmulateOpcSystem how vm insn
  | _, _ => riscvIllegalInsn vm how.word

end Rvvm
