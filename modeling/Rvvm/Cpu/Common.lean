import Rvvm.Cpu.Mmu

/-! Registers and operands as the interpreter templates see them. -/
namespace Rvvm

variable {δ : Type}

/-- The two instantiations of the interpreter template. -/
inductive Xlen
  | rv32 | rv64
  deriving DecidableEq, Repr

abbrev Xlen.width : Xlen → Nat
  | rv32 => 32
  | rv64 => 64

/-- How an instruction was fetched: its length in bytes and the word an illegal-instruction
trap reports. For a 32-bit instruction the source has length 4 and the instruction itself. -/
structure Fetched where
  len : Nat
  word : BitVec 32

section Registers
variable (xl : Xlen)

def riscvReadReg (vm : Hart δ) (reg : BitVec 5) : BitVec xl.width := (vm.registers reg).setWidth xl.width

/-- The value is sign-extended into the 64-bit register. -/
def riscvWriteReg (vm : Hart δ) (reg : BitVec 5) (data : BitVec xl.width) : Hart δ :=
  vm.writeReg reg (data.signExtend 64)

def riscvReadPc (vm : Hart δ) : BitVec xl.width := vm.pc.setWidth xl.width

def riscvWritePc (vm : Hart δ) (data : BitVec xl.width) : Hart δ := { vm with pc := data.signExtend 64 }

end Registers

def Hart.advance (vm : Hart δ) (len : Nat) : Hart δ := { vm with pc := vm.pc + BitVec.ofNat 64 len }

def toAddr {w : Nat} (addr : BitVec w) : Addr := addr.setWidth 64

def regField (insn : BitVec 32) (pos : Nat) : BitVec 5 := (bitExtU32 insn pos 5).setWidth 5

end Rvvm
