import Rvvm.Cpu.Common

/-! The interpreter of floating-point instructions. The arithmetic itself is that of the
floating-point library, which rounds in the host's mode and accrues exceptions there. -/
namespace Rvvm

variable {δ : Type}

inductive FpuBin
  | add | sub | mul | div | sgnj | sgnjn | sgnjx | min | max
  deriving DecidableEq, Repr

inductive FpuCmp
  | fleSig | fltSig | equalQuiet | fleQuiet | fltQuiet
  deriving DecidableEq, Repr

inductive FpuInt
  | i32 | u32 | i64 | u64
  deriving DecidableEq, Repr

/-- How an operation rounds: the host's mode, the field of the instruction, and whether ties to
the larger magnitude are synthesized. -/
structure FpuRound where
  host : BitVec 32
  rm : BitVec 3
  rmm : Bool

/-- The floating-point library: results and raised exceptions, on bit patterns. -/
structure FpuLib where
  bin32 : FpuBin → FpuRound → BitVec 32 → BitVec 32 → BitVec 32 × BitVec 32
  bin64 : FpuBin → FpuRound → BitVec 64 → BitVec 64 → BitVec 64 × BitVec 32
  sqrt32 : FpuRound → BitVec 32 → BitVec 32 × BitVec 32
  sqrt64 : FpuRound → BitVec 64 → BitVec 64 × BitVec 32
  fma32 : FpuRound → BitVec 32 → BitVec 32 → BitVec 32 → BitVec 32 × BitVec 32
  fma64 : FpuRound → BitVec 64 → BitVec 64 → BitVec 64 → BitVec 64 × BitVec 32
  cmp32 : FpuCmp → BitVec 32 → BitVec 32 → Bool × BitVec 32
  cmp64 : FpuCmp → BitVec 64 → BitVec 64 → Bool × BitVec 32
  toInt32 : FpuInt → FpuRound → BitVec 32 → BitVec 64 × BitVec 32
  toInt64 : FpuInt → FpuRound → BitVec 64 → BitVec 64 × BitVec 32
  ofInt32 : FpuInt → FpuRound → BitVec 64 → BitVec 32 × BitVec 32
  ofInt64 : FpuInt → FpuRound → BitVec 64 → BitVec 64 × BitVec 32
  narrow : FpuRound → BitVec 64 → BitVec 32 × BitVec 32
  widen : BitVec 32 → BitVec 64 × BitVec 32
  fcvtF64ToI32 : BitVec 64 → BitVec 32 × BitVec 32
  fclass32 : BitVec 32 → Nat
  fclass64 : BitVec 64 → Nat

/-! Registers. -/

def fpuNanbox (f : BitVec 32) : BitVec 64 := f.setWidth 64 ||| 0xFFFFFFFF00000000#64

def fpuIsNan32 (f : BitVec 32) : Bool := (0x7F800000#32 <<< 1) < (f <<< 1)

def fpuIsNan64 (d : BitVec 64) : Bool := (0x7FF0000000000000#64 <<< 1) < (d <<< 1)

def fpuNeg32 (f : BitVec 32) : BitVec 32 := f ^^^ 0x80000000#32

def fpuNeg64 (d : BitVec 64) : BitVec 64 := d ^^^ 0x8000000000000000#64

/-- The raw low half, without a check of the boxing. -/
def riscvViewS (vm : Hart δ) (reg : BitVec 5) : BitVec 32 := (vm.fpuRegisters reg).setWidth 32

/-- An operand that is not boxed reads as the canonical NaN. -/
def riscvReadS (vm : Hart δ) (reg : BitVec 5) : BitVec 32 :=
  if 0xFFFFFFFF00000000#64 ≤ vm.fpuRegisters reg then riscvViewS vm reg else 0x7FC00000

def riscvReadD (vm : Hart δ) (reg : BitVec 5) : BitVec 64 := vm.fpuRegisters reg

/-- The exceptions an operation raised stay in the host until they are read. -/
def Hart.accrue (vm : Hart δ) (flags : BitVec 32) : Hart δ :=
  { vm with fpuExceptions := vm.fpuExceptions ||| flags }

def riscvEmitS (vm : Hart δ) (reg : BitVec 5) (out : BitVec 32 × BitVec 32) : Hart δ :=
  (vm.accrue out.2).writeFpuReg reg (fpuNanbox out.1)

/-- Results that are not a number are made canonical. -/
def riscvWriteS (vm : Hart δ) (reg : BitVec 5) (out : BitVec 32 × BitVec 32) : Hart δ :=
  riscvEmitS vm reg (if fpuIsNan32 out.1 then 0x7FC00000 else out.1, out.2)

def riscvEmitD (vm : Hart δ) (reg : BitVec 5) (out : BitVec 64 × BitVec 32) : Hart δ :=
  (vm.accrue out.2).writeFpuReg reg out.1

def riscvWriteD (vm : Hart δ) (reg : BitVec 5) (out : BitVec 64 × BitVec 32) : Hart δ :=
  riscvEmitD vm reg (if fpuIsNan64 out.1 then 0x7FF8000000000000 else out.1, out.2)

def riscvWriteInt (vm : Hart δ) (reg : BitVec 5) (out : BitVec 64 × BitVec 32) : Hart δ :=
  (vm.accrue out.2).writeReg reg out.1

def fpuFlag (out : Bool × BitVec 32) : BitVec 64 × BitVec 32 := (if out.1 then 1 else 0, out.2)

def riscvFliTable : List (BitVec 32) :=
  [0xBF800000, 0x00800000, 0x37800000, 0x38000000, 0x3B800000, 0x3C000000, 0x3D800000, 0x3E000000,
    0x3E800000, 0x3EA00000, 0x3EC00000, 0x3EE00000, 0x3F000000, 0x3F200000, 0x3F400000, 0x3F600000,
    0x3F800000, 0x3FA00000, 0x3FC00000, 0x3FE00000, 0x40000000, 0x40200000, 0x40400000, 0x40800000,
    0x41000000, 0x41800000, 0x43000000, 0x43800000, 0x47000000, 0x47800000, 0x7F800000, 0x7FC00000]

section Interpreter
variable (lib : FpuLib) (vm : Hart δ) (insn : BitVec 32)

/-- A 32-bit integer result is sign-extended, whatever its format. -/
def fpuIntResult (fmt : FpuInt) (out : BitVec 64 × BitVec 32) : BitVec 64 × BitVec 32 :=
  match fmt with
  | .i32 | .u32 => ((out.1.setWidth 32).signExtend 64, out.2)
  | .i64 | .u64 => out

/-- The 64-bit formats exist on RV64 only. -/
def fpuIntFormat (rv64 : Bool) : Nat → Option FpuInt
  | 0x00 => some .i32
  | 0x01 => some .u32
  | 0x02 => if rv64 then some .i64 else none
  | 0x03 => if rv64 then some .u64 else none
  | _ => none

/-- The switch on `insn & 0xFE007000`, split into `funct7` and `rm`. The flag says whether the
case returned; otherwise the instruction is illegal, and the hart is what the case left. -/
def fpuOpCase (round : FpuRound) : Bool × Hart δ :=
  let rds := regField insn 7
  let rm := (bitExtU32 insn 12 3).toNat
  let rs1 := regField insn 15
  let rs2 := regField insn 20
  let s1 := riscvReadS vm rs1
  let s2 := riscvReadS vm rs2
  let d1 := riscvReadD vm rs1
  let d2 := riscvReadD vm rs2
  let x1 := vm.registers rs1
  let rounds := rm ≠ 5 ∧ rm ≠ 6
  let arith32 (op : FpuBin) := (true, riscvWriteS vm rds (lib.bin32 op round s1 s2))
  let arith64 (op : FpuBin) := (true, riscvWriteD vm rds (lib.bin64 op round d1 d2))
  let bits32 (op : FpuBin) := (true, riscvEmitS vm rds (lib.bin32 op round s1 s2))
  let bits64 (op : FpuBin) := (true, riscvEmitD vm rds (lib.bin64 op round d1 d2))
  let test32 (op : FpuCmp) := (true, riscvWriteInt vm rds (fpuFlag (lib.cmp32 op s1 s2)))
  let test64 (op : FpuCmp) := (true, riscvWriteInt vm rds (fpuFlag (lib.cmp64 op d1 d2)))
  let illegal := (false, vm)
  match (insn >>> 25).toNat with
  | 0x00 => if rounds then arith32 .add else illegal
  | 0x01 => if rounds then arith64 .add else illegal
  | 0x04 => if rounds then arith32 .sub else illegal
  | 0x05 => if rounds then arith64 .sub else illegal
  | 0x08 => if rounds then arith32 .mul else illegal
  | 0x09 => if rounds then arith64 .mul else illegal
  | 0x0C => if rounds then arith32 .div else illegal
  | 0x0D => if rounds then arith64 .div else illegal
  | 0x2C => if rounds ∧ rs2 = 0 then (true, riscvWriteS vm rds (lib.sqrt32 round s1)) else illegal
  | 0x2D => if rounds ∧ rs2 = 0 then (true, riscvWriteD vm rds (lib.sqrt64 round d1)) else illegal
  | 0x20 =>
    if rounds then
      match rs2.toNat with
      | 0x01 => (true, riscvWriteS vm rds (lib.narrow round d1))
      | 0x04 | 0x05 =>
        let (int, flags) := lib.toInt32 .i64 round s1
        (true, riscvEmitS (vm.accrue flags) rds (lib.ofInt32 .i64 round int))
      | _ => illegal
    else illegal
  | 0x21 =>
    if rounds then
      match rs2.toNat with
      | 0x00 => (true, riscvWriteD vm rds (lib.widen s1))
      | 0x04 | 0x05 =>
        let (int, flags) := lib.toInt64 .i64 round d1
        (true, riscvEmitD (vm.accrue flags) rds (lib.ofInt64 .i64 round int))
      | _ => illegal
    else illegal
  | 0x60 =>
    if rounds then
      match fpuIntFormat vm.rv64 rs2.toNat with
      | some fmt => (true, riscvWriteInt vm rds (fpuIntResult fmt (lib.toInt32 fmt round s1)))
      | none => illegal
    else illegal
  | 0x61 =>
    if rounds then
      match fpuIntFormat vm.rv64 rs2.toNat with
      | some fmt => (true, riscvWriteInt vm rds (fpuIntResult fmt (lib.toInt64 fmt round d1)))
      | none =>
        -- `fcvtmod.w.d` writes its result and then leaves the switch as an illegal instruction
        if rs2.toNat = 0x08 ∧ rm = 1 then
          let (int, flags) := lib.fcvtF64ToI32 d1
          (false, riscvWriteInt vm rds (int.signExtend 64, flags))
        else illegal
    else illegal
  | 0x68 =>
    if rounds then
      match fpuIntFormat vm.rv64 rs2.toNat with
      | some fmt => (true, riscvEmitS vm rds (lib.ofInt32 fmt round x1))
      | none => illegal
    else illegal
  | 0x69 =>
    if rounds then
      match fpuIntFormat vm.rv64 rs2.toNat with
      | some fmt => (true, riscvEmitD vm rds (lib.ofInt64 fmt round x1))
      | none => illegal
    else illegal
  | 0x10 =>
    match rm with
    | 0 => bits32 .sgnj
    | 1 => bits32 .sgnjn
    | 2 => bits32 .sgnjx
    | _ => illegal
  | 0x11 =>
    match rm with
    | 0 => bits64 .sgnj
    | 1 => bits64 .sgnjn
    | 2 => bits64 .sgnjx
    | _ => illegal
  | 0x14 =>
    match rm with
    | 0 => bits32 .min
    | 1 => bits32 .max
    | 2 => arith32 .min
    | 3 => arith32 .max
    | _ => illegal
  | 0x15 =>
    match rm with
    | 0 => bits64 .min
    | 1 => bits64 .max
    | 2 => arith64 .min
    | 3 => arith64 .max
    | _ => illegal
  | 0x50 =>
    match rm with
    | 0 => test32 .fleSig
    | 1 => test32 .fltSig
    | 2 => test32 .equalQuiet
    | 4 => test32 .fleQuiet
    | 5 => test32 .fltQuiet
    | _ => illegal
  | 0x51 =>
    match rm with
    | 0 => test64 .fleSig
    | 1 => test64 .fltSig
    | 2 => test64 .equalQuiet
    | 4 => test64 .fleQuiet
    | 5 => test64 .fltQuiet
    | _ => illegal
  | 0x70 =>
    if rs2 = 0 then
      match rm with
      | 0 => (true, vm.writeReg rds ((riscvViewS vm rs1).signExtend 64))
      | 1 => (true, vm.writeReg rds (1#64 <<< lib.fclass32 s1))
      | _ => illegal
    else illegal
  | 0x71 =>
    match rm with
    | 0 =>
      if vm.rv64 ∧ rs2 = 0 then (true, vm.writeReg rds d1)
      else if rs2 = 1 then (true, vm.writeReg rds (((d1 >>> 32).setWidth 32).signExtend 64))
      else illegal
    | 1 => if rs2 = 0 then (true, vm.writeReg rds (1#64 <<< lib.fclass64 d1)) else illegal
    | _ => illegal
  | 0x78 =>
    match rm, rs2.toNat with
    | 0, 0x00 => (true, riscvEmitS vm rds (x1.setWidth 32, 0))
    | 0, 0x01 => (true, riscvEmitS vm rds (riscvFliTable.getD rs1.toNat 0, 0))
    | _, _ => illegal
  | 0x79 =>
    if vm.rv64 then
      match rm, rs2.toNat with
      | 0, 0x00 => (true, riscvEmitD vm rds (x1, 0))
      | 0, 0x01 =>
        if rs1 = 1 then (true, riscvEmitD vm rds (0x0010000000000000, 0))
        else (true, riscvEmitD vm rds (lib.widen (riscvFliTable.getD rs1.toNat 0)))
      | _, _ => illegal
    else illegal
  | _ => illegal

/-- A static rounding field overrides `frm`; ties to the larger magnitude run in the nearest
mode. The host's mode is restored afterwards. -/
def fpuRound : FpuRound :=
  let rm := bitExtU32 insn 12 3
  let frm := vm.csr.fcsr >>> 5
  let eff := if rm = 7 then frm else rm
  let rmm := eff == 4
  if rmm || (rm != 7 && eff != frm) then ⟨if rmm then 0 else eff, rm.setWidth 3, rmm⟩
  else ⟨vm.fpuRounding, rm.setWidth 3, false⟩

def riscvEmulateFOpcOp : Hart δ :=
  if riscvFpuIsEnabled vm then
    match fpuOpCase lib vm insn (fpuRound vm insn) with
    | (true, vm) => vm
    | (false, vm) => riscvIllegalInsn vm insn
  else riscvIllegalInsn vm insn

/-- Rounding modes 5 and 6 are illegal. -/
def riscvFpuRmIsValid (rm : Nat) : Bool := rm != 5 && rm != 6

/-- `riscv_emulate_f_fmadd`, `..._fmsub`, `..._fnmsub` and `..._fnmadd`: which operands of the
fused operation are negated. -/
def riscvEmulateFFma (negProduct negAddend : Bool) : Hart δ :=
  let rds := regField insn 7
  let rs1 := regField insn 15
  let rs2 := regField insn 20
  let rs3 := regField insn 27
  let sign32 (neg : Bool) (f : BitVec 32) := if neg then fpuNeg32 f else f
  let sign64 (neg : Bool) (d : BitVec 64) := if neg then fpuNeg64 d else d
  if riscvFpuIsEnabled vm && riscvFpuRmIsValid (bitExtU32 insn 12 3).toNat then
    match (bitExtU32 insn 25 2).toNat with
    | 0x0 =>
      riscvWriteS vm rds (lib.fma32 (fpuRound vm insn) (sign32 negProduct (riscvReadS vm rs1))
        (riscvReadS vm rs2) (sign32 negAddend (riscvReadS vm rs3)))
    | 0x1 =>
      riscvWriteD vm rds (lib.fma64 (fpuRound vm insn) (sign64 negProduct (riscvReadD vm rs1))
        (riscvReadD vm rs2) (sign64 negAddend (riscvReadD vm rs3)))
    | _ => riscvIllegalInsn vm insn
  else riscvIllegalInsn vm insn

end Interpreter

end Rvvm
