import Mathlib.Tactic

/-! The three-operand shift of the x86 backend on hosts without BMI2. -/
namespace Rvvm.Jit.X86
open Function

/-- The registers the allocator hands out: all but the stack pointer. -/
abbrev HReg := {r : BitVec 4 // r ≠ 4}

def ecx : HReg := ⟨1, by decide⟩

inductive ShiftOp
  | shl | shr | sar

def ShiftOp.apply {w : Nat} (x : BitVec w) (amount : Nat) : ShiftOp → BitVec w
  | .shl => x <<< amount
  | .shr => x >>> amount
  | .sar => x.sshiftRight amount

/-- `xchg`, `push` and `pop` are of the host's width, the others of the operation's. -/
inductive Insn
  | xchg (dest src : HReg)
  | shift (reg : HReg)
  | mov (dest src : HReg)
  | push (reg : HReg)
  | pop (reg : HReg)

/-- The last two branches shift `reg` by another register in the same way. -/
def shiftBy (reg amount : HReg) : List Insn :=
  if reg = ecx then [.xchg ecx amount, .shift amount, .xchg ecx amount]
  else if amount ≠ ecx then [.xchg ecx amount, .shift reg, .xchg ecx amount]
  else [.shift reg]

def rvjitX863regShiftOp (hrds hrs1 hrs2 : HReg) : List Insn :=
  if hrds = hrs1 then
    if hrs2 ≠ ecx then
      let target := if hrds = ecx then hrs2 else if hrds = hrs2 then ecx else hrds
      [.xchg ecx hrs2, .shift target, .xchg ecx hrs2]
    else [.shift hrds]
  else if hrds = hrs2 then .push hrs1 :: shiftBy hrs1 hrds ++ [.mov hrds hrs1, .pop hrs1]
  else .mov hrds hrs1 :: shiftBy hrds hrs2

structure Cpu (host : Nat) where
  regs : HReg → BitVec host
  stack : List (BitVec host)

variable {host : Nat} (op : ShiftOp) (bits : Nat)

/-- A register shifted at the width of the operation, and zero-extended if that is narrower. -/
def Cpu.shifted (c : Cpu host) (reg amount : HReg) : BitVec host :=
  (op.apply ((c.regs reg).setWidth bits) ((c.regs amount).toNat % bits)).setWidth host

def Insn.exec (c : Cpu host) : Insn → Cpu host
  | .xchg dest src => { c with regs := update (update c.regs dest (c.regs src)) src (c.regs dest) }
  | .shift reg => { c with regs := update c.regs reg (c.shifted op bits reg ecx) }
  | .mov dest src => { c with regs := update c.regs dest (((c.regs src).setWidth bits).setWidth host) }
  | .push reg => { c with stack := c.regs reg :: c.stack }
  | .pop reg => { regs := update c.regs reg (c.stack.headD 0), stack := c.stack.tail }

variable {op bits} (c : Cpu host)

theorem exec_xchg (dest src : HReg) :
    Insn.exec op bits c (.xchg dest src) = { c with regs := c.regs ∘ Equiv.swap dest src } := by
  refine congrArg (Cpu.mk · c.stack) (funext fun r => ?_)
  rw [update_apply, update_apply, comp_apply, Equiv.swap_apply_def]
  split_ifs <;> simp_all

/-- Between the exchanges a register holds what the other one of the pair did. -/
theorem exec_exchanged {amount target reg : HReg} (renamed : Equiv.swap ecx amount target = reg) :
    [.xchg ecx amount, .shift target, .xchg ecx amount].foldl (Insn.exec op bits) c =
      { c with regs := update c.regs reg (c.shifted op bits reg amount) } := by
  rw [List.foldl_cons, exec_xchg, List.foldl_cons, List.foldl_cons, exec_xchg, Insn.exec, List.foldl_nil]
  dsimp only
  rw [update_comp_equiv, comp_assoc, Equiv.symm_swap, renamed, ← Equiv.coe_trans, Equiv.swap_swap]
  simp [Cpu.shifted, renamed]

theorem exec_shiftBy {reg amount : HReg} (differ : amount ≠ reg) :
    (shiftBy reg amount).foldl (Insn.exec op bits) c =
      { c with regs := update c.regs reg (c.shifted op bits reg amount) } := by
  unfold shiftBy
  split_ifs with here there
  · exact exec_exchanged c (by rw [here, Equiv.swap_apply_right])
  · exact exec_exchanged c (Equiv.swap_apply_of_ne_of_ne here differ.symm)
  · rw [not_not.mp there]
    rfl

/-- Whichever of the registers coincide, the destination receives the shifted value, and the other
registers and the stack are as before. -/
theorem rvjitX863regShiftOp_shifts (narrow : bits ≤ host) (hrds hrs1 hrs2 : HReg) :
    (rvjitX863regShiftOp hrds hrs1 hrs2).foldl (Insn.exec op bits) c =
      { c with regs := update c.regs hrds (c.shifted op bits hrs1 hrs2) } := by
  have cut (x : BitVec bits) : (x.setWidth host).setWidth bits = x := by
    rw [BitVec.setWidth_setWidth_of_le _ narrow, BitVec.setWidth_eq]
  unfold rvjitX863regShiftOp
  dsimp only
  split_ifs with same amount here there both
  · exact same ▸ exec_exchanged c (by rw [here, Equiv.swap_apply_right])
  · exact same ▸ exec_exchanged c (by rw [there, Equiv.swap_apply_left])
  · exact same ▸ exec_exchanged c (Equiv.swap_apply_of_ne_of_ne here there)
  · rw [not_not.mp amount, same]
    rfl
  · subst both
    rw [List.cons_append, List.foldl_cons, List.foldl_append, exec_shiftBy _ same]
    simp only [List.foldl, Insn.exec, update_self, Cpu.shifted, cut, List.headD_cons, List.tail_cons]
    rw [update_comm same, update_idem, update_eq_self]
  · rw [List.foldl_cons, exec_shiftBy _ (Ne.symm both)]
    simp only [Insn.exec, update_idem, Cpu.shifted, update_self, cut, update_of_ne (Ne.symm both)]

theorem rvjitX863regShiftOp_shifts_word :
    let c : Cpu 64 := ⟨fun r => BitVec.ofNat 64 (2 ^ 33 + r.1.toNat), []⟩
    (rvjitX863regShiftOp ecx ⟨3, by decide⟩ ecx).foldl (Insn.exec .shl 32) c = { c with regs := update c.regs ecx 6 } :=
  rvjitX863regShiftOp_shifts _ (by decide) _ _ _

end Rvvm.Jit.X86
