import Rvvm.Cpu.Hart

/-! The external-interrupt files of the AIA: messages, and the scan that picks the interrupt to
report and refreshes the pending bit of the hart. -/
namespace Rvvm

variable {δ : Type}

def externalIrq (smode : Bool) : Nat := if smode then 9 else 11

/-- The threshold the code compares identities with, `eithreshold - 1` in 32 bits. -/
def AiaRegfile.thresh (file : AiaRegfile) : BitVec 32 := file.eithreshold - 1

def AiaRegfile.word (file : AiaRegfile) (i : Fin 8) : BitVec 32 := file.eip i &&& file.eie i

def AiaRegfile.setEip (file : AiaRegfile) (i : Fin 8) (value : BitVec 32) : AiaRegfile :=
  { file with eip := Function.update file.eip i value }

def Hart.setAia (vm : Hart δ) (smode : Bool) (file : AiaRegfile) : Hart δ :=
  { vm with aia := vm.aia.map fun files => Function.update files smode file }

/-- A message is recorded only while delivery is on. -/
def riscvSendAiaIrq (vm : Hart δ) (smode : Bool) (irq : BitVec 32) : Hart δ :=
  match vm.aia with
  | none => vm
  | some files =>
    if irq ≠ 0 ∧ irq.toNat < 256 then
      let file := files smode
      if file.eidelivery ≠ 0 then
        let reg : Fin 8 := ⟨irq.toNat / 32 % 8, Nat.mod_lt _ (by decide)⟩
        let val := 1#32 <<< (irq.toNat % 32)
        let prev := file.eip reg
        let sent := vm.setAia smode (file.setEip reg (prev ||| val))
        if irq < file.thresh ∧ val &&& file.eie reg ≠ 0 ∧ val &&& prev = 0 then
          riscvInterrupt sent (externalIrq smode)
        else sent
      else vm
    else vm

section Scan
variable (smode update claim : Bool)

/-- The loop of `riscv_update_aia_internal` over the words of the file; `ret` is the interrupt
found so far. Of each word only the highest identity is looked at. -/
def aiaScan (file : AiaRegfile) : List (Fin 8) → BitVec 32 → Hart δ → BitVec 32 × Hart δ
  | [], ret, vm => (ret, vm)
  | i :: rest, ret, vm =>
    let bits := file.word i
    if bits = 0 then aiaScan file rest ret vm
    else if ret ≠ 0 then (ret, riscvInterrupt vm (externalIrq smode))
    else
      let bit := topBit bits
      let irq := BitVec.ofNat 32 (32 * i.val + bit)
      let mask := ~~~ (1#32 <<< bit)
      if irq < file.thresh then
        let file := if claim then file.setEip i (file.eip i &&& mask) else file
        let vm := if claim then vm.setAia smode file else vm
        let bits := if claim then bits &&& mask else bits
        if update then
          if bits ≠ 0 then (irq, riscvInterrupt vm (externalIrq smode))
          else aiaScan file rest irq vm
        else (irq, vm)
      else aiaScan file rest ret vm

def riscvUpdateAiaInternal (vm : Hart δ) : BitVec 32 × Hart δ :=
  match vm.aia with
  | none => (0, vm)
  | some files =>
    let vm := if update then riscvInterruptClear vm (externalIrq smode) else vm
    if (files smode).eidelivery ≠ 0 then
      aiaScan smode update claim (files smode) (List.finRange 8) 0 vm
    else (0, vm)

end Scan

def riscvUpdateAiaState (vm : Hart δ) (smode : Bool) : Hart δ :=
  (riscvUpdateAiaInternal smode true false vm).2

def riscvGetAiaIrq (vm : Hart δ) (smode claim : Bool) : BitVec 32 × Hart δ :=
  riscvUpdateAiaInternal smode true claim vm

end Rvvm
