import Rvvm.Cpu.Atomics
import Rvvm.Cpu.Trap

/-! What memory operations touch: memory, devices and caches, and otherwise at most the trap they
raise. -/
namespace Rvvm

variable {δ : Type}

/-- `vm'` differs from `vm` in memory, devices, the TLB and the page tracking only. -/
def OnlyMemory (vm vm' : Hart δ) : Prop :=
  vm' = { vm with host := vm'.host, tlb := vm'.tlb, pages := vm'.pages, devices := vm'.devices }

namespace OnlyMemory

theorem refl (vm : Hart δ) : OnlyMemory vm vm := rfl

theorem trans {a b c : Hart δ} (first : OnlyMemory a b) (second : OnlyMemory b c) : OnlyMemory a c := by
  unfold OnlyMemory at first second ⊢
  rw [second, first]

end OnlyMemory

/-- How a memory operation ends: with a value, with the one trap it raised (if it may raise
any), or with neither. -/
inductive MemResult {α : Type} (traps : Bool) (vm : Hart δ) : Option α × Hart δ → Prop
  | done (value : α) {vm' : Hart δ} (memory : OnlyMemory vm vm') : MemResult traps vm (some value, vm')
  | faulted {vm' : Hart δ} (memory : OnlyMemory vm vm') (cause : TrapCause) (tval : BitVec 64)
      (may : traps = true) : MemResult traps vm (none, riscvTrap vm' cause tval)
  | refused {vm' : Hart δ} (memory : OnlyMemory vm vm') : MemResult traps vm (none, vm')

namespace MemResult
variable {α : Type} {traps : Bool} {result : Option α × Hart δ}

theorem after {a b : Hart δ} (first : OnlyMemory a b)
    (second : MemResult traps b result) : MemResult traps a result := by
  cases second with
  | done value memory => exact .done value (first.trans memory)
  | faulted memory cause tval may => exact .faulted (first.trans memory) cause tval may
  | refused memory => exact .refused (first.trans memory)

theorem bind {β : Type} {vm : Hart δ} {final : Option β × Hart δ}
    (first : MemResult traps vm result) (stops : ∀ vm', result = (none, vm') → final = (none, vm'))
    (continues : ∀ value vm', result = (some value, vm') → MemResult traps vm' final) :
    MemResult traps vm final := by
  cases first with
  | done value memory => exact (continues value _ rfl).after memory
  | faulted memory cause tval may =>
    rw [stops _ rfl]
    exact .faulted memory cause tval may
  | refused memory =>
    rw [stops _ rfl]
    exact .refused memory

theorem untrapped {vm : Hart δ} (outcome : MemResult false vm result) :
    OnlyMemory vm result.2 := by
  cases outcome with
  | done value memory | refused memory => exact memory
  | faulted memory cause tval may => cases may

end MemResult

section Operations
variable (vm : Hart δ) (vaddr : Addr)

theorem riscvMmuTranslate_memory (access : BitVec 64) :
    OnlyMemory vm (riscvMmuTranslate vm vaddr access).2 := by
  unfold riscvMmuTranslate
  dsimp only
  split
  · rfl
  · exact .refl vm

theorem riscvRamAccess_memory (paddr ptr : Addr) (data : List Byte) (access : Access) :
    OnlyMemory vm (riscvRamAccess vm vaddr paddr ptr data access).2 := by
  unfold riscvRamAccess
  split <;> rfl

theorem riscvMmioScan_memory (paddr : Addr) (data : List Byte) (access : Access) :
    OnlyMemory vm (riscvMmioScan vm vaddr paddr data access).2 := by
  unfold riscvMmioScan
  split
  · exact .refl vm
  · split
    · rfl
    · split <;> split <;> rfl

theorem riscvMmuFault_result {α : Type} (cause : TrapCause) (attr : MmuAttr) :
    MemResult (α := α) (!attr.noTrap) vm (none, riscvMmuFault vm cause vaddr attr) := by
  unfold riscvMmuFault
  by_cases silent : attr.noTrap = true
  · rw [if_pos silent]
    exact .refused (.refl vm)
  · rw [if_neg silent]
    exact .faulted (.refl vm) cause vaddr (by simpa using silent)

theorem riscvMmuOpPage_result (data : List Byte) (attr : MmuAttr) (access : Access) :
    MemResult (!attr.noTrap) vm (riscvMmuOpPage vm vaddr data attr access) := by
  have translated := riscvMmuTranslate_memory vm vaddr (if attr.noProt then debugAccess else access.mask)
  unfold riscvMmuOpPage
  split
  next mid out =>
    rw [out] at translated
    exact (riscvMmuFault_result mid vaddr access.pagefault attr).after translated
  next paddr mid out =>
    rw [out] at translated
    refine MemResult.after translated ?_
    split
    next ptr inRam => exact .done _ (riscvRamAccess_memory mid vaddr paddr ptr data access)
    next outside =>
      have scanned := riscvMmioScan_memory mid vaddr paddr data access
      split
      next read last scan =>
        rw [scan] at scanned
        exact .done read scanned
      next last scan =>
        rw [scan] at scanned
        refine MemResult.after scanned ?_
        split
        · exact .done _ (.refl last)
        · exact riscvMmuFault_result last vaddr access.physFault attr

theorem riscvMmuOp_result (data : List Byte) (attr : MmuAttr) (access : Access) :
    MemResult (!attr.noTrap) vm (riscvMmuOp vm vaddr data attr access) := by
  unfold riscvMmuOp
  split
  · exact riscvMmuOpPage_result vm vaddr data attr access
  · dsimp only
    refine MemResult.bind (riscvMmuOpPage_result vm vaddr _ attr access) (fun mid out => by rw [out]) ?_
    intro first mid out
    rw [out]
    dsimp only
    refine MemResult.bind (riscvMmuOpPage_result mid _ _ attr access) (fun last out => by rw [out]) ?_
    intro second last out
    rw [out]
    exact .done _ (.refl last)

theorem riscvMmuPtrTranslate_result (size : Nat) (bounce : Bool) (access : Access) :
    MemResult true vm (riscvMmuPtrTranslate vm vaddr size bounce access) := by
  have translated := riscvMmuTranslate_memory vm vaddr access.mask
  unfold riscvMmuPtrTranslate
  split
  · split
    next mid out =>
      rw [out] at translated
      exact (riscvMmuFault_result mid vaddr access.pagefault .plain).after translated
    next paddr mid out =>
      rw [out] at translated
      refine MemResult.after translated ?_
      split
      next ptr inRam =>
        refine .done _ ?_
        split <;> rfl
      next outside =>
        have scanned : OnlyMemory mid (if bounce then
            riscvMmioScan mid vaddr paddr (List.replicate size 0) .read else (none, mid)).2 := by
          split
          · exact riscvMmioScan_memory mid vaddr paddr _ .read
          · exact .refl mid
        dsimp only
        split
        next data last scan =>
          rw [scan] at scanned
          exact .done _ scanned
        next last scan =>
          rw [scan] at scanned
          refine MemResult.after scanned ?_
          split
          · split
            · exact .done _ (.refl last)
            · exact .refused (.refl last)
          · exact riscvMmuFault_result last vaddr access.physFault .plain
  · exact riscvMmuFault_result vm vaddr access.misalign .plain

theorem riscvPtrTranslate_result (size : Nat) (bounce : Bool) (access : Access) :
    MemResult true vm (riscvPtrTranslate vm vaddr size bounce access) := by
  unfold riscvPtrTranslate
  split
  · exact .done _ (.refl vm)
  · exact riscvMmuPtrTranslate_result vm vaddr size bounce access

theorem riscvRmwMmioCommit_memory (data : List Byte) : OnlyMemory vm (riscvRmwMmioCommit vm vaddr data) :=
  (riscvMmuOp_result vm vaddr data ⟨true, false⟩ .write).untrapped

theorem RmwPtr.store_memory (ptr : RmwPtr) (data : List Byte) : OnlyMemory vm (ptr.store vm vaddr data) := by
  cases ptr with
  | host p => rfl
  | bounce old => exact riscvRmwMmioCommit_memory vm vaddr data

theorem riscvLoadBytes_result (size : Nat) : MemResult true vm (riscvLoadBytes vm vaddr size) := by
  unfold riscvLoadBytes
  split
  · exact .done _ (.refl vm)
  · exact riscvMmuOp_result vm vaddr _ .plain .read

theorem riscvStoreBytes_result (data : List Byte) :
    ∃ value : Option Unit, MemResult true vm (value, riscvStoreBytes vm vaddr data) := by
  unfold riscvStoreBytes
  split
  · exact ⟨some (), .done () rfl⟩
  · have result := riscvMmuOp_result vm vaddr data .plain .write
    generalize riscvMmuOp vm vaddr data .plain .write = out at result ⊢
    cases result with
    | done value memory => exact ⟨some (), .done () memory⟩
    | faulted memory cause tval may => exact ⟨none, .faulted memory cause tval may⟩
    | refused memory => exact ⟨none, .refused memory⟩

theorem riscvFetchInsn_result : MemResult true vm (riscvFetchInsn vm vaddr) := by
  have half (vm : Hart δ) (vaddr : Addr) : MemResult true vm (riscvFetchHalf vm vaddr) :=
    riscvMmuOp_result vm vaddr [0, 0] .plain .exec
  have slow : MemResult true vm (riscvFetchSlow vm vaddr) := by
    unfold riscvFetchSlow
    refine MemResult.bind (half vm vaddr) (fun mid out => by rw [out]) ?_
    intro low mid out
    rw [out]
    dsimp only
    split
    · refine MemResult.bind (half mid (vaddr + 2)) (fun last out => by rw [out]) ?_
      intro high last out
      rw [out]
      exact .done _ (.refl last)
    · exact .done _ (.refl mid)
  unfold riscvFetchInsn
  split
  · dsimp only
    split
    · split
      · exact .done _ (.refl vm)
      · exact slow
    · exact .done _ (.refl vm)
  · exact slow

end Operations

end Rvvm
