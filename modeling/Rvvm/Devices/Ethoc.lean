import Rvvm.Library.Emitting

/-! The OpenCores Ethernet controller: one table of buffer descriptors, split by `TX_BD_NUM` into those for
transmission and those for reception, with a cursor into each part. -/
namespace Rvvm.Ethoc
open Emitting

def ethocBdCount : Nat := 0x80

def ethocModerTxen : BitVec 32 := 0x2
def ethocModerRxen : BitVec 32 := 0x1
def ethocModerPad : BitVec 32 := 0x8000
def ethocModerCrcen : BitVec 32 := 0x2000

def ethocBdIrq : BitVec 32 := 0x4000
def ethocBdWrap : BitVec 32 := 0x2000
def ethocTxbdRd : BitVec 32 := 0x8000
def ethocTxbdRl : BitVec 32 := 0x8
def ethocTxbdCs : BitVec 32 := 0x1
def ethocRxbdE : BitVec 32 := 0x8000
def ethocRxbdOr : BitVec 32 := 0x40

def ethocMiicommandRstat : BitVec 32 := 0x2

def ethocIntTxb : Nat := 0
def ethocIntTxe : Nat := 1
def ethocIntRxb : Nat := 2
def ethocIntRxe : Nat := 3

structure EthocBd where
  data : BitVec 32
  ptr : BitVec 32

inductive EthocPlain where
  | collconf | ctrlmoder | miimoder | miiaddress | miitxData | miirxData | miistatus
  | macAddr0 | macAddr1 | hash0 | hash1 | txctrl
  deriving DecidableEq

/-- `bdbuf` past its end is whatever follows it in memory. -/
structure EthocDev where
  bdbuf : Nat → EthocBd
  curTxbd : Nat
  curRxbd : Nat
  moder : BitVec 32
  intSrc : BitVec 32
  intMask : BitVec 32
  packetlen : BitVec 32
  txBdNum : Nat
  plain : EthocPlain → BitVec 32

inductive EthocRing where
  | tx | rx
  deriving DecidableEq

/-- A ring indexes `bdbuf`, and takes the descriptor if it is its turn; or an interrupt is sent. -/
inductive EthocEvent where
  | access (ring : EthocRing) (index : Nat) (consumed : Bool) (txBdNum : Nat)
  | irq
  deriving DecidableEq

abbrev EthocM (α : Type) := Emitting EthocEvent EthocDev α

def EthocDev.setData (eth : EthocDev) (index : Nat) (data : BitVec 32) : EthocDev :=
  { eth with bdbuf := Function.update eth.bdbuf index { eth.bdbuf index with data } }

def EthocDev.setPtr (eth : EthocDev) (index : Nat) (ptr : BitVec 32) : EthocDev :=
  { eth with bdbuf := Function.update eth.bdbuf index { eth.bdbuf index with ptr } }

def ethocInterrupt (intNum : Nat) : EthocM Unit := do
  let mask : BitVec 32 := 1#32 <<< intNum
  let eth ← read id
  modify fun eth => { eth with intSrc := eth.intSrc ||| mask }
  if eth.intSrc &&& mask = 0 ∧ mask &&& eth.intMask ≠ 0 then emit .irq else pure ()

section Machine

-- whether `rvvm_get_dma_ptr` finds memory at an address, for a size
variable (dma : BitVec 32 → Nat → Bool)

/-- The cursor is compared with the end of the table after the descriptor has been used. -/
def ethocFeedRx (size : Nat) : EthocM Bool := do
  let eth ← read id
  if eth.moder &&& ethocModerRxen = 0 then return false
  else do
    let rxbd := eth.bdbuf eth.curRxbd
    emit (.access .rx eth.curRxbd (rxbd.data &&& ethocRxbdE != 0) eth.txBdNum)
    if rxbd.data &&& ethocRxbdE = 0 then return false
    else do
      let flags := rxbd.data &&& ~~~ ethocRxbdE
      let fSize := size + 4
      if dma rxbd.ptr fSize = false ∨ fSize > (eth.packetlen &&& 0xFFFF).toNat then do
        modify fun eth => eth.setData eth.curRxbd (flags ||| ethocRxbdOr)
        ethocInterrupt ethocIntRxe
        return false
      else do
        modify fun eth => eth.setData eth.curRxbd
          ((BitVec.ofNat 32 fSize &&& 0xFFFF) <<< 16 ||| (flags &&& 0xFFFF))
        modify fun eth =>
          if flags &&& ethocBdWrap ≠ 0 ∨ eth.curRxbd = ethocBdCount then { eth with curRxbd := eth.txBdNum }
          else { eth with curRxbd := (eth.curRxbd + 1) % 2 ^ 32 }
        if flags &&& ethocBdIrq ≠ 0 then ethocInterrupt ethocIntRxb else pure ()
        return true

/-- How `tap_send` answers: the frames it feeds back before it returns, and whether the frame went out. -/
structure TapAnswer where
  replies : List Nat
  sent : Bool

/-- The frame of the current descriptor is handed over. -/
def ethocSend (answer : TapAnswer) : EthocM Unit := do
  let eth ← read id
  let txbd := eth.bdbuf eth.curTxbd
  if dma txbd.ptr (txbd.data >>> 16).toNat then do
    answer.replies.forM fun size => do
      let _ ← ethocFeedRx dma size
    if answer.sent then do
      modify fun eth => eth.setData eth.curTxbd ((eth.bdbuf eth.curTxbd).data &&& ~~~ ethocTxbdRd)
      let eth ← read id
      if (eth.bdbuf eth.curTxbd).data &&& ethocBdIrq ≠ 0 then ethocInterrupt ethocIntTxb else pure ()
    else do
      modify fun eth =>
        eth.setData eth.curTxbd ((eth.bdbuf eth.curTxbd).data &&& ~~~ ethocTxbdRd ||| ethocTxbdRl)
      ethocInterrupt ethocIntTxe
  else do
    modify fun eth => eth.setData eth.curTxbd ((eth.bdbuf eth.curTxbd).data &&& ~~~ ethocTxbdRd ||| ethocTxbdCs)
    ethocInterrupt ethocIntTxe

/-- The wrap test comes after the descriptor has been used, here against `tx_bd_num`. -/
def ethocAdvanceTx : EthocM Unit :=
  modify fun eth =>
    if (eth.bdbuf eth.curTxbd).data &&& ethocBdWrap ≠ 0 ∨ eth.curTxbd = eth.txBdNum then { eth with curTxbd := 0 }
    else { eth with curTxbd := (eth.curTxbd + 1) % 2 ^ 32 }

/-- The loop of `ethoc_process_tx`, with so many rounds left. -/
def ethocProcessTxLoop (answers : Nat → TapAnswer) : Nat → EthocM Unit
  | 0 => pure ()
  | rounds + 1 => do
      let eth ← read id
      if eth.moder &&& ethocModerTxen = 0 then pure ()
      else do
        let txbd := eth.bdbuf eth.curTxbd
        emit (.access .tx eth.curTxbd (txbd.data &&& ethocTxbdRd != 0) eth.txBdNum)
        if txbd.data &&& ethocTxbdRd = 0 then pure ()
        else do
          ethocSend dma (answers rounds)
          ethocAdvanceTx
          ethocProcessTxLoop answers rounds

def ethocProcessTx (answers : Nat → TapAnswer) : EthocM Unit := ethocProcessTxLoop dma answers ethocBdCount

/-! The register window. -/

inductive EthocReg where
  | moder | intSrc | intMask | packetlen | txBdNum | miicommand
  | plain (reg : EthocPlain)
  | bdData (bdid : Nat)
  | bdPtr (bdid : Nat)
  | unmapped
  deriving DecidableEq

def ethocReg (offset : Nat) : EthocReg :=
  match offset with
  | 0x00 => .moder
  | 0x04 => .intSrc
  | 0x08 => .intMask
  | 0x18 => .packetlen
  | 0x1C => .plain .collconf
  | 0x20 => .txBdNum
  | 0x24 => .plain .ctrlmoder
  | 0x28 => .plain .miimoder
  | 0x2C => .miicommand
  | 0x30 => .plain .miiaddress
  | 0x34 => .plain .miitxData
  | 0x3C => .plain .miistatus
  | 0x40 => .plain .macAddr0
  | 0x44 => .plain .macAddr1
  | 0x48 => .plain .hash0
  | 0x4C => .plain .hash1
  | 0x50 => .plain .txctrl
  | _ =>
    if 0x400 ≤ offset ∧ offset < 0x800 then
      if offset / 4 % 2 = 1 then .bdPtr ((offset - 0x400) / 8) else .bdData ((offset - 0x400) / 8)
    else .unmapped

def EthocDev.setPlain (eth : EthocDev) (reg : EthocPlain) (val : BitVec 32) : EthocDev :=
  { eth with plain := Function.update eth.plain reg val }

/-- The mode that is kept of the one written: a ring without descriptors is not enabled. -/
def EthocDev.moderOf (eth : EthocDev) (val : BitVec 32) : BitVec 32 :=
  let val := if eth.txBdNum = 0 then val &&& ~~~ ethocModerTxen else val
  if eth.txBdNum ≥ ethocBdCount then val &&& ~~~ ethocModerRxen else val

def ethocWriteModer (answers : Nat → TapAnswer) (val : BitVec 32) : EthocM Unit := do
  let eth ← read id
  let val := eth.moderOf val
  modify fun eth => { eth with moder := val }
  modify fun now => if (eth.moder ^^^ val) &&& ethocModerRxen ≠ 0 then { now with curRxbd := now.txBdNum } else now
  if (eth.moder ^^^ val) &&& ethocModerTxen ≠ 0 then do
    modify fun eth => { eth with curTxbd := 0 }
    ethocProcessTx dma answers
  else pure ()

/-- A transmit descriptor might have been made ready. -/
def ethocPokeTx (answers : Nat → TapAnswer) (bdid : Nat) : EthocM Unit := do
  let eth ← read id
  if bdid < eth.txBdNum then ethocProcessTx dma answers else pure ()

def ethocWriteReg (answers : Nat → TapAnswer) (val : BitVec 32) : EthocReg → EthocM Unit
  | .moder => ethocWriteModer dma answers val
  | .intSrc => modify fun eth => { eth with intSrc := eth.intSrc &&& ~~~ val }
  | .intMask => do
      modify fun eth => { eth with intMask := val }
      let eth ← read id
      if eth.intSrc &&& val ≠ 0 then emit .irq else pure ()
  | .packetlen => modify fun eth => { eth with packetlen := val }
  | .txBdNum => modify fun eth => { eth with txBdNum := min val.toNat ethocBdCount }
  | .miicommand =>
    -- the link of PHY 0 is up
    modify fun eth =>
      if val &&& ethocMiicommandRstat ≠ 0 then
        if eth.plain .miiaddress &&& 0x1F = 0 ∧ (eth.plain .miiaddress >>> 8) &&& 0x1F = 1 then
          eth.setPlain .miirxData 4
        else eth.setPlain .miirxData 0
      else eth
  | .plain .macAddr1 => modify fun eth => eth.setPlain .macAddr1 (val &&& 0xFFFF)
  | .plain reg => modify fun eth => eth.setPlain reg val
  | .bdData bdid => do
      modify fun eth => eth.setData bdid val
      ethocPokeTx dma answers bdid
  | .bdPtr bdid => do
      modify fun eth => eth.setPtr bdid val
      ethocPokeTx dma answers bdid
  | .unmapped => pure ()

/-- The cursors are left where they are. -/
def ethocReset (eth : EthocDev) : EthocDev :=
  { eth with
    bdbuf := fun index => if index < ethocBdCount then ⟨0, 0⟩ else eth.bdbuf index
    moder := ethocModerPad ||| ethocModerCrcen
    intSrc := 0
    intMask := 0
    packetlen := 0x3C0600
    txBdNum := 0x40
    plain := fun reg => match reg with
      | .collconf => 0xF003F
      | .miimoder => 0x64
      | _ => 0 }

inductive EthocInput where
  | write (offset : Nat) (val : BitVec 32) (answers : Nat → TapAnswer)
  | feedRx (size : Nat)
  | reset

def EthocInput.run : EthocInput → EthocM Unit
  | .write offset val answers => ethocWriteReg dma answers val (ethocReg offset)
  | .feedRx size => do
      let _ ← ethocFeedRx dma size
  | .reset => modify ethocReset

def ethocStep (eth : EthocDev) (input : EthocInput) : EthocDev := (input.run dma).state eth

end Machine

def ethocInit : EthocDev where
  bdbuf := fun _ => ⟨0, 0⟩
  curTxbd := 0
  curRxbd := 0
  moder := 0
  intSrc := 0
  intMask := 0
  packetlen := 0
  txBdNum := 0
  plain := fun _ => 0

end Rvvm.Ethoc
