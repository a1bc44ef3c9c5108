import Mirage.Lib.Words

/-!
# Circuit cells

`crates/circuit/src/cell.rs`: the fixed-size cell that carries circuit traffic inside a session,
its command bytes, and the checks of `Cell::new` and `Cell::decode`. The random padding of
`Cell::encode` is its argument.
-/

namespace Mirage.Circuits

open Words

def circuitCellLen : ℕ := 1024

def cellHeaderLen : ℕ := 4 + 1 + 2

def maxCellPayload : ℕ := circuitCellLen - cellHeaderLen

def cmdReserved : UInt8 := 0x00

def cmdCreate : UInt8 := 0x01

def cmdCreated : UInt8 := 0x02

def cmdExtend : UInt8 := 0x03

def cmdExtended : UInt8 := 0x04

def cmdRelay : UInt8 := 0x05

def cmdBegin : UInt8 := 0x06

def cmdData : UInt8 := 0x07

def cmdEnd : UInt8 := 0x08

def cmdDestroy : UInt8 := 0x09

def cmdPadding : UInt8 := 0x0a

def cmdExtendFinish : UInt8 := 0x0e

def cmdExtendCont : UInt8 := 0x0f

def cmdExtendedCont : UInt8 := 0x10

def cmdCreateCont : UInt8 := 0x11

def cmdCreatedCont : UInt8 := 0x12

def cmdEstablishIntro : UInt8 := 0x13

def cmdEstablishIntroOk : UInt8 := 0x14

def cmdEstablishRendezvous : UInt8 := 0x15

def cmdRendezvousOk : UInt8 := 0x16

def cmdIntroduce : UInt8 := 0x17

def cmdRendezvous : UInt8 := 0x18

inductive CellError
  | wrongLength (got : ℕ)
  | reservedCommand
  | padLenTooLarge (padLen : ℕ)
  | bodyTooLarge (len : ℕ)
  | zeroCircuitId
  deriving DecidableEq, Repr

structure Cell where
  circId : UInt32
  command : UInt8
  body : Bytes
  deriving DecidableEq

namespace Cell

def new (circId : UInt32) (command : UInt8) (body : Bytes) : Except CellError Cell :=
  if circId = 0 then .error .zeroCircuitId
  else if maxCellPayload < body.length then .error (.bodyTooLarge body.length)
  else if command = cmdReserved then .error .reservedCommand
  else .ok ⟨circId, command, body⟩

/-- `pad` is what the CSPRNG wrote behind the body. -/
def encode (cell : Cell) (pad : Bytes) : Bytes :=
  beBytes 4 cell.circId.toNat ++ cell.command :: beBytes 2 (maxCellPayload - cell.body.length)
    ++ cell.body ++ pad

def decode (buf : Bytes) : Except CellError Cell :=
  if buf.length ≠ circuitCellLen then .error (.wrongLength buf.length)
  else
    let circId := UInt32.ofNat (beNat (buf.take 4))
    let command := buf.getD 4 0
    let padLen := beNat ((buf.drop 5).take 2)
    if circId = 0 then .error .zeroCircuitId
    else if command = cmdReserved then .error .reservedCommand
    else if maxCellPayload < padLen then .error (.padLenTooLarge padLen)
    else .ok ⟨circId, command, (buf.take (circuitCellLen - padLen)).drop cellHeaderLen⟩

structure Valid (cell : Cell) : Prop where
  circId_ne : cell.circId ≠ 0
  command_ne : cell.command ≠ cmdReserved
  fits : cell.body.length ≤ maxCellPayload

variable {circId : UInt32} {command : UInt8} {body : Bytes} {cell : Cell}

lemma new_eq_ok : new circId command body = .ok cell ↔
      circId ≠ 0 ∧ body.length ≤ maxCellPayload ∧ command ≠ cmdReserved ∧
        cell = ⟨circId, command, body⟩ := by
  unfold new
  split_ifs with h₁ h₂ h₃
  · simp [h₁]
  · simp [Nat.not_le.2 h₂]
  · simp [h₃]
  · simp [h₁, Nat.not_lt.1 h₂, h₃, eq_comm]

lemma new_relay (hid : circId ≠ 0)
    (hf : body.length ≤ maxCellPayload) : new circId cmdRelay body = .ok ⟨circId, cmdRelay, body⟩ :=
  new_eq_ok.2 ⟨hid, hf, by decide, rfl⟩

lemma valid_of_new (h : new circId command body = .ok cell) : cell.Valid := by
  obtain ⟨hid, hf, hc, rfl⟩ := new_eq_ok.1 h
  exact ⟨hid, hc, hf⟩

lemma valid_of_decode {buf : Bytes} (h : decode buf = .ok cell) : cell.Valid := by
  unfold decode at h
  dsimp only at h
  split_ifs at h with hl hid hc hp
  cases h
  refine ⟨hid, hc, ?_⟩
  simp only [List.length_drop, List.length_take, maxCellPayload]
  omega

/-- What goes over a link comes out of it, whatever the padding. -/
theorem decode_encode (h : cell.Valid) {pad : Bytes}
    (hp : pad.length = maxCellPayload - cell.body.length) :
    decode (cell.encode pad) = .ok cell := by
  have hf := h.fits
  have hid : beNat (beBytes 4 cell.circId.toNat) = cell.circId.toNat :=
    beNat_beBytes (by have := cell.circId.toNat_lt; omega)
  have hpl : beNat (beBytes 2 (maxCellPayload - cell.body.length)) =
      maxCellPayload - cell.body.length := by
    refine beNat_beBytes ?_
    simp only [maxCellPayload, circuitCellLen, cellHeaderLen]
    omega
  have hl : (cell.encode pad).length = circuitCellLen := by
    simp only [encode, List.length_append, List.length_cons, length_beBytes, hp]
    simp only [maxCellPayload, circuitCellLen, cellHeaderLen] at hf ⊢
    omega
  have ht : (cell.encode pad).take 4 = beBytes 4 cell.circId.toNat := by simp [encode, beBytes]
  have hc : (cell.encode pad).getD 4 0 = cell.command := by simp [encode, beBytes]
  have hm : ((cell.encode pad).drop 5).take 2 =
      beBytes 2 (maxCellPayload - cell.body.length) := by
    simp [encode, beBytes]
  have hb : ((cell.encode pad).take
      (circuitCellLen - (maxCellPayload - cell.body.length))).drop cellHeaderLen = cell.body := by
    have hn : circuitCellLen - (maxCellPayload - cell.body.length) =
        cellHeaderLen + cell.body.length := by
      simp only [maxCellPayload, circuitCellLen, cellHeaderLen] at hf ⊢
      omega
    rw [hn, List.drop_take, Nat.add_sub_cancel_left]
    simp [encode, cellHeaderLen, beBytes]
  unfold decode
  simp only [hl, ht, hc, hm, hb, hid, hpl, UInt32.ofNat_toNat]
  rw [if_neg (by simp), if_neg h.circId_ne, if_neg h.command_ne, if_neg (by omega)]

end Cell

end Mirage.Circuits
