import RecompNet.Lib.TickRing

/-!
# Input samples, input rings and the session configuration

`RNetInputSample` and `rnet_ring_*` (`input.h`, `rnet_rings.c`), and the parts of `RNetConfig`
(`config.h`) the session reads.
-/
namespace RecompNet
def historyLength : ℕ := 128
def inputMax : ℕ := 32
def maxSlots : ℕ := 8
def PadBytes : Type := {b : List UInt8 // b.length=inputMax}

namespace PadBytes
instance : DecidableEq PadBytes :=
  inferInstanceAs (DecidableEq {b : List UInt8 // b.length=inputMax})
def zero : PadBytes := ⟨List.replicate inputMax 0,List.length_replicate⟩
instance : Inhabited PadBytes := ⟨zero⟩

def copy (n : ℕ) (b : PadBytes) : PadBytes :=
  ⟨b.1.take n++List.replicate (inputMax-(b.1.take n).length) 0,by
    have hb:=b.2
    simp only [List.length_append,List.length_replicate,List.length_take,hb]
    omega⟩

@[simp] theorem take_copy (n : ℕ) (b : PadBytes) : (copy n b).1.take n=b.1.take n := by
  have hb:=b.2
  by_cases h : n ≤ inputMax
  · have hl : (b.1.take n).length=n := by rw [List.length_take,hb,Nat.min_eq_left h]
    simp only [copy]
    rw [List.take_append_of_le_length (le_of_eq hl.symm),List.take_take,Nat.min_self]
  have hle : inputMax≤n := Nat.le_of_not_le h
  rw [List.take_of_length_le (by rw [(copy n b).2]; exact hle),
    List.take_of_length_le (by rw [hb]; exact hle)]
  simp only [copy]
  rw [List.take_of_length_le (by rw [hb]; exact hle),hb,Nat.sub_self,List.replicate_zero,
    List.append_nil]

end PadBytes

structure InputSample where
  tick : ℕ
  size : ℕ
  bytes : PadBytes
  valid : Bool
  deriving DecidableEq,Inhabited

structure Row where
  size : ℕ
  data : List UInt8
  deriving DecidableEq

def InputSample.row (s : InputSample) : Row := ⟨s.size,s.bytes.1.take s.size⟩
def neutralSample (t : ℕ) : InputSample := ⟨t,0,PadBytes.zero,true⟩
def wireTickFromSim (simTick delay : ℕ) : ℕ := simTick+delay
abbrev InputRing := TickRing historyLength InputSample

variable (ring : InputRing)
def ringStore (sample : InputSample) : InputRing :=
  if sample.valid then ring.store sample.tick sample else ring
def ringGet (tick : ℕ) : Option InputSample := ring.get? tick
def ringHighestValid : ℕ := ring.highest

structure Config where
  slotCount : ℕ
  localSlot : ℕ
  wireSlot : ℕ
  inputDelay : ℕ
  bundleRedundancy : ℕ
  sessionId : ℕ
  protocolMagic : ℕ
  occupiedMask : ℕ
  deriving DecidableEq,Inhabited

variable (cfg : Config)
def Config.isObserver : Bool := cfg.slotCount ≤ cfg.localSlot

/-- `rnet_config_wire_slot`. -/
def Config.wireId : ℕ := if cfg.wireSlot≠0 then cfg.wireSlot else cfg.localSlot

def Config.slotOccupied (slot : ℕ) : Bool :=
  if maxSlots ≤ slot ∨ cfg.slotCount ≤ slot then false
  else if cfg.occupiedMask=0 then true
  else cfg.occupiedMask.testBit slot

theorem Config.lt_slotCount_of_occupied {cfg : Config} {slot : ℕ}
    (h : cfg.slotOccupied slot) : slot<cfg.slotCount := by
  unfold Config.slotOccupied at h
  split at h
  · cases h
  · next hn => exact not_le.mp (not_or.mp hn).2

end RecompNet
