import RecompNet.Input.Sample

/-!
# The sessions of one match

What `rnet_session_create` and the lobby guarantee about the configurations of
the sessions that share a match: the same slot count, mask, session id and
magic, one session per occupied seat, and any number of observers, whose wire
id is outside the seats.
-/
namespace RecompNet

structure Room (ι : Type) where
  cfg : ι → Config
  slotCount : ℕ
  occupiedMask : ℕ
  sessionId : ℕ
  protocolMagic : ℕ
  same_slotCount : ∀ i,(cfg i).slotCount=slotCount
  same_mask : ∀ i,(cfg i).occupiedMask=occupiedMask
  same_session : ∀ i,(cfg i).sessionId=sessionId
  same_magic : ∀ i,(cfg i).protocolMagic=protocolMagic
  two_le : 2 ≤ slotCount
  le_maxSlots : slotCount ≤ maxSlots
  wire_seat : ∀ i,(cfg i).localSlot<slotCount → (cfg i).wireId=(cfg i).localSlot
  wire_observer : ∀ i,slotCount≤(cfg i).localSlot → slotCount≤(cfg i).wireId
  seat_occupied : ∀ i,(cfg i).localSlot<slotCount → (cfg i).slotOccupied (cfg i).localSlot
  seat_unique : ∀ i j,(cfg i).localSlot<slotCount → (cfg j).localSlot=(cfg i).localSlot → j=i

namespace Room
variable {ι : Type} (room : Room ι)
def seat (i : ι) : ℕ := (room.cfg i).localSlot

theorem seat_of_wireId {i : ι} (h : (room.cfg i).wireId < room.slotCount) :
    room.seat i=(room.cfg i).wireId := by
  by_cases hs : (room.cfg i).localSlot < room.slotCount
  · exact (room.wire_seat i hs).symm
  · have := room.wire_observer i (not_lt.mp hs)
    omega

end Room

def pairCfg (guest : Bool) : Config where
  slotCount := 2
  localSlot := guest.toNat
  wireSlot := 0
  inputDelay := 2
  bundleRedundancy := 3
  sessionId := 1
  protocolMagic := 0x524E4554
  occupiedMask := 0

def Room.pair : Room Bool where
  cfg := pairCfg
  slotCount := 2
  occupiedMask := 0
  sessionId := 1
  protocolMagic := 0x524E4554
  same_slotCount _ := rfl
  same_mask _ := rfl
  same_session _ := rfl
  same_magic _ := rfl
  two_le := by decide
  le_maxSlots := by decide
  wire_seat i _ := rfl
  wire_observer i h := by cases i <;> exact absurd h (by decide)
  seat_occupied i _ := by cases i <;> rfl
  seat_unique i j _ h := by cases i <;> cases j <;> first | rfl | cases h

end RecompNet
