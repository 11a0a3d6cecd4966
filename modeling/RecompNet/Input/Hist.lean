import RecompNet.Input.Contract
import RecompNet.Input.Sample

/-!
# Rollback rows and the input history

`RNetRbFrame` (`rollback.h`) and the per-seat tick history of `rnet_input_hist.c`.
-/
namespace RecompNet
def histDepth : ℕ := 128

structure RbFrame where
  tick : ℕ
  buttons : ℕ
  stickX : ℤ
  stickY : ℤ
  isPredicted : Bool
  isValid : Bool
  analog : ℕ
  rx : ℕ
  ry : ℕ
  deriving DecidableEq

def RbFrame.zero : RbFrame := ⟨0,0,0,0,false,false,0,0,0⟩
instance : Inhabited RbFrame := ⟨RbFrame.zero⟩
def RbFrame.withPad (f : RbFrame) (tick : ℕ) (isPredicted isValid : Bool) : RbFrame :=
  { f with tick,isPredicted,isValid }
def RbFrame.toContract (f : RbFrame) : Contract.Frame :=
  ⟨f.tick,f.buttons,f.stickX,f.stickY,f.isPredicted⟩

structure InputHist where
  rows : ℕ → TickRing histDepth RbFrame
  slotCount : ℕ
  neutral : ℕ → RbFrame

namespace InputHist
/-- `rnet_ih_reset`. -/
def reset (slotCount : ℕ) : InputHist where
  rows := fun _ => TickRing.empty
  slotCount := min (max slotCount 1) maxSlots
  neutral := fun _ => { RbFrame.zero with buttons := 0xFFFF }

variable (h : InputHist) (slot : ℕ)
def setNeutral (f : RbFrame) : InputHist :=
  if slot < maxSlots then
    { h with neutral := Function.update h.neutral slot (f.withPad 0 false false) }
  else h

/-- `rnet_ih_put`. -/
def put (f : RbFrame) : InputHist :=
  if f.isValid ∧ slot<h.slotCount then
    { h with rows := Function.update h.rows slot ((h.rows slot).store f.tick f) }
  else h

/-- `rnet_ih_get`. -/
def get (h : InputHist) (slot tick : ℕ) : Option RbFrame :=
  if slot<h.slotCount then ((h.rows slot).get? tick).filter (·.isValid) else none

def lastBefore (slot tick : ℕ) : Option RbFrame := (List.range (histDepth-1)).findSome? fun k =>
    if k+1≤tick then h.get slot (tick-(k+1)) else none

def inventHoldLast (slot tick : ℕ) : Option (RbFrame × InputHist) :=
  if slot<h.slotCount then
    let invented:=((h.lastBefore slot tick).getD (h.neutral slot)).withPad tick true true
    some (invented,h.put slot invented)
  else none

def inventIdle (slot tick : ℕ) : Option (RbFrame × InputHist) :=
  if slot<h.slotCount then
    let idle:=(h.neutral slot).withPad tick true true
    let invented:={ idle with analog := ((h.lastBefore slot tick).map (·.analog)).getD idle.analog }
    some (invented,h.put slot invented)
  else none

/-- `rnet_ih_promote`. -/
def promote (wire : RbFrame) : InputHist :=
  if wire.isValid then h.put slot { wire with isPredicted := false } else h

theorem promote_eq_put {wire : RbFrame} (hvalid : wire.isValid)
    (hreal : wire.isPredicted=false) : h.promote slot wire=h.put slot wire := by
  obtain ⟨tick,buttons,stickX,stickY,isPredicted,isValid,analog,rx,ry⟩ := wire
  subst hreal
  exact if_pos hvalid

variable {h : InputHist} {slot t : ℕ} {f : RbFrame}
theorem get_lt (hg : h.get slot t=some f) : slot<h.slotCount := by
  unfold get at hg
  split at hg
  · assumption
  · cases hg

theorem get_put_self (hv : f.isValid)
    (hs : slot<h.slotCount) : (h.put slot f).get slot f.tick=some f := by
  simp [get,put,hv,hs]

variable {slot' : ℕ}
theorem get_put_of_slot_ne (h : InputHist) (f : RbFrame) (t : ℕ)
    (hne : slot'≠slot) : (h.put slot f).get slot' t=h.get slot' t := by
  unfold get put
  split
  · simp [Function.update_of_ne hne]
  · rfl

theorem get_put_of_mod_ne (h : InputHist) (f : RbFrame) (hne : t%histDepth≠f.tick%histDepth) :
    (h.put slot f).get slot' t=h.get slot' t := by
  by_cases hs : slot'=slot
  · subst hs
    unfold get put
    split
    · simp [TickRing.get?_store_of_mod_ne _ _ hne]
    · rfl
  · exact get_put_of_slot_ne h f t hs

theorem get_put_of_held {row : RbFrame}
    (hheld : h.get slot f.tick=some row) (hne : (slot',t)≠(slot,f.tick)) :
    (h.put slot f).get slot' t=h.get slot' t := by
  by_cases hs : slot'=slot
  · subst hs
    have ht : t≠f.tick := fun ht => hne (by rw [ht])
    by_cases hm : t%histDepth=f.tick%histDepth
    · have hhas : (h.rows slot').has f.tick := by
        unfold get at hheld
        rw [if_pos (get_lt hheld)] at hheld
        simp [TickRing.has,(Option.filter_eq_some_iff.mp hheld).1]
      have hnone : (h.rows slot').get? t=none := by
        by_contra hsome
        exact ht (TickRing.eq_of_has_of_mod_eq (Option.isSome_iff_ne_none.mpr hsome) hhas hm)
      unfold get put
      split
      · simp [TickRing.get?_store,ht,hm,hnone]
      · rfl
    · exact get_put_of_mod_ne h f hm
  · exact get_put_of_slot_ne h f t hs

end InputHist
end RecompNet
