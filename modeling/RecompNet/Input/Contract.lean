import Mathlib.Algebra.Group.Int.Defs
import Mathlib.Data.Int.Order.Basic

/-!
# The input replace contract

`rnet_input_contract.c`: what to do with a wire row that replaces a published one.
-/
namespace RecompNet.Contract

/-- `RNetInputContractFrame`. -/
structure Frame where
  tick : ℕ
  buttons : ℕ
  stickX : ℤ
  stickY : ℤ
  isPredicted : Bool
  deriving DecidableEq,Inhabited

/-- `RNetInputContractParams`. -/
structure Params where
  confirmedDeadband : ℤ
  predictDeadband : ℤ
  microDeadband : ℤ
  continuityDeadband : ℤ
  analogMinMag : ℤ
  sameIntentMinActive : ℤ
  sameIntentTolerance : ℤ
  onsetFacingThresh : ℤ
  onsetLargeDelta : ℤ
  dashGateMin : ℤ
  digitalAxisMag : ℤ

/-- `rnet_input_contract_params_init_defaults`. -/
def Params.defaults : Params where
  confirmedDeadband := 12
  predictDeadband := 14
  microDeadband := 3
  continuityDeadband := 12
  analogMinMag := 12
  sameIntentMinActive := 8
  sameIntentTolerance := 14
  onsetFacingThresh := 4
  onsetLargeDelta := 40
  dashGateMin := 56
  digitalAxisMag := 85

/-- `RNetInputContractHostGates`. -/
structure HostGates where
  equalPredictedForceRewind : Option Bool
  absorbStickReplace : Option Bool
  protectPromote : Option (ℤ → ℤ → ℤ → Bool → Bool)
  blockDeadbandPromote : Option Bool
  hashConfirmPromote : Option Bool
  deferPredictedCorrection : Option Bool

def HostGates.null : HostGates := ⟨none,none,none,none,none,none⟩

/-- `RNetInputContractDecision`. -/
inductive Decision
  | rewind
  | rewindEqualDeferred
  | promoteEqual
  | promoteAbsorb
  | promoteProtect
  | promoteMicro
  | promoteContinuity
  | promoteHashConfirm
  | promoteDefer
  | promoteInsignificant
  deriving DecidableEq

/-- `rnet_input_contract_decision_is_rewind`. -/
def Decision.isRewind : Decision → Bool
  | .rewind => true
  | .rewindEqualDeferred => true
  | _ => false

/-- `rnet_input_contract_abs_s8_diff`. -/
def absDiff (a b : ℤ) : ℤ := if a-b<0 then -(a-b) else a-b
def stickSign (axis : ℤ) : ℤ := if axis > 0 then 1 else if axis<0 then -1 else 0

variable (p : Params)
def stickAxisIsDigital (axis : ℤ) : Bool :=
  if p.digitalAxisMag=0 then false
  else axis == p.digitalAxisMag || axis == -p.digitalAxisMag

def sticksNearNeutral (f : Frame) (deadband : ℤ) : Bool :=
  absDiff f.stickX 0≤deadband && absDiff f.stickY 0≤deadband

def stickLooksAnalog (x y : ℤ) : Bool :=
  if absDiff x 0≤p.analogMinMag ∧ absDiff y 0≤p.analogMinMag then false
  else !(stickAxisIsDigital p x || stickAxisIsDigital p y)

/-- One axis of `stick_same_analog_intent`: both sides active and pulling apart. -/
def axisOpposed (a b : ℤ) : Bool :=
  p.sameIntentMinActive≤absDiff a 0 && p.sameIntentMinActive≤absDiff b 0 &&
    stickSign a != stickSign b

def stickSameAnalogIntent (ax ay bx y : ℤ) : Bool :=
  if !stickLooksAnalog p ax ay || !stickLooksAnalog p bx y then false
  else !axisOpposed p ax bx && !axisOpposed p ay y

def stickDashGateActiveX (x : ℤ) : Bool := p.dashGateMin≤absDiff x 0

def stickDashGateDisagreeX (hold wire : ℤ) : Bool :=
  if p.dashGateMin≤0 then false
  else if stickDashGateActiveX p hold != stickDashGateActiveX p wire then true
  else stickDashGateActiveX p hold && stickSign hold != 0 && stickSign wire != 0 &&
    stickSign hold != stickSign wire

def stickMag (f : Frame) : ℤ :=
  if absDiff f.stickX 0<absDiff f.stickY 0 then absDiff f.stickY 0 else absDiff f.stickX 0

def stickReplaceIsRelease (old wire : Frame) : Bool :=
  if sticksNearNeutral old p.confirmedDeadband then false
  else if sticksNearNeutral wire p.confirmedDeadband then true
  else stickMag wire+p.confirmedDeadband<stickMag old

def correctionIsSignificant (old new : Frame) : Bool :=
  if old.buttons≠new.buttons then true
  else if sticksNearNeutral old p.confirmedDeadband ∧
      (sticksNearNeutral new p.confirmedDeadband=false ∨
        25<absDiff new.stickX 0 ∨ 25<absDiff new.stickY 0) then true
  else if p.onsetFacingThresh<absDiff old.stickX 0 ∧ p.onsetFacingThresh<absDiff new.stickX 0 ∧
      stickSign old.stickX≠stickSign new.stickX then true
  else if p.onsetLargeDelta<absDiff old.stickX new.stickX then true
  else if p.onsetLargeDelta<absDiff old.stickY new.stickY then true
  else if p.confirmedDeadband=0 then old.stickX != new.stickX || old.stickY != new.stickY
  else p.confirmedDeadband<absDiff old.stickX new.stickX ||
    p.confirmedDeadband<absDiff old.stickY new.stickY

def frameGameplayEquals (a b : Frame) : Bool :=
  a.tick == b.tick && a.buttons == b.buttons && a.stickX == b.stickX && a.stickY == b.stickY

def sameIntentWindow (published wire : Frame) : Bool :=
  stickLooksAnalog p published.stickX published.stickY &&
    stickLooksAnalog p wire.stickX wire.stickY &&
    stickSameAnalogIntent p published.stickX published.stickY wire.stickX wire.stickY &&
    !stickDashGateDisagreeX p published.stickX wire.stickX

variable (g : HostGates)
def sameIntentPromote (published wire : Frame) : Option Decision :=
  let dx:=absDiff published.stickX wire.stickX
  let dy:=absDiff published.stickY wire.stickY
  if (g.protectPromote.map fun f => f dx dy p.microDeadband published.isPredicted)=some true then
    some .promoteProtect
  else if g.blockDeadbandPromote=some true then none
  else if published.isPredicted=false then
    if 0<p.microDeadband ∧ dx≤p.microDeadband ∧ dy≤p.microDeadband then some .promoteMicro
    -- the two deadbands are compared as `uint32_t`
    else if p.microDeadband%2^32<p.continuityDeadband%2^32 ∧ dx≤p.continuityDeadband ∧
        dy≤p.continuityDeadband then some .promoteContinuity
    else none
  else if dx≤p.continuityDeadband ∧ dy≤p.continuityDeadband ∧
      g.hashConfirmPromote=some true then some .promoteHashConfirm
  else none

/-- The completed-sim branch of `stick_replace_decide`. -/
def decideCompleted (published wire : Frame) : Decision :=
  if published.buttons≠wire.buttons then .rewind
  else if stickReplaceIsRelease p published wire then .rewind
  else if sameIntentWindow p published wire then
    (sameIntentPromote p g published wire).getD .rewind
  else .rewind

def decideRunway (published wire : Frame) : Decision :=
  if stickReplaceIsRelease p published wire then .rewind
  else if g.deferPredictedCorrection=some true then .promoteDefer
  else if correctionIsSignificant p published wire then .rewind
  else .promoteInsignificant

def stickReplaceDecide (published wire : Frame) (completedSim : Bool) : Decision :=
  if frameGameplayEquals published wire then
    if published.isPredicted ∧ g.equalPredictedForceRewind=some true then .rewindEqualDeferred
    else .promoteEqual
  else if published.buttons=wire.buttons ∧ g.absorbStickReplace=some true then .promoteAbsorb
  else if completedSim then decideCompleted p g published wire
  else decideRunway p g published wire

variable {published : Frame}
theorem sameIntentPromote_predicted (wire : Frame) (h : published.isPredicted) :
    sameIntentPromote p HostGates.null published wire=none := by
  simp [sameIntentPromote,HostGates.null,h]

variable {wire : Frame}
theorem stickReplaceDecide_predicted (h : published.isPredicted) :
    stickReplaceDecide p HostGates.null published wire true =
      if frameGameplayEquals published wire then .promoteEqual else .rewind := by
  have hdec : decideCompleted p HostGates.null published wire=.rewind := by
    unfold decideCompleted
    rw [sameIntentPromote_predicted p wire h]
    split
    · rfl
    split
    · rfl
    · split <;> rfl
  unfold stickReplaceDecide
  by_cases he : frameGameplayEquals published wire
  · simp [he,HostGates.null]
  have hno : ¬ (published.buttons=wire.buttons ∧
      HostGates.null.absorbStickReplace=some true) := by simp [HostGates.null]
  rw [if_neg he,if_neg he,if_neg hno,if_pos rfl,hdec]

theorem sameIntentPromote_gated {p : Params} {g : HostGates}
    (h : published.isPredicted) {d : Decision}
    (hd : sameIntentPromote p g published wire=some d) :
    (∃ f,g.protectPromote=some f ∧ f (absDiff published.stickX wire.stickX)
      (absDiff published.stickY wire.stickY) p.microDeadband true) ∨
      g.hashConfirmPromote=some true := by
  unfold sameIntentPromote at hd
  dsimp only at hd
  split at hd
  · next hprotect =>
    obtain ⟨f,hf,htrue⟩ := Option.map_eq_some_iff.mp hprotect
    exact .inl ⟨f,hf,h ▸ htrue⟩
  split at hd
  · cases hd
  rw [if_neg (by simp [h])] at hd
  split at hd
  · next hhash => exact .inr hhash.2.2
  · cases hd

/-- **The contract of a completed tick.** No gate is asked about a changed button. -/
theorem completed_replace_safe (p : Params) (g : HostGates) (published wire : Frame) :
    (published.buttons≠wire.buttons → stickReplaceDecide p g published wire true=.rewind) ∧
    (published.isPredicted=true → (stickReplaceDecide p g published wire true).isRewind=false →
      frameGameplayEquals published wire=true ∨ g.absorbStickReplace=some true ∨
        (∃ f,g.protectPromote=some f ∧ f (absDiff published.stickX wire.stickX)
          (absDiff published.stickY wire.stickY) p.microDeadband true=true) ∨
        g.hashConfirmPromote=some true) ∧ (published.isPredicted=true →
      (published.buttons≠wire.buttons ∨ published.stickX≠wire.stickX ∨
        published.stickY≠wire.stickY) →
      stickReplaceDecide p HostGates.null published wire true=.rewind) := by
  refine ⟨fun hb => ?_,fun h hd => ?_,fun h hne => ?_⟩
  · have hneq : frameGameplayEquals published wire=false := by simp [frameGameplayEquals,hb]
    unfold stickReplaceDecide decideCompleted
    simp [hneq,hb]
  · unfold stickReplaceDecide at hd
    split at hd
    · next heq => exact .inl heq
    split at hd
    · next habsorb => exact .inr (.inl habsorb.2)
    rw [if_pos rfl] at hd
    unfold decideCompleted at hd
    split at hd
    · cases hd
    split at hd
    · cases hd
    split at hd
    · cases hs : sameIntentPromote p g published wire with
      | none =>
        rw [hs] at hd
        cases hd
      | some d => exact .inr (.inr (sameIntentPromote_gated h hs))
    · cases hd
  · rw [stickReplaceDecide_predicted p h,if_neg]
    intro heq
    simp only [frameGameplayEquals,Bool.and_eq_true,beq_iff_eq] at heq
    obtain ⟨⟨⟨-,hb⟩,hx⟩,hy⟩ := heq
    rcases hne with hne | hne | hne
    · exact hne hb
    · exact hne hx
    · exact hne hy

end RecompNet.Contract
