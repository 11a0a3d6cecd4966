import Mathlib.Data.Finset.Filter
import Mathlib.Data.Finset.Range
import RecompNet.Input.Hist

/-!
# The rollback core

`rnet_rollback.c`: the episode phase, the correction tuple, the sealed input table and the
confirmed frontier `resolved_through`.
-/
namespace RecompNet
def sealMaskBits : ℕ := 64

inductive RbPhase
  | live
  | sealInputs
  | awaitingBaseline
  | replay
  | verify
  | tipHold
  | commit
  | abort
  deriving DecidableEq

structure RbCorrection where
  epochId : ℕ
  mismatchTick : ℕ
  loadTick : ℕ
  targetTick : ℕ
  slot : ℤ
  initiator : Bool
  fromPeerNotify : Bool
  lightTip : Bool
  deriving DecidableEq

def RbCorrection.zero : RbCorrection := ⟨0,0,0,0,0,false,false,false⟩

structure RbConfig where
  localSlot : ℕ
  sealMaxSpan : ℕ
  slotCount : ℕ
  tipRunway : ℕ
  tipSealSlack : ℕ
  lightTipMaxDepth : ℕ
  occupiedMask : ℕ
  deriving DecidableEq

/-- The clamps of `rnet_rb_create`. -/
def RbConfig.normalise (c : RbConfig) : RbConfig where
  localSlot := c.localSlot
  sealMaxSpan := if c.sealMaxSpan=0 ∨ sealMaskBits<c.sealMaxSpan then sealMaskBits
    else c.sealMaxSpan
  slotCount := if c.slotCount=0 then 2 else min c.slotCount maxSlots
  tipRunway := min c.tipRunway 32
  tipSealSlack := min (if c.tipSealSlack=0 ∧ 0<c.tipRunway then 2
    else if c.tipSealSlack=0xffffffff then 0 else c.tipSealSlack) 8
  lightTipMaxDepth := min (if c.lightTipMaxDepth=0 then 16 else c.lightTipMaxDepth) 32
  occupiedMask := c.occupiedMask

def expectedSeats (n occupiedMask localSlot : ℕ) : Finset ℕ :=
  (Finset.range n).filter fun i => (occupiedMask=0 ∨ occupiedMask.testBit i) ∧ i≠localSlot
abbrev GetInputRow (τ : Type) := ℕ → ℕ → τ → Option RbFrame × τ

structure RbSession where
  cfg : RbConfig
  phase : RbPhase
  corr : RbCorrection
  sealed : ℕ → ℕ → RbFrame
  sealedSpan : ℕ
  sealBaseTick : ℕ
  inputsSealed : Bool
  peerSealMask : ℕ → ℕ → Bool
  resolvedThrough : ℕ

namespace RbSession
variable {τ : Type} (s : RbSession)
def sessionReset : RbSession :=
  { s with
    phase := .live
    corr := { RbCorrection.zero with slot := -1 }
    sealedSpan := 0
    sealBaseTick := 0
    inputsSealed := false
    peerSealMask := fun _ _ => false }

/-- `rnet_rb_create`. -/
def create (cfg : RbConfig) : Option RbSession :=
  if cfg.normalise.slotCount<cfg.localSlot then none
  else some (sessionReset ⟨cfg.normalise,.live,RbCorrection.zero,fun _ _ => RbFrame.zero,0,0,
    false,fun _ _ => false,0⟩)

/-- `rnet_rb_is_light_tip_candidate_ex`. -/
def isLightTipCandidate (load target resolved maxDepth : ℕ) : Bool :=
  if target<load then false
  else if maxDepth<target-load then false
  else if resolved=0 then target-load≤2
  else resolved≤load

def suggestTarget (mismatch simTip : ℕ) : ℕ := max simTip mismatch+s.cfg.tipSealSlack

def beginEpisode (corr : RbCorrection) : RbSession :=
  { s with
    corr := if corr.fromPeerNotify=false ∧ isLightTipCandidate corr.loadTick corr.targetTick
        s.resolvedThrough s.cfg.lightTipMaxDepth then { corr with lightTip := true } else corr
    inputsSealed := false
    sealedSpan := 0
    peerSealMask := fun _ _ => false
    phase := .sealInputs }

def setSealed (offset slot : ℕ) (f : RbFrame) : RbSession :=
  { s with sealed := fun o i => if o=offset ∧ i=slot then f else s.sealed o i }

/-- `peer_seal_mask[slot] |= 1 << offset`. -/
def credit (slot offset : ℕ) : RbSession :=
  { s with peerSealMask := fun i o => decide (i=slot ∧ o=offset) || s.peerSealMask i o }

variable (get : GetInputRow τ)
def fillLocalRow (tick offset : ℕ) (sc : RbSession × τ) (slot : ℕ) : RbSession × τ :=
  let blank:=sc.1.setSealed offset slot { RbFrame.zero with tick }
  match get slot tick sc.2 with
  | (none,c) => (blank,c)
  | (some row,c) =>
    if slot=sc.1.cfg.localSlot then (blank.setSealed offset slot { row with tick },c)
    else if row.isValid ∧ row.isPredicted=false then
      let filled:=blank.setSealed offset slot { row with tick }
      (if offset<sealMaskBits then filled.credit slot offset else filled,c)
    else (blank,c)

variable (sc : RbSession × τ)
def fillOffset (offset : ℕ) : RbSession × τ := (List.range sc.1.cfg.slotCount).foldl
    (fillLocalRow get (sc.1.sealBaseTick+offset) offset) sc

def canExtendTarget (newTarget : ℕ) : Bool :=
  if s.inputsSealed=false then false
  else if s.phase=.live ∨ s.phase=.commit ∨ s.phase=.abort then false
  else if newTarget ≤ s.corr.targetTick then true
  else if newTarget<s.sealBaseTick then false
  else newTarget-s.sealBaseTick<s.cfg.sealMaxSpan

def verifyToReplay : RbSession :=
  if s.phase=.verify then { s with phase := .replay } else s

/-- The grown part of `extend_target`: rows `sealed_span..new_span` are filled. -/
def growTo (s : RbSession) (newTarget : ℕ) (c : τ) : RbSession × τ :=
  let newSpan:=newTarget-s.sealBaseTick+1
  let sc:=((List.range (newSpan-s.sealedSpan)).map (· + s.sealedSpan)).foldl
    (fillOffset get) (s,c)
  ({ sc.1 with sealedSpan := newSpan,corr := { sc.1.corr with targetTick := newTarget } },sc.2)

def extendTarget (s : RbSession) (newTarget : ℕ) (c : τ) : Option (RbSession × τ) :=
  if s.canExtendTarget newTarget=false then none
  else if newTarget ≤ s.corr.targetTick then some (s.verifyToReplay,c)
  else some ((s.growTo get newTarget c).1.verifyToReplay,(s.growTo get newTarget c).2)

def commitPromoteSealed : RbSession :=
  { s with resolvedThrough := max s.resolvedThrough s.corr.targetTick }

def enterTipHold : Option RbSession :=
  if s.phase=.verify ∧ s.inputsSealed then
    some { s.commitPromoteSealed with phase := .tipHold }
  else none

/-- One offset of `resign_slot_range`: unconfirmed history does not replace a remote
owner's row, while the local seat's row is replaced by whatever the history has. -/
def resignRow (slot fromTick toTick : ℕ) (sc : RbSession × τ) (offset : ℕ) : RbSession × τ :=
  let tick:=sc.1.sealBaseTick+offset
  if tick<fromTick ∨ toTick<tick then sc
  else
    match get slot tick sc.2 with
    | (none,c) => (sc.1,c)
    | (some row,c) =>
      if slot≠sc.1.cfg.localSlot ∧ (row.isValid=false ∨ row.isPredicted) then (sc.1,c)
      else
        let filled:=sc.1.setSealed offset slot { row with tick }
        (if row.isValid ∧ (slot=sc.1.cfg.localSlot ∨ row.isPredicted=false) then
          filled.credit slot offset else filled,c)

def resignSlotRange (s : RbSession) (slot fromTick toTick : ℕ) (c : τ) : Option (RbSession × τ) :=
  if s.inputsSealed=false ∨ maxSlots ≤ slot then none
  else if toTick<fromTick then none
  else some ((List.range s.sealedSpan).foldl (resignRow get slot fromTick toTick) (s,c))

/-- `rnet_rb_set_phase`. -/
def setPhase (phase : RbPhase) : RbSession :=
  if phase=.commit ∨ phase=.abort then
    { s with phase,resolvedThrough := max s.resolvedThrough s.corr.targetTick }
  else { s with phase }

def onPostMatch : RbSession := s.commitPromoteSealed.setPhase .commit
def onPostDiverge : RbSession := s.setPhase .verify

def decideStickReplace (published wire : Contract.Frame) (completedSim : Bool) :
    Contract.Decision :=
  Contract.stickReplaceDecide Contract.Params.defaults Contract.HostGates.null published wire
    completedSim

def sealInputs (s : RbSession) (beginTick target : ℕ) (c : τ) : RbSession × τ :=
  let cleared:={ s with inputsSealed := false,sealedSpan := 0,peerSealMask := fun _ _ => false }
  if target<beginTick ∨ s.cfg.sealMaxSpan≤target-beginTick then (cleared,c)
  else
    let span:=target-beginTick+1
    let sc:=(List.range span).foldl (fillOffset get) ({ cleared with sealBaseTick := beginTick },c)
    ({ sc.1 with
      sealedSpan := span
      inputsSealed := true
      corr := { sc.1.corr with targetTick := target } },sc.2)

def tickInSealedSpan (tick : ℕ) : Bool :=
  s.inputsSealed && s.sealBaseTick≤tick && tick-s.sealBaseTick<s.sealedSpan

def getSealedFrame (slot tick : ℕ) : Option RbFrame :=
  if s.tickInSealedSpan tick ∧ slot < maxSlots then
    let f:=s.sealed (tick-s.sealBaseTick) slot
    if f.isValid then some f else none
  else none

variable (slot : ℕ)
def applyRow (s : RbSession) (offset : ℕ) (row : RbFrame) : RbSession :=
  if row.isValid=false then s
  else if row.isPredicted ∧ (s.sealed offset slot).isValid ∧
      (s.sealed offset slot).isPredicted=false then s.credit slot offset
  else (s.setSealed offset slot { row with tick := s.sealBaseTick+offset }).credit slot offset

/-- The row loop of `apply_peer_seal_rows`: it stops at the end of the span. -/
def applyRows (slot : ℕ) (s : RbSession) (offset : ℕ) : List RbFrame → RbSession
  | [] => s
  | row::rows =>
    if s.sealedSpan≤offset then s
    else (s.applyRow slot offset row).applyRows slot (offset+1) rows

def applyPeerSealRows (s : RbSession) (epoch base target slot rowBegin : ℕ)
    (rows : List RbFrame) (c : τ) : Option (RbSession × τ) :=
  if s.inputsSealed=false ∨ maxSlots ≤ slot then none
  else if epoch≠s.corr.epochId ∨ base≠s.sealBaseTick then none
  else if target<s.corr.targetTick then none
  else if s.corr.targetTick<target then
    (s.extendTarget get target c).map fun sc => (sc.1.applyRows slot rowBegin rows,sc.2)
  else some (s.applyRows slot rowBegin rows,c)

def peerSealRowsComplete : Bool :=
  s.inputsSealed && (List.range (min s.sealedSpan sealMaskBits)).all (s.peerSealMask slot)

def expectedPeerMask : Finset ℕ :=
  expectedSeats (if s.cfg.slotCount=0 ∨ maxSlots<s.cfg.slotCount then maxSlots
    else s.cfg.slotCount) s.cfg.occupiedMask s.cfg.localSlot

def allPeerSealRowsComplete : Bool :=
  s.inputsSealed && decide (∀ slot∈s.expectedPeerMask,s.peerSealRowsComplete slot)

def exportSealRowsChunk (slot rowBegin maxRows : ℕ) : List RbFrame :=
  if s.inputsSealed ∧ slot < maxSlots then
    (List.range (min (s.sealedSpan-rowBegin) maxRows)).map fun i => s.sealed (rowBegin+i) slot
  else []

def setPeerConvergence (peerTarget : ℕ) : RbSession :=
  { s with resolvedThrough := max s.resolvedThrough peerTarget }
def demoteResolvedThrough (tick : ℕ) : RbSession :=
  { s with resolvedThrough := min s.resolvedThrough tick }

structure SameTuple (s s' : RbSession) : Prop where
  cfg : s'.cfg=s.cfg
  corr : s'.corr=s.corr
  base : s'.sealBaseTick=s.sealBaseTick
  isSealed : s'.inputsSealed=s.inputsSealed
  resolved : s'.resolvedThrough=s.resolvedThrough

theorem SameTuple.refl : SameTuple s s := ⟨rfl,rfl,rfl,rfl,rfl⟩

variable {s s' : RbSession} {s'' : RbSession}
theorem SameTuple.trans (h : SameTuple s s') (h' : SameTuple s' s'') : SameTuple s s'' :=
  ⟨h'.cfg.trans h.cfg,h'.corr.trans h.corr,h'.base.trans h.base,h'.isSealed.trans h.isSealed,
    h'.resolved.trans h.resolved⟩

variable (s)
theorem setSealed_same (offset slot : ℕ) (f : RbFrame) :
    SameTuple s (s.setSealed offset slot f) := ⟨rfl,rfl,rfl,rfl,rfl⟩
theorem credit_same (slot offset : ℕ) : SameTuple s (s.credit slot offset) :=
  ⟨rfl,rfl,rfl,rfl,rfl⟩

theorem fillLocalRow_same (tick offset : ℕ) (sc : RbSession × τ)
    (slot : ℕ) : SameTuple sc.1 (fillLocalRow get tick offset sc slot).1 := by
  unfold fillLocalRow
  dsimp only
  have hb:=setSealed_same sc.1 offset slot { RbFrame.zero with tick }
  split
  · exact hb
  next row c _ =>
  have hr:=hb.trans (setSealed_same _ offset slot { row with tick })
  split
  · exact hr
  split
  · dsimp only
    split
    · exact hr.trans (credit_same ..)
    · exact hr
  · exact hb

theorem foldl_same {α : Type} {f : RbSession × τ → α → RbSession × τ}
    (hf : ∀ sc a,SameTuple sc.1 (f sc a).1) (l : List α) (sc : RbSession × τ) :
    SameTuple sc.1 (l.foldl f sc).1 := by
  induction l generalizing sc with
  | nil => exact .refl _
  | cons a l ih => exact (hf sc a).trans (ih (f sc a))

theorem fillOffset_same (offset : ℕ) : SameTuple sc.1 (fillOffset get sc offset).1 :=
  foldl_same (fillLocalRow_same get _ offset) _ sc

theorem verifyToReplay_same : SameTuple s s.verifyToReplay := by
  unfold verifyToReplay
  split
  · exact ⟨rfl,rfl,rfl,rfl,rfl⟩
  · exact .refl _

variable {s}
theorem applyRows_same (s : RbSession) (offset : ℕ) (rows : List RbFrame) :
    SameTuple s (s.applyRows slot offset rows) := by
  induction rows generalizing s offset with
  | nil => exact .refl _
  | cons row rows ih =>
    unfold applyRows
    split
    · exact .refl _
    refine SameTuple.trans ?_ (ih _ _)
    unfold applyRow
    split
    · exact .refl _
    split
    · exact credit_same ..
    · exact (setSealed_same ..).trans (credit_same ..)

structure GrownTo (s : RbSession) (target : ℕ) (s' : RbSession) : Prop where
  cfg : s'.cfg=s.cfg
  epoch : s'.corr.epochId=s.corr.epochId
  target : s'.corr.targetTick=max s.corr.targetTick target
  base : s'.sealBaseTick=s.sealBaseTick
  isSealed : s'.inputsSealed=s.inputsSealed
  resolved : s'.resolvedThrough=s.resolvedThrough

variable {target : ℕ}
theorem GrownTo.same (h : GrownTo s target s') (h' : SameTuple s' s'') : GrownTo s target s'' :=
  ⟨h'.cfg.trans h.cfg,by rw [h'.corr,h.epoch],by rw [h'.corr,h.target],h'.base.trans h.base,
    h'.isSealed.trans h.isSealed,h'.resolved.trans h.resolved⟩

theorem GrownTo.of_same (h : SameTuple s s')
    (ht : target ≤ s.corr.targetTick) : GrownTo s target s' :=
  { h with epoch := by rw [h.corr],target := by rw [h.corr,Nat.max_eq_left ht] }

theorem growTo_grown (c : τ)
    (ht : s.corr.targetTick<target) : GrownTo s target (s.growTo get target c).1 := by
  have h:=foldl_same (fillOffset_same get)
    ((List.range (target-s.sealBaseTick+1-s.sealedSpan)).map (· + s.sealedSpan)) (s,c)
  have he:=congrArg RbCorrection.epochId h.corr
  unfold growTo
  exact { h with epoch := he,target := (Nat.max_eq_right ht.le).symm }

theorem canExtendTarget_grows (h : ¬s.canExtendTarget target=false)
    (ht : s.corr.targetTick<target) : s.inputsSealed ∧ s.sealBaseTick≤target ∧
      target-s.sealBaseTick<s.cfg.sealMaxSpan := by
  unfold canExtendTarget at h
  split at h
  · exact absurd rfl h
  next hsealed =>
  split at h
  · exact absurd rfl h
  rw [if_neg (not_le.mpr ht)] at h
  split at h
  · exact absurd rfl h
  · next hlow => exact ⟨Bool.not_eq_false _ ▸ hsealed,not_lt.mp hlow,by simpa using h⟩

variable {get : GetInputRow τ} {c : τ} {sc : RbSession × τ}
theorem extendTarget_grown (h : s.extendTarget get target c=some sc) : GrownTo s target sc.1 := by
  unfold extendTarget at h
  split at h
  · cases h
  split at h
  · next ht =>
    cases h
    exact .of_same (verifyToReplay_same s) ht
  next ht =>
  cases h
  exact (growTo_grown get c (not_le.mp ht)).same (verifyToReplay_same _)

theorem applyPeerSealRows_grown {epoch base slot rowBegin : ℕ} {rows : List RbFrame}
    (h : s.applyPeerSealRows get epoch base target slot rowBegin rows c=some sc) :
    GrownTo s target sc.1 := by
  unfold applyPeerSealRows at h
  split at h
  · cases h
  split at h
  · cases h
  split at h
  · cases h
  next hlt =>
  split at h
  · obtain ⟨sc',hs',rfl⟩ := Option.map_eq_some_iff.mp h
    exact (extendTarget_grown hs').same (applyRows_same ..)
  next hgt =>
  cases h
  exact .of_same (applyRows_same ..) (not_lt.mp hgt)

/-! ### The host's state

What `get_input_row` keeps of the host's state when it is asked for the ticks of a span,
the functions that fill the span keep. -/
section HostState
variable {get : GetInputRow τ} {Q : τ → Prop} {W : ℕ → Prop}
theorem foldl_keeps {α : Type} {f : RbSession × τ → α → RbSession × τ}
    (hf : ∀ sc a,Q sc.2 → Q (f sc a).2) (l : List α) (sc : RbSession × τ) (h : Q sc.2) :
    Q (l.foldl f sc).2 := by
  induction l generalizing sc with
  | nil => exact h
  | cons a l ih => exact ih (f sc a) (hf sc a h)

variable (hget : ∀ slot tick c,W tick → Q c → Q (get slot tick c).2)
include hget
theorem fillLocalRow_keeps {tick : ℕ} (hW : W tick) (offset : ℕ) (sc : RbSession × τ) (slot : ℕ)
    (h : Q sc.2) : Q (fillLocalRow get tick offset sc slot).2 := by
  have hnext:=hget slot tick sc.2 hW h
  unfold fillLocalRow
  dsimp only
  split
  · next c hc => rwa [hc] at hnext
  next row c hc =>
  rw [hc] at hnext
  split
  · exact hnext
  · split <;> exact hnext

theorem fillOffset_keeps (sc : RbSession × τ) (offset : ℕ) (hW : W (sc.1.sealBaseTick+offset))
    (h : Q sc.2) : Q (fillOffset get sc offset).2 :=
  foldl_keeps (fillLocalRow_keeps hget hW offset) _ sc h

theorem fillOffsets_keeps (l : List ℕ) (sc : RbSession × τ)
    (hW : ∀ o∈l,W (sc.1.sealBaseTick+o)) (h : Q sc.2) : Q (l.foldl (fillOffset get) sc).2 := by
  induction l generalizing sc with
  | nil => exact h
  | cons o l ih =>
    refine ih (fillOffset get sc o) ?_ (fillOffset_keeps hget sc o (hW o List.mem_cons_self) h)
    rw [(fillOffset_same get sc o).base]
    exact fun o' ho' => hW o' (List.mem_cons_of_mem _ ho')

theorem sealInputs_keeps (s : RbSession) (beginTick target : ℕ) (c : τ)
    (hW : ∀ t,beginTick≤t → t≤target → t-beginTick<s.cfg.sealMaxSpan → W t) (h : Q c) :
    Q (s.sealInputs get beginTick target c).2 := by
  unfold sealInputs
  dsimp only
  split
  · exact h
  next hspan =>
  refine fillOffsets_keeps hget _ _ (fun o ho => ?_) h
  have ho:=List.mem_range.mp ho
  exact hW (beginTick+o) (by omega) (by omega) (by omega)

variable {s : RbSession} {target : ℕ} {c : τ} {sc : RbSession × τ}
theorem extendTarget_keeps (he : s.extendTarget get target c=some sc)
    (hW : ∀ t,s.sealBaseTick≤t → t≤target → t-s.sealBaseTick<s.cfg.sealMaxSpan → W t)
    (h : Q c) : Q sc.2 := by
  unfold extendTarget at he
  split at he
  · cases he
  next hcan =>
  split at he
  · cases he
    exact h
  next hgrow =>
  cases he
  obtain ⟨-,hlow,hfits⟩ := canExtendTarget_grows hcan (not_le.mp hgrow)
  refine fillOffsets_keeps hget _ _ (fun o ho => ?_) h
  obtain ⟨k,hk,rfl⟩ := List.mem_map.mp ho
  have hk:=List.mem_range.mp hk
  exact hW (s.sealBaseTick+(k+s.sealedSpan)) (by omega) (by omega) (by omega)

theorem applyPeerSealRows_keeps {epoch base slot rowBegin : ℕ} {rows : List RbFrame}
    (ha : s.applyPeerSealRows get epoch base target slot rowBegin rows c=some sc)
    (hW : ∀ t,s.sealBaseTick≤t → t-s.sealBaseTick<s.cfg.sealMaxSpan → W t) (h : Q c) : Q sc.2 := by
  unfold applyPeerSealRows at ha
  split at ha
  · cases ha
  split at ha
  · cases ha
  split at ha
  · cases ha
  split at ha
  · obtain ⟨sc',hs',rfl⟩ := Option.map_eq_some_iff.mp ha
    have hext:=extendTarget_keeps hget hs' (fun t hlow _ hspan => hW t hlow hspan) h
    exact hext
  · cases ha
    exact h

end HostState

variable (get)
theorem sealInputs_spec (s : RbSession) (beginTick target : ℕ) (c : τ) :
    (s.sealInputs get beginTick target c).1.resolvedThrough=s.resolvedThrough ∧
      (s.sealInputs get beginTick target c).1.corr.epochId=s.corr.epochId ∧
      ((s.sealInputs get beginTick target c).1.inputsSealed → beginTick≤target ∧
        (s.sealInputs get beginTick target c).1.sealBaseTick=beginTick ∧
        (s.sealInputs get beginTick target c).1.corr.targetTick=target) := by
  unfold sealInputs
  dsimp only
  split
  · exact ⟨rfl,rfl,fun h => by cases h⟩
  next hspan =>
  have h:=foldl_same (fillOffset_same get) (List.range (target-beginTick+1))
    ({ s with
      inputsSealed := false
      sealedSpan := 0
      peerSealMask := fun _ _ => false
      sealBaseTick := beginTick },c)
  have he:=congrArg RbCorrection.epochId h.corr
  exact ⟨h.resolved,he,fun _ => ⟨by omega,h.base,rfl⟩⟩

theorem sealInputs_cfg (s : RbSession) (beginTick target : ℕ) (c : τ) :
    (s.sealInputs get beginTick target c).1.cfg=s.cfg := by
  unfold sealInputs
  dsimp only
  split
  · rfl
  · exact (foldl_same (fillOffset_same get) (List.range (target-beginTick+1)) _).cfg

variable {get}

end RbSession
end RecompNet
