import RecompNet.Lib.Trace
import RecompNet.Rollback.Poll

/-!
# The episode driver: the public calls

The coordinated stop, the chain check, `rnet_rb_driver_start`, `poll_admit`,
`finish_frame` and the session hold; then a match as a sequence of calls.
-/
namespace RecompNet.RbDriver
open Function
variable {σ : Type} (C : Setup σ) (v : View)

namespace Driver
variable (d : Driver σ)
def quiesceSend : Driver σ :=
  { d with aux := { d.aux with quiesceSentMs := max v.now 1 } }.sendSync .quiesce 0
    (if expect C ⊆ d.aux.peerQuiesceMask then 1 else 0) d.sim 0 (localSlot C) false false

def quiesceFinish (wireOk : Bool) : Driver σ :=
  let since:=if d.aux.quiesceAllMs=0 then max v.now 1 else d.aux.quiesceAllMs
  let d:={ d with aux := { d.aux with quiesceAllMs := since } }
  if wireOk ∧ ¬ expect C ⊆ d.aux.peerQuiesceAckMask ∧ v.now-since<500 then d
  else
    let d:=if wireOk then d.quiesceSend C v else d
    { d with aux := { d.aux with quiesce := .drained } }

def quiescePump (wireOk : Bool) : Driver σ :=
  if d.aux.quiesce≠.draining then d
  else if 10000<v.now-d.aux.quiesceReqMs then
    { d with aux := { d.aux with quiesce := .timedOut } }
  else if d.stage≠.idle ∨ d.defer.isSome then d
  else
    let d:=if wireOk ∧
        (d.aux.quiesceSentMs=0 ∨ 50≤v.now-d.aux.quiesceSentMs) then d.quiesceSend C v else d
    if expect C ⊆ d.aux.peerQuiesceMask then d.quiesceFinish C v wireOk else d

def chainSettleMs : ℕ := max (d.aux.rttEmaMs*2+250) 300

def setChainPending (i tick ms : ℕ) : Driver σ :=
  { d with aux := { d.aux with
    chainPendingTick := update d.aux.chainPendingTick i tick
    chainPendingMs := update d.aux.chainPendingMs i ms } }

def chainFork (i tick : ℕ) : Driver σ × Bool :=
  if 1<(expect C).card then
    match d.beginInitiator C v tick i with
    | (d,true) => ((d.owedMark tick i).setChainPending i 0 (d.aux.chainPendingMs i),true)
    | (d,false) => (d.setChainPending i (d.aux.chainPendingTick i) v.now,false)
  else
    ({ d with aux := { d.aux with
      chainForkTick := update d.aux.chainForkTick i tick } },false)

/-- One seat of `rb_check_chain_fork`; the flag says that an episode was opened. -/
def checkSeat (owed : Option ℕ) (settle i : ℕ) : Driver σ × Bool :=
  match (d.hc i).peekMismatch with
  | none => (d.setChainPending i 0 (d.aux.chainPendingMs i),false)
  | some (tick,_,_) =>
    if owed.any (· ≤ tick) then (d.setChainPending i 0 (d.aux.chainPendingMs i),false)
    else if d.aux.chainPendingTick i≠tick then (d.setChainPending i tick v.now,false)
    else if v.now-d.aux.chainPendingMs i<settle then (d,false)
    else if (expect C).card=1 ∧ d.aux.chainForkTick i=tick then (d,false)
    else d.chainFork C v i tick

def checkSeats (owed : Option ℕ) (settle : ℕ) : List ℕ → Driver σ → Driver σ
  | [],d => d
  | i::seats,d =>
    match d.checkSeat C v owed settle i with
    | (d,true) => d
    | (d,false) => checkSeats owed settle seats d

def checkChainFork : Driver σ :=
  if d.stage≠.idle then d
  else checkSeats C v (d.owedFirst.map Prod.fst) d.chainSettleMs
    ((List.range maxSlots).filter (·∈expect C)) d

def replayStep : Driver σ :=
  let d:=d.snapTake C d.replayNext
  match d.loadSealedRows C d.replayNext with
  | none => (d.resimEnd C).episodeAbort C v .abort
  | some rows =>
    { d with
      host := C.host.publish d.replayNext rows true d.host
      pendingAdmit := .replay }

variable (env : PollInput)
def admitLocal (slot : ℕ) : Driver σ × RbFrame :=
  match (env.localTip (wireForSim C d.sim)).filter (·.valid) with
  | some sample =>
    let row:=rowFromSample C slot d.sim sample
    ({ d with
      host := C.host.admitSample slot d.sim sample d.host
      ih := d.ih.put slot row },row)
  | none =>
    let row:=rowNeutral C slot d.sim
    ({ d with ih := d.ih.put slot row },row)

variable (slot : ℕ)
def armInjector : Driver σ :=
  if 0<C.knobs.forceMispredictEvery ∧ d.boot.settled ∧ d.aux.quiesce=.off ∧
      d.aux.forceMispredictRow slot≠d.sim+1 then
    let n:=d.aux.forceMispredictN+1
    { d with aux := { d.aux with
      forceMispredictRow := update d.aux.forceMispredictRow slot (d.sim+1)
      forceMispredictN := n
      forceInventSlot := if n%C.knobs.forceMispredictEvery=0 then some slot
        else d.aux.forceInventSlot } }
  else d

def disarm : Driver σ :=
  if d.aux.forceInventSlot=some slot then
    { d with aux := { d.aux with forceInventSlot := none } }
  else d

def invent : Driver σ × Option RbFrame :=
  match d.ih.inventHoldLast slot d.sim with
  | none => (d,none)
  | some (held,ih) =>
    let flip:=if C.cfg.injectFlipBits=0 then 0x40 else C.cfg.injectFlipBits
    let row:=C.host.sanitizeRow slot
      (if d.aux.forceInventSlot=some slot then { held with buttons := held.buttons ^^^ flip }
        else held)
    ({ d with ih := ih.put slot row }.disarm slot,some row)

def missAnswer (slot : ℕ) : Miss :=
  if d.lockstepNoInvent C then .wait else env.miss slot

def admitRemote (slot : ℕ) : Driver σ × Option RbFrame :=
  let d:=d.armInjector C slot
  let d:=if d.lockstepNoInvent C then d.disarm slot else d
  match (if d.aux.forceInventSlot=some slot then none
      else env.peekRemote C slot (wireForSim C d.sim)) with
  | some sample =>
    let row:=rowFromSample C slot d.sim sample
    ({ d with
      host := C.host.admitSample slot d.sim sample d.host
      ih := d.ih.put slot row },some row)
  | none =>
    match d.missAnswer C env slot with
    | .wait => (d.disarm slot,none)
    | .grace => (d,none)
    | .invent => d.invent C slot

/-- The seat loop of `poll_admit`; `none` is a stall. -/
def admitSeats (env : PollInput) : List ℕ → List RbFrame → Driver σ → Driver σ × Option (List RbFrame)
  | [],rows,d => (d,some rows)
  | slot::slots,rows,d =>
    if slot=localSlot C then
      admitSeats env slots (rows++[(d.admitLocal C env slot).2]) (d.admitLocal C env slot).1
    else
      match d.admitRemote C env slot with
      | (d,none) => (d,none)
      | (d,some row) => admitSeats env slots (rows++[row]) d

def admitLive (rows : List RbFrame) : Driver σ :=
  let d:=d.snapTake C d.sim
  { d with
    host := C.host.publish d.sim rows false d.host
    pendingAdmit := .live
    log := .admitted d.sim::d.log }

def admitTick : Driver σ :=
  match d.preAdmitHold C env.toView with
  | (d,true) => d
  | (d,false) =>
    if env.throttle then d
    else
      match d.admitSeats C env (List.range (slotCount C)) [] with
      | (d,none) => d
      | (d,some rows) => d.admitLive C rows

/-- The pumps of `poll_admit`, which run whether or not a frame does. -/
def pump : Driver σ :=
  let d:=d.drainWire C env.toView env.inbox
  let d:=(d.requestMissingFrameCommits C env.toView).deferPump C env.toView
  let d:=(d.modsetPump C env.toView env.modset env.modsetAcks).sendIdentity C env.toView
  let d:=(d.reconcileWire C env).pumpEpisode C env.toView
  let d:=d.quiescePump C env.toView !((expect C).card=1 && env.peerDisconnected)
  d.checkChainFork C env.toView

def admitOrStall : Driver σ :=
  if d.stage=.replaying then d.replayStep C env.toView
  else if d.stage=.sealing ∨ d.stage=.verifying then d
  else if d.refusal.isSome then d
  else if d.holdActive ∧ d.holdAt≤d.sim then d
  else d.admitTick C env

def pollAdmit : Driver σ :=
  if d.stage=.replaying then d.replayStep C env.toView
  else if env.running=false then
    (if d.aux.quiesce=.draining then d.drainWire C env.toView env.inbox else d).quiescePump C
      env.toView false
  else (d.pump C env).admitOrStall C env

def finishReplay : Driver σ :=
  let d:=(d.note (.ran d.replayNext)).replayNote C d.replayNext
  let d:={ d with replayNext := d.replayNext+1 }
  if d.corr.targetTick<d.replayNext then (d.replayFinish C).enterVerify C v else d

def ageOut : Driver σ :=
  let t:=d.sim-histDepth-1
  if histDepth+1<d.sim ∧ d.owed.has t then
    { d with owed := d.owed.clear t,log := .lost t::d.log }
  else d

def lockstepTick : Driver σ :=
  if d.aux.lockstepUntil=0 ∨ d.sim<d.aux.lockstepUntil then d
  else { d with aux := { d.aux with lockstepUntil := 0 } }

/-- The digest `finish_frame` publishes for the tick. -/
def liveDigest : ℕ :=
  if d.sim=0 ∧ C.knobs.forceBootFork then C.host.digestMaster d.host ^^^ 0xa5a5a5a5
  else C.host.digestMaster d.host

def commitLive : Driver σ :=
  { d with
    hc := hcNoteLocal C d.hc d.sim (d.liveDigest C)
    sim := d.sim+1
    log := .sent (.frameCommit d.sim (d.liveDigest C))::d.log }

def finishLive : Driver σ :=
  let d:=((d.commitLive C).ageOut.lockstepTick).sendIdentity C v
  let d:={ d with hc := hcHeal C d.hc }.checkChainFork C v
  { d with rb := d.rb.setPeerConvergence (hcResolved C d.hc) }

def finishFrame (ran : σ) : Driver σ :=
  let admitted:=d.pendingAdmit
  let d:={ d with host := ran,pendingAdmit := .stall }
  if admitted=.replay then (if d.stage=.replaying then d.finishReplay C v else d)
  else if d.aux.inResim then d
  else d.finishLive C v

/-- `rnet_rb_driver_set_hold`. -/
def setHold (tick : ℕ) : Driver σ := { d with holdActive := true,holdAt := tick }
def clearHold : Driver σ := { d with holdActive := false }
def predictedAt (slot t : ℕ) : Bool :=
  (d.ih.get slot t).any fun row => row.isValid && row.isPredicted

def holdSettled : Bool := d.holdActive && decide (d.holdAt≤d.sim) && decide (d.stage=.idle) &&
    (List.range (slotCount C)).all fun slot =>
      decide (slot∉expect C) ||
        (List.range' d.windowFrom (d.sim-d.windowFrom)).all fun t => !d.predictedAt slot t

def confirmedThrough : ℕ := d.rb.resolvedThrough

end Driver

/-- The core's configuration, as `rnet_rb_driver_start` fills it. -/
def coreConfig : RbConfig where
  localSlot := localSlot C
  sealMaxSpan := 0
  slotCount := slotCount C
  tipRunway := C.knobs.tipRunway
  tipSealSlack := 0
  lightTipMaxDepth := max C.knobs.tipRunway 16
  occupiedMask := C.cfg.occupiedMask

def seededHist : InputHist := (List.range (slotCount C)).foldl
    (fun ih i => (ih.setNeutral i (rowNeutral C i 0)).put i (rowNeutral C i 0))
    (InputHist.reset (slotCount C))

def Aux.zero : Aux where
  initiator := false
  epochSeq := 0
  peerCommitMask := ∅
  localBase := none
  peerBase := fun _ => none
  cooldownUntilTick := 0
  stageEnteredMs := 0
  inResim := false
  forkCap := 0
  tipExtends := 0
  postSentMs := 0
  postResendMs := 0
  beginResendMs := 0
  frameCommitRequestMs := 0
  answeredMask := ∅
  beginSeen := []
  nacked := []
  rttEmaMs := 0
  peerIdent := fun _ => none
  identSent := false
  identOwed := false
  identSentMs := 0
  modsetSettled := false
  modsetOk := false
  modsetSent := false
  modsetAckMask := ∅
  modsetSinceMs := 0
  chainForkTick := fun _ => 0
  chainPendingTick := fun _ => 0
  chainPendingMs := fun _ => 0
  bootHoldSinceMs := 0
  lockstepUntil := 0
  owedRetryAfter := 0
  tipTick := 0
  forceForkN := 0
  forceMispredictN := 0
  forceMispredictRow := fun _ => 0
  forceInventSlot := none
  earlyBase := fun _ => none
  beginSeenSeq := fun _ => 0
  earlySeal := []
  replayDig := fun _ => none
  quiesce := .off
  quiesceReqMs := 0
  quiesceSentMs := 0
  quiesceAllMs := 0
  peerQuiesceMask := ∅
  peerQuiesceAckMask := ∅

def start (host : σ) : Option (Driver σ) := (RbSession.create (coreConfig C)).map fun rb =>
    { host,rb
      ih := seededHist C
      hc := fun _ => HashConfirm.empty ∅
      sim := 0
      stage := .idle
      corr := RbCorrection.zero
      localPostDigest := 0
      peerPost := fun _ => none
      earlyPost := fun _ => none
      replayNext := 0
      pendingAdmit := .stall
      rewound := false
      boot := ⟨none,fun _ => none,false⟩
      refusal := none
      owed := TickRing.empty
      defer := none
      holdActive := false
      holdAt := 0
      aux := Aux.zero
      log := [] }

inductive Call (σ : Type)
  | poll (env : PollInput)
  | finishFrame (v : View) (ran : σ)
  | requestQuiesce (v : View)
  | setHold (tick : ℕ)
  | clearHold

/-- One call in the host loop of `rb_driver.h`: an admitted tick is finished
before the next poll, and only an admitted one. -/
def Driver.call (d : Driver σ) : Call σ → Option (Driver σ)
  | .poll env => if d.pendingAdmit=.stall then some (d.pollAdmit C env) else none
  | .finishFrame v ran => if d.pendingAdmit=.stall then none else some (d.finishFrame C v ran)
  | .requestQuiesce v => some (d.requestQuiesce v)
  | .setHold tick => some (d.setHold tick)
  | .clearHold => some d.clearHold

/-- `d` is the driver after some calls on a started one. -/
def Reachable (d : Driver σ) : Prop :=
  ∃ host d₀ calls,start C host=some d₀ ∧ runCalls (Driver.call C) calls d₀=some d

def play (host : σ) (calls : List (Call σ)) : Option (Driver σ) :=
  match start C host with
  | some d₀ => runCalls (Driver.call C) calls d₀
  | none => none

theorem reachable_play {C : Setup σ} (host : σ) (calls : List (Call σ)) {P : Driver σ → Prop}
    [DecidablePred P] (h : (play C host calls).map (fun d => decide (P d))=some true) :
    ∃ d,Reachable C d ∧ P d := by
  obtain ⟨d,hd,hP⟩ := Option.map_eq_some_iff.mp h
  unfold play at hd
  split at hd
  · next d₀ hstart => exact ⟨d,⟨host,d₀,calls,hstart,hd⟩,of_decide_eq_true hP⟩
  · cases hd

def stillHost : RbHost (List ℕ) where
  snapSave t saved := (true,t::saved.filter (· ≠ t))
  snapLoad t saved := (t∈saved,saved)
  snapHas t saved := t∈saved
  snapOldest saved := saved.min?
  snapDropAfter t saved := saved.filter (· ≤ t)
  publish _ _ _ saved := saved
  runTick _ saved := (true,saved)
  resimBegin saved := saved
  resimEnd saved := saved
  digestMaster _ := 7
  digestParts _ := ⟨7,7,7,7⟩
  decodeSample _ sample f := { f with
    buttons := (sample.bytes.1.getD 0 0).toNat
    analog := (sample.bytes.1.getD 1 0).toNat }
  sanitizeRow _ f := f
  neutralRow _ f := f
  admitSample _ _ _ saved := saved
  bootDigestNoted saved := saved
  requestReturnToLobby saved := saved

def duel (localSlot delay : ℕ) : Setup (List ℕ) where
  cfg := ⟨localSlot,2,delay,0,.inline,0⟩
  knobs := .defaults
  host := stillHost
  buildFp := 0
  contentFp := 0
  modset := none

def padSample (tick : ℕ) (buttons analog : UInt8) : InputSample :=
  ⟨tick,2,⟨buttons::analog::List.replicate (inputMax-2) 0,by simp [inputMax]⟩,true⟩
def neutralTo (tip wire : ℕ) : Option InputSample :=
  if wire≤tip then some (padSample wire 0 0) else none

def plainPoll (now tip : ℕ) (inbox : List RbPacket) (remoteRow : ℕ → ℕ → Option InputSample) :
    PollInput where
  now := now
  localRow := neutralTo tip
  running := true
  peerDisconnected := false
  inbox := inbox
  modset := none
  modsetAcks := []
  localTip := neutralTo (tip+1)
  remoteRow := remoteRow
  throttle := false
  miss := fun _ => .invent

def noRow (_slot _wire : ℕ) : Option InputSample := none

def tickOneRow (buttons analog : UInt8) (slot wire : ℕ) : Option InputSample :=
  if slot=0 then some (if wire=1 then padSample 1 buttons analog else padSample wire 0 0)
  else none

def twoTicks : List (Call (List ℕ)) :=
  [.poll (plainPoll 10 2 [] noRow),.finishFrame ⟨11,neutralTo 3⟩ [0],
    .poll (plainPoll 20 3 [⟨0,.frameCommit 0 7⟩] noRow),.finishFrame ⟨21,neutralTo 4⟩ [1,0]]

def committedDuel : List (Call (List ℕ)) := twoTicks ++
    [.poll (plainPoll 30 4 [⟨0,.sync ⟨8,1,1,1,0,.begin,false,false⟩⟩,
      ⟨0,.sealRows ⟨8,1,1,0,0,[⟨1,1,0,0,false,true,0,0,0⟩]⟩⟩,⟨0,.post 8 1 7⟩] noRow),
    .poll (plainPoll 40 4 [] noRow)]

end RecompNet.RbDriver
