import RecompNet.Rollback.Driver

/-!
# The episode driver: teardown, replay, commit, tip-extend, open

`rnet_rb_driver.c` from the hash-chain helpers to `rb_begin_episode`, and the deferred follow.
-/
namespace RecompNet.RbDriver
variable {σ : Type} (C : Setup σ) (v : View) (hc : ℕ → HashConfirm)
/-- `rb_hc_note_local`. -/
def hcNoteLocal (tick digest : ℕ) : ℕ → HashConfirm := fun i =>
  if i∈expect C then (hc i).noteLocal tick digest else hc i
/-- `rb_hc_resolved`. -/
def hcResolved : ℕ :=
  (((List.range maxSlots).filter (·∈expect C)).map fun i => (hc i).resolvedThrough).min?.getD 0
/-- `rb_hc_heal`. -/
def hcHeal : ℕ → HashConfirm := fun i =>
  if i∈expect C then (hc i).healStaleGap else hc i

namespace Driver
variable (d : Driver σ) (tick : ℕ)
/-- `rb_snap_take`. -/
def snapTake : Driver σ :=
  if 1<C.knobs.snapInterval ∧ tick%C.knobs.snapInterval≠0 then d
  else { d with host := (C.host.snapSave tick d.host).2 }

/-- The fork-cap part of `rb_snap_floor`: an aged-out cap is lifted. -/
def liftForkCap (oldest : ℕ) : Driver σ :=
  if d.aux.forkCap≤oldest then { d with aux := { d.aux with forkCap := 0 } } else d

/-- `rb_snap_floor`. -/
def snapFloor (want : ℕ) : Driver σ × Option ℕ :=
  match C.host.snapOldest d.host with
  | none => (d,none)
  | some oldest =>
    let d:=d.liftForkCap oldest
    let want:=if 0<d.aux.forkCap ∧ d.aux.forkCap≤want then d.aux.forkCap-1 else want
    (d,(ticks oldest want).reverse.find? fun t => C.host.snapHas t d.host)

/-- `rb_resim_begin`. -/
def resimBegin : Driver σ :=
  { d with host := C.host.resimBegin d.host,aux := { d.aux with inResim := true } }

/-- `rb_resim_end`. -/
def resimEnd : Driver σ :=
  if d.aux.inResim then
    { d with host := C.host.resimEnd d.host,aux := { d.aux with inResim := false } }
  else d

/-- `rb_enter_lockstep`. -/
def enterLockstep : Driver σ :=
  if C.knobs.lockstepTicks=0 ∨ d.sim+C.knobs.lockstepTicks≤d.aux.lockstepUntil then d
  else { d with aux := { d.aux with lockstepUntil := d.sim+C.knobs.lockstepTicks } }

/-- `rb_gate_lockstep_no_invent`. -/
def lockstepNoInvent : Bool :=
  lockstepPinned C || d.holdActive || (d.aux.lockstepUntil != 0 && d.sim<d.aux.lockstepUntil)

/-- `rb_refuse`. -/
def refuse (code : Refusal) : Driver σ :=
  if d.refusal.isSome then d
  else { d with
    refusal := some code
    host := C.host.requestReturnToLobby d.host
    log := .refused code::d.log }

/-- `rb_stage_set`. -/
def stageSet (stage : Stage) : Driver σ :=
  { d with stage,aux := { d.aux with stageEnteredMs := v.now } }

/-- `rb_episode_clear`. -/
def episodeClear : Driver σ :=
  { d with
    stage := .idle
    peerPost := fun _ => none
    corr := RbCorrection.zero
    rb := d.rb.sessionReset
    aux := { d.aux with
      stageEnteredMs := v.now
      initiator := false
      peerCommitMask := ∅
      localBase := none
      peerBase := fun _ => none } }

/-- `rb_restore_tip`. -/
def restoreTip : Driver σ :=
  if d.rewound then
    let d:={ d with rewound := false }.resimEnd C
    { d with
      host := (C.host.snapLoad d.aux.tipTick d.host).2
      log := .restored d.aux.tipTick::d.log }
  else d

def cooldownTicks : ℕ := 30

/-- `rb_episode_abort`. -/
def episodeAbort (cls : AbortClass) : Driver σ :=
  let d:=d.sendSync .abort d.corr.epochId cls.code d.sim 0 d.corr.slot.toNat false false
  let d:=(d.restoreTip C).episodeClear v
  { d with aux := { d.aux with cooldownUntilTick := d.sim+cooldownTicks } }

def sealRowsChunkMax : ℕ := 24

/-- The export loop of `rb_send_local_seal_rows`; a chunk carries at least one row. -/
def sendSealChunks : ℕ → ℕ → ℕ → Driver σ → Driver σ
  | 0,_,_,d => d
  | n+1,off,span,d =>
    if span≤off then d
    else
      let rows:=d.rb.exportSealRowsChunk (localSlot C) off (min (span-off) sealRowsChunkMax)
      if rows=[] then d
      else sendSealChunks n (off+rows.length) span (d.send (.sealRows
        ⟨d.corr.epochId,d.corr.loadTick,d.corr.targetTick,localSlot C,off,rows⟩))

/-- `rb_send_local_seal_rows`. -/
def sendLocalSealRows : Driver σ :=
  let span:=d.corr.targetTick+1-d.corr.loadTick
  if isObserver C then d else sendSealChunks C span 0 span d

/-- The fork verdict of `rb_baseline_try_compare`. -/
def baselineFork : Driver σ :=
  let cap:=if d.aux.forkCap=0 ∨ d.corr.loadTick<d.aux.forkCap then d.corr.loadTick
    else d.aux.forkCap
  ({ d with aux := { d.aux with forkCap := cap } }.enterLockstep C).episodeAbort C v .abort

def compareBases (mine : DigestParts) : List DigestParts → Driver σ → Driver σ
  | [],d => d
  | theirs::rest,d =>
    let n:=if 0<C.knobs.forceForkEvery then d.aux.forceForkN+1 else d.aux.forceForkN
    let d:={ d with aux := { d.aux with forceForkN := n } }
    if mine.master=theirs.master ∧ ¬ (0<C.knobs.forceForkEvery ∧ n%C.knobs.forceForkEvery=0) then
      compareBases mine rest d
    else d.baselineFork C v

/-- `rb_baseline_try_compare`. -/
def baselineTryCompare : Driver σ :=
  match d.aux.localBase with
  | none => d
  | some mine =>
    compareBases C v mine ((List.range maxSlots).filterMap d.aux.peerBase)
      { d with aux := { d.aux with peerBase := fun _ => none } }

/-- `rb_send_baseline`. -/
def sendBaseline : Driver σ :=
  let p:=C.host.digestParts d.host
  baselineTryCompare C v
    ({ d with aux := { d.aux with localBase := some p } }.send
      (.baseline d.corr.epochId d.corr.loadTick p))

/-- `rb_replay_note`. -/
def replayNote : Driver σ :=
  if tick<d.corr.loadTick ∨ sealMaskBits≤tick-d.corr.loadTick then d
  else { d with aux := { d.aux with
    replayDig := Function.update d.aux.replayDig (tick-d.corr.loadTick)
      (some (C.host.digestMaster d.host)) } }

/-- `rb_load_sealed_rows`. -/
def loadSealedRows : Option (List RbFrame) := (List.range (slotCount C)).mapM fun i =>
    (d.rb.getSealedFrame i tick).map (C.host.sanitizeRow i)

/-- `rb_advance_sim`. -/
def advanceSim : Driver σ × Bool :=
  match d.loadSealedRows C tick with
  | none => (d,false)
  | some rows =>
    let ran:=C.host.runTick tick (C.host.publish tick rows true d.host)
    if ran.1 then (({ d with host := ran.2 }.note (.ran tick)).replayNote C tick,true)
    else ({ d with host := ran.2 },false)

/-- One digest of the loop in `rb_replay_finish`. -/
def commitReplayed (d : Driver σ) (off : ℕ) : Driver σ :=
  match d.aux.replayDig off with
  | none => d
  | some digest =>
    { d with
      hc := hcNoteLocal C d.hc (d.corr.loadTick+off) digest
      log := .sent (.frameCommit (d.corr.loadTick+off) digest)::d.log }

/-- The part of `rb_replay_finish` after the digests went into the chain: what
was owed in the span is paid and the sim clock moves to the corrected timeline. -/
def finishSpan : Driver σ :=
  let d:={ d with
    owed := owedClearSpan d.owed d.corr.loadTick d.corr.targetTick
    aux := { d.aux with replayDig := fun _ => none } }.resimEnd C
  { d with
    host := C.host.snapDropAfter d.corr.targetTick d.host
    sim := d.corr.targetTick+1
    log := .replayed d.corr.loadTick d.corr.targetTick::d.log }

/-- `rb_replay_finish`. -/
def replayFinish : Driver σ :=
  ((List.range sealMaskBits).foldl (commitReplayed C) { d with rewound := false }).finishSpan C

/-- The replay loop of `rb_run_replay`, INLINE shape. -/
def replayTicks : List ℕ → Driver σ → Driver σ × Bool
  | [],d => (d,true)
  | t::ts,d =>
    match (d.snapTake C t).advanceSim C t with
    | (d,true) => replayTicks ts d
    | (d,false) => ((d.resimEnd C).episodeAbort C v .abort,false)

/-- The baseline load of `rb_run_replay`; the flag says whether it succeeded. -/
def loadBaseline : Driver σ × Bool :=
  let saved:=C.host.snapSave d.sim d.host
  let d:={ d with host := saved.2,aux := { d.aux with tipTick := d.sim } }
  if saved.1=false then (d.episodeAbort C v .noSnap,false)
  else
    let loaded:=C.host.snapLoad d.corr.loadTick d.host
    let d:={ d with host := loaded.2 }
    if loaded.1=false then (d.episodeAbort C v .noSnap,false)
    else ({ d with
      rewound := true
      aux := { d.aux with replayDig := fun _ => none }
      log := .loaded d.corr.loadTick::d.log },true)

/-- `rb_run_replay` once the baseline is loaded and was not refused. -/
def replaySpan : Driver σ × Bool :=
  let d:={ d with rb := d.rb.setPhase .replay }.resimBegin C
  match C.cfg.replayMode with
  | .incremental => ({ d with replayNext := d.corr.loadTick }.stageSet v .replaying,false)
  | .inline =>
    match replayTicks C v (ticks d.corr.loadTick d.corr.targetTick) d with
    | (d,true) => (d.replayFinish C,true)
    | (d,false) => (d,false)

/-- `rb_run_replay`. -/
def runReplay : Driver σ × Bool :=
  match d.loadBaseline C v with
  | (d,false) => (d,false)
  | (d,true) =>
    let d:=d.sendBaseline C v
    if d.stage=.idle then (d,false) else d.replaySpan C v

/-- `rb_enter_verify`. -/
def enterVerify : Driver σ :=
  let master:=C.host.digestMaster d.host
  { d with
    rb := d.rb.setPhase .verify
    localPostDigest := master
    stage := .verifying
    aux := { d.aux with postSentMs := v.now,postResendMs := v.now,stageEnteredMs := v.now }
    log := .verified d.corr.epochId d.corr.targetTick master ::
      .sent (.post d.corr.epochId d.corr.targetTick master)::d.log }

/-- The agreement part of `rb_commit_episode`: rows promoted, fork cap lifted,
every chain restarted behind the target. -/
def commitPromote : Driver σ :=
  { d with
    rb := d.rb.commitPromoteSealed
    hc := fun i => (d.hc i).primeAfter d.corr.targetTick
    aux := { d.aux with forkCap := 0 } }

def commitHold : Driver σ :=
  match d.rb.enterTipHold with
  | some rb => { d with rb,aux := { d.aux with peerCommitMask := ∅ } }.stageSet v .tipHold
  | none => { d with rb := d.rb.onPostMatch }.episodeClear v

/-- `rb_commit_episode`. -/
def commitEpisode : Driver σ :=
  let held:=d.commitPromote.commitHold v
  let d:=held.note (.committed d.corr.epochId d.corr.targetTick d.rb.resolvedThrough
    held.rb.resolvedThrough)
  (d.sendSync .commit d.corr.epochId d.corr.mismatchTick d.corr.loadTick d.corr.targetTick
    d.corr.slot.toNat false false).send (.resolved d.rb.resolvedThrough)

def maxTipExtends : ℕ := 4

/-- `rb_tip_extend` once the core has grown its span. -/
def reopenSealing (newTarget tick slot : ℕ) (notifyPeer : Bool) : Driver σ :=
  let d:={ d with aux := { d.aux with tipExtends := d.aux.tipExtends+1 } }
  let d:=if notifyPeer then
      d.sendSync .begin d.corr.epochId tick d.corr.loadTick newTarget slot false true
    else d
  let d:={ d with
    corr := { d.corr with targetTick := newTarget }
    peerPost := fun _ => none
    localPostDigest := 0
    rb := d.rb.setPhase .sealInputs
    aux := { d.aux with peerCommitMask := ∅,localBase := none,peerBase := fun _ => none } }
  (d.sendLocalSealRows C).stageSet v .sealing

/-- `rb_tip_extend`. -/
def tipExtend (tick slot : ℕ) (notifyPeer : Bool) : Driver σ × Bool :=
  let newTarget:=max tick d.corr.targetTick
  if d.stage≠.tipHold ∧ d.stage≠.verifying then (d,false)
  else if notifyPeer ∧ d.aux.quiesce≠.off then (d,false)
  else if maxTipExtends≤d.aux.tipExtends then (d,false)
  else if C.host.snapHas d.corr.loadTick d.host=false then (d,false)
  else
    let covered:=localRowsCover C v d.ih d.corr.loadTick newTarget
    let d:={ d with ih := covered.2 }
    if covered.1=false then (d,false)
    else
      match d.rb.extendTarget (getInputRow C v) newTarget d.ih with
      | none => (d,false)
      | some (rb,ih) =>
        ({ d with rb,ih }.reopenSealing C v newTarget tick slot notifyPeer,true)

/-- `RNET_RB_EPOCH_SLOT_BITS`: an epoch is `(sequence << 3) | initiator seat`. -/
def epochMake (seq initiator : ℕ) : ℕ := seq*8+initiator%8

variable (epoch : ℕ)
/-- `rnet_rb_epoch_initiator`. -/
def epochInitiator : ℕ := epoch%8
def epochSeq : ℕ := epoch/8

/-- `rb_epoch_is_early`. -/
def epochIsEarly : Bool :=
  if epochInitiator epoch=localSlot C then false
  else if d.stage≠.idle ∧ epoch=d.corr.epochId then false
  else if d.defer.any (·.epoch=epoch) then true
  else d.aux.beginSeenSeq (epochInitiator epoch)<epochSeq epoch

def earlySealMax : ℕ := 16

/-- `rb_early_seal_hold`. -/
def earlySealHold (chunk : SealChunk) : Driver σ :=
  let kept:=if earlySealMax≤d.aux.earlySeal.length then d.aux.earlySeal.tail
    else d.aux.earlySeal
  { d with aux := { d.aux with
    earlySeal := kept++[{ chunk with rows := chunk.rows.take sealRowsChunkMax }] } }

/-- `rnet_rb_apply_peer_seal_rows` for the open episode. -/
def takeSealRows (d : Driver σ) (m : SealChunk) : Driver σ :=
  let d:=d.note (.sealTaken m.target d.corr.targetTick)
  match d.rb.applyPeerSealRows (getInputRow C v) m.epoch m.base m.target m.slot m.rowBegin m.rows
      d.ih with
  | none => d
  | some (rb,ih) => { d with rb,ih }

/-- `rb_early_seal_take`. -/
def earlySealTake : Driver σ :=
  let d:=(d.aux.earlySeal.filter (·.epoch=d.corr.epochId)).foldl (takeSealRows C v) d
  { d with aux := { d.aux with
    earlySeal := d.aux.earlySeal.filter fun m =>
      m.epoch≠d.corr.epochId ∧ d.epochIsEarly C m.epoch=true } }

def earlyPostTake : Driver σ :=
  { d with
    peerPost := fun i =>
      match d.earlyPost i with
      | some e => if e.epoch=d.corr.epochId then some ⟨e.target,e.digest⟩ else d.peerPost i
      | none => d.peerPost i
    earlyPost := fun i => (d.earlyPost i).filter fun e =>
      e.epoch≠d.corr.epochId ∧ d.epochIsEarly C e.epoch=true }

def earlyBaseTake : Driver σ :=
  { d with aux := { d.aux with
    peerBase := fun i =>
      match d.aux.earlyBase i with
      | some e =>
        if e.epoch=d.corr.epochId ∧ e.load=d.corr.loadTick then some e.digest
        else d.aux.peerBase i
      | none => d.aux.peerBase i
    earlyBase := fun i => (d.aux.earlyBase i).filter fun e =>
      e.epoch≠d.corr.epochId ∧ d.epochIsEarly C e.epoch=true } }

/-- `rb_cooldown_active`. -/
def cooldownActive : Bool := d.aux.cooldownUntilTick != 0 && d.sim<d.aux.cooldownUntilTick

/-- `RB_NACKED`. -/
def nackedMax : ℕ := 16

/-- `rb_nack_begin`. -/
def nackBegin (epoch mismatch load frontier slot : ℕ) : Driver σ :=
  let n : Nacked := ⟨epoch,mismatch,load,frontier,slot⟩
  { d with aux := { d.aux with nacked := (n::d.aux.nacked).take nackedMax } }.sendSync
    .nack epoch mismatch load frontier slot false false

/-- `rb_send_nack`. -/
def sendNack (epoch mismatch load slot : ℕ) : Driver σ :=
  d.nackBegin epoch mismatch load d.rb.resolvedThrough slot

/-- `RB_BEGIN_SEEN`. -/
def beginSeenMax : ℕ := 32

/-- `rb_begin_repeat`. -/
def beginRepeat : Driver σ × Bool :=
  if epoch∈d.aux.beginSeen then
    ((d.aux.nacked.filter (·.epoch=epoch)).foldl (fun d n =>
      d.sendSync .nack epoch n.mismatch n.load n.frontier n.slot false false) d,true)
  else
    ({ d with aux := { d.aux with
      beginSeen := (epoch::d.aux.beginSeen).take beginSeenMax } },false)

def enterSealing (mismatch slot : ℕ) (asInitiator : Bool) : Driver σ :=
  let d:=if asInitiator then
      d.sendSync .begin d.corr.epochId mismatch d.corr.loadTick d.corr.targetTick slot
        d.corr.lightTip false
    else d
  let d:={ d with aux := { d.aux with beginResendMs := v.now,answeredMask := ∅ } }.sendLocalSealRows C
  let d:={ d with
    peerPost := fun _ => none
    aux := { d.aux with
      initiator := asInitiator
      tipExtends := 0
      peerCommitMask := ∅
      peerBase := fun _ => none } }.stageSet v .sealing
  d.note (.opened d.corr.epochId d.corr.loadTick d.corr.targetTick)

/-- The common tail of `rb_begin_episode`: a span past the seal mask is refused,
and so is one the core would not seal. -/
def openEpisode (corr : RbCorrection) : Driver σ × Bool :=
  if sealMaskBits ≤ corr.targetTick-corr.loadTick then (d,false)
  else
    let d:={ d with corr }
    let core:=(d.rb.beginEpisode corr).sealInputs (getInputRow C v) corr.loadTick
      corr.targetTick d.ih
    let d:={ d with rb := core.1,ih := core.2 }
    if d.rb.inputsSealed=false then (d.episodeClear v,false)
    else
      let d:=d.enterSealing C v corr.mismatchTick corr.slot.toNat corr.initiator
      if corr.initiator then (d,true)
      else (((d.earlyPostTake C).earlyBaseTake C).earlySealTake C v,true)

def simTip : ℕ := d.sim-1

/-- `rb_begin_episode` as initiator. -/
def beginInitiator (mismatch slot : ℕ) : Driver σ × Bool :=
  if d.stage≠.idle then (d,false)
  else if d.cooldownActive then (d,false)
  else if d.aux.quiesce≠.off then (d,false)
  else if mismatch=0 then (d,false)
  else
    match d.snapFloor C mismatch with
    | (d,none) => (d,false)
    | (d,some load) =>
      let target:=max (min (d.rb.suggestTarget mismatch d.simTip) d.simTip) mismatch
      -- a span that is refused below takes no epoch number
      if sealMaskBits≤target-load then (d,false)
      else { d with aux := { d.aux with epochSeq := d.aux.epochSeq+1 } }.openEpisode C v
        { epochId := epochMake (d.aux.epochSeq+1) (localSlot C)
          mismatchTick := mismatch
          loadTick := load
          targetTick := target
          slot := slot
          initiator := true
          fromPeerNotify := false
          lightTip := RbSession.isLightTipCandidate load target d.rb.resolvedThrough
            d.rb.cfg.lightTipMaxDepth }

def snapAtTip (load : ℕ) : Driver σ :=
  if C.host.snapHas load d.host=false ∧ load=d.sim ∧ d.aux.inResim=false then
    { d with host := (C.host.snapSave load d.host).2 }
  else d

/-- `rb_begin_episode` as follower, once the load snapshot is held. -/
def followHeld (epoch mismatch load target slot : ℕ) (lightTip : Bool) : Driver σ × Bool :=
  match d.owedFirst.filter (·.1<load) with
  | some (t,_) => (d.nackBegin epoch mismatch load (t-1) slot,false)
  | none =>
    let covered:=localRowsCover C v d.ih load (max target mismatch)
    let d:={ d with ih := covered.2 }
    if covered.1=false then (d.sendNack epoch mismatch load slot,false)
    else d.openEpisode C v ⟨epoch,mismatch,load,max target mismatch,slot,false,true,lightTip⟩

/-- `rb_begin_episode` as follower. -/
def beginFollower (epoch mismatch load target slot : ℕ) (lightTip : Bool) : Driver σ × Bool :=
  if d.stage≠.idle then (d,false)
  else if mismatch=0 then (d,false)
  else
    let d:=d.snapAtTip C load
    if C.host.snapHas load d.host=false then (d.sendNack epoch mismatch load slot,false)
    else d.followHeld C v epoch mismatch load target slot lightTip

/-- `rb_follow_or_defer`. -/
def followOrDefer (epoch mismatch load target slot : ℕ) (lightTip : Bool) : Driver σ :=
  if d.sim<load ∧ mismatch≠0 ∧ d.stage=.idle then
    if d.defer.any (·.epoch=epoch) then d
    else { d with defer := some ⟨epoch,mismatch,load,target,slot,lightTip,v.now⟩ }
  else (d.beginFollower C v epoch mismatch load target slot lightTip).1

/-- `rb_defer_pump`. -/
def deferPump : Driver σ :=
  match d.defer with
  | none => d
  | some b =>
    if d.stage≠.idle then d
    else if b.load≤d.sim then
      ({ d with defer := none }.beginFollower C v b.epoch b.mismatch b.load b.target b.slot
        b.lightTip).1
    else if C.knobs.sealTimeoutMs/2<v.now-b.sinceMs then
      { d with defer := none }.sendNack b.epoch b.mismatch b.load b.slot
    else d

end Driver
end RecompNet.RbDriver
