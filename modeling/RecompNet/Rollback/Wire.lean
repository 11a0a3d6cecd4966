import RecompNet.Rollback.Episode

/-!
# The episode driver: wire ingress

`rb_drain_wire` and its handlers.
-/
namespace RecompNet.RbDriver
open Function
variable {σ : Type} (C : Setup σ) (v : View)
def claimedContentFp : ℕ :=
  if C.knobs.forceModMismatch then C.contentFp ^^^ 0x5a5a5a5a else C.contentFp

namespace Driver
variable (d : Driver σ) (sender : ℕ)

/-- `RNET_RB_SYNC_OP_FRAME_COMMIT_REQUEST`: tick 0 is answered from the boot latch. -/
def onFrameCommitRequest (m : RbSync) : Driver σ :=
  if m.slot=localSlot C ∧ (fromBit C sender).isSome ∧ m.a<d.sim then
    match (if m.a=0 then d.boot.own else none).or
        ((firstSeat C).bind fun i => (d.hc i).localDigest m.a) with
    | some digest => d.send (.frameCommit m.a digest)
    | none => d
  else d

variable (m : RbSync)
def onRereplay : Driver σ :=
  if (d.stage=.tipHold ∨ d.stage=.verifying) ∧ m.epoch=d.corr.epochId then
    match d.tipExtend C v m.c m.slot false with
    | (d,true) => d
    | (d,false) => d.episodeAbort C v .realign
  else
    match d.defer.filter (·.epoch=m.epoch) with
    | some b => if b.target < m.c then { d with defer := some { b with target := m.c } } else d
    | none => d.sendSync .nack m.epoch m.a m.b d.rb.resolvedThrough m.slot false false

def noteBeginSeq : Driver σ × Bool :=
  let init:=epochInitiator m.epoch
  let seq:=epochSeq m.epoch
  if d.aux.beginSeenSeq init<seq then
    ({ d with aux := { d.aux with beginSeenSeq := update d.aux.beginSeenSeq init seq } },
      true)
  else if seq<d.aux.beginSeenSeq init then
    (d.nackBegin m.epoch m.a m.b d.rb.resolvedThrough m.slot,false)
  else (d,true)

def arbitrateOpen : Driver σ × Bool :=
  if d.stage=.idle then (d,true)
  else if epochInitiator m.epoch<epochInitiator d.corr.epochId ∨
      (d.aux.initiator=false ∧ epochInitiator m.epoch=epochInitiator d.corr.epochId ∧
        epochSeq d.corr.epochId<epochSeq m.epoch) then (d.episodeClear v,true)
  else (d.nackBegin m.epoch m.a m.b d.rb.resolvedThrough m.slot,false)

def arbitrateDeferred : Driver σ × Bool :=
  match d.defer with
  | none => (d,true)
  | some b =>
    if m.epoch=b.epoch then (d,false)
    else if epochInitiator m.epoch<epochInitiator b.epoch ∨
        (epochInitiator m.epoch=epochInitiator b.epoch ∧ epochSeq b.epoch<epochSeq m.epoch) then
      ({ d.sendNack b.epoch b.mismatch b.load b.slot with defer := none },true)
    else (d.nackBegin m.epoch m.a m.b d.rb.resolvedThrough m.slot,false)

def onNewBegin : Driver σ :=
  match d.noteBeginSeq m with
  | (d,false) => d
  | (d,true) =>
    match d.arbitrateOpen v m with
    | (d,false) => d
    | (d,true) =>
      match d.arbitrateDeferred m with
      | (d,false) => d
      | (d,true) => d.followOrDefer C v m.epoch m.a m.b m.c m.slot m.lightTip

/-- `RNET_RB_SYNC_OP_BEGIN`. -/
def onBegin : Driver σ :=
  if isObserver C then d
  else if m.rereplay then d.onRereplay C v m
  else
    match d.beginRepeat m.epoch with
    | (d,true) => d
    | (d,false) => d.onNewBegin C v m

/-- `RNET_RB_SYNC_OP_NACK`: demote to the frontier the peer names, then abort. -/
def onNack : Driver σ :=
  if d.stage≠.idle ∧ m.epoch=d.corr.epochId then
    { d with rb := d.rb.demoteResolvedThrough m.c }.episodeAbort C v .realign
  else d

/-- `RNET_RB_SYNC_OP_ABORT`. -/
def onAbort : Driver σ :=
  if d.defer.any (·.epoch=m.epoch) then { d with defer := none }
  else if d.stage≠.idle ∧ m.epoch=d.corr.epochId then
    let d:=d.episodeClear v
    { d with aux := { d.aux with cooldownUntilTick :=
      d.sim+if m.a=AbortClass.realign.code then 0 else cooldownTicks } }
  else d

def judgeIdent (seat : ℕ) (m : RbSync) : Driver σ :=
  let d:={ d with aux := { d.aux with
    peerIdent := update d.aux.peerIdent seat (some (m.a,m.b)) } }
  if (C.buildFp=0 ∧ C.contentFp=0) ∨ m.b=claimedContentFp C ∨ C.knobs.allowModMismatch
  then d
  else d.refuse C .modSetMismatch

/-- `RNET_RB_SYNC_OP_IDENT`. -/
def onIdent (m : RbSync) : Driver σ :=
  match fromBit C sender with
  | none => d
  | some seat =>
    let d:=if m.c.testBit (localSlot C) then d
      else { d with aux := { d.aux with identOwed := true } }
    if d.aux.peerIdent seat=some (m.a,m.b) then d else d.judgeIdent C seat m

/-- `RNET_RB_SYNC_OP_COMMIT`: tip-hold ends when every peer has committed. -/
def onCommit (m : RbSync) : Driver σ :=
  if d.stage=.tipHold ∧ m.epoch=d.corr.epochId then
    let d:={ d with aux := { d.aux with
      peerCommitMask := d.aux.peerCommitMask ∪ (fromBit C sender).elim ∅ ({·}) } }
    if expect C ⊆ d.aux.peerCommitMask then d.episodeClear v else d
  else d

def requestQuiesce : Driver σ :=
  if d.aux.quiesce≠.off then d
  else { d with aux := { d.aux with
    quiesce := .draining,quiesceReqMs := v.now,forceInventSlot := none } }

/-- `RNET_RB_SYNC_OP_QUIESCE`: a draining peer makes us drain too. -/
def onQuiesce (m : RbSync) : Driver σ :=
  match fromBit C sender with
  | none => d
  | some seat =>
    { d with aux := { d.aux with
      peerQuiesceMask := insert seat d.aux.peerQuiesceMask
      peerQuiesceAckMask := if m.a≠0 then insert seat d.aux.peerQuiesceAckMask
        else d.aux.peerQuiesceAckMask } }.requestQuiesce v

/-- The switch of `rb_drain_wire`. -/
def onSync (m : RbSync) : Driver σ :=
  match m.op with
  | .frameCommitRequest => d.onFrameCommitRequest C sender m
  | .begin => d.onBegin C v m
  | .nack => d.onNack C v m
  | .abort => d.onAbort v m
  | .ident => d.onIdent C sender m
  | .commit => d.onCommit C v sender m
  | .quiesce => d.onQuiesce C v sender m
  | .other => d

def noteAnswer : Driver σ :=
  { d with aux := { d.aux with
    answeredMask := d.aux.answeredMask ∪ (fromBit C sender).elim ∅ ({·}) } }

def onSealRows (m : SealChunk) : Driver σ :=
  let m:={ m with rows := m.rows.map (C.host.sanitizeRow m.slot) }
  if m.rows=[] then d
  else if d.stage=.idle ∨ m.epoch≠d.corr.epochId then
    if d.epochIsEarly C m.epoch then d.earlySealHold m else d
  else (d.takeSealRows C v m).noteAnswer C sender

def onPeerBaseline (sender epoch load : ℕ) (digest : DigestParts) : Driver σ :=
  match fromBit C sender with
  | none => d
  | some i =>
    if d.epochIsEarly C epoch then
      { d with aux := { d.aux with
        earlyBase := update d.aux.earlyBase i (some ⟨epoch,load,digest⟩) } }
    else if d.stage=.idle ∨ epoch≠d.corr.epochId ∨ load≠d.corr.loadTick then d
    else ({ d with aux := { d.aux with
      peerBase := update d.aux.peerBase i (some digest) } }.noteAnswer C
        sender).baselineTryCompare C v

def samplePostRtt : Driver σ :=
  if d.stage=.verifying ∧ d.aux.postSentMs≠0 then
    let sample:=v.now-d.aux.postSentMs
    { d with aux := { d.aux with
      postSentMs := 0
      rttEmaMs := if 1000<sample then d.aux.rttEmaMs
        else if d.aux.rttEmaMs=0 then sample else (3*d.aux.rttEmaMs+sample)/4 } }
  else d

def onPeerPost (sender epoch target master : ℕ) : Driver σ :=
  match fromBit C sender with
  | none => d
  | some i =>
    if d.epochIsEarly C epoch then
      { d with earlyPost := update d.earlyPost i (some ⟨epoch,target,master⟩) }
    else if d.stage=.idle ∨ epoch≠d.corr.epochId then d
    else
      let d:=(d.samplePostRtt v).noteAnswer C sender
      { d with peerPost := update d.peerPost i (some ⟨target,master⟩) }

def onFrameCommit (sender tick digest : ℕ) : Driver σ :=
  match fromBit C sender with
  | none => d
  | some i => { d with hc := update d.hc i ((d.hc i).notePeer tick digest) }

def handle (d : Driver σ) (p : RbPacket) : Driver σ :=
  let d:=d.note (.received p)
  match p.msg with
  | .sync m => d.onSync C v p.sender m
  | .sealRows m => d.onSealRows C v p.sender m
  | .baseline epoch load digest => d.onPeerBaseline C v p.sender epoch load digest
  | .post epoch target master => d.onPeerPost C v p.sender epoch target master
  | .resolved tick => { d with rb := d.rb.setPeerConvergence tick }
  | .frameCommit tick digest => d.onFrameCommit C p.sender tick digest
  | .modset _ => d
  | .modsetAck _ => d

end Driver

/-- The order in which `rb_drain_wire` empties the queues. -/
def RbMsg.drainRank : RbMsg → ℕ
  | .sync _ => 0
  | .sealRows _ => 1
  | .baseline .. => 2
  | .post .. => 3
  | .resolved _ => 4
  | .frameCommit .. => 5
  | .modset _ => 6
  | .modsetAck _ => 6

def drainOrder (inbox : List RbPacket) : List RbPacket := (List.range 6).flatMap fun k =>
    inbox.filter fun p => sessionAccepts C p && p.msg.drainRank == k

def Driver.drainWire (d : Driver σ) (inbox : List RbPacket) : Driver σ :=
  (drainOrder C inbox).foldl (Driver.handle C v) d

end RecompNet.RbDriver
