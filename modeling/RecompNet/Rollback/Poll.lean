import Mathlib.Algebra.GroupWithZero.Nat
import RecompNet.Rollback.Wire

/-!
# The episode driver: gates, pumps, live admit

`rnet_rb_driver_poll_admit`, `rnet_rb_driver_finish_frame` and everything they call.
-/
namespace RecompNet.RbDriver
variable {σ : Type} (C : Setup σ) (v : View)

inductive Miss
  | invent
  | grace
  | wait
  deriving DecidableEq

/-- What one `poll_admit` finds in the session, the scheduler and the clock. -/
structure PollInput extends View where
  running : Bool
  peerDisconnected : Bool
  inbox : List RbPacket
  modset : Option String
  modsetAcks : List (ℕ × Bool)
  localTip : ℕ → Option InputSample
  remoteRow : ℕ → ℕ → Option InputSample
  throttle : Bool
  miss : ℕ → Miss

/-- `rnet_session_peek_remote_input`: an empty seat reads as a valid zero sample. -/
def PollInput.peekRemote (env : PollInput) (slot wire : ℕ) : Option InputSample :=
  if emptySeat C slot then some (neutralSample wire) else (env.remoteRow slot wire).filter (·.valid)

namespace Driver
variable (d : Driver σ)

/-- `RB_BOOT_DIGEST_TIMEOUT_MS`, `RB_MODSET_TIMEOUT_MS`. -/
def handshakeTimeoutMs : ℕ := 4000

def bootLatchOwn : Driver σ :=
  match d.boot.own with
  | some _ => d
  | none =>
    match (firstSeat C).bind fun i => (d.hc i).localDigest 0 with
    | none => d
    | some digest =>
      { d with
        boot := { d.boot with own := some digest }
        host := C.host.bootDigestNoted d.host }

def bootLatchPeers : Driver σ :=
  { d with boot := { d.boot with
    peer := fun i =>
      if i∈expect C ∧ d.boot.peer i=none then (d.hc i).peerDigest 0 else d.boot.peer i } }

def bootSettle : Driver σ :=
  { d with boot := { d.boot with settled := true },log := .bootSettled::d.log }

def bootWait : Driver σ × Bool :=
  let since:=if d.aux.bootHoldSinceMs=0 then v.now else d.aux.bootHoldSinceMs
  let d:={ d with aux := { d.aux with bootHoldSinceMs := since } }
  if handshakeTimeoutMs<v.now-since then (d.bootSettle.refuse C .bootDigestTimeout,false)
  else (d,true)

def bootVerdict (own : ℕ) : Driver σ :=
  let d:=d.bootSettle
  if ∃ i∈expect C,d.boot.peer i≠some own then
    if C.knobs.allowBootFork then d else d.refuse C .bootDigestMismatch
  else d

/-- `rb_boot_digest_gate`. -/
def bootDigestGate : Driver σ × Bool :=
  if d.boot.settled then (d,false)
  else
    let d:=d.bootLatchOwn C
    match d.boot.own with
    | none => (d,true)
    | some own =>
      let d:=d.bootLatchPeers C
      if ∃ i∈expect C,d.boot.peer i=none then d.bootWait C v else (d.bootVerdict C own,false)

/-- `rb_gate_pre_admit_hold`. -/
def preAdmitHold : Driver σ × Bool :=
  if C.modset.isSome ∧ d.aux.modsetSettled=false ∧ d.stage=.idle then (d,true)
  else if d.sim=1 ∧ d.stage=.idle then
    match d.bootDigestGate C v with
    | (d,true) => (d,true)
    | (d,false) => (d,d.refusal.isSome)
  else (d,d.refusal.isSome)

/-- `rb_modset_fail`. -/
def modsetFail : Driver σ :=
  if d.aux.modsetSettled then d
  else
    let d:={ d with aux := { d.aux with
      modsetSettled := true,modsetOk := C.knobs.allowModMismatch } }
    if C.knobs.allowModMismatch then d else d.refuse C .modSetNotAgreed

def modsetTakeAcks : List (ℕ × Bool) → Driver σ → Driver σ
  | [],d => d
  | (sender,ok)::rest,d =>
    match fromBit C sender with
    | none => modsetTakeAcks rest d
    | some seat =>
      if ok then
        modsetTakeAcks rest { d with aux := { d.aux with
          modsetAckMask := insert seat d.aux.modsetAckMask } }
      else d.modsetFail C

/-- `RB_MODSET_TIMEOUT_MS` has passed without a settlement. -/
def modsetTimeout : Driver σ :=
  if d.aux.modsetSettled=false ∧ handshakeTimeoutMs<v.now-d.aux.modsetSinceMs then
    d.modsetFail C
  else d

/-- The host's side of `rb_modset_pump`: publish, then wait for every seat. -/
def modsetHost (set : ModSet) (acks : List (ℕ × Bool)) : Driver σ :=
  let d:=if d.aux.modsetSent=false ∨ d.sim%30=0 then
      { d with aux := { d.aux with modsetSent := true } }.send
        (.modset (C.knobs.forceModset.getD set.text))
    else d
  let d:=modsetTakeAcks C acks d
  if d.aux.modsetSettled then d
  else if expect C ⊆ d.aux.modsetAckMask then
    { d with aux := { d.aux with modsetSettled := true,modsetOk := true } }
  else d.modsetTimeout C v

def modsetGuest (set : ModSet) (text : Option String) : Driver σ :=
  match text with
  | none => d.modsetTimeout C v
  | some text =>
    let d:=d.send (.modsetAck (set.check text).isNone)
    if (set.check text).isNone then
      { d with aux := { d.aux with modsetSettled := true,modsetOk := true } }
    else d.modsetFail C

/-- `rb_modset_pump`. -/
def modsetPump (text : Option String) (acks : List (ℕ × Bool)) : Driver σ :=
  match C.modset with
  | none => d
  | some set =>
    if d.aux.modsetSettled then
      if localSlot C≠0 ∧ text.isSome then d.send (.modsetAck d.aux.modsetOk) else d
    else
      let since:=if d.aux.modsetSinceMs=0 then v.now else d.aux.modsetSinceMs
      let d:={ d with aux := { d.aux with modsetSinceMs := since } }
      if localSlot C=0 then d.modsetHost C v set acks else d.modsetGuest C v set text

def bitMask (s : Finset ℕ) : ℕ :=
  (List.range (maxSlots+1)).foldl (fun m i => if i∈s then m ||| 2^i else m) 0
def identSeats : Finset ℕ := (Finset.range maxSlots).filter fun i => (d.aux.peerIdent i).isSome=true

/-- `rb_send_identity`. -/
def sendIdentity : Driver σ :=
  if 90<d.sim ∨ (C.buildFp=0 ∧ C.contentFp=0) then d
  else if expect C ⊆ d.identSeats ∧ d.aux.identSent ∧ d.aux.identOwed=false then d
  else if d.aux.identSent ∧ v.now-d.aux.identSentMs<100 then d
  else
    { d with aux := { d.aux with
      identSent := true,identSentMs := v.now,identOwed := false } }.sendSync .ident 0 C.buildFp
      (claimedContentFp C) (bitMask (insert (localSlot C) d.identSeats)) (localSlot C) false false

/-- One seat of `rb_request_missing_frame_commits`: its chain waits on a peer digest. -/
def missingFrameCommit (i : ℕ) : Option ℕ :=
  let next:=(d.hc i).next
  if next < d.sim ∧ ((d.hc i).localDigest next).isSome ∧ (d.hc i).peerDigest next=none then
    some next
  else none

/-- `rb_request_missing_frame_commits`. -/
def requestMissingFrameCommits : Driver σ :=
  if d.stage≠.idle ∧ d.stage≠.tipHold then d
  else if v.now-d.aux.frameCommitRequestMs<50 then d
  else
    let asked:=(List.range maxSlots).filterMap fun i =>
      if i∈expect C then (d.missingFrameCommit i).map (i,·) else none
    if asked=[] then d
    else asked.foldl (fun d p => d.sendSync .frameCommitRequest 0 p.2 0 0 p.1 false false)
      { d with aux := { d.aux with frameCommitRequestMs := v.now } }

/-- `rb_stage_expired`. -/
def stageExpired : Bool := C.knobs.sealTimeoutMs<v.now-d.aux.stageEnteredMs

/-- The resend period: `RB_POST_RESEND_MIN_MS`, or a round trip when that is longer. -/
def resendEvery : ℕ := max d.aux.rttEmaMs 50

/-- `rb_begin_resend`. -/
def beginResend : Driver σ :=
  if d.aux.initiator=false ∨ expect C ⊆ d.aux.answeredMask ∨
      v.now-d.aux.beginResendMs<d.resendEvery then d
  else { d with aux := { d.aux with beginResendMs := v.now } }.sendSync .begin d.corr.epochId
    d.corr.mismatchTick d.corr.loadTick d.corr.targetTick d.corr.slot.toNat d.corr.lightTip false

/-- `rb_post_resend`. -/
def postResend : Driver σ :=
  if v.now-d.aux.postResendMs<d.resendEvery then d
  else { d with aux := { d.aux with postResendMs := v.now } }.send
    (.post d.corr.epochId d.corr.targetTick d.localPostDigest)

def pumpSealing : Driver σ :=
  if d.rb.allPeerSealRowsComplete then
    match { d with rb := d.rb.setPhase .awaitingBaseline }.runReplay C v with
    | (d,true) => d.enterVerify C v
    | (d,false) => d
  else if d.stageExpired C v then d.episodeAbort C v .abort
  else d.beginResend C v

/-- `rnet_rb_peer_post_tip_ok`: POSTs for an older tip are dropped. -/
def dropStalePosts : Driver σ :=
  { d with peerPost := fun i => (d.peerPost i).filter (·.target=d.corr.targetTick) }

def postsComplete : Bool := (List.range maxSlots).any (fun i => (d.peerPost i).isSome) &&
    decide (∀ i∈expect C,(d.peerPost i).isSome)

def judgePosts : Driver σ :=
  if ∀ i∈expect C,(d.peerPost i).map (·.digest)=some d.localPostDigest then d.commitEpisode v
  else ({ d with rb := d.rb.onPostDiverge }.enterLockstep C).episodeAbort C v .abort

def pumpVerifying : Driver σ :=
  let d:=d.dropStalePosts
  if d.postsComplete C then d.judgePosts C v
  else if d.stageExpired C v then d.episodeAbort C v .abort
  else (d.beginResend C v).postResend v

def pumpTipHold : Driver σ :=
  if d.corr.targetTick+d.rb.cfg.tipRunway<d.sim then d.episodeClear v
  else if d.stageExpired C v then d.episodeClear v
  else d.postResend v

/-- `rb_pump_episode`. -/
def pumpEpisode : Driver σ :=
  match d.stage with
  | .sealing => d.pumpSealing C v
  | .verifying => d.pumpVerifying C v
  | .tipHold => d.pumpTipHold C v
  | .idle => d
  | .replaying => d

def reconcileFrom : ℕ := max (d.rb.resolvedThrough+1) d.windowFrom

def reconcileCells : List (ℕ × ℕ) :=
  ((List.range (slotCount C)).filter (· ≠ localSlot C)).flatMap fun slot =>
    (List.range' d.reconcileFrom (d.sim-d.reconcileFrom)).map (slot,·)

def lateRow (env : PollInput) (slot t : ℕ) : Option (RbFrame × RbFrame) :=
  match (d.ih.get slot t).filter (·.isPredicted) with
  | none => none
  | some published =>
    (env.peekRemote C slot (wireForSim C t)).map fun sample =>
      (published,rowFromSample C slot t sample)

def mispredicted (published wire : RbFrame) : Bool := !rowsEqual wire published &&
    (RbSession.decideStickReplace published.toContract wire.toContract true).isRewind

def correct (t slot : ℕ) : Driver σ :=
  if d.stage=.idle then
    if d.cooldownActive ∨ d.defer.isSome then d else (d.beginInitiator C v t slot).1
  else if d.corr.loadTick≤t ∧ t≤d.corr.targetTick then d
  else if d.stage=.tipHold then (d.tipExtend C v t slot true).1
  else d

/-- The scan of `rb_reconcile_wire` over the cells it may still correct. -/
def reconcileScan (env : PollInput) : List (ℕ × ℕ) → Driver σ → Driver σ
  | [],d => d
  | (slot,t)::cells,d =>
    match d.lateRow C env slot t with
    | none => reconcileScan env cells d
    | some (published,wire) =>
      let d:={ d with ih := d.ih.promote slot wire }
      if mispredicted published wire then (d.owedMark t slot).correct C env.toView t slot
      else reconcileScan env cells d

/-- A debt of `rb_reconcile_wire` is tried again from the snapshot at or below its tick. -/
def owedRetry (t slot : ℕ) : Driver σ :=
  match d.snapFloor C t with
  | (d,none) => d.owedLose t
  | (d,some _) =>
    if t<d.sim ∧ sealMaskBits≤d.sim-1-t then d.owedLose t
    else
      match d.beginInitiator C v t slot with
      | (d,true) => d
      | (d,false) => { d with aux := { d.aux with owedRetryAfter := d.sim+cooldownTicks } }

/-- `rb_reconcile_wire`. -/
def reconcileWire (env : PollInput) : Driver σ :=
  match (if d.stage=.idle ∧ d.cooldownActive=false ∧ d.aux.owedRetryAfter≤d.sim ∧
      d.aux.quiesce=.off ∧ d.defer=none then d.owedFirst else none) with
  | some (t,slot) => d.owedRetry C env.toView t slot
  | none => d.reconcileScan C env (d.reconcileCells C)

end Driver
end RecompNet.RbDriver
