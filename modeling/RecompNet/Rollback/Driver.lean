import Mathlib.Data.Finset.Card
import RecompNet.Rollback.Core
import RecompNet.Rollback.HashConfirm

/-!
# The rollback episode driver: state, host and wire

The types of `rnet_rb_driver.c`: what an engine supplies (`RNetRbHost`), what is fixed for a match
(configuration and environment knobs), the messages, the driver record, and the helpers every part
of the driver uses.
-/
namespace RecompNet.RbDriver

/-- `RbEpisodeStage`. -/
inductive Stage
  | idle
  | sealing
  | replaying
  | verifying
  | tipHold
  deriving DecidableEq

/-- `RNetRbAdmit`. -/
inductive Admit
  | stall
  | live
  | replay
  deriving DecidableEq

/-- `RNetRbReplayMode`. -/
inductive ReplayMode
  | inline
  | incremental
  deriving DecidableEq

/-- `RNetRbQuiesce`. -/
inductive Quiesce
  | off
  | draining
  | drained
  | timedOut
  deriving DecidableEq

/-- `RNET_RB_ABORT_CLASS_*`. -/
inductive AbortClass
  | realign
  | abort
  | storm
  | noSnap
  deriving DecidableEq

def AbortClass.code : AbortClass → ℕ
  | .realign => 0
  | .abort => 1
  | .storm => 2
  | .noSnap => 3

inductive Refusal
  | bootDigestTimeout
  | bootDigestMismatch
  | modSetNotAgreed
  | modSetMismatch
  deriving DecidableEq

/-- `RNetRbDigestParts`. -/
structure DigestParts where
  master : ℕ
  part0 : ℕ
  part1 : ℕ
  part2 : ℕ
  deriving DecidableEq

/-- `RNET_RB_SYNC_OP_*` as the driver switches on it. -/
inductive SyncOp
  | nack
  | begin
  | abort
  | commit
  | ident
  | quiesce
  | frameCommitRequest
  | other
  deriving DecidableEq

/-- An RB_SYNC datagram; `a`, `b`, `c` are its mismatch, load and target fields. -/
structure RbSync where
  epoch : ℕ
  a : ℕ
  b : ℕ
  c : ℕ
  slot : ℕ
  op : SyncOp
  lightTip : Bool
  rereplay : Bool
  deriving DecidableEq

structure SealChunk where
  epoch : ℕ
  base : ℕ
  target : ℕ
  slot : ℕ
  rowBegin : ℕ
  rows : List RbFrame
  deriving DecidableEq

inductive RbMsg
  | sync (m : RbSync)
  | sealRows (m : SealChunk)
  | baseline (epoch load : ℕ) (digest : DigestParts)
  | post (epoch target master : ℕ)
  | resolved (tick : ℕ)
  | frameCommit (tick digest : ℕ)
  | modset (text : String)
  | modsetAck (ok : Bool)
  deriving DecidableEq

/-- A message with the wire seat of its sender. -/
structure RbPacket where
  sender : ℕ
  msg : RbMsg
  deriving DecidableEq

/-- What happened, newest first in a driver's `log`. -/
inductive Event
  | sent (m : RbMsg)
  | received (p : RbPacket)
  | admitted (tick : ℕ)
  | loaded (tick : ℕ)
  | restored (tick : ℕ)
  | ran (tick : ℕ)
  | replayed (load target : ℕ)
  | verified (epoch target digest : ℕ)
  | committed (epoch target before after : ℕ)
  | opened (epoch load target : ℕ)
  | sealTaken (target ours : ℕ)
  | marked (tick slot : ℕ)
  | lost (tick : ℕ)
  | bootSettled
  | refused (code : Refusal)
  deriving DecidableEq

/-- `RNetRbHost`. -/
structure RbHost (σ : Type) where
  snapSave : ℕ → σ → Bool × σ
  snapLoad : ℕ → σ → Bool × σ
  snapHas : ℕ → σ → Bool
  snapOldest : σ → Option ℕ
  snapDropAfter : ℕ → σ → σ
  publish : ℕ → List RbFrame → Bool → σ → σ
  runTick : ℕ → σ → Bool × σ
  resimBegin : σ → σ
  resimEnd : σ → σ
  digestMaster : σ → ℕ
  digestParts : σ → DigestParts
  decodeSample : ℕ → InputSample → RbFrame → RbFrame
  sanitizeRow : ℕ → RbFrame → RbFrame
  neutralRow : ℕ → RbFrame → RbFrame
  admitSample : ℕ → ℕ → InputSample → σ → σ
  bootDigestNoted : σ → σ
  requestReturnToLobby : σ → σ

/-- `RNetRbDriverConfig`, with the live pointers read as constants. -/
structure DriverConfig where
  localSlot : ℕ
  slotCount : ℕ
  inputDelay : ℕ
  occupiedMask : ℕ
  replayMode : ReplayMode
  injectFlipBits : ℕ
  deriving DecidableEq

structure Knobs where
  snapInterval : ℕ
  sealTimeoutMs : ℕ
  lockstepTicks : ℕ
  lockstep : Bool
  tipRunway : ℕ
  forceForkEvery : ℕ
  forceMispredictEvery : ℕ
  forceBootFork : Bool
  forceModMismatch : Bool
  forceModset : Option String
  allowBootFork : Bool
  allowModMismatch : Bool
  zeroDelay : Bool

/-- The values `rb_env_int` falls back to. -/
def Knobs.defaults : Knobs where
  snapInterval := 1
  sealTimeoutMs := 2000
  lockstepTicks := 60
  lockstep := false
  tipRunway := 12
  forceForkEvery := 0
  forceMispredictEvery := 0
  forceBootFork := false
  forceModMismatch := false
  forceModset := none
  allowBootFork := false
  allowModMismatch := false
  zeroDelay := false

/-- `rnet_rb_driver_set_modset`: our set, and why a host's set cannot be honoured. -/
structure ModSet where
  text : String
  check : String → Option String

/-- Everything fixed between two starts. -/
structure Setup (σ : Type) where
  cfg : DriverConfig
  knobs : Knobs
  host : RbHost σ
  buildFp : ℕ
  contentFp : ℕ
  modset : Option ModSet

variable {σ : Type} (C : Setup σ)
/-- `rb_slot_count`. -/
def slotCount : ℕ := min (max C.cfg.slotCount 1) maxSlots
/-- `rb_local_slot`. -/
def localSlot : ℕ := if C.cfg.localSlot ≤ maxSlots then C.cfg.localSlot else 0
/-- `rb_is_observer`. -/
def isObserver : Bool := slotCount C≤localSlot C

/-- `rb_expect_mask`. -/
def expect : Finset ℕ := expectedSeats (slotCount C) C.cfg.occupiedMask (localSlot C)

/-- `rb_bit_slot(rb_expect_mask)`: the lowest expected seat. -/
def firstSeat : Option ℕ := (List.range maxSlots).find? (·∈expect C)

/-- `rb_from_bit`. -/
def fromBit (sender : ℕ) : Option ℕ :=
  if (expect C).card=1 then firstSeat C
  else if sender∈expect C then some sender else none

def wireForSim (tick : ℕ) : ℕ :=
  if C.knobs.zeroDelay then wireTickFromSim tick (min C.cfg.inputDelay 255) else tick
def lockstepPinned : Bool := C.knobs.lockstep || isObserver C

/-- The session's filter in front of the queues: RB_SYNC, BASELINE and POST only
from the one peer when there is one (`rnet_session_set_rb_peer_slot`); the
other kinds from anybody but ourselves. -/
def sessionAccepts (p : RbPacket) : Bool := p.sender != localSlot C &&
    match p.msg with
    | .sync _ => (expect C).card != 1 || p.sender∈expect C
    | .baseline .. => (expect C).card != 1 || p.sender∈expect C
    | .post .. => (expect C).card != 1 || p.sender∈expect C
    | _ => true

structure PeerPost where
  target : ℕ
  digest : ℕ
  deriving DecidableEq

structure EarlyPost where
  epoch : ℕ
  target : ℕ
  digest : ℕ
  deriving DecidableEq

structure EarlyBase where
  epoch : ℕ
  load : ℕ
  digest : DigestParts
  deriving DecidableEq

/-- A BEGIN held until the sim reaches its load tick (`defer_*`). -/
structure Deferred where
  epoch : ℕ
  mismatch : ℕ
  load : ℕ
  target : ℕ
  slot : ℕ
  lightTip : Bool
  sinceMs : ℕ
  deriving DecidableEq

structure Nacked where
  epoch : ℕ
  mismatch : ℕ
  load : ℕ
  frontier : ℕ
  slot : ℕ
  deriving DecidableEq

structure BootGate where
  own : Option ℕ
  peer : ℕ → Option ℕ
  settled : Bool

structure Aux where
  initiator : Bool
  epochSeq : ℕ
  peerCommitMask : Finset ℕ
  localBase : Option DigestParts
  peerBase : ℕ → Option DigestParts
  cooldownUntilTick : ℕ
  stageEnteredMs : ℕ
  inResim : Bool
  forkCap : ℕ
  tipExtends : ℕ
  postSentMs : ℕ
  postResendMs : ℕ
  beginResendMs : ℕ
  frameCommitRequestMs : ℕ
  answeredMask : Finset ℕ
  beginSeen : List ℕ
  nacked : List Nacked
  rttEmaMs : ℕ
  peerIdent : ℕ → Option (ℕ × ℕ)
  identSent : Bool
  identOwed : Bool
  identSentMs : ℕ
  modsetSettled : Bool
  modsetOk : Bool
  modsetSent : Bool
  modsetAckMask : Finset ℕ
  modsetSinceMs : ℕ
  chainForkTick : ℕ → ℕ
  chainPendingTick : ℕ → ℕ
  chainPendingMs : ℕ → ℕ
  bootHoldSinceMs : ℕ
  lockstepUntil : ℕ
  owedRetryAfter : ℕ
  tipTick : ℕ
  forceForkN : ℕ
  forceMispredictN : ℕ
  forceMispredictRow : ℕ → ℕ
  forceInventSlot : Option ℕ
  earlyBase : ℕ → Option EarlyBase
  beginSeenSeq : ℕ → ℕ
  earlySeal : List SealChunk
  replayDig : ℕ → Option ℕ
  quiesce : Quiesce
  quiesceReqMs : ℕ
  quiesceSentMs : ℕ
  quiesceAllMs : ℕ
  peerQuiesceMask : Finset ℕ
  peerQuiesceAckMask : Finset ℕ

/-- `struct RNetRbDriver` of a started driver, with the engine it drives. -/
structure Driver (σ : Type) where
  host : σ
  rb : RbSession
  ih : InputHist
  hc : ℕ → HashConfirm
  sim : ℕ
  stage : Stage
  corr : RbCorrection
  localPostDigest : ℕ
  peerPost : ℕ → Option PeerPost
  earlyPost : ℕ → Option EarlyPost
  replayNext : ℕ
  pendingAdmit : Admit
  rewound : Bool
  boot : BootGate
  refusal : Option Refusal
  owed : TickRing histDepth ℕ
  defer : Option Deferred
  holdActive : Bool
  holdAt : ℕ
  aux : Aux
  log : List Event

/-- What the session shows during one call: the clock and our published inputs. -/
structure View where
  now : ℕ
  localRow : ℕ → Option InputSample

/-- `rb_row_from_sample`. -/
def rowFromSample (slot tick : ℕ) (sample : InputSample) : RbFrame :=
  { C.host.decodeSample slot sample { RbFrame.zero with tick,isValid := true } with
    tick
    isValid := true
    isPredicted := false }

/-- `rb_row_neutral`. -/
def rowNeutral (slot tick : ℕ) : RbFrame :=
  { C.host.neutralRow slot RbFrame.zero with tick,isValid := true,isPredicted := false }
/-- `rb_rows_equal`. -/
def rowsEqual (a b : RbFrame) : Bool :=
  a.buttons == b.buttons && a.stickX == b.stickX && a.stickY == b.stickY
def emptySeat (slot : ℕ) : Bool :=
  slot != localSlot C && C.cfg.occupiedMask != 0 && !C.cfg.occupiedMask.testBit slot

/-- `rb_vt_get_input_row`. -/
def getInputRow (v : View) : GetInputRow InputHist := fun slot tick ih =>
  if slotCount C ≤ slot then (none,ih)
  else if emptySeat C slot then
    (some (C.host.sanitizeRow slot (rowFromSample C slot tick (neutralSample (wireForSim C tick)))),
      ih)
  else
    match ih.get slot tick with
    | some row => (some (C.host.sanitizeRow slot row),ih)
    | none =>
      if slot≠localSlot C then (none,ih)
      else
        match (v.localRow (wireForSim C tick)).filter (·.valid) with
        | none => (none,ih)
        | some sample =>
          (some (C.host.sanitizeRow slot (rowFromSample C slot tick sample)),
            ih.put slot (rowFromSample C slot tick sample))

/-- The loop of `rb_local_rows_cover` over the given ticks. -/
def coverTicks (v : View) (ih : InputHist) : List ℕ → Bool × InputHist
  | [] => (true,ih)
  | t::ts =>
    match getInputRow C v (localSlot C) t ih with
    | (none,ih) => (false,ih)
    | (some _,ih) => coverTicks v ih ts

def ticks (first last : ℕ) : List ℕ := List.range' first (last+1-first)

theorem mem_ticks {first last t : ℕ} : t∈ticks first last ↔ first≤t ∧ t≤last := by
  unfold ticks
  rw [List.mem_range'_1]
  omega

/-- `rb_local_rows_cover`. -/
def localRowsCover (v : View) (ih : InputHist) (load target : ℕ) : Bool × InputHist :=
  if isObserver C ∨ target<load then (true,ih) else coverTicks C v ih (ticks load target)

namespace Driver
variable (d : Driver σ)
def note (e : Event) : Driver σ := { d with log := e::d.log }
def send (m : RbMsg) : Driver σ := d.note (.sent m)

/-- `rnet_session_send_rb_sync`. -/
def sendSync (op : SyncOp) (epoch a b c slot : ℕ) (lightTip rereplay : Bool) : Driver σ :=
  d.send (.sync ⟨epoch,a,b,c,slot,op,lightTip,rereplay⟩)
/-- `rb_owed_mark`. -/
def owedMark (tick slot : ℕ) : Driver σ :=
  { d with owed := d.owed.store tick slot,log := .marked tick slot::d.log }

variable (r : TickRing histDepth ℕ)

/-- One tick of `rb_owed_clear_span`. -/
def owedClear (tick : ℕ) : TickRing histDepth ℕ :=
  if r.has tick then r.clear tick else r
/-- `rb_owed_clear_span`. -/
def owedClearSpan (load target : ℕ) : TickRing histDepth ℕ :=
  if target<load ∨ histDepth≤target-load then r else (ticks load target).foldl owedClear r
def windowFrom : ℕ := d.sim-histDepth

/-- `rb_owed_first`. -/
def owedFirst : Option (ℕ × ℕ) := (List.range' d.windowFrom (d.sim-d.windowFrom)).findSome? fun t =>
    (d.owed.get? t).map fun slot => (t,slot)

def owedLose (tick : ℕ) : Driver σ :=
  { d with owed := owedClearSpan d.owed tick tick,log := .lost tick::d.log }

end Driver
end RecompNet.RbDriver
