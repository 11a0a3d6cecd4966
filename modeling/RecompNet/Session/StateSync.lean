import Mathlib.Data.Finset.Basic
import RecompNet.Lib.LossyNet
import RecompNet.Protocol.Codec
import RecompNet.Session.Room

/-!
# The state plane of a session (`rnet_session.c`)

Chunked blob transfers (STATE_BEGIN / CHUNK / ACK) and hash probes (STATE_PROBE / REPLY / DONE).
-/
namespace RecompNet.StateSync

namespace Chunks
variable {α : Type*}

/-- The copy of a chunk into the buffer of the blob. -/
def write (buf : List α) (off : ℕ) (data : List α) : List α :=
  buf.take off++(data++buf.drop (off+data.length))
def piece (sz : ℕ) (blob : List α) (off : ℕ) : List α := (blob.drop off).take sz

theorem length_write {buf data : List α} {off : ℕ} (h : off+data.length≤buf.length) :
    (write buf off data).length=buf.length := by
  simp only [write,List.length_append,List.length_take,List.length_drop]
  omega

theorem piece_length (sz : ℕ) (blob : List α) (off : ℕ) :
    (piece sz blob off).length=min sz (blob.length-off) := by
  rw [piece,List.length_take,List.length_drop]

end Chunks
open Function

/-- `RNET_STATE_CHUNK_MAX`, `RNET_STATE_MAX`, `RNET_STATE_MAX_CHUNKS`. -/
def chunkMax : ℕ := 1120
def stateMax : ℕ := 8*1024*1024
def maxChunks : ℕ := (stateMax+chunkMax-1)/chunkMax

/-- RNET_STATE_OP_*; a peer may send any other byte. -/
inductive StateOp
  | save | load | sram | rbKf | boot | memcard | menu | other (code : ℕ)
  deriving DecidableEq,Repr

def StateOp.hosted : StateOp → Bool
  | .memcard | .other _ => false
  | _ => true

/-- A probe generation: what the host announces and every answer names. -/
structure ProbeKey where
  op : StateOp
  slot : ℕ
  size : ℕ
  crc : ℕ
  deriving DecidableEq

inductive Body
  | begin (op : StateOp) (slot xferId total crc : ℕ)
  | chunk (xferId offset : ℕ) (data : List UInt8)
  | ack (xferId ackBytes : ℕ)
  | probe (key : ProbeKey) (replied : Finset ℕ)
  | probeReply (key : ProbeKey) (matched : Bool)
  | probeDone (key : ProbeKey)
  deriving DecidableEq

structure Packet where
  localSlot : ℕ
  body : Body
  deriving DecidableEq

/-- RNetStateTx, while active; `total` is the length of `buf`. -/
structure Tx where
  ready : Bool
  op : StateOp
  slot : ℕ
  xferId : ℕ
  crc : ℕ
  buf : List UInt8
  expect : Finset ℕ
  ack : ℕ → ℕ
  ackTimerMs : ℕ → ℕ
  sendCursor : ℕ
  lastBeginMs : ℕ
  startMs : ℕ
  cwnd : ℕ
  chunksCap : ℕ
  ackTimeoutMs : ℕ

/-- RNetStateRx, while active; `total` is the length of `buf`. -/
structure Rx where
  ready : Bool
  op : StateOp
  slot : ℕ
  xferId : ℕ
  crc : ℕ
  contiguity : ℕ
  buf : List UInt8
  lastAckMs : ℕ
  bits : ℕ → Bool

/-- state_received[src]: the last transfer opened from that source. -/
structure Received where
  id : ℕ
  total : ℕ
  crc : ℕ
  op : StateOp
  slot : ℕ
  finished : Bool
  lastReackMs : ℕ

/-- state_probe_*, while state_probe_active. -/
structure Probe where
  sender : Bool
  expect : Finset ℕ
  reply : Finset ℕ
  matchSet : Finset ℕ
  pending : Bool
  matched : Bool
  key : ProbeKey
  lastTxMs : ℕ
  parked : Bool

/-- `state_taken`. -/
inductive Taken
  | tx
  | rx (src : ℕ)
  deriving DecidableEq

/-- The transport kind and the pacing remembered across transfers. -/
structure Pacing where
  ice : Bool
  stickyCwnd : ℕ
  stickyChunks : ℕ

structure Session where
  cfg : Config
  running : Bool
  pacing : Pacing
  rbPeerSlot : Option ℕ
  tx : Option Tx
  rx : ℕ → Option Rx
  taken : Option Taken
  stallSim : Bool
  nextXferId : ℕ
  received : ℕ → Option Received
  probe : Option Probe
  released : Option ProbeKey

namespace Session
variable (s : Session)
def wireSlot : ℕ := s.cfg.wireId
def packet (body : Body) : Packet := ⟨s.wireSlot,body⟩

/-- `state_any_active`. -/
def anyActive : Bool := s.tx.isSome || (List.range maxSlots).any fun i => (s.rx i).isSome

end Session

/-- rnet_session_create, state fields. -/
def freshSession (cfg : Config) (ice : Bool) : Session :=
  { cfg := cfg,running := false,pacing := ⟨ice,0,0⟩,rbPeerSlot := none,tx := none,
    rx := fun _ => none,taken := none,stallSim := false,nextXferId := 0,
    received := fun _ => none,probe := none,released := none }

/-- What the application of a session sees or says. -/
inductive Event
  /-- `rnet_session_state_begin` accepted a blob under a transfer id. -/
  | begun (xferId : ℕ) (op : StateOp) (slot : ℕ) (blob : List UInt8)
  | completed (src xferId : ℕ) (op : StateOp) (slot : ℕ) (buf : List UInt8)
  /-- `rnet_session_state_probe_reply` answered the pending probe. -/
  | answered (key : ProbeKey) (matched : Bool)
  deriving DecidableEq

variable (s : Session)
/-- `state_default_receivers`. -/
def defaultReceivers (op : StateOp) : Finset ℕ :=
  if op=.memcard then {0}
  else match s.rbPeerSlot with
    | some r =>
      if r < maxSlots ∧ r≠s.cfg.localSlot ∧ s.cfg.slotOccupied r then {r} else ∅
    | none => (Finset.range (min s.cfg.slotCount maxSlots)).filter fun slot =>
        slot≠s.cfg.localSlot ∧ s.cfg.slotOccupied slot

/-- `state_recompute_stall`. -/
def recomputeStall : Session :=
  { s with stallSim := s.anyActive || s.probe.isSome }

/-- `state_probe_clear`. -/
def probeClear : Session :=
  { s with probe := none,stallSim := if s.anyActive then s.stallSim else false }

/-- `state_tx_clear`. -/
def txClear : Session :=
  { s with tx := none,taken := if s.taken=some .tx then none else s.taken }

/-- `state_rx_clear`. -/
def rxClear (src : ℕ) : Session :=
  { s with
    rx := update s.rx src none
    taken := if s.taken=some (.rx src) then none else s.taken }

/-- `state_probe_all_replied`. -/
def Probe.allReplied (p : Probe) : Bool := p.expect ⊆ p.reply
def Probe.allMatched (p : Probe) : Bool := p.expect ⊆ p.matchSet

variable (pac : Pacing) (tx : Tx)
/-- `state_pacing_reset`. -/
def pacingReset : Tx :=
  if pac.ice then
    { tx with
      cwnd := if 32*1024≤pac.stickyCwnd then min pac.stickyCwnd (256*1024) else 32*1024
      chunksCap := if 16≤pac.stickyChunks then min pac.stickyChunks 64 else 16
      ackTimeoutMs := 80 }
  else { tx with cwnd := 256*1024,chunksCap := 128,ackTimeoutMs := 40 }

/-- `state_pacing_on_ack_progress`. -/
def pacingOnAckProgress : Tx :=
  if pac.ice then
    { tx with
      cwnd := max tx.cwnd (min (tx.cwnd+8*1024) (256*1024))
      chunksCap := max tx.chunksCap (min (tx.chunksCap+2) 64)
      ackTimeoutMs := min tx.ackTimeoutMs (max (tx.ackTimeoutMs-5) 40) }
  else tx

/-- `state_pacing_on_timeout`. -/
def pacingOnTimeout : Pacing × Tx :=
  if pac.ice then
    let tx:={ tx with
      cwnd := max (tx.cwnd/2) (8*1024)
      chunksCap := max (tx.chunksCap/2) 4
      ackTimeoutMs := min (tx.ackTimeoutMs+20) 180 }
    ({ pac with stickyCwnd := min pac.stickyCwnd tx.cwnd,
                stickyChunks := min pac.stickyChunks tx.chunksCap },tx)
  else (pac,tx)

/-- `state_pacing_remember_success`. -/
def pacingRememberSuccess : Pacing :=
  if pac.ice then
    { pac with stickyCwnd := max pac.stickyCwnd tx.cwnd,
               stickyChunks := max pac.stickyChunks tx.chunksCap }
  else pac

namespace Tx
variable (tx : Tx)
def total : ℕ := tx.buf.length

/-- `state_tx_min_ack`. -/
def minAck : ℕ :=
  (List.range maxSlots).foldl (fun m r => if r∈tx.expect ∧ tx.ack r < m then tx.ack r else m)
    tx.total

def complete : Bool := tx.total≤tx.minAck
def beginBody : Body := .begin tx.op tx.slot tx.xferId tx.total tx.crc

/-- `state_tx_mark_ready_if_complete`. -/
def markReady (pac : Pacing) (tx : Tx) : Pacing × Tx :=
  if !tx.ready && tx.complete then (pacingRememberSuccess pac tx,{ tx with ready := true })
  else (pac,tx)

/-- The chunks one `state_drive_sender` emits from `cursor` on, and the cursor it
leaves (`fuel` is the chunk budget). -/
def sendChunks (tx : Tx) (windowEnd : ℕ) : ℕ → ℕ → List Body × ℕ
  | 0,cursor => ([],cursor)
  | fuel+1,cursor =>
    if cursor<windowEnd then
      let data:=Chunks.piece chunkMax tx.buf cursor
      let r:=sendChunks tx windowEnd fuel (cursor+data.length)
      (.chunk tx.xferId cursor data::r.1,r.2)
    else ([],cursor)

/-- When a receiver last made progress. -/
def ackBase (r : ℕ) : ℕ := if tx.ackTimerMs r≠0 then tx.ackTimerMs r else tx.startMs

/-- The ACK timeout of one receiver: rewind the cursor to its watermark. -/
def ackTimeout (now timeout minAck : ℕ) (acc : Tx × Bool) (r : ℕ) : Tx × Bool :=
  let tx:=acc.1
  if r∉tx.expect ∨ tx.total≤tx.ack r ∨ now-tx.ackBase r<timeout then acc
  else
    ({ tx with
        sendCursor := min tx.sendCursor (tx.ack r)
        ackTimerMs := update tx.ackTimerMs r now },
      acc.2 || tx.ack r<tx.sendCursor || tx.ack r == minAck)

/-- The timeout loop of state_drive_sender, and whether it backs off. -/
def ackTimeouts (now timeout : ℕ) (tx : Tx) : Tx × Bool :=
  (List.range maxSlots).foldl (ackTimeout now timeout tx.minAck) (tx,false)

variable (now : ℕ)
def rewind (pac : Pacing) (tx : Tx) : Pacing × Tx :=
  let timeout:=if tx.ackTimeoutMs=0 then (if pac.ice then 80 else 40) else tx.ackTimeoutMs
  let r:=tx.ackTimeouts now timeout
  if r.2 then pacingOnTimeout pac r.1 else (pac,r.1)

/-- The window phase of state_drive_sender. -/
def driveWindow : Tx × List Body :=
  let minAck:=tx.minAck
  let windowEnd:=min (minAck+tx.cwnd) tx.total
  let r:=tx.sendChunks windowEnd tx.chunksCap (max tx.sendCursor minAck)
  ({ tx with sendCursor := r.2 },r.1)

/-- Some receiver has not acknowledged BEGIN, and it is time to repeat it. -/
def beginDue (pac : Pacing) (tx : Tx) : Bool :=
  ((List.range maxSlots).any fun r => r∈tx.expect && tx.ack r == 0) &&
    (tx.lastBeginMs == 0 || (if pac.ice then 80 else 40)≤now-tx.lastBeginMs)

/-- The opening of state_drive_sender: pacing set up, BEGIN repeated. -/
def driveBegin (pac : Pacing) (tx : Tx) : Tx × List Body :=
  let tx:=if tx.cwnd=0 ∨ tx.chunksCap=0 then pacingReset pac tx else tx
  if tx.beginDue now pac then ({ tx with lastBeginMs := now },[tx.beginBody]) else (tx,[])

/-- `state_drive_sender`. -/
def drive (pac : Pacing) (tx : Tx) : Pacing × Tx × List Body :=
  if tx.ready then (pac,tx,[])
  else
    let a:=tx.driveBegin now pac
    if a.1.complete then
      let r:=a.1.markReady pac
      (r.1,r.2,a.2)
    else
      let b:=a.1.rewind now pac
      let c:=b.2.driveWindow
      let d:=c.1.markReady b.1
      (d.1,d.2,a.2++c.2)

/-- The watermark of `src` after its ACK. -/
def raiseAck (pac : Pacing) (tx : Tx) (src ackBytes : ℕ) : Tx :=
  let ack:=min ackBytes tx.total
  if tx.ack src<ack then
    let tx':={ tx with
      ack := update tx.ack src ack
      ackTimerMs := update tx.ackTimerMs src (max now 1) }
    if tx.minAck<tx'.minAck then pacingOnAckProgress pac tx' else tx'
  else tx

/-- state_on_ack, for an ACK of this transfer by an expected receiver. -/
def onAck (pac : Pacing) (tx : Tx) (src ackBytes : ℕ) : Pacing × Tx :=
  (tx.raiseAck now pac src ackBytes).markReady pac

end Tx

def setTx (s : Session) (r : Pacing × Tx) : Session := { s with pacing := r.1,tx := some r.2 }

def driveSender (now : ℕ) (s : Session) : Session × List Packet :=
  match s.tx with
  | none => (s,[])
  | some tx =>
    let r:=tx.drive now s.pacing
    (setTx s (r.1,r.2.1),r.2.2.map s.packet)

namespace Rx
variable (rx : Rx)
def total : ℕ := rx.buf.length

/-- `state_rx_set_chunk`. -/
def setChunk (index : ℕ) : Rx :=
  if maxChunks ≤ index then rx else { rx with bits := update rx.bits index true }

/-- `state_rx_has_chunk`. -/
def hasChunk (index : ℕ) : Bool := index < maxChunks && rx.bits index

/-- The loop of `state_rx_advance_contiguity` from chunk `i` on (`fuel` chunks left). -/
def contiguousFrom (rx : Rx) : ℕ → ℕ → ℕ → ℕ
  | 0,_,contiguity => contiguity
  | fuel+1,i,contiguity =>
    if rx.hasChunk i then rx.contiguousFrom fuel (i+1) (min ((i+1)*chunkMax) rx.total)
    else contiguity

/-- `state_rx_advance_contiguity`. -/
def advanceContiguity : Rx :=
  let chunks:=(rx.total+chunkMax-1)/chunkMax
  let i:=rx.contiguity/chunkMax
  { rx with contiguity := rx.contiguousFrom (chunks-i) i rx.contiguity }

/-- The bytes of a chunk, its bit, and the watermark they allow. -/
def store (offset : ℕ) (data : List UInt8) : Rx :=
  ({ rx with buf := Chunks.write rx.buf offset data }.setChunk (offset/chunkMax)).advanceContiguity
def ackBody : Body := .ack rx.xferId rx.contiguity

variable (now : ℕ)

/-- `state_rx_mark_ready_if_complete`: the receive, its ACK, and whether it became ready. -/
def markReady (rx : Rx) : Rx × List Body × Bool :=
  if rx.ready ∨ rx.contiguity < rx.total then (rx,[],false)
  else if protoChecksum rx.buf≠rx.crc then
    let rx:={ rx with contiguity := 0,lastAckMs := now }
    (rx,[rx.ackBody],false)
  else ({ rx with ready := true,lastAckMs := now },[rx.ackBody],true)

def ackDue (ice : Bool) (rx : Rx) : Bool :=
  ice || decide (4≤now-rx.lastAckMs) || decide (rx.total ≤ rx.contiguity)

/-- state_on_chunk, for a chunk of this transfer. -/
def onChunk (ice : Bool) (rx : Rx) (offset : ℕ) (data : List UInt8) : Rx × List Body × Bool :=
  if rx.total<offset ∨ data=[] ∨ rx.total<offset+data.length then (rx,[],false)
  else
    let rx:=rx.store offset data
    if rx.ackDue now ice then
      let r:={ rx with lastAckMs := now }.markReady now
      (r.1,rx.ackBody::r.2.1,r.2.2)
    else rx.markReady now

end Rx

variable (s : Session) (src : ℕ)
def setRx (rx : Rx) : Session :=
  { s with rx := update s.rx src (some rx) }

variable (now : ℕ)
/-- `state_rx_send_ack`. -/
def rxSendAck (s : Session) (src : ℕ) (rx : Rx) : Session × List Packet :=
  (setRx s src { rx with lastAckMs := now },[s.packet rx.ackBody])

def idDistance (new old : ℕ) : ℕ :=
  let seatIds:=new.testBit 30 && old.testBit 30
  (new+2^32-old)%(if seatIds then 2^24 else 2^30)

def idHalf (new old : ℕ) : ℕ := if new.testBit 30 && old.testBit 30 then 2^23 else 2^29

/-- A BEGIN of the transfer `state_received[src]` already names: re-ACK it. -/
def onBeginAgain (s : Session) (src : ℕ) (r : Received) (op : StateOp)
    (slot xferId total crc : ℕ) : Session × List Packet :=
  if xferId≠r.id ∨ total≠r.total ∨ crc≠r.crc ∨ op≠r.op ∨ slot≠r.slot then (s,[])
  else if r.finished then (s,[s.packet (.ack xferId total)])
  else match s.rx src with
    | some rx => if rx.xferId=xferId then rxSendAck now s src rx else (s,[])
    | none => (s,[])

/-- What a BEGIN from `src` ends on this session: a probe, an upload to `src` alone. -/
def supersedeProbe : Session :=
  match s.probe with
  | some p => if !p.sender || p.expect == {src} then probeClear s else s
  | none => s

def supersedeTx : Session :=
  match s.tx with
  | some tx => if tx.expect={src} then txClear s else s
  | none => s

variable (op : StateOp)
def freshRx (slot xferId total crc : ℕ) : Rx :=
  { ready := false,op := op,slot := slot,xferId := xferId,crc := crc,contiguity := 0,
    buf := List.replicate total 0,lastAckMs := 0,bits := fun _ => false }

def freshReceived (slot xferId total crc : ℕ) : Received :=
  { id := xferId,total := total,crc := crc,op := op,slot := slot,finished := false,
    lastReackMs := 0 }

/-- The part of `state_on_begin` that opens a receive. -/
def openRx (s : Session) (src : ℕ) (op : StateOp) (slot xferId total crc : ℕ) :
    Session × List Packet :=
  let s:=rxClear (supersedeTx (supersedeProbe s src) src) src
  let received:=update s.received src (some (freshReceived op slot xferId total crc))
  rxSendAck now { s with stallSim := true,received := received } src
    (freshRx op slot xferId total crc)

/-- `state_on_begin`. -/
def onBegin (s : Session) (src : ℕ) (op : StateOp) (slot xferId total crc : ℕ) :
    Session × List Packet :=
  if src=s.wireSlot then (s,[])
  else if op=.memcard ∧ (s.cfg.localSlot≠0 ∨ src=0) then (s,[])
  else if op≠.memcard ∧ s.cfg.localSlot=0 then (s,[])
  else if total=0 ∨ stateMax<total then (s,[])
  else if maxSlots ≤ src ∨ xferId=0 then (s,[])
  else match s.received src with
    | some r =>
      if idDistance xferId r.id=0 then onBeginAgain now s src r op slot xferId total crc
      else if idHalf xferId r.id ≤ idDistance xferId r.id then (s,[])
      else openRx now s src op slot xferId total crc
    | none => openRx now s src op slot xferId total crc

def onChunkClosed (s : Session) (src xferId : ℕ) : Session × List Packet :=
  match s.received src with
  | some r =>
    if r.finished ∧ r.id=xferId ∧ (r.lastReackMs=0 ∨ 20≤now-r.lastReackMs) then
      let received:={ r with lastReackMs := max now 1 }
      ({ s with received := update s.received src (some received) },
        [s.packet (.ack xferId r.total)])
    else (s,[])
  | none => (s,[])

/-- `state_on_chunk`. -/
def onChunk (now : ℕ) (s : Session) (src xferId offset : ℕ) (data : List UInt8) :
    Session × List Packet × List Event :=
  let closed:=((onChunkClosed now s src xferId).1,(onChunkClosed now s src xferId).2,[])
  if maxSlots ≤ src ∨ src=s.wireSlot then (s,[],[])
  else match s.rx src with
    | some rx =>
      if rx.xferId=xferId then
        let r:=rx.onChunk now s.pacing.ice offset data
        (setRx s src r.1,r.2.1.map s.packet,
          if r.2.2 then [.completed src r.1.xferId r.1.op r.1.slot r.1.buf] else [])
      else closed
    | none => closed

/-- `state_on_ack`. -/
def onAck (now : ℕ) (s : Session) (src xferId ackBytes : ℕ) : Session :=
  match s.tx with
  | none => s
  | some tx =>
    if xferId≠tx.xferId ∨ maxSlots ≤ src ∨ src∉tx.expect then s
    else setTx s (tx.onAck now s.pacing src ackBytes)

/-- `state_drive_probe`. -/
def driveProbe (s : Session) : Session × List Packet :=
  match s.probe with
  | none => (s,[])
  | some p =>
    if !p.sender ∧ p.parked then
      if p.lastTxMs=0 ∨ 50≤now-p.lastTxMs then
        ({ s with probe := some { p with lastTxMs := now } },
          [s.packet (.probeReply p.key true)])
      else (s,[])
    else if !p.sender ∨ p.allReplied then (s,[])
    else if p.lastTxMs≠0 ∧ now-p.lastTxMs<8 then (s,[])
    else ({ s with probe := some { p with lastTxMs := now } },[s.packet (.probe p.key p.reply)])

/-- A guest surfaces a probe to its application (the last branch of
`state_on_probe`): every field is set anew except `parked` and the send time. -/
def freshProbe (key : ProbeKey) : Probe :=
  { sender := false,expect := ∅,reply := ∅,matchSet := ∅,pending := true,matched := false,
    key := key,lastTxMs := (s.probe.map Probe.lastTxMs).getD 0,
    parked := (s.probe.map Probe.parked).getD false }

def probeAnswered (key : ProbeKey) : Option Probe :=
  s.probe.filter fun p => !p.sender && !p.pending && p.key == key

/-- `state_on_probe` reaches its last branch: the probe is new to this guest. -/
def probeIsFresh (key : ProbeKey) (replied : Finset ℕ) : Bool :=
  !(src == s.wireSlot || s.cfg.localSlot == 0 || (s.wireSlot<8 && s.wireSlot∈replied) ||
    s.anyActive || (probeAnswered s key).isSome)

/-- `state_on_probe`. -/
def onProbe (key : ProbeKey) (replied : Finset ℕ) : Session × List Packet :=
  if src=s.wireSlot ∨ s.cfg.localSlot=0 ∨ (s.wireSlot<8 ∧ s.wireSlot∈replied) ∨
      s.anyActive then (s,[])
  else match probeAnswered s key with
    | some p => (s,[s.packet (.probeReply key p.matched)])
    | none => ({ s with probe := some (freshProbe s key),stallSim := key.size != 0 },[])

/-- `state_on_probe_reply`. -/
def onProbeReply (key : ProbeKey) (matched : Bool) : Session × List Packet :=
  match s.probe.filter Probe.sender with
  | none =>
    if s.released=some key ∧ matched ∧ src≠s.wireSlot then (s,[s.packet (.probeDone key)])
    else (s,[])
  | some p =>
    if src=s.wireSlot ∨ key≠p.key ∨ maxSlots ≤ src ∨ src∉p.expect then (s,[])
    else
      let matchSet:=if matched then insert src p.matchSet else p.matchSet.erase src
      ({ s with probe := some { p with reply := insert src p.reply,matchSet := matchSet } },[])

/-- `state_on_probe_done`. -/
def onProbeDone (key : ProbeKey) : Session :=
  match s.probe with
  | some p =>
    if s.cfg.localSlot=0 ∨ src=s.wireSlot ∨ p.sender ∨ !p.parked ∨ key≠p.key then s
    else probeClear s
  | none => s

/-- handle_decoded, state cases, behind the rb_peer_slot filter. -/
def handleDecoded (s : Session) (pkt : Packet) : Session × List Packet × List Event :=
  let src:=pkt.localSlot
  if s.rbPeerSlot.any fun r => src≠r then (s,[],[])
  else match pkt.body with
    | .begin op slot xferId total crc =>
      let r:=onBegin now s src op slot xferId total crc
      (r.1,r.2,[])
    | .chunk xferId offset data => onChunk now s src xferId offset data
    | .ack xferId ackBytes => (onAck now s src xferId ackBytes,[],[])
    | .probe key replied =>
      let r:=onProbe s src key replied
      (r.1,r.2,[])
    | .probeReply key matched =>
      let r:=onProbeReply s src key matched
      (r.1,r.2,[])
    | .probeDone key => (onProbeDone s src key,[],[])

/-- What `rnet_session_pump` does for this plane after receiving. -/
def drive (s : Session) : Session × List Packet :=
  let a:=driveProbe now s
  let b:=if a.1.anyActive then driveSender now a.1 else (a.1,[])
  (b.1,a.2++b.2)

/-- rnet_session_state_probe; no call of the application is logged for it. -/
def stateProbe (s : Session) (key : ProbeKey) : Session × List Packet :=
  let expect:=defaultReceivers s key.op
  let waiting:=s.probe.any fun p => p.sender && !p.allReplied
  if s.cfg.localSlot≠0 ∨ !s.running then (s,[])
  else if s.anyActive ∨ waiting then (s,[])
  else if !key.op.hosted ∨ stateMax<key.size ∨ expect=∅ then (s,[])
  else
    let p : Probe :=
      { sender := true,expect := expect,reply := ∅,matchSet := ∅,pending := false,
        matched := false,key := key,lastTxMs := 0,parked := false }
    driveProbe now
      { probeClear s with probe := some p,released := none,stallSim := key.size != 0 }

/-- `rnet_session_state_probe_take_reply`. -/
def probeTakeReply : Option Bool :=
  match s.probe with
  | some p => if p.sender && p.allReplied then some p.allMatched else none
  | none => none

/-- What rnet_session_state_probe_reply keeps of the probe it answers. -/
def answerProbe (s : Session) (p : Probe) (matched : Bool) : Session :=
  let p':={ p with pending := false,matched := matched }
  let restore:=p.key.op=.load ∨ p.key.op=.boot
  if p.key.size=0 then
    let s':={ s with probe := some p',stallSim := false }
    if restore then probeClear s' else s'
  else if matched then
    if restore then probeClear { s with probe := some p' }
    else { s with probe := some { p' with parked := true,lastTxMs := now } }
  else { s with probe := some p' }

def probeReply (now : ℕ) (s : Session) (matched : Bool) : Session × List Packet × List Event :=
  match s.probe with
  | none => (s,[],[])
  | some p =>
    if p.sender || !p.pending then (s,[],[])
    else
      (answerProbe now s p matched,[s.packet (.probeReply p.key matched)],
        [.answered p.key matched])

/-- `state_send_probe_done`. -/
def sendProbeDone : Session × List Packet :=
  match s.probe with
  | some p =>
    if p.sender && p.key.size != 0 && p.allReplied && p.allMatched then
      ({ s with released := some p.key },[s.packet (.probeDone p.key)])
    else (s,[])
  | none => (s,[])

/-- `rnet_session_state_probe_finish`. -/
def probeFinish : Session × List Packet := (probeClear (sendProbeDone s).1,(sendProbeDone s).2)
def xferIdOf (seat n : ℕ) : ℕ :=
  if op=.memcard then 2^30+(seat-1)%64*2^24+n%2^24 else n

/-- state_next_xfer_id after one more transfer: 32 bits, never zero. -/
def bumpXferId (n : ℕ) : ℕ := if (n+1)%2^32=0 then 1 else (n+1)%2^32

def freshTx (op : StateOp) (slot xferId : ℕ) (blob : List UInt8) (expect : Finset ℕ) : Tx :=
  { ready := false,op := op,slot := slot,xferId := xferId,crc := protoChecksum blob,
    buf := blob,expect := expect,ack := fun _ => 0,ackTimerMs := fun _ => 0,sendCursor := 0,
    lastBeginMs := now,startMs := now,cwnd := 0,chunksCap := 0,ackTimeoutMs := 0 }

/-- The part of rnet_session_state_begin that opens the transfer. -/
def openTx (s : Session) (op : StateOp) (slot : ℕ) (blob : List UInt8) :
    Session × List Packet × List Event :=
  let next:=bumpXferId s.nextXferId
  let xferId:=xferIdOf op s.cfg.localSlot next
  let tx:=pacingReset s.pacing (freshTx now op slot xferId blob (defaultReceivers s op))
  let s':={ txClear (probeClear s) with tx := some tx,stallSim := true,nextXferId := next }
  ((driveSender now s').1,s.packet tx.beginBody::(driveSender now s').2,
    [.begun xferId op slot blob])

/-- `rnet_session_state_begin`. -/
def stateBegin (s : Session) (op : StateOp) (slot : ℕ) (blob : List UInt8) :
    Session × List Packet × List Event :=
  if blob=[] ∨ stateMax<blob.length then (s,[],[])
  else if !s.running ∨ s.anyActive ∨ s.cfg.isObserver then (s,[],[])
  else if op=.memcard ∧ s.cfg.localSlot=0 ∨
      op≠.memcard ∧ (s.cfg.localSlot≠0 ∨ !op.hosted) then (s,[],[])
  else if defaultReceivers s op=∅ then (s,[],[])
  else openTx now s op slot blob

/-- `state_pick_ready`. -/
def pickReady : Option Taken :=
  if s.tx.any Tx.ready then some .tx
  else ((List.range maxSlots).find? fun i => (s.rx i).any Rx.ready).map .rx

/-- `rnet_session_state_take_ready_from`. -/
def takeReady : Session :=
  match pickReady s with
  | some pick => { s with taken := some pick }
  | none => s

/-- `state_finish_rx`. -/
def finishRx : Session :=
  let done:=(s.rx src).any Rx.ready
  let received:=(s.received src).map fun r => { r with finished := r.finished || done }
  rxClear { s with received := update s.received src received } src

inductive FinishFrom
  | all
  | slot (seat : ℕ)

/-- `rnet_session_state_finish_from`. -/
def finishFrom : FinishFrom → Session
  | .all => recomputeStall (txClear ((List.range maxSlots).foldl finishRx s))
  | .slot seat =>
    recomputeStall
      (if !s.cfg.isObserver ∧ seat=s.cfg.localSlot then txClear s
        else if seat < maxSlots then finishRx s seat else s)

/-- The transfer `state_finish` is about: the last one reported, if still open. -/
def finishTarget : Option Taken :=
  match s.taken with
  | some .tx => if s.tx.isSome then some .tx else pickReady s
  | some (.rx src) => if (s.rx src).isSome then some (.rx src) else pickReady s
  | none => pickReady s

/-- `rnet_session_state_finish`. -/
def stateFinish : Session :=
  match finishTarget s with
  | none => finishFrom s .all
  | some .tx => recomputeStall { txClear s with taken := none }
  | some (.rx src) => recomputeStall { finishRx s src with taken := none }

/-- rnet_session_state_drop_peer, outbound transfer. -/
def dropReceiver (slot : ℕ) : Session :=
  match s.tx with
  | some tx =>
    if slot∈tx.expect then
      setTx s ({ tx with expect := tx.expect.erase slot }.markReady s.pacing)
    else s
  | none => s

/-- `rnet_session_state_drop_peer`. -/
def dropPeer (slot : ℕ) : Session :=
  let s:=dropReceiver s slot
  match s.probe with
  | some p => if p.sender ∧ slot∈p.expect then
      { s with probe := some { p with expect := p.expect.erase slot } } else s
  | none => s

inductive Call
  | recv (now : ℕ) (pkt : Packet)
  | drive (now : ℕ)
  | begin (now : ℕ) (op : StateOp) (slot : ℕ) (blob : List UInt8)
  | probe (now : ℕ) (key : ProbeKey)
  | probeReply (now : ℕ) (matched : Bool)
  | probeFinish
  | takeReady
  | finish
  | finishFrom (which : FinishFrom)
  | dropPeer (slot : ℕ)
  | setLink (running ice : Bool) (rbPeerSlot : Option ℕ)

def callInputs : Call → List Packet
  | .recv _ pkt => [pkt]
  | _ => []

def callAct : Call → Session × List Packet × List Event
  | .recv now pkt => handleDecoded now s pkt
  | .drive now => ((drive now s).1,(drive now s).2,[])
  | .begin now op slot blob => stateBegin now s op slot blob
  | .probe now key => ((stateProbe now s key).1,(stateProbe now s key).2,[])
  | .probeReply now matched => probeReply now s matched
  | .probeFinish => ((probeFinish s).1,(probeFinish s).2,[])
  | .takeReady => (takeReady s,[],[])
  | .finish => (stateFinish s,[],[])
  | .finishFrom which => (finishFrom s which,[],[])
  | .dropPeer slot => (dropPeer s slot,[],[])
  | .setLink running ice rbPeerSlot =>
    ({ s with
        running := running,pacing := { s.pacing with ice := ice },rbPeerSlot := rbPeerSlot },
      [],[])

def runCalls (cfg : Config) (ice : Bool) (cs : List Call) : Session :=
  cs.foldl (fun s c => (callAct s c).1) (freshSession cfg ice)

theorem runCalls_concat (cfg : Config) (ice : Bool) (cs : List Call) (c : Call) :
    runCalls cfg ice (cs++[c])=(callAct (runCalls cfg ice cs) c).1 := by
  simp [runCalls]

def nodeSpec (ι : Type) : NodeSpec ι Session Packet Event Call where
  inputs := callInputs
  act _ c s := callAct s c

/-- Freshly created sessions, nothing sent yet. -/
def Init {ι : Type} (room : Room ι) (w : Net ι Session Packet Event) : Prop :=
  w.sent=[] ∧ w.log=[] ∧ ∀ i,∃ ice,w.node i=freshSession (room.cfg i) ice

def pairStart : Net Bool Session Packet Event where
  node i := freshSession (pairCfg i) false
  sent := []
  log := []

theorem pairStart_init : Init Room.pair pairStart := ⟨rfl,rfl,fun _ => ⟨false,rfl⟩⟩

end RecompNet.StateSync
