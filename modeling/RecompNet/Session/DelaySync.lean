import RecompNet.Input.Sample
import RecompNet.Protocol.Codec

/-!
# The delay-sync plane of a session (`rnet_session.c`)

Bootstrap (HELLO / READY / START), the INPUT pipeline, DELAY_SYNC and the INPUT_CONFIRM barrier of
one session, as `rnet_session_pump`, `rnet_session_try_admit` and `rnet_session_advance` drive
them.
-/
namespace RecompNet.DelaySync
open Function

def maxBundle : ℕ := 21
def wireVersion : ℕ := 2

/-- `RNetSessionPhase`. -/
inductive Phase
  | idle | linking | ready | running
  deriving DecidableEq,Repr

structure WireFrame where
  tick : ℕ
  size : ℕ
  bytes : PadBytes
  deriving DecidableEq

def WireFrame.row (f : WireFrame) : Row := ⟨f.size,f.bytes.1.take f.size⟩

/-- Packets of the delay-sync plane, by their payload. -/
inductive Body
  | hello (localSlot slotCount delay version : ℕ)
  | ready (localSlot : ℕ)
  | start (startTick : ℕ)
  | input (localSlot epoch ackTick : ℕ) (frames : List WireFrame) (acks : List (Option ℕ))
  | delaySync (newDelay effectiveTick : ℕ)
  | inputConfirm (localSlot epoch simTick hash : ℕ)
  | bye (localSlot : ℕ)
  deriving DecidableEq

/-- A datagram with the header fields every packet carries. -/
structure Packet where
  magic : ℕ
  sessionId : ℕ
  body : Body
  deriving DecidableEq

/-- `delay_pending_value` and `delay_pending_effective`, while `delay_pending`. -/
structure PendingDelay where
  value : ℕ
  effective : ℕ
  deriving DecidableEq

structure Gate where
  profilesPending : Bool := false
  stateStallSim : Bool := false
  stateBusy : Bool := false
  inputSendSuppress : Bool := false
  deriving DecidableEq

structure Session where
  cfg : Config
  phase : Phase
  gate : Gate
  localRing : InputRing
  remoteRings : ℕ → InputRing
  peerReady : ℕ → Bool
  localReady : Bool
  startSent : Bool
  delay : ℕ
  delayPending : Option PendingDelay
  delayPendingLastTxMs : ℕ
  simTick : ℕ
  highestRemoteAck : ℕ
  remoteContiguousAck : ℕ → Option ℕ
  peerAckTick : ℕ → Option ℕ
  peerAckSeen : ℕ → Bool
  lastHelloMs : ℕ
  lastReadyMs : ℕ
  lastInputMs : ℕ
  lastInputTip : Option ℕ
  published : TickRing historyLength ℕ
  peerHistory : ℕ → TickRing historyLength ℕ
  confirmLastSentMs : ℕ → ℕ
  inputDesync : Option (ℕ × ℕ × ℕ)
  peerGone : Bool
  inputEpoch : ℕ

namespace Session
def isObserver (s : Session) : Bool := s.cfg.isObserver
def isSimAuthority (s : Session) : Bool := !s.isObserver && s.cfg.localSlot == 0
def packet (s : Session) (body : Body) : Packet := ⟨s.cfg.protocolMagic,s.cfg.sessionId,body⟩

end Session

def freshSession (cfg : Config) : Session :=
  { cfg := cfg,phase := .idle,gate := {},localRing := .empty,remoteRings := fun _ => .empty,
    peerReady := fun _ => false,localReady := false,startSent := false,
    delay := cfg.inputDelay,delayPending := none,delayPendingLastTxMs := 0,simTick := 0,
    highestRemoteAck := 0,remoteContiguousAck := fun _ => none,peerAckTick := fun _ => some 0,
    peerAckSeen := fun _ => false,lastHelloMs := 0,lastReadyMs := 0,lastInputMs := 0,
    lastInputTip := none,published := .empty,peerHistory := fun _ => .empty,
    confirmLastSentMs := fun _ => 0,inputDesync := none,peerGone := false,inputEpoch := 0 }

def sessionCreate (cfg : Config) : Option Session :=
  if cfg.slotCount<2 ∨ maxSlots<cfg.slotCount then none
  else if cfg.slotCount<cfg.localSlot then none
  else if cfg.localSlot=cfg.slotCount ∧ cfg.wireId<cfg.slotCount then none
  else some (freshSession cfg)

variable (s : Session)
def sessionStartLan : Session := { s with phase := .linking,lastHelloMs := 0 }

def seedDelayPrefix : Session :=
  { s with localRing := (List.range s.delay).foldl (fun ring t =>
      if (ringGet ring t).isSome then ring else ringStore ring (neutralSample t)) s.localRing }

def remoteTickInLiveWindow (slot tick : ℕ) : Bool :=
  if s.phase≠.running then true
  else
    let tip:=wireTickFromSim s.simTick s.delay
    let slop:=s.cfg.bundleRedundancy+8
    let lo:=s.simTick-slop
    let hi:=tip+slop
    if lo≤tick ∧ tick≤hi then true
    else if s.cfg.slotCount ≤ slot then false
    else ringHighestValid (s.remoteRings slot)<tick && tick≤hi &&
      (s.simTick≤64 || s.simTick≤tick+64)

/-- The loop of `store_remote_frame` that moves the contiguous acknowledgment;
a ring holds at most `historyLength` consecutive ticks, which bounds it. -/
def advanceAck (ring : InputRing) : ℕ → Option ℕ → Option ℕ
  | 0,ack => ack
  | fuel+1,ack =>
    let next:=match ack with
      | none => 0
      | some a => a+1
    if (ringGet ring next).isSome then advanceAck ring fuel (some next) else ack

def storeRemoteFrame (slot : ℕ) (frame : WireFrame) : Session :=
  if s.cfg.slotCount ≤ slot ∨ slot=s.cfg.localSlot then s
  else if !remoteTickInLiveWindow s slot frame.tick then s
  else if (ringGet (s.remoteRings slot) frame.tick).isSome then s
  else
    let sample : InputSample := ⟨frame.tick,frame.size,PadBytes.copy frame.size frame.bytes,true⟩
    let ring:=ringStore (s.remoteRings slot) sample
    { s with
      remoteRings := update s.remoteRings slot ring
      remoteContiguousAck :=
        if 2<s.cfg.slotCount then
          update s.remoteContiguousAck slot
            (advanceAck ring historyLength (s.remoteContiguousAck slot))
        else s.remoteContiguousAck }

/-- The resend floor of `send_input_bundle` from a peer acknowledgment: at most
`RNET_HISTORY_LENGTH / 2` ticks behind the tip. -/
def ackFloor (tip ackLo : ℕ) : ℕ :=
  if 64<tip+1 ∧ ackLo+64≤tip then tip+1-64 else ackLo

def bundleLo (tip : ℕ) : ℕ :=
  let red:=max (max s.cfg.bundleRedundancy 1) (s.delay+1)
  let lo:=tip+1-red
  if 2<s.cfg.slotCount then
    let ackLo:=(List.range s.cfg.slotCount).foldl (fun acc slot =>
      if slot=s.cfg.localSlot ∨ !s.cfg.slotOccupied slot then acc
      else
        let peerLo:=if !s.peerAckSeen slot then 0
          else match s.peerAckTick slot with
            | none => 0
            | some a => a+1
        min peerLo acc) (tip+1)
    min (ackFloor tip ackLo) lo
  else if s.highestRemoteAck<tip then min (ackFloor tip (s.highestRemoteAck+1)) lo
  else lo

def wireFrame (sample : InputSample) : WireFrame :=
  ⟨sample.tick,sample.size,PadBytes.copy sample.size sample.bytes⟩

def bundles : ℕ → List WireFrame → List (List WireFrame)
  | _,[] => []
  | 0,_ => []
  | fuel+1,fs => fs.take maxBundle::bundles fuel (fs.drop maxBundle)

def bundleFrames (lo tip : ℕ) : List WireFrame :=
  (List.range' lo (tip+1-lo)).filterMap fun t => (ringGet s.localRing t).map wireFrame

variable (now : ℕ)
def sendInputBundle (s : Session) : Session × List Packet :=
  if s.isObserver then (s,[])
  else if s.phase≠.running then (s,[])
  else if s.gate.stateStallSim || s.gate.inputSendSuppress then (s,[])
  else
    let tip:=wireTickFromSim s.simTick s.delay
    if s.lastInputTip=some tip ∧ now-s.lastInputMs<8 then (s,[])
    else
      let frames:=bundleFrames s (bundleLo s tip) tip
      let ack:=ringHighestValid (s.remoteRings ((s.cfg.localSlot+1)%s.cfg.slotCount))
      let acks:=if 2<s.cfg.slotCount then
        (List.range s.cfg.slotCount).map s.remoteContiguousAck else []
      if frames=[] then (s,[])
      else ({ s with lastInputMs := now,lastInputTip := some tip },
        (bundles (frames.length+1) frames).map fun fs =>
          s.packet (.input s.cfg.wireId s.inputEpoch ack fs acks))

def hashResolvedInputs (simTick : ℕ) (bySlot : List InputSample) : ℕ :=
  protoChecksum (wordBytes 4 simTick++bySlot.flatMap fun smp =>
    let sz:=min smp.size inputMax
    wordBytes 2 sz++smp.bytes.1.take sz)

def remotesReadyForPlayWire (playWire : ℕ) : Bool := (List.range s.cfg.slotCount).all fun slot =>
    slot == s.cfg.localSlot || !s.cfg.slotOccupied slot ||
      (ringGet (s.remoteRings slot) playWire).isSome

/-- One seat of `collect_wire_inputs`. -/
def collectSlot (wire slot : ℕ) : Option InputSample :=
  if !s.cfg.slotOccupied slot then some (neutralSample wire)
  else
    (if slot=s.cfg.localSlot then ringGet s.localRing wire
      else ringGet (s.remoteRings slot) wire).map fun smp => { smp with tick := wire }

def collectWireInputs (wire : ℕ) : Option (List InputSample) :=
  (List.range s.cfg.slotCount).mapM (collectSlot s wire)

def sendInputConfirmTick (s : Session) (tick hash : ℕ) : Session × List Packet :=
  ({ s with confirmLastSentMs := update s.confirmLastSentMs (tick%historyLength) now },
    [s.packet (.inputConfirm s.cfg.wireId s.inputEpoch tick hash)])

def confirmDue (s : Session) (wire : ℕ) : Bool :=
  let last:=s.confirmLastSentMs (wire%historyLength)
  last == 0 || 4≤now-last

def confirmMismatch (wire hash : ℕ) : Option ℕ := (List.range s.cfg.slotCount).findSome? fun slot =>
    if slot=s.cfg.localSlot ∨ !s.cfg.slotOccupied slot then none
    else match (s.peerHistory slot).get? wire with
      | some h => if h≠hash then some h else none
      | none => none

def prepareWireConfirm (s : Session) (wire : ℕ) : Session × List Packet × Bool :=
  match collectWireInputs s wire with
  | none => (s,[],false)
  | some resolved =>
    let hash:=hashResolvedInputs wire resolved
    let s:={ s with published := s.published.store wire hash }
    match confirmMismatch s wire hash with
    | some remote => ({ s with inputDesync := some (wire,hash,remote) },[],false)
    | none =>
      if confirmDue now s wire then
        let r:=sendInputConfirmTick now s wire hash
        (r.1,r.2,true)
      else (s,[],true)

def wireConfirmationsAgree (wire : ℕ) : Bool :=
  match s.published.get? wire with
  | none => false
  | some hash => (List.range s.cfg.slotCount).all fun slot =>
      slot == s.cfg.localSlot || !s.cfg.slotOccupied slot ||
        (s.peerHistory slot).get? wire == some hash

/-- One tick of `refresh_confirm_window`. -/
def refreshConfirm (s : Session) (wire : ℕ) : Session × List Packet :=
  match s.published.get? wire with
  | some hash => if confirmDue now s wire then sendInputConfirmTick now s wire hash else (s,[])
  | none => ((prepareWireConfirm now s wire).1,(prepareWireConfirm now s wire).2.1)

def refreshConfirmWindow (s : Session) (playWire sampleWire : ℕ) : Session × List Packet :=
  let trail:=min (max (s.delay+s.cfg.bundleRedundancy+8) 16) (historyLength/2)
  let lo:=playWire-trail
  let hi:=max sampleWire lo
  (List.range' lo (hi+1-lo)).foldl (fun acc w =>
    let r:=refreshConfirm now acc.1 w
    (r.1,acc.2++r.2)) (s,[])

def emitDelaySync (s : Session) (newDelay effectiveTick : ℕ) : Session × List Packet :=
  ({ s with delayPendingLastTxMs := now },[s.packet (.delaySync newDelay effectiveTick)])

def onHello (localSlot slotCount delay version : ℕ) : Session :=
  if slotCount≠s.cfg.slotCount then s
  else if version≠wireVersion then s
  else
    let s:=if s.phase=.linking then { s with phase := .ready } else s
    if s.cfg.localSlot≠0 ∧ localSlot=0 ∧ 2≤delay ∧ delay≤20 ∧ delay≠s.delay ∧
        (s.phase≠.running ∨ s.simTick=0) then
      let s:={ s with delay := delay }
      if s.phase≠.running then seedDelayPrefix s else s
    else s

def onReady (localSlot : ℕ) : Session × List Packet :=
  if s.cfg.slotCount≤localSlot then (s,[])
  else
    let s:={ s with peerReady := update s.peerReady localSlot true }
    if s.isSimAuthority && s.startSent && s.phase == .running && s.cfg.slotOccupied localSlot then
      (s,[s.packet (.start 0)])
    else (s,[])

def onStart (s : Session) (startTick : ℕ) : Session × List Packet :=
  if s.phase=.running then (s,[])
  else sendInputBundle now (seedDelayPrefix { s with simTick := startTick,phase := .running })

def onInputAck (localSlot ackTick : ℕ) (acks : List (Option ℕ)) : Session :=
  if 2<s.cfg.slotCount ∧ localSlot<s.cfg.slotCount ∧ acks.length=s.cfg.slotCount ∧
      s.cfg.slotOccupied localSlot then
    let ack:=(acks[s.cfg.localSlot]?).getD none
    let newer:=match ack,s.peerAckTick localSlot with
      | some _,none => true
      | some a,some b => b<a
      | none,_ => false
    if !s.peerAckSeen localSlot || newer then
      { s with
        peerAckTick := update s.peerAckTick localSlot ack
        peerAckSeen := update s.peerAckSeen localSlot true }
    else s
  else if s.cfg.slotCount=2 ∧ s.highestRemoteAck<ackTick then
    { s with highestRemoteAck := ackTick }
  else s

def onInput (localSlot epoch ackTick : ℕ) (frames : List WireFrame)
    (acks : List (Option ℕ)) : Session :=
  if epoch≠s.inputEpoch then s
  else onInputAck (frames.foldl (fun s f => storeRemoteFrame s localSlot f) s)
    localSlot ackTick acks

def onDelaySync (newDelay effectiveTick : ℕ) : Session :=
  if effectiveTick ≤ s.simTick ∨ s.phase≠.running then
    { s with delay := newDelay,delayPending := none }
  else { s with delayPending := some ⟨newDelay,effectiveTick⟩ }

def onInputConfirm (localSlot epoch simTick hash : ℕ) : Session :=
  if epoch≠s.inputEpoch ∨ s.cfg.slotCount≤localSlot then s
  else
    let history:=(s.peerHistory localSlot).store simTick hash
    let s:={ s with peerHistory := update s.peerHistory localSlot history }
    match s.published.get? simTick with
    | some own => if own≠hash then { s with inputDesync := some (simTick,own,hash) } else s
    | none => s

def handleDecoded (s : Session) (pkt : Packet) : Session × List Packet :=
  if pkt.magic≠s.cfg.protocolMagic ∨ pkt.sessionId≠s.cfg.sessionId then (s,[])
  else match pkt.body with
    | .hello localSlot slotCount delay version => (onHello s localSlot slotCount delay version,[])
    | .ready localSlot => onReady s localSlot
    | .start startTick => onStart now s startTick
    | .input localSlot epoch ackTick frames acks =>
      (onInput s localSlot epoch ackTick frames acks,[])
    | .delaySync newDelay effectiveTick => (onDelaySync s newDelay effectiveTick,[])
    | .inputConfirm localSlot epoch simTick hash =>
      (onInputConfirm s localSlot epoch simTick hash,[])
    | .bye localSlot =>
      (if localSlot≠s.cfg.wireId then { s with peerGone := true } else s,[])

def pumpRecv (s : Session) (pkts : List Packet) : Session × List Packet :=
  pkts.foldl (fun acc pkt =>
    let r:=handleDecoded now acc.1 pkt
    (r.1,acc.2++r.2)) (s,[])

/-- The HELLO and READY part of `maybe_bootstrap`. -/
def bootstrapAnnounce (s : Session) : Session × List Packet :=
  let hello:=s.phase == .linking && 100≤now-s.lastHelloMs
  let s₁:=if hello then { s with lastHelloMs := now } else s
  let out₁:=if hello then
    [s.packet (.hello s.cfg.wireId s.cfg.slotCount s.delay wireVersion)] else []
  if s.phase=.ready ∨ s.phase=.linking then
    let ready:=100≤now-s.lastReadyMs
    let s₂:={ s₁ with
      localReady := true
      lastReadyMs := if ready then now else s.lastReadyMs
      peerReady := fun slot =>
        (!s.isObserver && slot == s.cfg.localSlot) ||
          (slot<s.cfg.slotCount && !s.cfg.slotOccupied slot) || s.peerReady slot }
    (s₂,out₁++if ready then [s.packet (.ready s.cfg.wireId)] else [])
  else (s₁,out₁)

/-- The START part of `maybe_bootstrap`: seat 0 starts once every seat is ready. -/
def bootstrapStart (s : Session) : Session × List Packet :=
  let allReady:=(List.range s.cfg.slotCount).all s.peerReady
  if (s.phase=.ready ∨ s.phase=.linking) ∧ allReady ∧ s.isSimAuthority ∧ !s.startSent then
    let b:=sendInputBundle now
      (seedDelayPrefix { s with startSent := true,simTick := 0,phase := .running })
    (b.1,s.packet (.start 0)::b.2)
  else (s,[])

def maybeBootstrap (s : Session) : Session × List Packet :=
  let a:=bootstrapAnnounce now s
  let b:=bootstrapStart now a.1
  (b.1,a.2++b.2)

def keepAlive (s : Session) : Session × List Packet :=
  if s.phase=.running ∧ (s.gate.inputSendSuppress || s.gate.stateStallSim) ∧
      250≤now-s.lastHelloMs then
    ({ s with lastHelloMs := now },
      [s.packet (.hello s.cfg.wireId s.cfg.slotCount s.delay wireVersion)])
  else (s,[])

def resendDelaySync (s : Session) : Session × List Packet :=
  match s.delayPending with
  | some p =>
    if s.phase=.running ∧ (s.delayPendingLastTxMs=0 ∨ 50≤now-s.delayPendingLastTxMs) then
      emitDelaySync now s p.value p.effective
    else (s,[])
  | none => (s,[])

def sessionPump (linkUp : Bool) (pkts : List Packet) (s : Session) : Session × List Packet :=
  let s:=if linkUp ∧ s.phase=.idle then { s with phase := .linking } else s
  let a:=pumpRecv now s pkts
  let b:=maybeBootstrap now a.1
  let c:=keepAlive now b.1
  let d:=sendInputBundle now c.1
  let e:=resendDelaySync now d.1
  (e.1,a.2++b.2++c.2++d.2++e.2)

inductive AdmitStall
  | notRunning | stateXfer | simMismatch | desync | waitLocalInput | waitRemoteInput | waitConfirm
  deriving DecidableEq,Repr

inductive Admit
  | stall (reason : AdmitStall)
  | publish (resolved : List InputSample)
  deriving DecidableEq

/-- The sample of `sample_local`, stamped and with its size cut to the array. -/
def futureSample (sampleWire : ℕ) (sampled : InputSample) : InputSample :=
  { sampled with tick := sampleWire,valid := true,size := min sampled.size inputMax }

/-- The local row of wire `sample_wire`: sampled once, then kept. -/
def sampleLocalFuture (sampleWire : ℕ) (sampled : InputSample) : Session :=
  if (ringGet s.localRing sampleWire).isSome then s
  else { s with localRing := ringStore s.localRing (futureSample sampleWire sampled) }

/-- The row `try_admit` publishes for a seat. -/
def admitSlot (simTick slot : ℕ) : Option InputSample :=
  if slot=s.cfg.localSlot then
    (ringGet s.localRing simTick).map fun smp => { smp with tick := simTick }
  else if !s.cfg.slotOccupied slot then some (neutralSample simTick)
  else (ringGet (s.remoteRings slot) simTick).map fun smp => { smp with tick := simTick }

/-- The confirmation barrier at the end of `try_admit`. -/
def admitConfirm (s : Session) (simTick : ℕ) (resolved : List InputSample) :
    Session × List Packet × Admit :=
  let hash:=hashResolvedInputs simTick resolved
  let p:=prepareWireConfirm now s simTick
  let s:=p.1
  if !p.2.2 || s.inputDesync.isSome then
    (s,p.2.1,.stall (if s.inputDesync.isSome then .desync else .waitConfirm))
  else match s.published.get? simTick with
    | some own =>
      if own≠hash then
        ({ s with inputDesync := some (simTick,hash,own) },p.2.1,.stall .desync)
      else if !wireConfirmationsAgree s simTick then
        let q:=prepareWireConfirm now s simTick
        let b:=sendInputBundle now q.1
        (b.1,p.2.1++q.2.1++b.2,.stall .waitConfirm)
      else (s,p.2.1,.publish resolved)
    | none => (s,p.2.1,.stall .waitConfirm)

/-- `try_admit` once the window is refreshed: resolve every seat, then confirm. -/
def admitRows (s : Session) (simTick : ℕ) : Session × List Packet × Admit :=
  if !s.isObserver && (ringGet s.localRing simTick).isNone then
    let c:=sendInputBundle now s
    (c.1,c.2,.stall .waitLocalInput)
  else if !remotesReadyForPlayWire s simTick then
    let c:=sendInputBundle now s
    (c.1,c.2,.stall .waitRemoteInput)
  else match (List.range s.cfg.slotCount).mapM (admitSlot s simTick) with
    | none => (s,[],.stall .waitRemoteInput)
    | some resolved => admitConfirm now s simTick resolved

/-- The sampling half of `try_admit`: an observer samples and sends nothing. -/
def admitSample (s : Session) (sampleWire : ℕ) (sampled : InputSample) : Session × List Packet :=
  if s.isObserver then (s,[])
  else sendInputBundle now (sampleLocalFuture s sampleWire sampled)

/-- `rnet_session_try_admit`. -/
def tryAdmit (now simTick : ℕ) (sampled : InputSample) (s : Session) :
    Session × List Packet × Admit :=
  if s.phase≠.running then (s,[],.stall .notRunning)
  else if s.gate.profilesPending then (s,[],.stall .notRunning)
  else if s.gate.stateStallSim && s.gate.stateBusy then (s,[],.stall .stateXfer)
  else if simTick≠s.simTick then (s,[],.stall .simMismatch)
  else if s.inputDesync.isSome then (s,[],.stall .desync)
  else
    let sampleWire:=wireTickFromSim simTick s.delay
    let a:=admitSample now s sampleWire sampled
    let b:=refreshConfirmWindow now a.1 simTick sampleWire
    let c:=admitRows now b.1 simTick
    (c.1,a.2++b.2++c.2.1,c.2.2)

def applyPendingDelay : Session :=
  match s.delayPending with
  | some p => if p.effective ≤ s.simTick then { s with delay := p.value,delayPending := none }
    else s
  | none => s

/-- `rnet_session_advance`. -/
def advance : Session := applyPendingDelay { s with simTick := s.simTick+1 }

def requestDelayChange (now newDelay : ℕ) (s : Session) : Session × List Packet :=
  let clamped:=min (max newDelay 2) 20
  if s.phase≠.running then (s,[])
  else if clamped=s.delay ∧ s.delayPending=none then (s,[])
  else
    let effective:=s.simTick+s.delay*2+8
    match s.delayPending with
    | some p =>
      if s.simTick<p.effective ∧ p.value=clamped then emitDelaySync now s clamped p.effective
      else emitDelaySync now { s with delayPending := some ⟨clamped,effective⟩ } clamped effective
    | none =>
      emitDelaySync now { s with delayPending := some ⟨clamped,effective⟩ } clamped effective

/-- Calls on a session. -/
inductive Call
  | pump (now : ℕ) (linkUp : Bool) (pkts : List Packet)
  | tryAdmit (now simTick : ℕ) (sampled : InputSample)
  | advance
  | requestDelayChange (now newDelay : ℕ)
  | setGate (gate : Gate)

/-- A host publish call, with the epoch it was made in. -/
inductive Event
  | published (epoch simTick : ℕ) (resolved : List InputSample)
  deriving DecidableEq

def callInputs : Call → List Packet
  | .pump _ _ pkts => pkts
  | _ => []

def publishEvents (epoch simTick : ℕ) : Admit → List Event
  | .publish resolved => [.published epoch simTick resolved]
  | .stall _ => []

def callAct : Call → Session × List Packet × List Event
  | .pump now linkUp pkts =>
    let r:=sessionPump now linkUp pkts s
    (r.1,r.2,[])
  | .tryAdmit now simTick sampled =>
    let r:=tryAdmit now simTick sampled s
    (r.1,r.2.1,publishEvents s.inputEpoch simTick r.2.2)
  | .advance => (advance s,[],[])
  | .requestDelayChange now newDelay =>
    let r:=requestDelayChange now newDelay s
    (r.1,r.2,[])
  | .setGate gate => ({ s with gate := gate },[],[])

end RecompNet.DelaySync
