import RecompNet.Lib.BoundedQueue
import RecompNet.Protocol.Codec
import RecompNet.Session.TipDelivery
import RecompNet.Session.StateSync
import RecompNet.Session.Profiles

/-!
# A whole session (`rnet_session.c`)

The planes of a session (input, state transfer, startup profiles) put together, with the queues of
rollback control, the mod-set handshake and the liveness of the peers, behind one `handle_decoded`.
-/
namespace RecompNet.Whole
open Function
open Proto (DecodedPacket PktType)
open BoundedQueue

def padBytes (data : List UInt8) : PadBytes :=
  ⟨data.take inputMax++List.replicate (inputMax-(data.take inputMax).length) 0,by
    simp only [List.length_append,List.length_replicate,List.length_take]
    omega⟩

def inputFrame (f : Proto.WireFrame) : DelaySync.WireFrame :=
  ⟨f.tick.toNat,f.data.length,padBytes f.data⟩
def ackOf (ack : UInt32) : Option ℕ := if ack=0xffffffff then none else some ack.toNat

variable (pkt : DecodedPacket)
def inputBody : Option DelaySync.Body :=
  let slot:=pkt.localSlot.toNat
  match pkt.type with
  | .hello => some (.hello slot pkt.slotCount.toNat pkt.delay.toNat pkt.wireVersion.toNat)
  | .ready => some (.ready slot)
  | .start => some (.start pkt.startTick.toNat)
  | .input => some (.input slot pkt.inputEpoch.toNat pkt.ackTick.toNat (pkt.frames.map inputFrame)
      (pkt.acks.map ackOf))
  | .delaySync => some (.delaySync pkt.newDelay.toNat pkt.effectiveTick.toNat)
  | .inputConfirm =>
    some (.inputConfirm slot pkt.inputEpoch.toNat pkt.confirmSimTick.toNat pkt.confirmHash.toNat)
  | .bye => some (.bye slot)
  | _ => none

def stateOp : ℕ → StateSync.StateOp
  | 0 => .save
  | 1 => .load
  | 2 => .sram
  | 3 => .rbKf
  | 4 => .boot
  | 5 => .memcard
  | 6 => .menu
  | code => .other code

def probeKey : StateSync.ProbeKey :=
  ⟨stateOp pkt.stateOp.toNat,pkt.stateSlot.toNat,pkt.stateTotalSize.toNat,pkt.statePayloadCrc.toNat⟩

def maskSeats (mask : UInt8) : Finset ℕ := (Finset.range 8).filter fun i => mask.toNat.testBit i

def stateBody : Option StateSync.Body :=
  match pkt.type with
  | .stateBegin => some (.begin (stateOp pkt.stateOp.toNat) pkt.stateSlot.toNat
      pkt.stateXferId.toNat pkt.stateTotalSize.toNat pkt.statePayloadCrc.toNat)
  | .stateChunk => some (.chunk pkt.stateXferId.toNat pkt.stateOffset.toNat pkt.stateChunk)
  | .stateAck => some (.ack pkt.stateXferId.toNat pkt.stateAckBytes.toNat)
  | .stateProbe => some (.probe (probeKey pkt) (maskSeats pkt.stateProbeReplied))
  | .stateProbeReply => some (.probeReply (probeKey pkt) (pkt.stateProbeMatch≠0))
  | .stateProbeDone => some (.probeDone (probeKey pkt))
  | _ => none

def profilePacket (cfg : Config) (pkt : DecodedPacket) : Profiles.Packet where
  magic := cfg.protocolMagic
  sessionId := cfg.sessionId
  localSlot := pkt.localSlot.toNat
  inputEpoch := pkt.inputEpoch.toNat
  epochId := pkt.rbEpochId.toBitVec
  mismatchTick := pkt.rbMismatchTick.toBitVec
  loadTick := pkt.rbLoadTick.toBitVec
  targetTick := pkt.rbTargetTick.toBitVec
  correctedSlot := pkt.rbCorrectedSlot.toBitVec
  initiator := pkt.rbInitiator.toNat
  flags := pkt.rbFlags.toNat

/-- `RNET_RB_FC_QUEUE`, `RNET_RB_CTRL_QUEUE`, `RNET_SIO_XFER_QUEUE`. -/
def fcQueue : ℕ := 256
def ctrlQueue : ℕ := 32
def sioQueue : ℕ := 32
def epochBefore (a b : UInt32) : Bool := 2^31≤(a-b).toNat

structure RbQueues where
  fc : List DecodedPacket
  sync : List DecodedPacket
  sealRows : List DecodedPacket
  baseline : List DecodedPacket
  post : List DecodedPacket
  resolved : List DecodedPacket

def emptyQueues : RbQueues := ⟨[],[],[],[],[],[]⟩

def sameSync (pkt entry : DecodedPacket) : Bool :=
  entry.localSlot=pkt.localSlot ∧ entry.rbEpochId=pkt.rbEpochId ∧
    entry.rbMismatchTick=pkt.rbMismatchTick ∧ entry.rbLoadTick=pkt.rbLoadTick ∧
    entry.rbTargetTick=pkt.rbTargetTick ∧ entry.rbCorrectedSlot=pkt.rbCorrectedSlot ∧
    entry.rbInitiator=pkt.rbInitiator ∧ entry.rbFlags=pkt.rbFlags

def sameSealRows (pkt entry : DecodedPacket) : Bool :=
  entry.localSlot=pkt.localSlot ∧ entry.rbEpochId=pkt.rbEpochId ∧
    entry.rbMismatchTick=pkt.rbMismatchTick ∧ entry.rbTargetTick=pkt.rbTargetTick ∧
    entry.rbSlot=pkt.rbSlot ∧ entry.rbRowBegin=pkt.rbRowBegin ∧
    entry.rbRows.length=pkt.rbRows.length

def sameBaseline (pkt entry : DecodedPacket) : Bool :=
  entry.localSlot=pkt.localSlot ∧ entry.rbEpochId=pkt.rbEpochId ∧ entry.rbLoadTick=pkt.rbLoadTick

def samePost (pkt entry : DecodedPacket) : Bool :=
  entry.localSlot=pkt.localSlot ∧ entry.rbEpochId=pkt.rbEpochId ∧
    entry.rbTargetTick=pkt.rbTargetTick

def sameSender (pkt entry : DecodedPacket) : Bool := entry.localSlot=pkt.localSlot

variable (q : List DecodedPacket)
def admitNewer : List DecodedPacket :=
  offer ctrlQueue (shed ctrlQueue (fun e => epochBefore e.rbEpochId pkt.rbEpochId) q) pkt

def coalesce (same : DecodedPacket → DecodedPacket → Bool) (pkt : DecodedPacket)
    (q : List DecodedPacket) : List DecodedPacket :=
  (merge (same pkt) (fun _ => pkt) q).getD (admitNewer pkt q)

def noteResolved : List DecodedPacket := (merge (sameSender pkt)
    (fun e => if epochBefore e.rbResolvedThrough pkt.rbResolvedThrough then pkt else e) q).getD
    (offer ctrlQueue q pkt)

/-- The rollback cases of `handle_decoded`, for packets of another sender; `foreign` says that
`rb_peer_slot` names somebody else. -/
def RbQueues.receive (rb : RbQueues) (foreign : Bool) (pkt : DecodedPacket) : RbQueues :=
  match pkt.type with
  | .rbFrameCommit => { rb with fc := push fcQueue rb.fc pkt }
  | .rbSync =>
    if foreign then rb
    else if rb.sync.any (sameSync pkt) then rb
    else { rb with sync := offer ctrlQueue rb.sync pkt }
  | .rbSealRows =>
    if rb.sealRows.any (sameSealRows pkt) then rb
    else { rb with sealRows := admitNewer pkt rb.sealRows }
  | .rbBaseline =>
    if foreign then rb else { rb with baseline := coalesce sameBaseline pkt rb.baseline }
  | .rbPost => if foreign then rb else { rb with post := coalesce samePost pkt rb.post }
  | .rbResolved => { rb with resolved := noteResolved pkt rb.resolved }
  | _ => rb

structure Session where
  input : DelaySync.Session
  state : StateSync.Session
  agreement : Profiles.Agreement
  rb : RbQueues
  rbLastFrom : Option ℕ
  lastPeerRxMs : ℕ
  peerRxMs : ℕ → ℕ
  peerGoneMask : ℕ → Bool
  /-- `modset_text` while `modset_pending`. -/
  modset : Option (List UInt8)
  /-- Status and reason while the seat's bit is set in `modset_ack_pending`. -/
  modsetAck : ℕ → Option (UInt8 × List UInt8)
  sio : List DecodedPacket

namespace Session
def cfg (s : Session) : Config := s.input.cfg

variable (s : Session)
def wireSlot : ℕ := s.input.cfg.wireId
def profileView : Profiles.Session :=
  ⟨s.cfg,s.input.phase,s.input.simTick,s.input.inputEpoch,s.agreement⟩

def gate (s : Session) : DelaySync.Gate where
  profilesPending := s.agreement.active &&
    !(Profiles.profilesStatus s.profileView matches .agreed _ _)
  stateStallSim := s.state.stallSim
  stateBusy := s.state.anyActive || s.state.probe.isSome
  inputSendSuppress := s.input.gate.inputSendSuppress

def withInput (f : DelaySync.Session → DelaySync.Session) : Session :=
  { s with input := f { s.input with gate := s.gate } }
def withState (f : StateSync.Session → StateSync.Session) : Session :=
  { s with state := f { s.state with running := s.input.phase=.running } }

end Session

def freshSession (cfg : Config) : Session where
  input := DelaySync.freshSession cfg
  state := StateSync.freshSession cfg false
  agreement := {}
  rb := emptyQueues
  rbLastFrom := none
  lastPeerRxMs := 0
  peerRxMs := fun _ => 0
  peerGoneMask := fun _ => false
  modset := none
  modsetAck := fun _ => none
  sio := []

namespace Session
variable (s : Session) (now : ℕ)
def onInputPlane (body : DelaySync.Body) : Session :=
  s.withInput fun i => (DelaySync.handleDecoded now i (i.packet body)).1
def onStatePlane (slot : ℕ) (body : StateSync.Body) : Session :=
  s.withState fun p => (StateSync.handleDecoded now p ⟨slot,body⟩).1

variable (pkt : DecodedPacket)

/-- `rb_peer_slot` names somebody else. -/
def foreign : Bool := s.state.rbPeerSlot.any fun r => pkt.localSlot.toNat≠r

def onProfiles : Session :=
  { s with agreement := (Profiles.handleDecoded s.profileView (profilePacket s.cfg pkt)).profiles }

/-- The cases of `handle_decoded` outside the input and the state plane. -/
def onControl : Session :=
  let slot:=pkt.localSlot.toNat
  if pkt.type=.rbSync ∧ (pkt.rbInitiator.toNat=Profiles.profileOffer ∨
      pkt.rbInitiator.toNat=Profiles.profileAck) then s.onProfiles pkt
  else if slot=s.wireSlot then s
  else match pkt.type with
    | .sioMultiXfer => { s with sio := push sioQueue s.sio pkt }
    | .modset => { s with modset := some pkt.modsetText }
    | .modsetAck =>
      if slot < maxSlots then
        { s with modsetAck := update s.modsetAck slot (some (pkt.modsetStatus,pkt.modsetReason)) }
      else s
    | _ => { s with rb := s.rb.receive (s.foreign pkt) pkt }

def noteBye : Session :=
  let slot:=pkt.localSlot.toNat
  if pkt.type=.bye ∧ slot≠s.wireSlot ∧ slot < maxSlots then
    { s with peerGoneMask := update s.peerGoneMask slot true }
  else s

def handleDecoded (pkt : DecodedPacket) : Session :=
  if pkt.type.isRbControl ∧ pkt.inputEpoch.toNat≠s.input.inputEpoch then s
  else if pkt.sessionId.toNat≠s.cfg.sessionId then s
  else match inputBody pkt with
    | some body => (s.noteBye pkt).onInputPlane now body
    | none => match stateBody pkt with
      | some body => s.onStatePlane now pkt.localSlot.toNat body
      | none => s.onControl pkt

def senderSlot : Option ℕ :=
  match pkt.type with
  | .start => some 0
  | .delaySync => none
  | _ => some pkt.localSlot.toNat

/-- The stamps of `pump_recv`. -/
def stamp (pkt : DecodedPacket) : Session :=
  match senderSlot pkt with
  | some slot =>
    if slot < maxSlots ∧ slot≠s.wireSlot then
      { s with
        lastPeerRxMs := now
        peerRxMs := update s.peerRxMs slot (if now≠0 then now else 1) }
    else { s with lastPeerRxMs := now }
  | none => { s with lastPeerRxMs := now }

def accepted (bytes : List UInt8) : Option DecodedPacket :=
  (Proto.decode (bytes.getD · 0) bytes.length (UInt32.ofNat s.cfg.protocolMagic)).filter
    fun pkt => pkt.sessionId.toNat=s.cfg.sessionId

/-- One datagram of `pump_recv`. -/
def hear (bytes : List UInt8) : Session :=
  match s.accepted bytes with
  | some pkt => (s.stamp now pkt).handleDecoded now pkt
  | none => s

/-- `pump_recv`. -/
def hearAll (ds : List (List UInt8)) : Session := ds.foldl (fun s bytes => s.hear now bytes) s

/-- `state_any_in_progress`. -/
def anyInProgress : Bool := s.state.tx.any (fun tx => !tx.ready) ||
    (List.range maxSlots).any fun i => (s.state.rx i).any fun rx => !rx.ready

/-- The bursts of `rnet_session_pump` while a transfer is open. -/
def burst (now : ℕ) : List (List (List UInt8)) → Session → Session
  | [],s => s
  | ds::rest,s =>
    let s:=s.withState fun p => (StateSync.driveSender now p).1
    if !s.anyInProgress then s else burst now rest (s.hearAll now ds)

/-- `profiles_drive`. -/
def driveProfiles : Session :=
  { s with agreement := (Profiles.profilesDrive now s.profileView).1.profiles }

/-- `rnet_session_pump`. -/
def pump (linkUp : Bool) (ds : List (List UInt8)) (bursts : List (List (List UInt8))) : Session :=
  let s:=s.withInput (DelaySync.linked linkUp)
  let s:=s.hearAll now ds
  let s:=s.withInput fun i => (DelaySync.maybeBootstrap now i).1
  let s:=s.driveProfiles now
  let s:=s.withState fun p => (StateSync.driveProbe now p).1
  let s:=if s.state.anyActive then burst now bursts s else s
  let s:=s.withInput fun i => (DelaySync.keepAlive now i).1
  let s:=s.withInput fun i => (DelaySync.sendInputBundle now i).1
  s.withInput fun i => (DelaySync.resendDelaySync now i).1

def hardResync : Session :=
  { s with
    input := { s.input with
      localRing := .empty
      remoteRings := fun _ => .empty
      published := .empty
      peerHistory := fun _ => .empty
      confirmLastSentMs := fun _ => 0
      inputDesync := none
      highestRemoteAck := 0
      remoteContiguousAck := fun _ => none
      peerAckSeen := fun _ => false
      lastInputTip := none
      simTick := 0
      inputEpoch := (s.input.inputEpoch+1)%2^16
      gate := { s.input.gate with inputSendSuppress := true }
      delayPending := none }
    rb := emptyQueues
    rbLastFrom := none }

def primeDelayInputs (now size : ℕ) (bytes : PadBytes) : Session :=
  if size=0 ∨ inputMax<size ∨ s.input.phase≠.running then s
  else
    let tip:=wireTickFromSim s.input.simTick s.input.delay
    let ring:=(List.range' s.input.simTick (tip-s.input.simTick)).foldl
      (fun ring t => ringStore ring ⟨t,size,PadBytes.copy size bytes,true⟩) s.input.localRing
    let i:={ s.input with
      localRing := ring
      lastInputMs := 0
      lastInputTip := none
      gate := { s.gate with inputSendSuppress := false,stateStallSim := false } }
    { s with input := (DelaySync.sendInputBundle now i).1 }

def setInputSendSuppress (suppress : Bool) : Session :=
  { s with input := { s.input with gate := { s.input.gate with inputSendSuppress := suppress } } }

def clearRemoteInputs : Session :=
  { s with input := { s.input with
      remoteRings := fun slot =>
        if slot=s.cfg.localSlot then s.input.remoteRings slot else .empty
      highestRemoteAck := 0
      remoteContiguousAck := fun _ => none
      peerAckSeen := fun _ => false } }

/-- `rnet_session_try_admit`. -/
def tryAdmit (now simTick : ℕ) (sampled : InputSample) : Session × DelaySync.Admit :=
  let r:=DelaySync.tryAdmit now simTick sampled { s.input with gate := s.gate }
  ({ s with input := r.1 },r.2.2)

/-- The `rnet_session_take_rb_*` calls, by queue. -/
inductive RbKind
  | fc | sync | sealRows | baseline | post | resolved
  deriving DecidableEq

def queue (rb : RbQueues) : RbKind → List DecodedPacket
  | .fc => rb.fc
  | .sync => rb.sync
  | .sealRows => rb.sealRows
  | .baseline => rb.baseline
  | .post => rb.post
  | .resolved => rb.resolved

def setQueue (rb : RbQueues) (kind : RbKind) (q : List DecodedPacket) : RbQueues :=
  match kind with
  | .fc => { rb with fc := q }
  | .sync => { rb with sync := q }
  | .sealRows => { rb with sealRows := q }
  | .baseline => { rb with baseline := q }
  | .post => { rb with post := q }
  | .resolved => { rb with resolved := q }

def takeRb (kind : RbKind) : Session × Option DecodedPacket :=
  match queue s.rb kind with
  | [] => (s,none)
  | entry::rest =>
    ({ s with rb := setQueue s.rb kind rest,rbLastFrom := some entry.localSlot.toNat },
      some entry)

/-- The calls on a session. -/
inductive Call
  | startLan
  | pump (now : ℕ) (linkUp : Bool) (ds : List (List UInt8)) (bursts : List (List (List UInt8)))
  | tryAdmit (now simTick : ℕ) (sampled : InputSample)
  | advance
  | requestDelayChange (now newDelay : ℕ)
  | hardResync
  | primeDelayInputs (now size : ℕ) (bytes : PadBytes)
  | setInputSendSuppress (suppress : Bool)
  | prepareLocalTip (now simTick : ℕ) (sampled : InputSample)
  | setSimTick (simTick : ℕ)
  | clearRemoteInputs
  | takeRb (kind : RbKind)
  | takeModset
  | takeModsetAck
  | profilesBegin (qualification : BitVec 32) (caps : Profiles.ProfileCaps)
  | state (c : StateSync.Call) (quiet : StateSync.callInputs c=[])

def call : Call → Session
  | .startLan => s.withInput DelaySync.sessionStartLan
  | .pump now linkUp ds bursts => s.pump now linkUp ds bursts
  | .tryAdmit now simTick sampled => (s.tryAdmit now simTick sampled).1
  | .advance => s.withInput DelaySync.advance
  | .requestDelayChange now newDelay =>
    s.withInput fun i => (DelaySync.requestDelayChange now newDelay i).1
  | .hardResync => s.hardResync
  | .primeDelayInputs now size bytes => s.primeDelayInputs now size bytes
  | .setInputSendSuppress suppress => s.setInputSendSuppress suppress
  | .prepareLocalTip now simTick sampled =>
    s.withInput fun i => (DelaySync.prepareLocalTip now simTick sampled i).1
  | .setSimTick simTick => s.withInput (DelaySync.setSimTick simTick)
  | .clearRemoteInputs => s.clearRemoteInputs
  | .takeRb kind => (s.takeRb kind).1
  | .takeModset => { s with modset := none }
  | .takeModsetAck =>
    match (List.range maxSlots).find? fun slot => (s.modsetAck slot).isSome with
    | some slot =>
      { s with modsetAck := update s.modsetAck slot none,rbLastFrom := some slot }
    | none => s
  | .profilesBegin qualification caps =>
    match Profiles.profilesBegin s.profileView qualification caps with
    | some p => { s with agreement := p.profiles }
    | none => s
  | .state c _ => s.withState fun p => (StateSync.callAct p c).1

end Session
end RecompNet.Whole
