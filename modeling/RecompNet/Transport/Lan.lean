import RecompNet.Protocol.Codec
import Mathlib.Data.List.FinRange

/-!
# The LAN transport (`rnet_transport.c`, `rnet_netsim.c`)

One UDP socket in its three modes: a fixed peer, the first peer that is accepted, and the hub that
keeps one address per seat.
-/
namespace RecompNet.Transport
variable {ι : Type}
instance seats_neZero : NeZero 8 := ⟨by decide⟩

/-- `RNET_MAX_PACKET`. -/
def maxPacket : ℕ := 1200

/-- A datagram as `rnet_os_recvfrom` hands it out; the buffer is `maxPacket` bytes everywhere. -/
structure Datagram (ι : Type) where
  src : ι
  bytes : List UInt8
  fits : bytes.length ≤ maxPacket

inductive Arrival (ι : Type)
  | datagram (d : Datagram ι)
  | fault

/-- `RNET_NETSIM_SLOTS`, `RNET_NETSIM_MAX_MS`. -/
def netsimSlots : ℕ := 256
def netsimMaxMs : UInt32 := 2000

/-- The `RNET_SIM_*` variables, or their defaults. -/
structure SimSettings where
  latencyMs : UInt32
  jitterMs : UInt32
  lossPct : UInt32
  seed : UInt32

/-- `NetSimEntry`. -/
structure Held (ι : Type) where
  datagram : Datagram ι
  dueMs : ℕ

structure NetSim (ι : Type) where
  slot : List (Option (Held ι))
  latencyMs : UInt32
  jitterMs : UInt32
  lossPct : UInt32
  rng : UInt32

def netsimCreate (env : SimSettings) : Option (NetSim ι) :=
  if env.latencyMs=0 ∧ env.lossPct=0 then none
  else if netsimMaxMs<env.latencyMs then none
  else some
    { slot := List.replicate netsimSlots none
      latencyMs := env.latencyMs
      jitterMs := if env.latencyMs<env.jitterMs then env.latencyMs else env.jitterMs
      lossPct := if 90<env.lossPct then 90 else env.lossPct
      rng := if env.seed=0 then 0x5eed1234 else env.seed }

namespace NetSim
variable (sim : NetSim ι)
/-- `netsim_rand`. -/
def rand : UInt32 × NetSim ι :=
  let x:=sim.rng
  let x:=x ^^^ (x <<< 13)
  let x:=x ^^^ (x >>> 17)
  let x:=x ^^^ (x <<< 5)
  (x,{ sim with rng := x })

/-- The loss draw of `rnet_netsim_hold`. -/
def loses : Bool × NetSim ι :=
  if 0<sim.lossPct then
    let r:=sim.rand
    (r.1%100<sim.lossPct,r.2)
  else (false,sim)

/-- The delay of `rnet_netsim_hold`; the jitter is at most the latency. -/
def delay : ℕ × NetSim ι :=
  if 0<sim.jitterMs then
    let r:=sim.rand
    (sim.latencyMs.toNat+(r.1%(sim.jitterMs*2+1)).toNat-sim.jitterMs.toNat,r.2)
  else (sim.latencyMs.toNat,sim)

variable (now : ℕ)
/-- `rnet_netsim_hold`. -/
def hold (d : Datagram ι) (sim : NetSim ι) : Bool × NetSim ι :=
  if d.bytes.length=0 ∨ maxPacket<d.bytes.length then (false,sim)
  else
    let l:=sim.loses
    if l.1 then (true,l.2)
    else match l.2.slot.findIdx? (·.isNone) with
      | none => (false,l.2)
      | some i =>
        let r:=l.2.delay
        (true,{ r.2 with slot := r.2.slot.set i (some ⟨d,now+r.1⟩) })

/-- One slot of the scan of `rnet_netsim_due`. -/
def better (best : Option (Held ι × ℕ)) (entry : Option (Held ι) × ℕ) : Option (Held ι × ℕ) :=
  match entry.1 with
  | none => best
  | some h =>
    if now<h.dueMs then best
    else match best with
      | none => some (h,entry.2)
      | some b => if h.dueMs<b.1.dueMs then some (h,entry.2) else some b

/-- `rnet_netsim_due`. -/
def due (sim : NetSim ι) : Option (Datagram ι) × NetSim ι :=
  match sim.slot.zipIdx.foldl (better now) none with
  | none => (none,sim)
  | some b => (some b.1.datagram,{ sim with slot := sim.slot.set b.2 none })

end NetSim

/-- `RNetTransport` on a UDP socket. -/
structure Lan (ι : Type) where
  hubMode : Bool
  acceptFirstPeer : Bool
  peerKnown : Bool
  peer : Option ι
  pendingPeer : Option (Datagram ι)
  hubSlot : Fin 8 → Option ι
  netsim : Option (NetSim ι)
  inbox : List (Arrival ι)
  taken : List (Datagram ι)
  learned : List (Option (Fin 8) × Datagram ι)
  sent : List (ι × List UInt8)

inductive Mode (ι : Type)
  | fixed (peer : ι)
  | acceptFirst
  | hub

/-- `rnet_transport_start_lan` with and without a peer, `rnet_transport_start_lan_hub`. -/
def start (env : SimSettings) (mode : Mode ι) : Lan ι where
  hubMode := mode matches .hub
  acceptFirstPeer := mode matches .acceptFirst
  peerKnown := mode matches .fixed _
  peer := match mode with
    | .fixed a => some a
    | _ => none
  pendingPeer := none
  hubSlot := fun _ => none
  netsim := netsimCreate env
  inbox := []
  taken := []
  learned := []
  sent := []

/-- `RNET_HUB_MIN_PACKET`, `RNET_HUB_HEADER_LEN`. -/
def hubMinPacket : ℕ := 14
def hubHeaderLen : ℕ := 10

def hubPacketLocalSlot (bytes : List UInt8) : Option ℕ :=
  if bytes.length<hubMinPacket then none
  else
    let pktType:=(bytes.getD 4 0).toNat+256*(bytes.getD 5 0).toNat
    if pktType=Proto.PktType.start.code ∨ pktType=Proto.PktType.delaySync.code then none
    else some (bytes.getD hubHeaderLen 0).toNat

def hubSeat (bytes : List UInt8) : Option (Fin 8) :=
  match hubPacketLocalSlot bytes with
  | some slot => if h : slot<8 then some ⟨slot,h⟩ else none
  | none => none

namespace Lan
def hubForward [DecidableEq ι] (t : Lan ι) (d : Datagram ι) : List (ι × List UInt8) :=
  (List.finRange 8).filterMap fun i => match t.hubSlot i with
    | some a => if a=d.src then none else some (a,d.bytes)
    | none => none

variable (t : Lan ι) (d : Datagram ι)

/-- The learning half of `hub_learn_and_forward`. -/
def hubLearn : Lan ι :=
  match hubSeat d.bytes with
  | some i => { t with
      hubSlot := Function.update t.hubSlot i (some d.src)
      peerKnown := true
      learned := t.learned++[(some i,d)] }
  | none => t

def hubLearnAndForward [DecidableEq ι] (t : Lan ι) (d : Datagram ι) : Lan ι :=
  if d.bytes.length<hubMinPacket then t
  else { t.hubLearn d with sent := t.sent++(t.hubLearn d).hubForward d }

inductive Raw (ι : Type)
  | empty
  | fault
  | got (d : Datagram ι)

def take (rest : List (Arrival ι)) : Lan ι :=
  { t with inbox := rest,taken := t.taken++[d] }

/-- The loop of `transport_recv_raw`: a stranger's datagram is dropped once there is a peer. -/
def recvFrom [DecidableEq ι] : List (Arrival ι) → Lan ι → Raw ι × Lan ι
  | [],t => (.empty,{ t with inbox := [] })
  | .fault::rest,t => (.fault,{ t with inbox := rest })
  | .datagram d::rest,t =>
    if t.hubMode then (.got d,(t.take d rest).hubLearnAndForward d)
    else if !t.peerKnown ∨ t.peer=some d.src then (.got d,t.take d rest)
    else recvFrom rest (t.take d rest)

/-- `transport_recv_raw`. -/
def recvRaw [DecidableEq ι] (t : Lan ι) : Raw ι × Lan ι := recvFrom t.inbox t

/-- `transport_note_peer`. -/
def notePeer : Lan ι :=
  if t.hubMode then t
  else if t.acceptFirstPeer ∧ !t.peerKnown then { t with pendingPeer := some d }
  else t

inductive Drained (ι : Type)
  | dry
  | undelayed (d : Datagram ι)

/-- The loop of `rnet_transport_recv`; each round takes at least one arrival. -/
def drain [DecidableEq ι] (now : ℕ) : ℕ → NetSim ι → Lan ι → Drained ι × NetSim ι × Lan ι
  | 0,sim,t => (.dry,sim,t)
  | fuel+1,sim,t =>
    match t.recvRaw with
    | (.empty,t) => (.dry,sim,t)
    | (.fault,t) => (.dry,sim,t)
    | (.got d,t) =>
      if d.bytes=[] then (.dry,sim,t)
      else match sim.hold now d with
        | (true,sim) => drain now fuel sim t
        | (false,sim) => (.undelayed d,sim,t)

/-- `rnet_transport_recv`. -/
def recv [DecidableEq ι] (now : ℕ) (t : Lan ι) : Option (Datagram ι) × Lan ι :=
  match t.netsim with
  | none => match t.recvRaw with
    | (.got d,t) => if d.bytes=[] then (none,t) else (some d,t.notePeer d)
    | (_,t) => (none,t)
  | some sim => match drain now (t.inbox.length+1) sim t with
    | (.undelayed d,sim,t) => (some d,{ t with netsim := some sim }.notePeer d)
    | (.dry,sim,t) => match sim.due now with
      | (some d,sim) => (some d,{ t with netsim := some sim }.notePeer d)
      | (none,sim) => (none,{ t with netsim := some sim })

def acceptPendingPeer : Lan ι :=
  if t.hubMode ∨ !t.acceptFirstPeer ∨ t.peerKnown then t
  else match t.pendingPeer with
    | none => t
    | some d => { t with
        peer := some d.src
        peerKnown := true
        pendingPeer := none
        learned := t.learned++[(none,d)] }

/-- Where `rnet_transport_send` sends to: never to the host's own seat. -/
def targets : List ι :=
  if t.hubMode then (List.finRange 8).filterMap fun i => if i=0 then none else t.hubSlot i
  else if t.peerKnown then t.peer.toList
  else []

/-- `rnet_transport_send`. -/
def send (bytes : List UInt8) : Lan ι :=
  if bytes=[] then t else { t with sent := t.sent++t.targets.map (·,bytes) }

end Lan

/-- What a session expects of a datagram. -/
structure Link where
  magic : UInt32
  sessionId : UInt32

/-- The test of `pump_recv`: magic, checksum, layout and session id. -/
def Link.accepts (k : Link) (bytes : List UInt8) : Bool :=
  match Proto.decode (bytes.getD · 0) bytes.length k.magic with
  | some pkt => pkt.sessionId=k.sessionId
  | none => false

namespace Lan
def pumpRecv [DecidableEq ι] (k : Link) : List ℕ → Lan ι → Lan ι
  | [],t => t
  | now::nows,t => match t.recv now with
    | (none,t) => t
    | (some d,t) => pumpRecv k nows (if k.accepts d.bytes then t.acceptPendingPeer else t)

inductive Call (ι : Type)
  | arrive (a : Arrival ι)
  | pump (nows : List ℕ)
  | send (bytes : List UInt8)

def step [DecidableEq ι] (k : Link) (t : Lan ι) : Call ι → Lan ι
  | .arrive a => { t with inbox := t.inbox++[a] }
  | .pump nows => t.pumpRecv k nows
  | .send bytes => t.send bytes

def run [DecidableEq ι] (k : Link) (env : SimSettings) (mode : Mode ι) (cs : List (Call ι)) :
    Lan ι := cs.foldl (step k) (start env mode)

end Lan
end RecompNet.Transport
