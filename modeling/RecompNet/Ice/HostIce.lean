import RecompNet.Ice.Agent

/-!
# The waiting-room agents (`rnet_host_ice.c`, `rnet_sig_hold.c`)

The host keeps an answering agent for each guest of its room, a guest an offering one for its host.
-/
namespace RecompNet.HostIce
open Ice
open Xfer (ascii)

/-- `HI_REPORT_REFRESH_MS`, `HI_FAIL_RETRY_MS`, `HI_CONNECT_TIMEOUT_MS`, `HI_HOLD_MAX_AGE_MS`. -/
def reportRefreshMs : ℕ := 45000
def failRetryMs : ℕ := 20000
def connectTimeoutMs : ℕ := 25000
def holdMaxAgeMs : ℕ := 30000

/-- `RNET_SIG_HOLD_PER_PEER`, `RNET_LOBBY_SIG_HOSTICE_BASE`. -/
def holdPerPeer : ℕ := 24
def hostIceBase : ℤ := 130
abbrev Table (β : Type) := Fin 8 → Option β

namespace Table
variable {β : Type} (tab : Table β)
def find (p : β → Bool) : Option (Fin 8) := (List.finRange 8).find? fun i => (tab i).any p
def free : Option (Fin 8) := (List.finRange 8).find? fun i => (tab i).isNone
def set (i : Fin 8) (b : Option β) : Table β := Function.update tab i b

end Table

/-- `RNetSigHoldEntry`. -/
structure HoldEntry where
  sig : Signal
  slot : ℤ

/-- `RNetSigHoldBucket`. -/
structure Bucket where
  playerId : CText 63
  entries : List HoldEntry
  bornMs : ℕ

structure SigHold where
  buckets : Table Bucket
  dropped : ℕ

namespace SigHold
variable (h : SigHold)
def find (pid : List UInt8) : Option (Fin 8) :=
  if pid=[] then none else h.buckets.find fun b => b.playerId.bytes=pid

def append (i : Fin 8) (b : Bucket) (e : HoldEntry) : SigHold × Bool :=
  if holdPerPeer≤b.entries.length then
    ({ h with buckets := h.buckets.set i (some b),dropped := h.dropped+1 },false)
  else ({ h with buckets := h.buckets.set i (some { b with entries := b.entries++[e] }) },true)

/-- `rnet_sig_hold_push`. -/
def push (memory : Bool) (pid : List UInt8) (slot : ℤ) (sig : Signal) (now : ℕ) : SigHold × Bool :=
  if pid=[] then (h,false)
  else
    match (h.find pid).bind fun i => (h.buckets i).map fun b => (i,b) with
    | some (i,b) => h.append i b ⟨sig,slot⟩
    | none =>
      match h.buckets.free with
      | none => ({ h with dropped := h.dropped+1 },false)
      | some i =>
        if !memory then ({ h with dropped := h.dropped+1 },false)
        else h.append i ⟨.print 63 pid,[],now⟩ ⟨sig,slot⟩

def entries (pid : List UInt8) : List HoldEntry :=
  (((h.find pid).bind h.buckets).map Bucket.entries).getD []

/-- `rnet_sig_hold_drop`. -/
def drop (pid : List UInt8) : SigHold :=
  match h.find pid with
  | none => h
  | some i => { h with buckets := h.buckets.set i none }

/-- `rnet_sig_hold_clear`. -/
def clear : SigHold := { h with buckets := fun _ => none }

/-- `rnet_sig_hold_expire`. -/
def expire (now maxAge : ℕ) : SigHold :=
  { h with buckets := fun i => (h.buckets i).filter fun b =>
      !(decide (b.bornMs≤now) && decide (maxAge<now-b.bornMs)) }

end SigHold

inductive Role
  | idle
  | host
  | guest
  deriving DecidableEq

inductive Path
  | direct
  | fail
  deriving DecidableEq

/-- `HiPeer`. -/
structure Peer where
  pid : CText 63
  slot : ℤ
  localSlot : ℤ
  agent : Option Agent
  gen : ℕ
  createdMs : ℕ
  lastReport : Option Path
  reportDueMs : ℕ
  retryAtMs : ℕ
  abandoned : List ℕ

def Peer.bind (p : Peer) (gen : ℕ) : Peer :=
  { p with gen,abandoned := if p.gen=0 then p.abandoned else p.gen::p.abandoned }

/-- A signal that reached a peer with an agent. -/
structure Delivery where
  role : Role
  before : Peer
  sig : Signal
  after : Peer

structure Sent where
  pid : CText 63
  wireType : ℤ
  gen : ℕ
  text : CText 2047

/-- What is given from outside for a whole run: the answers of the library, one for each call
that asks it, the path of a linked agent, and whether agents can be built at all. -/
structure Env where
  lib : ℕ → Lib
  path : ℕ → List UInt8
  available : Bool

/-- `struct RNetHostIce`; `calls` counts the calls that asked the library. -/
structure State where
  role : Role
  peer : Table Peer
  hold : SigHold
  sendSignal : Bool
  sendJson : Bool
  hostPid : CText 63
  rejected : ℕ
  reports : List (Path × List UInt8)
  lastReport : Option Path
  unavailableReported : Bool
  calls : ℕ
  sent : List Sent
  log : List Delivery

/-- `rnet_host_ice_create`. -/
def State.create : State where
  role := .idle
  peer := fun _ => none
  hold := ⟨fun _ => none,0⟩
  sendSignal := false
  sendJson := false
  hostPid := .empty
  rejected := 0
  reports := []
  lastReport := none
  unavailableReported := false
  calls := 0
  sent := []
  log := []

def SignalType.code : SignalType → ℤ
  | .localSdp => 1
  | .remoteSdp => 2
  | .localCandidate => 3
  | .remoteCandidate => 4
  | .gatheringDone => 5
  | .setControlling => 6

namespace State
variable (env : Env) (h : State)
def setPeer (i : Fin 8) (p : Option Peer) : State := { h with peer := h.peer.set i p }

/-- `emit_cb` for what an agent let out since it was `old`. -/
def forward (p : Peer) (old new : Agent) : State :=
  { h with sent := h.sent++(new.log.drop old.log.length).filterMap fun e =>
      match e.2 with
      | .signal type text =>
        if h.sendSignal ∧ p.gen≠0 then some ⟨p.pid,hostIceBase+SignalType.code type,p.gen,text⟩
        else none
      | _ => none }

variable (now : ℕ)
def buildAgent (p : Peer) (controlling : Bool) : State × Peer × Bool :=
  let lib:=env.lib h.calls
  let h:={ h with calls := h.calls+1 }
  match Agent.create ⟨true,controlling,false,false⟩ lib with
  | none => (h,{ p with agent := none },false)
  | some a =>
    let p:={ p with createdMs := now,lastReport := none,reportDueMs := 0,retryAtMs := 0 }
    if controlling && !lib.gathers then (h,{ p with agent := none },false)
    else
      let a':=a.startGathering lib
      (h.forward p a a',{ p with agent := some a' },true)

def nextGen (g : ℕ) : ℕ := if 255<g+1 then 1 else g+1

def feed (p : Peer) (sig : Signal) : State × Peer :=
  match p.agent with
  | none => (h,p)
  | some a =>
    if a.frozen then (h,p)
    else
      let a':=a.pushSignal (env.lib h.calls) sig
      ({ h with calls := h.calls+1 }.forward p a a',{ p with agent := some a' })

def applyTo (p : Peer) (sig : Signal) : State × Peer :=
  let gen:=sig.flag.toNat
  if h.role=.host ∧ sig.type=.remoteSdp then
    if gen=0 then (h,p)
    else if gen=p.gen then (h,p)
    else if p.gen≠0 then
      match h.buildAgent env now p false with
      | (h,p,false) => (h,p)
      | (h,p,true) => h.feed env (p.bind gen) sig
    else h.feed env (p.bind gen) sig
  else if gen≠p.gen then (h,p)
  else h.feed env p sig

def apply (h : State) (i : Fin 8) (sig : Signal) : State :=
  match h.peer i with
  | none => h
  | some p =>
    if p.agent.isNone then h
    else
      let (h,p') := h.applyTo env now p sig
      { h.setPeer i (some p') with log := h.log++[⟨h.role,p,sig,p'⟩] }

variable (pid : List UInt8)
def findPeer : Option (Fin 8) := h.peer.find fun p => p.pid.bytes=pid

def pushedType (wireType : ℤ) : Option SignalType :=
  if wireType=hostIceBase+1 then some .remoteSdp
  else if wireType=hostIceBase+3 then some .remoteCandidate
  else if wireType=hostIceBase+5 then some .gatheringDone
  else none

def pushSignal (memory : Bool) (now : ℕ) (pid : List UInt8) (slot wireType flag : ℤ)
    (text : List UInt8) : State :=
  if h.role=.idle ∨ pid=[] ∨ slot<0 ∨ flag<0 ∨ 255<flag then
    { h with rejected := h.rejected+1 }
  else
    match pushedType wireType with
    | none => { h with rejected := h.rejected+1 }
    | some type =>
      if h.role=.guest ∧ pid≠h.hostPid.bytes then { h with rejected := h.rejected+1 }
      else
        let sig : Signal := ⟨type,UInt8.ofNat flag.toNat,.print 2047 text⟩
        match h.findPeer pid with
        | some i =>
          if (h.peer i).any fun p => p.agent.isSome && p.slot == slot then h.apply env now i sig
          else { h with hold := (h.hold.push memory pid slot sig now).1 }
        | none => { h with hold := (h.hold.push memory pid slot sig now).1 }

def replayHold (i : Fin 8) : State :=
  match h.peer i with
  | none => h
  | some p =>
    let h:=((h.hold.entries p.pid.bytes).filter fun e => e.slot == p.slot).foldl
      (fun h e => apply env now h i e.sig) h
    { h with hold := h.hold.drop p.pid.bytes }

def destroyAll : State := { h with peer := fun _ => none,hold := h.hold.clear }

/-- `RNetHostIcePeer`. -/
structure ViewPeer where
  playerId : Option (List UInt8)
  slot : ℤ

/-- `RNetHostIceView`. -/
structure View where
  active : Bool
  isHost : Bool
  localSlot : ℤ
  peers : Option (List ViewPeer)
  sendSignal : Bool
  sendJson : Bool

def sendReport (path : Path) (ice : List UInt8) : State × Bool :=
  if h.sendJson then
    ({ h with reports := h.reports++[(path,ice)],lastReport := some path },true)
  else (h,false)

def guestReport (p : Peer) (a : Agent) : State × Peer :=
  if a.state=.completed then
    if p.lastReport≠some .direct ∨ p.reportDueMs≤now then
      let path:=env.path h.calls
      let ice:=if path=ascii "host" ∨ path=ascii "srflx" ∨ path=ascii "prflx" then path else []
      match h.sendReport .direct ice with
      | (h,true) =>
        (h,{ p with lastReport := some .direct,reportDueMs := now+reportRefreshMs })
      | (h,false) => (h,p)
    else (h,p)
  else if a.state=.failed ∨ p.createdMs≤now ∧ connectTimeoutMs<now-p.createdMs then
    if p.retryAtMs=0 then
      let (h,p) :=
        if p.lastReport≠some .fail then
          match h.sendReport .fail [] with
          | (h,true) => (h,{ p with lastReport := some .fail })
          | (h,false) => (h,p)
        else (h,p)
      (h,{ p with retryAtMs := now+failRetryMs })
    else if p.retryAtMs≤now then
      match h.buildAgent env now p true with
      | (h,p,true) => (h,p.bind (nextGen p.gen))
      | (h,p,false) => (h,p)
    else (h,p)
  else (h,p)

variable (v : View)
def reconcile (peers : List ViewPeer) (h : State) (i : Fin 8) : State :=
  match h.peer i with
  | none => h
  | some p =>
    match peers.find? fun w => decide (w.playerId=some p.pid.bytes) && decide (0≤w.slot) with
    | none => h.setPeer i none
    | some w =>
      if p.slot≠w.slot ∨ p.localSlot≠v.localSlot then
        let h:=h.setPeer i (some { p with slot := w.slot,localSlot := v.localSlot })
        let h:=h.replayHold env now i
        h.setPeer i ((h.peer i).map fun p => { p with reportDueMs := 0 })
      else h

def newPeer (slot localSlot : ℤ) (gen : ℕ) : Peer where
  pid := .print 63 pid
  slot := slot
  localSlot := localSlot
  agent := none
  gen := gen
  createdMs := 0
  lastReport := none
  reportDueMs := 0
  retryAtMs := 0
  abandoned := []

def addPeer (h : State) (w : ViewPeer) : State :=
  match w.playerId with
  | none => h
  | some pid =>
    if pid=[] ∨ w.slot<0 ∨ (h.findPeer pid).isSome then h
    else if !env.available then
      if h.role=.guest ∧ h.unavailableReported=false then
        match h.sendReport .fail [] with
        | (h,true) => { h with unavailableReported := true }
        | (h,false) => h
      else h
    else
      match h.peer.free with
      | none => h
      | some i =>
        let p:=newPeer pid w.slot v.localSlot (if h.role=.guest then nextGen 0 else 0)
        match h.buildAgent env now p (decide (h.role=.guest)) with
        | (h,_,false) => h
        | (h,p,true) => (h.setPeer i (some p)).replayHold env now i

def drive (h : State) (i : Fin 8) : State :=
  match h.peer i with
  | none => h
  | some p =>
    match p.agent with
    | none => h
    | some a =>
      let a':=a.poll
      let h:=h.forward p a a'
      let a':=if a'.state=.completed then { a' with frozen := true } else a'
      let p:={ p with agent := some a' }
      let (h,p) := if h.role=.guest then h.guestReport env now p a' else (h,p)
      h.setPeer i (some p)

/-- The settings `rnet_host_ice_update` takes over from the view. -/
def adopt (peers : List ViewPeer) : State :=
  let role:=if v.isHost then Role.host else .guest
  let h:=if role≠h.role then
      { h.destroyAll with role := role,lastReport := none,unavailableReported := false }
    else h
  { h with
    sendSignal := v.sendSignal
    sendJson := v.sendJson
    hostPid := if h.role=.guest then .print 63 ((peers.head?.bind ViewPeer.playerId).getD [])
      else .empty }

/-- `rnet_host_ice_update`. -/
def update (v : Option View) (now : ℕ) : State :=
  match v.bind fun v => if v.active then v.peers.map fun peers => (v,peers) else none with
  | none => { h.destroyAll with role := .idle }
  | some (v,peers) =>
    let h:=h.adopt v peers
    let h:=(List.finRange 8).foldl (reconcile env now v peers) h
    let h:=(peers.take 8).foldl (addPeer env now v) h
    let h:=(List.finRange 8).foldl (drive env now) h
    { h with hold := h.hold.expire now holdMaxAgeMs }

def takeCompleted : State :=
  match h.findPeer pid with
  | none => h
  | some i =>
    if (h.peer i).any fun p => p.agent.any fun a => a.state=.completed then h.setPeer i none else h

inductive Callback
  | stateChanged (state : AgentState)
  | candidate (sdp : List UInt8)
  | gatheringDone

def Callback.input : Callback → Input
  | .stateChanged state => .stateChanged state
  | .candidate sdp => .candidate sdp
  | .gatheringDone => .gatheringDone

def callback (i : Fin 8) (cb : Callback) : State :=
  h.setPeer i ((h.peer i).map fun p => { p with agent := p.agent.map fun a => a.step cb.input })

inductive Call
  | update (v : Option View) (now : ℕ)
  | pushSignal (memory : Bool) (now : ℕ) (pid : List UInt8) (slot wireType flag : ℤ)
      (text : List UInt8)
  | takeCompleted (pid : List UInt8)
  | callback (i : Fin 8) (cb : Callback)

def call : Call → State
  | .update v now => h.update env v now
  | .pushSignal memory now pid slot wireType flag text =>
    h.pushSignal env memory now pid slot wireType flag text
  | .takeCompleted pid => h.takeCompleted pid
  | .callback i cb => h.callback i cb

def run (cs : List Call) : State := cs.foldl (call env) create

end State
end RecompNet.HostIce
