import RecompNet.Lib.LossyNet
import RecompNet.Session.DelaySync
import RecompNet.Session.Room

/-!
# Startup profiles (`rnet_session.c`, `startup_profiles.h`)

Before the first frame, sessions that called `rnet_session_profiles_begin` exchange offers and
acknowledgments in two reserved RB_SYNC operations.
-/
namespace RecompNet.Profiles
open DelaySync (Phase)

def seatBit (i : ℕ) : BitVec 32 := BitVec.twoPow 32 i

structure ProfileCaps where
  cpuFeatures : BitVec 32 := 0
  backends : BitVec 32 := 0
  profiles : BitVec 32 := 0
  architecture : BitVec 32 := 0
  deriving DecidableEq,Inhabited

/-- `RNetSession.profiles`, zero in a new session. -/
structure Agreement where
  active : Bool := false
  refused : Bool := false
  qualification : BitVec 32 := 0
  occupied : BitVec 32 := 0
  offers : BitVec 32 := 0
  acks : BitVec 32 := 0
  acknowledgedBy : BitVec 32 := 0
  selected : BitVec 32 := 0
  transcript : BitVec 32 := 0
  caps : ℕ → ProfileCaps := fun _ => {}
  lastTx : ℕ := 0
  dirty : Bool := false

/-- RB_SYNC. -/
structure Packet where
  magic : ℕ
  sessionId : ℕ
  localSlot : ℕ
  inputEpoch : ℕ
  epochId : BitVec 32
  mismatchTick : BitVec 32
  loadTick : BitVec 32
  targetTick : BitVec 32
  correctedSlot : BitVec 8
  initiator : ℕ
  flags : ℕ
  deriving DecidableEq

def profileOffer : ℕ := 7
def profileAck : ℕ := 8

structure Session where
  cfg : Config
  phase : Phase
  simTick : ℕ
  inputEpoch : ℕ
  profiles : Agreement

def freshSession (cfg : Config) : Session :=
  { cfg := cfg,phase := .idle,simTick := 0,inputEpoch := 0,profiles := {} }
def profileFold (h word : BitVec 32) : BitVec 32 :=
  (List.range 4).foldl (fun h byte => (h ^^^ ((word >>> (8*byte)) &&& 255))*16777619) h
def seatWords (i : ℕ) (c : ProfileCaps) : List (BitVec 32) :=
  [BitVec.ofNat 32 i,c.cpuFeatures,c.backends,c.profiles,c.architecture]

/-- One seat of the loop in `profiles_choose`; the pair is `common` and `h`. -/
def chooseSeat (occupied : BitVec 32) (caps : ℕ → ProfileCaps) (acc : BitVec 32 × BitVec 32)
    (i : ℕ) : BitVec 32 × BitVec 32 :=
  if occupied &&& seatBit i=0 then acc
  else (acc.1 &&& (caps i).profiles,(seatWords i (caps i)).foldl profileFold acc.2)

variable (qualification : BitVec 32)
def commonAndHash (slotCount : ℕ) (occupied : BitVec 32)
    (caps : ℕ → ProfileCaps) : BitVec 32 × BitVec 32 :=
  (List.range slotCount).foldl (chooseSeat occupied caps)
    (BitVec.allOnes 32,
      [qualification,BitVec.ofNat 32 slotCount,occupied].foldl profileFold 2166136261)

def highestFrom (common : BitVec 32) : ℕ → ℕ
  | 0 => 0
  | i+1 => if common &&& seatBit (i+1)=0 then highestFrom common i else i+1

def decision (slotCount : ℕ) (occupied : BitVec 32)
    (caps : ℕ → ProfileCaps) : BitVec 32 × BitVec 32 :=
  let r:=commonAndHash qualification slotCount occupied caps
  let i:=BitVec.ofNat 32 (highestFrom r.1 31)
  (i,profileFold r.2 i)

variable (s : Session)
def profilesChoose : Session :=
  let p:=s.profiles
  if p.offers≠p.occupied ∨ p.acks≠0 then s
  else if (commonAndHash p.qualification s.cfg.slotCount p.occupied p.caps).1 &&& 1=0 then
    { s with profiles := { p with refused := true } }
  else
    let d:=decision p.qualification s.cfg.slotCount p.occupied p.caps
    { s with profiles := { p with
        selected := d.1,transcript := d.2,acks := seatBit s.cfg.localSlot
        acknowledgedBy := seatBit s.cfg.localSlot,dirty := true } }

def refuse : Session := { s with profiles := { s.profiles with refused := true } }

variable (m : Packet)
def Packet.caps : ProfileCaps :=
  ⟨m.mismatchTick,m.loadTick,m.targetTick,m.correctedSlot.setWidth 32⟩

/-- The offer branch of `profiles_receive`. -/
def receiveOffer : Session :=
  let p:=s.profiles
  let bit:=seatBit m.localSlot
  if m.caps.profiles &&& 1=0 ∨ (p.offers &&& bit≠0 ∧ m.caps≠p.caps m.localSlot) then refuse s
  else profilesChoose { s with profiles := { p with
    caps := Function.update p.caps m.localSlot m.caps,offers := p.offers ||| bit } }

def receiveAck : Session :=
  let p:=s.profiles
  let bit:=seatBit m.localSlot
  if p.offers≠p.occupied then s
  else if m.mismatchTick≠p.selected ∨ m.loadTick≠p.transcript ∨ m.correctedSlot≠0 ∨
      m.targetTick &&& bit=0 ∨ m.targetTick &&& ~~~p.occupied≠0 then refuse s
  else
    { s with profiles := { p with
      dirty := p.dirty || p.acks &&& bit == 0,acks := p.acks ||| bit
      acknowledgedBy := if m.targetTick &&& seatBit s.cfg.localSlot≠0
        then p.acknowledgedBy ||| bit else p.acknowledgedBy } }

def profilesReceive : Session :=
  let p:=s.profiles
  if !p.active || p.refused || s.cfg.slotCount ≤ m.localSlot || m.localSlot == s.cfg.localSlot then s
  else if p.occupied &&& seatBit m.localSlot=0 then s
  else if m.epochId≠p.qualification ∨ m.flags≠0 then refuse s
  else if m.initiator=profileOffer then receiveOffer s m
  else receiveAck s m

def handleDecoded : Session :=
  if m.magic≠s.cfg.protocolMagic ∨ m.sessionId≠s.cfg.sessionId then s
  else if m.inputEpoch≠s.inputEpoch then s
  else if m.initiator=profileOffer ∨ m.initiator=profileAck then profilesReceive s m
  else s

def sendRbSync (epochId mismatchTick loadTick targetTick : BitVec 32)
    (correctedSlot : BitVec 8) (op flags : ℕ) : List Packet :=
  if s.phase≠.running then []
  else [⟨s.cfg.protocolMagic,s.cfg.sessionId,s.cfg.wireId,s.inputEpoch,epochId,mismatchTick,
    loadTick,targetTick,correctedSlot,op,flags⟩]

/-- The two packets of `profiles_drive`. -/
def sendOffer : List Packet :=
  let c:=s.profiles.caps s.cfg.localSlot
  sendRbSync s s.profiles.qualification c.cpuFeatures c.backends c.profiles
    (c.architecture.setWidth 8) profileOffer 0

def sendAck : List Packet :=
  sendRbSync s s.profiles.qualification s.profiles.selected s.profiles.transcript s.profiles.acks 0
    profileAck 0

def elapsed (now t : ℕ) : ℕ := (now+2^64-t)%2^64

def profilesDrive (now : ℕ) (s : Session) : Session × List Packet :=
  let p:=s.profiles
  if !p.active || p.refused || s.phase != .running then (s,[])
  else if !p.dirty ∧ p.acknowledgedBy=p.occupied then (s,[])
  else if !p.dirty ∧ p.lastTx≠0 ∧ elapsed now p.lastTx<100 then (s,[])
  else
    ({ s with profiles := { p with lastTx := if now≠0 then now else 1,dirty := false } },
      sendOffer s++if p.acks≠0 then sendAck s else [])

/-- The loop over the seats in `rnet_session_profiles_begin`. -/
def occupiedBits (cfg : Config) : BitVec 32 := (List.range cfg.slotCount).foldl
    (fun mask i => if cfg.slotOccupied i then mask ||| seatBit i else mask) 0

def profilesBegin (qualification : BitVec 32) (caps : ProfileCaps) : Option Session :=
  if qualification=0 ∨ caps.profiles &&& 1=0 ∨ 255<caps.architecture.toNat ∨
      s.cfg.isObserver ∨ s.profiles.active ∨ !s.cfg.slotOccupied s.cfg.localSlot ∨
      s.phase≠.idle ∨ s.simTick≠0 then none
  else some (profilesChoose { s with profiles := { s.profiles with
    occupied := s.profiles.occupied ||| occupiedBits s.cfg,active := true
    qualification := qualification
    caps := Function.update s.profiles.caps s.cfg.localSlot caps
    offers := seatBit s.cfg.localSlot,dirty := true } })

inductive Status
  | refused
  | pending
  | agreed (profile transcript : BitVec 32)
  deriving DecidableEq

def profilesStatus : Status :=
  if !s.profiles.active || s.profiles.refused then .refused
  else if s.profiles.acks≠s.profiles.occupied then .pending
  else .agreed s.profiles.selected s.profiles.transcript

def profilesPeer (seat : ℕ) : Option ProfileCaps :=
  if s.cfg.slotCount ≤ seat ∨ s.profiles.offers &&& seatBit seat=0 then none
  else some (s.profiles.caps seat)

/-- Calls on one session. -/
inductive Call
  | begin (qualification : BitVec 32) (caps : ProfileCaps)
  | elsewhere (phase : Phase) (simTick inputEpoch : ℕ)
  | sync (epochId mismatchTick loadTick targetTick : BitVec 32) (correctedSlot : BitVec 8)
      (op flags : ℕ)
  /-- `rnet_session_pump`: packets, then `maybe_bootstrap`, `profiles_drive`, and the
  packets of transfer bursts. -/
  | pump (now : ℕ) (early : List Packet) (phase : Phase) (late : List Packet)

def callInputs : Call → List Packet
  | .pump _ early _ late => early++late
  | _ => []

def callAct (c : Call) (s : Session) : Session × List Packet :=
  match c with
  | .begin qualification caps => ((profilesBegin s qualification caps).getD s,[])
  | .elsewhere phase simTick inputEpoch =>
    ({ s with phase := phase,simTick := simTick,inputEpoch := inputEpoch },[])
  | .sync epochId mismatchTick loadTick targetTick correctedSlot op flags =>
    (s,sendRbSync s epochId mismatchTick loadTick targetTick correctedSlot op flags)
  | .pump now early phase late =>
    let r:=profilesDrive now { early.foldl handleDecoded s with phase := phase }
    (late.foldl handleDecoded r.1,r.2)

def nodeSpec {ι : Type} : NodeSpec ι Session Packet Unit Call where
  inputs := callInputs
  act _ c s := ((callAct c s).1,(callAct c s).2,[])

/-- All sessions use one qualification, and no host sends the reserved operations. -/
def Honest {ι : Type} (qualification : BitVec 32) (_ : Net ι Session Packet Unit) (_ : ι) :
    Call → Prop
  | .begin q _ => q=qualification
  | .sync _ _ _ _ _ op _ => op≠profileOffer ∧ op≠profileAck
  | _ => True

instance {ι : Type} (q : BitVec 32) (w : Net ι Session Packet Unit) (i : ι) :
    (c : Call) → Decidable (Honest q w i c)
  | .begin q' _ => inferInstanceAs (Decidable (q'=q))
  | .sync _ _ _ _ _ op _ => inferInstanceAs (Decidable (op≠profileOffer ∧ op≠profileAck))
  | .elsewhere .. => inferInstanceAs (Decidable True)
  | .pump .. => inferInstanceAs (Decidable True)

def Init {ι : Type} (room : Room ι) (w : Net ι Session Packet Unit) : Prop :=
  (∀ i,w.node i=freshSession (room.cfg i)) ∧ w.sent=[]

/-- Networks that honest sessions of a room can reach. -/
def Reachable {ι : Type} [DecidableEq ι] (room : Room ι) (qualification : BitVec 32)
    (w : Net ι Session Packet Unit) : Prop :=
  Net.Reach nodeSpec (Honest qualification) (Init room) w

end RecompNet.Profiles
