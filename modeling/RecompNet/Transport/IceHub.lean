import RecompNet.Session.Whole
import RecompNet.Transport.Lan

/-!
# The ICE hub (`rnet_transport.c`, `rnet_session.c`)

The host of a room keeps one ICE agent per guest seat.
-/
namespace RecompNet.Transport
open Function
open Whole (Session)

/-- A copy given to the agent of another seat. -/
structure Forward where
  src : Fin 8
  dst : Fin 8
  bytes : List UInt8

/-- `RNetTransport` in ICE-hub mode. -/
structure IceHub where
  agent : Fin 8 → Bool
  inbox : Fin 8 → List (List UInt8)
  hubRr : Fin 8
  hubSlotKnown : Fin 8 → Bool
  peerKnown : Bool
  forwarded : List Forward

def startIceHub (ctx : Fin 8 → Bool) : IceHub where
  agent := fun i => i≠0 && ctx i
  inbox := fun _ => []
  hubRr := 0
  hubSlotKnown := fun _ => false
  peerKnown := false
  forwarded := []

namespace IceHub
def firstLong : List (List UInt8) → Option (List UInt8 × List (List UInt8))
  | [] => none
  | d::rest => if d.length<hubMinPacket then firstLong rest else some (d,rest)

def copies (t : IceHub) (i : Fin 8) (d : List UInt8) : List Forward :=
  ((List.finRange 8).filter fun j => j≠0 ∧ j≠i ∧ t.agent j).map fun j => ⟨i,j,d⟩

/-- The loop of `transport_recv_raw` over the seats, in this order. -/
def recvFrom : List (Fin 8) → IceHub → Option (Fin 8 × List UInt8) × IceHub
  | [],t => (none,t)
  | i::seats,t =>
    if i=0 ∨ !t.agent i then recvFrom seats t
    else match firstLong (t.inbox i) with
      | none => recvFrom seats { t with inbox := update t.inbox i [] }
      | some (d,rest) =>
        (some (i,d),{ t with
          inbox := update t.inbox i rest
          hubSlotKnown := update t.hubSlotKnown i true
          peerKnown := true
          hubRr := i+1
          forwarded := t.forwarded++t.copies i d })

/-- `transport_recv_raw`. -/
def recvRaw (t : IceHub) : Option (Fin 8 × List UInt8) × IceHub :=
  recvFrom ((List.finRange 8).map fun k => t.hubRr+k) t

end IceHub

/-- A datagram the session was given. -/
structure Handled where
  agent : Fin 8
  now : ℕ
  bytes : List UInt8
  before : Session
  after : Session

structure HubHost where
  transport : IceHub
  session : Session
  handled : List Handled

namespace HubHost
def pumpRecv (now : ℕ) : ℕ → HubHost → HubHost
  | 0,h => h
  | guard+1,h =>
    match h.transport.recvRaw with
    | (none,t) => { h with transport := t }
    | (some (i,d),t) =>
      let after:=h.session.hear now d
      pumpRecv now guard
        { transport := t
          session := after
          handled := h.handled++[⟨i,now,d,h.session,after⟩] }

/-- A datagram reaches an agent, the session reads its transport, or the application or the rest
of the pump acts on the session. -/
inductive Call
  | arrive (i : Fin 8) (bytes : List UInt8)
  | recv (now guard : ℕ)
  | act (f : Session → Session)

def call (h : HubHost) : Call → HubHost
  | .arrive i bytes =>
    let inbox:=update h.transport.inbox i
      (h.transport.inbox i++[bytes.take maxPacket])
    { h with transport := { h.transport with inbox := inbox } }
  | .recv now guard => h.pumpRecv now guard
  | .act f => { h with session := f h.session }

def run (cfg : Config) (ctx : Fin 8 → Bool) (cs : List Call) : HubHost :=
  cs.foldl call ⟨startIceHub ctx,Whole.freshSession cfg,[]⟩

end HubHost
end RecompNet.Transport
