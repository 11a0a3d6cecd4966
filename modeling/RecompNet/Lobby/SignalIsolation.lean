import RecompNet.Ice.HostIce
import RecompNet.Lobby.ModXfer

/-!
# Signals of other players during a mod transfer (`rnet_lobby_client.c`)

Of all the signals a third player can send, a refusal alone reaches the transfer: the client does
not look at who sent it.
-/
namespace RecompNet.Lobby
open Client
open Xfer (ascii)

/-- `RNET_LOBBY_SIG_*`. -/
def sigRttPing : ℤ := 100
def sigRttPong : ℤ := 101
def sigRttReport : ℤ := 102
def sigModReq : ℤ := 110
def sigModNak : ℤ := 111
def sigModIceBase : ℤ := 120

/-- The op `signal` as it is read. -/
structure LobbySignal where
  sender : PlayerId
  type : ℤ
  flag : ℤ
  text : CText 2047

def modIceTypeForPush (emitted : ℤ) : Ice.SignalType :=
  if emitted=1 ∨ emitted=2 then .remoteSdp
  else if emitted=3 ∨ emitted=4 then .remoteCandidate
  else if emitted=5 then .gatheringDone
  else .setControlling

/-- What the signals of a lobby reach: the client, what the agent of the open transfer was
pushed, the signals held for an agent to come, and those for the round trip times, the
waiting-room agents and the session's queue, none of which a transfer reads. -/
structure SignalDesk where
  client : Client
  agent : List Ice.Signal
  hold : HostIce.SigHold
  elsewhere : List LobbySignal

/-- The clock, the allocator, and what a request may need. -/
structure SignalInput where
  now : ℕ
  memory : Bool
  inp : OpenInput
  pack : ModId → ModVer → Packed

namespace SignalDesk
variable (d : SignalDesk)
def onModIce (env : SignalInput) (s : LobbySignal) : SignalDesk :=
  let sig : Ice.Signal :=
    ⟨modIceTypeForPush (s.type-sigModIceBase),UInt8.ofNat (s.flag%256).toNat,s.text⟩
  if d.client.xfer.link.isSome ∧ s.sender≠.empty ∧ s.sender=d.client.xfer.peer then
    { d with agent := d.agent++[sig] }
  else if s.sender≠.empty then
    { d with hold := (d.hold.push env.memory s.sender.bytes (-1) sig env.now).1 }
  else d

/-- The branch `signal` of `handle_server_json`. -/
def onSignal (env : SignalInput) (s : LobbySignal) : SignalDesk :=
  if s.type=sigRttPing ∨ s.type=sigRttPong ∨ s.type=sigRttReport then
    { d with elsewhere := s::d.elsewhere }
  else if s.type=sigModReq then
    { d with client := d.client.modXferOnRequest env.inp env.pack s.sender.bytes s.text.bytes }
  else if s.type=sigModNak then
    let why:=if s.text.bytes=[] then ascii "the host refused" else s.text.bytes
    { d with client := d.client.modXferFail why }
  else if HostIce.hostIceBase<s.type ∧ s.type≤HostIce.hostIceBase+6 then
    { d with elsewhere := s::d.elsewhere }
  else if sigModIceBase<s.type ∧ s.type ≤ sigModIceBase+6 then d.onModIce env s
  else { d with elsewhere := s::d.elsewhere }

def onSignals (signals : List (SignalInput × LobbySignal)) : SignalDesk :=
  signals.foldl (fun d s => d.onSignal s.1 s.2) d

end SignalDesk

namespace Client
variable {c e : Client}
def quiet (c : Client) : Client := { c with log := [] }
def Alike (c e : Client) : Prop := c.quiet=e.quiet

theorem Alike.log (h : Alike c e) : ∃ l,e={ c with log := l } := by
  refine ⟨e.log,?_⟩
  have h : e.quiet=c.quiet := h.symm
  calc e={ e.quiet with log := e.log } := rfl
    _ = { c.quiet with log := e.log } := by rw [h]

theorem alike_note (c : Client) (ev : Event) : Alike c (c.note ev) := rfl

theorem alike_sendSignalTo (c : Client) (dest : PlayerId) (type : SigType) (text : List UInt8) :
    Alike c (c.sendSignalTo dest type text) := by
  unfold sendSignalTo
  split
  · rfl
  · exact alike_note c _

section
variable (h : Alike c e)
include h
theorem Alike.sendSignalTo (dest : PlayerId) (type : SigType) (text : List UInt8) :
    Alike (c.sendSignalTo dest type text) (e.sendSignalTo dest type text) :=
  ((alike_sendSignalTo c dest type text).symm.trans h).trans (alike_sendSignalTo e dest type text)

theorem Alike.modXferFail (why : List UInt8) : Alike (c.modXferFail why) (e.modXferFail why) := by
  obtain ⟨l,rfl⟩ := h.log
  rfl

variable (inp : OpenInput)
theorem Alike.holdPacked (sender : List UInt8) (row : ModPkg) (blob : Xfer.Blob) (sha : CText 64) :
    Alike (c.holdPacked inp sender row blob sha) (e.holdPacked inp sender row blob sha) := by
  obtain ⟨l,rfl⟩ := h.log
  unfold holdPacked modXferOpen
  dsimp only
  by_cases hopens : inp.opens=false
  · rw [if_pos hopens,if_pos hopens]
    rfl
  · rw [if_neg hopens,if_neg hopens]
    rfl

theorem Alike.modXferOnRequest (pack : ModId → ModVer → Packed) (sender text : List UInt8) :
    Alike (c.modXferOnRequest inp pack sender text) (e.modXferOnRequest inp pack sender text) := by
  obtain ⟨l,rfl⟩ := h.log
  have hnak (why : List UInt8) := h.sendSignalTo (.print _ sender) .modNak why
  have hhold:=h.holdPacked inp sender
  unfold modXferOnRequest
  dsimp only
  repeat' split
  all_goals first | rfl | exact hnak _ | exact hhold _ _ _

variable (env : PumpEnv)
theorem Alike.modXferReleaseHeld : Alike (c.modXferReleaseHeld env) (e.modXferReleaseHeld env) := by
  obtain ⟨l,rfl⟩ := h.log
  unfold Client.modXferReleaseHeld Client.queueHeld Client.sendSignalTo
  dsimp only
  repeat' split
  all_goals rfl

theorem Alike.modXferOnBlob (blob : List UInt8) :
    Alike (c.modXferOnBlob env blob) (e.modXferOnBlob env blob) := by
  obtain ⟨l,rfl⟩ := h.log
  unfold modXferOnBlob takeHeader takePayload note
  dsimp only
  repeat' split
  all_goals rfl

theorem Alike.link : c.xfer.link=e.xfer.link := by
  obtain ⟨l,rfl⟩ := h.log
  rfl

theorem Alike.takeBlobs (blobs : List (List UInt8)) :
    Alike (takeBlobs env blobs c) (takeBlobs env blobs e) := by
  induction blobs generalizing c e with
  | nil => exact h
  | cons blob blobs ih =>
    have htake : Alike { c with xfer := { c.xfer with link := c.xfer.link.map Xfer.IceXfer.takeBlob } }
        { e with xfer := { e.xfer with link := e.xfer.link.map Xfer.IceXfer.takeBlob } } := by
      obtain ⟨l,rfl⟩ := h.log
      rfl
    have hblob:=htake.modXferOnBlob env blob
    unfold takeBlobs
    dsimp only
    rw [hblob.link]
    split
    · exact hblob
    · exact ih hblob

theorem Alike.finishSending : Alike c.finishSending e.finishSending := by
  obtain ⟨l,rfl⟩ := h.log
  unfold finishSending
  dsimp only
  repeat' split
  all_goals rfl

theorem Alike.pumpBlobs : Alike (c.pumpBlobs env) (e.pumpBlobs env) := by
  have hheld : Alike
      (if c.xfer.hold.isSome ∧ c.xfer.connectedMs≠0 then c.modXferReleaseHeld env else c)
      (if e.xfer.hold.isSome ∧ e.xfer.connectedMs≠0 then e.modXferReleaseHeld env
        else e) := by
    have hrelease:=h.modXferReleaseHeld env
    obtain ⟨l,rfl⟩ := h.log
    dsimp only
    split
    · exact hrelease
    · exact h
  unfold Client.pumpBlobs
  dsimp only
  rw [hheld.link]
  split
  · exact hheld
  next x hx =>
  refine Alike.finishSending (Alike.takeBlobs ?_ env _)
  obtain ⟨l,heq⟩ := hheld.log
  rw [heq]
  unfold showProgress
  split <;> rfl

theorem Alike.modXferPump : Alike (c.modXferPump env) (e.modXferPump env) := by
  obtain ⟨l,rfl⟩ := h.log
  unfold modXferPump
  dsimp only
  split
  · exact h
  next x hx =>
  have hstate : Alike
      (noteState { c with xfer := { c.xfer with link := some (x.pump env.link) } } env)
      (noteState { { c with log := l } with
        xfer := { c.xfer with link := some (x.pump env.link) } } env) := by
    unfold noteState
    dsimp only
    split <;> rfl
  obtain ⟨k,heq⟩ := hstate.log
  have hblobs:=hstate.pumpBlobs env
  rw [heq] at hblobs ⊢
  dsimp only
  repeat' split
  all_goals first | rfl | exact hblobs

theorem Alike.modRequest (delivers : Bool) (packageId version : List UInt8) :
    Alike (c.modRequest inp delivers packageId version)
      (e.modRequest inp delivers packageId version) := by
  obtain ⟨l,rfl⟩ := h.log
  unfold Client.modRequest Client.modXferOpen Client.sendSignalTo
  dsimp only
  by_cases hopens : inp.opens=false
  · simp only [if_pos hopens]
    repeat' split
    all_goals rfl
  simp only [if_neg hopens]
  repeat' split
  all_goals rfl

theorem Alike.call (a : Call) : Alike (c.call a) (e.call a) := by
  cases a with
  | modReq inp pack sender text => exact h.modXferOnRequest inp pack sender text
  | modNak text => exact h.modXferFail _
  | modRequest inp delivers packageId version =>
    exact h.modRequest inp delivers packageId version
  | pump env => exact h.modXferPump env
  | connect | disconnect | welcome | joined | launch | left | leave | setHooks =>
    obtain ⟨l,rfl⟩ := h.log
    rfl
  | created m =>
    obtain ⟨l,rfl⟩ := h.log
    change Alike (c.onCreated m) ({ c with log := l }.onCreated m)
    unfold onCreated
    dsimp only
    repeat' split
    all_goals rfl
  | lobbyUpdate m =>
    obtain ⟨l,rfl⟩ := h.log
    change Alike (c.onLobbyUpdate m) ({ c with log := l }.onLobbyUpdate m)
    unfold onLobbyUpdate ingestRoom
    dsimp only
    split <;> rfl
  | setLaunchBlocked blocked =>
    obtain ⟨l,rfl⟩ := h.log
    change Alike (c.setLaunchBlocked blocked) ({ c with log := l }.setLaunchBlocked blocked)
    unfold setLaunchBlocked
    dsimp only
    repeat' split
    all_goals rfl
  | setMatchCaps caps =>
    obtain ⟨l,rfl⟩ := h.log
    change Alike (c.setMatchCaps caps) ({ c with log := l }.setMatchCaps caps)
    unfold setMatchCaps
    dsimp only
    split <;> rfl
  | requestStart caps serialises =>
    obtain ⟨l,rfl⟩ := h.log
    change Alike (c.requestStart caps serialises).1 ({ c with log := l }.requestStart caps serialises).1
    unfold requestStart
    have hmods : ({ c with log := l } : Client).matchBlockedByMods=c.matchBlockedByMods := rfl
    have hfiles : ({ c with log := l } : Client).matchBlockedByFiles=c.matchBlockedByFiles := rfl
    have hready : ({ c with log := l } : Client).matchBlockedByUnready=c.matchBlockedByUnready :=
      rfl
    rw [hmods,hfiles,hready]
    dsimp only
    repeat' split
    all_goals rfl
  | modCancel =>
    obtain ⟨l,rfl⟩ := h.log
    change Alike c.modCancel ({ c with log := l } : Client).modCancel
    unfold modCancel
    dsimp only
    split <;> rfl

theorem Alike.run (calls : List Call) : Alike (c.run calls) (e.run calls) := by
  induction calls generalizing c e with
  | nil => exact h
  | cons a calls ih => exact ih (h.call a)

end
end Client

namespace SignalDesk
variable {d : SignalDesk}

structure Undisturbed (d p : SignalDesk) : Prop where
  alike : d.client.Alike p.client
  agent : p.agent=d.agent

theorem Undisturbed.xfer {d p : SignalDesk} (h : d.Undisturbed p) :
    p.client.xfer=d.client.xfer := by
  obtain ⟨l,heq⟩ := h.alike.log
  rw [heq]

theorem onSignal_undisturbed (hbusy : d.client.xfer.busy) (env : SignalInput)
    {s : LobbySignal} (hother : s.sender≠d.client.xfer.peer) (hnak : s.type≠sigModNak) :
    d.Undisturbed (d.onSignal env s) := by
  have hself : d.client.Alike d.client := rfl
  unfold onSignal
  rw [if_neg hnak]
  split
  · exact ⟨hself,rfl⟩
  split
  · refine ⟨?_,rfl⟩
    unfold modXferOnRequest
    dsimp only
    rw [if_pos hbusy]
    split
    · rfl
    · exact alike_sendSignalTo _ _ _ _
  · split
    · exact ⟨hself,rfl⟩
    split
    · unfold onModIce
      rw [if_neg fun h => hother h.2.2]
      split <;> exact ⟨hself,rfl⟩
    · exact ⟨hself,rfl⟩

/-- Signals of other peers, refusals apart, leave a running transfer as it is. -/
theorem transfer_undisturbed (d : SignalDesk) (hbusy : d.client.xfer.busy=true)
    (signals : List (SignalInput × LobbySignal))
    (hothers : ∀ s∈signals,s.2.sender≠d.client.xfer.peer ∧ s.2.type≠sigModNak) :
    (d.onSignals signals).client.xfer=d.client.xfer ∧ (d.onSignals signals).agent=d.agent ∧
      ∀ calls,((d.onSignals signals).client.run calls).xfer=(d.client.run calls).xfer ∧
        ((d.onSignals signals).client.run calls).quiet=(d.client.run calls).quiet := by
  have hrun : d.Undisturbed (d.onSignals signals) := by
    unfold onSignals
    induction signals generalizing d with
    | nil => exact ⟨rfl,rfl⟩
    | cons s signals ih =>
      have hs:=hothers s List.mem_cons_self
      have hone:=onSignal_undisturbed hbusy s.1 hs.1 hs.2
      have hrest:=ih (d.onSignal s.1 s.2) (by rw [hone.xfer]; exact hbusy) (by
        intro r hr
        rw [hone.xfer]
        exact hothers r (List.mem_cons_of_mem s hr))
      exact ⟨hone.alike.trans hrest.alike,hrest.agent.trans hone.agent⟩
  refine ⟨hrun.xfer,hrun.agent,fun calls => ?_⟩
  have hcalls:=hrun.alike.run calls
  have hxfer:=congrArg xfer hcalls
  exact ⟨hxfer.symm,hcalls.symm⟩

def fetching : SignalDesk where
  client :=
    { Client.fresh (text "me") with
      connected := true
      inLobby := true
      hostPlayerId := text "h"
      xfer := { ModXfer.zero with
        link := some (.open 0)
        busy := true
        peer := text "h"
        id := text "mod" } }
  agent := []
  hold := ⟨fun _ => none,0⟩
  elsewhere := []

def intruding (type : ℤ) (said : String) : SignalInput × LobbySignal :=
  (⟨0,true,⟨0,true⟩,fun _ _ => .failed []⟩,⟨text "x",type,0,text said⟩)

theorem transfer_undisturbed_by_request :
    (fetching.onSignals [intruding sigModReq "mod@1",intruding 121 "sdp"]).client.xfer =
      fetching.client.xfer :=
  (transfer_undisturbed fetching rfl [intruding sigModReq "mod@1",intruding 121 "sdp"]
    (by decide)).1

theorem refusal_of_third_player_ends_transfer :
    fetching.client.xfer.busy=true ∧ fetching.client.xfer.peer=text "h" ∧
      (fetching.onSignals [intruding sigModNak "no"]).client.xfer.busy=false ∧
      (fetching.onSignals [intruding sigModNak "no"]).client.xfer.progress=-2 ∧
      (fetching.onSignals [intruding sigModNak "no"]).client.xfer.err=text "no" ∧
      (fetching.onSignals [intruding sigModNak "no"]).client.xfer.id=.empty ∧
      (fetching.onSignals [intruding sigModNak "no"]).client.xfer.link.isNone=true := by
  decide

end SignalDesk
end RecompNet.Lobby
