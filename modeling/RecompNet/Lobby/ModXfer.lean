import RecompNet.Lobby.Client

/-!
# Mod transfer between two players (`rnet_lobby_client.c`)

A guest asks the host for a package of the plan; the host packs it and sends two blobs over a link
of their own, a header that describes the package and the package itself.
-/
namespace RecompNet.Lobby
open Xfer (ascii)
variable (path : CText 31)
/-- `mod_path_is_relay`. -/
def isRelay : Bool := path.bytes=ascii "relay"
/-- `mod_path_is_known`. -/
def isKnown : Bool := path.bytes∈[ascii "relay",ascii "host",ascii "srflx",ascii "prflx"]
def relayMaxBytes : ℕ := 5*1024*1024

variable (bytes : ℕ)
def tenthsOfMb : ℕ :=
  let q:=bytes*10/2^20
  let r:=bytes*10%2^20
  if 2^19 < r ∨ (r=2^19 ∧ q%2=1) then q+1 else q

def relayReason (id : ModId) : CText 255 :=
  .print _ ((if id=.empty then ascii "that mod" else id.bytes)++ascii " is " ++
    ascii (toString (tenthsOfMb bytes/10))++ascii "." ++
    ascii (toString (tenthsOfMb bytes%10))++ascii (" MB. This connection could not find a " ++
      "direct route between the two of you, so the file would have to go through the relay " ++
      "server, which is capped at 5 MB. Download the mod from its original source instead."))

def relaySizeAllows (id : ModId) : Option (CText 255) :=
  if isRelay path=false ∨ bytes ≤ relayMaxBytes then none else some (relayReason bytes id)

structure Header where
  id : ModId
  sha : CText 64
  len : UInt32

def headerText (blob : List UInt8) : List UInt8 := cString (blob.take 599)

def readHeader (blob : List UInt8) : Header where
  id := jsonGetStr (headerText blob) "id" .empty
  sha := jsonGetStr (headerText blob) "sha256" .empty
  len := UInt32.ofNat (jsonGetInt (headerText blob) "len" 0%2^32).toNat

def writeHeader (id : ModId) (ver : ModVer) (len : ℕ) (sha : CText 64) : CText 511 :=
  .print _ (ascii "\x7b\"id\":\""++id.bytes++ascii "\",\"ver\":\""++ver.bytes ++
    ascii "\",\"len\":"++ascii (toString (len%2^32))++ascii ",\"sha256\":\""++sha.bytes ++
    ascii "\"\x7d")

structure OpenInput where
  now : UInt64
  opens : Bool

inductive Packed
  | failed (err : List UInt8)
  | packed (blob : Xfer.Blob) (sha : CText 64)

structure PumpEnv where
  link : Xfer.IceXfer.PumpInput
  path : CText 31
  alloc : Bool
  install : List UInt8 → UInt32 → CText 64 → Option (List UInt8)

namespace Client
variable (c : Client)
def modXferReset : Client :=
  { c with
    xfer := { c.xfer with
      link := none
      busy := false
      sending := false
      peer := .empty
      id := .empty
      ver := .empty
      sha := .empty
      expect := 0
      hold := none
      holdHdr := .empty
      pathPriced := false }
    log := .closed::c.log }

def modXferFail (why : List UInt8) : Client :=
  { c with xfer := { c.xfer with
    err := .print _ (if cString why=[] then ascii "transfer failed" else why)
    progress := -2 } }.modXferReset

def sendSignalTo (dest : PlayerId) (type : SigType) (text : List UInt8) : Client :=
  if c.connected=false ∨ c.inLobby=false then c else c.note (.signal dest type text)

variable (inp : OpenInput)
def modXferOpen (peer : List UInt8) : Client × Bool :=
  if inp.opens=false then
    ({ c with xfer := { c.xfer with link := none } }.modXferFail
      (ascii "could not open a direct connection"),false)
  else
    ({ c with xfer := { c.xfer with
        link := some (.open inp.now)
        peer := .print _ peer
        busy := true
        progress := 0
        err := .empty
        lastState := none
        startedMs := inp.now
        connectedMs := 0 } },true)

variable (sender : List UInt8)
def nak (why : List UInt8) : Client := c.sendSignalTo (.print _ sender) .modNak why

def holdPacked (row : ModPkg) (blob : Xfer.Blob) (sha : CText 64) : Client :=
  match c.modXferOpen inp sender with
  | (c,false) => c
  | (c,true) =>
    { c with
      xfer := { c.xfer with
        sending := true
        id := row.id
        ver := row.ver
        holdHdr := writeHeader row.id row.ver blob.bytes.length sha
        hold := some blob
        pathPriced := false }
      log := .serves (.print _ sender) row.id::c.log }

def modXferOnRequest (pack : ModId → ModVer → Packed) (sender text : List UInt8) : Client :=
  if sender=[] then c
  else if c.xfer.busy then
    c.nak sender (ascii "the host is already sending a mod; try again in a moment")
  else
    match cutAt 64 text with
    | none => c
    | some (id,_) =>
      if id=[] ∨ 96 ≤ id.length then c
      else
        match c.caps.mods.find? (·.id.bytes=id) with
        | none => c.nak sender (ascii "that mod is not part of this lobby's plan")
        | some row =>
          if c.canExport=false then c.nak sender (ascii "the host's build cannot send mods")
          else
            match pack row.id row.ver with
            | .failed err => c.nak sender (if err=[] then ascii "could not pack the mod" else err)
            | .packed blob sha => c.holdPacked inp sender row blob sha

variable (x : Xfer.IceXfer)

/-- Whether `rnet_ice_xfer_queue_blob` takes a blob. -/
def canQueue : Bool := !x.failed && decide (x.sendQ.length<Xfer.queueMax)
def hdrBlob (hdr : CText 511) : Xfer.Blob := ⟨hdr.bytes,hdr.fits.trans (by decide)⟩

/-- The queueing half of `mod_xfer_release_held`. -/
def queueHeld (blob : Xfer.Blob) : Client :=
  let c:={ c with xfer := { c.xfer with hold := none,pathPriced := true } }
  if canQueue x=false then c.modXferFail (ascii "could not queue the mod for sending")
  else
    let x:=x.queueBlob (hdrBlob c.xfer.holdHdr)
    if canQueue x=false then
      { c with xfer := { c.xfer with link := some x } }.modXferFail
        (ascii "could not queue the mod for sending")
    else { c with xfer := { c.xfer with link := some (x.queueBlob blob) } }

variable (env : PumpEnv)
def modXferReleaseHeld : Client :=
  match c.xfer.link,c.xfer.hold with
  | some x,some blob =>
    if c.xfer.pathPriced then c
    else if isKnown env.path=false ∧ c.xfer.connectedMs≠0 ∧
        env.link.now-c.xfer.connectedMs<2000 then c
    else
      match relaySizeAllows env.path blob.bytes.length c.xfer.id with
      | some reason =>
        let c:=c.sendSignalTo c.xfer.peer .modNak reason.bytes
        { c with xfer := { c.xfer with progress := -1 } }.modXferReset
      | none =>
        if env.alloc=false then c.modXferFail (ascii "out of memory") else c.queueHeld x blob
  | _,_ => c

variable (blob : List UInt8)

/-- The header branch of `mod_xfer_on_blob`. -/
def takeHeader : Client :=
  let c:=c.note (.header blob)
  let hdr:=readHeader blob
  if c.xfer.id≠.empty ∧ hdr.id≠.empty ∧ hdr.id≠c.xfer.id then
    c.modXferFail (ascii "the host offered a different mod than the one requested")
  else
    let c:={ c with xfer := { c.xfer with
      sha := hdr.sha
      id := if hdr.id=.empty then c.xfer.id else hdr.id
      ver := jsonGetStr (headerText blob) "ver" c.xfer.ver
      expect := hdr.len } }
    if hdr.sha=.empty ∨ hdr.len=0 then
      c.modXferFail (ascii "the host described the mod in a way we cannot read")
    else
      match relaySizeAllows env.path hdr.len.toNat c.xfer.id with
      | some reason => c.modXferFail reason.bytes
      | none => c

/-- The payload branch of `mod_xfer_on_blob`: the hook checks the digest itself. -/
def takePayload : Client :=
  let len:=UInt32.ofNat blob.length
  if len≠c.xfer.expect then
    c.modXferFail (ascii "the mod arrived a different size than the host said")
  else if c.canInstall=false then c.modXferFail (ascii "this build cannot install mods")
  else
    let sha:=c.xfer.sha
    let c:=c.note (.install blob len sha)
    match env.install blob len sha with
    | some err => c.modXferFail (if err=[] then ascii "the mod could not be installed" else err)
    | none =>
      ({ c with xfer := { c.xfer with progress := 100 } }.modXferReset).sendSetReady c.localReady

def modXferOnBlob : Client :=
  if c.xfer.sha=.empty then c.takeHeader env blob else c.takePayload env blob

def takeBlobs (env : PumpEnv) : List (List UInt8) → Client → Client
  | [],c => c
  | blob::rest,c =>
    let c:={ c with xfer := { c.xfer with link := c.xfer.link.map Xfer.IceXfer.takeBlob } }
    let c:=c.modXferOnBlob env blob
    if c.xfer.link.isNone then c else takeBlobs env rest c

def noteState : Client :=
  if c.xfer.lastState=some env.link.state then c
  else { c with xfer := { c.xfer with
    lastState := some env.link.state
    connectedMs := if env.link.state=.connected ∧ c.xfer.connectedMs=0 then env.link.now
      else c.xfer.connectedMs } }

/-- `rnet_ice_xfer_progress`. -/
def linkProgress : ℤ :=
  if x.failed then -2
  else if x.recvActive ∧ 0<x.recvTotal then (x.recvBuf.length*100/x.recvTotal : ℕ)
  else
    match x.sendQ with
    | b::_ => if 0<b.len then (b.unacked*100/b.len : ℕ) else 0
    | [] => if x.ready=[] then -1 else 0

def showProgress : Client :=
  if 0≤linkProgress x then { c with xfer := { c.xfer with progress := linkProgress x } } else c

def finishSending : Client :=
  match c.xfer.link with
  | some x =>
    if c.xfer.sending ∧ c.xfer.pathPriced ∧ x.sendQ=[] then
      { c with xfer := { c.xfer with progress := -1 } }.modXferReset
    else c
  | none => c

def pumpBlobs : Client :=
  let c:=if c.xfer.hold.isSome ∧ c.xfer.connectedMs≠0 then c.modXferReleaseHeld env else c
  match c.xfer.link with
  | none => c
  | some x => (takeBlobs env x.ready (c.showProgress x)).finishSending

def modXferPump : Client :=
  match c.xfer.link with
  | none => c
  | some x =>
    let x:=x.pump env.link
    let c:=Client.noteState { c with xfer := { c.xfer with link := some x } } env
    if x.failed then c.modXferFail x.error
    else if c.xfer.connectedMs=0 ∧ 45000<env.link.now-c.xfer.startedMs then
      c.modXferFail
        (ascii "could not open a direct connection to the other player (no route found)")
    else if c.xfer.connectedMs≠0 ∧ 180000<env.link.now-c.xfer.connectedMs then
      c.modXferFail (ascii "the transfer stopped making progress")
    else c.pumpBlobs env

def modRequest (delivers : Bool) (packageId version : List UInt8) : Client :=
  if c.connected=false ∨ c.inLobby=false ∨ c.isHost ∨ c.hostPlayerId=.empty then c
  else if c.xfer.busy then c
  else if cString packageId=[] then c
  else
    let host:=c.hostPlayerId
    match c.modXferOpen inp host.bytes with
    | (c,false) => c
    | (c,true) =>
      let c:={ c with
        xfer := { c.xfer with
          sending := false
          sha := .empty
          expect := 0
          id := .print _ packageId
          ver := .print _ version }
        log := .asked (.print _ packageId)::c.log }
      if delivers=false then c.modXferFail (ascii "could not reach the host")
      else c.sendSignalTo host .modReq
        (CText.print 191 (cString packageId++64::cString version)).bytes

def modCancel : Client :=
  if c.xfer.busy=false then c
  else { c with xfer := { c.xfer with progress := -1 } }.modXferReset

end Client

/-- Everything that can happen to a client. -/
inductive Call
  | connect
  | disconnect
  | welcome (playerId : PlayerId)
  | created (m : Client.RoomMsg)
  | joined (m : Client.RoomMsg)
  | lobbyUpdate (m : Client.RoomMsg)
  | launch (m : Client.RoomMsg)
  | left
  | leave
  | setHooks (canExport canInstall : Bool)
  | setLaunchBlocked (blocked : Bool)
  | setMatchCaps (caps : MatchCaps)
  | requestStart (caps : Option MatchCaps) (serialises : Bool)
  | modReq (inp : OpenInput) (pack : ModId → ModVer → Packed) (sender text : List UInt8)
  | modNak (text : List UInt8)
  | modRequest (inp : OpenInput) (delivers : Bool) (packageId version : List UInt8)
  | modCancel
  | pump (env : PumpEnv)

def Client.call (c : Client) : Call → Client
  | .connect => { c.disconnect with connected := true }
  | .disconnect => c.disconnect
  | .welcome playerId => { c with playerId }
  | .created m => c.onCreated m
  | .joined m => c.onJoined m
  | .lobbyUpdate m => c.onLobbyUpdate m
  | .launch m => c.onLaunch m
  | .left => c.onLeft
  | .leave => c.leave
  | .setHooks canExport canInstall => { c with canExport,canInstall }
  | .setLaunchBlocked blocked => c.setLaunchBlocked blocked
  | .setMatchCaps caps => c.setMatchCaps caps
  | .requestStart caps serialises => (c.requestStart caps serialises).1
  | .modReq inp pack sender text => c.modXferOnRequest inp pack sender text
  | .modNak text => c.modXferFail (if text=[] then ascii "the host refused" else text)
  | .modRequest inp delivers packageId version => c.modRequest inp delivers packageId version
  | .modCancel => c.modCancel
  | .pump env => c.modXferPump env

def Client.run (c : Client) (calls : List Call) : Client := calls.foldl Client.call c

theorem Client.run_invariant {P : Client → Prop} (hcall : ∀ c a,P c → P (c.call a)) {c : Client}
    (h : P c) (calls : List Call) : P (c.run calls) := by
  induction calls generalizing c with
  | nil => exact h
  | cons a calls ih => exact ih (hcall c a h)

end RecompNet.Lobby
