import RecompNet.Lib.CText
import RecompNet.Lib.Trace
import RecompNet.Lobby.IceXfer

/-!
# The lobby client (`rnet_lobby_client.c`)

The part of the client that decides whether a match may start and the state of its mod transfer.
-/
namespace RecompNet.Lobby
open Xfer (ascii)

def text {n : ℕ} (s : String) : CText n := .print n (ascii s)

/-- The escapes of `json_get_str`; any other escaped char stands for itself. -/
def unescape (c : UInt8) : UInt8 :=
  if c=110 then 10 else if c=114 then 13 else if c=116 then 9 else c

/-- The copy loop of `json_get_str` into `room` chars. -/
def readString : ℕ → List UInt8 → List UInt8
  | 0,_ => []
  | _+1,[] => []
  | _+1,[c] => if c=34 then [] else [c]
  | room+1,c::e::rest =>
    if c=34 then []
    else if c=92 then unescape e::readString room rest
    else c::readString room (e::rest)

def valueOf (json : List UInt8) (key : String) : Option (Option (List UInt8)) :=
  (afterFirst (34::(ascii key++[34])) json).map fun rest => (cutAt 58 rest).map (·.2)

def jsonGetStr {n : ℕ} (json : List UInt8) (key : String) (old : CText n) : CText n :=
  match valueOf json key with
  | none => .empty
  | some none => old
  | some (some value) =>
    match value.dropWhile isSpace with
    | 34::text => .print n (readString n text)
    | _ => old

def jsonGetInt (json : List UInt8) (key : String) (dflt : ℤ) : ℤ :=
  match valueOf json key with
  | some (some value) => (strtol value).bmod (2^32)
  | _ => dflt

/-- RNET_LOBBY_ID_LEN, RNET_LOBBY_NAME_LEN, RNET_LOBBY_MOD_ID_LEN, ..., each less the terminator. -/
abbrev PlayerId := CText 39
abbrev DisplayName := CText 63
abbrev ModId := CText 95
abbrev ModVer := CText 31
abbrev ModFeats := CText 191
/-- `RNET_LOBBY_MAX_MODS`. -/
def maxMods : ℕ := 16

/-- `RNetLobbyModPkg`: a row of a plan or of an offer. -/
structure ModPkg where
  id : ModId
  ver : ModVer
  feats : ModFeats
  nf : ModFeats
  deriving DecidableEq

/-- `RNetLobbyMatchCaps`, as far as it names a plan. -/
structure MatchCaps where
  valid : Bool
  mods : List ModPkg
  fits : mods.length ≤ maxMods
  deriving DecidableEq

def MatchCaps.clear : MatchCaps := ⟨false,[],by decide⟩

/-- `RNetLobbyMember`. -/
structure Member where
  playerId : PlayerId
  displayName : DisplayName
  ready : Bool
  isSpectator : Bool
  offer : List ModPkg
  fits : offer.length ≤ maxMods
  deriving DecidableEq

structure Blocked where
  count : ℕ
  who : DisplayName
  what : CText 289
  deriving DecidableEq

def Blocked.none : Blocked := ⟨0,.empty,.empty⟩

def Blocked.add (b : Blocked) (missing : ℕ) (m : Member) (what : List UInt8) : Blocked :=
  if missing=0 then b
  else
    { count := b.count+missing
      who := if b.who=.empty then .print _ m.displayName.bytes else b.who
      what := if b.what=.empty then .print _ what else b.what }

def csvHas (list item : List UInt8) : Bool := item≠[] && (csvItems list).contains item
def Member.lacks (m : Member) (p : ModPkg) : Bool := !m.offer.any (·.id=p.id)

variable (caps : MatchCaps)
def memberMissingCount (m : Member) : ℕ := caps.mods.countP m.lacks

def firstMissing (m : Member) : List UInt8 :=
  match caps.mods.find? m.lacks with
  | some p => p.id.bytes++64::p.ver.bytes
  | none => []

def missingFeats (m : Member) (p : ModPkg) : List (List UInt8) :=
  match m.offer.find? (·.id=p.id) with
  | none => []
  | some o => if o.nf=.empty then [] else (csvItems p.feats.bytes).filter (csvHas o.nf.bytes)

def memberFilesMissingCount (m : Member) : ℕ :=
  (caps.mods.map fun p => (missingFeats m p).length).sum

def filesPairs (m : Member) : CText 289 :=
  .print _ (List.intercalate [59] (caps.mods.flatMap fun p =>
    (missingFeats m p).map fun f => p.id.bytes++47::f))

/-- The client's state of a mod transfer (`g_lc.xfer` and `g_lc.xfer_*`). -/
structure ModXfer where
  link : Option Xfer.IceXfer
  busy : Bool
  sending : Bool
  progress : ℤ
  peer : PlayerId
  id : ModId
  ver : ModVer
  sha : CText 64
  expect : UInt32
  err : CText 255
  hold : Option Xfer.Blob
  holdHdr : CText 511
  pathPriced : Bool
  lastState : Option Xfer.IceState
  startedMs : UInt64
  connectedMs : UInt64

def ModXfer.zero : ModXfer :=
  ⟨none,false,false,0,.empty,.empty,.empty,.empty,0,.empty,none,.empty,false,none,0,0⟩

inductive SigType
  | modReq
  | modNak
  deriving DecidableEq

/-- A start op, with what its sender knew and holds: the members, the plan that was
checked, the plan held afterwards and the rows on the wire, if the caps went out. -/
structure Start where
  self : PlayerId
  members : List Member
  checked : List ModPkg
  held : List ModPkg
  published : Option (List ModPkg)
  deriving DecidableEq

/-- What a client did. -/
inductive Event
  /-- `rnet_lobby_mod_request` opened a transfer for this package. -/
  | asked (id : ModId)
  /-- `mod_xfer_on_request` opened one in which we send it. -/
  | serves (peer : PlayerId) (id : ModId)
  | header (blob : List UInt8)
  | install (data : List UInt8) (len : UInt32) (sha : CText 64)
  | closed
  | signal (dest : PlayerId) (type : SigType) (text : List UInt8)
  | setReady (ready : Bool)
  | start (s : Start)
  deriving DecidableEq

/-- The client (`g_lc`) and the settings kept beside it. -/
structure Client where
  connected : Bool
  inLobby : Bool
  isHost : Bool
  playerId : PlayerId
  hostPlayerId : PlayerId
  displayName : DisplayName
  localReady : Bool
  localIsSpectator : Bool
  members : List Member
  caps : MatchCaps
  lastError : CText 63
  launchBlocked : Bool
  canExport : Bool
  canInstall : Bool
  xfer : ModXfer
  log : List Event

namespace Client
def disconnect (c : Client) : Client :=
  { c with
    connected := false
    inLobby := false
    isHost := false
    playerId := .empty
    hostPlayerId := .empty
    localReady := false
    localIsSpectator := false
    members := []
    caps := .clear
    lastError := .empty
    xfer := .zero
    log := .closed::c.log }

def fresh (name : DisplayName) : Client where
  connected := false
  inLobby := false
  isHost := false
  playerId := .empty
  hostPlayerId := .empty
  displayName := name
  localReady := false
  localIsSpectator := false
  members := []
  caps := .clear
  lastError := .empty
  launchBlocked := false
  canExport := false
  canInstall := false
  xfer := .zero
  log := []

variable (c : Client)
def note (e : Event) : Client := { c with log := e::c.log }
def others : List Member := c.members.filter (·.playerId≠c.playerId)

def matchBlockedByMods : Blocked :=
  if c.inLobby=false ∨ c.caps.mods=[] then .none
  else c.others.foldl (fun b m => b.add (memberMissingCount c.caps m) m (firstMissing c.caps m)) .none

def matchBlockedByFiles : Blocked :=
  if c.inLobby=false ∨ c.caps.mods=[] then .none
  else (c.others.filter (·.isSpectator=false)).foldl (fun b m =>
    b.add (memberFilesMissingCount c.caps m) m
      ((filesPairs c.caps m).bytes.takeWhile (· ≠ 59))) .none

def matchBlockedByUnready : Blocked :=
  if c.inLobby=false then .none
  else (c.others.filter fun m => m.isSpectator=false ∧ m.ready=false).foldl
    (fun b m => b.add 1 m []) .none

def sendSetReady (ready : Bool) : Client := c.note (.setReady (ready && !c.launchBlocked))

def setLaunchBlocked (blocked : Bool) : Client :=
  if blocked=c.launchBlocked then c
  else
    if c.connected=false ∨ c.inLobby=false ∨ c.localIsSpectator then
      { c with launchBlocked := blocked }
    else { c with launchBlocked := blocked }.sendSetReady (!blocked)

def setMatchCaps (caps : MatchCaps) : Client :=
  if c.connected=false ∨ c.inLobby=false ∨ c.isHost=false ∨ caps.valid=false then c
  else { c with caps }

/-- The rows `append_mod_pkg_array` writes. -/
def wireRows (caps : MatchCaps) : List ModPkg :=
  caps.mods.filter fun p => p.id≠.empty ∧ p.ver≠.empty

variable (caps : Option MatchCaps) (serialises : Bool)
def capsJsonBuild : Option (List ModPkg) :=
  (caps.filter (·.valid)).bind fun caps => if serialises then some (wireRows caps) else none

/-- The refusals of `rnet_lobby_request_start`, with the text of `last_error`. -/
def hold (why : String) : Client × Bool := ({ c with lastError := text why },false)

/-- The tail of `rnet_lobby_request_start`: the caps it was given replace the ones held. -/
def sendStart : Client :=
  let held:=(caps.filter (·.valid)).getD c.caps
  { c with caps := held }.note
    (.start ⟨c.playerId,c.members,c.caps.mods,held.mods,capsJsonBuild caps serialises⟩)

def requestStart : Client × Bool :=
  if c.connected=false ∨ c.inLobby=false ∨ c.isHost=false then (c,false)
  else if 0<c.matchBlockedByMods.count then c.hold "peer_needs_mods"
  else if 0<c.matchBlockedByFiles.count then c.hold "peer_needs_files"
  else if c.launchBlocked then c.hold "local_not_ready"
  else if 0<c.matchBlockedByUnready.count then c.hold "peer_not_ready"
  else (c.sendStart caps serialises,true)

structure RoomMsg where
  hostPlayerId : PlayerId
  caps : Option MatchCaps
  members : List Member

variable (m : RoomMsg)

/-- `ingest_match_caps_from_json` and `parse_slots_array`; the last row of our own is ours. -/
def ingestRoom : Client :=
  let own:=m.members.reverse.find? fun r => c.playerId≠.empty ∧ r.playerId=c.playerId
  { c with
    hostPlayerId := m.hostPlayerId
    caps := m.caps.getD c.caps
    members := m.members
    localReady := own.any (·.ready)
    localIsSpectator := own.any (·.isSpectator) }

def onCreated : Client :=
  let c:={ c with inLobby := true,isHost := true,lastError := .empty }.ingestRoom m
  let c:=if m.hostPlayerId=.empty then { c with hostPlayerId := c.playerId } else c
  let c:=if m.members=[] then
      { c with members := [⟨c.playerId,c.displayName,false,false,[],by decide⟩] }
    else c
  c.sendSetReady true

def onJoined : Client :=
  ({ c with inLobby := true,isHost := false,lastError := .empty }.ingestRoom m).sendSetReady true

/-- The op `lobby_update`: a player who lost ready is armed again. -/
def onLobbyUpdate : Client :=
  let c:=c.ingestRoom m
  if c.inLobby ∧ c.localReady=false ∧ c.localIsSpectator=false ∧ c.launchBlocked=false
  then c.sendSetReady true
  else c

def onLaunch : Client := { c.ingestRoom m with hostPlayerId := c.hostPlayerId }

def leave : Client :=
  { c with
    inLobby := false
    isHost := false
    hostPlayerId := .empty
    members := []
    localReady := false
    caps := .clear }

/-- The ops `lobby_closed`, `left` and `kicked`: the join record goes as well. -/
def onLeft : Client := { c.leave with lastError := .empty,localIsSpectator := false }

end Client
end RecompNet.Lobby
