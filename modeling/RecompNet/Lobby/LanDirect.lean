import Mathlib.Data.List.DropRight
import RecompNet.Lobby.Client

/-!
# The direct-IP waiting room (`rnet_lan_direct.c`)

A host with one seat and a guest exchange small text datagrams: a magic line, the name of an
operation and its arguments, one a line.
-/
namespace RecompNet.Direct
open Xfer (ascii)

/-- `RNET_DJ_MAX_PKT`, `RNET_LAN_CHAT_QUEUE`, `RNET_DJ_JOIN_RESEND_MS`. -/
def maxPkt : ℕ := 2048
def chatQueue : ℕ := 16
def joinResendMs : UInt64 := 400
abbrev Line := List UInt8
def trimCrlf (line : Line) : Line := line.rdropWhile fun c => c=10 || c=13

def nextLine : StateM Line (Option Line) := fun cursor =>
  if cursor=[] then (none,cursor)
  else
    match cutAt 10 cursor with
    | some (line,rest) => (some (trimCrlf line),rest)
    | none => (some (trimCrlf cursor),[])

def appendLine (buf line : Line) : Option Line :=
  if maxPkt≤buf.length+line.length+2 then none else some (buf++line++[10])
def build (lines : List Line) : Option Line := (ascii "RNETDJ1"::lines).foldlM appendLine []

inductive Op
  | ping | pong | joinReq | joinOk | joinNak | swapReq | swapRes | chatReq | chat | leave
  | room | start | caps | kick | close
  | unknown
  deriving DecidableEq

def Op.word : Op → String
  | .ping => "PING"
  | .pong => "PONG"
  | .joinReq => "JOIN_REQ"
  | .joinOk => "JOIN_OK"
  | .joinNak => "JOIN_NAK"
  | .swapReq => "SWAPREQ"
  | .swapRes => "SWAPRES"
  | .chatReq => "CHATREQ"
  | .chat => "CHAT"
  | .leave => "LEAVE"
  | .room => "ROOM"
  | .start => "START"
  | .caps => "CAPS"
  | .kick => "KICK"
  | .close => "CLOSE"
  | .unknown => ""

def Op.known : List Op :=
  [.ping,.pong,.joinReq,.joinOk,.joinNak,.swapReq,.swapRes,.chatReq,.chat,.leave,
    .room,.start,.caps,.kick,.close]

def Op.ofLine (line : Line) : Op := (Op.known.find? fun op => ascii op.word=line).getD .unknown

def header (bytes : List UInt8) : Option (Op × Line) :=
  let (magic,cursor) := nextLine (cString (bytes.take maxPkt))
  let (op,cursor) := nextLine cursor
  if magic=some (ascii "RNETDJ1") then op.map fun word => (Op.ofLine word,cursor) else none

/-- `clamp_direct_input_delay`. -/
def clampInputDelay (delay : ℤ) : ℤ := if delay<2 then 2 else if 20<delay then 20 else delay

/-- `clamp_direct_prediction`. -/
def clampPrediction (p : ℤ) : ℤ := if p<2 then 2 else if 16<p then 16 else p
def toInt (v : ℤ) : ℤ := v.bmod (2^32)

variable (line : Option Line)

/-- `parse_direct_input_delay_line`. -/
def parseInputDelay (dflt : ℤ) : ℤ :=
  match line.bind wholeNumber with
  | none => dflt
  | some v => clampInputDelay (toInt v)

/-- `parse_direct_prediction_line`. -/
def parsePrediction (dflt : ℤ) : ℤ :=
  match line.bind wholeNumber with
  | none => clampPrediction dflt
  | some v => clampPrediction (toInt v)

/-- `parse_direct_bool_line`. -/
def parseBool (dflt : Bool) : Bool :=
  match line.bind wholeNumber with
  | none => dflt
  | some v => decide (v≠0)

def parseVariant : ℤ :=
  match line with
  | none => 0
  | some l => toInt (strtol l)

def number (n : ℤ) : Line := ascii (toString n)
def flag (b : Bool) : Line := if b then ascii "1" else ascii "0"
def isOne : Bool := decide (line.bind List.head? = some 49)

/-- `rtt_from_pong_ts`. -/
def rttFromPong (now : ℕ) (ts : Option Line) : Option ℤ :=
  match ts.bind scanUnsigned with
  | none => none
  | some sent =>
    if now<sent then none else some (max 0 (min 60000 (toInt ((now-sent : ℕ) : ℤ))))

structure LanLobby where
  name : CText 95
  game : CText 63
  gameVersion : CText 31
  endpoint : CText 63
  hostName : CText 63
  joinerName : CText 63
  password : CText 63
  started : Bool
  hostSlot : ℤ
  inputDelay : ℤ
  rollback : Bool
  inputPrediction : ℤ
  sessionId : UInt32
  sessionVariant : ℤ
  modSet : CText 511
  deriving DecidableEq

def LanLobby.zero : LanLobby where
  name := .empty
  game := .empty
  gameVersion := .empty
  endpoint := .empty
  hostName := .empty
  joinerName := .empty
  password := .empty
  started := false
  hostSlot := 0
  inputDelay := 0
  rollback := false
  inputPrediction := 0
  sessionId := 0
  sessionVariant := 0
  modSet := .empty

namespace LanLobby
variable (r : LanLobby)
def delayLine : Line := number (clampInputDelay (if 2 ≤ r.inputDelay then r.inputDelay else 2))
def predictionLine : Line :=
  number (clampPrediction (if 2 ≤ r.inputPrediction then r.inputPrediction else 4))

def buildJoinOk : Option Line :=
  build [ascii "JOIN_OK",r.endpoint.bytes,r.hostName.bytes,r.joinerName.bytes,
    flag (decide (r.hostSlot=1)),r.name.bytes,r.game.bytes,r.gameVersion.bytes,r.delayLine,
    flag r.rollback,r.predictionLine,number r.sessionVariant,r.modSet.bytes]

def buildStart : Option Line := build [ascii "START",r.delayLine,flag r.rollback,r.predictionLine,
    number r.sessionId.toNat,number r.sessionVariant,r.modSet.bytes]

def buildCaps : Option Line :=
  build [ascii "CAPS",r.delayLine,flag r.rollback,r.predictionLine,number r.sessionVariant,
    r.modSet.bytes]

def buildRoom : Option Line :=
  build [ascii "ROOM",flag (decide (r.hostSlot=1)),r.hostName.bytes,r.joinerName.bytes,
    flag r.started]

def takeRoom : StateM Line LanLobby := do
  let hostSlot ← nextLine
  let hostName ← nextLine
  let joinerName ← nextLine
  let started ← nextLine
  return { r with
    hostSlot := if isOne hostSlot then 1 else 0
    hostName := hostName.elim r.hostName (.print 63)
    joinerName := joinerName.elim r.joinerName (.print 63)
    started := isOne started }

def takeStart : StateM Line LanLobby := do
  let delayLine ← nextLine
  let rollbackLine ← nextLine
  let predLine ← nextLine
  let sessionLine ← nextLine
  let variantLine ← nextLine
  let modSet ← nextLine
  return { r with
    modSet := .print 511 (modSet.getD [])
    started := true
    sessionVariant := parseVariant variantLine
    sessionId := UInt32.ofNat (sessionLine.elim 0 strtoull)
    inputDelay := parseInputDelay delayLine 2
    rollback := parseBool rollbackLine r.rollback
    inputPrediction := parsePrediction predLine r.inputPrediction }

def takeCaps : StateM Line LanLobby := do
  let delayLine ← nextLine
  let rollbackLine ← nextLine
  let predLine ← nextLine
  let variantLine ← nextLine
  let modSet ← nextLine
  return { r with
    modSet := .print 511 (modSet.getD [])
    sessionVariant := parseVariant variantLine
    inputDelay := parseInputDelay delayLine 2
    rollback := parseBool rollbackLine r.rollback
    inputPrediction := parsePrediction predLine r.inputPrediction }

end LanLobby

/-- `RNetLanChatLine`. -/
structure ChatLine where
  playerId : CText 63
  sender : CText 63
  text : CText 255
  deriving DecidableEq

def sanitize : ℕ → Line → Line
  | 0,_ => []
  | _+1,[] => []
  | room+1,c::cs =>
    if c=10 ∨ c=13 then 32::sanitize room cs
    else if c<32 then sanitize (room+1) cs
    else c::sanitize room cs

def chatSanitize (raw : Option Line) : CText 255 := .print 255 (sanitize 255 (raw.getD []))

/-- `chat_queue_push`: a full queue drops its oldest line. -/
def chatPush (chat : List ChatLine) (playerId : Option Line) (sender : Line) (line : CText 255) :
    List ChatLine :=
  if line=.empty then chat
  else
    let chat:=if chat.length<chatQueue then chat else chat.tail
    chat++[⟨.print 63 (playerId.getD []),.print 63 sender,line⟩]

def buildChat (playerId : Option Line) (sender line : Line) : Option Line :=
  build [ascii "CHAT",playerId.getD [],sender,line]
def buildPong (ts : Option Line) : Option Line := build [ascii "PONG",ts.getD (ascii "0")]
def buildPing (now : ℕ) : Option Line := build [ascii "PING",ascii (toString now)]

structure JoinReq where
  game : Line
  version : Line
  password : Line
  player : Line

def JoinReq.read : StateM Line JoinReq := do
  let game ← nextLine
  let version ← nextLine
  let password ← nextLine
  let player ← nextLine
  return {
    game := game.getD []
    version := version.getD []
    password := password.getD []
    player := if player.getD []=[] then ascii "Player" else player.getD [] }

/-- `RNetLanDirectHost`. -/
structure Host (ι : Type) where
  guest : Option ι
  chat : List ChatLine
  swapReqPending : Bool
  out : List (ι × Line)

/-- What a pump of the host works on: the handle, the caller's room and the caller's results. -/
structure HostSide (ι : Type) where
  host : Host ι
  room : LanLobby
  changed : Bool
  rtt : Option ℤ

namespace HostSide
variable {ι : Type} [DecidableEq ι] (s : HostSide ι)

/-- `send_text` of a datagram that could be built. -/
def send (dst : ι) (datagram : Option Line) : HostSide ι :=
  { s with host.out := s.host.out++(datagram.map fun d => (dst,d)).toList }

def nak (q : JoinReq) : Option String :=
  if q.game≠s.room.game.bytes ∨ q.version≠s.room.gameVersion.bytes then some "identity"
  else if q.password≠s.room.password.bytes then some "password"
  else if s.room.started then some "started"
  else if s.room.joinerName≠.empty then some "full"
  else none

variable (src : ι)
def seat (player : Line) : HostSide ι :=
  { s with
    host.guest := some src
    room.joinerName := .print 63 player
    room.started := false
    changed := true }

def onJoinReq (q : JoinReq) : HostSide ι :=
  if s.host.guest=some src ∧ s.room.joinerName≠.empty ∧ q.password=s.room.password.bytes ∧
      s.room.started=false then
    s.send src s.room.buildJoinOk
  else
    match s.nak q with
    | some code => s.send src (build [ascii "JOIN_NAK",ascii code])
    | none =>
      let s:=s.seat src q.player
      s.send src s.room.buildJoinOk

def onChatReq (playerId raw : Option Line) : HostSide ι :=
  let line:=chatSanitize raw
  if line=.empty then s
  else if s.host.guest≠some src then s
  else
    let sender:=if s.room.joinerName=.empty then ascii "Player" else s.room.joinerName.bytes
    let s:={ s with host.chat := chatPush s.host.chat playerId sender line }
    s.send src (buildChat playerId sender line.bytes)

def onLeave : HostSide ι :=
  if s.host.guest≠some src then s
  else if s.room.joinerName=.empty then s
  else
    { s with
      host.guest := none
      room.joinerName := .empty
      room.started := false
      changed := true }

/-- The body of the receive loop of `rnet_lan_direct_host_pump`. -/
def recv (now : ℕ) (src : ι) (bytes : List UInt8) : HostSide ι :=
  match header bytes with
  | none => s
  | some (.ping,cursor) => s.send src (buildPong (nextLine cursor).1)
  | some (.pong,cursor) =>
    match rttFromPong now (nextLine cursor).1 with
    | some ms => { s with rtt := some ms }
    | none => s
  | some (.joinReq,cursor) => s.onJoinReq src (JoinReq.read cursor).1
  | some (.swapReq,_) =>
    if s.host.guest≠some src then s else { s with host.swapReqPending := true }
  | some (.chatReq,cursor) =>
    let (playerId,cursor) := nextLine cursor
    s.onChatReq src playerId (nextLine cursor).1
  | some (.leave,_) => s.onLeave src
  | some _ => s

def pump (now : ℕ) (inbox : List (ι × List UInt8)) : HostSide ι :=
  (inbox.filter (·.2≠[])).foldl (fun s d => s.recv now d.1 d.2) { s with changed := false }

/-- What the caller does between pumps. -/
inductive Call (ι : Type)
  | pump (now : ℕ) (inbox : List (ι × List UInt8))
  | edit (room : LanLobby)
  | notifyStart
  | notifyCaps
  | notifyRoom
  | notifyKick
  | notifyClose
  | sendChat (playerId : Option Line) (sender : Line) (line : Option Line)
  | takeChat
  | takeSwapRequest
  | sendSwapResult (accept : Bool)
  | ping (now : ℕ)

def notify (datagram : Option Line) : HostSide ι :=
  match s.host.guest with
  | none => s
  | some guest => s.send guest datagram

/-- `rnet_lan_direct_host_notify_kick` and `_close`. -/
def dismiss (word : String) : HostSide ι :=
  let s:=s.notify (build [ascii word])
  { s with host.guest := none }

def sendChat (playerId : Option Line) (sender : Line) (line : Option Line) : HostSide ι :=
  let line:=chatSanitize line
  if line=.empty then s
  else
    let s:={ s with host.chat := chatPush s.host.chat playerId sender line }
    s.notify (buildChat playerId sender line.bytes)

def call : Call ι → HostSide ι
  | .pump now inbox => s.pump now inbox
  | .edit room => { s with room }
  | .notifyStart => s.notify s.room.buildStart
  | .notifyCaps => s.notify s.room.buildCaps
  | .notifyRoom => s.notify s.room.buildRoom
  | .notifyKick => s.dismiss "KICK"
  | .notifyClose => s.dismiss "CLOSE"
  | .sendChat playerId sender line => s.sendChat playerId sender line
  | .takeChat => { s with host.chat := s.host.chat.tail }
  | .takeSwapRequest => { s with host.swapReqPending := false }
  | .sendSwapResult accept => s.notify (build [ascii "SWAPRES",flag accept])
  | .ping now => s.notify (buildPing now)

end HostSide

/-- The negative results of a join. -/
inductive JoinError
  | io
  | full
  | password
  | identity
  | started
  deriving DecidableEq

/-- `nak_code_to_rc`. -/
def JoinError.ofNak : Option Line → JoinError
  | none => .io
  | some code =>
    if code=ascii "password" then .password
    else if code=ascii "full" then .full
    else if code=ascii "identity" then .identity
    else if code=ascii "started" then .started
    else .io

/-- `struct RNetLanDirectGuest`. -/
structure Guest (ι : Type) where
  host : ι
  hostHostport : CText 63
  chat : List ChatLine
  swapResPending : Bool
  swapResAccept : Bool
  joining : Bool
  joinFailed : Option JoinError
  joinSentMs : UInt64
  joinReq : Line
  expectedGame : CText 63
  expectedVersion : CText 31
  playerName : CText 63
  out : List (ι × Line)

/-- What `rnet_lan_direct_guest_pump` returns. -/
inductive Report
  | nothing
  | start
  | gone
  | rtt (ms : ℤ)
  | error
  deriving DecidableEq

/-- What the socket has for a pump. -/
inductive Received (ι : Type)
  | wouldBlock
  | error
  | datagram (src : ι) (bytes : List UInt8)

/-- The guest's handle, the caller's room and what the last pump reported. -/
structure GuestSide (ι : Type) where
  guest : Guest ι
  room : LanLobby
  report : Report

/-- `guest_fill_room_from_join_ok`. -/
def Guest.fillRoom {ι : Type} (g : Guest ι) : StateM Line LanLobby := do
  let endpoint ← nextLine
  let hostName ← nextLine
  let joiner ← nextLine
  let slot ← nextLine
  let name ← nextLine
  let game ← nextLine
  let version ← nextLine
  let delayLine ← nextLine
  let rollbackLine ← nextLine
  let predLine ← nextLine
  let variantLine ← nextLine
  let modSet ← nextLine
  let orElse (line : Option Line) (dflt : Line) : Line := if line.getD []=[] then dflt else line.getD []
  return { LanLobby.zero with
    modSet := .print 511 (modSet.getD [])
    endpoint := .print 63 (orElse endpoint g.hostHostport.bytes)
    hostName := .print 63 (hostName.getD (ascii "Host"))
    joinerName := .print 63 (orElse joiner
      (if g.playerName=.empty then ascii "Player" else g.playerName.bytes))
    hostSlot := if slot=some (ascii "1") then 1 else 0
    name := .print 95 (orElse name (ascii "LAN Lobby"))
    game := .print 63 (orElse game g.expectedGame.bytes)
    gameVersion := .print 31 (orElse version g.expectedVersion.bytes)
    inputDelay := parseInputDelay delayLine 2
    rollback := parseBool rollbackLine false
    inputPrediction := parsePrediction predLine 4
    sessionVariant := parseVariant variantLine }

namespace GuestSide
variable {ι : Type} [DecidableEq ι] (s : GuestSide ι)
def send (dst : ι) (datagram : Option Line) : GuestSide ι :=
  { s with guest.out := s.guest.out++(datagram.map fun d => (dst,d)).toList }

/-- The receive loop of `rnet_lan_direct_guest_join_poll`: the flag says whether an answer came.
-/
def joinLoop : List (ι × List UInt8) → GuestSide ι × Bool
  | [] => (s,false)
  | (src,bytes)::inbox =>
    if bytes=[] then (s,false)
    else
      match header bytes with
      | some (.joinNak,cursor) =>
        ({ s with guest.joinFailed := some (.ofNak (nextLine cursor).1) },true)
      | some (.joinOk,cursor) =>
        ({ s with
            guest.host := src
            guest.joining := false
            room := (s.guest.fillRoom cursor).1 },true)
      | _ => joinLoop inbox

/-- `rnet_lan_direct_guest_join_poll`. -/
def joinPoll (now : UInt64) (inbox : List (ι × List UInt8)) : GuestSide ι :=
  if s.guest.joining=false ∨ s.guest.joinFailed.isSome then s
  else
    match s.joinLoop inbox with
    | (s,true) => s
    | (s,false) =>
      if joinResendMs≤now-s.guest.joinSentMs then
        { s with guest.joinSentMs := now }.send s.guest.host (some s.guest.joinReq)
      else s

def writeRoom (withRoom : Bool) (room : LanLobby) : GuestSide ι :=
  if withRoom then { s with room } else s

def onChat : StateM Line (GuestSide ι) := do
  let playerId ← nextLine
  let sender ← nextLine
  let raw ← nextLine
  return { s with guest.chat := chatPush s.guest.chat playerId (sender.getD []) (chatSanitize raw) }

/-- What `rnet_lan_direct_guest_pump` does with a datagram. -/
def recv (withRoom withRtt : Bool) (now : ℕ) (src : ι) (bytes : List UInt8) : GuestSide ι :=
  match header bytes with
  | none => s
  | some (.ping,cursor) => s.send src (buildPong (nextLine cursor).1)
  | some (.pong,cursor) =>
    match if withRtt then rttFromPong now (nextLine cursor).1 else none with
    | some ms => { s with report := .rtt ms }
    | none => s
  | some (.room,cursor) =>
    if src≠s.guest.host then s else s.writeRoom withRoom (s.room.takeRoom cursor).1
  | some (.swapRes,cursor) =>
    if src≠s.guest.host then s
    else
      { s with
        guest.swapResPending := true
        guest.swapResAccept := isOne (nextLine cursor).1 }
  | some (.chat,cursor) => if src≠s.guest.host then s else (s.onChat cursor).1
  | some (.start,cursor) =>
    { s.writeRoom withRoom (s.room.takeStart cursor).1 with report := .start }
  | some (.caps,cursor) => s.writeRoom withRoom (s.room.takeCaps cursor).1
  | some (.kick,_) => { s with report := .gone }
  | some (.close,_) => { s with report := .gone }
  | some _ => s

def pump (withRoom withRtt : Bool) (now : ℕ) (received : Received ι) : GuestSide ι :=
  let s:={ s with report := .nothing }
  if s.guest.joining then s
  else
    match received with
    | .wouldBlock => s
    | .error => { s with report := .error }
    | .datagram src bytes => if bytes=[] then s else s.recv withRoom withRtt now src bytes

inductive Call (ι : Type)
  | joinPoll (now : UInt64) (inbox : List (ι × List UInt8))
  | pump (withRoom withRtt : Bool) (now : ℕ) (received : Received ι)
  | edit (room : LanLobby)
  | takeChat
  | takeSwapResult
  | sendSwapRequest
  | sendChat (playerId line : Option Line)
  | ping (now : ℕ)
  | leave

def notify (datagram : Option Line) : GuestSide ι :=
  if s.guest.joining then s else s.send s.guest.host datagram

def sendChat (playerId line : Option Line) : GuestSide ι :=
  let line:=chatSanitize line
  if line=.empty then s
  else s.notify (build [ascii "CHATREQ",playerId.getD [],line.bytes])

def call : Call ι → GuestSide ι
  | .joinPoll now inbox => s.joinPoll now inbox
  | .pump withRoom withRtt now received => s.pump withRoom withRtt now received
  | .edit room => { s with room }
  | .takeChat => { s with guest.chat := s.guest.chat.tail }
  | .takeSwapResult => { s with guest.swapResPending := false }
  | .sendSwapRequest => s.notify (build [ascii "SWAPREQ"])
  | .sendChat playerId line => s.sendChat playerId line
  | .ping now => s.notify (buildPing now)
  | .leave => s.notify (build [ascii "LEAVE"])

end GuestSide
end RecompNet.Direct
