import RecompNet.Lib.LossyNet
import RecompNet.Protocol.Codec

/-!
# Blob transfer over an ICE agent (`rnet_ice_xfer.c`)

Both ends run the same code: a queue of outgoing blobs of which the first is on the wire, one blob
being received, and a short queue of received ones.
-/
namespace RecompNet.Xfer
open Proto

/-- `XFER_PAYLOAD`, `XFER_WINDOW`, `XFER_RETRY_MS`, `XFER_CONNECT_MS`, `XFER_Q`, `XFER_READY`. -/
def payloadMax : ℕ := 1024
/-- `XFER_WINDOW`. -/
def window : ℕ := 16
/-- `XFER_RETRY_MS`. -/
def retryMs : UInt64 := 200
def connectMs : UInt64 := 25000
def queueMax : ℕ := 16
def readyMax : ℕ := 4

/-- (size_t)-1. -/
def sizeMax : ℕ := 2^64-1

/-- Bytes the source can hold: their number is a `size_t`. -/
structure Blob where
  bytes : List UInt8
  fits : bytes.length ≤ sizeMax
  deriving DecidableEq

inductive Pkt
  | data (id : UInt32) (total off : ℕ) (payload : List UInt8)
  | ack (id : UInt32) (got : ℕ)
  | fail (err : List UInt8)
  deriving DecidableEq

/-- `XFER_MAGIC`. -/
def magic : List UInt8 := [82,78,69,84,88,70,49]

/-- The layouts of `send_data`, `send_ack` and `send_fail_pkt`. -/
def Pkt.encode : Pkt → List UInt8
  | .data id total off payload =>
    magic++(1::(wordBytes 4 id.toNat++(wordBytes 8 total++(wordBytes 8 off ++
      (wordBytes 2 payload.length++payload)))))
  | .ack id got => magic++(2::(wordBytes 4 id.toNat++wordBytes 8 got))
  | .fail err => magic++(3::UInt8.ofNat err.length::err)

variable (buf : List UInt8)
def field (off width : ℕ) : ℕ := leWord ((buf.drop off).take width)

def failText : List UInt8 :=
  let n:=if 8<buf.length then field buf 8 1 else 0
  if buf.length<n+9 then [] else (buf.drop 9).take n

/-- How `handle_pkt` reads a datagram; `none` is one it ignores. -/
def Pkt.decode : Option Pkt :=
  if buf.length<8 ∨ buf.take 7≠magic then none
  else
    let type:=field buf 7 1
    if type=3 then some (.fail (failText buf))
    else if type=2 ∧ 20≤buf.length then
      some (.ack (UInt32.ofNat (field buf 8 4)) (field buf 12 8))
    else if type=1 ∧ 30≤buf.length then
      let n:=field buf 28 2
      if buf.length<30+n then none
      else some (.data (UInt32.ofNat (field buf 8 4)) (field buf 12 8) (field buf 20 8)
        ((buf.drop 30).take n))
    else none

variable {off : ℕ} {buf : List UInt8} {width : ℕ}
theorem field_middle (xs ys zs : List UInt8)
    (hbuf : buf=xs++(ys++zs)) (hx : xs.length=off) (hy : ys.length=width) :
    field buf off width=leWord ys := by
  subst hbuf hx hy
  simp [field]

theorem field_word (xs zs : List UInt8) {v : ℕ}
    (hbuf : buf=xs++(wordBytes width v++zs)) (hx : xs.length=off) (hv : v<256^width) :
    field buf off width=v := by
  rw [field_middle xs _ zs hbuf hx (length_wordBytes ..),leWord_writeWord hv]

variable {id : UInt32} {total : ℕ} {payload : List UInt8}
theorem decode_data (ht : total ≤ sizeMax) (ho : off ≤ sizeMax) (hp : payload.length≤payloadMax) :
    Pkt.decode (Pkt.data id total off payload).encode=some (.data id total off payload) := by
  have hsize : sizeMax<256^8 := by decide
  have hid : field (Pkt.data id total off payload).encode 8 4=id.toNat :=
    field_word (magic++[1]) (wordBytes 8 total++(wordBytes 8 off ++
      (wordBytes 2 payload.length++payload))) (by simp [Pkt.encode,magic]) rfl id.toNat_lt
  have htotal : field (Pkt.data id total off payload).encode 12 8=total :=
    field_word (magic++(1::wordBytes 4 id.toNat)) (wordBytes 8 off ++
      (wordBytes 2 payload.length++payload)) (by simp [Pkt.encode,magic])
      (by simp [magic,length_wordBytes]) (by omega)
  have hoff : field (Pkt.data id total off payload).encode 20 8=off :=
    field_word (magic++(1::(wordBytes 4 id.toNat++wordBytes 8 total)))
      (wordBytes 2 payload.length++payload) (by simp [Pkt.encode,magic])
      (by simp [magic,length_wordBytes]) (by omega)
  have hn : field (Pkt.data id total off payload).encode 28 2=payload.length := by
    refine field_word (magic++(1::(wordBytes 4 id.toNat++(wordBytes 8 total ++
      wordBytes 8 off)))) payload (by simp [Pkt.encode,magic])
      (by simp [magic,length_wordBytes]) ?_
    unfold payloadMax at hp
    omega
  have hlen : (Pkt.data id total off payload).encode.length=30+payload.length := by
    simp [Pkt.encode,magic,length_wordBytes]
    omega
  have hrest : (Pkt.data id total off payload).encode.drop 30=payload := by
    have hsplit : (Pkt.data id total off payload).encode=(magic++(1::(wordBytes 4 id.toNat ++
        (wordBytes 8 total++(wordBytes 8 off++wordBytes 2 payload.length)))))++payload := by
      simp [Pkt.encode]
    rw [hsplit,List.drop_left' (by simp [magic,length_wordBytes])]
  have hmagic : (Pkt.data id total off payload).encode.take 7=magic := rfl
  have htype : field (Pkt.data id total off payload).encode 7 1=1 := rfl
  have hlong : ¬ (30+payload.length<8) := by omega
  simp [Pkt.decode,hmagic,htype,hid,htotal,hoff,hn,hlen,hrest,hlong]

variable {got : ℕ}
theorem decode_ack (hg : got ≤ sizeMax) :
    Pkt.decode (Pkt.ack id got).encode=some (.ack id got) := by
  have hsize : sizeMax<256^8 := by decide
  have hid : field (Pkt.ack id got).encode 8 4=id.toNat :=
    field_word (magic++[2]) (wordBytes 8 got) (by simp [Pkt.encode,magic]) rfl id.toNat_lt
  have hgot : field (Pkt.ack id got).encode 12 8=got :=
    field_word (magic++(2::wordBytes 4 id.toNat)) [] (by simp [Pkt.encode,magic])
      (by simp [magic,length_wordBytes]) (by omega)
  have hlen : (Pkt.ack id got).encode.length=20 := by
    simp [Pkt.encode,magic,length_wordBytes]
  have hmagic : (Pkt.ack id got).encode.take 7=magic := rfl
  have htype : field (Pkt.ack id got).encode 7 1=2 := rfl
  simp [Pkt.decode,hmagic,htype,hid,hgot,hlen]

theorem decode_fail (err : List UInt8) :
    ∃ text,Pkt.decode (Pkt.fail err).encode=some (.fail text) := by
  have hlen : ¬ (Pkt.fail err).encode.length<8 := by simp [Pkt.encode,magic]
  have hmagic : (Pkt.fail err).encode.take 7=magic := rfl
  have htype : field (Pkt.fail err).encode 7 1=3 := rfl
  refine ⟨failText (Pkt.fail err).encode,?_⟩
  simp [Pkt.decode,hmagic,htype,hlen]

variable {id' : UInt32}
theorem decode_data_ne_ack :
    Pkt.decode (Pkt.data id total off payload).encode≠some (.ack id' got) := by
  have htype : field (Pkt.data id total off payload).encode 7 1=1 := rfl
  intro h
  unfold Pkt.decode at h
  simp only [htype] at h
  split at h
  · cases h
  · simp at h

theorem decode_ack_ne_data :
    Pkt.decode (Pkt.ack id got).encode≠some (.data id' total off payload) := by
  have htype : field (Pkt.ack id got).encode 7 1=2 := rfl
  intro h
  unfold Pkt.decode at h
  simp only [htype] at h
  split at h
  · cases h
  · simp at h

/-- `XferBlob`. -/
structure XferBlob where
  data : Blob
  id : UInt32
  unacked : ℕ
  nextOff : ℕ
  lastSendMs : UInt64
  deriving DecidableEq

def XferBlob.len (b : XferBlob) : ℕ := b.data.bytes.length

/-- What an observer sees: blobs entering and leaving at either end, every DATA
packet taken and every blob completed. -/
inductive Event
  | queued (b : Blob)
  | acked (b : Blob)
  | data (id : UInt32)
  | completed (id : UInt32) (room : Bool)
  | taken (bytes : List UInt8)
  deriving DecidableEq

/-- `struct RNetIceXfer`. -/
structure IceXfer where
  openMs : UInt64
  failed : Bool
  error : List UInt8
  nextId : UInt32
  sendQ : List XferBlob
  recvBuf : List UInt8
  recvTotal : ℕ
  recvId : UInt32
  recvActive : Bool
  ready : List (List UInt8)
  out : List Pkt
  trace : List Event

/-- `rnet_ice_xfer_open`. -/
def IceXfer.open (now : UInt64) : IceXfer where
  openMs := now
  failed := false
  error := []
  nextId := 0
  sendQ := []
  recvBuf := []
  recvTotal := 0
  recvId := 0
  recvActive := false
  ready := []
  out := []
  trace := []

def ascii (s : String) : List UInt8 := s.toList.map fun c => UInt8.ofNat c.toNat

inductive IceState
  | failed
  | connecting
  | connected
  deriving DecidableEq

namespace IceXfer
variable (x : IceXfer)
def send (p : Pkt) : IceXfer := { x with out := x.out++[p] }
def note (e : Event) : IceXfer := { x with trace := x.trace++[e] }

def failXfer (err : List UInt8) : IceXfer :=
  if x.failed then x
  else
    let text:=err.takeWhile (· ≠ 0)
    { x with failed := true,error := (if text=[] then ascii "transfer failed" else text).take 95 }

def handleAck (id : UInt32) (got : ℕ) : IceXfer :=
  match x.sendQ with
  | [] => x
  | b::rest =>
    if b.id≠id then x
    else if got<b.unacked then x
    else if b.len≤got then { x with sendQ := rest }.note (.acked b.data)
    else { x with sendQ := { b with unacked := got,nextOff := max b.nextOff got }::rest }

/-- `push_ready` and the reset after it. -/
def completeRecv (id : UInt32) : IceXfer :=
  let room:=decide (x.ready.length < readyMax)
  { x with
    ready := if room then x.ready++[x.recvBuf] else x.ready
    recvBuf := []
    recvTotal := 0
    recvActive := false }.note (.completed id room)

variable (malloc : ℕ → Bool)

/-- The part of `handle_data` that starts a blob; the flag is false when there is
no memory for it. -/
def openRecv (id : UInt32) (total : ℕ) : IceXfer × Bool :=
  if x.recvActive ∧ x.recvId=id then (x,true)
  else
    let x:={ x with recvBuf := [],recvTotal := total,recvId := id,recvActive := true }
    if 0<total ∧ malloc total=false then
      ({ x.failXfer (ascii "out of memory") with recvActive := false },false)
    else (x,true)

def storeChunk (id : UInt32) (payload : List UInt8) : IceXfer :=
  { x with recvBuf := x.recvBuf++payload }.send (.ack id (x.recvBuf++payload).length)

def appendChunk (id : UInt32) (payload : List UInt8) : IceXfer :=
  let x:=x.storeChunk id payload
  if x.recvTotal≤x.recvBuf.length then x.completeRecv id else x

/-- The part of `handle_data` that takes the chunk: only the next byte is accepted. -/
def takeChunk (id : UInt32) (off : ℕ) (payload : List UInt8) : IceXfer :=
  if off≠x.recvBuf.length then x.send (.ack id x.recvBuf.length)
  else if payload≠[] ∧ x.recvTotal<off+payload.length then
    x.failXfer (ascii "chunk overrun")
  else x.appendChunk id payload

def handleData (id : UInt32) (total off : ℕ) (payload : List UInt8) : IceXfer :=
  let x:=x.note (.data id)
  if sizeMax/2<total then x.failXfer (ascii "package too large")
  else
    match x.openRecv malloc id total with
    | (x,false) => x
    | (x,true) => x.takeChunk id off payload

/-- `handle_pkt` once the datagram is read. -/
def handle : Pkt → IceXfer
  | .fail err => x.failXfer (if err.takeWhile (· ≠ 0)=[] then ascii "peer failed" else err)
  | .ack id got => x.handleAck id got
  | .data id total off payload => x.handleData malloc id total off payload

def handlePkt (x : IceXfer) (buf : List UInt8) : IceXfer :=
  match Pkt.decode buf with
  | none => x
  | some p => x.handle malloc p

def sendData (b : XferBlob) (off : ℕ) : IceXfer :=
  if b.len<off then x
  else x.send (.data b.id b.len off ((b.data.bytes.drop off).take payloadMax))

def sendWindow (now : UInt64) : ℕ → XferBlob → IceXfer → IceXfer × XferBlob
  | 0,b,x => (x,b)
  | fuel+1,b,x =>
    if b.nextOff<b.len ∧ b.nextOff<b.unacked+window*payloadMax then
      sendWindow now fuel
        { b with nextOff := b.nextOff+min (b.len-b.nextOff) payloadMax,lastSendMs := now }
        (x.sendData b b.nextOff)
    else (x,b)

variable (now : UInt64)
def rewindCursor (b : XferBlob) : XferBlob :=
  let b:=if b.unacked+window*payloadMax<b.nextOff then { b with nextOff := b.unacked } else b
  if retryMs≤now-b.lastSendMs ∧ b.unacked<b.nextOff then { b with nextOff := b.unacked } else b

def sendEmpty (b : XferBlob) : IceXfer × XferBlob :=
  if b.len=0 ∧ b.unacked=0 ∧ (b.lastSendMs=0 ∨ retryMs≤now-b.lastSendMs) then
    (x.sendData b 0,{ b with lastSendMs := now })
  else (x,b)

/-- The sending half of `rnet_ice_xfer_pump`. -/
def pumpSend : IceXfer :=
  match x.sendQ with
  | [] => x
  | b::rest =>
    if b.len≤b.unacked then x
    else
      let b:=rewindCursor now b
      let sent:=sendWindow now (b.len-b.nextOff) b x
      let last:=sent.1.sendEmpty now sent.2
      { last.1 with sendQ := last.2::rest }

structure PumpInput where
  now : UInt64
  state : IceState
  inbox : List (List UInt8)
  malloc : ℕ → Bool

/-- `rnet_ice_xfer_pump`. -/
def pump (inp : PumpInput) : IceXfer :=
  if x.failed then x
  else
    match inp.state with
    | .failed => x.failXfer (ascii "ICE failed")
    | .connecting =>
      if connectMs ≤ inp.now-x.openMs then x.failXfer (ascii "ICE connect timed out") else x
    | .connected =>
      let x:=(inp.inbox.takeWhile (· ≠ [])).foldl (handlePkt inp.malloc) x
      if x.failed then x else x.pumpSend inp.now

def queueBlob (data : Blob) : IceXfer :=
  if x.failed ∨ queueMax≤x.sendQ.length then x
  else
    { x with
      nextId := x.nextId+1
      sendQ := x.sendQ++[XferBlob.mk data (x.nextId+1) 0 0 0] }.note (.queued data)

/-- `rnet_ice_xfer_take_blob`. -/
def takeBlob : IceXfer :=
  match x.ready with
  | [] => x
  | bytes::rest => { x with ready := rest }.note (.taken bytes)

/-- `rnet_ice_xfer_fail`. -/
def fail (err : List UInt8) : IceXfer :=
  let x:=x.failXfer err
  x.send (.fail (x.error.take 80))

end IceXfer
end RecompNet.Xfer
