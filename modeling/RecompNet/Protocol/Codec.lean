import Mathlib.Algebra.Group.Int.Defs
import Mathlib.Algebra.GroupWithZero.Nat
import RecompNet.Lib.ByteReader

/-!
# The packet codec (`rnet_protocol.c`)

Every packet is a ten-byte head (magic, type, session id), a body and the checksum of all of that.
-/
namespace RecompNet

/-- `rnet_proto_checksum`: 32-bit FNV-1a. -/
def protoChecksum (data : List UInt8) : ℕ :=
  data.foldl (fun sum b => ((sum ^^^ b.toNat)*0x01000193)%2^32) 0x811c9dc5

/-- `write_u16`, `write_u32`: the little-endian bytes of a word. -/
def wordBytes (width v : ℕ) : List UInt8 := (List.range width).map fun i => UInt8.ofNat (v/256^i)

namespace Proto

/-- `RNET_PKT_*`. -/
inductive PktType
  | hello | ready | start | input | delaySync | inputConfirm | bye
  | stateBegin | stateChunk | stateAck | stateProbe | stateProbeReply
  | sioMultiXfer | stateProbeDone
  | rbSync | rbSealRows | rbBaseline | rbPost | rbFrameCommit | rbResolved
  | modset | modsetAck
  deriving DecidableEq,Repr

def PktType.code : PktType → ℕ
  | .hello => 1
  | .ready => 2
  | .start => 3
  | .input => 4
  | .delaySync => 5
  | .inputConfirm => 6
  | .bye => 7
  | .stateBegin => 8
  | .stateChunk => 9
  | .stateAck => 10
  | .stateProbe => 11
  | .stateProbeReply => 12
  | .sioMultiXfer => 13
  | .stateProbeDone => 14
  | .rbSync => 20
  | .rbSealRows => 21
  | .rbBaseline => 22
  | .rbPost => 23
  | .rbFrameCommit => 24
  | .rbResolved => 25
  | .modset => 26
  | .modsetAck => 27

def PktType.ofCode : ℕ → Option PktType
  | 1 => some .hello
  | 2 => some .ready
  | 3 => some .start
  | 4 => some .input
  | 5 => some .delaySync
  | 6 => some .inputConfirm
  | 7 => some .bye
  | 8 => some .stateBegin
  | 9 => some .stateChunk
  | 10 => some .stateAck
  | 11 => some .stateProbe
  | 12 => some .stateProbeReply
  | 13 => some .sioMultiXfer
  | 14 => some .stateProbeDone
  | 20 => some .rbSync
  | 21 => some .rbSealRows
  | 22 => some .rbBaseline
  | 23 => some .rbPost
  | 24 => some .rbFrameCommit
  | 25 => some .rbResolved
  | 26 => some .modset
  | 27 => some .modsetAck
  | _ => none

def PktType.isRbControl : PktType → Bool
  | .rbSync | .rbSealRows | .rbBaseline | .rbPost | .rbFrameCommit | .rbResolved => true
  | _ => false

theorem PktType.ofCode_code (ty : PktType) : PktType.ofCode ty.code=some ty := by
  cases ty <;> rfl
theorem PktType.code_lt (ty : PktType) : ty.code<2^16 := by
  cases ty <;> decide
def maxSlots : ℕ := 8
def inputMax : ℕ := 32
def maxBundle : ℕ := 21
def stateChunkMax : ℕ := 1120
def sealRowsChunkMax : ℕ := 24
def wireFrameBytes : ℕ := 9
def modsetTextMax : ℕ := 1024
def modsetReasonMax : ℕ := 96
def wireVersion : UInt8 := 2

structure WireFrame where
  tick : UInt32
  data : List UInt8
  deriving DecidableEq

structure RbWireFrame where
  buttons : UInt16
  stickX : Int8
  stickY : Int8
  source : UInt8
  isPredicted : UInt8
  isValid : UInt8
  rx : UInt8
  ry : UInt8
  deriving DecidableEq

structure CString where
  bytes : List UInt8
  noNul : 0∉bytes

structure DecodedPacket where
  type : PktType
  sessionId : UInt32
  localSlot : UInt8 := 0
  slotCount : UInt8 := 0
  delay : UInt8 := 0
  wireVersion : UInt8 := 0
  startTick : UInt32 := 0
  ackTick : UInt32 := 0
  acks : List UInt32 := []
  newDelay : UInt8 := 0
  effectiveTick : UInt32 := 0
  confirmSimTick : UInt32 := 0
  confirmHash : UInt32 := 0
  inputEpoch : UInt16 := 0
  frames : List WireFrame := []
  stateOp : UInt8 := 0
  stateSlot : UInt8 := 0
  stateXferId : UInt32 := 0
  stateTotalSize : UInt32 := 0
  statePayloadCrc : UInt32 := 0
  stateOffset : UInt32 := 0
  stateChunk : List UInt8 := []
  stateAckBytes : UInt32 := 0
  stateProbeMatch : UInt8 := 0
  stateProbeReplied : UInt8 := 0
  rbEpochId : UInt32 := 0
  rbMismatchTick : UInt32 := 0
  rbLoadTick : UInt32 := 0
  rbTargetTick : UInt32 := 0
  rbCorrectedSlot : UInt8 := 0
  rbInitiator : UInt8 := 0
  rbFlags : UInt8 := 0
  rbSlot : UInt8 := 0
  rbRowBegin : UInt32 := 0
  rbRows : List RbWireFrame := []
  rbDigestMaster : UInt32 := 0
  rbDigestA : UInt32 := 0
  rbDigestB : UInt32 := 0
  rbDigestC : UInt32 := 0
  rbInputDigest : UInt32 := 0
  rbMatch : UInt8 := 0
  rbThroughTick : UInt32 := 0
  rbStateHash : UInt32 := 0
  rbResolvedThrough : UInt32 := 0
  modsetText : List UInt8 := []
  modsetStatus : UInt8 := 0
  modsetReason : List UInt8 := []
  sioUnitId : UInt8 := 0
  sioXferSeq : UInt32 := 0
  sioSend : UInt16 := 0
  sioConfirm : UInt8 := 0
  sioVblank : UInt8 := 0
  deriving DecidableEq

theorem length_wordBytes (width v : ℕ) : (wordBytes width v).length=width := by
  simp [wordBytes]

theorem wordBytes_succ (width v : ℕ) :
    wordBytes (width+1) v=UInt8.ofNat v::wordBytes width (v/256) := by
  simp only [wordBytes,List.range_succ_eq_map,List.map_cons,List.map_map,Nat.pow_zero,
    Nat.div_one,List.cons.injEq,true_and]
  refine List.map_congr_left fun i _ => ?_
  simp only [Function.comp_apply,Nat.pow_succ',Nat.div_div_eq_div_mul]

theorem leWord_wordBytes (width v : ℕ) : leWord (wordBytes width v)=v%256^width := by
  induction width generalizing v with
  | zero => simp [wordBytes,leWord,Nat.mod_one]
  | succ width ih =>
    have hcons : leWord (UInt8.ofNat v::wordBytes width (v/256)) =
        (UInt8.ofNat v).toNat+256*leWord (wordBytes width (v/256)) := rfl
    rw [wordBytes_succ,hcons,ih,Nat.pow_succ',Nat.mod_mul]
    simp

theorem leWord_writeWord {width v : ℕ} (h : v<256^width) : leWord (wordBytes width v)=v := by
  rw [leWord_wordBytes,Nat.mod_eq_of_lt h]

theorem protoChecksum_lt (data : List UInt8) : protoChecksum data<2^32 := by
  unfold protoChecksum
  induction data using List.reverseRecOn with
  | nil => simp
  | append_singleton data b _ =>
    rw [List.foldl_append,List.foldl_cons,List.foldl_nil]
    exact Nat.mod_lt _ (Nat.two_pow_pos 32)

def writeU16 (v : UInt16) : List UInt8 := wordBytes 2 v.toNat
def writeU32 (v : UInt32) : List UInt8 := wordBytes 4 v.toNat

def finishPacket (cap : ℕ) (body : List UInt8) : Option (List UInt8) :=
  if cap<body.length+4 then none
  else some (body++wordBytes 4 (protoChecksum body))

def packetHead (magic : UInt32) (ty : PktType) (sessionId : UInt32) : List UInt8 :=
  writeU32 magic++(wordBytes 2 ty.code++writeU32 sessionId)

def encodePacket (least cap : ℕ) (magic : UInt32) (ty : PktType) (sessionId : UInt32)
    (body : List UInt8) : Option (List UInt8) :=
  if cap<least then none else finishPacket cap (packetHead magic ty sessionId++body)

def tagRbEpoch (cap : ℕ) (packet : List UInt8) (epoch : UInt16) : Option (List UInt8) :=
  if packet.length<14 ∨ cap<packet.length+2 then none
  else finishPacket cap (packet.take (packet.length-4)++writeU16 epoch)

section Encoders
variable (cap : ℕ) (magic sessionId : UInt32)
def encodeHello (localSlot slotCount delay : UInt8) : Option (List UInt8) :=
  encodePacket 20 cap magic .hello sessionId [localSlot,slotCount,delay,wireVersion]

variable (localSlot : UInt8)
def encodeReady : Option (List UInt8) :=
  encodePacket 16 cap magic .ready sessionId [localSlot,0,0,0]
def encodeStart (startTick : UInt32) : Option (List UInt8) :=
  encodePacket 20 cap magic .start sessionId (writeU32 startTick)

/-- The frame loop of `rnet_proto_encode_input`, from position `pos` of the buffer. -/
def writeFrames : ℕ → List WireFrame → Option (List UInt8)
  | _,[] => some []
  | pos,f::fs =>
    if inputMax<f.data.length then none
    else if cap<pos+4+2+f.data.length+4 then none
    else
      let bytes:=writeU32 f.tick++(wordBytes 2 f.data.length++f.data)
      (writeFrames (pos+bytes.length) fs).map (bytes++·)

variable (inputEpoch : UInt16)
def encodeInput (ackTick : UInt32) (frames : List WireFrame) : Option (List UInt8) :=
  if frames.length<1 ∨ maxBundle<frames.length then none
  else if cap<32 then none
  else
    let head:=packetHead magic .input sessionId ++
      (localSlot::UInt8.ofNat frames.length::(writeU16 inputEpoch++writeU32 ackTick))
    match writeFrames cap head.length frames with
    | none => none
    | some bytes => finishPacket cap (head++bytes)

def encodeInputAcks (ackTick : UInt32)
    (frames : List WireFrame) (acks : List UInt32) : Option (List UInt8) :=
  if acks.length<3 ∨ maxSlots<acks.length then none
  else match encodeInput cap magic sessionId localSlot inputEpoch ackTick frames with
    | none => none
    | some packet =>
      if cap<packet.length+1+4*acks.length then none
      else finishPacket cap (packet.take (packet.length-4) ++
        (UInt8.ofNat acks.length::acks.flatMap writeU32))

def encodeDelaySync (newDelay : UInt8) (effectiveTick : UInt32) : Option (List UInt8) :=
  encodePacket 24 cap magic .delaySync sessionId (newDelay::0::0::0::writeU32 effectiveTick)

def encodeInputConfirm (simTick inputHash : UInt32) : Option (List UInt8) :=
  encodePacket 28 cap magic .inputConfirm sessionId
    (localSlot::(writeU16 inputEpoch++(0::(writeU32 simTick++writeU32 inputHash))))

def encodeBye : Option (List UInt8) := encodePacket 16 cap magic .bye sessionId [localSlot,0,0,0]

def encodeStateBegin (localSlot op slot : UInt8) (xferId totalSize payloadCrc : UInt32) :
    Option (List UInt8) :=
  encodePacket 32 cap magic .stateBegin sessionId (localSlot::op::slot::0 ::
    (writeU32 xferId++(writeU32 totalSize++writeU32 payloadCrc)))

def encodeStateChunk (xferId offset : UInt32) (data : List UInt8) : Option (List UInt8) :=
  if data.length=0 ∨ stateChunkMax<data.length then none
  else encodePacket (28+data.length) cap magic .stateChunk sessionId (localSlot::0::0::0 ::
    (writeU32 xferId++(writeU32 offset++(wordBytes 2 data.length++(0::0::data)))))

def encodeStateAck (xferId ackBytes : UInt32) : Option (List UInt8) :=
  encodePacket 24 cap magic .stateAck sessionId
    (localSlot::0::0::0::(writeU32 xferId++writeU32 ackBytes))

def encodeStateProbe (localSlot op slot : UInt8) (totalSize payloadCrc : UInt32)
    (repliedMask : UInt8) : Option (List UInt8) := encodePacket 28 cap magic .stateProbe sessionId
    (localSlot::op::slot::repliedMask::(writeU32 totalSize++writeU32 payloadCrc))

def encodeStateProbeReply (localSlot op slot matched : UInt8) (totalSize payloadCrc : UInt32) :
    Option (List UInt8) := encodePacket 28 cap magic .stateProbeReply sessionId
    (localSlot::op::slot::(if matched≠0 then 1 else 0) ::(writeU32 totalSize++writeU32 payloadCrc))

def encodeStateProbeDone (localSlot op slot : UInt8) (totalSize payloadCrc : UInt32) :
    Option (List UInt8) := encodePacket 28 cap magic .stateProbeDone sessionId
    (localSlot::op::slot::0::(writeU32 totalSize++writeU32 payloadCrc))

def encodeSioMultiXfer (localSlot unitId : UInt8) (seq : UInt32) (send confirmPad : UInt16) :
    Option (List UInt8) := encodePacket 24 cap magic .sioMultiXfer sessionId
    (localSlot::unitId::(writeU32 seq++(writeU16 send++writeU16 confirmPad)))

def encodeRbSync (epochId mismatchTick loadTick targetTick : UInt32)
    (correctedSlot initiator flags : UInt8) : Option (List UInt8) :=
  encodePacket 36 cap magic .rbSync sessionId (localSlot::correctedSlot::initiator::flags ::
    (writeU32 epochId++(writeU32 mismatchTick++(writeU32 loadTick++writeU32 targetTick))))

def writeRbFrame (f : RbWireFrame) : List UInt8 :=
  writeU16 f.buttons++[f.stickX.toUInt8,f.stickY.toUInt8,f.source,f.isPredicted,f.isValid,f.rx,f.ry]

def encodeRbSealRows (epochId mismatchTick targetTick : UInt32)
    (slot : UInt8) (rowBegin : UInt32) (rows : List RbWireFrame) : Option (List UInt8) :=
  let rows:=rows.take sealRowsChunkMax
  encodePacket 0 cap magic .rbSealRows sessionId (localSlot::slot::(wordBytes 2 rows.length ++
    (writeU32 epochId++(writeU32 mismatchTick++(writeU32 targetTick++(writeU32 rowBegin ++
      rows.flatMap writeRbFrame))))))

def encodeRbBaseline (epochId loadTick digestMaster digestA digestB
    digestC : UInt32) : Option (List UInt8) :=
  encodePacket 40 cap magic .rbBaseline sessionId (localSlot::0 ::
    (writeU32 epochId++(writeU32 loadTick++(writeU32 digestMaster ++
      (writeU32 digestA++(writeU32 digestB++writeU32 digestC))))))

def encodeRbPost (epochId targetTick digestMaster inputDigest : UInt32)
    (matched : UInt8) : Option (List UInt8) :=
  encodePacket 32 cap magic .rbPost sessionId (localSlot::(if matched≠0 then 1 else 0) ::
    (writeU32 epochId++(writeU32 targetTick++(writeU32 digestMaster++writeU32 inputDigest))))

def encodeRbFrameCommit (throughTick stateHash : UInt32) : Option (List UInt8) :=
  encodePacket 24 cap magic .rbFrameCommit sessionId
    (localSlot::0::(writeU32 throughTick++writeU32 stateHash))

/-- `clamped_len` and the copy after it. -/
def clampedText (limit : ℕ) (v : CString) : List UInt8 := v.bytes.take limit

def encodeModset (text : CString) : Option (List UInt8) :=
  let body:=clampedText modsetTextMax text
  encodePacket (18+body.length) cap magic .modset sessionId
    (localSlot::0::(wordBytes 2 body.length++body))

def encodeModsetAck (localSlot status : UInt8) (reason : CString) : Option (List UInt8) :=
  let body:=clampedText modsetReasonMax reason
  encodePacket (18+body.length) cap magic .modsetAck sessionId
    (localSlot::status::(wordBytes 2 body.length++body))

def encodeRbResolved (resolvedThrough : UInt32) : Option (List UInt8) :=
  encodePacket 20 cap magic .rbResolved sessionId (localSlot::0::writeU32 resolvedThrough)

end Encoders

open Reader

def readFrame : Reader WireFrame := do
  need 6
  let tick ← u32
  let sz ← u16
  if inputMax<sz.toNat then fail
  else do
    need sz.toNat
    let data ← bytes sz.toNat
    pure ⟨tick,data⟩

def readRbFrame : Reader RbWireFrame := do
  let buttons ← u16
  let stickX ← u8
  let stickY ← u8
  let source ← u8
  let isPredicted ← u8
  let isValid ← u8
  let rx ← u8
  let ry ← u8
  pure ⟨buttons,stickX.toInt8,stickY.toInt8,source,isPredicted,isValid,rx,ry⟩

def readAcks : Reader (List UInt32) := do
  if ← atEnd then pure []
  else do
    let count ← u8
    if count.toNat<3 ∨ maxSlots<count.toNat then fail
    else do
      needExactly (4*count.toNat)
      times u32 count.toNat

def readText (limit n : ℕ) : Reader (List UInt8) :=
  if limit≤n then fail
  else do
    need n
    bytes n

variable (out : DecodedPacket)

/-- The switch of `rnet_proto_decode`. -/
def decodeBody : Reader DecodedPacket :=
  match out.type with
  | .hello => do
    need 4
    let localSlot ← u8
    let slotCount ← u8
    let delay ← u8
    let wireVersion ← u8
    pure { out with
      localSlot := localSlot,slotCount := slotCount,delay := delay,wireVersion := wireVersion }
  | .ready | .bye => do
    need 4
    let localSlot ← u8
    skip 3
    pure { out with localSlot := localSlot }
  | .start => do
    need 4
    let startTick ← u32
    pure { out with startTick := startTick }
  | .input => do
    need 8
    let localSlot ← u8
    let count ← u8
    let inputEpoch ← u16
    let ackTick ← u32
    if count.toNat<1 ∨ maxBundle<count.toNat then fail
    else do
      let frames ← times readFrame count.toNat
      let acks ← readAcks
      pure { out with
        localSlot := localSlot,inputEpoch := inputEpoch,ackTick := ackTick,frames := frames
        acks := acks }
  | .delaySync => do
    need 8
    let newDelay ← u8
    skip 3
    let effectiveTick ← u32
    pure { out with newDelay := newDelay,effectiveTick := effectiveTick }
  | .inputConfirm => do
    need 12
    let localSlot ← u8
    let inputEpoch ← u16
    skip 1
    let confirmSimTick ← u32
    let confirmHash ← u32
    pure { out with
      localSlot := localSlot,inputEpoch := inputEpoch,confirmSimTick := confirmSimTick
      confirmHash := confirmHash }
  | .stateBegin => do
    need 16
    let localSlot ← u8
    let stateOp ← u8
    let stateSlot ← u8
    skip 1
    let stateXferId ← u32
    let stateTotalSize ← u32
    let statePayloadCrc ← u32
    pure { out with
      localSlot := localSlot,stateOp := stateOp,stateSlot := stateSlot
      stateXferId := stateXferId,stateTotalSize := stateTotalSize
      statePayloadCrc := statePayloadCrc }
  | .stateChunk => do
    need 16
    let localSlot ← u8
    skip 3
    let stateXferId ← u32
    let stateOffset ← u32
    let size ← u16
    skip 2
    if size.toNat=0 ∨ stateChunkMax<size.toNat then fail
    else do
      need size.toNat
      let stateChunk ← bytes size.toNat
      pure { out with
        localSlot := localSlot,stateXferId := stateXferId,stateOffset := stateOffset
        stateChunk := stateChunk }
  | .stateAck => do
    need 12
    let localSlot ← u8
    skip 3
    let stateXferId ← u32
    let stateAckBytes ← u32
    pure { out with
      localSlot := localSlot,stateXferId := stateXferId,stateAckBytes := stateAckBytes }
  | .stateProbe => do
    need 12
    let localSlot ← u8
    let stateOp ← u8
    let stateSlot ← u8
    let stateProbeReplied ← u8
    let stateTotalSize ← u32
    let statePayloadCrc ← u32
    pure { out with
      localSlot := localSlot,stateOp := stateOp,stateSlot := stateSlot
      stateProbeReplied := stateProbeReplied,stateTotalSize := stateTotalSize
      statePayloadCrc := statePayloadCrc }
  | .stateProbeReply => do
    need 12
    let localSlot ← u8
    let stateOp ← u8
    let stateSlot ← u8
    let stateProbeMatch ← u8
    let stateTotalSize ← u32
    let statePayloadCrc ← u32
    pure { out with
      localSlot := localSlot,stateOp := stateOp,stateSlot := stateSlot
      stateProbeMatch := stateProbeMatch,stateTotalSize := stateTotalSize
      statePayloadCrc := statePayloadCrc }
  | .stateProbeDone => do
    need 12
    let localSlot ← u8
    let stateOp ← u8
    let stateSlot ← u8
    skip 1
    let stateTotalSize ← u32
    let statePayloadCrc ← u32
    pure { out with
      localSlot := localSlot,stateOp := stateOp,stateSlot := stateSlot
      stateTotalSize := stateTotalSize,statePayloadCrc := statePayloadCrc }
  | .sioMultiXfer => do
    need 10
    let localSlot ← u8
    let sioUnitId ← u8
    let sioXferSeq ← u32
    let sioSend ← u16
    let pad ← u16
    pure { out with
      localSlot := localSlot,sioUnitId := sioUnitId,sioXferSeq := sioXferSeq,sioSend := sioSend
      sioConfirm := UInt8.ofNat (pad.toNat%256),sioVblank := UInt8.ofNat (pad.toNat/256) }
  | .rbSync => do
    need 20
    let localSlot ← u8
    let rbCorrectedSlot ← u8
    let rbInitiator ← u8
    let rbFlags ← u8
    let rbEpochId ← u32
    let rbMismatchTick ← u32
    let rbLoadTick ← u32
    let rbTargetTick ← u32
    pure { out with
      localSlot := localSlot,rbCorrectedSlot := rbCorrectedSlot,rbInitiator := rbInitiator
      rbFlags := rbFlags,rbEpochId := rbEpochId,rbMismatchTick := rbMismatchTick
      rbLoadTick := rbLoadTick,rbTargetTick := rbTargetTick }
  | .rbSealRows => do
    need 20
    let localSlot ← u8
    let rbSlot ← u8
    let count ← u16
    let rbEpochId ← u32
    let rbMismatchTick ← u32
    let rbTargetTick ← u32
    let rbRowBegin ← u32
    if sealRowsChunkMax<count.toNat then fail
    else do
      need (count.toNat*wireFrameBytes)
      let rbRows ← times readRbFrame count.toNat
      pure { out with
        localSlot := localSlot,rbSlot := rbSlot,rbEpochId := rbEpochId
        rbMismatchTick := rbMismatchTick,rbTargetTick := rbTargetTick
        rbRowBegin := rbRowBegin,rbRows := rbRows }
  | .rbBaseline => do
    need 26
    let localSlot ← u8
    skip 1
    let rbEpochId ← u32
    let rbLoadTick ← u32
    let rbDigestMaster ← u32
    let rbDigestA ← u32
    let rbDigestB ← u32
    let rbDigestC ← u32
    pure { out with
      localSlot := localSlot,rbEpochId := rbEpochId,rbLoadTick := rbLoadTick
      rbDigestMaster := rbDigestMaster,rbDigestA := rbDigestA,rbDigestB := rbDigestB
      rbDigestC := rbDigestC }
  | .rbPost => do
    need 18
    let localSlot ← u8
    let rbMatch ← u8
    let rbEpochId ← u32
    let rbTargetTick ← u32
    let rbDigestMaster ← u32
    let rbInputDigest ← u32
    pure { out with
      localSlot := localSlot,rbMatch := rbMatch,rbEpochId := rbEpochId
      rbTargetTick := rbTargetTick,rbDigestMaster := rbDigestMaster
      rbInputDigest := rbInputDigest }
  | .rbFrameCommit => do
    need 10
    let localSlot ← u8
    skip 1
    let rbThroughTick ← u32
    let rbStateHash ← u32
    pure { out with
      localSlot := localSlot,rbThroughTick := rbThroughTick,rbStateHash := rbStateHash }
  | .rbResolved => do
    need 6
    let localSlot ← u8
    skip 1
    let rbResolvedThrough ← u32
    pure { out with localSlot := localSlot,rbResolvedThrough := rbResolvedThrough }
  | .modset => do
    need 4
    let localSlot ← u8
    let modsetStatus ← u8
    let n ← u16
    let modsetText ← readText modsetTextMax n.toNat
    pure { out with
      localSlot := localSlot,modsetStatus := modsetStatus,modsetText := modsetText }
  | .modsetAck => do
    need 4
    let localSlot ← u8
    let modsetStatus ← u8
    let n ← u16
    let modsetReason ← readText modsetReasonMax n.toNat
    pure { out with
      localSlot := localSlot,modsetStatus := modsetStatus,modsetReason := modsetReason }

def readTrailer : Reader DecodedPacket := fun sp c =>
  if !out.type.isRbControl then some (out,c)
  else if sp.stop=c+2 then
    (u16 sp c).map fun r => ({ out with inputEpoch := r.1 },r.2)
  else if sp.stop≠c then none
  else some (out,c)

variable (data : ℕ → UInt8)

/-- The part of `rnet_proto_decode` that takes fields, past its checks; the end has
moved before the checksum. -/
def decodeFields (len : ℕ) : Option DecodedPacket :=
  match PktType.ofCode (leWord (Span.slice data 4 2)) with
  | none => none
  | some ty =>
    let out : DecodedPacket :=
      { type := ty,sessionId := UInt32.ofNat (leWord (Span.slice data 6 4)) }
    ((decodeBody out >>= readTrailer) ⟨data,len-4⟩ 10).map Prod.fst

/-- `rnet_proto_decode`. -/
def decode (len : ℕ) (expectMagic : UInt32) : Option DecodedPacket :=
  if len<10 then none
  else if UInt32.ofNat (leWord (Span.slice data 0 4))≠expectMagic then none
  else if leWord (Span.slice data (len-4) 4)≠protoChecksum (Span.slice data 0 (len-4)) then none
  else decodeFields data len

theorem decode_eq_decodeFields {data : ℕ → UInt8} {len : ℕ} {magic : UInt32} (ty : PktType)
    (hlen : 10≤len) (hmagic : Span.slice data 0 4=writeU32 magic)
    (htype : Span.slice data 4 2=wordBytes 2 ty.code)
    (hsum : Span.slice data (len-4) 4=wordBytes 4 (protoChecksum (Span.slice data 0 (len-4)))) :
    decode data len magic=((decodeBody
        { type := ty,sessionId := UInt32.ofNat (leWord (Span.slice data 6 4)) } >>= readTrailer)
      ⟨data,len-4⟩ 10).map Prod.fst := by
  unfold decode decodeFields
  rw [if_neg (by omega),hmagic,writeU32,leWord_writeWord magic.toNat_lt,UInt32.ofNat_toNat,
    if_neg (not_not.mpr rfl),hsum,leWord_writeWord (protoChecksum_lt _),if_neg (not_not.mpr rfl),
    htype,leWord_writeWord ty.code_lt,PktType.ofCode_code]

end RecompNet.Proto
