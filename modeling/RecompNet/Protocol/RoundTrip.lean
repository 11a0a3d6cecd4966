import Mathlib.Data.List.TakeDrop
import RecompNet.Protocol.Codec

/-!
# The codec round trip

`Msg` is a call of an encoder, `Msg.decoded` the packet with the values that were passed.
-/
namespace RecompNet.Proto
open Reader List Option Span

/-- The encoder calls of `rnet_protocol.h`. -/
inductive Msg
  | hello (localSlot slotCount delay : UInt8)
  | ready (localSlot : UInt8)
  | start (startTick : UInt32)
  | input (localSlot : UInt8) (inputEpoch : UInt16) (ackTick : UInt32) (frames : List WireFrame)
  | inputAcks (localSlot : UInt8) (inputEpoch : UInt16) (ackTick : UInt32)
      (frames : List WireFrame) (acks : List UInt32)
  | delaySync (newDelay : UInt8) (effectiveTick : UInt32)
  | inputConfirm (localSlot : UInt8) (inputEpoch : UInt16) (simTick inputHash : UInt32)
  | bye (localSlot : UInt8)
  | stateBegin (localSlot op slot : UInt8) (xferId totalSize payloadCrc : UInt32)
  | stateChunk (localSlot : UInt8) (xferId offset : UInt32) (data : List UInt8)
  | stateAck (localSlot : UInt8) (xferId ackBytes : UInt32)
  | stateProbe (localSlot op slot : UInt8) (totalSize payloadCrc : UInt32) (repliedMask : UInt8)
  | stateProbeReply (localSlot op slot matched : UInt8) (totalSize payloadCrc : UInt32)
  | stateProbeDone (localSlot op slot : UInt8) (totalSize payloadCrc : UInt32)
  | sioMultiXfer (localSlot unitId : UInt8) (seq : UInt32) (send confirmPad : UInt16)
  | rbSync (localSlot : UInt8) (epochId mismatchTick loadTick targetTick : UInt32)
      (correctedSlot initiator flags : UInt8)
  | rbSealRows (localSlot : UInt8) (epochId mismatchTick targetTick : UInt32) (slot : UInt8)
      (rowBegin : UInt32) (rows : List RbWireFrame)
  | rbBaseline (localSlot : UInt8) (epochId loadTick digestMaster digestA digestB digestC : UInt32)
  | rbPost (localSlot : UInt8) (epochId targetTick digestMaster inputDigest : UInt32)
      (matched : UInt8)
  | rbFrameCommit (localSlot : UInt8) (throughTick stateHash : UInt32)
  | rbResolved (localSlot : UInt8) (resolvedThrough : UInt32)
  | modset (localSlot : UInt8) (text : CString)
  | modsetAck (localSlot status : UInt8) (reason : CString)

namespace Msg
def type : Msg → PktType
  | hello .. => .hello
  | ready .. => .ready
  | start .. => .start
  | input .. => .input
  | inputAcks .. => .input
  | delaySync .. => .delaySync
  | inputConfirm .. => .inputConfirm
  | bye .. => .bye
  | stateBegin .. => .stateBegin
  | stateChunk .. => .stateChunk
  | stateAck .. => .stateAck
  | stateProbe .. => .stateProbe
  | stateProbeReply .. => .stateProbeReply
  | stateProbeDone .. => .stateProbeDone
  | sioMultiXfer .. => .sioMultiXfer
  | rbSync .. => .rbSync
  | rbSealRows .. => .rbSealRows
  | rbBaseline .. => .rbBaseline
  | rbPost .. => .rbPost
  | rbFrameCommit .. => .rbFrameCommit
  | rbResolved .. => .rbResolved
  | modset .. => .modset
  | modsetAck .. => .modsetAck

def encode (cap : ℕ) (magic sid : UInt32) : Msg → Option (List UInt8)
  | hello me count delay => encodeHello cap magic sid me count delay
  | ready me => encodeReady cap magic sid me
  | start t => encodeStart cap magic sid t
  | input me epoch ack frames => encodeInput cap magic sid me epoch ack frames
  | inputAcks me epoch ack frames acks => encodeInputAcks cap magic sid me epoch ack frames acks
  | delaySync d t => encodeDelaySync cap magic sid d t
  | inputConfirm me epoch t h => encodeInputConfirm cap magic sid me epoch t h
  | bye me => encodeBye cap magic sid me
  | stateBegin me op slot x n crc => encodeStateBegin cap magic sid me op slot x n crc
  | stateChunk me x off bs => encodeStateChunk cap magic sid me x off bs
  | stateAck me x n => encodeStateAck cap magic sid me x n
  | stateProbe me op slot n crc mask => encodeStateProbe cap magic sid me op slot n crc mask
  | stateProbeReply me op slot ok n crc => encodeStateProbeReply cap magic sid me op slot ok n crc
  | stateProbeDone me op slot n crc => encodeStateProbeDone cap magic sid me op slot n crc
  | sioMultiXfer me unit seq send pad => encodeSioMultiXfer cap magic sid me unit seq send pad
  | rbSync me e m l t c i f => encodeRbSync cap magic sid me e m l t c i f
  | rbSealRows me e m t slot r rows => encodeRbSealRows cap magic sid me e m t slot r rows
  | rbBaseline me e l d a b c => encodeRbBaseline cap magic sid me e l d a b c
  | rbPost me e t d i ok => encodeRbPost cap magic sid me e t d i ok
  | rbFrameCommit me t h => encodeRbFrameCommit cap magic sid me t h
  | rbResolved me t => encodeRbResolved cap magic sid me t
  | modset me text => encodeModset cap magic sid me text
  | modsetAck me status reason => encodeModsetAck cap magic sid me status reason

def fields (out : DecodedPacket) : Msg → DecodedPacket
  | hello me count d =>
    { out with localSlot := me,slotCount := count,delay := d,wireVersion := wireVersion }
  | ready me => { out with localSlot := me }
  | start t => { out with startTick := t }
  | input me epoch ack fs =>
    { out with localSlot := me,inputEpoch := epoch,ackTick := ack,frames := fs,acks := [] }
  | inputAcks me epoch ack fs as =>
    { out with localSlot := me,inputEpoch := epoch,ackTick := ack,frames := fs,acks := as }
  | delaySync d t => { out with newDelay := d,effectiveTick := t }
  | inputConfirm me epoch t h =>
    { out with localSlot := me,inputEpoch := epoch,confirmSimTick := t,confirmHash := h }
  | bye me => { out with localSlot := me }
  | stateBegin me op slot x n crc =>
    { out with localSlot := me,stateOp := op,stateSlot := slot,stateXferId := x
               stateTotalSize := n,statePayloadCrc := crc }
  | stateChunk me x off bs =>
    { out with localSlot := me,stateXferId := x,stateOffset := off,stateChunk := bs }
  | stateAck me x n => { out with localSlot := me,stateXferId := x,stateAckBytes := n }
  | stateProbe me op slot n crc mask =>
    { out with localSlot := me,stateOp := op,stateSlot := slot,stateProbeReplied := mask
               stateTotalSize := n,statePayloadCrc := crc }
  | stateProbeReply me op slot ok n crc =>
    { out with localSlot := me,stateOp := op,stateSlot := slot,stateProbeMatch := ok
               stateTotalSize := n,statePayloadCrc := crc }
  | stateProbeDone me op slot n crc =>
    { out with localSlot := me,stateOp := op,stateSlot := slot
               stateTotalSize := n,statePayloadCrc := crc }
  | sioMultiXfer me unit seq send pad =>
    { out with localSlot := me,sioUnitId := unit,sioXferSeq := seq,sioSend := send
               sioConfirm := UInt8.ofNat (pad.toNat%256)
               sioVblank := UInt8.ofNat (pad.toNat/256) }
  | rbSync me e m l t c i f =>
    { out with localSlot := me,rbCorrectedSlot := c,rbInitiator := i,rbFlags := f
               rbEpochId := e,rbMismatchTick := m,rbLoadTick := l,rbTargetTick := t }
  | rbSealRows me e m t slot r rows =>
    { out with localSlot := me,rbSlot := slot,rbEpochId := e,rbMismatchTick := m
               rbTargetTick := t,rbRowBegin := r,rbRows := rows }
  | rbBaseline me e l d a b c =>
    { out with localSlot := me,rbEpochId := e,rbLoadTick := l,rbDigestMaster := d
               rbDigestA := a,rbDigestB := b,rbDigestC := c }
  | rbPost me e t d i ok =>
    { out with localSlot := me,rbMatch := ok,rbEpochId := e,rbTargetTick := t
               rbDigestMaster := d,rbInputDigest := i }
  | rbFrameCommit me t h => { out with localSlot := me,rbThroughTick := t,rbStateHash := h }
  | rbResolved me t => { out with localSlot := me,rbResolvedThrough := t }
  | modset me text => { out with localSlot := me,modsetStatus := 0,modsetText := text.bytes }
  | modsetAck me status reason =>
    { out with localSlot := me,modsetStatus := status,modsetReason := reason.bytes }

def decoded (sid : UInt32) (m : Msg) : DecodedPacket := m.fields { type := m.type,sessionId := sid }
def flag (v : UInt8) : UInt8 := if v≠0 then 1 else 0

def arrives : Msg → Option Msg
  | stateProbeReply me op slot ok n crc => some (stateProbeReply me op slot (flag ok) n crc)
  | rbPost me e t d i ok => some (rbPost me e t d i (flag ok))
  | rbSealRows me e m t slot r rows =>
    some (rbSealRows me e m t slot r (rows.take sealRowsChunkMax))
  | modset me text => if modsetTextMax≤text.bytes.length then none else some (modset me text)
  | modsetAck me status reason =>
    if modsetReasonMax ≤ reason.bytes.length then none else some (modsetAck me status reason)
  | m => some m

/-- The values the wire format can carry. -/
def Faithful : Msg → Prop
  | stateProbeReply _ _ _ ok _ _ => ok≤1
  | rbPost _ _ _ _ _ ok => ok≤1
  | rbSealRows _ _ _ _ _ _ rows => rows.length ≤ sealRowsChunkMax
  | modset _ text => text.bytes.length < modsetTextMax
  | modsetAck _ _ reason => reason.bytes.length < modsetReasonMax
  | _ => True

theorem flag_eq_iff (v : UInt8) : flag v=v ↔ v≤1 := by
  unfold flag
  split
  · next h =>
    rw [UInt8.le_iff_toNat_le,← UInt8.toNat_inj]
    have hv : v.toNat≠0 := fun h0 => h (UInt8.toNat_inj.mp h0)
    change 1=v.toNat ↔ v.toNat≤1
    omega
  next h =>
  rw [not_not.mp h]
  decide

theorem arrives_iff (tag : DecodedPacket → DecodedPacket)
    (htag : ∀ p q,tag p=tag q → p.stateProbeMatch=q.stateProbeMatch ∧ p.rbMatch=q.rbMatch ∧
      p.rbRows=q.rbRows) (sid : UInt32) (m : Msg) :
    (m.arrives.map fun m' => tag (m'.decoded sid))=some (tag (m.decoded sid)) ↔ m.Faithful := by
  cases m
  case stateProbeReply =>
    simp only [arrives,Faithful,map_some,some.injEq,← flag_eq_iff]
    exact ⟨fun h => (htag _ _ h).1,fun h => by rw [h]⟩
  case rbPost =>
    simp only [arrives,Faithful,map_some,some.injEq,← flag_eq_iff]
    exact ⟨fun h => (htag _ _ h).2.1,fun h => by rw [h]⟩
  case rbSealRows =>
    simp only [arrives,Faithful,map_some,some.injEq,← take_eq_self_iff]
    exact ⟨fun h => (htag _ _ h).2.2,fun h => by rw [h]⟩
  case modset | modsetAck =>
    simp only [arrives,Faithful,← Nat.not_le]
    split <;> simp_all
  all_goals exact ⟨fun _ => trivial,fun _ => rfl⟩

end Msg

@[simp] theorem length_writeU16 (v : UInt16) : (writeU16 v).length=2 := length_wordBytes _ _
@[simp] theorem length_writeU32 (v : UInt32) : (writeU32 v).length=4 := length_wordBytes _ _
theorem leWord_writeU16 (v : UInt16) : leWord (writeU16 v)=v.toNat := leWord_writeWord v.toNat_lt
theorem leWord_writeU32 (v : UInt32) : leWord (writeU32 v)=v.toNat := leWord_writeWord v.toNat_lt

def framed (magic : UInt32) (ty : PktType) (sid : UInt32) (body : List UInt8) : List UInt8 :=
  packetHead magic ty sid++body ++wordBytes 4 (protoChecksum (packetHead magic ty sid++body))

section Framing
variable {cap least : ℕ} {magic sid : UInt32} {ty : PktType} {body bytes : List UInt8}
theorem length_packetHead : (packetHead magic ty sid).length=10 := by
  simp only [packetHead,writeU32,length_append,length_wordBytes]
theorem length_framed : (framed magic ty sid body).length=10+body.length+4 := by
  simp only [framed,length_append,length_packetHead,length_wordBytes]

theorem finishPacket_framed (h : finishPacket cap (packetHead magic ty sid++body)=some bytes) :
    bytes=framed magic ty sid body := by
  unfold finishPacket at h
  split at h
  · cases h
  · exact (some.inj h).symm

theorem encodePacket_framed (h : encodePacket least cap magic ty sid body=some bytes) :
    bytes=framed magic ty sid body := by
  unfold encodePacket at h
  split at h
  · cases h
  · exact finishPacket_framed h

theorem framed_take : (framed magic ty sid body).take ((framed magic ty sid body).length-4) =
    packetHead magic ty sid++body := by
  refine take_left' ?_
  rw [length_framed,length_append,length_packetHead]
  omega

theorem tagRbEpoch_framed {e : UInt16}
    (h : tagRbEpoch cap (framed magic ty sid body) e=some bytes) :
    bytes=framed magic ty sid (body++writeU16 e) := by
  unfold tagRbEpoch at h
  rw [framed_take,append_assoc] at h
  split at h
  · cases h
  · exact finishPacket_framed h

theorem decode_framed {data : ℕ → UInt8} {res : Option DecodedPacket}
    (hdata : Span.slice data 0 (framed magic ty sid body).length=framed magic ty sid body)
    (hr : Runs (decodeBody { type := ty,sessionId := sid } >>= readTrailer) body [] res) :
    decode data (framed magic ty sid body).length magic=res := by
  have hlen : (framed magic ty sid body).length-4=10+body.length := by
    rw [length_framed]
    omega
  have hcovered : slice data 0 (10+body.length)=packetHead magic ty sid++body :=
    slice_middle [] _ _ hdata rfl (by rw [length_append,length_packetHead])
  have hsum : slice data (10+body.length) 4 =
      wordBytes 4 (protoChecksum (packetHead magic ty sid++body)) :=
    slice_middle _ _ [] (by rwa [append_nil])
      (by rw [length_append,length_packetHead]) (length_wordBytes _ _)
  simp only [framed,packetHead,append_assoc] at hdata
  have hsid : slice data 6 4=writeU32 sid := by
    rw [← append_assoc] at hdata
    refine slice_middle _ _ _ hdata ?_ (length_wordBytes _ _)
    rw [length_append,writeU32,length_wordBytes,length_wordBytes]
  have hbody : Window ⟨data,10+body.length⟩ 10 (body++[]) := by
    refine ⟨by rw [append_nil],?_⟩
    rw [← append_assoc,← append_assoc] at hdata
    rw [append_nil]
    refine slice_middle _ _ _ hdata ?_ rfl
    simp only [length_append,writeU32,length_wordBytes]
  rw [decode_eq_decodeFields ty (by omega) (slice_middle [] _ _ hdata rfl (length_wordBytes _ _))
    (slice_middle _ _ _ hdata (length_wordBytes _ _) (length_wordBytes _ _))
    (by rw [hlen,hsum,hcovered]),hlen,hsid,leWord_writeU32,UInt32.ofNat_toNat,hr _ _ hbody]
  cases res <;> rfl

theorem runs_readTrailer (out : DecodedPacket) : Runs (readTrailer out) [] [] (some out) := by
  intro sp c h
  have hstop : sp.stop=c := h.1
  simp only [readTrailer,hstop]
  split
  · rfl
  · rw [if_neg (by omega),if_neg (not_not.mpr rfl)]
    rfl

theorem runs_readTrailer_tagged {out : DecodedPacket} (hty : out.type.isRbControl)
    (e : UInt16) : Runs (readTrailer out) (writeU16 e) [] (some { out with inputEpoch := e }) := by
  intro sp c h
  have hstop : sp.stop=c+2 := h.1
  have he : slice sp.mem c 2=writeU16 e := h.split.1
  simp only [readTrailer,hty,hstop,Bool.not_true,Bool.false_eq_true,if_false,if_true,
    u16,he,leWord_writeU16,UInt16.ofNat_toNat,map_some,length_writeU16]

end Framing

section Words
variable {β : Type} {bs rest : List UInt8} {res : Option β} {f : UInt32 → Reader β} {v : UInt32}
theorem runs_u32 (hf : Runs (f v) bs rest res) : Runs (u32 >>= f) (writeU32 v++bs) rest res :=
  .u32 (length_writeU32 v) (leWord_writeU32 v) hf
theorem runs_u32_last (hf : Runs (f v) [] rest res) : Runs (u32 >>= f) (writeU32 v) rest res :=
  .bind_last (.just_u32 (length_writeU32 v) (leWord_writeU32 v)) hf

variable {f : UInt16 → Reader β} {v : UInt16}
theorem runs_u16 (hf : Runs (f v) bs rest res) : Runs (u16 >>= f) (writeU16 v++bs) rest res :=
  .u16 (length_writeU16 v) (leWord_writeU16 v) hf
theorem runs_u16_last (hf : Runs (f v) [] rest res) : Runs (u16 >>= f) (writeU16 v) rest res :=
  .bind_last (.just_u16 (length_writeU16 v) (leWord_writeU16 v)) hf

theorem runs_size {n : ℕ} (hn : n<2^16) (hf : ∀ v : UInt16,v.toNat=n → Runs (f v) bs rest res) :
    Runs (u16 >>= f) (wordBytes 2 n++bs) rest res := by
  have hv : (UInt16.ofNat n).toNat=n := UInt16.toNat_ofNat_of_lt hn
  exact .u16 (length_wordBytes _ _) (by rw [hv,leWord_writeWord hn]) (hf _ hv)

end Words

def frameBytes (f : WireFrame) : List UInt8 := writeU32 f.tick++(wordBytes 2 f.data.length++f.data)

theorem writeFrames_eq {cap : ℕ} {frames : List WireFrame} {pos : ℕ} {bytes : List UInt8}
    (h : writeFrames cap pos frames=some bytes) :
    bytes=frames.flatMap frameBytes ∧ ∀ f∈frames,f.data.length ≤ inputMax := by
  induction frames generalizing pos bytes with
  | nil =>
    cases h
    exact ⟨rfl,fun f hf => by cases hf⟩
  | cons f fs ih =>
    rw [writeFrames] at h
    split at h
    · cases h
    next hsize =>
    split at h
    · cases h
    simp only [map_eq_some_iff] at h
    obtain ⟨tail,htail,rfl⟩ := h
    obtain ⟨rfl,hfs⟩ := ih htail
    refine ⟨rfl,?_⟩
    rintro g (_ | ⟨_,hg⟩)
    · omega
    · exact hfs g hg

theorem runs_readFrame {f : WireFrame} (hf : f.data.length ≤ inputMax) (rest : List UInt8) :
    Runs readFrame (frameBytes f) rest (some f) := by
  refine .need ?_ (runs_u32 (runs_size ?_ fun v hv => ?_))
  · simp only [frameBytes,length_append,length_writeU32,length_wordBytes]
    omega
  · exact Nat.lt_of_le_of_lt hf (by decide)
  · rw [hv,if_neg (by omega)]
    exact .need (Nat.le_refl _) (.bytes_last rfl (.pure _))

theorem runs_readRbFrame (f : RbWireFrame) (rest : List UInt8) :
    Runs readRbFrame (writeRbFrame f) rest (some f) :=
  runs_u16 (.u8 (.u8 (.u8 (.u8 (.u8 (.u8 (.u8 (.pure _))))))))

theorem length_rows (rows : List RbWireFrame) :
    (rows.flatMap writeRbFrame).length=rows.length*wireFrameBytes := by
  simp only [length_flatMap,writeRbFrame,length_append,length_writeU16,
    length_cons,length_nil,map_const',List.sum_replicate_nat,wireFrameBytes]

theorem runs_readAcks {acks : List UInt32} (hlow : 3≤acks.length) (hhigh : acks.length ≤ maxSlots) :
    Runs readAcks (UInt8.ofNat acks.length::acks.flatMap writeU32) [] (some acks) := by
  have hcount : (UInt8.ofNat acks.length).toNat=acks.length :=
    UInt8.toNat_ofNat_of_lt (Nat.lt_of_le_of_lt hhigh (by decide))
  have hlen : (acks.flatMap writeU32).length=4*acks.length := by
    simp only [length_flatMap,length_writeU32,map_const',List.sum_replicate_nat]
    omega
  refine .atEnd (.u8 ?_)
  rw [hcount,if_neg (by omega)]
  refine .needExactly (by rw [append_nil,hlen]) (.times (fun v _ rest => ?_) [])
  exact .just_u32 (length_writeU32 v) (leWord_writeU32 v)

variable {limit : ℕ}
theorem runs_readText {text : List UInt8} (h : text.length<limit)
    (rest : List UInt8) : Runs (readText limit text.length) text rest (some text) := by
  unfold readText
  rw [if_neg (by omega)]
  exact .need (Nat.le_refl _) (.just_bytes rfl)

theorem runs_text {β : Type} (hlimit : limit<2^16) (text : CString)
    {f : List UInt8 → Reader β} {b : β} {rest : List UInt8}
    (hf : Runs (f text.bytes) [] rest (some b)) :
    Runs (u16 >>= fun n => readText limit n.toNat >>= f)
      (wordBytes 2 (clampedText limit text).length++clampedText limit text) rest
      (if limit≤text.bytes.length then none else some b) := by
  have hlen : (clampedText limit text).length=min limit text.bytes.length := length_take
  refine runs_size (by omega) fun v hv => ?_
  rw [hv]
  split
  · next h =>
    refine .bind_none ?_
    unfold readText
    rw [if_pos (by omega)]
    exact .fail
  next h =>
  have hsame : clampedText limit text=text.bytes := take_of_length_le (by omega)
  rw [hsame]
  exact .bind_last (runs_readText (Nat.lt_of_not_le h) rest) hf

namespace Msg
def Carries (m : Msg) (body : List UInt8) : Prop :=
  ∀ (sid : UInt32) (rest : List UInt8),(m.type.isRbControl=false → rest=[]) →
    Runs (decodeBody { type := m.type,sessionId := sid }) body rest (m.arrives.map (·.decoded sid))

variable {m : Msg} {cap : ℕ} {magic sid : UInt32} {bytes : List UInt8}
theorem carries_of_encodePacket {least : ℕ}
    {body : List UInt8} (h : encodePacket least cap magic m.type sid body=some bytes)
    (hm : m.Carries body) : ∃ body,bytes=framed magic m.type sid body ∧ m.Carries body :=
  ⟨body,encodePacket_framed h,hm⟩

def inputBody (me : UInt8) (epoch : UInt16) (ack : UInt32) (frames : List WireFrame)
    (extension : List UInt8) : List UInt8 :=
  me::UInt8.ofNat frames.length::(writeU16 epoch++(writeU32 ack ++
    (frames.flatMap frameBytes++extension)))

variable {frames : List WireFrame}
theorem encodeInput_framed {me : UInt8} {epoch : UInt16} {ack : UInt32}
    (h : encodeInput cap magic sid me epoch ack frames=some bytes) :
    bytes=framed magic .input sid (inputBody me epoch ack frames []) ∧ 1≤frames.length ∧
      frames.length ≤ maxBundle ∧ ∀ f∈frames,f.data.length ≤ inputMax := by
  unfold encodeInput at h
  split at h
  · cases h
  next hcount =>
  split at h
  · cases h
  dsimp only at h
  split at h
  · cases h
  next hframes =>
  obtain ⟨rfl,hsize⟩ := writeFrames_eq hframes
  refine ⟨?_,by omega,by omega,hsize⟩
  rw [append_assoc] at h
  rw [finishPacket_framed h,inputBody]
  simp only [cons_append,append_assoc,append_nil]

theorem runs_input (me : UInt8) (epoch : UInt16) (ack : UInt32)
    {extension : List UInt8} {acks : List UInt32} (hlow : 1≤frames.length)
    (hhigh : frames.length ≤ maxBundle) (hsize : ∀ f∈frames,f.data.length ≤ inputMax)
    (hacks : Runs readAcks extension [] (some acks)) (sid : UInt32) :
    Runs (decodeBody { type := .input,sessionId := sid })
      (inputBody me epoch ack frames extension) []
      (some ((inputAcks me epoch ack frames acks).decoded sid)) := by
  have hcount : (UInt8.ofNat frames.length).toNat=frames.length :=
    UInt8.toNat_ofNat_of_lt (Nat.lt_of_le_of_lt hhigh (by decide))
  refine .need ?_ (.u8 (.u8 (runs_u16 (runs_u32 ?_))))
  · simp only [inputBody,length_cons,length_append,length_writeU16,length_writeU32]
    omega
  · rw [hcount,if_neg (by omega)]
    refine .bind (.times (fun f hf => runs_readFrame (hsize f hf)) _) ?_
    exact .bind_last hacks (.pure _)

theorem encode_carries (h : m.encode cap magic sid=some bytes) :
    ∃ body,bytes=framed magic m.type sid body ∧ m.Carries body := by
  cases m
  case input me epoch ack frames =>
    obtain ⟨hbytes,hlow,hhigh,hsize⟩ := encodeInput_framed h
    refine ⟨_,hbytes,fun sid rest hrest => ?_⟩
    rw [hrest rfl]
    exact runs_input me epoch ack hlow hhigh hsize (.atEnd (.pure [])) sid
  case inputAcks me epoch ack frames acks =>
    have h : encodeInputAcks cap magic sid me epoch ack frames acks=some bytes := h
    unfold encodeInputAcks at h
    split at h
    · cases h
    next hcount =>
    split at h
    · cases h
    next hinput =>
    obtain ⟨rfl,hlow,hhigh,hsize⟩ := encodeInput_framed hinput
    split at h
    · cases h
    rw [framed_take,append_assoc] at h
    refine ⟨_,finishPacket_framed h,fun sid rest hrest => ?_⟩
    rw [hrest rfl]
    have hacks : Runs readAcks (UInt8.ofNat acks.length::acks.flatMap writeU32) [] _ :=
      runs_readAcks (by omega) (by omega)
    have hread:=runs_input me epoch ack hlow hhigh hsize hacks sid
    simp only [inputBody,cons_append,append_assoc,nil_append] at hread ⊢
    exact hread
  case stateChunk me x off bs =>
    have h : encodeStateChunk cap magic sid me x off bs=some bytes := h
    unfold encodeStateChunk at h
    split at h
    · cases h
    next hsize =>
    refine carries_of_encodePacket h fun sid rest _ => .need ?_
      (.u8 (.skip_succ (.skip_succ (.skip_succ (.skip_zero (runs_u32 (runs_u32
        (runs_size ?_ fun v hv => .skip_succ (.skip_succ (.skip_zero ?_))))))))))
    · simp only [length_cons,length_append,length_writeU32,length_wordBytes]
      omega
    · have : stateChunkMax<2^16 := by decide
      omega
    · rw [hv,if_neg hsize]
      exact .need (Nat.le_refl _) (.bytes_last rfl (.pure _))
  case rbSealRows me e m t slot r rows =>
    simp only [encode,encodeRbSealRows] at h
    refine carries_of_encodePacket h fun sid rest _ => .need ?_ (.u8 (.u8 (runs_size ?_ fun v hv =>
      runs_u32 (runs_u32 (runs_u32 (runs_u32 ?_))))))
    · simp only [length_cons,length_append,length_writeU32,length_wordBytes]
      omega
    · exact Nat.lt_of_le_of_lt (length_take_le _ _) (by decide)
    · rw [hv,if_neg (Nat.not_lt.mpr (length_take_le _ _))]
      refine .need ?_ (.bind_last (.times (fun f _ => runs_readRbFrame f) _) (.pure _))
      rw [length_rows]
  case modset me text | modsetAck me status text =>
    refine carries_of_encodePacket h fun sid rest _ => .need ?_ (.u8 (.u8 ?_))
    · simp only [length_cons,length_append,length_wordBytes]
      omega
    · simp only [arrives,apply_ite (Option.map _),Option.map_none,Option.map_some]
      exact runs_text (by decide) text (.pure _)
  -- What is left has a body of fixed size.
  all_goals refine carries_of_encodePacket h fun sid rest _ => .need (by simp) ?_
  case hello => exact .u8 (.u8 (.u8 (.u8 (.pure _))))
  case ready | bye => exact .u8 (.skip_succ (.skip_succ (.skip_succ (.skip_zero (.pure _)))))
  case start => exact runs_u32_last (.pure _)
  case delaySync =>
    exact .u8 (.skip_succ (.skip_succ (.skip_succ (.skip_zero (runs_u32_last (.pure _))))))
  case inputConfirm =>
    exact .u8 (runs_u16 (.skip_succ (.skip_zero (runs_u32 (runs_u32_last (.pure _))))))
  case stateBegin =>
    exact .u8 (.u8 (.u8 (.skip_succ (.skip_zero (runs_u32 (runs_u32 (runs_u32_last (.pure _))))))))
  case stateAck =>
    exact .u8 (.skip_succ (.skip_succ (.skip_succ (.skip_zero (runs_u32 (runs_u32_last (.pure _)))))))
  case stateProbe | stateProbeReply =>
    exact .u8 (.u8 (.u8 (.u8 (runs_u32 (runs_u32_last (.pure _))))))
  case stateProbeDone =>
    exact .u8 (.u8 (.u8 (.skip_succ (.skip_zero (runs_u32 (runs_u32_last (.pure _)))))))
  case sioMultiXfer => exact .u8 (.u8 (runs_u32 (runs_u16 (runs_u16_last (.pure _)))))
  case rbSync =>
    exact .u8 (.u8 (.u8 (.u8 (runs_u32 (runs_u32 (runs_u32 (runs_u32_last (.pure _))))))))
  case rbBaseline =>
    exact .u8 (.skip_succ (.skip_zero (runs_u32 (runs_u32 (runs_u32 (runs_u32 (runs_u32
      (runs_u32_last (.pure _)))))))))
  case rbPost => exact .u8 (.u8 (runs_u32 (runs_u32 (runs_u32 (runs_u32_last (.pure _))))))
  case rbFrameCommit => exact .u8 (.skip_succ (.skip_zero (runs_u32 (runs_u32_last (.pure _)))))
  case rbResolved => exact .u8 (.skip_succ (.skip_zero (runs_u32_last (.pure _))))

theorem decoded_type (sid : UInt32) (m : Msg) : (m.decoded sid).type=m.type := by
  cases m <;> rfl

theorem arrives_type {m' : Msg} (h : m.arrives=some m') : m'.type=m.type := by
  cases m
  case modset | modsetAck =>
    simp only [arrives] at h
    split at h <;> cases h
    rfl
  all_goals
    cases h
    rfl

variable {m : Msg} {cap : ℕ} {magic sid : UInt32} {bytes : List UInt8} {data : ℕ → UInt8}
theorem decode_encode (h : m.encode cap magic sid=some bytes)
    (hdata : Span.slice data 0 bytes.length=bytes) :
    decode data bytes.length magic=m.arrives.map (·.decoded sid) := by
  obtain ⟨body,rfl,hbody⟩ := encode_carries h
  have hread:=hbody sid [] fun _ => rfl
  refine decode_framed hdata ?_
  cases hm : m.arrives with
  | none => exact .bind_none (by rwa [hm] at hread)
  | some m' => exact .bind_last (by rwa [hm] at hread) (runs_readTrailer _)

theorem decode_tagged {cap' : ℕ} {e : UInt16} {tagged : List UInt8}
    (hcontrol : m.type.isRbControl) (h : m.encode cap magic sid=some bytes)
    (htag : tagRbEpoch cap' bytes e=some tagged)
    (hdata : Span.slice data 0 tagged.length=tagged) : decode data tagged.length magic =
      m.arrives.map fun m' => { m'.decoded sid with inputEpoch := e } := by
  obtain ⟨body,rfl,hbody⟩ := encode_carries h
  cases tagRbEpoch_framed htag
  have hread:=hbody sid (writeU16 e++[]) fun hno => by rw [hcontrol] at hno; cases hno
  refine decode_framed hdata ?_
  cases hm : m.arrives with
  | none =>
    refine .bind_none fun sp c hw => ?_
    rw [append_assoc] at hw
    rw [hm] at hread
    exact hread sp c hw
  | some m' =>
    rw [hm] at hread
    refine .bind hread (runs_readTrailer_tagged ?_ e)
    rw [decoded_type,arrives_type hm,hcontrol]

/-- **Round trip** of every packet kind, exactly for the faithful messages. -/
theorem codec_round_trip_iff (m : Msg) (cap : ℕ) (magic sid : UInt32) (bytes : List UInt8)
    (henc : m.encode cap magic sid=some bytes) (data : ℕ → UInt8)
    (hdata : Span.slice data 0 bytes.length=bytes) :
    (decode data bytes.length magic=some (m.decoded sid) ↔ m.Faithful) ∧
      (m.type.isRbControl=true → (m.decoded sid).inputEpoch=0 ∧
        ∀ (cap' : ℕ) (e : UInt16) (tagged : List UInt8) (data' : ℕ → UInt8),
          tagRbEpoch cap' bytes e=some tagged → Span.slice data' 0 tagged.length=tagged →
          (decode data' tagged.length magic=some { m.decoded sid with inputEpoch := e } ↔
            m.Faithful)) := by
  refine ⟨?_,fun hcontrol => ⟨?_,fun cap' e tagged data' htag hdata' => ?_⟩⟩
  · rw [decode_encode henc hdata]
    exact arrives_iff id (fun p q h => by cases h; exact ⟨rfl,rfl,rfl⟩) sid m
  · cases m <;> first | rfl | cases hcontrol
  · rw [decode_tagged hcontrol henc htag hdata']
    refine arrives_iff (fun p => { p with inputEpoch := e }) (fun p q h => ?_) sid m
    simp only [DecodedPacket.mk.injEq] at h
    simp only [h,and_self]

theorem codec_round_trip_resolved :
    ∃ bytes tagged,(rbResolved 1 77).encode 64 9 3=some bytes ∧ tagRbEpoch 64 bytes 5=some tagged ∧
      decode (bytes.getD · 0) bytes.length 9=some ((rbResolved 1 77).decoded 3) ∧
      decode (tagged.getD · 0) tagged.length 9 =
        some { (rbResolved 1 77).decoded 3 with inputEpoch := 5 } := by
  refine ⟨_,_,rfl,rfl,?_,?_⟩
  · exact (codec_round_trip_iff (rbResolved 1 77) 64 9 3 _ rfl _ (slice_getD _ 0)).1.mpr trivial
  · exact ((codec_round_trip_iff (rbResolved 1 77) 64 9 3 _ rfl _ (slice_getD _ 0)).2 rfl).2
      64 5 _ _ rfl (slice_getD _ 0) |>.mpr trivial

def lettersText (n : ℕ) : CString :=
  ⟨List.replicate n 97,fun h => absurd (List.eq_of_mem_replicate h) (by decide)⟩

theorem long_modset_refused :
    ∃ bytes,encodeModset 1200 9 3 1 (lettersText 1024)=some bytes ∧
      decode (bytes.getD · 0) bytes.length 9=none := by
  obtain ⟨bytes,henc⟩ : ∃ bytes,(modset 1 (lettersText 1024)).encode 1200 9 3=some bytes := by
    have hlen : (clampedText modsetTextMax (lettersText 1024)).length=1024 := by
      rw [clampedText,length_take,lettersText,length_replicate]
      rfl
    refine isSome_iff_exists.mp ?_
    simp only [encode,encodeModset,encodePacket,finishPacket,length_append,length_cons,
      length_packetHead,length_wordBytes,hlen]
    rfl
  refine ⟨bytes,henc,?_⟩
  rw [decode_encode henc (slice_getD _ 0),arrives,lettersText,
    if_pos (by rw [length_replicate]; exact Nat.le_refl _)]
  rfl

end Msg
end RecompNet.Proto
