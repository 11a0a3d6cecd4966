import RecompNet.Protocol.RoundTrip
import RecompNet.Rollback.SealTable
import RecompNet.Session.Whole
import RecompNet.Transport.Lan

/-!
# The exchange of seal rows

The owner of a seat exports chunks of its sealed rows, the session packs them into datagrams, the
receiver's session queues what it decodes, and its core merges what is taken into its own table.
-/
namespace RecompNet
open List Proto RbFrame
open Proto (DecodedPacket RbWireFrame)
open Whole (RbQueues emptyQueues ctrlQueue sameSealRows admitNewer)

/-- A row as `rnet_session_send_rb_seal_rows` packs it. -/
def RbFrame.toWire (f : RbFrame) : RbWireFrame where
  buttons := UInt16.ofNat f.buttons
  stickX := Int8.ofInt f.stickX
  stickY := Int8.ofInt f.stickY
  source := UInt8.ofNat f.analog
  isPredicted := if f.isPredicted then 1 else 0
  isValid := if f.isValid then 1 else 0
  rx := UInt8.ofNat f.rx
  ry := UInt8.ofNat f.ry

/-- A row as `rnet_session_take_rb_seal_rows` unpacks it. -/
def RbFrame.ofWire (tick : ℕ) (row : RbWireFrame) : RbFrame where
  tick
  buttons := row.buttons.toNat
  stickX := row.stickX.toInt
  stickY := row.stickY.toInt
  isPredicted := row.isPredicted != 0
  isValid := row.isValid != 0
  analog := row.source.toNat
  rx := row.rx.toNat
  ry := row.ry.toNat

/-- The ranges of the fields of `RNetRbFrame`. -/
structure RbFrame.Fits (f : RbFrame) : Prop where
  buttons : f.buttons<2^16
  stickX : -2^7≤f.stickX ∧ f.stickX<2^7
  stickY : -2^7≤f.stickY ∧ f.stickY<2^7
  analog : f.analog<2^8
  rx : f.rx<2^8
  ry : f.ry<2^8

theorem RbFrame.Fits.ofWire_toWire {f : RbFrame} (h : f.Fits) (tick : ℕ) :
    RbFrame.ofWire tick f.toWire={ f with tick } := by
  simp only [ofWire,toWire,UInt16.toNat_ofNat_of_lt' h.buttons,
    Int8.toInt_ofInt_of_le h.stickX.1 h.stickX.2,Int8.toInt_ofInt_of_le h.stickY.1 h.stickY.2,
    UInt8.toNat_ofNat_of_lt' h.analog,UInt8.toNat_ofNat_of_lt' h.rx,UInt8.toNat_ofNat_of_lt' h.ry]
  cases f.isPredicted <;> cases f.isValid <;> rfl

/-- What a sending session puts into its packets besides the rows. -/
structure SealWire where
  magic : UInt32
  sessionId : UInt32
  wireSlot : UInt8
  inputEpoch : UInt16

def SealWire.sendRbSealRows (w : SealWire) (epoch base target : ℕ) (slot : UInt8)
    (rowBegin : UInt32) (rows : List RbFrame) : Option (List UInt8) :=
  (Proto.encodeRbSealRows Transport.maxPacket w.magic w.sessionId w.wireSlot (UInt32.ofNat epoch)
    (UInt32.ofNat base) (UInt32.ofNat target) slot rowBegin
    ((rows.take Proto.sealRowsChunkMax).map RbFrame.toWire)).bind
      (Proto.tagRbEpoch Transport.maxPacket · w.inputEpoch)

/-- The rows `rnet_session_take_rb_seal_rows` hands out. -/
def takenRows (pkt : DecodedPacket) : List RbFrame :=
  pkt.rbRows.mapIdx fun i row => .ofWire ((pkt.rbRowBegin.toNat+i)%2^32) row

/-- The packet of some rows as the receiver decodes it. -/
def SealWire.packet (w : SealWire) (epoch base target : ℕ) (slot : UInt8) (rowBegin : UInt32)
    (rows : List RbFrame) : DecodedPacket :=
  { type := .rbSealRows,sessionId := w.sessionId,localSlot := w.wireSlot,rbSlot := slot
    rbEpochId := UInt32.ofNat epoch,rbMismatchTick := UInt32.ofNat base
    rbTargetTick := UInt32.ofNat target,rbRowBegin := rowBegin,rbRows := rows.map toWire
    inputEpoch := w.inputEpoch }

theorem SealWire.sendRbSealRows_arrives (w : SealWire) (epoch base target : ℕ) (slot : UInt8)
    (rowBegin : UInt32) {rows : List RbFrame} (hrows : rows.length≤Proto.sealRowsChunkMax) :
    ∃ bytes,w.sendRbSealRows epoch base target slot rowBegin rows=some bytes ∧
      Proto.decode (bytes.getD · 0) bytes.length w.magic =
        some (w.packet epoch base target slot rowBegin rows) := by
  let m : Msg := .rbSealRows w.wireSlot (UInt32.ofNat epoch) (UInt32.ofNat base)
    (UInt32.ofNat target) slot rowBegin (rows.map toWire)
  have htake : (rows.map toWire).take sealRowsChunkMax=rows.map toWire :=
    take_of_length_le (by rwa [length_map])
  -- Twenty-four rows of nine bytes are far from the limit of a packet.
  have hroom : rows.length*wireFrameBytes≤24*9 := Nat.mul_le_mul_right _ hrows
  obtain ⟨bytes,hbytes⟩ : ∃ bytes,m.encode Transport.maxPacket w.magic w.sessionId=some bytes := by
    simp only [m,Msg.encode,encodeRbSealRows,encodePacket,finishPacket,htake]
    rw [if_neg (Nat.not_lt_zero _),if_neg]
    · exact ⟨_,rfl⟩
    · simp only [length_append,length_cons,length_packetHead,length_writeU32,length_wordBytes,
        length_rows,length_map,Transport.maxPacket]
      omega
  have hframed:=hbytes
  simp only [m,Msg.encode,encodeRbSealRows] at hframed
  replace hframed := encodePacket_framed hframed
  obtain ⟨tagged,htagged⟩ : ∃ tagged,
      tagRbEpoch Transport.maxPacket bytes w.inputEpoch=some tagged := by
    have hlength : bytes.length≤300 ∧ 14≤bytes.length := by
      rw [hframed,length_framed]
      simp only [length_append,length_cons,length_writeU32,htake,
        length_wordBytes,length_rows,length_map]
      omega
    unfold tagRbEpoch finishPacket
    rw [if_neg (by unfold Transport.maxPacket; omega),if_neg]
    · exact ⟨_,rfl⟩
    · simp only [length_append,length_take,length_writeU16,Transport.maxPacket]
      omega
  refine ⟨tagged,?_,?_⟩
  · unfold SealWire.sendRbSealRows
    rw [take_of_length_le hrows]
    exact Option.bind_eq_some_iff.mpr ⟨bytes,hbytes,htagged⟩
  · rw [Msg.decode_tagged (m := m) rfl hbytes htagged (Span.slice_getD tagged 0)]
    simp only [m,Msg.arrives,htake]
    rfl

namespace RbSession
variable {τ : Type}
def merged (own row : RbFrame) (tick : ℕ) : RbFrame :=
  if row.isValid=false then own
  else if row.isPredicted ∧ own.isValid ∧ own.isPredicted=false then own
  else { row with tick }

theorem applyRow_span (s : RbSession) (slot offset : ℕ) (row : RbFrame) :
    (s.applyRow slot offset row).sealedSpan=s.sealedSpan ∧
      (s.applyRow slot offset row).sealBaseTick=s.sealBaseTick := by
  unfold applyRow
  split
  · exact ⟨rfl,rfl⟩
  · split <;> exact ⟨rfl,rfl⟩

theorem applyRows_span (slot : ℕ) (s : RbSession) (offset : ℕ) (rows : List RbFrame) :
    (s.applyRows slot offset rows).sealedSpan=s.sealedSpan := by
  induction rows generalizing s offset with
  | nil => rfl
  | cons row rows ih =>
    rw [applyRows]
    split
    · rfl
    · rw [ih,(applyRow_span s slot offset row).1]

/-- A chunk of an export: at most twenty-four rows. -/
structure Chunk where
  first : UInt32
  count : ℕ
  small : count≤Proto.sealRowsChunkMax

/-- The chunk carries the row at this offset. -/
def Chunk.Covers (c : Chunk) (o : ℕ) : Prop := c.first.toNat≤o ∧ o<c.first.toNat+c.count
instance (c : Chunk) (o : ℕ) : Decidable (c.Covers o) := instDecidableAnd

/-- The datagram of a chunk, one turn of the loop of `rb_send_local_seal_rows`. -/
def chunkBytes (owner : RbSession) (w : SealWire) (slot : UInt8) (c : Chunk) :
    Option (List UInt8) :=
  w.sendRbSealRows owner.corr.epochId owner.sealBaseTick owner.corr.targetTick slot c.first
    (owner.exportSealRowsChunk slot.toNat c.first.toNat c.count)

/-- The packet of a chunk as the receiver decodes it. -/
def sealPacket (owner : RbSession) (w : SealWire) (slot : UInt8) (c : Chunk) : DecodedPacket :=
  w.packet owner.corr.epochId owner.sealBaseTick owner.corr.targetTick slot c.first
    (owner.exportSealRowsChunk slot.toNat c.first.toNat c.count)

/-- A datagram of the peer goes into the session's queues. -/
def hear (magic : UInt32) (rb : RbQueues) (bytes : List UInt8) : RbQueues :=
  match Proto.decode (bytes.getD · 0) bytes.length magic with
  | none => rb
  | some pkt => rb.receive false pkt

variable (get : GetInputRow τ)

/-- An entry of `rb_seal_q` that is taken goes to the core. -/
def takeRows (sc : RbSession × τ) (pkt : DecodedPacket) : RbSession × τ :=
  (sc.1.applyPeerSealRows get pkt.rbEpochId.toNat pkt.rbMismatchTick.toNat
    pkt.rbTargetTick.toNat pkt.rbSlot.toNat pkt.rbRowBegin.toNat (takenRows pkt) sc.2).getD sc

/-- One round: datagrams arrive, then the driver takes all that waits. -/
def deliver (magic : UInt32) (sc : RbSession × τ) (round : List (List UInt8)) : RbSession × τ :=
  (round.foldl (hear magic) emptyQueues).sealRows.foldl (takeRows get) sc

/-- Owner and receiver have sealed the same span of the same episode. -/
structure SameEpisode (owner s : RbSession) (slot : UInt8) : Prop where
  ownerSealed : owner.inputsSealed
  isSealed : s.inputsSealed
  seat : slot.toNat < maxSlots
  epoch : s.corr.epochId=owner.corr.epochId
  base : s.sealBaseTick=owner.sealBaseTick
  target : s.corr.targetTick=owner.corr.targetTick
  span : s.sealedSpan=owner.sealedSpan
  words : owner.corr.epochId<2^32 ∧ owner.sealBaseTick<2^32 ∧ owner.corr.targetTick<2^32
  rows : ∀ o,(owner.sealed o slot.toNat).Fits

section Exchange
variable {owner s : RbSession} {slot : UInt8}
def sentRow (owner : RbSession) (slot : UInt8) (o : ℕ) : RbFrame :=
  { owner.sealed o slot.toNat with tick := o%2^32 }

section

variable (h : SameEpisode owner s slot)

include h

theorem SameEpisode.export_eq (c : Chunk) :
    owner.exportSealRowsChunk slot.toNat c.first.toNat c.count =
      (List.range (min (owner.sealedSpan-c.first.toNat) c.count)).map fun i =>
        owner.sealed (c.first.toNat+i) slot.toNat := if_pos ⟨h.ownerSealed,h.seat⟩

theorem SameEpisode.chunk_arrives (w : SealWire) (c : Chunk) :
    ∃ bytes,owner.chunkBytes w slot c=some bytes ∧
      Proto.decode (bytes.getD · 0) bytes.length w.magic=some (owner.sealPacket w slot c) := by
  refine w.sendRbSealRows_arrives owner.corr.epochId owner.sealBaseTick owner.corr.targetTick slot
    c.first ?_
  rw [h.export_eq,length_map,length_range]
  exact (Nat.min_le_right _ _).trans c.small

variable (get : GetInputRow τ)
theorem SameEpisode.takeRows (w : SealWire) (c : Chunk) (host : τ) :
    takeRows get (s,host) (owner.sealPacket w slot c) =
      (s.applyRows slot.toNat c.first.toNat ((List.range' c.first.toNat
        (min (owner.sealedSpan-c.first.toNat) c.count)).map (owner.sentRow slot)),host) := by
  obtain ⟨hepoch,hbase,htarget⟩ := h.words
  unfold RbSession.takeRows sealPacket SealWire.packet
  dsimp only
  unfold applyPeerSealRows
  rw [UInt32.toNat_ofNat_of_lt' hepoch,UInt32.toNat_ofNat_of_lt' hbase,
    UInt32.toNat_ofNat_of_lt' htarget,if_neg (by simp [h.isSealed,h.seat]),
    if_neg (by simp [h.epoch,h.base]),if_neg (by rw [h.target]; omega),
    if_neg (by rw [h.target]; omega),Option.getD_some]
  congr 2
  refine ext_getElem ?_ fun i hi hi' => ?_
  · simp [takenRows,h.export_eq]
  · simp only [takenRows,h.export_eq,getElem_mapIdx,getElem_map,getElem_range,
      getElem_range',Nat.one_mul]
    exact (h.rows _).ofWire_toWire _

omit get in
theorem SameEpisode.packet_ext (w : SealWire) {c c' : Chunk}
    (hsame : sameSealRows (owner.sealPacket w slot c) (owner.sealPacket w slot c')) :
    owner.sealPacket w slot c'=owner.sealPacket w slot c := by
  obtain ⟨-,-,-,-,-,hfirst,hlen⟩ := of_decide_eq_true hsame
  change c'.first=c.first at hfirst
  unfold sealPacket SealWire.packet at hlen ⊢
  simp only [h.export_eq,length_map,length_range] at hlen ⊢
  rw [hfirst] at hlen ⊢
  rw [hlen]

omit get h in
theorem receive_new {rb : RbQueues} {pkt : DecodedPacket} (htype : pkt.type=.rbSealRows)
    (hnew : ¬rb.sealRows.any (sameSealRows pkt)=true) (hlt : rb.sealRows.length<ctrlQueue) :
    (rb.receive false pkt).sealRows=rb.sealRows++[pkt] := by
  unfold RbQueues.receive
  rw [htype]
  dsimp only
  rw [if_neg hnew]
  change admitNewer pkt rb.sealRows=_
  rw [admitNewer,BoundedQueue.shed_of_lt hlt,BoundedQueue.offer,if_pos hlt]

omit get in
/-- Of a round that fits the queue, one chunk of each kind waits. -/
theorem SameEpisode.heard (w : SealWire) (r : List Chunk) (rb : RbQueues) (kept : List Chunk)
    (hq : rb.sealRows=kept.map (owner.sealPacket w slot))
    (hroom : kept.length+r.length≤ctrlQueue) :
    ∃ kept' : List Chunk,((r.filterMap (owner.chunkBytes w slot)).foldl (hear w.magic) rb).sealRows =
        kept'.map (owner.sealPacket w slot) ∧ (∀ c∈kept',c∈kept++r) ∧
      ∀ c∈kept++r,∃ c'∈kept',owner.sealPacket w slot c'=owner.sealPacket w slot c := by
  induction r generalizing rb kept with
  | nil => exact ⟨kept,hq,by simp,fun c hc => ⟨c,by simpa using hc,rfl⟩⟩
  | cons c r ih =>
    obtain ⟨bytes,hbytes,hdecode⟩ := h.chunk_arrives w c
    have hhear : hear w.magic rb bytes=rb.receive false (owner.sealPacket w slot c) := by
      unfold hear
      rw [hdecode]
    have hlen : kept.length+r.length+1≤ctrlQueue := hroom
    rw [filterMap_cons_some hbytes,foldl_cons,hhear]
    by_cases hany : rb.sealRows.any (sameSealRows (owner.sealPacket w slot c))=true
    · have hstay : rb.receive false (owner.sealPacket w slot c)=rb := if_pos hany
      rw [hstay]
      obtain ⟨kept',hkept,hsub,hall⟩ := ih rb kept hq (by omega)
      refine ⟨kept',hkept,fun c' hc' => ?_,fun c' hc' => ?_⟩
      · exact (mem_append.mp (hsub c' hc')).elim (mem_append_left _)
          fun hr => mem_append_right _ (mem_cons_of_mem c hr)
      · rcases mem_append.mp hc' with hk | hr
        · exact hall c' (mem_append_left r hk)
        rcases mem_cons.mp hr with rfl | hr
        · rw [hq] at hany
          obtain ⟨e,he,hsame⟩ := any_eq_true.mp hany
          obtain ⟨c₀,hc₀,rfl⟩ := mem_map.mp he
          obtain ⟨c₁,hc₁,heq⟩ := hall c₀ (mem_append_left r hc₀)
          exact ⟨c₁,hc₁,heq.trans (h.packet_ext w hsame)⟩
        · exact hall c' (mem_append_right kept hr)
    · have hlt : rb.sealRows.length<ctrlQueue := by
        rw [hq,length_map]
        omega
      have hnext : (rb.receive false (owner.sealPacket w slot c)).sealRows =
          (kept++[c]).map (owner.sealPacket w slot) := by
        rw [receive_new rfl hany hlt,hq,map_append]
        rfl
      obtain ⟨kept',hkept,hsub,hall⟩ := ih _ (kept++[c]) hnext (by
        rw [length_append,length_singleton]
        omega)
      rw [append_assoc,singleton_append] at hsub hall
      exact ⟨kept',hkept,hsub,hall⟩

theorem SameEpisode.applyRows (offset : ℕ) (rows : List RbFrame) :
    SameEpisode owner (s.applyRows slot.toNat offset rows) slot := by
  have hsame:=applyRows_same slot.toNat s offset rows
  exact ⟨h.ownerSealed,hsame.isSealed.trans h.isSealed,h.seat,by rw [hsame.corr,h.epoch],
    hsame.base.trans h.base,by rw [hsame.corr,h.target],(applyRows_span ..).trans h.span,
    h.words,h.rows⟩

end

end Exchange

end RbSession
end RecompNet
