import Mathlib.Data.List.GetD
import RecompNet.Protocol.Codec

/-!
# What the decoder looks at

The checks of `rnet_proto_decode` compare unsigned distances to the checksum.
-/
namespace RecompNet.Proto
open Reader Span

theorem readFrame_local : Local 0 readFrame :=
  .need (.u32 fun _ => .u16 fun _ => .ite .fail (.needTake (.bytes _) fun _ => .pure _))

theorem readRbFrame_takes : Takes 9 readRbFrame :=
  .bind .u16 fun _ => .bind .u8 fun _ => .bind .u8 fun _ => .bind .u8 fun _ => .bind .u8 fun _ =>
    .bind .u8 fun _ => .bind .u8 fun _ => .bind .u8 fun _ => .pure _

theorem readAcks_local : Local 0 readAcks := by
  refine .atEnd (.pure _) (.u8 fun count => .ite .fail (.needExactly ?_))
  rw [Nat.mul_comm]
  exact (Takes.times .u32 _).local

theorem readText_local (limit n : ℕ) : Local 0 (readText limit n) :=
  .ite .fail (.need (Takes.bytes n).local)

variable (out : DecodedPacket)
theorem decodeBody_local : Local 0 (decodeBody out) := by
  unfold decodeBody
  cases out.type with
  | hello =>
    exact .need (.u8 fun _ => .u8 fun _ => .u8 fun _ => .u8 fun _ => .pure _)
  | ready | bye =>
    exact .need (.u8 fun _ => .skip 3 (.pure _))
  | start =>
    exact .need (.u32 fun _ => .pure _)
  | input =>
    exact .need (.u8 fun _ => .u8 fun _ => .u16 fun _ => .u32 fun _ => .ite .fail
      (.bind (.times readFrame_local _) fun _ => .bind readAcks_local fun _ => .pure _))
  | delaySync =>
    exact .need (.u8 fun _ => .skip 3 (.u32 fun _ => .pure _))
  | inputConfirm =>
    exact .need (.u8 fun _ => .u16 fun _ => .skip 1 (.u32 fun _ => .u32 fun _ => .pure _))
  | stateBegin =>
    exact .need (.u8 fun _ => .u8 fun _ => .u8 fun _ => .skip 1
      (.u32 fun _ => .u32 fun _ => .u32 fun _ => .pure _))
  | stateChunk =>
    exact .need (.u8 fun _ => .skip 3 (.u32 fun _ => .u32 fun _ => .u16 fun _ => .skip 2
      (.ite .fail (.needTake (.bytes _) fun _ => .pure _))))
  | stateAck =>
    exact .need (.u8 fun _ => .skip 3 (.u32 fun _ => .u32 fun _ => .pure _))
  | stateProbe | stateProbeReply =>
    exact .need (.u8 fun _ => .u8 fun _ => .u8 fun _ => .u8 fun _ =>
      .u32 fun _ => .u32 fun _ => .pure _)
  | stateProbeDone =>
    exact .need (.u8 fun _ => .u8 fun _ => .u8 fun _ => .skip 1 (.u32 fun _ => .u32 fun _ => .pure _))
  | sioMultiXfer =>
    exact .need (.u8 fun _ => .u8 fun _ => .u32 fun _ => .u16 fun _ => .u16 fun _ => .pure _)
  | rbSync =>
    exact .need (.u8 fun _ => .u8 fun _ => .u8 fun _ => .u8 fun _ =>
      .u32 fun _ => .u32 fun _ => .u32 fun _ => .u32 fun _ => .pure _)
  | rbSealRows =>
    exact .need (.u8 fun _ => .u8 fun _ => .u16 fun _ =>
      .u32 fun _ => .u32 fun _ => .u32 fun _ => .u32 fun _ =>
        .ite .fail (.needTake (Takes.times readRbFrame_takes _) fun _ => .pure _))
  | rbBaseline =>
    exact .need (.u8 fun _ => .skip 1 (.u32 fun _ => .u32 fun _ => .u32 fun _ => .u32 fun _ =>
      .u32 fun _ => .u32 fun _ => .pure _))
  | rbPost =>
    exact .need (.u8 fun _ => .u8 fun _ =>
      .u32 fun _ => .u32 fun _ => .u32 fun _ => .u32 fun _ => .pure _)
  | rbFrameCommit =>
    exact .need (.u8 fun _ => .skip 1 (.u32 fun _ => .u32 fun _ => .pure _))
  | rbResolved =>
    exact .need (.u8 fun _ => .skip 1 (.u32 fun _ => .pure _))
  | modset | modsetAck =>
    exact .need (.u8 fun _ => .u8 fun _ => .u16 fun _ => .bind (readText_local _ _) fun _ => .pure _)

theorem readTrailer_local : Local 0 (readTrailer out) where
  same {sp sp' c} hs hm hc := by
    unfold readTrailer
    rw [hs]
    split
    · rfl
    split
    · next he => rw [Takes.u16.same fun i hi => hm _ (by omega)]
    · rfl
  inside {sp c c' a} hc h := by
    unfold readTrailer at h
    split at h
    · cases h
      exact hc
    split at h
    · next he =>
      cases h
      omega
    split at h
    · cases h
    · cases h
      exact hc

theorem packet_local : Local 0 (decodeBody out >>= readTrailer) :=
  .bind (decodeBody_local out) readTrailer_local

/-- The buffers agree on the first `n` bytes. -/
def AgreeBelow (n : ℕ) (data data' : ℕ → UInt8) : Prop := ∀ i<n,data' i=data i

variable {data data' : ℕ → UInt8}
theorem AgreeBelow.slice {n c k : ℕ} (h : AgreeBelow n data data')
    (hk : c+k≤n) : Span.slice data' c k=Span.slice data c k :=
  slice_congr fun i hi => h _ (by omega)

variable {len : ℕ}
theorem decodeFields_congr (hlen : 14≤len)
    (h : AgreeBelow (len-4) data data') : decodeFields data' len=decodeFields data len := by
  unfold decodeFields
  rw [h.slice (c := 4) (k := 2) (by omega),h.slice (c := 6) (k := 4) (by omega)]
  split
  · rfl
  · exact congrArg (Option.map Prod.fst) ((packet_local _).same rfl h (show 10+0≤len-4 by omega))

variable {magic : UInt32}
theorem decode_congr (hlen : 14≤len)
    (h : AgreeBelow len data data') : decode data' len magic=decode data len magic := by
  unfold decode
  rw [h.slice (c := 0) (k := 4) (by omega),h.slice (c := 0) (k := len-4) (by omega),
    h.slice (c := len-4) (k := 4) (by omega),decodeFields_congr hlen fun i hi => h i (by omega)]

theorem decode_short_hello (hlow : 10≤len)
    (hhigh : len<14) (hmagic : Span.slice data 0 4=writeU32 magic)
    (htype : Span.slice data 4 2=wordBytes 2 PktType.hello.code)
    (hsum : Span.slice data (len-4) 4=wordBytes 4 (protoChecksum (Span.slice data 0 (len-4)))) :
    decode data len magic=some {
      type := .hello,sessionId := UInt32.ofNat (leWord (slice data 6 4))
      localSlot := data 10,slotCount := data 11,delay := data 12,wireVersion := data 13 } := by
  have hneed : ¬ left ⟨data,len-4⟩ 10<4 := by
    rw [left,if_neg (by dsimp only; omega)]
    dsimp only
    omega
  rw [decode_eq_decodeFields .hello hlow hmagic htype hsum]
  simp only [decodeBody,bind_apply,need,hneed,if_false,u8,pure_apply,readTrailer,
    PktType.isRbControl,Bool.not_false,if_true,Option.map_some]

def shortHelloHead (len : ℕ) (magic : UInt32) : List UInt8 :=
  writeU32 magic++(wordBytes 2 PktType.hello.code++List.replicate (len-10) 0)
def shortHello (len : ℕ) (magic : UInt32) (x : UInt8) (i : ℕ) : UInt8 :=
  (shortHelloHead len magic++wordBytes 4 (protoChecksum (shortHelloHead len magic))).getD i x

variable {len : ℕ} {magic : UInt32}
theorem length_shortHelloHead (hlow : 10≤len) : (shortHelloHead len magic).length=len-4 := by
  simp only [shortHelloHead,writeU32,List.length_append,length_wordBytes,List.length_replicate]
  omega

theorem shortHello_agree (hlow : 10≤len) (x y : UInt8) :
    AgreeBelow len (shortHello len magic x) (shortHello len magic y) := by
  intro i hi
  have hlen : i<(shortHelloHead len magic ++
      wordBytes 4 (protoChecksum (shortHelloHead len magic))).length := by
    rw [List.length_append,length_shortHelloHead hlow,length_wordBytes]
    omega
  simp only [shortHello,List.getD_eq_getElem _ _ hlen]

theorem shortHello_decodes (hlow : 10≤len) (hhigh : len<14) (magic : UInt32) (x : UInt8) :
    ∃ p,decode (shortHello len magic x) len magic=some p ∧ p.wireVersion=x := by
  have hhead : (shortHelloHead len magic).length=len-4 := length_shortHelloHead hlow
  have hall : slice (shortHello len magic x) 0 _ = _ := slice_getD
    (shortHelloHead len magic++wordBytes 4 (protoChecksum (shortHelloHead len magic))) x
  have hhd : slice (shortHello len magic x) 0 (len-4)=shortHelloHead len magic :=
    slice_middle [] _ _ hall rfl hhead
  have hsum : slice (shortHello len magic x) (len-4) 4 =
      wordBytes 4 (protoChecksum (shortHelloHead len magic)) :=
    slice_middle _ _ [] (by rwa [List.append_nil]) hhead (length_wordBytes _ _)
  rw [shortHelloHead,List.append_assoc,List.append_assoc] at hall
  have hmagic : slice (shortHello len magic x) 0 4=writeU32 magic :=
    slice_middle [] _ _ hall rfl (length_wordBytes _ _)
  have htype : slice (shortHello len magic x) 4 2=wordBytes 2 PktType.hello.code :=
    slice_middle _ _ _ hall (length_wordBytes _ _) (length_wordBytes _ _)
  refine ⟨_,decode_short_hello hlow hhigh hmagic htype (by rw [hsum,hhd]),?_⟩
  refine List.getD_eq_default _ _ ?_
  rw [List.length_append,hhead,length_wordBytes]
  omega

/-- Decoding reads the datagram alone exactly for the lengths that hold a checksum. -/
theorem decode_depends_on_datagram_iff (len : ℕ) (magic : UInt32) :
    ((∀ data data',AgreeBelow len data data' → decode data' len magic=decode data len magic) ∧
      (10≤len → ∀ data data',AgreeBelow (len-4) data data' →
        decodeFields data' len=decodeFields data len)) ↔ len<10 ∨ 14≤len := by
  constructor
  · rintro ⟨hsame,-⟩
    by_contra hne
    obtain ⟨hlow,hhigh⟩ : 10≤len ∧ len<14 := by omega
    obtain ⟨p,hp,hp0⟩ := shortHello_decodes hlow hhigh magic 0
    obtain ⟨q,hq,hq1⟩ := shortHello_decodes hlow hhigh magic 1
    rw [hsame _ _ (shortHello_agree hlow 0 1),hp] at hq
    cases hq
    rw [hp0] at hq1
    exact absurd hq1 (by decide)
  · rintro (hlen | hlen)
    · exact ⟨fun data data' _ => by rw [decode,decode,if_pos hlen,if_pos hlen],fun h => by omega⟩
    · exact ⟨fun _ _ h => decode_congr hlen h,fun _ _ _ h => decodeFields_congr hlen h⟩

theorem fields_from_behind_datagram :
    AgreeBelow 10 (shortHello 10 0x544E4352 0) (shortHello 10 0x544E4352 2) ∧
      (decode (shortHello 10 0x544E4352 0) 10 0x544E4352).map (·.wireVersion)=some 0 ∧
      (decode (shortHello 10 0x544E4352 2) 10 0x544E4352).map (·.wireVersion)=some 2 := by
  refine ⟨shortHello_agree (by decide) 0 2,?_,?_⟩ <;> decide +kernel

end RecompNet.Proto
