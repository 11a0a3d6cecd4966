import Mathlib.Data.List.TakeWhile
import RecompNet.Lobby.XferMemory

/-!
# When the head blob of a transfer can still be delivered

The sender resumes at what was acknowledged and never goes back behind it.
-/
namespace RecompNet.Xfer
open List IceXfer

structure SaneBlob (b : XferBlob) : Prop where
  ahead : b.unacked≤b.nextOff
  left : b.unacked<b.len ∨ b.len=0

def XferBlob.core (b : XferBlob) : Blob × UInt32 × ℕ := (b.data,b.id,b.unacked)

variable {b b' : XferBlob}
theorem len_of_core (h : b'.core=b.core) : b'.len=b.len := by
  unfold XferBlob.len
  rw [(Prod.mk.inj h).1]

def SaneQueue (x : IceXfer) : Prop := ∀ b∈x.sendQ,SaneBlob b

def PiecesFrom (b : XferBlob) (lo : ℕ) (out : List Pkt) : Prop :=
  ∀ p∈out,∃ off,lo≤off ∧ off<b.len ∧
    p=.data b.id b.len off ((b.data.bytes.drop off).take payloadMax)

def pieceAt (b : XferBlob) (off : ℕ) : Pkt :=
  .data b.id b.len off ((b.data.bytes.drop off).take payloadMax)

theorem pieceAt_of_core (h : b'.core=b.core) (off : ℕ) : pieceAt b' off=pieceAt b off := by
  unfold pieceAt
  rw [len_of_core h,show b'.data=b.data from congrArg (·.1) h,
    show b'.id=b.id from congrArg (·.2.1) h]

theorem PiecesFrom.of_core {lo lo' : ℕ} {out : List Pkt}
    (hout : PiecesFrom b' lo' out) (h : b'.core=b.core) (hlo : lo≤lo') : PiecesFrom b lo out := by
  intro p hp
  obtain ⟨off,hoff,hlt,rfl⟩ := hout p hp
  exact ⟨off,hlo.trans hoff,len_of_core h ▸ hlt,pieceAt_of_core h off⟩

theorem length_piece (b : XferBlob) (off : ℕ) :
    ((b.data.bytes.drop off).take payloadMax).length=min (b.len-off) payloadMax := by
  rw [length_take,length_drop,Nat.min_comm]
  rfl

namespace IceXfer
variable {b : XferBlob}
theorem sendData_of_lt (x : IceXfer) {off : ℕ} (h : off<b.len) :
    x.sendData b off={ x with out := x.out++[pieceAt b off] } := if_neg (not_lt.mpr h.le)

theorem sendWindow_from (now : UInt64) (fuel : ℕ) (b : XferBlob) (x : IceXfer) :
    ∃ out,PiecesFrom b b.nextOff out ∧ (sendWindow now fuel b x).1={ x with out := x.out++out } ∧
      (sendWindow now fuel b x).2.core=b.core ∧ b.nextOff≤(sendWindow now fuel b x).2.nextOff := by
  induction fuel generalizing b x with
  | zero => exact ⟨[],by simp [PiecesFrom],by simp [sendWindow],rfl,le_rfl⟩
  | succ fuel ih =>
    unfold sendWindow
    split
    · next hgo =>
      rw [sendData_of_lt x hgo.1]
      obtain ⟨out,hout,hx,hcore,hnext⟩ := ih
        { b with nextOff := b.nextOff+min (b.len-b.nextOff) payloadMax,lastSendMs := now }
        { x with out := x.out++[pieceAt b b.nextOff] }
      have hstep : b.nextOff≤b.nextOff+min (b.len-b.nextOff) payloadMax := Nat.le_add_right ..
      refine ⟨pieceAt b b.nextOff::out,?_,?_,hcore,hstep.trans hnext⟩
      · intro p hp
        rcases mem_cons.mp hp with rfl | hp
        · exact ⟨b.nextOff,le_rfl,hgo.1,rfl⟩
        · obtain ⟨off,hlo,hlt,rfl⟩ := hout p hp
          exact ⟨off,hstep.trans hlo,hlt,rfl⟩
      · rw [hx]
        simp
    · exact ⟨[],by simp [PiecesFrom],by simp,rfl,le_rfl⟩

theorem sendEmpty_of_pos (x : IceXfer) (now : UInt64) (h : 0<b.len) : x.sendEmpty now b=(x,b) :=
  if_neg fun hno => by omega

theorem rewindCursor_core (now : UInt64) (b : XferBlob) : (rewindCursor now b).core=b.core := by
  unfold rewindCursor
  simp only
  split <;> split <;> rfl

variable {now : UInt64}
theorem rewindCursor_ahead (h : b.unacked≤b.nextOff) : b.unacked≤(rewindCursor now b).nextOff := by
  unfold rewindCursor
  simp only
  split <;> split <;> first | exact le_rfl | exact h

theorem rewindCursor_due (h : b.unacked≤b.nextOff)
    (hdue : retryMs≤now-b.lastSendMs) : (rewindCursor now b).nextOff=b.unacked := by
  unfold rewindCursor
  simp only
  split
  · rw [if_neg]
    rintro ⟨-,hlt⟩
    exact absurd hlt (lt_irrefl _)
  split
  · rfl
  next hno =>
  have hle : ¬ b.unacked<b.nextOff := fun hlt => hno ⟨hdue,hlt⟩
  omega

variable {x : IceXfer} {rest : List XferBlob}
theorem pumpSend_pieces (now : UInt64) (hq : x.sendQ=b::rest) (hlt : b.unacked<b.len) :
    ∃ b' out,x.pumpSend now={ x with sendQ := b'::rest,out := x.out++out } ∧
      b'.core=b.core ∧ (b.unacked≤b.nextOff → b'.unacked≤b'.nextOff) ∧
      PiecesFrom b (rewindCursor now b).nextOff out := by
  have hcore:=rewindCursor_core now b
  have hahead : b.unacked≤b.nextOff → b.unacked≤(rewindCursor now b).nextOff := rewindCursor_ahead
  unfold pumpSend
  simp only [hq]
  rw [if_neg (not_le.mpr hlt)]
  generalize rewindCursor now b=c at hcore hahead
  obtain ⟨out,hout,hx,hcore',hnext⟩ := sendWindow_from now (c.len-c.nextOff) c x
  generalize sendWindow now (c.len-c.nextOff) c x=r at hx hcore' hnext
  have hpos : 0 < r.2.len := by
    rw [len_of_core (hcore'.trans hcore)]
    omega
  rw [sendEmpty_of_pos _ _ hpos]
  refine ⟨r.2,out,?_,hcore'.trans hcore,fun h => ?_,hout.of_core hcore le_rfl⟩
  · simp only [hx]
  · have hu : r.2.unacked=b.unacked := congrArg (·.2.2) (hcore'.trans hcore)
    have hge:=hahead h
    omega

theorem pumpSend_due (hq : x.sendQ=b::rest) (hs : SaneBlob b) (hlt : b.unacked<b.len)
    (hdue : retryMs≤now-b.lastSendMs) :
    ∃ tail,(x.pumpSend now).out=x.out++pieceAt b b.unacked::tail ∧ PiecesFrom b b.unacked tail := by
  have hoff:=rewindCursor_due hs.ahead hdue
  have hcore:=rewindCursor_core now b
  unfold pumpSend
  simp only [hq]
  rw [if_neg (not_le.mpr hlt)]
  generalize rewindCursor now b=c at hcore hoff
  have hlen:=len_of_core hcore
  have hu : c.unacked=b.unacked := congrArg (·.2.2) hcore
  obtain ⟨fuel,hfuel⟩ : ∃ fuel,c.len-c.nextOff=fuel+1 := ⟨c.len-c.nextOff-1,by omega⟩
  have hgo : c.nextOff<c.len ∧ c.nextOff<c.unacked+window*payloadMax := by
    have hwin : 0<window*payloadMax := by decide
    omega
  rw [hfuel]
  unfold sendWindow
  rw [if_pos hgo,sendData_of_lt x hgo.1,hoff,pieceAt_of_core hcore]
  generalize hc' : ({ c with
    nextOff := b.unacked+min (c.len-b.unacked) payloadMax,lastSendMs := now } : XferBlob)=c'
  have hcore' : c'.core=b.core := by
    rw [← hc',← hcore]
    rfl
  have hnext : b.unacked ≤ c'.nextOff := by
    rw [← hc']
    exact Nat.le_add_right ..
  obtain ⟨out,hout,hx,hcore'',-⟩ := sendWindow_from now fuel c'
    { x with out := x.out++[pieceAt b b.unacked] }
  simp only
  generalize sendWindow now fuel c' { x with out := x.out++[pieceAt b b.unacked] }=r at hx hcore''
  have hpos : 0 < r.2.len := by
    rw [len_of_core (hcore''.trans hcore')]
    omega
  rw [sendEmpty_of_pos _ _ hpos]
  exact ⟨out,by simp [hx],hout.of_core hcore' hnext⟩

variable (x)
theorem pumpSend_core (now : UInt64) :
    (x.pumpSend now).sendQ.map XferBlob.core=x.sendQ.map XferBlob.core ∧
      (SaneQueue x → SaneQueue (x.pumpSend now)) := by
  cases hq : x.sendQ with
  | nil =>
    have heq : x.pumpSend now=x := by simp only [pumpSend,hq]
    rw [heq,hq]
    exact ⟨rfl,id⟩
  | cons b rest =>
    by_cases hlt : b.unacked<b.len
    · obtain ⟨b',out,heq,hcore,hahead,-⟩ := pumpSend_pieces now hq hlt
      rw [heq]
      refine ⟨by simp [hcore],fun hs c hc => ?_⟩
      rcases mem_cons.mp hc with rfl | hc
      · refine ⟨hahead (hs b (by rw [hq]; exact mem_cons_self)).ahead,.inl ?_⟩
        have hu : c.unacked=b.unacked := congrArg (·.2.2) hcore
        rw [hu,len_of_core hcore]
        exact hlt
      · exact hs c (by rw [hq]; exact mem_cons_of_mem _ hc)
    · have heq : x.pumpSend now=x := by
        unfold pumpSend
        simp only [hq]
        rw [if_pos (not_lt.mp hlt)]
      rw [heq,hq]
      exact ⟨rfl,id⟩

theorem failXfer_sendQ (err : List UInt8) : (x.failXfer err).sendQ=x.sendQ := by
  unfold failXfer
  split <;> rfl

variable (malloc : ℕ → Bool)
theorem handleData_sendQ (id : UInt32) (total off : ℕ)
    (payload : List UInt8) : (x.handleData malloc id total off payload).sendQ=x.sendQ := by
  have hopen : ∀ y : IceXfer,(y.openRecv malloc id total).1.sendQ=y.sendQ := by
    intro y
    unfold openRecv
    split
    · rfl
    simp only
    split
    · exact failXfer_sendQ ..
    · rfl
  have htake : ∀ y : IceXfer,(y.takeChunk id off payload).sendQ=y.sendQ := by
    intro y
    unfold takeChunk
    split
    · rfl
    split
    · exact failXfer_sendQ ..
    unfold appendChunk
    simp only
    split <;> rfl
  unfold handleData
  simp only
  split
  · exact failXfer_sendQ ..
  have ho:=hopen (x.note (.data id))
  split
  · next heq => rw [heq] at ho; exact ho
  · next heq => rw [heq] at ho; exact (htake _).trans ho

variable {x}
theorem handleAck_sane (id : UInt32) (got : ℕ) (h : SaneQueue x) :
    SaneQueue (x.handleAck id got) := by
  unfold handleAck
  split
  · exact h
  next b rest hq =>
  have hrest : ∀ c∈rest,SaneBlob c := fun c hc => h c (by rw [hq]; exact mem_cons_of_mem _ hc)
  split
  · exact h
  split
  · exact h
  split
  · exact hrest
  next hmore =>
  intro c hc
  rcases mem_cons.mp hc with rfl | hc
  · exact ⟨le_max_right _ _,.inl (not_le.mp hmore)⟩
  · exact hrest c hc

theorem handlePkt_sane (buf : List UInt8) (h : SaneQueue x) :
    SaneQueue (handlePkt malloc x buf) := by
  unfold handlePkt
  split
  · exact h
  next p _ =>
  cases p with
  | fail err =>
    unfold SaneQueue handle
    rw [failXfer_sendQ]
    exact h
  | ack id got => exact handleAck_sane id got h
  | data id total off payload =>
    unfold SaneQueue handle
    rw [handleData_sendQ]
    exact h

theorem perform_sane (c : Call) (h : SaneQueue x) : SaneQueue (x.perform c) := by
  cases c with
  | queue data =>
    change SaneQueue (x.queueBlob data)
    unfold queueBlob
    split
    · exact h
    intro b hb
    rcases mem_append.mp hb with hold | hnew
    · exact h b hold
    · rw [mem_singleton.mp hnew]
      exact ⟨le_rfl,Nat.eq_zero_or_pos _ |>.symm⟩
  | take =>
    change SaneQueue x.takeBlob
    unfold takeBlob
    split <;> exact h
  | fail err =>
    change SaneQueue ((x.failXfer err).send _)
    intro b hb
    exact h b (by rw [← failXfer_sendQ x err]; exact hb)
  | pump now state inbox malloc =>
    refine pump_induction (P := SaneQueue) _ h (fun y buf _ hy => handlePkt_sane malloc buf hy)
      (fun y now hy => (pumpSend_core y now).2 hy) fun y err hy => ?_
    unfold SaneQueue
    rw [failXfer_sendQ]
    exact hy

end IceXfer

theorem reachable_sane {w : Link} (hw : Reachable w) (i : Bool) :
    SaneQueue (w.node i) ∧ ∃ block,(w.node i).recvActive → RecvFits (w.node i) block := by
  induction hw with
  | start h =>
    obtain ⟨now,hx⟩ := h.1 i
    rw [hx]
    exact ⟨forall_mem_nil _,none,fun ha => absurd ha Bool.false_ne_true⟩
  | @call w j c hw _ _ ih =>
    by_cases hj : i=j
    · subst hj
      obtain ⟨hsane,block,hfits⟩ := ih
      have hgood : MemoryGood ⟨w.node i,block,[]⟩ := ⟨hfits,forall_mem_nil _⟩
      have hafter:=Memory.good_perform hgood c
      have hx:=Memory.perform_x ⟨w.node i,block,[]⟩ c
      rw [Net.next_node_self]
      refine ⟨(w.node i).perform_sane c hsane,(Memory.perform ⟨w.node i,block,[]⟩ c).block,?_⟩
      intro ha
      have hrecv:=hafter.recv
      rw [hx] at hrecv
      exact (hrecv ha).frame rfl rfl
    · simpa only [Net.next,Function.update_of_ne hj] using ih

def IceXfer.heldFor (x : IceXfer) (id : UInt32) : ℕ :=
  if x.recvActive ∧ x.recvId=id then x.recvBuf.length else 0

structure Beat where
  send : UInt64
  recv : UInt64
  back : UInt64
  malloc : ℕ → Bool

def answers (out : List Pkt) : List Pkt := out.filter fun
    | .ack _ _ => true
    | _ => false

def lossFree (t : Beat) (p : IceXfer × IceXfer) : IceXfer × IceXfer :=
  let s:=p.1.rest.pump ⟨t.send,.connected,[],t.malloc⟩
  let r:=p.2.rest.pump ⟨t.recv,.connected,s.out.map Pkt.encode,t.malloc⟩
  (s.rest.pump ⟨t.back,.connected,(answers r.out).map Pkt.encode,t.malloc⟩,r)

def Due (t : Beat) (p : IceXfer × IceXfer) : Prop :=
  ∀ b∈p.1.sendQ.head?,retryMs≤t.send-b.lastSendMs ∧ t.malloc b.len
def rounds (ts : List Beat) (p : IceXfer × IceXfer) : IceXfer × IceXfer :=
  ts.foldl (fun p t => lossFree t p) p

def Paced : List Beat → IceXfer × IceXfer → Prop
  | [],_ => True
  | t::ts,p => Due t p ∧ Paced ts (lossFree t p)

def Advanced (b : XferBlob) (n : ℕ) (x : IceXfer) : Prop :=
  x.sendQ.length<n ∨ ∃ b'∈x.sendQ.head?,b.unacked<b'.unacked

def Emits (s : IceXfer) (b : XferBlob) : Prop :=
  ∀ (now : UInt64) (malloc : ℕ → Bool) (inbox : List (List UInt8)) (b' : XferBlob)
    (rest : List XferBlob),
    let x:=(inbox.takeWhile (· ≠ [])).foldl (IceXfer.handlePkt malloc) s.rest
    x.failed=false → x.sendQ=b'::rest → b'.data=b.data → b'.id=b.id → retryMs≤now-b'.lastSendMs →
      ∃ off payload,.data b.id b.len off payload ∈
        (s.rest.pump ⟨now,.connected,inbox,malloc⟩).out

def NeverStuck (s r : IceXfer) (b : XferBlob) : Prop :=
  Emits s b ∧ ∃ n,∀ ts,ts.length=n → Paced ts (s,r) → Advanced b s.sendQ.length (rounds ts (s,r)).1

def Hears (r : IceXfer) (b : XferBlob) : Prop :=
  b.len ≤ sizeMax/2 ∧ (b.unacked < r.heldFor b.id ∨ b.unacked=r.heldFor b.id ∧
    (r.recvActive → r.recvId=b.id → b.unacked+min (b.len-b.unacked) payloadMax ≤ r.recvTotal))

section Answers
variable {r : IceXfer} {b : XferBlob} {malloc : ℕ → Bool}
theorem encode_ne_nil (p : Pkt) : p.encode≠[] := by
  cases p <;> exact cons_ne_nil _ _

theorem takeWhile_encode (out : List Pkt) :
    (out.map Pkt.encode).takeWhile (· ≠ [])=out.map Pkt.encode := by
  refine takeWhile_eq_self_iff.mpr fun buf hbuf => ?_
  obtain ⟨p,-,rfl⟩ := mem_map.mp hbuf
  simpa using encode_ne_nil p

variable {off : ℕ}
theorem handlePkt_piece (r : IceXfer) (h : off<b.len) :
    IceXfer.handlePkt malloc r (pieceAt b off).encode =
      r.handleData malloc b.id b.len off ((b.data.bytes.drop off).take payloadMax) := by
  have hfits : b.len ≤ sizeMax := b.data.fits
  unfold handlePkt pieceAt
  rw [decode_data hfits (h.le.trans hfits) (length_take_le ..)]
  rfl

theorem handlePkt_out (malloc : ℕ → Bool) (x : IceXfer) (buf : List UInt8) :
    x.out <+: (IceXfer.handlePkt malloc x buf).out := by
  have hfail : ∀ (y : IceXfer) err,(y.failXfer err).out=y.out := by
    intro y err
    unfold failXfer
    split <;> rfl
  have htake : ∀ (y : IceXfer) id off payload,y.out <+: (y.takeChunk id off payload).out := by
    intro y id off payload
    unfold takeChunk
    split
    · exact prefix_append ..
    split
    · rw [hfail]
    unfold appendChunk
    simp only
    split <;> exact prefix_append ..
  unfold handlePkt
  split
  · exact prefix_rfl
  next p _ =>
  cases p with
  | fail err =>
    unfold handle
    rw [hfail]
  | ack id got =>
    unfold handle handleAck
    simp only
    repeat' split
    all_goals exact prefix_rfl
  | data id total off payload =>
    unfold handle handleData
    simp only
    split
    · rw [hfail]
      exact prefix_rfl
    have hopen:=(openRecv_kept (x.note (.data id)) malloc id total).2.2
    split
    · next heq => rw [heq] at hopen; exact hopen ▸ prefix_rfl
    next heq =>
    rw [heq] at hopen
    exact (show x.out=_ from hopen.symm) ▸ htake _ id off payload

theorem foldl_handlePkt_out (malloc : ℕ → Bool) (inbox : List (List UInt8)) (x : IceXfer) :
    x.out <+: (inbox.foldl (IceXfer.handlePkt malloc) x).out := by
  induction inbox generalizing x with
  | nil => exact prefix_rfl
  | cons buf inbox ih => exact (handlePkt_out malloc x buf).trans (ih _)

theorem appendChunk_out (y : IceXfer) (id : UInt32) (payload : List UInt8) :
    (y.appendChunk id payload).out=y.out++[.ack id (y.recvBuf++payload).length] := by
  unfold appendChunk
  simp only
  split <;> rfl

/-! The three ways into a receive. -/
def IceXfer.recvOpened (x : IceXfer) (id : UInt32) (total : ℕ) : IceXfer :=
  { x with recvBuf := [],recvTotal := total,recvId := id,recvActive := true }

variable {id : UInt32} {payload : List UInt8} {total : ℕ}
theorem handleData_same (hsize : total ≤ sizeMax/2) (h : r.recvActive ∧ r.recvId=id) :
    r.handleData malloc id total off payload=(r.note (.data id)).takeChunk id off payload := by
  have hopen : (r.note (.data id)).openRecv malloc id total=(r.note (.data id),true) := if_pos h
  unfold handleData
  simp only [hopen]
  exact if_neg (not_lt.mpr hsize)

theorem handleData_new (hsize : total ≤ sizeMax/2) (h : ¬ (r.recvActive ∧ r.recvId=id))
    (hmem : ¬ (0<total ∧ malloc total=false)) : r.handleData malloc id total off payload =
      ((r.note (.data id)).recvOpened id total).takeChunk id off payload := by
  have hopen : (r.note (.data id)).openRecv malloc id total =
      ((r.note (.data id)).recvOpened id total,true) := (if_neg h).trans (if_neg hmem)
  unfold handleData
  simp only [hopen]
  exact if_neg (not_lt.mpr hsize)

variable {y : IceXfer}
theorem takeChunk_elsewhere (h : off≠y.recvBuf.length) :
    y.takeChunk id off payload=y.send (.ack id y.recvBuf.length) := if_pos h

theorem takeChunk_next (h : off=y.recvBuf.length) (hfits : off+payload.length≤y.recvTotal) :
    y.takeChunk id off payload=y.appendChunk id payload :=
  (if_neg (not_not.mpr h)).trans (if_neg fun hover => by omega)

theorem takeChunk_overrun (h : off=y.recvBuf.length) (hne : payload≠[])
    (hover : y.recvTotal<off+payload.length) :
    y.takeChunk id off payload=y.failXfer (ascii "chunk overrun") :=
  (if_neg (not_not.mpr h)).trans (if_pos ⟨hne,hover⟩)

theorem handleData_hears (hh : Hears r b) (hlt : b.unacked<b.len) (hmem : malloc b.len)
    (hfits : r.recvActive → r.recvBuf.length ≤ sizeMax/2) :
    ∃ g,b.unacked<g ∧ g ≤ sizeMax ∧ (r.handleData malloc b.id b.len b.unacked
      ((b.data.bytes.drop b.unacked).take payloadMax)).out=r.out++[.ack b.id g] := by
  obtain ⟨hsize,hheld⟩ := hh
  have hlen:=length_piece b b.unacked
  have hmax : payloadMax=1024 := rfl
  have hword : sizeMax=2^64-1 := rfl
  generalize (b.data.bytes.drop b.unacked).take payloadMax=payload at hlen
  by_cases hsame : r.recvActive ∧ r.recvId=b.id
  · -- The receive is open: it answers with what it holds, or takes the piece.
    have hval : r.heldFor b.id=r.recvBuf.length := if_pos hsame
    have hbuf:=hfits hsame.1
    rw [hval] at hheld
    rw [handleData_same hsize hsame]
    by_cases hoff : b.unacked=r.recvBuf.length
    · have hroom:=(hheld.resolve_left (by omega)).2 hsame.1 hsame.2
      have hfit : b.unacked+payload.length≤(r.note (.data b.id)).recvTotal := hlen ▸ hroom
      rw [takeChunk_next (show b.unacked=(r.note (.data b.id)).recvBuf.length from hoff) hfit,
        appendChunk_out]
      refine ⟨(r.recvBuf++payload).length,?_,?_,rfl⟩ <;>
      · rw [length_append]
        omega
    · rw [takeChunk_elsewhere (show b.unacked≠(r.note (.data b.id)).recvBuf.length from hoff)]
      exact ⟨r.recvBuf.length,by omega,by omega,rfl⟩
  · -- Otherwise nothing is held, so nothing is acknowledged and the blob starts here.
    have hval : r.heldFor b.id=0 := if_neg hsame
    rw [hval] at hheld
    have hzero : b.unacked=0 := by omega
    rw [handleData_new hsize hsame (by simp [hmem])]
    rw [hzero] at hlen ⊢
    have hfit : 0+payload.length≤((r.note (.data b.id)).recvOpened b.id b.len).recvTotal := by
      change 0+payload.length≤b.len
      omega
    have hstart : 0=((r.note (.data b.id)).recvOpened b.id b.len).recvBuf.length := rfl
    rw [takeChunk_next hstart hfit,appendChunk_out]
    exact ⟨payload.length,by omega,by omega,rfl⟩

end Answers

section Sender
variable {x : IceXfer} {b : XferBlob} {n : ℕ} {malloc : ℕ → Bool}
def Ahead (b : XferBlob) (n : ℕ) (x : IceXfer) : Prop := x.sendQ.length≤n ∧ Advanced b n x

theorem Ahead.handleAck (h : Ahead b n x) (id : UInt32) (got : ℕ) : Ahead b n (x.handleAck id got) := by
  obtain ⟨hle,hadv⟩ := h
  unfold IceXfer.handleAck
  split
  · exact ⟨hle,hadv⟩
  next c rest hq =>
  rw [hq,length_cons] at hle
  have hrest : ∀ y : IceXfer,y.sendQ=rest → Ahead b n y := by
    intro y hy
    refine ⟨by rw [hy]; omega,.inl ?_⟩
    rw [hy]
    omega
  split
  · exact ⟨by rw [hq,length_cons]; exact hle,hadv⟩
  split
  · exact ⟨by rw [hq,length_cons]; exact hle,hadv⟩
  next hgot =>
  split
  · exact hrest _ rfl
  refine ⟨by simpa using hle,?_⟩
  rcases hadv with hshort | ⟨c',hc',hlt⟩
  · rw [hq,length_cons] at hshort
    exact .inl (by simpa using hshort)
  · obtain rfl : c=c' := by simpa [hq] using hc'
    exact .inr ⟨_,rfl,show b.unacked<got by omega⟩

theorem Ahead.of_sendQ {y : IceXfer} (h : Ahead b n x) (hq : y.sendQ=x.sendQ) : Ahead b n y := by
  unfold Ahead Advanced
  rw [hq]
  exact h

theorem Ahead.handlePkt (h : Ahead b n x) (buf : List UInt8) :
    Ahead b n (IceXfer.handlePkt malloc x buf) := by
  unfold IceXfer.handlePkt
  split
  · exact h
  next p _ =>
  cases p with
  | fail err => exact h.of_sendQ (x.failXfer_sendQ _)
  | ack id got => exact h.handleAck id got
  | data id total off payload => exact h.of_sendQ (x.handleData_sendQ malloc id total off payload)

theorem Ahead.foldl (malloc : ℕ → Bool) (inbox : List (List UInt8)) (h : Ahead b n x) :
    Ahead b n (inbox.foldl (IceXfer.handlePkt malloc) x) := by
  induction inbox generalizing x with
  | nil => exact h
  | cons buf inbox ih => exact ih (h.handlePkt buf)

theorem Ahead.pumpSend (h : Ahead b n x) (now : UInt64) : Ahead b n (x.pumpSend now) := by
  have hcore:=(x.pumpSend_core now).1
  have hlen : (x.pumpSend now).sendQ.length=x.sendQ.length := by
    simpa using congrArg List.length hcore
  refine ⟨hlen ▸ h.1,?_⟩
  rcases h.2 with hshort | ⟨c,hc,hlt⟩
  · exact .inl (hlen ▸ hshort)
  right
  cases hq : x.sendQ with
  | nil => simp [hq] at hc
  | cons d rest =>
    obtain rfl : d=c := by simpa [hq] using hc
    cases hq' : (x.pumpSend now).sendQ with
    | nil => simp [hq,hq'] at hcore
    | cons d' rest' =>
      rw [hq,hq',map_cons,map_cons] at hcore
      have hu : d'.unacked=d.unacked := congrArg (·.2.2) (List.cons.inj hcore).1
      exact ⟨d',rfl,hu ▸ hlt⟩

theorem ahead_of_ack {c : XferBlob} {rest : List XferBlob} {g : ℕ} (hq : x.sendQ=c::rest)
    (hcore : c.core=b.core) (hg : b.unacked<g) (hn : x.sendQ.length=n) :
    Ahead b n (x.handleAck b.id g) := by
  have hid : c.id=b.id := congrArg (·.2.1) hcore
  have hu : c.unacked=b.unacked := congrArg (·.2.2) hcore
  rw [hq,length_cons] at hn
  unfold handleAck
  simp only [hq]
  rw [if_neg (not_not.mpr hid),if_neg (by omega)]
  split
  · exact ⟨show rest.length≤n by omega,.inl (show rest.length<n by omega)⟩
  · exact ⟨show rest.length+1≤n by omega,.inr ⟨_,rfl,hg⟩⟩

end Sender

theorem pump_connected {x : IceXfer} (h : x.failed=false) (now : UInt64)
    (inbox : List (List UInt8)) (malloc : ℕ → Bool) : x.pump ⟨now,.connected,inbox,malloc⟩ =
      let y:=(inbox.takeWhile (· ≠ [])).foldl (handlePkt malloc) x
      if y.failed then y else y.pumpSend now := by
  unfold pump
  rw [h]
  rfl

theorem pumpSend_out (x : IceXfer) (now : UInt64) : x.out <+: (x.pumpSend now).out := by
  rcases pumpSend_cases x now with heq | ⟨b,b',rest,out,-,-,-,-,heq⟩
  · rw [heq]
  · rw [heq]
    exact prefix_append ..

variable {s r : IceXfer} {rest : List XferBlob} {t : Beat}
theorem lossFree_advances
    (hq : s.sendQ=b::rest) (hs : s.failed=false) (hr : r.failed=false) (hsane : SaneBlob b)
    (hlt : b.unacked<b.len) (hh : Hears r b) (hdue : Due t (s,r))
    (hfits : r.recvActive → r.recvBuf.length ≤ sizeMax/2) :
    Advanced b s.sendQ.length (lossFree t (s,r)).1 := by
  obtain ⟨hretry,hmem⟩ := hdue b (by simp [hq])
  -- The sender resumes at what is acknowledged.
  have hs₁ : s.rest.pump ⟨t.send,.connected,[],t.malloc⟩=s.rest.pumpSend t.send := by
    rw [pump_connected (x := s.rest) hs]
    exact if_neg (by simp [show s.rest.failed=false from hs])
  obtain ⟨b',out,hx,hcore,-,-⟩ :=
    pumpSend_pieces (x := s.rest) t.send (show s.rest.sendQ=b::rest from hq) hlt
  obtain ⟨tail,hout,-⟩ :=
    pumpSend_due (x := s.rest) (show s.rest.sendQ=b::rest from hq) hsane hlt hretry
  -- The receiver answers its first packet with more than that.
  obtain ⟨g,hg,hgmax,hans⟩ :=
    handleData_hears (show Hears r.rest b from hh) hlt (show t.malloc b.len=true from hmem) hfits
  have hr₁ : ∃ more,(r.rest.pump ⟨t.recv,.connected,
      (s.rest.pumpSend t.send).out.map Pkt.encode,t.malloc⟩).out=.ack b.id g::more := by
    rw [pump_connected (x := r.rest) hr,takeWhile_encode,hout]
    simp only
    have hfold : [.ack b.id g] <+: (List.foldl (handlePkt t.malloc) r.rest
        (List.map Pkt.encode (s.rest.out++pieceAt b b.unacked::tail))).out := by
      change [.ack b.id g] <+: (List.foldl (handlePkt t.malloc) r.rest
        ((pieceAt b b.unacked).encode::tail.map Pkt.encode)).out
      rw [foldl_cons,handlePkt_piece r.rest hlt]
      refine List.IsPrefix.trans ?_ (foldl_handlePkt_out t.malloc _ _)
      rw [hans]
      exact prefix_rfl
    generalize List.foldl (handlePkt t.malloc) r.rest _ = y at hfold
    split
    · obtain ⟨more,hmore⟩ := hfold
      exact ⟨more,hmore.symm⟩
    · obtain ⟨more,hmore⟩ := hfold.trans (pumpSend_out y t.recv)
      exact ⟨more,hmore.symm⟩
  obtain ⟨more,hmore⟩ := hr₁
  -- The sender takes that answer first.
  unfold lossFree
  simp only [hs₁,hmore]
  generalize hs₂ : (s.rest.pumpSend t.send).rest=s₂
  have hq₂ : s₂.sendQ=b'::rest := by
    rw [← hs₂,hx]
    rfl
  have hf₂ : s₂.failed=false := by
    rw [← hs₂,hx]
    exact hs
  have hn : s₂.sendQ.length=s.sendQ.length := by rw [hq₂,hq]; rfl
  have hans₂ : answers (.ack b.id g::more)=.ack b.id g::answers more := rfl
  rw [pump_connected hf₂,takeWhile_encode,hans₂,map_cons,foldl_cons]
  have hfirst : handlePkt t.malloc s₂ (Pkt.ack b.id g).encode=s₂.handleAck b.id g := by
    unfold handlePkt
    rw [decode_ack hgmax]
    rfl
  have hahead:=(ahead_of_ack hq₂ hcore hg hn).foldl t.malloc ((answers more).map Pkt.encode)
  rw [hfirst]
  simp only
  split
  · exact hahead.2
  · exact (hahead.pumpSend t.back).2

section Deaf
variable {r r' : IceXfer} {b : XferBlob} {malloc : ℕ → Bool}

structure Deaf (b : XferBlob) (r : IceXfer) : Prop where
  deaf : ¬ Hears r b
  low : ∀ id g,.ack id g∈r.out → id=b.id ∧ g≤b.unacked

theorem hears_congr (h : RxFrame r r') : Hears r' b ↔ Hears r b := by
  unfold Hears heldFor
  rw [h.recvBuf,h.recvTotal,h.recvId,h.recvActive]

theorem Deaf.frame (h : Deaf b r) (hf : RxFrame r r') : Deaf b r' :=
  ⟨fun hh => h.deaf ((hears_congr hf).mp hh),fun id g hm => h.low id g (hf.acks id g hm)⟩

theorem Deaf.sendAck (h : Deaf b r) {g : ℕ} (hg : g≤b.unacked) : Deaf b (r.send (.ack b.id g)) := by
  refine ⟨h.deaf,fun id g' hm => ?_⟩
  rcases mem_append.mp hm with hold | hnew
  · exact h.low id g' hold
  · cases mem_singleton.mp hnew
    exact ⟨rfl,hg⟩

theorem Deaf.handleData (h : Deaf b r) (hmem : ∀ n,malloc n) {off : ℕ}
    (hoff : b.unacked≤off) (hlt : off<b.len) :
    Deaf b (r.handleData malloc b.id b.len off ((b.data.bytes.drop off).take payloadMax)) := by
  have hnote:=h.frame (noteData_rx r b.id)
  have hlen:=length_piece b off
  have hmax : payloadMax=1024 := rfl
  generalize (b.data.bytes.drop off).take payloadMax=payload at hlen
  by_cases hsize : b.len ≤ sizeMax/2
  · have hdeaf:=h.deaf
    by_cases hsame : r.recvActive ∧ r.recvId=b.id
    · have hval : r.heldFor b.id=r.recvBuf.length := if_pos hsame
      rw [handleData_same hsize hsame]
      unfold Hears at hdeaf
      rw [hval] at hdeaf
      have hle : r.recvBuf.length≤b.unacked := not_lt.mp fun hmore => hdeaf ⟨hsize,.inl hmore⟩
      by_cases heq : off=r.recvBuf.length
      · -- Only the next byte gets past the first test, and then there is no room for it.
        have hu : b.unacked=off := by omega
        have hroom : r.recvTotal<off+payload.length := by
          refine not_le.mp fun hfit => hdeaf ⟨hsize,.inr ⟨by omega,fun _ _ => ?_⟩⟩
          rw [hu,← hlen]
          exact hfit
        have hne : payload≠[] := by
          rintro rfl
          rw [length_nil] at hlen
          omega
        rw [takeChunk_overrun (show off=(r.note (.data b.id)).recvBuf.length from heq) hne
          (show (r.note (.data b.id)).recvTotal<_ from hroom)]
        exact hnote.frame (failXfer_rx _ _)
      · rw [takeChunk_elsewhere (show off≠(r.note (.data b.id)).recvBuf.length from heq)]
        exact hnote.sendAck hle
    · -- The blob is started again from zero, behind what is acknowledged.
      have hval : r.heldFor b.id=0 := if_neg hsame
      have hpos : 0<b.unacked := by
        refine Nat.pos_of_ne_zero fun hzero => hdeaf ⟨hsize,.inr ⟨by omega,fun ha hid => ?_⟩⟩
        exact absurd ⟨ha,hid⟩ hsame
      rw [handleData_new hsize hsame (by simp [hmem])]
      have hopen : Deaf b ((r.note (.data b.id)).recvOpened b.id b.len) := by
        refine ⟨fun hh => ?_,h.low⟩
        have hheld : ((r.note (.data b.id)).recvOpened b.id b.len).heldFor b.id=0 :=
          if_pos ⟨rfl,rfl⟩
        have hback:=hh.2
        rw [hheld] at hback
        omega
      rw [takeChunk_elsewhere (show off≠0 by omega)]
      exact hopen.sendAck (Nat.zero_le _)
  · unfold IceXfer.handleData
    rw [if_pos (not_le.mp hsize)]
    exact hnote.frame (IceXfer.failXfer_rx _ _)

variable {pkts : List Pkt}
theorem Deaf.foldl (hmem : ∀ n,malloc n) (hp : PiecesFrom b b.unacked pkts) (h : Deaf b r) :
    Deaf b ((pkts.map Pkt.encode).foldl (IceXfer.handlePkt malloc) r) := by
  induction pkts generalizing r with
  | nil => exact h
  | cons p pkts ih =>
    obtain ⟨off,hoff,hlt,rfl⟩ := hp p mem_cons_self
    rw [map_cons,foldl_cons]
    refine ih (fun q hq => hp q (mem_cons_of_mem _ hq)) ?_
    change Deaf b (handlePkt malloc r (pieceAt b off).encode)
    rw [handlePkt_piece r hlt]
    exact h.handleData hmem hoff hlt

theorem Deaf.pump (hmem : ∀ n,malloc n) (now : UInt64)
    (hp : PiecesFrom b b.unacked pkts) (h : Deaf b r) :
    Deaf b (r.pump ⟨now,.connected,pkts.map Pkt.encode,malloc⟩) := by
  cases hf : r.failed with
  | true =>
    unfold IceXfer.pump
    rw [hf]
    exact h
  | false =>
    rw [pump_connected hf,takeWhile_encode]
    have hall:=h.foldl hmem hp
    simp only
    split
    · exact hall
    · exact hall.frame (pumpSend_rx _ now)

end Deaf

section Waiting
variable {x : IceXfer} {b : XferBlob} {rest : List XferBlob}

structure Waiting (b : XferBlob) (rest : List XferBlob) (x : IceXfer) : Prop where
  head : ∃ b',x.sendQ=b'::rest ∧ b'.core=b.core ∧ b'.unacked≤b'.nextOff
  alive : x.failed=false

section
variable (h : Waiting b rest x)
include h
theorem Waiting.handleAck (hlt : b.unacked<b.len) {g : ℕ}
    (hg : g≤b.unacked) : Waiting b rest (x.handleAck b.id g) := by
  obtain ⟨⟨b',hq,hcore,hahead⟩,halive⟩ := h
  have hid : b'.id=b.id := congrArg (·.2.1) hcore
  have hu : b'.unacked=b.unacked := congrArg (·.2.2) hcore
  have hlen:=len_of_core hcore
  unfold IceXfer.handleAck
  simp only [hq]
  rw [if_neg (not_not.mpr hid)]
  split
  · exact ⟨⟨b',hq,hcore,hahead⟩,halive⟩
  rw [if_neg (by omega)]
  have hsame : g=b'.unacked := by omega
  subst hsame
  exact ⟨⟨_,rfl,hcore,le_max_right ..⟩,halive⟩

theorem Waiting.foldl (hlt : b.unacked<b.len) (malloc : ℕ → Bool)
    {pkts : List Pkt} (hp : ∀ p∈pkts,∃ g≤b.unacked,p=.ack b.id g) :
    Waiting b rest ((pkts.map Pkt.encode).foldl (IceXfer.handlePkt malloc) x) := by
  induction pkts generalizing x with
  | nil => exact h
  | cons p pkts ih =>
    obtain ⟨g,hg,rfl⟩ := hp p mem_cons_self
    have hmax : g ≤ sizeMax := (hg.trans hlt.le).trans b.data.fits
    have hfirst : handlePkt malloc x (Pkt.ack b.id g).encode=x.handleAck b.id g := by
      unfold handlePkt
      rw [decode_ack hmax]
      rfl
    rw [map_cons,foldl_cons,hfirst]
    exact ih (h.handleAck hlt hg) fun q hq => hp q (mem_cons_of_mem _ hq)

theorem Waiting.pumpSend (hlt : b.unacked<b.len) (now : UInt64) : Waiting b rest (x.pumpSend now) ∧
      ∃ out,(x.pumpSend now).out=x.out++out ∧ PiecesFrom b b.unacked out := by
  obtain ⟨⟨c,hq,hcore,hahead⟩,halive⟩ := h
  have hu : c.unacked=b.unacked := congrArg (·.2.2) hcore
  have hlen:=len_of_core hcore
  obtain ⟨c',out,heq,hcore',hahead',hout⟩ := pumpSend_pieces now hq (by omega)
  rw [heq]
  have hfrom : c.unacked≤(rewindCursor now c).nextOff := rewindCursor_ahead hahead
  exact ⟨⟨⟨c',rfl,hcore'.trans hcore,hahead' hahead⟩,halive⟩,out,rfl,
    hout.of_core hcore (hu ▸ hfrom)⟩

theorem Waiting.not_advanced : ¬ Advanced b (rest.length+1) x := by
  obtain ⟨⟨b',hq,hcore,-⟩,-⟩ := h
  have hu : b'.unacked=b.unacked := congrArg (·.2.2) hcore
  rintro (hshort | ⟨c,hc,hmore⟩)
  · rw [hq,length_cons] at hshort
    exact lt_irrefl _ hshort
  · obtain rfl : b'=c := by simpa [hq] using hc
    omega

end
end Waiting

def Stuck (b : XferBlob) (rest : List XferBlob) (p : IceXfer × IceXfer) : Prop :=
  Waiting b rest p.1 ∧ ¬ Hears p.2 b

variable {p : IceXfer × IceXfer}
theorem Stuck.lossFree (h : Stuck b rest p) (hlt : b.unacked<b.len) (hmem : ∀ n,t.malloc n) :
    Stuck b rest (lossFree t p) := by
  obtain ⟨hwait,hdeaf⟩ := h
  have hwait₀ : Waiting b rest p.1.rest := ⟨hwait.head,hwait.alive⟩
  obtain ⟨hwait₁,out,hout,hpieces⟩ := hwait₀.pumpSend hlt t.send
  have hs : p.1.rest.pump ⟨t.send,.connected,[],t.malloc⟩=p.1.rest.pumpSend t.send := by
    rw [pump_connected hwait₀.alive]
    exact if_neg (by simp [hwait₀.alive])
  have hquiet : Deaf b p.2.rest := ⟨hdeaf,fun id g hm => absurd hm not_mem_nil⟩
  have hrecv : Deaf b (p.2.rest.pump ⟨t.recv,.connected,
      (p.1.rest.pumpSend t.send).out.map Pkt.encode,t.malloc⟩) := by
    rw [hout]
    exact hquiet.pump hmem t.recv hpieces
  unfold Xfer.lossFree
  simp only [hs]
  generalize p.2.rest.pump _ = r at hrecv
  refine ⟨?_,hrecv.deaf⟩
  have hwait₂ : Waiting b rest (p.1.rest.pumpSend t.send).rest := ⟨hwait₁.head,hwait₁.alive⟩
  have hlow : ∀ q∈answers r.out,∃ g≤b.unacked,q=.ack b.id g := by
    intro q hq
    obtain ⟨hmem,hack⟩ := mem_filter.mp hq
    cases q with
    | ack id g =>
      obtain ⟨rfl,hg⟩ := hrecv.low id g hmem
      exact ⟨g,hg,rfl⟩
    | data | fail => cases hack
  have hafter:=hwait₂.foldl hlt t.malloc hlow
  rw [pump_connected hwait₂.alive,takeWhile_encode]
  simp only
  rw [if_neg (by simp [hafter.alive])]
  exact (hafter.pumpSend hlt t.back).1

theorem retry_due (t : UInt64) : retryMs≤t+retryMs-t := by
  rw [UInt64.add_comm,UInt64.add_sub_cancel]
  exact UInt64.le_refl _

theorem Stuck.rounds (hlt : b.unacked<b.len) (n : ℕ) (h : Stuck b rest p) :
    ∃ ts,ts.length=n ∧ Paced ts p ∧ Stuck b rest (rounds ts p) := by
  induction n generalizing p with
  | zero => exact ⟨[],rfl,trivial,h⟩
  | succ n ih =>
    obtain ⟨b',hq,-,-⟩ := h.1.head
    -- The round is as soon as the retry time allows.
    have hdue : Due ⟨b'.lastSendMs+retryMs,0,0,fun _ => true⟩ p := by
      intro c hc
      obtain rfl : b'=c := by simpa [hq] using hc
      exact ⟨retry_due b'.lastSendMs,rfl⟩
    obtain ⟨ts,hlen,hpaced,hstuck⟩ := ih (h.lossFree (t := ⟨b'.lastSendMs+retryMs,0,0,
      fun _ => true⟩) hlt fun _ => rfl)
    exact ⟨_::ts,by rw [length_cons,hlen],⟨hdue,hpaced⟩,hstuck⟩

theorem Stuck.not_neverStuck
    (hq : s.sendQ=b::rest) (hlt : b.unacked<b.len) (h : Stuck b rest (s,r)) :
    ¬ NeverStuck s r b := by
  rintro ⟨-,n,hmoves⟩
  obtain ⟨ts,hlen,hpaced,hstuck⟩ := h.rounds hlt n
  have hadv:=hmoves ts hlen hpaced
  rw [hq,length_cons] at hadv
  exact hstuck.1.not_advanced hadv

theorem empty_not_neverStuck (hq : s.sendQ=b::rest) (hs : s.failed=false) (hzero : b.len=0) :
    ¬ NeverStuck s r b := by
  rintro ⟨hemits,-⟩
  obtain ⟨off,payload,hm⟩ := hemits (b.lastSendMs+retryMs) (fun _ => true) [] b rest hs hq rfl rfl
    (retry_due b.lastSendMs)
  have hidle : s.rest.pumpSend (b.lastSendMs+retryMs)=s.rest := by
    unfold pumpSend
    simp only [show s.rest.sendQ=b::rest from hq]
    rw [if_pos (by omega)]
  rw [pump_connected (x := s.rest) hs] at hm
  simp only [takeWhile_nil,foldl_nil,show s.rest.failed=false from hs,hidle] at hm
  exact absurd hm not_mem_nil

theorem emits_of_sane (hsane : SaneQueue s) (hs : s.failed=false) (hpos : 0<b.len) : Emits s b := by
  intro now malloc inbox b' rest x halive hq hdata hid hdue
  have hlen : b'.len=b.len := by
    unfold XferBlob.len
    rw [hdata]
  have hx : SaneQueue x := by
    have hfold : ∀ (bufs : List (List UInt8)) (y : IceXfer),SaneQueue y →
        SaneQueue (bufs.foldl (handlePkt malloc) y) := by
      intro bufs
      induction bufs with
      | nil => exact fun y hy => hy
      | cons buf bufs ih => exact fun y hy => ih _ (y.handlePkt_sane malloc buf hy)
    exact hfold _ _ hsane
  have hb' : SaneBlob b' := hx b' (by rw [hq]; exact mem_cons_self)
  have hlt : b'.unacked<b'.len := hb'.left.resolve_right (by omega)
  obtain ⟨tail,hout,-⟩ := pumpSend_due hq hb' hlt hdue
  refine ⟨b'.unacked,(b'.data.bytes.drop b'.unacked).take payloadMax,?_⟩
  rw [pump_connected (x := s.rest) hs]
  change _∈(if x.failed then x else x.pumpSend now).out
  rw [if_neg (by simp [halive]),hout,← hid,← hlen]
  exact mem_append_right _ mem_cons_self

/-- A transfer can always go on exactly where its blob is not empty and the receiver hears it. -/
theorem neverStuck_iff {w : Link} (hw : Reachable w) (i : Bool) {b : XferBlob}
    {rest : List XferBlob} (hq : (w.node !i).sendQ=b::rest)
    (hs : (w.node !i).failed=false) (hr : (w.node i).failed=false) :
    NeverStuck (w.node !i) (w.node i) b ↔ 0<b.len ∧ Hears (w.node i) b := by
  obtain ⟨hsane,-⟩ := reachable_sane hw !i
  obtain ⟨-,block,hfits⟩ := reachable_sane hw i
  have hb : SaneBlob b := hsane b (by rw [hq]; exact mem_cons_self)
  constructor
  · intro hmoves
    have hpos : 0<b.len := Nat.pos_of_ne_zero fun hzero => empty_not_neverStuck hq hs hzero hmoves
    have hlt : b.unacked<b.len := hb.left.resolve_right (by omega)
    refine ⟨hpos,not_not.mp fun hdeaf => ?_⟩
    exact Stuck.not_neverStuck hq hlt ⟨⟨⟨b,hq,rfl,hb.ahead⟩,hs⟩,hdeaf⟩ hmoves
  · rintro ⟨hpos,hhears⟩
    have hlt : b.unacked<b.len := hb.left.resolve_right (by omega)
    refine ⟨emits_of_sane hsane hs hpos,1,fun ts hlen hpaced => ?_⟩
    obtain ⟨t,rfl⟩ := length_eq_one_iff.mp hlen
    exact lossFree_advances hq hs hr hb hlt hhears hpaced.1 fun ha =>
      (hfits ha).got.trans (hfits ha).total

theorem neverStuck_queued :
    let w:=Net.run spec opened [(false,.queue (byteBlob 7))]
    NeverStuck (w.node false) (w.node true) ⟨byteBlob 7,1,0,0,0⟩ := by
  have hok : Net.RunOk spec addressed opened [(false,.queue (byteBlob 7))] := by decide +kernel
  have hq : ((Net.run spec opened [(false,.queue (byteBlob 7))]).node false).sendQ =
      [⟨byteBlob 7,1,0,0,0⟩] := by decide +kernel
  refine (neverStuck_iff (reachable_run hok) true hq ?_ ?_).mpr ⟨?_,?_,?_⟩
  all_goals decide +kernel

def longBlob : Blob := ⟨List.replicate (payloadMax+1) 7,by rw [List.length_replicate]; decide⟩

def lostAck : List (Bool × Call) := [(false,.queue longBlob),(false,pumped []),
    (true,pumped [⟨false,(Pkt.data 1 1025 0 (List.replicate 1024 7)).encode⟩]),
    (false,pumped [⟨true,(Pkt.ack 1 1024).encode⟩]),
    (true,pumped [⟨false,(Pkt.data 1 1025 1024 [7]).encode⟩])]

theorem stuck_after_lost_ack :
    (∃ w b,Reachable w ∧ (w.node false).sendQ=[b] ∧ b.len=0 ∧
      (w.node false).failed=false ∧ ¬ NeverStuck (w.node false) (w.node true) b) ∧
    ∃ w b,Reachable w ∧ (w.node false).sendQ=[b] ∧ b.len=1025 ∧ b.unacked=1024 ∧
      (w.node false).failed=false ∧ (w.node true).failed=false ∧
      (w.node true).ready=[longBlob.bytes] ∧ ¬ NeverStuck (w.node false) (w.node true) b := by
  have hempty : Net.RunOk spec addressed opened [(false,.queue ⟨[],Nat.zero_le _⟩)] := by
    decide +kernel
  have hlost : Net.RunOk spec addressed opened lostAck := by decide +kernel
  refine ⟨⟨_,⟨⟨[],Nat.zero_le _⟩,1,0,0,0⟩,reachable_run hempty,rfl,rfl,rfl,
    empty_not_neverStuck rfl rfl rfl⟩,?_⟩
  have hq : ((Net.run spec opened lostAck).node false).sendQ=[⟨longBlob,1,1024,1025,1⟩] := by
    decide +kernel
  have hlen : (⟨longBlob,1,1024,1025,1⟩ : XferBlob).len=payloadMax+1 := length_replicate
  refine ⟨_,⟨longBlob,1,1024,1025,1⟩,reachable_run hlost,hq,hlen,rfl,?_,?_,?_,
    Stuck.not_neverStuck hq ?_ ⟨⟨⟨_,hq,rfl,?_⟩,?_⟩,?_⟩⟩
  · decide +kernel
  · decide +kernel
  · decide +kernel
  · exact lt_of_lt_of_eq (by decide : 1024<payloadMax+1) hlen.symm
  · exact (by decide : 1024≤1025)
  · decide +kernel
  · -- The receiver has completed the blob and holds nothing of it.
    rintro ⟨-,hheld⟩
    have hnone : ((Net.run spec opened lostAck).node true).heldFor 1=0 := by decide +kernel
    simp only [hnone] at hheld
    omega

end RecompNet.Xfer
