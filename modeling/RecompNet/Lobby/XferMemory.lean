import RecompNet.Lobby.BlobOrder

/-!
# The stores of a blob transfer

What `handle_pkt` and `handle_data` write for a datagram, and where: the text of a FAIL packet goes
into a local array of 81 bytes, a chunk into the block that was allocated for the blob.
-/
namespace RecompNet.Xfer
open List IceXfer

/-- `count` bytes from byte `first` of a destination of `size` bytes. -/
structure Store where
  first : ℕ
  count : ℕ
  size : ℕ
  deriving DecidableEq

def Store.Inside (s : Store) : Prop := s.first+s.count ≤ s.size
instance (s : Store) : Decidable s.Inside := inferInstanceAs (Decidable (_≤_))
def errSize : ℕ := 81

/-- The FAIL branch of `handle_pkt`: an empty text first, then the text and its terminator. -/
def failStores (err : List UInt8) : List Store := ⟨0,1,errSize⟩ ::
    if err=[] then [] else [⟨0,err.length,errSize⟩,⟨err.length,1,errSize⟩]

variable (x : IceXfer) (block : Option ℕ)

/-- The block behind `recv_buf` once a receive is open; `none` is a null pointer. -/
def openBlock (malloc : ℕ → Bool) (id : UInt32) (total : ℕ) : Option ℕ :=
  if x.recvActive ∧ x.recvId=id then block
  else if 0<total ∧ malloc total then some total
  else none

def chunkStores (off : ℕ) (payload : List UInt8) : List Store :=
  if off≠x.recvBuf.length ∨ payload=[] ∨ x.recvTotal<(off+payload.length)%2^64 then []
  else [⟨off,payload.length,block.getD 0⟩]

def pktStores (malloc : ℕ → Bool) : Pkt → List Store
  | .fail err => failStores err
  | .ack _ _ => []
  | .data id total off payload =>
    if sizeMax/2<total then []
    else
      match (x.note (.data id)).openRecv malloc id total with
      | (_,false) => []
      | (y,true) => chunkStores y (openBlock x block malloc id total) off payload

/-- The block behind `recv_buf` after a packet; a complete blob takes it along. -/
def pktBlock (malloc : ℕ → Bool) : Pkt → Option ℕ
  | .fail _ => block
  | .ack _ _ => block
  | .data id total off payload =>
    if sizeMax/2<total then block
    else
      match (x.note (.data id)).openRecv malloc id total with
      | (_,false) => none
      | (y,true) =>
        if (y.takeChunk id off payload).recvActive then openBlock x block malloc id total else none

structure Memory where
  x : IceXfer
  block : Option ℕ
  handled : List (List UInt8 × List Store)

namespace Memory
def opened (now : UInt64) : Memory := ⟨.open now,none,[]⟩

variable (malloc : ℕ → Bool) (m : Memory)
def handlePkt (buf : List UInt8) : Memory :=
  match Pkt.decode buf with
  | none => { m with handled := m.handled++[(buf,[])] }
  | some p =>
    { x := m.x.handle malloc p
      block := pktBlock m.x m.block malloc p
      handled := m.handled++[(buf,pktStores m.x m.block malloc p)] }

def receive (inbox : List (List UInt8)) : Memory :=
  (inbox.takeWhile (· ≠ [])).foldl (handlePkt malloc) m

def pump (m : Memory) (inp : IceXfer.PumpInput) : Memory :=
  if m.x.failed=false ∧ inp.state=.connected then
    let m:=m.receive inp.malloc inp.inbox
    { m with x := if m.x.failed then m.x else m.x.pumpSend inp.now }
  else { m with x := m.x.pump inp }

def perform (m : Memory) : Call → Memory
  | .pump now state inbox malloc => m.pump ⟨now,state,inbox.map (·.bytes),malloc⟩
  | c => { m with x := m.x.perform c }

def run (calls : List Call) : Memory := calls.foldl perform m

theorem handlePkt_x (buf : List UInt8) :
    (m.handlePkt malloc buf).x=IceXfer.handlePkt malloc m.x buf := by
  unfold handlePkt IceXfer.handlePkt
  cases Pkt.decode buf <;> rfl

theorem foldl_handlePkt_x (inbox : List (List UInt8)) (m : Memory) :
    (inbox.foldl (handlePkt malloc) m).x=inbox.foldl (IceXfer.handlePkt malloc) m.x := by
  induction inbox generalizing m with
  | nil => rfl
  | cons buf inbox ih => rw [foldl_cons,ih,handlePkt_x,foldl_cons]

theorem perform_x (c : Call) : (m.perform c).x=m.x.perform c := by
  cases c with
  | pump now state inbox malloc =>
    unfold perform pump
    simp only
    split
    · next hopen =>
      have hrecv:=foldl_handlePkt_x malloc ((inbox.map (·.bytes)).takeWhile (· ≠ [])) m
      obtain ⟨hok,rfl⟩ := hopen
      simp only [IceXfer.perform,IceXfer.pump,hok,receive,hrecv]
      rfl
    · rfl
  | _ => rfl

end Memory

structure RecvFits (x : IceXfer) (block : Option ℕ) : Prop where
  got : x.recvBuf.length≤x.recvTotal
  total : x.recvTotal ≤ sizeMax/2
  block : 0<x.recvTotal → block=some x.recvTotal

theorem RecvFits.frame {x x' : IceXfer} {block : Option ℕ} (h : RecvFits x block)
    (hbuf : x'.recvBuf=x.recvBuf) (htotal : x'.recvTotal=x.recvTotal) : RecvFits x' block :=
  ⟨by rw [hbuf,htotal]; exact h.got,by rw [htotal]; exact h.total,by
    rw [htotal]; exact h.block⟩

section Receive
variable {x y : IceXfer} {block : Option ℕ} {malloc : ℕ → Bool} {id : UInt32} {total off : ℕ}
  {payload : List UInt8}

theorem openRecv_fits (hx : x.recvActive → RecvFits x block) (htotal : total ≤ sizeMax/2)
    (h : x.openRecv malloc id total=(y,true)) : RecvFits y (openBlock x block malloc id total) := by
  unfold openRecv at h
  unfold openBlock
  split at h
  · next hsame =>
    obtain ⟨rfl,-⟩ := Prod.mk.inj h
    rw [if_pos hsame]
    exact hx hsame.1
  next hnew =>
  simp only at h
  split at h
  · cases (Prod.mk.inj h).2
  next hmem =>
  obtain ⟨rfl,-⟩ := Prod.mk.inj h
  rw [if_neg hnew]
  refine ⟨Nat.zero_le _,htotal,fun hpos => ?_⟩
  have hgot : malloc total := by
    by_contra hno
    exact hmem ⟨hpos,by simpa using hno⟩
  exact if_pos ⟨hpos,hgot⟩

theorem chunkStores_inside (h : RecvFits y block) (hshort : payload.length<65536) :
    ∀ s∈chunkStores y block off payload,s.Inside := by
  intro s hs
  unfold chunkStores at hs
  split at hs
  · cases hs
  next hgo =>
  obtain rfl := mem_singleton.mp hs
  rw [not_or,not_or,not_not] at hgo
  obtain ⟨hoff,hne,hfits⟩ := hgo
  have hgot:=h.got
  have htotal:=h.total
  have hpos:=length_pos_of_ne_nil hne
  unfold sizeMax at htotal
  have hsum : (off+payload.length)%2^64=off+payload.length := Nat.mod_eq_of_lt (by omega)
  rw [hsum] at hfits
  change off+payload.length≤block.getD 0
  rw [h.block (by omega),Option.getD_some]
  omega

theorem takeChunk_fits (h : RecvFits y block) :
    (y.takeChunk id off payload).recvActive → RecvFits (y.takeChunk id off payload) block := by
  unfold takeChunk
  split
  · exact fun _ => ⟨h.got,h.total,h.block⟩
  next hoff =>
  split
  · exact fun _ => h.frame (y.failXfer_rx _).recvBuf (y.failXfer_rx _).recvTotal
  next hfits =>
  unfold appendChunk
  simp only
  split
  · intro hactive
    cases hactive
  next hmore =>
  refine fun _ => ⟨?_,h.total,h.block⟩
  exact le_of_lt (not_le.mp hmore)

end Receive

theorem leWord_lt (bs : List UInt8) : leWord bs<256^bs.length := by
  induction bs with
  | nil => decide
  | cons b bs ih =>
    have hb:=b.toNat_lt
    change b.toNat+256*leWord bs<256^(bs.length+1)
    rw [Nat.pow_succ]
    omega

theorem field_lt (buf : List UInt8) (off width : ℕ) : field buf off width<256^width := by
  refine lt_of_lt_of_le (leWord_lt _) (Nat.pow_le_pow_right (by decide) ?_)
  exact length_take_le ..

theorem decode_data_short {buf payload : List UInt8} {id : UInt32} {total off : ℕ}
    (h : Pkt.decode buf=some (.data id total off payload)) : payload.length<65536 := by
  unfold Pkt.decode at h
  simp only at h
  split at h
  · cases h
  split at h
  · cases h
  split at h
  · cases h
  split at h
  · split at h
    · cases h
    · obtain ⟨-,-,-,rfl⟩ := Pkt.data.inj (Option.some.inj h)
      exact lt_of_le_of_lt (length_take_le ..) (field_lt buf 28 2)
  · cases h

/-- A FAIL packet whose text does not fit in the array with its terminator. -/
def LongFail (buf : List UInt8) : Prop :=
  ∃ err,Pkt.decode buf=some (.fail err) ∧ errSize<err.length+1
def StoresFair (h : List UInt8 × List Store) : Prop := (∀ s∈h.2,s.Inside) ↔ ¬ LongFail h.1

theorem failStores_inside (err : List UInt8) :
    (∀ s∈failStores err,s.Inside) ↔ err.length+1≤errSize := by
  unfold failStores
  by_cases hnil : err=[]
  · subst hnil
    simp [Store.Inside,errSize]
  rw [if_neg hnil]
  constructor
  · intro h
    exact h ⟨err.length,1,errSize⟩ (by simp)
  · intro h
    have hlen:=length_pos_of_ne_nil hnil
    simp only [forall_mem_cons,Store.Inside]
    exact ⟨by decide,by omega,h,forall_mem_nil _⟩

structure MemoryGood (m : Memory) : Prop where
  recv : m.x.recvActive → RecvFits m.x m.block
  fair : ∀ h∈m.handled,StoresFair h

namespace Memory
variable {m : Memory} {x' : IceXfer}

section
variable (h : MemoryGood m)
include h
theorem good_frame (hactive : x'.recvActive=m.x.recvActive)
    (hbuf : x'.recvBuf=m.x.recvBuf) (htotal : x'.recvTotal=m.x.recvTotal) :
    MemoryGood { m with x := x' } := ⟨fun ha => (h.recv (hactive ▸ ha)).frame hbuf htotal,h.fair⟩

theorem good_rx (hf : RxFrame m.x x') : MemoryGood { m with x := x' } :=
  good_frame h hf.recvActive hf.recvBuf hf.recvTotal

theorem data_fits {malloc : ℕ → Bool} {id : UInt32} {total off : ℕ} {payload : List UInt8}
    (hshort : payload.length<65536) :
    ((m.x.handle malloc (.data id total off payload)).recvActive=true →
      RecvFits (m.x.handle malloc (.data id total off payload))
        (pktBlock m.x m.block malloc (.data id total off payload))) ∧
      ∀ s∈pktStores m.x m.block malloc (.data id total off payload),s.Inside := by
  have hx : (m.x.note (.data id)).recvActive → RecvFits (m.x.note (.data id)) m.block :=
    fun ha => (h.recv ha).frame rfl rfl
  have hblock : openBlock m.x m.block malloc id total =
      openBlock (m.x.note (.data id)) m.block malloc id total := rfl
  unfold pktBlock pktStores handle handleData
  simp only [hblock]
  generalize m.x.note (.data id)=x at hx
  by_cases hbig : sizeMax/2<total
  · simp only [if_pos hbig]
    have hf:=x.failXfer_rx (ascii "package too large")
    exact ⟨fun ha => (hx (hf.recvActive ▸ ha)).frame hf.recvBuf hf.recvTotal,forall_mem_nil _⟩
  simp only [if_neg hbig]
  cases hopen : x.openRecv malloc id total with
  | mk y ok =>
    cases ok with
    | false =>
      refine ⟨fun ha => ?_,forall_mem_nil _⟩
      have hclosed : y.recvActive=false := by
        unfold openRecv at hopen
        split at hopen
        · cases (Prod.mk.inj hopen).2
        simp only at hopen
        split at hopen
        · obtain ⟨rfl,-⟩ := Prod.mk.inj hopen
          rfl
        · cases (Prod.mk.inj hopen).2
      rw [hclosed] at ha
      cases ha
    | true =>
      have hfits:=openRecv_fits hx (not_lt.mp hbig) hopen
      refine ⟨fun ha => ?_,chunkStores_inside hfits hshort⟩
      have ha : (y.takeChunk id off payload).recvActive := ha
      simp only [if_pos ha]
      exact takeChunk_fits hfits ha

variable (malloc : ℕ → Bool)
theorem good_handlePkt (buf : List UInt8) : MemoryGood (m.handlePkt malloc buf) := by
  have hlog : ∀ stores,StoresFair (buf,stores) → ∀ e∈m.handled++[(buf,stores)],StoresFair e := by
    intro stores hnew e he
    rcases mem_append.mp he with hold | hlast
    · exact h.fair e hold
    · rw [mem_singleton.mp hlast]
      exact hnew
  unfold handlePkt
  cases hdec : Pkt.decode buf with
  | none =>
    refine ⟨h.recv,hlog [] ?_⟩
    refine iff_of_true (forall_mem_nil _) ?_
    rintro ⟨err,herr,-⟩
    rw [hdec] at herr
    cases herr
  | some p =>
    cases p with
    | ack id got =>
      have hf:=m.x.handleAck_rx id got
      refine ⟨fun ha => (h.recv (hf.recvActive ▸ ha)).frame hf.recvBuf hf.recvTotal,hlog _ ?_⟩
      refine iff_of_true (forall_mem_nil _) ?_
      rintro ⟨err,herr,-⟩
      rw [hdec] at herr
      cases herr
    | fail err =>
      have hf:=m.x.failXfer_rx (if err.takeWhile (· ≠ 0)=[] then ascii "peer failed" else err)
      refine ⟨fun ha => (h.recv (hf.recvActive ▸ ha)).frame hf.recvBuf hf.recvTotal,hlog _ ?_⟩
      refine (failStores_inside err).trans ?_
      constructor
      · rintro hfits ⟨err',herr,hlong⟩
        obtain rfl := Pkt.fail.inj (Option.some.inj (hdec.symm.trans herr))
        omega
      · intro hno
        by_contra hlong
        exact hno ⟨err,hdec,by omega⟩
    | data id total off payload =>
      obtain ⟨hrecv,hinside⟩ := data_fits h (decode_data_short hdec)
      refine ⟨hrecv,hlog _ ?_⟩
      refine iff_of_true hinside ?_
      rintro ⟨err,herr,-⟩
      rw [hdec] at herr
      cases herr

theorem good_receive (inbox : List (List UInt8)) : MemoryGood (m.receive malloc inbox) := by
  unfold receive
  generalize inbox.takeWhile (· ≠ [])=inbox
  induction inbox generalizing m with
  | nil => exact h
  | cons buf inbox ih => exact ih (good_handlePkt h malloc buf)

theorem good_perform (c : Call) : MemoryGood (m.perform c) := by
  cases c with
  | queue data => exact good_rx h (m.x.queueBlob_rx data)
  | fail err => exact good_rx h (m.x.fail_rx err)
  | take =>
    change MemoryGood { m with x := m.x.takeBlob }
    unfold takeBlob
    split
    · exact h
    · exact good_frame h rfl rfl rfl
  | pump now state inbox malloc =>
    unfold perform pump
    simp only
    split
    · have hrecv:=good_receive h malloc (inbox.map (·.bytes))
      split
      · exact hrecv
      · exact good_rx hrecv (pumpSend_rx _ now)
    next hidle =>
    refine good_rx h ?_
    unfold IceXfer.pump
    split
    · exact .refl _
    next hok =>
    split
    · exact m.x.failXfer_rx _
    · split
      · exact m.x.failXfer_rx _
      · exact .refl _
    · exact absurd ⟨by simpa using hok,by assumption⟩ hidle

end

theorem good_run (now : UInt64) (calls : List Call) : MemoryGood ((opened now).run calls) := by
  have hrun : ∀ (calls : List Call) (m : Memory),MemoryGood m → MemoryGood (m.run calls) := by
    intro calls
    induction calls with
    | nil => exact fun m h => h
    | cons c calls ih => exact fun m h => ih _ (good_perform h c)
  exact hrun calls _ ⟨fun ha => absurd ha Bool.false_ne_true,forall_mem_nil _⟩

end Memory

/-- A handled packet writes inside its buffers unless it is a FAIL with too long a text. -/
theorem stores_inside_iff (now : UInt64) (calls : List Call) (buf : List UInt8)
    (stores : List Store) (h : (buf,stores)∈((Memory.opened now).run calls).handled) :
    (∀ s∈stores,s.Inside) ↔ ¬ LongFail buf := (Memory.good_run now calls).fair (buf,stores) h

def failOf (n : ℕ) : List UInt8 := (Pkt.fail (List.replicate n 65)).encode
def failCalls (n : ℕ) : List Call := [.pump 1 .connected [⟨true,failOf n⟩] fun _ => true]

theorem stores_inside_eighty :
    (failOf 80,failStores (List.replicate 80 65)) ∈
        ((Memory.opened 0).run (failCalls 80)).handled ∧
      ∀ s∈failStores (List.replicate 80 65),s.Inside := by
  have hin : (failOf 80,failStores (List.replicate 80 65)) ∈
      ((Memory.opened 0).run (failCalls 80)).handled := by decide +kernel
  refine ⟨hin,(stores_inside_iff 0 (failCalls 80) _ _ hin).mpr ?_⟩
  rintro ⟨err,herr,hlong⟩
  have hdec : Pkt.decode (failOf 80)=some (.fail (List.replicate 80 65)) := by decide +kernel
  obtain rfl := Pkt.fail.inj (Option.some.inj (hdec.symm.trans herr))
  exact absurd hlong (by decide +kernel)

theorem fail_text_overruns :
    (∃ stores,(failOf 81,stores)∈((Memory.opened 0).run (failCalls 81)).handled ∧
      (failOf 81).length≤2048 ∧ ⟨81,1,81⟩∈stores ∧ ¬ (⟨81,1,81⟩ : Store).Inside) ∧
    ∃ stores,(failOf 255,stores)∈((Memory.opened 0).run (failCalls 255)).handled ∧
      (failOf 255).length≤2048 ∧ ⟨0,255,81⟩∈stores ∧ ¬ (⟨0,255,81⟩ : Store).Inside := by
  refine ⟨⟨failStores (List.replicate 81 65),?_⟩,failStores (List.replicate 255 65),?_⟩
  all_goals decide +kernel

end RecompNet.Xfer
