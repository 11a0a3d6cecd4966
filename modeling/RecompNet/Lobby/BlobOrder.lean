import Mathlib.Data.List.Infix
import RecompNet.Lobby.IceXfer

/-!
# What a blob transfer delivers

Two ends over a channel that loses, duplicates and reorders.
-/
namespace RecompNet.Xfer
open List IceXfer

structure Datagram where
  sender : Bool
  bytes : List UInt8
  deriving DecidableEq

inductive Call
  | queue (data : Blob)
  | pump (now : UInt64) (state : IceState) (inbox : List Datagram) (malloc : ℕ → Bool)
  | take
  | fail (err : List UInt8)

def IceXfer.perform (x : IceXfer) : Call → IceXfer
  | .queue data => x.queueBlob data
  | .pump now state inbox malloc => x.pump ⟨now,state,inbox.map (·.bytes),malloc⟩
  | .take => x.takeBlob
  | .fail err => x.fail err

def IceXfer.rest (x : IceXfer) : IceXfer := { x with out := [],trace := [] }

def spec : NodeSpec Bool IceXfer Datagram Event Call where
  inputs
    | .pump _ _ inbox _ => inbox
    | _ => []
  act i c x :=
    let x:=x.perform c
    (x.rest,x.out.map fun p => ⟨i,p.encode⟩,x.trace)

abbrev Link := Net Bool IceXfer Datagram Event
def addressed (_ : Link) (i : Bool) (c : Call) : Prop := ∀ m∈spec.inputs c,m.sender=!i
instance (w : Link) (i : Bool) (c : Call) : Decidable (addressed w i c) :=
  inferInstanceAs (Decidable (∀ m∈spec.inputs c,m.sender=!i))
def Opened (w : Link) : Prop := (∀ i,∃ now,w.node i=IceXfer.open now) ∧ w.sent=[] ∧ w.log=[]
abbrev Reachable : Link → Prop := Net.Reach spec addressed Opened
def eventsOf (log : List (Bool × Event)) (i : Bool) : List Event :=
  log.filterMap fun p => if p.1=i then some p.2 else none

variable (evs : List Event)
def queuedBlobs : List Blob := evs.filterMap fun | .queued b => some b | _ => none
def ackedBlobs : List Blob := evs.filterMap fun | .acked b => some b | _ => none
def completedIds : List UInt32 := evs.filterMap fun | .completed id _ => some id | _ => none
def takenBytes : List (List UInt8) := evs.filterMap fun | .taken bytes => some bytes | _ => none

def Event.restarts : Event → Event → Bool
  | .completed id _,.data id' => id == id'
  | _,_ => false

/-- The receiver was never handed a DATA packet of a blob it had completed. -/
def Fresh : Prop := evs.Pairwise fun e e' => e.restarts e'=false

def Event.overflows : Event → Bool
  | .completed _ room => !room
  | _ => false

/-- No blob completed while the ready queue was full. -/
def Roomy : Prop := ∀ e∈evs,e.overflows=false
instance (evs : List Event) : Decidable (Fresh evs) :=
  inferInstanceAs (Decidable (evs.Pairwise fun e e' => e.restarts e'=false))
instance (evs : List Event) : Decidable (Roomy evs) :=
  inferInstanceAs (Decidable (∀ e∈evs,e.overflows=false))

theorem eventsOf_append_self (log : List (Bool × Event)) (i : Bool) (evs : List Event) :
    eventsOf (log++evs.map fun e => (i,e)) i=eventsOf log i++evs := by
  simp [eventsOf,filterMap_append,filterMap_map]

theorem eventsOf_append_of_ne {i j : Bool} (h : j≠i) (log : List (Bool × Event))
    (evs : List Event) : eventsOf (log++evs.map fun e => (i,e)) j=eventsOf log j := by
  simp [eventsOf,filterMap_append,filterMap_map,h.symm]

/-! ### The invariant of one direction

`S` is what was observed at the sending end, `R` at the receiving one. -/
def numbered (blobs : List Blob) : List (Blob × UInt32) :=
  blobs.mapIdx fun n b => (b,UInt32.ofNat (n+1))

structure Cond (S R : List Event) : Prop where
  fresh : Fresh R
  roomy : Roomy R
  count : (queuedBlobs S).length<2^32

structure Receiving (x : IceXfer) (id : UInt32) (b : Blob) : Prop where
  active : x.recvActive
  id : x.recvId=id
  total : x.recvTotal=b.bytes.length
  start : x.recvBuf <+: b.bytes

structure Delivered (S R : List Event) (ready : List (List UInt8)) : Prop where
  blobs : takenBytes R++ready=((queuedBlobs S).take (completedIds R).length).map (·.bytes)
  le : (completedIds R).length≤(queuedBlobs S).length
  ids : completedIds R=(List.range (completedIds R).length).map fun n => UInt32.ofNat (n+1)

structure RxGood (S R : List Event) (x : IceXfer) : Prop extends Delivered S R x.ready where
  recv : x.recvActive → ∃ b,(queuedBlobs S)[(completedIds R).length]? = some b ∧
    Receiving x (UInt32.ofNat ((completedIds R).length+1)) b ∧ x.recvBuf.length<b.bytes.length

structure TxGood (S R : List Event) (x : IceXfer) : Prop where
  nextId : x.nextId=UInt32.ofNat (queuedBlobs S).length
  queue : (x.sendQ.map fun b => (b.data,b.id)) =
    (numbered (queuedBlobs S)).drop (ackedBlobs S).length
  acked : ackedBlobs S <+: queuedBlobs S
  le : (ackedBlobs S).length≤(completedIds R).length

def DataGood (S R : List Event) (id : UInt32) (total off : ℕ) (payload : List UInt8) : Prop :=
  ∃ n b,(queuedBlobs S)[n]? = some b ∧ n≤(completedIds R).length ∧
    id=UInt32.ofNat (n+1) ∧ total=b.bytes.length ∧ off≤total ∧
    payload=(b.bytes.drop off).take payloadMax

def AckGood (S R : List Event) (id : UInt32) (got : ℕ) : Prop :=
  ∃ n b,(queuedBlobs S)[n]? = some b ∧ id=UInt32.ofNat (n+1) ∧ got≤b.bytes.length ∧
    (b.bytes.length≤got → n<(completedIds R).length)

section Growth
variable {S S' R R' : List Event} {x : IceXfer}
theorem Cond.of_prefix (h : Cond S' R') (hS : S <+: S') (hR : R <+: R') : Cond S R where
  fresh := h.fresh.sublist hR.sublist
  roomy := fun e he => h.roomy e (hR.subset he)
  count := lt_of_le_of_lt (hS.filterMap _).length_le h.count

theorem getElem?_of_isPrefix {α : Type} {l l' : List α} (h : l <+: l') {n : ℕ} {a : α}
    (ha : l[n]? = some a) : l'[n]? = some a := by
  obtain ⟨hn,rfl⟩ := List.getElem?_eq_some_iff.mp ha
  exact List.prefix_iff_getElem?.mp h n hn

variable {id : UInt32}
theorem DataGood.mono {total off : ℕ} {payload : List UInt8}
    (h : DataGood S R id total off payload) (hS : S <+: S') (hR : R <+: R') :
    DataGood S' R' id total off payload := by
  obtain ⟨n,b,hb,hn,hrest⟩ := h
  exact ⟨n,b,getElem?_of_isPrefix (hS.filterMap _) hb,hn.trans (hR.filterMap _).length_le,hrest⟩

theorem AckGood.mono {got : ℕ} (h : AckGood S R id got) (hS : S <+: S')
    (hR : R <+: R') : AckGood S' R' id got := by
  obtain ⟨n,b,hb,hid,hle,hdone⟩ := h
  exact ⟨n,b,getElem?_of_isPrefix (hS.filterMap _) hb,hid,hle,
    fun hg => (hdone hg).trans_le (hR.filterMap _).length_le⟩

theorem RxGood.mono (h : RxGood S R x) (hS : S <+: S') : RxGood S' R x where
  blobs := by
    obtain ⟨t,ht⟩ := hS.filterMap fun | Event.queued b => some b | _ => none
    rw [h.blobs,show queuedBlobs S'=queuedBlobs S++t from ht.symm,take_append_of_le_length h.le]
  le := h.le.trans (hS.filterMap _).length_le
  ids := h.ids
  recv := fun ha => by
    obtain ⟨b,hb,hr⟩ := h.recv ha
    exact ⟨b,getElem?_of_isPrefix (hS.filterMap _) hb,hr⟩

theorem TxGood.mono (h : TxGood S R x) (hR : R <+: R') : TxGood S R' x :=
  { h with le := h.le.trans (hR.filterMap _).length_le }

end Growth

structure RxFrame (x x' : IceXfer) : Prop where
  ready : x'.ready=x.ready
  recvBuf : x'.recvBuf=x.recvBuf
  recvTotal : x'.recvTotal=x.recvTotal
  recvId : x'.recvId=x.recvId
  recvActive : x'.recvActive=x.recvActive
  grow : x.trace <+: x'.trace
  completed : completedIds x'.trace=completedIds x.trace
  taken : takenBytes x'.trace=takenBytes x.trace
  acks : ∀ id got,.ack id got∈x'.out → .ack id got∈x.out

structure TxFrame (x x' : IceXfer) : Prop where
  nextId : x'.nextId=x.nextId
  queue : (x'.sendQ.map fun b => (b.data,b.id))=x.sendQ.map fun b => (b.data,b.id)
  grow : x.trace <+: x'.trace
  queued : queuedBlobs x'.trace=queuedBlobs x.trace
  acked : ackedBlobs x'.trace=ackedBlobs x.trace
  data : ∀ id total off payload,.data id total off payload∈x'.out →
    .data id total off payload∈x.out

def RxCall (S R : List Event) (x : IceXfer) : Prop :=
  Cond S (R++x.trace) → RxGood S (R++x.trace) x ∧
    ∀ id got,.ack id got∈x.out → AckGood S (R++x.trace) id got

def TxCall (S R : List Event) (x : IceXfer) : Prop :=
  Cond (S++x.trace) R → TxGood (S++x.trace) R x ∧
    ∀ id total off payload,.data id total off payload∈x.out →
      DataGood (S++x.trace) R id total off payload

section Frames
variable {S R : List Event} {x x' x'' : IceXfer}
theorem RxFrame.refl (x : IceXfer) : RxFrame x x :=
  ⟨rfl,rfl,rfl,rfl,rfl,prefix_rfl,rfl,rfl,fun _ _ h => h⟩
theorem TxFrame.refl (x : IceXfer) : TxFrame x x :=
  ⟨rfl,rfl,prefix_rfl,rfl,rfl,fun _ _ _ _ h => h⟩

theorem TxFrame.trans (h : TxFrame x x') (h' : TxFrame x' x'') : TxFrame x x'' :=
  ⟨h'.nextId.trans h.nextId,h'.queue.trans h.queue,h.grow.trans h'.grow,
    h'.queued.trans h.queued,h'.acked.trans h.acked,
    fun id total off payload hm => h.data _ _ _ _ (h'.data id total off payload hm)⟩

theorem filterMap_append_congr {α β : Type} (f : α → Option β) (l : List α) {t t' : List α}
    (h : t'.filterMap f=t.filterMap f) : (l++t').filterMap f=(l++t).filterMap f := by
  rw [filterMap_append,filterMap_append,h]

theorem RxGood.frame (h : RxGood S (R++x.trace) x) (hf : RxFrame x x') :
    RxGood S (R++x'.trace) x' := by
  have hc : completedIds (R++x'.trace)=completedIds (R++x.trace) :=
    filterMap_append_congr _ R hf.completed
  have ht : takenBytes (R++x'.trace)=takenBytes (R++x.trace) := filterMap_append_congr _ R hf.taken
  refine ⟨⟨?_,?_,?_⟩,?_⟩
  · rw [ht,hf.ready,hc]
    exact h.blobs
  · rw [hc]
    exact h.le
  · rw [hc]
    exact h.ids
  · intro ha
    rw [hf.recvActive] at ha
    obtain ⟨b,hb,hr,hlt⟩ := h.recv ha
    rw [hc,hf.recvBuf]
    exact ⟨b,hb,⟨hf.recvActive.trans hr.active,hf.recvId.trans hr.id,
      hf.recvTotal.trans hr.total,hf.recvBuf ▸ hr.start⟩,hlt⟩

theorem RxCall.frame (h : RxCall S R x) (hf : RxFrame x x') : RxCall S R x' := by
  intro hc
  have hgrow : R++x.trace <+: R++x'.trace := (prefix_append_right_inj R).mpr hf.grow
  obtain ⟨hgood,hacks⟩ := h (hc.of_prefix prefix_rfl hgrow)
  exact ⟨hgood.frame hf,fun id got hm =>
    (hacks id got (hf.acks id got hm)).mono prefix_rfl hgrow⟩

theorem TxGood.frame (h : TxGood (S++x.trace) R x) (hf : TxFrame x x') :
    TxGood (S++x'.trace) R x' := by
  have hq : queuedBlobs (S++x'.trace)=queuedBlobs (S++x.trace) :=
    filterMap_append_congr _ S hf.queued
  have ha : ackedBlobs (S++x'.trace)=ackedBlobs (S++x.trace) := filterMap_append_congr _ S hf.acked
  refine ⟨?_,?_,?_,?_⟩
  · rw [hf.nextId,hq]
    exact h.nextId
  · rw [hf.queue,hq,ha]
    exact h.queue
  · rw [hq,ha]
    exact h.acked
  · rw [ha]
    exact h.le

theorem TxCall.frame (h : TxCall S R x) (hf : TxFrame x x') : TxCall S R x' := by
  intro hc
  have hgrow : S++x.trace <+: S++x'.trace := (prefix_append_right_inj S).mpr hf.grow
  obtain ⟨hgood,hdata⟩ := h (hc.of_prefix hgrow prefix_rfl)
  exact ⟨hgood.frame hf,fun id total off payload hm =>
    (hdata id total off payload (hf.data id total off payload hm)).mono hgrow prefix_rfl⟩

end Frames

namespace IceXfer
variable (x : IceXfer)
theorem failXfer_rx (err : List UInt8) : RxFrame x (x.failXfer err) := by
  unfold failXfer
  split
  · exact .refl x
  · exact ⟨rfl,rfl,rfl,rfl,rfl,prefix_rfl,rfl,rfl,fun _ _ h => h⟩

theorem failXfer_tx (err : List UInt8) : TxFrame x (x.failXfer err) := by
  unfold failXfer
  split
  · exact .refl x
  · exact ⟨rfl,rfl,prefix_rfl,rfl,rfl,fun _ _ _ _ h => h⟩

end IceXfer

section Receive
variable {S R : List Event} {x : IceXfer} {id : UInt32} {total off : ℕ} {payload : List UInt8}
theorem RxGood.next (h : RxGood S R x) (hf : Fresh (R++[.data id]))
    (hd : DataGood S R id total off payload) : ∃ b,
      (queuedBlobs S)[(completedIds R).length]? = some b ∧
      id=UInt32.ofNat ((completedIds R).length+1) ∧ total=b.bytes.length ∧ off≤total ∧
      payload=(b.bytes.drop off).take payloadMax := by
  obtain ⟨n,b,hb,hn,hid,hrest⟩ := hd
  rcases Nat.lt_or_eq_of_le hn with hlt | rfl
  · exfalso
    have hmem : id∈completedIds R := by
      rw [h.ids,mem_map]
      exact ⟨n,mem_range.mpr hlt,hid.symm⟩
    obtain ⟨e,he,hide⟩ := mem_filterMap.mp hmem
    have hpair:=(pairwise_append.mp hf).2.2 e he (.data id) (mem_singleton_self _)
    cases e with
    | completed id' room =>
      obtain rfl := Option.some.inj hide
      simp [Event.restarts] at hpair
    | _ => cases hide
  · exact ⟨b,hb,hid,hrest⟩

theorem openRecv_kept (x : IceXfer) (malloc : ℕ → Bool) (id : UInt32) (total : ℕ) :
    (x.openRecv malloc id total).1.ready=x.ready ∧ (x.openRecv malloc id total).1.trace=x.trace ∧
      (x.openRecv malloc id total).1.out=x.out := by
  unfold openRecv
  split
  · exact ⟨rfl,rfl,rfl⟩
  simp only
  split
  · unfold failXfer
    split <;> exact ⟨rfl,rfl,rfl⟩
  · exact ⟨rfl,rfl,rfl⟩

variable {b : Blob}
theorem openRecv_cases {K : ℕ} (malloc : ℕ → Bool)
    (hrecv : x.recvActive → ∃ b',(queuedBlobs S)[K]? = some b' ∧
      Receiving x (UInt32.ofNat (K+1)) b' ∧ x.recvBuf.length<b'.bytes.length)
    (hb : (queuedBlobs S)[K]? = some b) :
    let r:=x.openRecv malloc (UInt32.ofNat (K+1)) b.bytes.length
    r.2=false ∧ r.1.recvActive=false ∨ r.2 ∧ Receiving r.1 (UInt32.ofNat (K+1)) b ∧
        (r.1.recvBuf=[] ∨ r.1.recvBuf.length<b.bytes.length) := by
  unfold openRecv
  split
  · next hact =>
    obtain ⟨b',hb',hr,hlt⟩ := hrecv hact.1
    obtain rfl := Option.some.inj (hb'.symm.trans hb)
    exact .inr ⟨rfl,hr,.inr hlt⟩
  simp only
  split
  · exact .inl ⟨rfl,rfl⟩
  · exact .inr ⟨rfl,⟨rfl,rfl,rfl, nil_prefix⟩,.inl rfl⟩

theorem Delivered.completeRecv (h : Delivered S (R++x.trace) x.ready)
    (hb : (queuedBlobs S)[(completedIds (R++x.trace)).length]? = some b)
    (hbuf : x.recvBuf=b.bytes) (hid : id=UInt32.ofNat ((completedIds (R++x.trace)).length+1))
    (hroom : x.ready.length < readyMax) :
    RxGood S (R++(x.completeRecv id).trace) (x.completeRecv id) := by
  have htrace : R++(x.completeRecv id).trace=(R++x.trace)++[.completed id true] := by
    simp [IceXfer.completeRecv,IceXfer.note,hroom]
  have hready : (x.completeRecv id).ready=x.ready++[b.bytes] := by
    simp [IceXfer.completeRecv,IceXfer.note,hroom,hbuf]
  have hc : completedIds ((R++x.trace)++[.completed id true]) =
      completedIds (R++x.trace)++[id] := filterMap_append
  have ht : takenBytes ((R++x.trace)++[.completed id true])=takenBytes (R++x.trace) := by
    simp [takenBytes,List.filterMap_append]
  have hlen:=(List.getElem?_eq_some_iff.mp hb).1
  refine ⟨⟨?_,?_,?_⟩,fun ha => by cases ha⟩
  · rw [htrace,hready,hc,ht,← List.append_assoc,h.blobs,List.length_append,
      length_singleton,take_add_one,hb,map_append]
    rfl
  · rw [htrace,hc,length_append,length_singleton]
    exact hlen
  · rw [htrace,hc,length_append,length_singleton,range_succ,map_append,← h.ids,hid]
    rfl

theorem prefix_append_piece {bytes buf : List UInt8} (h : buf <+: bytes) (n : ℕ) :
    buf++(bytes.drop buf.length).take n <+: bytes := by
  rw [prefix_iff_eq_take.mp h,length_take,Nat.min_eq_left h.length_le,← take_add]
  exact take_prefix ..

theorem acks_append {R' : List Event} {got : ℕ} {out : List Pkt}
    (hb : (queuedBlobs S)[(completedIds R).length]? = some b)
    (hid : id=UInt32.ofNat ((completedIds R).length+1)) (hgot : got≤b.bytes.length)
    (hR : R <+: R') (hfull : b.bytes.length≤got → (completedIds R).length<(completedIds R').length)
    (hacks : ∀ id got,.ack id got∈out → AckGood S R id got) :
    ∀ id' got',.ack id' got'∈out++[.ack id got] → AckGood S R' id' got' := by
  intro id' got' hm
  rcases mem_append.mp hm with hold | hnew
  · exact (hacks id' got' hold).mono prefix_rfl hR
  · obtain ⟨rfl,rfl⟩ : id'=id ∧ got'=got := by simpa using mem_singleton.mp hnew
    exact ⟨_,b,hb,hid,hgot,hfull⟩

theorem appendChunk_rx (h : Delivered S (R++x.trace) x.ready)
    (hb : (queuedBlobs S)[(completedIds (R++x.trace)).length]? = some b)
    (hid : id=UInt32.ofNat ((completedIds (R++x.trace)).length+1)) (hr : Receiving x id b)
    (hbuf : x.recvBuf++payload <+: b.bytes)
    (hacks : ∀ id got,.ack id got∈x.out → AckGood S (R++x.trace) id got)
    (hroomy : Roomy (R++(x.appendChunk id payload).trace)) :
    RxGood S (R++(x.appendChunk id payload).trace) (x.appendChunk id payload) ∧
      ∀ id' got,.ack id' got∈(x.appendChunk id payload).out →
        AckGood S (R++(x.appendChunk id payload).trace) id' got := by
  by_cases hdone : b.bytes.length≤(x.recvBuf++payload).length
  · -- The last byte: the blob is complete, and there was room for it.
    have heq : x.appendChunk id payload=(x.storeChunk id payload).completeRecv id :=
      if_pos (show x.recvTotal≤_ from hr.total ▸ hdone)
    rw [heq] at hroomy ⊢
    have hroom : x.ready.length < readyMax := by
      by_contra hfull
      refine absurd (hroomy (.completed id false) ?_) (by simp [Event.overflows])
      simp [completeRecv,note,storeChunk,send,hfull]
    have hdel : Delivered S (R++(x.storeChunk id payload).trace) (x.storeChunk id payload).ready :=
      h
    have hgrow : R++x.trace <+: R++((x.storeChunk id payload).completeRecv id).trace := by
      simp [completeRecv,note,storeChunk,send]
    refine ⟨hdel.completeRecv hb (hbuf.eq_of_length_le hdone) hid hroom,
      acks_append hb hid hbuf.length_le hgrow (fun _ => ?_) hacks⟩
    simp [completedIds,completeRecv,note,storeChunk,send,filterMap_append]
  · have heq : x.appendChunk id payload=x.storeChunk id payload :=
      if_neg (show ¬ x.recvTotal≤_ from hr.total ▸ hdone)
    rw [heq]
    have hshort : (x.recvBuf++payload).length<b.bytes.length := by omega
    refine ⟨⟨h,fun _ => ⟨b,hb,?_,hshort⟩⟩,
      acks_append hb hid hbuf.length_le prefix_rfl (fun hge => absurd hge hdone) hacks⟩
    exact hid ▸ { hr with start := hbuf }

theorem takeChunk_rx (h : Delivered S (R++x.trace) x.ready)
    (hb : (queuedBlobs S)[(completedIds (R++x.trace)).length]? = some b)
    (hid : id=UInt32.ofNat ((completedIds (R++x.trace)).length+1)) (hr : Receiving x id b)
    (hlt : x.recvBuf=[] ∨ x.recvBuf.length<b.bytes.length) (hoff : off≤b.bytes.length)
    (hp : payload=(b.bytes.drop off).take payloadMax)
    (hacks : ∀ id got,.ack id got∈x.out → AckGood S (R++x.trace) id got)
    (hroomy : Roomy (R++(x.takeChunk id off payload).trace)) :
    RxGood S (R++(x.takeChunk id off payload).trace) (x.takeChunk id off payload) ∧
      ∀ id' got,.ack id' got∈(x.takeChunk id off payload).out →
        AckGood S (R++(x.takeChunk id off payload).trace) id' got := by
  unfold takeChunk at hroomy ⊢
  by_cases hne : off≠x.recvBuf.length
  · -- Not the next byte: only the answer goes out, and it names less than the blob.
    rw [if_pos hne]
    have hshort : x.recvBuf.length<b.bytes.length := by
      rcases hlt with hnil | hlt
      · rw [hnil] at hne ⊢
        simp only [length_nil] at hne ⊢
        omega
      · exact hlt
    refine ⟨⟨h,fun _ => ⟨b,hb,?_,hshort⟩⟩,
      acks_append hb hid hshort.le prefix_rfl (fun hge => by omega) hacks⟩
    exact hid ▸ { hr with }
  · rw [if_neg hne] at hroomy ⊢
    obtain rfl : off=x.recvBuf.length := not_not.mp hne
    have hbuf : x.recvBuf++payload <+: b.bytes := hp ▸ prefix_append_piece hr.start payloadMax
    have hfits : ¬ (payload≠[] ∧ x.recvTotal<x.recvBuf.length+payload.length) := by
      have hlen:=hbuf.length_le
      rw [length_append] at hlen
      rw [hr.total]
      omega
    rw [if_neg hfits] at hroomy ⊢
    exact appendChunk_rx h hb hid hr hbuf hacks hroomy

theorem takeChunk_grow (x : IceXfer) (id : UInt32) (off : ℕ) (payload : List UInt8) :
    x.trace <+: (x.takeChunk id off payload).trace := by
  unfold takeChunk
  split
  · exact prefix_rfl
  split
  · exact (x.failXfer_rx _).grow
  unfold appendChunk
  simp only
  split
  · exact prefix_append ..
  · exact prefix_rfl

theorem noteData_rx (x : IceXfer) (id : UInt32) : RxFrame x (x.note (.data id)) where
  ready := rfl
  recvBuf := rfl
  recvTotal := rfl
  recvId := rfl
  recvActive := rfl
  grow := prefix_append ..
  completed := by simp [note,completedIds,filterMap_append]
  taken := by simp [note,takenBytes,filterMap_append]
  acks := fun _ _ h => h

theorem RxCall.next (h : RxCall S R x) (hd : Cond S R → DataGood S R id total off payload)
    (hc : Cond S (R++(x.note (.data id)).trace)) : ∃ b,
      (queuedBlobs S)[(completedIds (R++(x.note (.data id)).trace)).length]? = some b ∧
      id=UInt32.ofNat ((completedIds (R++(x.note (.data id)).trace)).length+1) ∧
      total=b.bytes.length ∧ off≤total ∧ payload=(b.bytes.drop off).take payloadMax := by
  have hcx:=hc.of_prefix prefix_rfl ((prefix_append_right_inj R).mpr (noteData_rx x id).grow)
  have hfresh : Fresh ((R++x.trace)++[.data id]) := by
    simpa [note] using hc.fresh
  have hcount : completedIds (R++(x.note (.data id)).trace)=completedIds (R++x.trace) :=
    filterMap_append_congr _ R (noteData_rx x id).completed
  have hdx:=(hd (hcx.of_prefix prefix_rfl (prefix_append ..))).mono
    (prefix_refl S) (prefix_append R x.trace)
  rw [hcount]
  exact (h hcx).1.next hfresh hdx

theorem RxCall.handleData (malloc : ℕ → Bool) (h : RxCall S R x)
    (hd : Cond S R → DataGood S R id total off payload) :
    RxCall S R (x.handleData malloc id total off payload) := by
  have hnote:=h.frame (noteData_rx x id)
  have hnext:=h.next hd
  unfold IceXfer.handleData
  generalize x.note (.data id)=y at hnote hnext
  by_cases hbig : sizeMax/2<total
  · rw [if_pos hbig]
    exact hnote.frame (failXfer_rx _ _)
  rw [if_neg hbig]
  intro hc
  obtain ⟨hready,htrace,hout⟩ := openRecv_kept y malloc id total
  have hcy : Cond S (R++y.trace) := by
    refine hc.of_prefix prefix_rfl ((prefix_append_right_inj R).mpr ?_)
    rw [← htrace]
    split
    · next z hz => rw [hz]
    · next z hz => rw [hz]; exact takeChunk_grow z id off payload
  obtain ⟨b,hb,hid,rfl,hoff,hp⟩ := hnext hcy
  obtain ⟨hgood,hacks⟩ := hnote hcy
  have hopen:=openRecv_cases malloc hgood.recv hb
  rw [← hid] at hopen
  generalize y.openRecv malloc id b.bytes.length=r at hc hready htrace hout hopen ⊢
  obtain ⟨z,ok⟩ := r
  simp only at hready htrace hout hopen
  have hdel : Delivered S (R++z.trace) z.ready := by
    rw [hready,htrace]
    exact hgood.toDelivered
  rcases hopen with ⟨rfl,hidle⟩ | ⟨rfl,hr,hlt⟩
  · refine ⟨⟨hdel,fun ha => absurd ha (by rw [hidle]; decide)⟩,?_⟩
    rw [hout,htrace]
    exact hacks
  rw [← htrace] at hb hid hacks
  rw [← hout] at hacks
  exact takeChunk_rx hdel hb hid hr hlt hoff hp hacks hc.roomy

end Receive

section TakeBlob
variable {S R : List Event} {x : IceXfer}
theorem RxCall.takeBlob (h : RxCall S R x) : RxCall S R x.takeBlob := by
  unfold IceXfer.takeBlob
  split
  · exact h
  next bytes rest hready =>
  intro hc
  have htrace : R++({ x with ready := rest }.note (.taken bytes)).trace =
      (R++x.trace)++[.taken bytes] := by
    simp [note]
  have hcx:=hc.of_prefix (prefix_refl S) (htrace ▸ prefix_append (R++x.trace) _)
  obtain ⟨hgood,hacks⟩ := h hcx
  have hcount : completedIds ((R++x.trace)++[.taken bytes])=completedIds (R++x.trace) := by
    simp [completedIds,filterMap_append]
  have htaken : takenBytes ((R++x.trace)++[.taken bytes])=takenBytes (R++x.trace)++[bytes] := by
    simp [takenBytes,filterMap_append]
  rw [htrace]
  refine ⟨⟨⟨?_,?_,?_⟩,?_⟩,fun id got hm => ?_⟩
  · rw [hcount,htaken,← hgood.blobs,hready,append_assoc]
    rfl
  · rw [hcount]
    exact hgood.le
  · rw [hcount]
    exact hgood.ids
  · rw [hcount]
    intro ha
    obtain ⟨b,hb,hr,hlt⟩ := hgood.recv ha
    exact ⟨b,hb,{ hr with },hlt⟩
  · exact (hacks id got hm).mono (prefix_refl S) (prefix_append ..)

end TakeBlob

namespace IceXfer
variable (x : IceXfer)
theorem handleAck_rx (id : UInt32) (got : ℕ) : RxFrame x (x.handleAck id got) := by
  unfold handleAck
  split
  · exact .refl x
  split
  · exact .refl x
  split
  · exact .refl x
  split
  · exact ⟨rfl,rfl,rfl,rfl,rfl,prefix_append ..,by
      simp [note,completedIds,filterMap_append],by
      simp [note,takenBytes,filterMap_append],fun _ _ h => h⟩
  · exact ⟨rfl,rfl,rfl,rfl,rfl,prefix_rfl,rfl,rfl,fun _ _ h => h⟩

theorem queueBlob_rx (data : Blob) : RxFrame x (x.queueBlob data) := by
  unfold queueBlob
  split
  · exact .refl x
  · exact ⟨rfl,rfl,rfl,rfl,rfl,prefix_append ..,by
      simp [note,completedIds,filterMap_append],by
      simp [note,takenBytes,filterMap_append],fun _ _ h => h⟩

theorem fail_rx (err : List UInt8) : RxFrame x (x.fail err) := by
  have h:=x.failXfer_rx err
  refine { h with acks := ?_ }
  intro id got hm
  rcases mem_append.mp hm with hold | hnew
  · exact h.acks id got hold
  · cases mem_singleton.mp hnew

end IceXfer

def Pieces (b : XferBlob) (out : List Pkt) : Prop :=
  ∀ p∈out,∃ off≤b.len,p=.data b.id b.len off ((b.data.bytes.drop off).take payloadMax)
theorem Pieces.nil (b : XferBlob) : Pieces b [] := fun p hp => by cases hp

variable {b : XferBlob} {out : List Pkt}
theorem Pieces.congr {b' : XferBlob} (h : Pieces b out) (hd : b'.data=b.data)
    (hid : b'.id=b.id) : Pieces b' out := by
  unfold Pieces XferBlob.len
  rw [hd,hid]
  exact h

theorem Pieces.append {out' : List Pkt} (h : Pieces b out) (h' : Pieces b out') :
    Pieces b (out++out') := fun p hp => (mem_append.mp hp).elim (h p) (h' p)

namespace IceXfer
variable (x : IceXfer)
theorem sendData_out (b : XferBlob) (off : ℕ) :
    ∃ out,Pieces b out ∧ x.sendData b off={ x with out := x.out++out } := by
  unfold sendData
  split
  · exact ⟨[],Pieces.nil b,by simp⟩
  next hle =>
  refine ⟨[.data b.id b.len off ((b.data.bytes.drop off).take payloadMax)],?_,rfl⟩
  intro p hp
  exact ⟨off,not_lt.mp hle,mem_singleton.mp hp⟩

section
variable (now : UInt64)
theorem sendWindow_out (fuel : ℕ) (b : XferBlob) (x : IceXfer) :
    (∃ out,Pieces b out ∧ (sendWindow now fuel b x).1={ x with out := x.out++out }) ∧
      (sendWindow now fuel b x).2.data=b.data ∧ (sendWindow now fuel b x).2.id=b.id := by
  induction fuel generalizing b x with
  | zero => exact ⟨⟨[],Pieces.nil b,by simp [sendWindow]⟩,rfl,rfl⟩
  | succ fuel ih =>
    unfold sendWindow
    split
    · obtain ⟨out,hout,hx⟩ := sendData_out x b b.nextOff
      obtain ⟨⟨out',hout',hx'⟩,hd,hid⟩ := ih
        { b with nextOff := b.nextOff+min (b.len-b.nextOff) payloadMax,lastSendMs := now }
        (x.sendData b b.nextOff)
      refine ⟨⟨out++out',hout.append (hout'.congr rfl rfl),?_⟩,hd,hid⟩
      rw [hx',hx]
      simp
    · exact ⟨⟨[],Pieces.nil b,by simp⟩,rfl,rfl⟩

theorem rewindCursor_kept (b : XferBlob) :
    (rewindCursor now b).data=b.data ∧ (rewindCursor now b).id=b.id := by
  unfold rewindCursor
  simp only
  split <;> split <;> exact ⟨rfl,rfl⟩

theorem sendEmpty_out (b : XferBlob) :
    (∃ out,Pieces b out ∧ (x.sendEmpty now b).1={ x with out := x.out++out }) ∧
      (x.sendEmpty now b).2.data=b.data ∧ (x.sendEmpty now b).2.id=b.id := by
  unfold sendEmpty
  split
  · exact ⟨sendData_out x b 0,rfl,rfl⟩
  · exact ⟨⟨[],Pieces.nil b,by simp⟩,rfl,rfl⟩

theorem pumpSend_cases : x.pumpSend now=x ∨
    ∃ b b' rest out,x.sendQ=b::rest ∧ Pieces b out ∧ b'.data=b.data ∧ b'.id=b.id ∧
      x.pumpSend now={ x with sendQ := b'::rest,out := x.out++out } := by
  unfold pumpSend
  split
  · exact .inl rfl
  next b rest hq =>
  split
  · exact .inl rfl
  obtain ⟨hd₀,hid₀⟩ := rewindCursor_kept now b
  generalize rewindCursor now b=c at hd₀ hid₀
  obtain ⟨⟨out₁,hout₁,hx₁⟩,hd₁,hid₁⟩ := sendWindow_out now (c.len-c.nextOff) c x
  simp only
  generalize sendWindow now (c.len-c.nextOff) c x=r at hx₁ hd₁ hid₁
  obtain ⟨⟨out₂,hout₂,hx₂⟩,hd₂,hid₂⟩ := sendEmpty_out r.1 now r.2
  refine .inr ⟨b,(r.1.sendEmpty now r.2).2,rest,out₁++out₂,hq,?_,?_,?_,?_⟩
  · exact (hout₁.congr hd₀.symm hid₀.symm).append
      (hout₂.congr (hd₁.trans hd₀).symm (hid₁.trans hid₀).symm)
  · exact hd₂.trans (hd₁.trans hd₀)
  · exact hid₂.trans (hid₁.trans hid₀)
  · rw [hx₂,hx₁]
    simp

theorem pumpSend_rx : RxFrame x (x.pumpSend now) := by
  rcases pumpSend_cases x now with heq | ⟨b,b',rest,out,-,hout,-,-,heq⟩
  · rw [heq]
    exact .refl x
  rw [heq]
  refine ⟨rfl,rfl,rfl,rfl,rfl,prefix_rfl,rfl,rfl,fun id got hm => ?_⟩
  rcases mem_append.mp hm with hold | hnew
  · exact hold
  · obtain ⟨off,-,hp⟩ := hout _ hnew
    cases hp

end
end IceXfer

section Send
variable {S R : List Event} {x : IceXfer}
theorem getElem?_numbered (Q : List Blob) (n : ℕ) :
    (numbered Q)[n]? = Q[n]?.map fun b => (b,UInt32.ofNat (n+1)) := getElem?_mapIdx ..

theorem eq_of_number_eq {m n : ℕ} (hm : m+1<2^32) (hn : n+1<2^32)
    (h : UInt32.ofNat (m+1)=UInt32.ofNat (n+1)) : m=n := by
  have hnat:=congrArg UInt32.toNat h
  rw [UInt32.toNat_ofNat_of_lt' hm,UInt32.toNat_ofNat_of_lt' hn] at hnat
  omega

theorem TxGood.head {b : XferBlob} {rest : List XferBlob} (h : TxGood S R x)
    (hq : x.sendQ=b::rest) : (queuedBlobs S)[(ackedBlobs S).length]? = some b.data ∧
      b.id=UInt32.ofNat ((ackedBlobs S).length+1) := by
  have hhead : (numbered (queuedBlobs S))[(ackedBlobs S).length]? = some (b.data,b.id) := by
    have hdrop:=h.queue
    rw [hq,map_cons] at hdrop
    have hzero:=congrArg (·[0]?) hdrop
    simpa [getElem?_drop] using hzero.symm
  rw [getElem?_numbered,Option.map_eq_some_iff] at hhead
  obtain ⟨c,hc,heq⟩ := hhead
  obtain ⟨hdata,hid⟩ := Prod.mk.inj heq
  exact ⟨hdata ▸ hc,hid.symm⟩

theorem prefix_snoc {α : Type} {l l' : List α} {a : α} (h : l <+: l') (ha : l'[l.length]? = some a) :
    l++[a] <+: l' := by
  rw [prefix_iff_eq_take,length_append,length_singleton,take_add_one,ha,← prefix_iff_eq_take.mp h]
  rfl

theorem TxCall.handleAck {id : UInt32} {got : ℕ} (h : TxCall S R x)
    (ha : Cond S R → AckGood S R id got) : TxCall S R (x.handleAck id got) := by
  unfold IceXfer.handleAck
  split
  · exact h
  next b rest hq =>
  split
  · exact h
  next hid =>
  obtain rfl : b.id=id := not_not.mp hid
  split
  · exact h
  split
  · next hfull =>
    intro hc
    have htrace : S++({ x with sendQ := rest }.note (.acked b.data)).trace =
        (S++x.trace)++[.acked b.data] := by
      simp [note]
    have hcx:=hc.of_prefix (htrace ▸ prefix_append (S++x.trace) _) (prefix_refl R)
    obtain ⟨hgood,hdata⟩ := h hcx
    obtain ⟨hb,hnum⟩ := hgood.head hq
    obtain ⟨n,c,hn,hidn,-,hdone⟩ := (ha (hcx.of_prefix (prefix_append ..)
      (prefix_refl R))).mono (prefix_append S x.trace) (prefix_refl R)
    -- The acknowledgement names the first blob, so all of it is in.
    have hcount:=hcx.count
    have hnlt:=(List.getElem?_eq_some_iff.mp hn).1
    have halt:=(List.getElem?_eq_some_iff.mp hb).1
    obtain rfl : (ackedBlobs (S++x.trace)).length=n :=
      eq_of_number_eq (by omega) (by omega) (hnum.symm.trans hidn)
    obtain rfl : c=b.data := Option.some.inj (hn.symm.trans hb)
    have hacked : ackedBlobs ((S++x.trace)++[.acked b.data]) =
        ackedBlobs (S++x.trace)++[b.data] := filterMap_append
    have hqueued : queuedBlobs ((S++x.trace)++[.acked b.data])=queuedBlobs (S++x.trace) := by
      simp [queuedBlobs,filterMap_append]
    rw [htrace]
    refine ⟨⟨?_,?_,?_,?_⟩,fun id total off payload hm => ?_⟩
    · rw [hqueued]
      exact hgood.nextId
    · rw [hqueued,hacked,length_append,length_singleton,← drop_drop,← hgood.queue,hq]
      rfl
    · rw [hqueued,hacked]
      exact prefix_snoc hgood.acked hb
    · rw [hacked,length_append,length_singleton]
      exact hdone hfull
    · exact (hdata id total off payload hm).mono (prefix_append ..) (prefix_refl R)
  · refine h.frame ⟨rfl,?_,prefix_rfl,rfl,rfl,fun _ _ _ _ hm => hm⟩
    rw [hq]
    rfl

theorem TxCall.pumpSend (now : UInt64) (h : TxCall S R x) : TxCall S R (x.pumpSend now) := by
  rcases pumpSend_cases x now with heq | ⟨b,b',rest,out,hq,hout,hd,hid,heq⟩
  · rw [heq]
    exact h
  rw [heq]
  intro hc
  obtain ⟨hgood,hdata⟩ := h hc
  obtain ⟨hb,hnum⟩ := hgood.head hq
  refine ⟨{ hgood with queue := ?_ },?_⟩
  · rw [← hgood.queue,hq,map_cons,map_cons,hd,hid]
  · intro id total off payload hm
    rcases mem_append.mp hm with hold | hnew
    · exact hdata id total off payload hold
    obtain ⟨off,hoff,hp⟩ := hout _ hnew
    cases hp
    exact ⟨_,b.data,hb,hgood.le,hnum,rfl,hoff,rfl⟩

theorem numbered_append (Q : List Blob) (b : Blob) :
    numbered (Q++[b])=numbered Q++[(b,UInt32.ofNat (Q.length+1))] := by
  simp [numbered,mapIdx_append]

theorem TxCall.queueBlob (data : Blob) (h : TxCall S R x) : TxCall S R (x.queueBlob data) := by
  unfold IceXfer.queueBlob
  split
  · exact h
  intro hc
  generalize hx' : ({ x with
    nextId := x.nextId+1
    sendQ := x.sendQ++[XferBlob.mk data (x.nextId+1) 0 0 0] } : IceXfer).note
      (.queued data)=x' at hc ⊢
  have htrace : S++x'.trace=(S++x.trace)++[.queued data] := by
    simp [← hx',note]
  have hgrow : S++x.trace <+: S++x'.trace := htrace ▸ prefix_append ..
  obtain ⟨hgood,hdata⟩ := h (hc.of_prefix hgrow (prefix_refl R))
  have hqueued : queuedBlobs ((S++x.trace)++[.queued data]) =
      queuedBlobs (S++x.trace)++[data] := filterMap_append
  have hacked : ackedBlobs ((S++x.trace)++[.queued data])=ackedBlobs (S++x.trace) := by
    simp [ackedBlobs,filterMap_append]
  have hnext : x.nextId+1=UInt32.ofNat ((queuedBlobs (S++x.trace)).length+1) := by
    rw [hgood.nextId,UInt32.ofNat_add]
    rfl
  refine ⟨⟨?_,?_,?_,?_⟩,fun id total off payload hm => ?_⟩
  · rw [htrace,hqueued,length_append,length_singleton,← hnext,← hx']
    rfl
  · have hle : (ackedBlobs (S++x.trace)).length≤(numbered (queuedBlobs (S++x.trace))).length := by
      rw [numbered,length_mapIdx]
      exact hgood.acked.length_le
    rw [htrace,hqueued,hacked,numbered_append,drop_append_of_le_length hle,
      ← hgood.queue,← hnext,← hx']
    simp [note]
  · rw [htrace,hqueued,hacked]
    exact hgood.acked.trans (prefix_append ..)
  · rw [htrace,hacked]
    exact hgood.le
  · rw [← hx'] at hm
    exact (hdata id total off payload hm).mono hgrow (prefix_refl R)

end Send

namespace IceXfer
variable (x : IceXfer) (id : UInt32)
theorem completeRecv_tx : TxFrame x (x.completeRecv id) :=
  ⟨rfl,rfl,prefix_append ..,by
    simp [completeRecv,note,queuedBlobs,filterMap_append],by
    simp [completeRecv,note,ackedBlobs,filterMap_append],fun _ _ _ _ h => h⟩

theorem noteData_tx : TxFrame x (x.note (.data id)) :=
  ⟨rfl,rfl,prefix_append ..,by simp [note,queuedBlobs,filterMap_append],by
    simp [note,ackedBlobs,filterMap_append],fun _ _ _ _ h => h⟩

variable (malloc : ℕ → Bool)
theorem openRecv_tx (id : UInt32) (total : ℕ) : TxFrame x (x.openRecv malloc id total).1 := by
  have hopened (y : IceXfer) (hid : y.nextId=x.nextId) (hq : y.sendQ=x.sendQ)
      (ht : y.trace=x.trace) (ho : y.out=x.out) : TxFrame x y :=
    ⟨hid,by rw [hq],by rw [ht],by rw [ht],by rw [ht],fun _ _ _ _ h => ho ▸ h⟩
  unfold openRecv
  split
  · exact .refl x
  simp only
  split
  · unfold failXfer
    split <;> exact hopened _ rfl rfl rfl rfl
  · exact hopened _ rfl rfl rfl rfl

theorem sendAck_tx (got : ℕ) : TxFrame x (x.send (.ack id got)) := by
  refine ⟨rfl,rfl,prefix_rfl,rfl,rfl,fun _ _ _ _ hm => ?_⟩
  rcases mem_append.mp hm with hold | hnew
  · exact hold
  · cases mem_singleton.mp hnew

theorem takeChunk_tx (off : ℕ) (payload : List UInt8) : TxFrame x (x.takeChunk id off payload) := by
  unfold takeChunk
  split
  · exact x.sendAck_tx id _
  split
  · exact x.failXfer_tx _
  have hstore : TxFrame x (x.storeChunk id payload) :=
    (show TxFrame x { x with recvBuf := x.recvBuf++payload } from
      ⟨rfl,rfl,prefix_rfl,rfl,rfl,fun _ _ _ _ h => h⟩).trans (sendAck_tx _ id _)
  unfold appendChunk
  simp only
  split
  · exact hstore.trans (completeRecv_tx _ id)
  · exact hstore

theorem handleData_tx (id : UInt32) (total off : ℕ) (payload : List UInt8) :
    TxFrame x (x.handleData malloc id total off payload) := by
  have hnote:=x.noteData_tx id
  unfold handleData
  generalize x.note (.data id)=y at hnote
  simp only
  split
  · exact hnote.trans (y.failXfer_tx _)
  have hopen:=hnote.trans (y.openRecv_tx malloc id total)
  generalize y.openRecv malloc id total=r at hopen
  obtain ⟨z,ok⟩ := r
  cases ok with
  | false => exact hopen
  | true => exact hopen.trans (z.takeChunk_tx id off payload)

theorem takeBlob_tx : TxFrame x x.takeBlob := by
  unfold takeBlob
  split
  · exact .refl x
  · exact ⟨rfl,rfl,prefix_append ..,by simp [note,queuedBlobs,filterMap_append],by
      simp [note,ackedBlobs,filterMap_append],fun _ _ _ _ h => h⟩

theorem fail_tx (err : List UInt8) : TxFrame x (x.fail err) := by
  refine (x.failXfer_tx err).trans ⟨rfl,rfl,prefix_rfl,rfl,rfl,fun _ _ _ _ hm => ?_⟩
  rcases mem_append.mp hm with hold | hnew
  · exact hold
  · cases mem_singleton.mp hnew

end IceXfer

def PktGood (S R : List Event) (fwd : Bool) : Pkt → Prop
  | .data id total off payload => fwd=true → Cond S R → DataGood S R id total off payload
  | .ack id got => fwd=false → Cond S R → AckGood S R id got
  | .fail _ => True

section Calls
variable {S R : List Event} {x : IceXfer} {buf : List UInt8} (malloc : ℕ → Bool)
theorem RxCall.handlePkt (h : RxCall S R x)
    (hp : ∀ p,Pkt.decode buf=some p → PktGood S R true p) :
    RxCall S R (IceXfer.handlePkt malloc x buf) := by
  unfold IceXfer.handlePkt
  split
  · exact h
  next p hdec =>
  have hgood:=hp p hdec
  cases p with
  | data id total off payload => exact h.handleData malloc (hgood rfl)
  | ack id got => exact h.frame (x.handleAck_rx id got)
  | fail err => exact h.frame (x.failXfer_rx _)

theorem TxCall.handlePkt (h : TxCall S R x)
    (hp : ∀ p,Pkt.decode buf=some p → PktGood S R false p) :
    TxCall S R (IceXfer.handlePkt malloc x buf) := by
  unfold IceXfer.handlePkt
  split
  · exact h
  next p hdec =>
  have hgood:=hp p hdec
  cases p with
  | data id total off payload => exact h.frame (x.handleData_tx malloc id total off payload)
  | ack id got => exact h.handleAck (hgood rfl)
  | fail err => exact h.frame (x.failXfer_tx _)

theorem pump_induction {P : IceXfer → Prop} (inp : IceXfer.PumpInput) (h : P x)
    (hpkt : ∀ y,∀ buf∈inp.inbox,P y → P (IceXfer.handlePkt inp.malloc y buf))
    (hsend : ∀ y now,P y → P (IceXfer.pumpSend y now))
    (hfail : ∀ y err,P y → P (IceXfer.failXfer y err)) : P (x.pump inp) := by
  have hfold : ∀ (inbox : List (List UInt8)) (y : IceXfer),(∀ buf∈inbox,buf∈inp.inbox) →
      P y → P (inbox.foldl (handlePkt inp.malloc) y) := by
    intro inbox
    induction inbox with
    | nil => exact fun y _ hy => hy
    | cons buf rest ih =>
      intro y hsub hy
      exact ih _ (fun b hb => hsub b (mem_cons_of_mem _ hb))
        (hpkt y buf (hsub buf (mem_cons_self ..)) hy)
  unfold pump
  split
  · exact h
  split
  · exact hfail _ _ h
  · split
    · exact hfail _ _ h
    · exact h
  have hrecv:=hfold (inp.inbox.takeWhile (· ≠ [])) x (fun buf hb => takeWhile_subset _ hb) h
  simp only
  split
  · exact hrecv
  · exact hsend _ _ hrecv

theorem RxCall.perform (c : Call) (h : RxCall S R x)
    (hin : ∀ m∈spec.inputs c,∀ p,Pkt.decode m.bytes=some p → PktGood S R true p) :
    RxCall S R (x.perform c) := by
  cases c with
  | queue data => exact h.frame (x.queueBlob_rx data)
  | take => exact h.takeBlob
  | fail err => exact h.frame (x.fail_rx err)
  | pump now state inbox malloc =>
    refine pump_induction _ h ?_ (fun y now hy => hy.frame (y.pumpSend_rx now))
      fun y err hy => hy.frame (y.failXfer_rx err)
    intro y buf hbuf hy
    obtain ⟨m,hm,rfl⟩ := mem_map.mp hbuf
    exact hy.handlePkt malloc (hin m hm)

theorem TxCall.perform (c : Call) (h : TxCall S R x)
    (hin : ∀ m∈spec.inputs c,∀ p,Pkt.decode m.bytes=some p → PktGood S R false p) :
    TxCall S R (x.perform c) := by
  cases c with
  | queue data => exact h.queueBlob data
  | take => exact h.frame x.takeBlob_tx
  | fail err => exact h.frame (x.fail_tx err)
  | pump now state inbox malloc =>
    refine pump_induction _ h ?_ (fun y now hy => hy.pumpSend now)
      fun y err hy => hy.frame (y.failXfer_tx err)
    intro y buf hbuf hy
    obtain ⟨m,hm,rfl⟩ := mem_map.mp hbuf
    exact hy.handlePkt malloc (hin m hm)

end Calls

section Runs
variable {S S' R R' : List Event} {x : IceXfer} {p : Pkt}
theorem PktGood.mono {fwd : Bool} (h : PktGood S R fwd p) (hS : S <+: S')
    (hR : R <+: R') : PktGood S' R' fwd p := by
  cases p with
  | data | ack => exact fun hf hc => (h hf (hc.of_prefix hS hR)).mono hS hR
  | fail err => trivial

variable {q : Pkt}
theorem RxCall.sent (h : RxCall S R x) (hp : p∈x.out)
    (hq : Pkt.decode p.encode=some q) : PktGood S (R++x.trace) false q := by
  cases q with
  | data id total off payload => exact fun hf => by cases hf
  | fail err => trivial
  | ack id got =>
    intro _ hc
    cases p with
    | data id' total off payload => exact absurd hq decode_data_ne_ack
    | fail err =>
      obtain ⟨text,ht⟩ := decode_fail err
      rw [ht] at hq
      cases hq
    | ack id' got' =>
      have hgood:=(h hc).2 id' got' hp
      have ⟨_,b,_,_,hgot,_⟩ := hgood
      rw [decode_ack (hgot.trans b.fits)] at hq
      cases hq
      exact hgood

theorem TxCall.sent (h : TxCall S R x) (hp : p∈x.out)
    (hq : Pkt.decode p.encode=some q) : PktGood (S++x.trace) R true q := by
  cases q with
  | ack id got => exact fun hf => by cases hf
  | fail err => trivial
  | data id total off payload =>
    intro _ hc
    cases p with
    | ack id' got' => exact absurd hq decode_ack_ne_data
    | fail err =>
      obtain ⟨text,ht⟩ := decode_fail err
      rw [ht] at hq
      cases hq
    | data id' total' off' payload' =>
      have hgood:=(h hc).2 id' total' off' payload' hp
      have ⟨_,b,_,_,_,htotal,hoff,hpay⟩ := hgood
      have hfits : total' ≤ sizeMax := htotal ▸ b.fits
      have hshort : payload'.length≤payloadMax := hpay ▸ length_take_le ..
      rw [decode_data hfits (hoff.trans hfits) hshort] at hq
      cases hq
      exact hgood

end Runs

variable (i : Bool)
def facts : Net.LogFacts Bool IceXfer Datagram Event where
  node log j x := x.out=[] ∧ x.trace=[] ∧ (Cond (eventsOf log !i) (eventsOf log i) →
      (j=i → RxGood (eventsOf log !i) (eventsOf log i) x) ∧
      (j=(!i) → TxGood (eventsOf log !i) (eventsOf log i) x))
  msg log m := ∀ p,Pkt.decode m.bytes=some p →
    PktGood (eventsOf log !i) (eventsOf log i) (decide (m.sender=!i)) p

theorem eventsOf_grow (log : List (Bool × Event)) (i j : Bool) (evs : List Event) :
    eventsOf log j <+: eventsOf (log++evs.map fun e => (i,e)) j := by
  by_cases h : j=i
  · rw [h,eventsOf_append_self]
    exact prefix_append ..
  · rw [eventsOf_append_of_ne h]

theorem facts_stable : (facts i).Stable where
  node := by
    rintro k j log x evs hj ⟨hout,htrace,hgood⟩
    refine ⟨hout,htrace,fun hc => ?_⟩
    obtain ⟨hrx,htx⟩ := hgood (hc.of_prefix (eventsOf_grow ..) (eventsOf_grow ..))
    refine ⟨fun hi => ?_,fun hi => ?_⟩
    · subst hi
      rw [eventsOf_append_of_ne hj]
      exact (hrx rfl).mono (eventsOf_grow ..)
    · subst hi
      rw [eventsOf_append_of_ne hj]
      exact (htx rfl).mono (eventsOf_grow ..)
  msg := fun evs h p hp => (h p hp).mono (eventsOf_grow ..) (eventsOf_grow ..)

variable {w : Link}
theorem facts_open (h : Opened w) : (facts i).Holds w := by
  obtain ⟨hnode,hsent,hlog⟩ := h
  refine ⟨fun j => ?_,fun m hm => ?_⟩
  · obtain ⟨now,hx⟩ := hnode j
    rw [hx,hlog]
    refine ⟨rfl,rfl,fun _ => ⟨fun _ => ⟨⟨rfl,le_rfl,rfl⟩,fun ha => by cases ha⟩,fun _ => ?_⟩⟩
    exact ⟨rfl,rfl,prefix_rfl,le_rfl⟩
  · rw [hsent] at hm
    cases hm

theorem facts_step (w : Link) (j : Bool) (c : Call) (hw : (facts i).Holds w)
    (hok : addressed w j c) (hin : ∀ m∈spec.inputs c,(facts i).msg w.log m) :
    let r:=spec.act j c (w.node j)
    let log:=w.log++r.2.2.map fun e => (j,e)
    (facts i).node log j r.1 ∧ ∀ m∈r.2.1,(facts i).msg log m := by
  obtain ⟨hout,htrace,hgood⟩ := hw.node j
  by_cases hj : j=i
  · subst hj
    have hcall : RxCall (eventsOf w.log !j) (eventsOf w.log j) (w.node j) := by
      intro hc
      rw [htrace,append_nil] at hc ⊢
      exact ⟨(hgood hc).1 rfl,fun id got hm => by rw [hout] at hm; cases hm⟩
    have hrun:=hcall.perform c fun m hm p hp => by
      have := hin m hm p hp
      rwa [decide_eq_true (hok m hm)] at this
    refine ⟨⟨rfl,rfl,fun hc => ⟨fun _ => ?_,fun h => absurd h (by simp)⟩⟩,fun m hm p hp => ?_⟩
    · rw [eventsOf_append_self,eventsOf_append_of_ne (by simp)] at hc ⊢
      have hx:=(hrun hc).1
      exact ⟨hx.toDelivered,fun ha => by
        obtain ⟨b,hb,hr,hlt⟩ := hx.recv ha
        exact ⟨b,hb,{ hr with },hlt⟩⟩
    · obtain ⟨q,hq,rfl⟩ := mem_map.mp hm
      rw [eventsOf_append_self,eventsOf_append_of_ne (by simp),decide_eq_false (by simp)]
      exact hrun.sent hq hp
  · obtain rfl : j=!i := by
      cases i <;> cases j <;> simp_all
    have hcall : TxCall (eventsOf w.log !i) (eventsOf w.log i) (w.node !i) := by
      intro hc
      rw [htrace,append_nil] at hc ⊢
      exact ⟨(hgood hc).2 rfl,fun id total off payload hm => by rw [hout] at hm; cases hm⟩
    have hrun:=hcall.perform c fun m hm p hp => by
      have := hin m hm p hp
      rwa [decide_eq_false (by rw [hok m hm]; simp)] at this
    refine ⟨⟨rfl,rfl,fun hc => ⟨fun h => absurd h (by simp),fun _ => ?_⟩⟩,fun m hm p hp => ?_⟩
    · rw [eventsOf_append_self,eventsOf_append_of_ne (by simp)] at hc ⊢
      have hx:=(hrun hc).1
      exact { hx with }
    · obtain ⟨q,hq,rfl⟩ := mem_map.mp hm
      rw [eventsOf_append_self,eventsOf_append_of_ne (by simp),decide_eq_true rfl]
      exact hrun.sent hq hp

theorem reachable_facts (hw : Reachable w) (i : Bool) : (facts i).Holds w :=
  Net.log_invariant (facts_stable i) (fun _ => facts_open i)
    (fun w j c hw hok hin => facts_step i w j c hw hok hin) hw

/-- **Blobs are taken in the order they were queued**, and what is acknowledged has arrived. -/
theorem blobs_taken_in_order {w : Link} (hw : Reachable w) (i : Bool)
    (hfresh : Fresh (eventsOf w.log i)) (hroomy : Roomy (eventsOf w.log i))
    (hcount : (queuedBlobs (eventsOf w.log !i)).length<2^32) :
    takenBytes (eventsOf w.log i) <+: (queuedBlobs (eventsOf w.log !i)).map (·.bytes) ∧
      (ackedBlobs (eventsOf w.log !i)).map (·.bytes) <+:
        takenBytes (eventsOf w.log i)++(w.node i).ready := by
  have hfacts:=reachable_facts hw i
  have hc : Cond (eventsOf w.log !i) (eventsOf w.log i) := ⟨hfresh,hroomy,hcount⟩
  have hrx:=((hfacts.node i).2.2 hc).1 rfl
  have htx:=((hfacts.node !i).2.2 hc).2 rfl
  refine ⟨?_,?_⟩
  · have hall : takenBytes (eventsOf w.log i)++(w.node i).ready <+:
        (queuedBlobs (eventsOf w.log !i)).map (·.bytes) := by
      rw [hrx.blobs]
      exact ( take_prefix ..).map _
    exact (prefix_append ..).trans hall
  · rw [hrx.blobs,prefix_iff_eq_take.mp htx.acked]
    exact (take_prefix_take_left htx.le).map _

def opened : Link := ⟨fun _ => IceXfer.open 0,[],[]⟩

theorem reachable_run {cs : List (Bool × Call)} (h : Net.RunOk spec addressed opened cs) :
    Reachable (Net.run spec opened cs) := Net.Reach.run cs (.start ⟨fun _ => ⟨0,rfl⟩,rfl,rfl⟩) h

def byteBlob (b : UInt8) : Blob := ⟨[b],by simp [sizeMax]⟩
def pumped (inbox : List Datagram) : Call := .pump 1 .connected inbox fun _ => true
def dataOf (id : UInt32) (b : UInt8) : Datagram := ⟨false,(Pkt.data id 1 0 [b]).encode⟩
def ackOf (id : UInt32) : Datagram := ⟨true,(Pkt.ack id 1).encode⟩

/-- The first blob's packet is lost and sent again. -/
def twoBlobs : List (Bool × Call) :=
  [(false,.queue (byteBlob 7)),(false,.queue (byteBlob 9)),(false,pumped []),(true,pumped []),
    (false,.pump 201 .connected [] fun _ => true),(true,pumped [dataOf 1 7]),(true,.take),
    (false,pumped [ackOf 1]),(true,pumped [dataOf 2 9]),(true,.take),(false,pumped [ackOf 2])]

theorem blobs_taken_in_order_resent :
    let w:=Net.run spec opened twoBlobs
    (takenBytes (eventsOf w.log true)=[[7],[9]] ∧
      (ackedBlobs (eventsOf w.log false)).length=2 ∧ w.sent.count (dataOf 1 7)=2) ∧
    takenBytes (eventsOf w.log true) <+: (queuedBlobs (eventsOf w.log false)).map (·.bytes) ∧
      (ackedBlobs (eventsOf w.log false)).map (·.bytes) <+:
        takenBytes (eventsOf w.log true)++(w.node true).ready := by
  have hok : Net.RunOk spec addressed opened twoBlobs := by decide +kernel
  exact ⟨by decide +kernel,blobs_taken_in_order (reachable_run hok) true (by decide +kernel)
    (by decide +kernel) (by decide +kernel)⟩

def repeatedData : List (Bool × Call) :=
  [(false,.queue (byteBlob 7)),(false,pumped []),(true,pumped [dataOf 1 7,dataOf 1 7]),
    (true,.take),(true,.take)]

def fiveBlobs : List (Bool × Call) :=
  [(false,.queue (byteBlob 1)),(false,.queue (byteBlob 2)),(false,.queue (byteBlob 3)),
    (false,.queue (byteBlob 4)),(false,.queue (byteBlob 5)),
    (false,pumped []),(true,pumped [dataOf 1 1]),
    (false,pumped [ackOf 1]),(true,pumped [dataOf 2 2]),
    (false,pumped [ackOf 2]),(true,pumped [dataOf 3 3]),
    (false,pumped [ackOf 3]),(true,pumped [dataOf 4 4]),
    (false,pumped [ackOf 4]),(true,pumped [dataOf 5 5]),(false,pumped [ackOf 5])]

theorem blob_repeated_and_blob_lost :
    (∃ w,Reachable w ∧ queuedBlobs (eventsOf w.log false)=[byteBlob 7] ∧
      takenBytes (eventsOf w.log true)=[[7],[7]]) ∧
    ∃ w,Reachable w ∧ (ackedBlobs (eventsOf w.log false)).map (·.bytes)=[[1],[2],[3],[4],[5]] ∧
      takenBytes (eventsOf w.log true)=[] ∧ (w.node true).ready=[[1],[2],[3],[4]] ∧
      (w.node true).recvActive=false := by
  have hrep : Net.RunOk spec addressed opened repeatedData := by decide +kernel
  have hfive : Net.RunOk spec addressed opened fiveBlobs := by decide +kernel
  refine ⟨⟨_,reachable_run hrep,?_,?_⟩,⟨_,reachable_run hfive,?_,?_,?_,?_⟩⟩
  all_goals decide +kernel

end RecompNet.Xfer
