import Mathlib.Data.List.GetD
import RecompNet.Lib.CText
import RecompNet.Lib.WsFrame

/-!
# The outbound WebSocket buffer (`rnet_ws.c`)

Frames are appended whole or refused whole and leave in order; a socket that would block keeps the
rest of them, also the rest of a frame.
-/
namespace RecompNet.Lobby
open List WsFrame

def maskBytes (r : UInt32) : UInt8 × UInt8 × UInt8 × UInt8 :=
  (r.toUInt8,(r >>> 8).toUInt8,(r >>> 16).toUInt8,(r >>> 24).toUInt8)

def frameText (text : List UInt8) (clientMask : Option UInt32) (outCap : ℕ) : Option (List UInt8) :=
  let len:=text.length
  if 65536≤len then none
  else
    let hlen:=(if len<126 then 2 else 4)+(if clientMask.isSome then 4 else 0)
    if outCap<hlen+len ∨ 0x7fffffff<hlen+len then none
    else
      let bit : UInt8 := if clientMask.isSome then 0x80 else 0
      let size:=if len<126 then [bit ||| UInt8.ofNat len]
        else [bit ||| 126,UInt8.ofNat ((len >>> 8) &&& 0xff),UInt8.ofNat (len &&& 0xff)]
      let mask : List UInt8 :=
        match clientMask.map maskBytes with
        | some (a,b,c,d) => [a,b,c,d]
        | none => [0,0,0,0]
      some (0x81::(size++((if clientMask.isSome then mask else []) ++
        text.mapIdx fun i c => c ^^^ mask.getD (i &&& 3) 0)))

def textFrame (text : List UInt8) (clientMask : Option UInt32) : WsFrame :=
  ⟨0x81,clientMask.map maskBytes,text⟩

theorem frameText_eq {text : List UInt8} {clientMask : Option UInt32} {outCap : ℕ}
    (hlen : text.length<65536) (hcap : text.length+8≤outCap) :
    frameText text clientMask outCap=some (textFrame text clientMask).encode := by
  have hroom : ¬ (outCap<(if text.length<126 then 2 else 4) +
        (if clientMask.isSome then 4 else 0)+text.length ∨
      0x7fffffff<(if text.length<126 then 2 else 4) +
        (if clientMask.isSome then 4 else 0)+text.length) := by
    split <;> split <;> omega
  have hhigh : (text.length >>> 8) &&& 0xff=text.length/256 := by
    rw [Nat.and_two_pow_sub_one_eq_mod _ 8,Nat.shiftRight_eq_div_pow]
    omega
  have hlow : text.length &&& 0xff=text.length%256 := Nat.and_two_pow_sub_one_eq_mod _ 8
  have hidx : ∀ i : ℕ,i &&& 3=i%4 := fun i => Nat.and_two_pow_sub_one_eq_mod i 2
  unfold frameText
  simp only
  rw [if_neg (by omega),if_neg hroom,hhigh,hlow]
  cases clientMask with
  | none =>
    have hzero : ∀ k : ℕ,[(0 : UInt8),0,0,0][k]?.getD 0=0 := by
      intro k
      rcases k with _ | _ | _ | _ | k <;> rfl
    simp [textFrame,encode,lenBytes,keyBytes,mask,keyByte,hidx,hzero]
  | some r =>
    simp [textFrame,encode,lenBytes,keyBytes,mask,keyByte,hidx,maskBytes]

structure WsTx where
  buf : List UInt8
  off : ℕ
  frameAt : ℕ
  alloc : ℕ
  cap : ℕ
  framesQueued : ℕ
  wouldBlocks : ℕ
  splitFrames : ℕ
  highWater : ℕ

/-- The results of `rnet_ws_tx_queue_text`: 0, -1, -2 and -3. -/
inductive QueueRc
  | queued
  | unencodable
  | full
  | noMemory
  deriving DecidableEq

/-- The results of `rnet_ws_tx_flush`: 0, the bytes left, or -1. -/
inductive FlushRc
  | drained
  | left (bytes : ℕ)
  | broken
  deriving DecidableEq

inductive Answer
  | took (n : ℕ)
  | interrupted
  | wouldBlock
  | error

namespace WsTx
def zero (cap : ℕ) : WsTx := ⟨[],0,0,0,cap,0,0,0,0⟩

variable (tx : WsTx)

/-- `RNET_WS_TX_CAP_DEFAULT` stands for 0. -/
def txCap : ℕ := if tx.cap=0 then 256*1024 else tx.cap
def unsent : List UInt8 := tx.buf.drop tx.off
/-- `rnet_ws_tx_pending`. -/
def pending : ℕ := tx.buf.length-tx.off

def compact : WsTx :=
  if 0<tx.frameAt then
    { tx with buf := tx.buf.drop tx.frameAt,off := tx.off-tx.frameAt,frameAt := 0 }
  else tx

def growTo (need : ℕ) : ℕ → ℕ → ℕ
  | 0,want => want
  | fuel+1,want => if want<need then growTo need fuel (want*2) else want

def reserve (frameMax : ℕ) (mem : Bool) : Option WsTx :=
  let need:=tx.buf.length+frameMax
  if tx.alloc<need then
    if mem then some { tx with alloc := growTo need need (if tx.alloc=0 then 4096 else tx.alloc) }
    else none
  else some tx

def queueText (text : List UInt8) (clientMask : Option UInt32) (mem : Bool) : WsTx × QueueRc :=
  let text:=cString text
  if 65536≤text.length then (tx,.unencodable)
  else if tx.txCap<tx.pending+(text.length+8) then (tx,.full)
  else
    let tx:=tx.compact
    match tx.reserve (text.length+8) mem with
    | none => (tx,.noMemory)
    | some tx =>
      match frameText text clientMask (tx.alloc-tx.buf.length) with
      | none => (tx,.unencodable)
      | some frame =>
        let tx:={ tx with buf := tx.buf++frame,framesQueued := tx.framesQueued+1 }
        ({ tx with highWater := max tx.highWater tx.pending },.queued)

def frameLenAt (buf : List UInt8) (i : ℕ) : ℕ :=
  let second:=buf.getD (i+1) 0
  let code:=(second &&& 0x7f).toNat
  let size:=if code=126 then (buf.getD (i+2) 0).toNat*256+(buf.getD (i+3) 0).toNat
    else code
  (if code=126 then 4 else 2)+(if second &&& 0x80 != 0 then 4 else 0)+size

def walk (buf : List UInt8) (off : ℕ) : ℕ → ℕ → ℕ
  | 0,i => i
  | fuel+1,i =>
    if i<off ∧ i+frameLenAt buf i≤off then walk buf off fuel (i+frameLenAt buf i) else i

def sent (n : ℕ) : WsTx :=
  { tx with off := tx.off+n,frameAt := walk tx.buf (tx.off+n) (tx.off+n) tx.frameAt }
def drained : WsTx := { tx with buf := [],off := 0,frameAt := 0 }

def blocked : WsTx :=
  { tx with
    wouldBlocks := tx.wouldBlocks+1
    splitFrames := if tx.off≠tx.frameAt then tx.splitFrames+1 else tx.splitFrames }

/-- `rnet_ws_tx_flush`. -/
def flush : List Answer → WsTx → WsTx × List UInt8 × FlushRc
  | [],tx =>
    if tx.buf.length≤tx.off then (tx.drained,[],.drained)
    else (tx.blocked,[],.left tx.pending)
  | answer::answers,tx =>
    if tx.buf.length≤tx.off then (tx.drained,[],.drained)
    else
      match answer with
      | .interrupted => flush answers tx
      | .wouldBlock => (tx.blocked,[],.left tx.pending)
      | .error => (tx,[],.broken)
      | .took n =>
        if min n tx.pending=0 then (tx,[],.broken)
        else
          let r:=flush answers (tx.sent (min n tx.pending))
          (r.1,tx.unsent.take (min n tx.pending)++r.2.1,r.2.2)

end WsTx

/-- A buffer with what reached its socket and the texts it accepted. -/
structure WsStream where
  tx : WsTx
  wire : List UInt8
  accepted : List (List UInt8 × Option UInt32)

inductive WsCall
  | queue (text : List UInt8) (clientMask : Option UInt32) (mem : Bool)
  | flush (answers : List Answer)

namespace WsStream
def start (cap : ℕ) : WsStream := ⟨.zero cap,[],[]⟩

variable (s : WsStream)
def call : WsCall → WsStream
  | .queue text clientMask mem =>
    let r:=s.tx.queueText text clientMask mem
    { s with
      tx := r.1
      accepted := if r.2=.queued then s.accepted++[(cString text,clientMask)]
        else s.accepted }
  | .flush answers =>
    let r:=s.tx.flush answers
    { s with tx := r.1,wire := s.wire++r.2.1 }

def run (calls : List WsCall) : WsStream := calls.foldl call s
def frames : List (List UInt8) := s.accepted.map fun a => (frameText a.1 a.2 (a.1.length+8)).getD []

end WsStream

namespace WsTx
def IsFrame (f : List UInt8) : Prop :=
  ∃ text clientMask,text.length<65536 ∧ f=(textFrame text clientMask).encode

/-- `i` is the start of the frame that holds `off`, or of the next one between frames. -/
def OnBoundary (kept : List (List UInt8)) (i off : ℕ) : Prop :=
  ∃ pre rest,kept=pre++rest ∧ i=pre.flatten.length ∧ i≤off ∧ ∀ f∈rest.head?,off < i+f.length

variable {f : List UInt8}
theorem IsFrame.length_pos (h : IsFrame f) : 0<f.length := by
  obtain ⟨text,clientMask,-,rfl⟩ := h
  exact length_pos_of_ne_nil (encode_ne_nil _)

theorem frameLenAt_frame (hf : IsFrame f) (pre post : List UInt8) :
    frameLenAt (pre++(f++post)) pre.length=f.length := by
  obtain ⟨text,clientMask,hlen,rfl⟩ := hf
  have hget : ∀ k,(pre++((textFrame text clientMask).encode++post)).getD (pre.length+k) 0 =
      ((textFrame text clientMask).encode++post).getD k 0 := by
    intro k
    rw [getD_append_right _ _ _ _ (Nat.le_add_right ..),Nat.add_sub_cancel_left]
  have hsome : (textFrame text clientMask).key.isSome=clientMask.isSome := by
    simp [textFrame]
  rw [length_encode,hsome]
  change _ = (if text.length<126 then 2 else 4)+(if clientMask.isSome then 4 else 0)+text.length
  unfold frameLenAt
  simp only [hget]
  by_cases hshort : text.length<126
  · obtain ⟨hlow,hhigh⟩ := second_byte clientMask.isSome text.length (by omega)
    have hsecond : ((textFrame text clientMask).encode++post).getD 1 0 =
        (if clientMask.isSome then (0x80 : UInt8) else 0) ||| UInt8.ofNat text.length := by
      simp [encode,lenBytes,textFrame,hshort]
    have hcode : (UInt8.ofNat text.length).toNat=text.length := by
      rw [UInt8.toNat_ofNat']
      omega
    have hcode' : text.length≠126 := by omega
    rw [hsecond,hlow,hhigh,hcode,if_neg hcode',if_neg hcode',if_pos hshort]
  · obtain ⟨hlow,hhigh⟩ := second_byte clientMask.isSome 126 (by omega)
    have hsecond : ((textFrame text clientMask).encode++post).getD 1 0 =
        (if clientMask.isSome then (0x80 : UInt8) else 0) ||| UInt8.ofNat 126 := by
      simp [encode,lenBytes,textFrame,hshort]
    have htwo : ((textFrame text clientMask).encode++post).getD 2 0 =
        UInt8.ofNat (text.length/256) := by
      simp [encode,lenBytes,textFrame,hshort]
    have hthree : ((textFrame text clientMask).encode++post).getD 3 0 =
        UInt8.ofNat (text.length%256) := by
      simp [encode,lenBytes,textFrame,hshort]
    have hcode : (UInt8.ofNat 126).toNat=126 := rfl
    rw [hsecond,hlow,hhigh,hcode,htwo,hthree,if_pos rfl,if_pos rfl,if_neg hshort,
      UInt8.toNat_ofNat',UInt8.toNat_ofNat']
    omega

theorem walk_boundary {off fuel : ℕ} (pre rest : List (List UInt8))
    (hrest : ∀ f∈rest,IsFrame f) (hle : pre.flatten.length≤off)
    (hoff : off≤(pre++rest).flatten.length) (hfuel : off≤pre.flatten.length+fuel) :
    OnBoundary (pre++rest) (walk (pre++rest).flatten off fuel pre.flatten.length) off := by
  induction fuel generalizing pre rest with
  | zero =>
    refine ⟨pre,rest,rfl,rfl,hle,fun f hf => ?_⟩
    have hpos:=(hrest f (mem_of_mem_head? hf)).length_pos
    change off<pre.flatten.length+f.length
    omega
  | succ fuel ih =>
    unfold walk
    cases rest with
    | nil =>
      -- Behind the last frame there is nothing to go over.
      rw [append_nil] at hoff
      rw [if_neg (by omega)]
      exact ⟨pre,[],rfl,rfl,hle,fun f hf => by cases hf⟩
    | cons f rest =>
      have hf:=hrest f mem_cons_self
      have hpos:=hf.length_pos
      have hlen : frameLenAt (pre++f::rest).flatten pre.flatten.length=f.length := by
        rw [flatten_append,flatten_cons]
        exact frameLenAt_frame hf _ _
      have hpre : (pre++[f]).flatten.length=pre.flatten.length+f.length := by
        rw [flatten_append,length_append,flatten_singleton]
      have hall : pre++f::rest=(pre++[f])++rest := by simp
      rw [hlen]
      by_cases hgo : pre.flatten.length<off ∧ pre.flatten.length+f.length≤off
      · rw [if_pos hgo,hall,← hpre]
        exact ih (pre++[f]) rest (fun g hg => hrest g (mem_cons_of_mem _ hg))
          (hpre ▸ hgo.2) (hall ▸ hoff) (by omega)
      rw [if_neg hgo]
      refine ⟨pre,f::rest,rfl,rfl,hle,fun g hg => ?_⟩
      obtain rfl : f=g := by simpa using hg
      omega

theorem walk_bounds (buf : List UInt8) (off fuel i : ℕ) (hi : i≤off) :
    i≤walk buf off fuel i ∧ walk buf off fuel i≤off := by
  induction fuel generalizing i with
  | zero => exact ⟨le_rfl,hi⟩
  | succ fuel ih =>
    unfold walk
    split
    · next hgo =>
      obtain ⟨hlow,hhigh⟩ := ih (i+frameLenAt buf i) hgo.2
      exact ⟨by omega,hhigh⟩
    · exact ⟨le_rfl,hi⟩

structure Holds (tx : WsTx) (kept : List (List UInt8)) : Prop where
  frames : ∀ f∈kept,IsFrame f
  buf : tx.buf=kept.flatten
  boundary : OnBoundary kept tx.frameAt tx.off
  le : tx.off≤tx.buf.length

variable {tx : WsTx} {kept : List (List UInt8)}
theorem holds_nil (hbuf : tx.buf=[]) (hoff : tx.off=0) (hat : tx.frameAt=0) : Holds tx [] where
  frames := forall_mem_nil _
  buf := hbuf
  boundary := ⟨[],[],rfl,hat,by omega,fun f hf => by cases hf⟩
  le := by omega

theorem Holds.sent (h : Holds tx kept) {n : ℕ} (hn : n≤tx.pending) : Holds (tx.sent n) kept where
  frames := h.frames
  buf := h.buf
  boundary := by
    obtain ⟨pre,rest,hkept,hat,hle,-⟩ := h.boundary
    have hoff : tx.off+n≤(pre++rest).flatten.length := by
      have hle:=h.le
      unfold pending at hn
      rw [← hkept,← h.buf]
      omega
    change OnBoundary kept (walk tx.buf (tx.off+n) (tx.off+n) tx.frameAt) (tx.off+n)
    rw [hat,h.buf,hkept]
    refine walk_boundary pre rest (fun f hf => h.frames f ?_) (by omega) hoff (by omega)
    rw [hkept]
    exact mem_append_right _ hf
  le := by
    have hle:=h.le
    change tx.off+n≤tx.buf.length
    unfold pending at hn
    omega

theorem Holds.blocked (h : Holds tx kept) : Holds tx.blocked kept :=
  { h with }

structure Moved (tx tx' : WsTx) (kept : List (List UInt8)) (out : List UInt8) : Prop where
  holds : Holds tx' kept
  off : tx.off≤tx'.off
  out : out=tx.unsent.take (tx'.off-tx.off)
  cap : tx'.cap=tx.cap

structure Emptied (tx tx' : WsTx) (out : List UInt8) : Prop where
  holds : Holds tx' []
  off : tx'.off=0
  out : out=tx.unsent
  cap : tx'.cap=tx.cap

variable {tx' : WsTx}
theorem moved_of_kept (h : Holds tx' kept) (hoff : tx'.off=tx.off)
    (hcap : tx'.cap=tx.cap) : Moved tx tx' kept [] :=
  ⟨h,hoff.ge,by rw [hoff,Nat.sub_self,take_zero],hcap⟩

theorem emptied_of_drained (hend : tx.buf.length≤tx.off) : Emptied tx tx.drained [] where
  holds := holds_nil rfl rfl rfl
  off := rfl
  out := (drop_eq_nil_of_le hend).symm
  cap := rfl

theorem unsent_sent {n : ℕ} : (tx.sent n).unsent=tx.unsent.drop n := by
  unfold unsent
  rw [drop_drop]
  rfl

theorem take_append_take_drop {α : Type} (l : List α) (m n : ℕ) :
    l.take m++(l.drop m).take n=l.take (m+n) := take_add.symm

theorem flush_spec (answers : List Answer) (h : Holds tx kept) :
    Moved tx (flush answers tx).1 kept (flush answers tx).2.1 ∨
      Emptied tx (flush answers tx).1 (flush answers tx).2.1 := by
  induction answers generalizing tx with
  | nil =>
    unfold flush
    split
    · next hend => exact .inr (emptied_of_drained hend)
    · exact .inl (moved_of_kept h.blocked rfl rfl)
  | cons answer answers ih =>
    unfold flush
    split
    · next hend => exact .inr (emptied_of_drained hend)
    · cases answer with
      | interrupted => exact ih h
      | wouldBlock => exact .inl (moved_of_kept h.blocked rfl rfl)
      | error => exact .inl (moved_of_kept h rfl rfl)
      | took n =>
        simp only
        generalize hm : min n tx.pending=m
        split
        · exact .inl (moved_of_kept h rfl rfl)
        have hrest:=ih (h.sent (show m≤tx.pending by omega))
        generalize flush answers (tx.sent m)=r at hrest
        obtain ⟨tx',out,rc⟩ := r
        change Moved tx tx' kept (tx.unsent.take m++out) ∨ Emptied tx tx' (tx.unsent.take m++out)
        rcases hrest with hr | hr
        · have hoff : tx.off+m≤tx'.off := hr.off
          have hout : out=(tx.sent m).unsent.take (tx'.off-(tx.off+m)) := hr.out
          refine .inl ⟨hr.holds,by omega,?_,hr.cap⟩
          rw [hout,unsent_sent,take_append_take_drop]
          congr 1
          omega
        refine .inr { hr with out := ?_ }
        have hout : out=(tx.sent m).unsent := hr.out
        rw [hout,unsent_sent,take_append_drop]

theorem le_growTo (need fuel : ℕ) {want : ℕ} (hpos : 0<want) (h : need≤want+fuel) :
    need≤growTo need fuel want := by
  induction fuel generalizing want with
  | zero => exact h
  | succ fuel ih =>
    unfold growTo
    split
    · exact ih (by omega) (by omega)
    · omega

theorem reserve_spec {frameMax : ℕ} {mem : Bool}
    (h : tx.reserve frameMax mem=some tx') : ∃ alloc,tx'={ tx with alloc } ∧
      tx.buf.length+frameMax≤alloc := by
  unfold reserve at h
  simp only at h
  split at h
  · split at h
    · refine ⟨_,(Option.some.inj h).symm,le_growTo _ _ ?_ (by omega)⟩
      split <;> omega
    · cases h
  next hfits =>
  obtain rfl := Option.some.inj h
  exact ⟨tx.alloc,rfl,not_lt.mp hfits⟩

theorem compact_eq (tx : WsTx) : tx.compact =
    { tx with buf := tx.buf.drop tx.frameAt,off := tx.off-tx.frameAt,frameAt := 0 } := by
  unfold compact
  split
  · rfl
  next h =>
  have h0 : tx.frameAt=0 := by omega
  rw [h0]
  cases tx
  simp_all

theorem queueText_cases (tx : WsTx) (text : List UInt8) (clientMask : Option UInt32) (mem : Bool) :
    (∃ rc,rc≠.queued ∧ (tx.queueText text clientMask mem=(tx,rc) ∨
        tx.queueText text clientMask mem=(tx.compact,rc))) ∨
      ∃ tx',tx.queueText text clientMask mem=(tx',.queued) ∧
        (cString text).length<65536 ∧ tx.pending+((cString text).length+8)≤tx.txCap ∧
        tx'.buf=tx.compact.buf++(textFrame (cString text) clientMask).encode ∧
        tx'.off=tx.compact.off ∧ tx'.frameAt=0 ∧ tx'.cap=tx.cap := by
  unfold queueText
  simp only
  generalize cString text=text
  split
  · exact .inl ⟨_,by decide,.inl rfl⟩
  next hlen =>
  split
  · exact .inl ⟨_,by decide,.inl rfl⟩
  next hcap =>
  split
  · exact .inl ⟨_,by decide,.inr rfl⟩
  next tx' hres =>
  obtain ⟨alloc,rfl,halloc⟩ := reserve_spec hres
  have hframe : frameText text clientMask (alloc-tx.compact.buf.length) =
      some (textFrame text clientMask).encode := frameText_eq (by omega) (by omega)
  simp only [hframe]
  refine .inr ⟨_,rfl,by omega,by omega,rfl,rfl,?_,?_⟩
  · rw [compact_eq]
  · rw [compact_eq]

theorem Holds.compact (h : Holds tx kept) : ∃ pre rest,kept=pre++rest ∧
    tx.frameAt=pre.flatten.length ∧ tx.frameAt≤tx.off ∧ Holds tx.compact rest := by
  obtain ⟨pre,rest,hkept,hat,hle,hnext⟩ := h.boundary
  refine ⟨pre,rest,hkept,hat,hle,?_⟩
  rw [compact_eq]
  refine ⟨fun f hf => h.frames f (hkept ▸ mem_append_right _ hf),?_,?_,?_⟩
  · change tx.buf.drop tx.frameAt=_
    rw [h.buf,hkept,hat,flatten_append,drop_left]
  · refine ⟨[],rest,rfl,rfl,Nat.zero_le _,fun f hf => ?_⟩
    have hlt:=hnext f hf
    change tx.off-tx.frameAt<0+f.length
    omega
  · have hle':=h.le
    change tx.off-tx.frameAt≤(tx.buf.drop tx.frameAt).length
    rw [length_drop]
    omega

theorem Holds.append (h : Holds tx kept) (hf : IsFrame f)
    (hat : tx.frameAt=0) (hat' : tx'.frameAt=0) (hbuf : tx'.buf=tx.buf++f)
    (hoff : tx'.off=tx.off) : Holds tx' (kept++[f]) where
  frames := by
    intro g hg
    rcases mem_append.mp hg with hold | hnew
    · exact h.frames g hold
    · exact mem_singleton.mp hnew ▸ hf
  buf := by
    rw [hbuf,h.buf,flatten_append,flatten_singleton]
  boundary := by
    obtain ⟨pre,rest,hkept,hpre,-,hnext⟩ := h.boundary
    rw [hat'] at *
    refine ⟨[],kept++[f],rfl,rfl,Nat.zero_le _,fun g hg => ?_⟩
    -- The frames before the boundary are none, since none is empty.
    have hnil : pre=[] := by
      cases pre with
      | nil => rfl
      | cons p pre =>
        have hpos:=(h.frames p (hkept ▸ by simp)).length_pos
        rw [hat,flatten_cons,length_append] at hpre
        omega
    have hle:=h.le
    rw [hnil,nil_append] at hkept
    rw [hoff]
    rw [← hkept] at hnext
    cases kept with
    | nil =>
      obtain rfl : f=g := by simpa using hg
      have hpos:=hf.length_pos
      rw [h.buf] at hle
      simp only [flatten_nil,length_nil] at hle
      omega
    | cons p rest =>
      have hlt:=hnext g (by simpa using hg)
      omega
  le := by
    have hle:=h.le
    rw [hoff,hbuf,length_append]
    omega

end WsTx

namespace WsStream
open WsTx

structure Good (cap : ℕ) (s : WsStream) : Prop where
  short : ∀ a∈s.accepted,a.1.length<65536
  split : ∃ gone kept,s.frames=gone++kept ∧ Holds s.tx kept ∧
    s.wire=gone.flatten++s.tx.buf.take s.tx.off
  room : s.tx.pending ≤ s.tx.txCap
  cap : s.tx.cap=cap

variable {cap : ℕ} {s : WsStream}
theorem good_start (cap : ℕ) : Good cap (start cap) :=
  ⟨forall_mem_nil _,⟨[],[],rfl,holds_nil rfl rfl rfl,rfl⟩,Nat.zero_le _,rfl⟩

theorem txCap_congr {tx tx' : WsTx} (h : tx'.cap=tx.cap) : tx'.txCap=tx.txCap := by
  unfold txCap
  rw [h]

theorem good_flush (h : Good cap s) (answers : List Answer) : Good cap (s.call (.flush answers)) := by
  obtain ⟨gone,kept,hframes,hholds,hwire⟩ := h.split
  have hle:=hholds.le
  have hroom:=h.room
  unfold pending at hroom
  rcases flush_spec answers hholds with hr | hr
  · refine ⟨h.short,⟨gone,kept,hframes,hr.holds,?_⟩,?_,hr.cap.trans h.cap⟩
    · change s.wire++(s.tx.flush answers).2.1=_
      have hbuf : (s.tx.flush answers).1.buf=s.tx.buf := hr.holds.buf.trans hholds.buf.symm
      have hoff:=hr.off
      change _ = gone.flatten++(s.tx.flush answers).1.buf.take (s.tx.flush answers).1.off
      rw [hwire,hr.out,append_assoc,hbuf,unsent,take_append_take_drop]
      congr 2
      omega
    · change (s.tx.flush answers).1.pending≤(s.tx.flush answers).1.txCap
      have hbuf : (s.tx.flush answers).1.buf=s.tx.buf := hr.holds.buf.trans hholds.buf.symm
      have hoff:=hr.off
      rw [txCap_congr hr.cap,pending,hbuf]
      omega
  · refine ⟨h.short,⟨s.frames,[],(append_nil _).symm,hr.holds,?_⟩,?_,hr.cap.trans h.cap⟩
    · change s.wire++(s.tx.flush answers).2.1 =
        s.frames.flatten++(s.tx.flush answers).1.buf.take (s.tx.flush answers).1.off
      rw [hwire,hr.out,hr.holds.buf,append_assoc,unsent,take_append_drop,hframes,hholds.buf]
      simp
    · change (s.tx.flush answers).1.pending≤_
      rw [pending,hr.holds.buf]
      simp

theorem good_compact (h : Good cap s) : Good cap { s with tx := s.tx.compact } := by
  obtain ⟨gone,kept,hframes,hholds,hwire⟩ := h.split
  obtain ⟨pre,rest,hkept,hat,hle,hcompact⟩ := hholds.compact
  refine ⟨h.short,⟨gone++pre,rest,?_,hcompact,?_⟩,?_,?_⟩
  · rw [append_assoc,← hkept]
    exact hframes
  · rw [hwire,compact_eq]
    change _ = (gone++pre).flatten++(s.tx.buf.drop s.tx.frameAt).take (s.tx.off-s.tx.frameAt)
    rw [hholds.buf,hkept,flatten_append,flatten_append,append_assoc,hat,drop_left]
    congr 1
    have hoff : s.tx.off=pre.flatten.length+(s.tx.off-pre.flatten.length) := by omega
    rw [hoff,take_length_add_append,Nat.add_sub_cancel_left]
  · have hroom:=h.room
    have hcap : s.tx.compact.txCap=s.tx.txCap := txCap_congr (by rw [compact_eq])
    change s.tx.compact.pending ≤ s.tx.compact.txCap
    rw [hcap,compact_eq]
    unfold pending at hroom ⊢
    simp only [length_drop]
    omega
  · rw [compact_eq]
    exact h.cap

theorem good_queue (h : Good cap s) (text : List UInt8) (clientMask : Option UInt32) (mem : Bool) :
    Good cap (s.call (.queue text clientMask mem)) := by
  unfold call
  rcases s.tx.queueText_cases text clientMask mem with ⟨rc,hrc,heq | heq⟩ |
    ⟨tx',heq,hlen,hcap,hbuf,hoff,hat,hcap'⟩
  · simp only [heq,if_neg hrc]
    exact h
  · simp only [heq,if_neg hrc]
    exact good_compact h
  simp only [heq,if_true]
  have hc:=good_compact h
  obtain ⟨gone,kept,hframes,hholds,hwire⟩ := hc.split
  have hframe : IsFrame (textFrame (cString text) clientMask).encode := ⟨_,_,hlen,rfl⟩
  have hzero : s.tx.compact.frameAt=0 := by rw [compact_eq]
  have hle:=hholds.le
  refine ⟨?_,⟨gone,kept++[(textFrame (cString text) clientMask).encode],?_,
    hholds.append hframe hzero hat hbuf hoff,?_⟩,?_,hcap'.trans h.cap⟩
  · intro a ha
    rcases mem_append.mp ha with hold | hnew
    · exact h.short a hold
    · rw [mem_singleton.mp hnew]
      exact hlen
  · have hnew : (frameText (cString text) clientMask ((cString text).length+8)).getD [] =
        (textFrame (cString text) clientMask).encode := by
      rw [frameText_eq hlen le_rfl,Option.getD_some]
    change (s.accepted++[(cString text,clientMask)]).map _ = _
    rw [map_append,← append_assoc,← hframes,map_singleton,hnew]
    rfl
  · change s.wire=gone.flatten++tx'.buf.take tx'.off
    rw [hbuf,hoff,take_append_of_le_length hle]
    exact hwire
  · change tx'.pending≤tx'.txCap
    have hsize:=length_encode (textFrame (cString text) clientMask)
    have hpay : (textFrame (cString text) clientMask).payload=cString text := rfl
    have hpend : s.tx.compact.buf.length-s.tx.compact.off ≤ s.tx.pending := by
      rw [compact_eq]
      unfold pending
      simp only [length_drop]
      omega
    rw [hpay] at hsize
    rw [txCap_congr hcap',pending,hbuf,hoff,length_append,hsize]
    split <;> split <;> omega

theorem good_run (cap : ℕ) (calls : List WsCall) : Good cap ((start cap).run calls) := by
  have hcall : ∀ (s : WsStream) (c : WsCall),Good cap s → Good cap (s.call c) := by
    intro s c h
    cases c with
    | queue text clientMask mem => exact good_queue h text clientMask mem
    | flush answers => exact good_flush h answers
  have hrun : ∀ (calls : List WsCall) (s : WsStream),Good cap s → Good cap (s.run calls) := by
    intro calls
    induction calls with
    | nil => exact fun s h => h
    | cons c calls ih => exact fun s h => ih _ (hcall s c h)
  exact hrun calls _ (good_start cap)

end WsStream

/-! ### A refused text leaves no trace

Two buffers that differ in frames gone whole are told apart by nothing that happens later. -/
namespace WsTx
variable {tx tx' : WsTx}
def Same (tx tx' : WsTx) : Prop := tx.compact=tx'.compact
def Ordered (tx : WsTx) : Prop := tx.frameAt≤tx.off ∧ tx.off≤tx.buf.length

theorem Holds.ordered {kept : List (List UInt8)} (h : Holds tx kept) : Ordered tx := by
  obtain ⟨pre,rest,-,-,hle,-⟩ := h.boundary
  exact ⟨hle,h.le⟩

theorem compact_compact (tx : WsTx) : tx.compact.compact=tx.compact := by
  rw [compact_eq,compact_eq]
  simp

theorem Ordered.compact (h : Ordered tx) : Ordered tx.compact := by
  rw [compact_eq]
  refine ⟨Nat.zero_le _,?_⟩
  change tx.off-tx.frameAt≤(tx.buf.drop tx.frameAt).length
  rw [length_drop]
  exact Nat.sub_le_sub_right h.2 _

theorem Ordered.sent (h : Ordered tx) {n : ℕ} (hn : n≤tx.pending) : Ordered (tx.sent n) := by
  refine ⟨(walk_bounds _ _ _ _ (h.1.trans (Nat.le_add_right ..))).2,?_⟩
  have hle:=h.2
  change tx.off+n≤tx.buf.length
  unfold pending at hn
  omega

theorem compact_unsent (h : Ordered tx) : tx.compact.unsent=tx.unsent := by
  rw [compact_eq]
  change (tx.buf.drop tx.frameAt).drop (tx.off-tx.frameAt)=tx.buf.drop tx.off
  rw [drop_drop,Nat.add_sub_cancel' h.1]

theorem compact_pending (h : Ordered tx) : tx.compact.pending=tx.pending := by
  have hlen:=congrArg List.length (compact_unsent h)
  simpa [unsent,pending] using hlen

variable (buf : List UInt8)
theorem frameLenAt_drop (k i : ℕ) : frameLenAt (buf.drop k) i=frameLenAt buf (k+i) := by
  have hget : ∀ j,(buf.drop k).getD j 0=buf.getD (k+j) 0 := by
    intro j
    simp [getD_eq_getElem?_getD]
  unfold frameLenAt
  simp only [hget,Nat.add_assoc]

theorem walk_drop (k off fuel i : ℕ) :
    k+walk (buf.drop k) off fuel i=walk buf (k+off) fuel (k+i) := by
  induction fuel generalizing i with
  | zero => rfl
  | succ fuel ih =>
    unfold walk
    rw [frameLenAt_drop]
    by_cases hgo : i<off ∧ i+frameLenAt buf (k+i)≤off
    · rw [if_pos hgo,if_pos (by omega),ih,Nat.add_assoc]
    · rw [if_neg hgo,if_neg (by omega)]

theorem walk_fuel {off i : ℕ} : ∀ {fuel fuel' : ℕ},off ≤ i+fuel →
    off ≤ i+fuel' → walk buf off fuel i=walk buf off fuel' i := by
  intro fuel
  induction fuel generalizing i with
  | zero =>
    intro fuel' h _
    cases fuel' with
    | zero => rfl
    | succ fuel' =>
      unfold walk
      rw [if_neg (by omega)]
  | succ fuel ih =>
    intro fuel' h h'
    have hpos : 2≤frameLenAt buf i := by
      unfold frameLenAt
      simp only
      split <;> omega
    cases fuel' with
    | zero =>
      unfold walk
      rw [if_neg (by omega)]
    | succ fuel' =>
      unfold walk
      split
      · exact ih (by omega) (by omega)
      · rfl

theorem sent_compact (h : Ordered tx) (n : ℕ) : Same (tx.compact.sent n) (tx.sent n) := by
  have hoff : tx.frameAt+(tx.off-tx.frameAt+n)=tx.off+n := by
    have := h.1
    omega
  have hwalk : tx.frameAt+walk (tx.buf.drop tx.frameAt) (tx.off-tx.frameAt+n)
      (tx.off-tx.frameAt+n) 0=walk tx.buf (tx.off+n) (tx.off+n) tx.frameAt := by
    rw [walk_drop,hoff,Nat.add_zero]
    exact walk_fuel _ (by omega) (by omega)
  have hleft : tx.off-tx.frameAt+n-walk (tx.buf.drop tx.frameAt) (tx.off-tx.frameAt+n)
      (tx.off-tx.frameAt+n) 0=tx.off+n-walk tx.buf (tx.off+n) (tx.off+n) tx.frameAt := by
    omega
  unfold Same
  rw [compact_eq tx]
  simp only [sent]
  rw [compact_eq,compact_eq]
  simp only [drop_drop,hwalk,hleft]

theorem drained_compact (tx : WsTx) : Same tx.compact.drained tx.drained := by
  unfold Same
  rw [compact_eq tx]
  rfl

theorem blocked_compact (h : Ordered tx) : Same tx.compact.blocked tx.blocked := by
  have hsplit : tx.off-tx.frameAt≠0 ↔ tx.off≠tx.frameAt := by
    have := h.1
    omega
  unfold Same
  rw [compact_eq tx]
  simp only [blocked]
  rw [compact_eq,compact_eq]
  simp [hsplit]

theorem compact_done_iff (h : Ordered tx) :
    tx.compact.buf.length≤tx.compact.off ↔ tx.buf.length≤tx.off := by
  have hpend:=compact_pending h
  unfold pending at hpend
  omega

variable (answers : List Answer)
theorem flush_compact (h : Ordered tx) : Same (flush answers tx.compact).1 (flush answers tx).1 ∧
      (flush answers tx.compact).2=(flush answers tx).2 := by
  induction answers generalizing tx with
  | nil =>
    have hpend:=compact_pending h
    unfold flush
    simp only [compact_done_iff h]
    by_cases hdone : tx.buf.length≤tx.off
    · rw [if_pos hdone,if_pos hdone]
      exact ⟨drained_compact tx,rfl⟩
    · rw [if_neg hdone,if_neg hdone,hpend]
      exact ⟨blocked_compact h,rfl⟩
  | cons answer answers ih =>
    have hpend:=compact_pending h
    unfold flush
    simp only [compact_done_iff h]
    by_cases hdone : tx.buf.length≤tx.off
    · rw [if_pos hdone,if_pos hdone]
      exact ⟨drained_compact tx,rfl⟩
    rw [if_neg hdone,if_neg hdone]
    cases answer with
    | interrupted => exact ih h
    | wouldBlock => exact ⟨blocked_compact h,by rw [hpend]⟩
    | error => exact ⟨compact_compact tx,rfl⟩
    | took n =>
      simp only [hpend,compact_unsent h]
      generalize hm : min n tx.pending=m
      split
      · exact ⟨compact_compact tx,rfl⟩
      -- Both have moved to the same buffer, up to frames gone whole.
      have hle : m≤tx.pending := by omega
      obtain ⟨hs,ho⟩ := ih (h.compact.sent (hpend.symm ▸ hle))
      obtain ⟨hs',ho'⟩ := ih (h.sent hle)
      rw [sent_compact h m] at hs ho
      exact ⟨hs.symm.trans hs',by rw [← ho,ho']⟩

theorem flush_same (h : Same tx tx') (ho : Ordered tx) (ho' : Ordered tx') :
    Same (flush answers tx).1 (flush answers tx').1 ∧
      (flush answers tx).2=(flush answers tx').2 := by
  obtain ⟨hs,hr⟩ := flush_compact answers ho
  obtain ⟨hs',hr'⟩ := flush_compact answers ho'
  rw [h] at hs hr
  exact ⟨hs.symm.trans hs',hr.symm.trans hr'⟩

theorem queueText_compact (h : Ordered tx) (text : List UInt8) (clientMask : Option UInt32)
    (mem : Bool) :
    Same (tx.compact.queueText text clientMask mem).1 (tx.queueText text clientMask mem).1 ∧
      (tx.compact.queueText text clientMask mem).2=(tx.queueText text clientMask mem).2 := by
  have hcap : tx.compact.txCap=tx.txCap := by
    unfold txCap
    rw [compact_eq]
  unfold queueText
  simp only [compact_pending h,hcap,compact_compact]
  split
  · exact ⟨compact_compact tx,rfl⟩
  split
  · exact ⟨compact_compact tx,rfl⟩
  · exact ⟨rfl,rfl⟩

theorem queueText_same (h : Same tx tx') (ho : Ordered tx) (ho' : Ordered tx')
    (text : List UInt8) (clientMask : Option UInt32) (mem : Bool) :
    Same (tx.queueText text clientMask mem).1 (tx'.queueText text clientMask mem).1 ∧
      (tx.queueText text clientMask mem).2=(tx'.queueText text clientMask mem).2 := by
  obtain ⟨hs,hr⟩ := queueText_compact ho text clientMask mem
  obtain ⟨hs',hr'⟩ := queueText_compact ho' text clientMask mem
  rw [h] at hs hr
  exact ⟨hs.symm.trans hs',hr.symm.trans hr'⟩

end WsTx

namespace WsStream
open WsTx
variable {cap : ℕ} {s s' : WsStream}
theorem Good.ordered (h : Good cap s) : Ordered s.tx := by
  obtain ⟨gone,kept,-,hholds,-⟩ := h.split
  exact hholds.ordered

theorem run_same (calls : List WsCall) (hg : Good cap s) (hg' : Good cap s')
    (htx : Same s.tx s'.tx) (hwire : s.wire=s'.wire) (hacc : s.accepted=s'.accepted) :
    (s.run calls).wire=(s'.run calls).wire ∧ (s.run calls).accepted=(s'.run calls).accepted := by
  induction calls generalizing s s' with
  | nil => exact ⟨hwire,hacc⟩
  | cons c calls ih =>
    cases c with
    | queue text clientMask mem =>
      obtain ⟨hs,hr⟩ := queueText_same htx hg.ordered hg'.ordered text clientMask mem
      refine ih (good_queue hg text clientMask mem) (good_queue hg' text clientMask mem) hs hwire ?_
      simp only [call,hr,hacc]
    | flush answers =>
      obtain ⟨hs,hr⟩ := flush_same answers htx hg.ordered hg'.ordered
      refine ih (good_flush hg answers) (good_flush hg' answers) hs ?_ hacc
      simp only [call,hr,hwire]

theorem refused_same {text : List UInt8} {clientMask : Option UInt32} {mem : Bool}
    (h : (s.tx.queueText text clientMask mem).2≠.queued) :
    Same (s.call (.queue text clientMask mem)).tx s.tx := by
  change Same (s.tx.queueText text clientMask mem).1 s.tx
  rcases s.tx.queueText_cases text clientMask mem with ⟨rc,-,heq | heq⟩ | ⟨tx',heq,-⟩
  · rw [heq]
    rfl
  · rw [heq]
    exact compact_compact s.tx
  · rw [heq] at h
    exact absurd rfl h

end WsStream

/-- **The bytes on the wire** are the accepted frames, in order and whole. -/
theorem ws_stream_is_accepted_frames (cap : ℕ) (calls : List WsCall) :
    let s:=(WsStream.start cap).run calls
    (s.wire++s.tx.unsent=s.frames.flatten ∧ s.wire <+: s.frames.flatten) ∧
    s.tx.pending ≤ s.tx.txCap ∧ (∃ gone kept,s.frames=gone++kept ∧ s.tx.buf=kept.flatten ∧
      WsTx.OnBoundary kept s.tx.frameAt s.tx.off) ∧
    (∀ a∈s.accepted,∃ frame,frameText a.1 a.2 (a.1.length+8)=some frame ∧
      ∀ rest,decode (frame++rest)=some (⟨0x81,a.2.map maskBytes,a.1⟩,rest)) ∧
    ∀ text clientMask mem,(s.tx.queueText text clientMask mem).2≠.queued →
      (s.call (.queue text clientMask mem)).tx.unsent=s.tx.unsent ∧
      ∀ later,((s.call (.queue text clientMask mem)).run later).wire=(s.run later).wire := by
  intro s
  have hgood : WsStream.Good cap s := WsStream.good_run cap calls
  obtain ⟨gone,kept,hframes,hholds,hwire⟩ := hgood.split
  have hall : s.wire++s.tx.unsent=s.frames.flatten := by
    rw [hwire,hframes,append_assoc,WsTx.unsent,take_append_drop,hholds.buf,flatten_append]
  refine ⟨⟨hall,hall ▸ prefix_append ..⟩,hgood.room,
    ⟨gone,kept,hframes,hholds.buf,hholds.boundary⟩,?_,?_⟩
  · intro a ha
    have hlen:=hgood.short a ha
    exact ⟨_,frameText_eq hlen le_rfl,decode_encode (f := textFrame a.1 a.2) hlen⟩
  · intro text clientMask mem hrefused
    have hsame:=WsStream.refused_same hrefused
    have hgood':=WsStream.good_queue hgood text clientMask mem
    refine ⟨?_,fun later => (WsStream.run_same later hgood' hgood hsame rfl ?_).1⟩
    · rw [← WsTx.compact_unsent hgood'.ordered,hsame,WsTx.compact_unsent hgood.ordered]
    · exact if_neg hrefused

end RecompNet.Lobby
