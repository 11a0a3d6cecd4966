import RecompNet.Lib.Trace
import RecompNet.Session.Receive

/-!
# The watermark of a receive

`state_on_chunk` marks block `offset / 1120` of its bitmap, whatever the chunk's offset and length.
-/
namespace RecompNet.StateSync
open List

namespace Rx
variable {P Q : ℕ → Prop} {rx rx' : Rx} {offset : ℕ} {data : List UInt8} {acks : List Body}

inductive Stored (rx : Rx) : Rx → List Body → Prop
  | partway {now : ℕ} {acks : List Body} (hrest : rx.ready ∨ rx.contiguity < rx.total)
    (hacks : ∀ b∈acks,b=rx.ackBody) (hfull : rx.total ≤ rx.contiguity → rx.ackBody∈acks) :
    Stored rx { rx with lastAckMs := now } acks
  | wrong {now : ℕ} (hopen : rx.ready=false) (hfull : rx.total ≤ rx.contiguity)
    (hcrc : protoChecksum rx.buf≠rx.crc) :
    Stored rx { rx with contiguity := 0,lastAckMs := now } [rx.ackBody,.ack rx.xferId 0]
  | ready {now : ℕ} (hopen : rx.ready=false) (hfull : rx.total ≤ rx.contiguity)
    (hcrc : protoChecksum rx.buf=rx.crc) :
    Stored rx { rx with ready := true,lastAckMs := now } [rx.ackBody,rx.ackBody]

theorem onChunk_stored (now : ℕ) (ice : Bool) (ht : rx.Takes offset data) :
    Stored (rx.store offset data) (rx.onChunk now ice offset data).1
      (rx.onChunk now ice offset data).2.1 := by
  unfold onChunk
  rw [if_neg (by push Not; exact ht)]
  generalize rx.store offset data=rx₁
  dsimp only
  by_cases hrest : rx₁.ready ∨ rx₁.contiguity < rx₁.total
  · have hmark : ∀ last : ℕ,{ rx₁ with lastAckMs := last }.markReady now =
        ({ rx₁ with lastAckMs := last },[],false) := fun last => if_pos hrest
    split
    · rw [hmark now]
      exact .partway hrest (fun b hb => mem_singleton.mp hb) fun _ => mem_singleton_self _
    next hdue =>
    have hsame : rx₁.markReady now=(rx₁,[],false) := hmark rx₁.lastAckMs
    rw [hsame]
    refine @Stored.partway rx₁ rx₁.lastAckMs [] hrest (fun b hb => by cases hb) fun hfull => ?_
    -- a full watermark is acknowledged at once
    have hackDue : rx₁.ackDue now ice := by simp [ackDue,hfull]
    exact absurd hackDue hdue
  · obtain ⟨hopen,hlt⟩ := not_or.mp hrest
    have hfull:=not_lt.mp hlt
    have hdue : rx₁.ackDue now ice := by simp [ackDue,hfull]
    rw [if_pos hdue]
    by_cases hcrc : protoChecksum rx₁.buf≠rx₁.crc
    · have hmark : { rx₁ with lastAckMs := now }.markReady now =
          ({ rx₁ with contiguity := 0,lastAckMs := now },[.ack rx₁.xferId 0],false) :=
        (if_neg hrest).trans (if_pos hcrc)
      rw [hmark]
      exact .wrong (Bool.eq_false_iff.mpr hopen) hfull hcrc
    have hmark : { rx₁ with lastAckMs := now }.markReady now =
        ({ rx₁ with ready := true,lastAckMs := now },[rx₁.ackBody],true) :=
      (if_neg hrest).trans (if_neg hcrc)
    rw [hmark]
    exact .ready (Bool.eq_false_iff.mpr hopen) hfull (not_not.mp hcrc)

structure Marked (rx : Rx) : Prop where
  aligned : Aligned rx.contiguity rx.total
  bound : rx.contiguity ≤ rx.total
  below : ∀ c,c*chunkMax < rx.contiguity → rx.bits c
  full : rx.ready → rx.total ≤ rx.contiguity

variable {contiguity : ℕ}
theorem contiguousFrom_le (fuel i : ℕ) (h : contiguity ≤ rx.total) :
    rx.contiguousFrom fuel i contiguity ≤ rx.total := by
  induction fuel generalizing i contiguity with
  | zero => exact h
  | succ fuel ih =>
    rw [contiguousFrom]
    split
    · exact ih (i+1) (min_le_right _ _)
    · exact h

theorem le_contiguousFrom (fuel i : ℕ) (h : contiguity ≤ rx.total)
    (hi : contiguity≤(i+1)*chunkMax) : contiguity ≤ rx.contiguousFrom fuel i contiguity := by
  induction fuel generalizing i contiguity with
  | zero => exact le_rfl
  | succ fuel ih =>
    rw [contiguousFrom]
    split
    · refine (le_min hi h).trans (ih (i+1) (min_le_right _ _) ?_)
      exact (min_le_left _ _).trans (Nat.mul_le_mul_right _ (Nat.le_succ _))
    · exact le_rfl

theorem Marked.advanceContiguity (h : Marked rx) : Marked rx.advanceContiguity := by
  have hstart : ∀ c < rx.contiguity/chunkMax,rx.bits c := by
    intro c hc
    refine h.below c ?_
    have hmul : c*chunkMax < rx.contiguity/chunkMax*chunkMax :=
      Nat.mul_lt_mul_of_pos_right hc (by decide)
    exact hmul.trans_le (Nat.div_mul_le_self _ _)
  have hspec:=contiguousFrom_spec rx
    ((rx.total+chunkMax-1)/chunkMax-rx.contiguity/chunkMax) (rx.contiguity/chunkMax)
    rx.contiguity hstart h.aligned h.below
  refine ⟨hspec.1,contiguousFrom_le _ _ h.bound,hspec.2,fun hr => ?_⟩
  refine (h.full hr).trans (le_contiguousFrom _ _ h.bound ?_)
  have hlt:=Nat.lt_div_mul_add (a := rx.contiguity) (b := chunkMax) (by decide)
  rw [Nat.add_mul,Nat.one_mul]
  exact hlt.le

theorem store_total (ht : rx.Takes offset data) : (rx.store offset data).total=rx.total := by
  rw [Rx.total,(store_same rx offset data).2.2.2.2]
  exact Chunks.length_write ht.2.2

theorem Marked.store (h : Marked rx) (ht : rx.Takes offset data) :
    Marked (rx.store offset data) := by
  have hlen : (Chunks.write rx.buf offset data).length=rx.total := Chunks.length_write ht.2.2
  obtain ⟨heq,hmono,-⟩ := setChunk_bits
    { rx with buf := Chunks.write rx.buf offset data } (offset/chunkMax)
  refine Marked.advanceContiguity ?_
  rw [heq]
  refine ⟨?_,h.bound.trans_eq hlen.symm,fun c hc => hmono c (h.below c hc),
    fun hr => hlen.trans_le (h.full hr)⟩
  change Aligned rx.contiguity (Chunks.write rx.buf offset data).length
  rw [hlen]
  exact h.aligned

theorem Marked.stored (h : Marked rx) (hs : Stored rx rx' acks) : Marked rx' := by
  cases hs with
  | partway => exact { h with }
  | wrong hopen =>
    refine ⟨aligned_zero _,Nat.zero_le _,fun c hc => absurd hc (Nat.not_lt_zero _),fun hr => ?_⟩
    exact absurd hr (Bool.eq_false_iff.mp hopen)
  | ready _ hfull => exact { h with full := fun _ => hfull }

theorem freshRx_marked (op : StateOp) (slot xferId total crc now : ℕ) :
    Marked { freshRx op slot xferId total crc with lastAckMs := now } :=
  ⟨aligned_zero _,Nat.zero_le _,fun _ hc => absurd hc (Nat.not_lt_zero _),
    fun hr => absurd hr Bool.false_ne_true⟩

structure Backed (P : ℕ → Prop) (rx : Rx) : Prop extends Marked rx where
  bits : ∀ c,rx.bits c → ∀ b,b/chunkMax=c → b < rx.total → P b

theorem Backed.mono (h : Backed P rx) (hPQ : ∀ b,P b → Q b) : Backed Q rx :=
  ⟨h.toMarked,fun c hc b hb hlt => hPQ b (h.bits c hc b hb hlt)⟩

theorem Backed.bytes (h : Backed P rx) {b : ℕ} (hb : b < rx.contiguity) : P b := by
  refine h.bits (b/chunkMax) (h.below _ ?_) b rfl (hb.trans_le h.bound)
  exact (Nat.div_mul_le_self b chunkMax).trans_lt hb

def WholeBlock (rx : Rx) (offset : ℕ) (data : List UInt8) : Prop :=
  offset%chunkMax=0 ∧ data.length=min chunkMax (rx.total-offset)

theorem Backed.store (h : Backed P rx) (ht : rx.Takes offset data)
    (hw : rx.WholeBlock offset data) (hP : ∀ b,offset≤b → b<offset+data.length → P b) :
    Backed P (rx.store offset data) := by
  refine ⟨h.toMarked.store ht,fun c hc b hb hlt => ?_⟩
  replace hlt : b < rx.total := store_total ht ▸ hlt
  rcases (setChunk_bits _ _).2.2 c hc with hold | rfl
  · exact h.bits c hold b hb hlt
  -- the block of the chunk is exactly what it writes
  have hoff : chunkMax*(offset/chunkMax)=offset := by
    have hdiv:=Nat.div_add_mod offset chunkMax
    rw [hw.1] at hdiv
    exact hdiv
  have hdm:=Nat.div_add_mod b chunkMax
  have hmod:=Nat.mod_lt b (show 0<chunkMax by decide)
  rw [hb,hoff] at hdm
  refine hP b (by omega) ?_
  rw [hw.2]
  omega

theorem Backed.stored (h : Backed P rx) (hs : Stored rx rx' acks) :
    Backed P rx' ∧ ∀ id k,.ack id k∈acks → ∀ b<k,P b := by
  have hbytes : ∀ id k,.ack id k=rx.ackBody → ∀ b<k,P b := by
    intro id k heq b hb
    cases heq
    exact h.bytes hb
  refine ⟨⟨h.toMarked.stored hs,?_⟩,fun id k hin => ?_⟩
  · cases hs <;> exact h.bits
  · cases hs with
    | partway _ hacks => exact hbytes id k (hacks _ hin)
    | wrong =>
      rcases mem_pair.mp hin with heq | heq
      · exact hbytes id k heq
      · cases heq
        exact fun b hb => absurd hb (Nat.not_lt_zero b)
    | ready => exact hbytes id k (by simpa using hin)

end Rx

variable {cfg : Config} {ice : Bool} {src : ℕ} {cs : List Call} {c : Call}
def NotReopened (cfg : Config) (ice : Bool) (src : ℕ) (pre post : List Call) : Prop :=
  ∀ mid c rest,post=mid++c::rest → ¬ Opens (runCalls cfg ice (pre++mid)) src c
theorem NotReopened.nil (pre : List Call) : NotReopened cfg ice src pre [] :=
  fun mid _ _ hsplit => by cases mid <;> cases hsplit

theorem NotReopened.concat {pre post : List Call} (h : NotReopened cfg ice src pre post)
    (ho : ¬ Opens (runCalls cfg ice (pre++post)) src c) :
    NotReopened cfg ice src pre (post++[c]) := by
  intro mid c' rest hsplit
  rcases eq_nil_or_concat rest with rfl | ⟨rest',last,rfl⟩
  · obtain ⟨rfl,hlast⟩ := append_inj' hsplit rfl
    cases hlast
    exact ho
  have hcons : post++[c]=(mid++c'::rest')++[last] := by simpa using hsplit
  obtain ⟨hpost,-⟩ := append_inj' hcons rfl
  exact h mid c' rest' hpost

/-- Byte `b` was written by a chunk stored in the receive from `src`, and no receive from there
was opened since. -/
def Written (cfg : Config) (ice : Bool) (src : ℕ) (cs : List Call) (b : ℕ) : Prop :=
  ∃ pre c post offset data,cs=(pre++[c])++post ∧
    Stores (runCalls cfg ice pre) src offset data c ∧ offset≤b ∧ b<offset+data.length ∧
    NotReopened cfg ice src (pre++[c]) post

variable {b : ℕ}
theorem Written.concat (h : Written cfg ice src cs b)
    (ho : ¬ Opens (runCalls cfg ice cs) src c) : Written cfg ice src (cs++[c]) b := by
  obtain ⟨pre,d,post,offset,data,rfl,hs,hle,hlt,hsince⟩ := h
  exact ⟨pre,d,post++[c],offset,data,append_assoc _ _ _,hs,hle,hlt,hsince.concat ho⟩

theorem Written.of_stores {offset : ℕ} {data : List UInt8}
    (hs : Stores (runCalls cfg ice cs) src offset data c) (hle : offset≤b)
    (hlt : b<offset+data.length) : Written cfg ice src (cs++[c]) b :=
  ⟨cs,c,[],offset,data,(append_nil _).symm,hs,hle,hlt,.nil _⟩

structure ReceiveBacked (cfg : Config) (ice : Bool) (src : ℕ) (cs : List Call) : Prop where
  rx : ∀ rx,(runCalls cfg ice cs).rx src=some rx → rx.Backed (Written cfg ice src cs)
  note : ∀ rx,(runCalls cfg ice cs).rx src=some rx →
    ∃ r,(runCalls cfg ice cs).received src=some r ∧ r.total=rx.total
  finished : ∀ r,(runCalls cfg ice cs).received src=some r → r.finished →
    ∀ b < r.total,Written cfg ice src cs b

/-- The chunk that a call stores is a whole block. -/
def StoresBlocks (s : Session) (c : Call) : Prop :=
  ∀ src offset data rx,Stores s src offset data c → s.rx src=some rx → rx.WholeBlock offset data

theorem Rx.Stored.total {rx rx' : Rx} {acks : List Body} (h : rx.Stored rx' acks) :
    rx'.total=rx.total := by
  cases h <;> rfl

theorem ReceiveBacked.step (h : ReceiveBacked cfg ice src cs)
    (hc : StoresBlocks (runCalls cfg ice cs) c) : ReceiveBacked cfg ice src (cs++[c]) ∧
      (c.fromSeat=some src → ∀ p∈(callAct (runCalls cfg ice cs) c).2.1,∀ id k,
        p.body=.ack id k → ∀ b<k,Written cfg ice src (cs++[c]) b) := by
  obtain ⟨seat,acks,hstep,hrx,hreceived,hacks⟩ := callAct_seat (runCalls cfg ice cs) src c
  rw [← runCalls_concat] at hrx hreceived
  set s:=runCalls cfg ice cs
  -- what is known of the seat's state carries the three facts, each acknowledgment one more
  suffices hgoal : (∀ rx,seat.1=some rx → rx.Backed (Written cfg ice src (cs++[c]))) ∧
      (∀ rx,seat.1=some rx → ∃ r,seat.2=some r ∧ r.total=rx.total) ∧
      (∀ r,seat.2=some r → r.finished → ∀ b < r.total,Written cfg ice src (cs++[c]) b) ∧
      ∀ id k,.ack id k∈acks → ∀ b<k,Written cfg ice src (cs++[c]) b by
    obtain ⟨hback,hnote,hfin,hack⟩ := hgoal
    refine ⟨⟨hrx ▸ hback,hrx ▸ hreceived ▸ hnote,hreceived ▸ hfin⟩,?_⟩
    intro hfrom p hp id k hbody
    exact hack id k (hacks hfrom p hp id k hbody)
  have hkept : ¬ Opens s src c → ∀ b,Written cfg ice src cs b → Written cfg ice src (cs++[c]) b :=
    fun ho b hb => hb.concat ho
  have hrx' : ¬ Opens s src c → ∀ rx,s.rx src=some rx → rx.Backed (Written cfg ice src (cs++[c])) :=
    fun ho rx hx => (h.rx rx hx).mono (hkept ho)
  have hfin' : ¬ Opens s src c → ∀ r,s.received src=some r → r.finished →
      ∀ b < r.total,Written cfg ice src (cs++[c]) b :=
    fun ho r hr hf b hb => hkept ho b (h.finished r hr hf b hb)
  cases hstep with
  | keep ho => exact ⟨hrx' ho,h.note,hfin' ho,fun id k hin => by cases hin⟩
  | opened hcall ho =>
    refine ⟨fun rx hx => ?_,fun rx hx => ⟨_,rfl,?_⟩,fun r hr hf => ?_,fun id k hin b hb => ?_⟩
    · cases hx
      exact ⟨Rx.freshRx_marked _ _ _ _ _ _,fun c hc => absurd hc Bool.false_ne_true⟩
    · cases hx
      exact (length_replicate).symm
    · cases hr
      cases hf
    · cases mem_singleton.mp hin
      cases hb
  | @beginAgain now _ rx₀ ho hr hx hid =>
    have hback:=hrx' ho _ hx
    refine ⟨fun rx hx' => ?_,fun rx hx' => ?_,hfin' ho,fun id k hin b hb => ?_⟩
    · cases hx'
      exact ⟨{ hback with },hback.bits⟩
    · cases hx'
      exact h.note rx₀ hx
    · cases mem_singleton.mp hin
      exact hback.bytes hb
  | beginFinished ho hr hf =>
    refine ⟨hrx' ho,h.note,hfin' ho,fun id k hin => ?_⟩
    cases mem_singleton.mp hin
    exact hfin' ho _ hr hf
  | @stored now offset ice' data rx ho hx hst ht =>
    have hstored:=Rx.onChunk_stored now ice' ht
    have hback:=((hrx' ho rx hx).store ht (hc src offset data rx hst hx)
      fun b hle hlt => .of_stores hst hle hlt).stored hstored
    refine ⟨fun rx' hx' => ?_,fun rx' hx' => ?_,hfin' ho,hback.2⟩
    · cases hx'
      exact hback.1
    · cases hx'
      rw [hstored.total,Rx.store_total ht]
      exact h.note rx hx
  | @chunkFinished now r ho hr hf =>
    refine ⟨hrx' ho,fun rx hx => ⟨_,rfl,?_⟩,fun r' hr' _ => ?_,fun id k hin => ?_⟩
    · obtain ⟨r',hr',htotal⟩ := h.note rx hx
      rw [hr] at hr'
      cases hr'
      exact htotal
    · cases hr'
      exact hfin' ho r hr hf
    · cases mem_singleton.mp hin
      exact hfin' ho r hr hf
  | closed ho =>
    refine ⟨fun rx hx => (by cases hx),fun rx hx => (by cases hx),fun r' hr' hf b hb => ?_,
      fun id k hin => by cases hin⟩
    obtain ⟨r,hr,rfl⟩ := Option.map_eq_some_iff.mp hr'
    rcases Bool.or_eq_true_iff.mp hf with hold | hready
    · exact hfin' ho r hr hold b hb
    -- the receive that is closed was ready, so its watermark is its total
    obtain ⟨rx,hx,hrdy⟩ := (Option.any_eq_true _ _).mp hready
    have hback:=hrx' ho rx hx
    obtain ⟨r₁,hr₁,htotal⟩ := h.note rx hx
    rw [hr] at hr₁
    cases hr₁
    exact hback.bytes (hb.trans_le (htotal.trans_le (hback.full hrdy)))

theorem receiveBacked_nil (cfg : Config) (ice : Bool) (src : ℕ) : ReceiveBacked cfg ice src [] :=
  ⟨fun _ hx => (by cases hx),fun _ hx => (by cases hx),fun _ hr => (by cases hr)⟩

theorem receiveBacked_run (h : ∀ pre c,pre++[c] <+: cs → StoresBlocks (runCalls cfg ice pre) c)
    (src : ℕ) : ReceiveBacked cfg ice src cs := by
  induction cs using List.reverseRecOn with
  | nil => exact receiveBacked_nil cfg ice src
  | append_singleton cs c ih =>
    have hpre:=ih fun pre d hd => h pre d (hd.trans (prefix_append cs [c]))
    exact (hpre.step (h cs c prefix_rfl)).1

/-- The watermark counts only bytes that were written, over whole runs. -/
theorem watermark_backed_run (cfg : Config) (ice : Bool) (cs : List Call)
    (h : ∀ pre c,pre++[c] <+: cs → StoresBlocks (runCalls cfg ice pre) c) :
    (∀ pre,pre <+: cs → ∀ src rx,(runCalls cfg ice pre).rx src=some rx →
      ∀ b < rx.contiguity,Written cfg ice src pre b) ∧
    ∀ pre c,pre++[c] <+: cs → ∀ p∈(callAct (runCalls cfg ice pre) c).2.1,∀ id k,
      p.body=.ack id k → ∃ src,c.fromSeat=some src ∧ ∀ b<k,Written cfg ice src (pre++[c]) b := by
  have hbacked : ∀ pre,pre <+: cs → ∀ src,ReceiveBacked cfg ice src pre :=
    fun pre hpre => receiveBacked_run fun pre' d hd => h pre' d (hd.trans hpre)
  refine ⟨fun pre hpre src rx hx b hb => ((hbacked pre hpre src).rx rx hx).bytes hb,?_⟩
  intro pre c hpre p hp id k hbody
  obtain ⟨src,hsrc⟩ := callAct_ack hp hbody
  have hbefore:=hbacked pre ((prefix_append pre [c]).trans hpre) src
  exact ⟨src,hsrc,(hbefore.step (h pre c hpre)).2 hsrc p hp id k hbody⟩

def wholeBlockCalls : List Call :=
  [.setLink true false none,.recv 1 ⟨0,.begin .load 0 1 2 (protoChecksum [7,8])⟩,
    .recv 2 ⟨0,.chunk 1 0 [7,8]⟩]

theorem storesBlocks_of_no_chunk {s : Session}
    (h : ∀ now src id offset data,c≠.recv now ⟨src,.chunk id offset data⟩) :
    StoresBlocks s c := by
  intro src offset data rx hst hx
  cases c with
  | recv now pkt =>
    obtain ⟨slot,body⟩ := pkt
    cases body with
    | chunk id off bytes => exact absurd rfl (h now slot id off bytes)
    | _ => exact hst.elim
  | _ => exact hst.elim

theorem watermark_backed_two_bytes :
    (∀ pre c,pre++[c] <+: wholeBlockCalls → StoresBlocks (runCalls (pairCfg true) false pre) c) ∧
    ((runCalls (pairCfg true) false wholeBlockCalls).rx 0).map Rx.contiguity=some 2 ∧
    Written (pairCfg true) false 0 wholeBlockCalls 1 := by
  have hblocks : ∀ pre c,pre++[c] <+: wholeBlockCalls →
      StoresBlocks (runCalls (pairCfg true) false pre) c := by
    refine forall_steps_cons (storesBlocks_of_no_chunk fun _ _ _ _ _ h => by cases h) ?_
    refine forall_steps_cons (storesBlocks_of_no_chunk fun _ _ _ _ _ h => by cases h) ?_
    refine forall_steps_cons ?_ forall_steps_nil
    rintro src offset data rx ⟨rfl,-,-,-,rfl,rfl,-⟩ hx
    have htotal : ((runCalls (pairCfg true) false (wholeBlockCalls.take 2)).rx 0).map Rx.total =
        some 2 := by decide +kernel
    replace htotal : (some rx).map Rx.total=some 2 := hx ▸ htotal
    exact ⟨rfl,by rw [Option.some.inj htotal]; rfl⟩
  have hmark : ((runCalls (pairCfg true) false wholeBlockCalls).rx 0).map Rx.contiguity=some 2 :=
    by decide +kernel
  refine ⟨hblocks,hmark,?_⟩
  obtain ⟨rx,hx,htwo⟩ := Option.map_eq_some_iff.mp hmark
  exact (watermark_backed_run (pairCfg true) false wholeBlockCalls hblocks).1 _ prefix_rfl
    0 rx hx 1 (by rw [htwo]; decide)

def firstByteCalls : List Call :=
  [.setLink true false none,.recv 1 ⟨0,.begin .load 0 1 2000 5⟩,.recv 100 ⟨0,.chunk 1 0 [7]⟩]

theorem first_byte_acks_block :
    let s:=runCalls (pairCfg true) false (firstByteCalls.take 2)
    firstByteCalls.drop 2=[.recv 100 ⟨0,.chunk 1 0 [7]⟩] ∧
      ((callAct s (.recv 100 ⟨0,.chunk 1 0 [7]⟩)).1.rx 0).map Rx.contiguity=some 1120 ∧
      ((callAct s (.recv 100 ⟨0,.chunk 1 0 [7]⟩)).2.1.map (·.body))=[.ack 1 1120] ∧
      ¬ Written (pairCfg true) false 0 firstByteCalls 1 := by
  refine ⟨rfl,by decide +kernel,by decide +kernel,?_⟩
  rintro ⟨pre,c,post,offset,data,hsplit,hst,hle,hlt,-⟩
  have hin : c∈firstByteCalls := by
    rw [hsplit]
    exact mem_append_left _ (mem_append_right _ (mem_singleton_self c))
  rcases mem_cons.mp hin with rfl | hin
  · exact hst
  rcases mem_cons.mp hin with rfl | hin
  · exact hst
  obtain rfl := mem_singleton.mp hin
  obtain ⟨-,-,-,-,rfl,rfl,-⟩ := hst
  exact absurd hlt (by decide)

end RecompNet.StateSync
