import RecompNet.Session.Contiguity

/-!
# Full acknowledgments

`state_on_chunk` acknowledges the watermark before `state_rx_mark_ready_if_complete` looks at the
checksum, also when the receive was ready already.
-/
namespace RecompNet.StateSync
open List

namespace Rx
variable {rx rx' : Rx} {offset : ℕ} {data : List UInt8} {acks : List Body}
def Completes (rx : Rx) (offset : ℕ) : Prop :=
  ∀ i,i*chunkMax < rx.total → rx.bits i ∨ i=offset/chunkMax

theorem lt_maxChunks {i : ℕ} (hsize : rx.total ≤ stateMax) (hi : i*chunkMax < rx.total) :
    i < maxChunks := by
  unfold maxChunks
  rw [Nat.lt_div_iff_mul_lt (by decide)]
  unfold chunkMax stateMax at *
  omega

theorem total_le_contiguousFrom (fuel i : ℕ) {contiguity : ℕ}
    (hmarked : ∀ c,c*chunkMax < rx.total → rx.hasChunk c)
    (hin : ∀ c,i ≤ c → c < i+fuel → c*chunkMax < rx.total) (hend : rx.total≤(i+fuel)*chunkMax)
    (hstart : rx.total ≤ i*chunkMax → rx.total ≤ contiguity) :
    rx.total ≤ rx.contiguousFrom fuel i contiguity := by
  induction fuel generalizing i contiguity with
  | zero => exact hstart hend
  | succ fuel ih =>
    rw [contiguousFrom,if_pos (hmarked i (hin i le_rfl (by omega)))]
    refine ih (i+1) (fun c hle hlt => hin c (by omega) (by omega)) ?_ fun h => le_min h le_rfl
    rw [show i+1+fuel=i+(fuel+1) by omega]
    exact hend

theorem total_le_advanceContiguity (h : Marked rx)
    (hmarked : ∀ c,c*chunkMax < rx.total → rx.hasChunk c) :
    rx.total ≤ rx.advanceContiguity.contiguity := by
  have hbound:=h.bound
  have haligned:=h.aligned
  change rx.total ≤ rx.contiguousFrom _ _ _
  unfold Aligned at haligned
  refine total_le_contiguousFrom _ _ hmarked (fun c hle hlt => ?_) ?_ fun hle => ?_ <;>
    unfold chunkMax at * <;> omega

theorem bits_setChunk {index : ℕ} (hi : index < maxChunks) : (rx.setChunk index).bits index := by
  unfold setChunk
  rw [if_neg (not_le.mpr hi)]
  exact Function.update_self ..

theorem store_full_iff (h : Marked rx) (hsize : rx.total ≤ stateMax) (ht : rx.Takes offset data) :
    rx.total≤(rx.store offset data).contiguity ↔ rx.Completes offset := by
  have htotal:=store_total ht
  constructor
  · intro hfull i hi
    have hbit:=(h.store ht).below i (hi.trans_le hfull)
    exact (setChunk_bits { rx with buf := Chunks.write rx.buf offset data } _).2.2 i hbit
  · intro hcomplete
    set rx₁ : Rx := { rx with buf := Chunks.write rx.buf offset data } with hrx₁
    have hlen : rx₁.total=rx.total := Chunks.length_write ht.2.2
    have hmarked : Marked rx₁ :=
      ⟨hlen ▸ h.aligned,hlen ▸ h.bound,h.below,fun hr => hlen.trans_le (h.full hr)⟩
    obtain ⟨heq,hmono,-⟩ := setChunk_bits rx₁ (offset/chunkMax)
    have hset : Marked (rx₁.setChunk (offset/chunkMax)) := by
      rw [heq]
      exact { hmarked with below := fun c hc => hmono c (h.below c hc) }
    have hsame : (rx₁.setChunk (offset/chunkMax)).total=rx.total := by
      rw [heq]
      exact hlen
    have hall:=total_le_advanceContiguity hset fun c hc => ?_
    · exact hsame ▸ hall
    · rw [hsame] at hc
      have hlt:=lt_maxChunks hsize hc
      rw [hasChunk,Bool.and_eq_true]
      refine ⟨decide_eq_true hlt,?_⟩
      rcases hcomplete c hc with hold | rfl
      · exact hmono c hold
      · exact bits_setChunk hlt

theorem store_crc (rx : Rx) (offset : ℕ) (data : List UInt8) :
    (rx.store offset data).crc=rx.crc := by
  unfold store
  rw [(setChunk_bits _ _).1]
  rfl

theorem Stored.same (h : Stored rx rx' acks) :
    rx'.xferId=rx.xferId ∧ rx'.crc=rx.crc ∧ rx'.buf=rx.buf := by
  cases h <;> exact ⟨rfl,rfl,rfl⟩

theorem Stored.ackBody_mem (h : Stored rx rx' acks) (hfull : rx.total ≤ rx.contiguity) :
    rx.ackBody∈acks := by
  cases h with
  | partway _ _ hin => exact hin hfull
  | wrong | ready => exact mem_cons_self

def Sound (rx : Rx) : Prop := rx.total ≤ rx.contiguity → protoChecksum rx.buf=rx.crc

theorem Stored.sound (h : Stored rx rx' acks) (hs : rx.Sound) :
    rx'.Sound ∧ ∀ id k,.ack id k∈acks →
      rx'.xferId=id ∧ (k=rx'.total → protoChecksum rx'.buf=rx'.crc) := by
  have hack : ∀ id k,.ack id k=rx.ackBody →
      rx.xferId=id ∧ (k=rx.total → protoChecksum rx.buf=rx.crc) := by
    intro id k heq
    cases heq
    exact ⟨rfl,fun hk => hs hk.ge⟩
  cases h with
  | partway _ hacks => exact ⟨hs,fun id k hin => hack id k (hacks _ hin)⟩
  | wrong _ hfull hcrc => exact absurd (hs hfull) hcrc
  | ready _ hfull hcrc => exact ⟨fun _ => hcrc,fun id k hin => hack id k (by simpa using hin)⟩

end Rx

variable {cfg : Config} {ice : Bool} {src : ℕ} {cs : List Call} {c : Call}
def CompletesWrong (s : Session) (src : ℕ) (c : Call) : Prop :=
  ∃ offset data rx,Stores s src offset data c ∧ s.rx src=some rx ∧ rx.Completes offset ∧
    protoChecksum (Chunks.write rx.buf offset data)≠rx.crc

def Fails (s : Session) (src : ℕ) (c : Call) : Prop :=
  CompletesWrong s src c ∧ ∃ rx,s.rx src=some rx ∧ rx.ready=false

variable (cfg) (ice)
def ClosedVerified (src : ℕ) (cs : List Call) (id k : ℕ) : Prop :=
  ∃ pre d post rx,cs=(pre++[d])++post ∧ (runCalls cfg ice pre).rx src=some rx ∧
    (runCalls cfg ice (pre++[d])).rx src=none ∧ rx.xferId=id ∧
    (k=rx.total → protoChecksum rx.buf=rx.crc) ∧ NotReopened cfg ice src (pre++[d]) post

def AckVerified (src : ℕ) (cs : List Call) (id k : ℕ) : Prop :=
  match (runCalls cfg ice cs).rx src with
  | some rx => rx.xferId=id ∧ (k=rx.total → protoChecksum rx.buf=rx.crc)
  | none => ClosedVerified cfg ice src cs id k

/-- Every acknowledgment of the run is verified. -/
def AcksVerified (cs : List Call) : Prop :=
  ∀ pre c,pre++[c] <+: cs → ∀ p∈(callAct (runCalls cfg ice pre) c).2.1,∀ id k,
    p.body=.ack id k → ∃ src,c.fromSeat=some src ∧ AckVerified cfg ice src (pre++[c]) id k

/-- After a checksum failure a receive is ready only when every block came again. -/
def BlocksComeAgain (cs : List Call) : Prop :=
  ∀ src pre c post,(pre++[c])++post <+: cs → Fails (runCalls cfg ice pre) src c →
    NotReopened cfg ice src (pre++[c]) post →
    ∀ rx,(runCalls cfg ice ((pre++[c])++post)).rx src=some rx → rx.ready →
      ∀ i,i*chunkMax < rx.total → ∃ mid d rest offset data,post=mid++d::rest ∧
        Stores (runCalls cfg ice ((pre++[c])++mid)) src offset data d ∧ offset/chunkMax=i

/-- A sender that takes what a failing receiver sends starts again for it at 0. -/
def SenderRestarts (cs : List Call) : Prop :=
  ∀ src pre c,pre++[c] <+: cs → Fails (runCalls cfg ice pre) src c →
    ∀ (now : ℕ) (t : Session) (tx : Tx),t.tx=some tx → t.rbPeerSlot=none →
      cfg.wireId < maxSlots → cfg.wireId∈tx.expect →
      (∃ rx,(runCalls cfg ice pre).rx src=some rx ∧ rx.xferId=tx.xferId) →
      ((callAct (runCalls cfg ice pre) c).2.1.foldl (fun t p => (callAct t (.recv now p)).1) t).tx.map
        (·.ack cfg.wireId)=some 0

structure ReceiveMarked (s : Session) (src : ℕ) : Prop where
  marked : ∀ rx,s.rx src=some rx → rx.Marked ∧ rx.total ≤ stateMax
  note : ∀ rx,s.rx src=some rx → ∃ r,s.received src=some r ∧ r.id=rx.xferId ∧ r.finished=false

variable {s : Session}
theorem Opens.size {now slot xferId total crc : ℕ} {op : StateOp}
    (h : Opens s src (.recv now ⟨src,.begin op slot xferId total crc⟩)) :
    0<total ∧ total ≤ stateMax := ⟨Nat.pos_of_ne_zero h.2.2.1.size.1,h.2.2.1.size.2⟩

theorem ReceiveMarked.closed (h : ReceiveMarked s src) {r : Received}
    (hr : s.received src=some r) (hf : r.finished) : s.rx src=none := by
  refine Option.eq_none_iff_forall_ne_some.mpr fun rx hx => ?_
  obtain ⟨r',hr',-,hf'⟩ := h.note rx hx
  rw [hr] at hr'
  cases hr'
  rw [hf] at hf'
  cases hf'

theorem ReceiveMarked.step (h : ReceiveMarked s src) (c : Call) :
    ReceiveMarked (callAct s c).1 src := by
  obtain ⟨seat,acks,hstep,hrx,hnote,-⟩ := callAct_seat s src c
  suffices hgoal : (∀ rx,seat.1=some rx → rx.Marked ∧ rx.total ≤ stateMax) ∧
      ∀ rx,seat.1=some rx → ∃ r,seat.2=some r ∧ r.id=rx.xferId ∧ r.finished=false from
    ⟨hrx ▸ hgoal.1,hrx ▸ hnote ▸ hgoal.2⟩
  cases hstep with
  | keep | beginFinished => exact ⟨h.marked,h.note⟩
  | opened hc ho =>
    subst hc
    refine ⟨fun rx hx => ?_,fun rx hx => ⟨_,rfl,?_,rfl⟩⟩
    · cases hx
      refine ⟨Rx.freshRx_marked _ _ _ _ _ _,?_⟩
      exact (length_replicate).trans_le ho.size.2
    · cases hx
      rfl
  | @beginAgain _ _ rx₀ _ _ hx =>
    have hm:=(h.marked rx₀ hx).1
    refine ⟨fun rx hx' => ?_,fun rx hx' => ?_⟩
    · cases hx'
      exact ⟨{ hm with },(h.marked rx₀ hx).2⟩
    · cases hx'
      exact h.note rx₀ hx
  | @stored now _ ice' _ rx₀ _ hx _ ht =>
    have hstored:=Rx.onChunk_stored now ice' ht
    have htotal:=hstored.total.trans (Rx.store_total ht)
    have hid:=hstored.same.1.trans (Rx.store_same ..).2.2.1
    refine ⟨fun rx hx' => ?_,fun rx hx' => ?_⟩
    · cases hx'
      exact ⟨((h.marked rx₀ hx).1.store ht).stored hstored,htotal.trans_le (h.marked rx₀ hx).2⟩
    · cases hx'
      rw [hid]
      exact h.note rx₀ hx
  | @chunkFinished _ r _ hr hf =>
    refine ⟨h.marked,fun rx hx => ?_⟩
    cases (h.closed hr hf).symm.trans hx
  | closed => exact ⟨fun rx hx => (by cases hx),fun rx hx => (by cases hx)⟩

theorem receiveMarked_run (cs : List Call) (src : ℕ) : ReceiveMarked (runCalls cfg ice cs) src := by
  induction cs using List.reverseRecOn with
  | nil => exact ⟨fun _ hx => (by cases hx),fun _ hx => (by cases hx)⟩
  | append_singleton cs c ih =>
    rw [runCalls_concat]
    exact ih.step c

variable {ice} {cfg}

structure ReceiveSound (cfg : Config) (ice : Bool) (src : ℕ) (cs : List Call) : Prop where
  sound : ∀ rx,(runCalls cfg ice cs).rx src=some rx → rx.Sound
  finished : ∀ r,(runCalls cfg ice cs).received src=some r → r.finished →
    ∀ k,ClosedVerified cfg ice src cs r.id k

theorem ClosedVerified.concat {id k : ℕ} (h : ClosedVerified cfg ice src cs id k)
    (ho : ¬ Opens (runCalls cfg ice cs) src c) : ClosedVerified cfg ice src (cs++[c]) id k := by
  obtain ⟨pre,d,post,rx,rfl,hx,hclosed,hid,hsum,hsince⟩ := h
  exact ⟨pre,d,post++[c],rx,append_assoc _ _ _,hx,hclosed,hid,hsum,hsince.concat ho⟩

theorem ReceiveSound.step (h : ReceiveSound cfg ice src cs)
    (hc : ¬ CompletesWrong (runCalls cfg ice cs) src c) : ReceiveSound cfg ice src (cs++[c]) ∧
      (c.fromSeat=some src → ∀ p∈(callAct (runCalls cfg ice cs) c).2.1,∀ id k,
        p.body=.ack id k → AckVerified cfg ice src (cs++[c]) id k) := by
  obtain ⟨seat,acks,hstep,hrx,hreceived,hacks⟩ := callAct_seat (runCalls cfg ice cs) src c
  have hmarked:=receiveMarked_run cfg ice cs src
  rw [← runCalls_concat] at hrx hreceived
  set s:=runCalls cfg ice cs
  have hverified : ∀ id k,AckVerified cfg ice src (cs++[c]) id k ↔ match seat.1 with
      | some rx => rx.xferId=id ∧ (k=rx.total → protoChecksum rx.buf=rx.crc)
      | none => ClosedVerified cfg ice src (cs++[c]) id k := by
    intro id k
    rw [AckVerified,hrx]
  suffices hgoal : (∀ rx,seat.1=some rx → rx.Sound) ∧ (∀ r,seat.2=some r → r.finished → ∀ k,
        ClosedVerified cfg ice src (cs++[c]) r.id k) ∧
      ∀ id k,.ack id k∈acks → AckVerified cfg ice src (cs++[c]) id k by
    obtain ⟨hsound,hfin,hack⟩ := hgoal
    refine ⟨⟨hrx ▸ hsound,hreceived ▸ hfin⟩,fun hfrom p hp id k hbody => ?_⟩
    exact hack id k (hacks hfrom p hp id k hbody)
  have hfin' : ¬ Opens s src c → ∀ r,s.received src=some r → r.finished → ∀ k,
      ClosedVerified cfg ice src (cs++[c]) r.id k :=
    fun ho r hr hf k => (h.finished r hr hf k).concat ho
  cases hstep with
  | keep ho => exact ⟨h.sound,hfin' ho,fun id k hin => by cases hin⟩
  | opened hcall ho =>
    subst hcall
    have hpos:=ho.size.1
    refine ⟨fun rx hx => ?_,fun r hr hf => ?_,fun id k hin => ?_⟩
    · cases hx
      intro hfull
      have hlen : (List.replicate _ (0 : UInt8)).length≤0 := hfull
      rw [length_replicate] at hlen
      exact absurd hpos (not_lt.mpr hlen)
    · cases hr
      cases hf
    · cases mem_singleton.mp hin
      refine (hverified _ _).mpr ⟨rfl,fun hk => ?_⟩
      have hlen : 0=(List.replicate _ (0 : UInt8)).length := hk
      rw [length_replicate] at hlen
      exact absurd hlen hpos.ne
  | @beginAgain _ _ rx₀ ho _ hx =>
    refine ⟨fun rx hx' => ?_,hfin' ho,fun id k hin => ?_⟩
    · cases hx'
      exact h.sound rx₀ hx
    · cases mem_singleton.mp hin
      exact (hverified _ _).mpr ⟨rfl,fun hk => h.sound rx₀ hx hk.ge⟩
  | @beginFinished r ho hr hf =>
    refine ⟨h.sound,hfin' ho,fun id k hin => ?_⟩
    cases mem_singleton.mp hin
    rw [hverified,show (s.seatState src).1=none from hmarked.closed hr hf]
    exact hfin' ho r hr hf _
  | @stored now offset ice' data rx₀ ho hx hst ht =>
    obtain ⟨hm,hsize⟩ := hmarked.marked rx₀ hx
    have hsound : (rx₀.store offset data).Sound := by
      intro hfull
      rw [Rx.store_total ht,Rx.store_full_iff hm hsize ht] at hfull
      rw [Rx.store_crc,(Rx.store_same ..).2.2.2.2]
      by_contra hne
      exact hc ⟨offset,data,rx₀,hst,hx,hfull,hne⟩
    have hstored:=(Rx.onChunk_stored now ice' ht).sound hsound
    refine ⟨fun rx hx' => ?_,hfin' ho,fun id k hin => ?_⟩
    · cases hx'
      exact hstored.1
    · exact (hverified _ _).mpr (hstored.2 id k hin)
  | @chunkFinished _ r ho hr hf =>
    refine ⟨h.sound,fun r' hr' hf' => ?_,fun id k hin => ?_⟩
    · cases hr'
      exact hfin' ho r hr hf
    · cases mem_singleton.mp hin
      have hx:=hmarked.closed hr hf
      rw [hverified]
      dsimp only
      rw [hx]
      exact hfin' ho r hr hf _
  | closed ho =>
    refine ⟨fun rx hx => (by cases hx),fun r' hr' hf k => ?_,fun id k hin => by cases hin⟩
    obtain ⟨r,hr,rfl⟩ := Option.map_eq_some_iff.mp hr'
    rcases Bool.or_eq_true_iff.mp hf with hold | hready
    · exact hfin' ho r hr hold k
    -- what is closed was ready: a full watermark, so the right checksum
    obtain ⟨rx,hx,hrdy⟩ := (Option.any_eq_true _ _).mp hready
    obtain ⟨r',hr',hid,-⟩ := hmarked.note rx hx
    rw [hr] at hr'
    cases hr'
    refine ⟨cs,c,[],rx,(append_nil _).symm,hx,hrx,hid.symm,fun _ => ?_,.nil _⟩
    exact h.sound rx hx ((hmarked.marked rx hx).1.full hrdy)

theorem receiveSound_run
    (h : ∀ pre c,pre++[c] <+: cs → ¬ CompletesWrong (runCalls cfg ice pre) src c) :
    ReceiveSound cfg ice src cs := by
  induction cs using List.reverseRecOn with
  | nil => exact ⟨fun _ hx => (by cases hx),fun _ hr => (by cases hr)⟩
  | append_singleton cs c ih =>
    have hbefore:=ih fun pre d hd => h pre d (hd.trans (prefix_append cs [c]))
    exact (hbefore.step (h cs c prefix_rfl)).1

theorem callAct_stores {offset : ℕ} {data : List UInt8} {rx : Rx}
    (hst : Stores s src offset data c) (hx : s.rx src=some rx) :
    ∃ now,c.fromSeat=some src ∧ rx.Takes offset data ∧
      (callAct s c).1=setRx s src (rx.onChunk now s.pacing.ice offset data).1 ∧
      (callAct s c).2.1=(rx.onChunk now s.pacing.ice offset data).2.1.map s.packet := by
  cases c with
  | recv now pkt =>
    obtain ⟨slot,body⟩ := pkt
    cases body with
    | chunk xferId off bytes =>
      obtain ⟨rfl,hfilter,hlt,hwire,rfl,rfl,rx',hx',hid,ht⟩ := hst
      dsimp only at hx hx' hfilter hlt hwire
      rw [hx] at hx'
      cases hx'
      have hact : handleDecoded now s ⟨slot,.chunk xferId off bytes⟩ =
          onChunk now s slot xferId off bytes := if_neg hfilter
      have hopen : onChunk now s slot xferId off bytes =
          (setRx s slot (rx.onChunk now s.pacing.ice off bytes).1,
            (rx.onChunk now s.pacing.ice off bytes).2.1.map s.packet,
            if (rx.onChunk now s.pacing.ice off bytes).2.2 then
              [.completed slot (rx.onChunk now s.pacing.ice off bytes).1.xferId
                (rx.onChunk now s.pacing.ice off bytes).1.op
                (rx.onChunk now s.pacing.ice off bytes).1.slot
                (rx.onChunk now s.pacing.ice off bytes).1.buf] else []) := by
        unfold onChunk
        rw [if_neg (not_or.mpr ⟨not_le.mpr hlt,hwire⟩),hx]
        dsimp only
        rw [if_pos hid]
      refine ⟨now,rfl,ht,?_,?_⟩
      · rw [callAct,hact,hopen]
      · rw [callAct,hact,hopen]
    | _ => exact hst.elim
  | _ => exact hst.elim

theorem not_ackVerified_of_completesWrong (h : CompletesWrong (runCalls cfg ice cs) src c) :
    ∃ p∈(callAct (runCalls cfg ice cs) c).2.1,∃ id k,p.body=.ack id k ∧
      c.fromSeat=some src ∧ ¬ AckVerified cfg ice src (cs++[c]) id k := by
  obtain ⟨offset,data,rx,hst,hx,hcomplete,hcrc⟩ := h
  obtain ⟨now,hfrom,ht,hsession,hout⟩ := callAct_stores hst hx
  obtain ⟨hm,hsize⟩ := (receiveMarked_run cfg ice cs src).marked rx hx
  have hfull:=(Rx.store_full_iff hm hsize ht).mpr hcomplete
  have htotal:=Rx.store_total ht
  have hbound:=(hm.store ht).bound
  have hstored:=Rx.onChunk_stored now (runCalls cfg ice cs).pacing.ice ht
  obtain ⟨hid,hsum,hbuf⟩ := hstored.same
  have hack:=hstored.ackBody_mem (htotal.trans_le hfull)
  refine ⟨_,hout ▸ mem_map_of_mem hack,_,_,rfl,hfrom,fun hver => ?_⟩
  rw [AckVerified,runCalls_concat,hsession] at hver
  have hseat:=congrArg Prod.fst (seatState_setRx (s := runCalls cfg ice cs) (i := src)
    (rx.onChunk now (runCalls cfg ice cs).pacing.ice offset data).1)
  change (setRx _ _ _).rx src=some _ at hseat
  rw [hseat] at hver
  refine hcrc ?_
  have hk : (rx.store offset data).contiguity =
      (rx.onChunk now (runCalls cfg ice cs).pacing.ice offset data).1.total := by
    rw [hstored.total]
    exact le_antisymm hbound (htotal.trans_le hfull)
  have hgood:=hver.2 hk
  rw [hbuf,hsum,Rx.store_crc,(Rx.store_same ..).2.2.2.2] at hgood
  exact hgood

/-- Full ACKs are of verified blobs exactly in runs where no chunk completes a wrong one. -/
theorem full_ack_verified_iff (cfg : Config) (ice : Bool) (cs : List Call) :
    (AcksVerified cfg ice cs ∧ BlocksComeAgain cfg ice cs ∧ SenderRestarts cfg ice cs) ↔
      ∀ pre c,pre++[c] <+: cs → ∀ src,¬ CompletesWrong (runCalls cfg ice pre) src c := by
  constructor
  · rintro ⟨hacks,-,-⟩ pre c hpre src hwrong
    obtain ⟨p,hp,id,k,hbody,hfrom,hnot⟩ := not_ackVerified_of_completesWrong hwrong
    obtain ⟨src',hfrom',hver⟩ := hacks pre c hpre p hp id k hbody
    rw [hfrom] at hfrom'
    cases hfrom'
    exact hnot hver
  · intro h
    refine ⟨fun pre c hpre p hp id k hbody => ?_,fun src pre c post hpre hfail => ?_,
      fun src pre c hpre hfail => ?_⟩
    · obtain ⟨src,hsrc⟩ := callAct_ack hp hbody
      have hsound : ReceiveSound cfg ice src pre := receiveSound_run fun pre' d hd =>
        h pre' d (hd.trans ((prefix_append pre [c]).trans hpre)) src
      exact ⟨src,hsrc,(hsound.step (h pre c hpre src)).2 hsrc p hp id k hbody⟩
    · exact absurd hfail.1 (h pre c ((prefix_append _ post).trans hpre) src)
    · exact absurd hfail.1 (h pre c hpre src)

def twoBlocks : List UInt8 := List.replicate chunkMax 0++[1]

def wrongBlockCalls : List Call :=
  [.setLink true false none,.recv 1 ⟨0,.begin .load 0 1 twoBlocks.length (protoChecksum twoBlocks)⟩,
    .recv 2 ⟨0,.chunk 1 0 (List.replicate chunkMax 9)⟩]

def twoBlocksHost : Session :=
  runCalls (pairCfg false) false [.setLink true false none,.begin 1 .load 0 twoBlocks]

theorem wrong_block_acked :
    let s:=runCalls (pairCfg true) false wrongBlockCalls
    let last : Call := .recv 3 ⟨0,.chunk 1 chunkMax [1]⟩
    let again : Call := .recv 4 ⟨0,.chunk 1 0 (List.replicate chunkMax 0)⟩
    CompletesWrong s 0 last ∧ (callAct s last).2.1.map (·.body)=[.ack 1 1121,.ack 1 0] ∧
      ((callAct s last).1.rx 0).any (fun rx => protoChecksum rx.buf≠rx.crc)=true ∧
      ((callAct (callAct s last).1 again).1.rx 0).map Rx.ready=some true ∧
      ((callAct s last).2.1.foldl (fun t p => (callAct t (.recv 5 p)).1) twoBlocksHost).tx.map
        (fun tx => (tx.xferId,tx.total,tx.ack 1,tx.ready))=some (1,1121,1121,true) := by
  refine ⟨?_,by decide +kernel,by decide +kernel,by decide +kernel,by decide +kernel⟩
  have hsome : ((runCalls (pairCfg true) false wrongBlockCalls).rx 0).isSome=true := by
    decide +kernel
  obtain ⟨rx,hx⟩ := Option.isSome_iff_exists.mp hsome
  have hfacts : ((runCalls (pairCfg true) false wrongBlockCalls).rx 0).any (fun rx =>
      rx.xferId=1 ∧ rx.total=1121 ∧ rx.bits 0=true ∧
        protoChecksum (Chunks.write rx.buf chunkMax [1])≠rx.crc)=true := by
    decide +kernel
  rw [hx] at hfacts
  obtain ⟨hid,htotal,hbit,hcrc⟩ := of_decide_eq_true hfacts
  have hpeer : (runCalls (pairCfg true) false wrongBlockCalls).rbPeerSlot=none := by
    decide +kernel
  have hother : 0≠(runCalls (pairCfg true) false wrongBlockCalls).wireSlot := by decide +kernel
  refine ⟨chunkMax,[1],rx,⟨rfl,?_,by decide,hother,rfl,rfl,rx,hx,hid,?_⟩,hx,?_,hcrc⟩
  · rw [Filtered,hpeer]
    exact Bool.false_ne_true
  · refine ⟨?_,cons_ne_nil _ _,?_⟩ <;> rw [htotal] <;> decide
  · intro i hi
    rw [htotal] at hi
    unfold chunkMax at hi
    rcases Nat.lt_or_ge i 1 with hlt | hge
    · cases Nat.lt_one_iff.mp hlt
      exact .inl hbit
    · exact .inr (by unfold chunkMax; omega)

end RecompNet.StateSync
