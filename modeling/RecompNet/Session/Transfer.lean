import RecompNet.Session.StateSync

/-!
# One transfer at each end

What a sender emits and keeps, and what a receiver keeps of the chunks it stored.
-/
namespace RecompNet.StateSync
open Function List

def Body.isTransfer : Body → Bool
  | .begin .. | .chunk .. | .ack .. => true
  | _ => false

theorem mem_defaultReceivers {s : Session} {op : StateOp} {r : ℕ}
    (h : r∈defaultReceivers s op) : op=.memcard ∧ r=0 ∨
      op≠.memcard ∧ r≠s.cfg.localSlot ∧ r<s.cfg.slotCount := by
  unfold defaultReceivers at h
  split at h
  · next hop => exact Or.inl ⟨hop,Finset.mem_singleton.mp h⟩
  next hop =>
  refine Or.inr ⟨hop,?_⟩
  split at h
  · split at h
    · next hc =>
      obtain rfl := Finset.mem_singleton.mp h
      exact ⟨hc.2.1,Config.lt_slotCount_of_occupied hc.2.2⟩
    · cases h
  · obtain ⟨-,hne,hocc⟩ := Finset.mem_filter.mp h
    exact ⟨hne,Config.lt_slotCount_of_occupied hocc⟩

def Aligned (n total : ℕ) : Prop := n%chunkMax=0 ∨ n=total
theorem aligned_zero (total : ℕ) : Aligned 0 total := Or.inl (Nat.zero_mod _)
theorem aligned_self (total : ℕ) : Aligned total total := Or.inr rfl

theorem aligned_min {a b total : ℕ} (ha : Aligned a total) (hb : Aligned b total) :
    Aligned (min a b) total := by
  rcases min_choice a b with h | h <;> rw [h] <;> assumption

theorem aligned_max {a b total : ℕ} (ha : Aligned a total) (hb : Aligned b total) :
    Aligned (max a b) total := by
  rcases max_choice a b with h | h <;> rw [h] <;> assumption

namespace Tx

structure Same (tx tx' : Tx) : Prop where
  op : tx'.op=tx.op
  slot : tx'.slot=tx.slot
  xferId : tx'.xferId=tx.xferId
  crc : tx'.crc=tx.crc
  buf : tx'.buf=tx.buf
  expect : tx'.expect=tx.expect
  ack : tx'.ack=tx.ack

variable {tx tx' : Tx} {pac : Pacing}
theorem Same.refl : Same tx tx := ⟨rfl,rfl,rfl,rfl,rfl,rfl,rfl⟩

section
variable (h : Same tx tx')
include h
theorem Same.trans {tx'' : Tx} (h' : Same tx' tx'') : Same tx tx'' :=
  ⟨h'.op.trans h.op,h'.slot.trans h.slot,h'.xferId.trans h.xferId,h'.crc.trans h.crc,
    h'.buf.trans h.buf,h'.expect.trans h.expect,h'.ack.trans h.ack⟩

theorem Same.total : tx'.total=tx.total := congrArg List.length h.buf
theorem Same.minAck : tx'.minAck=tx.minAck := by
  simp only [Tx.minAck,h.expect,h.ack,h.total]
theorem Same.complete : tx'.complete=tx.complete := by
  simp only [Tx.complete,h.total,h.minAck]
theorem Same.beginBody : tx'.beginBody=tx.beginBody := by
  simp only [Tx.beginBody,h.op,h.slot,h.xferId,h.total,h.crc]

end

theorem minAck_foldl (tx : Tx) (l : List ℕ) (m : ℕ) :
    let r:=l.foldl (fun m r => if r∈tx.expect ∧ tx.ack r < m then tx.ack r else m) m
    r ≤ m ∧ (∀ q∈l,q∈tx.expect → r≤tx.ack q) ∧ (r=m ∨ ∃ q∈l,q∈tx.expect ∧ r=tx.ack q) := by
  induction l generalizing m with
  | nil => simp
  | cons q l ih =>
    simp only [foldl_cons]
    by_cases hc : q∈tx.expect ∧ tx.ack q < m
    · rw [if_pos hc]
      obtain ⟨hle,hall,hval⟩ := ih (tx.ack q)
      refine ⟨hle.trans hc.2.le,?_,?_⟩
      · intro p hp hpe
        rcases mem_cons.mp hp with rfl | hp
        · exact hle
        · exact hall p hp hpe
      · rcases hval with h | ⟨p,hp,hpe,hr⟩
        · exact Or.inr ⟨q,mem_cons_self,hc.1,h⟩
        · exact Or.inr ⟨p,mem_cons_of_mem _ hp,hpe,hr⟩
    · rw [if_neg hc]
      obtain ⟨hle,hall,hval⟩ := ih m
      refine ⟨hle,?_,hval.imp id fun ⟨p,hp,hpe,hr⟩ => ⟨p,mem_cons_of_mem _ hp,hpe,hr⟩⟩
      intro p hp hpe
      rcases mem_cons.mp hp with rfl | hp
      · exact hle.trans (not_lt.mp fun h => hc ⟨hpe,h⟩)
      · exact hall p hp hpe

theorem minAck_le_ack {r : ℕ} (hr : r < maxSlots) (he : r∈tx.expect) : tx.minAck≤tx.ack r :=
  (minAck_foldl tx (List.range maxSlots) tx.total).2.1 r (mem_range.mpr hr) he

theorem minAck_cases (tx : Tx) : tx.minAck=tx.total ∨ ∃ r∈tx.expect,tx.minAck=tx.ack r :=
  (minAck_foldl tx (List.range maxSlots) tx.total).2.2.imp id
    fun ⟨r,_,he,hr⟩ => ⟨r,he,hr⟩

theorem markReady_same (pac : Pacing) (tx : Tx) : Same tx (tx.markReady pac).2 := by
  unfold markReady
  split <;> exact ⟨rfl,rfl,rfl,rfl,rfl,rfl,rfl⟩

theorem markReady_ready (h : (tx.markReady pac).2.ready) : tx.ready ∨ tx.complete := by
  unfold markReady at h
  split at h
  · next hc => exact Or.inr (by simp only [Bool.and_eq_true] at hc; exact hc.2)
  · exact Or.inl h

variable (pac)
theorem markReady_cursor (tx : Tx) : (tx.markReady pac).2.sendCursor=tx.sendCursor := by
  unfold markReady
  split <;> rfl

structure Rewound (tx tx' : Tx) : Prop where
  same : Same tx tx'
  ready : tx'.ready=tx.ready
  cursor : tx'.sendCursor=tx.sendCursor ∨ ∃ r∈tx.expect,tx'.sendCursor=tx.ack r

theorem Rewound.refl : Rewound tx tx := ⟨.refl,rfl,Or.inl rfl⟩

theorem Rewound.trans {tx'' : Tx} (h : Rewound tx tx') (h' : Rewound tx' tx'') :
    Rewound tx tx'' where
  same := h.same.trans h'.same
  ready := h'.ready.trans h.ready
  cursor := by
    rcases h'.cursor with hc | ⟨r,hr,hc⟩
    · rw [hc]
      exact h.cursor
    · exact Or.inr ⟨r,h.same.expect ▸ hr,by rw [hc,h.same.ack]⟩

theorem pacingOnTimeout_rewound (tx : Tx) : Rewound tx (pacingOnTimeout pac tx).2 := by
  unfold pacingOnTimeout
  split <;> exact ⟨⟨rfl,rfl,rfl,rfl,rfl,rfl,rfl⟩,rfl,Or.inl rfl⟩

theorem ackTimeout_rewound (now timeout minAck : ℕ) (acc : Tx × Bool) (r : ℕ) :
    Rewound acc.1 (ackTimeout now timeout minAck acc r).1 := by
  unfold ackTimeout
  dsimp only
  split
  · exact .refl
  next hc =>
  refine ⟨⟨rfl,rfl,rfl,rfl,rfl,rfl,rfl⟩,rfl,?_⟩
  simp only [not_or,not_not] at hc
  rcases min_choice acc.1.sendCursor (acc.1.ack r) with h | h
  · exact Or.inl h
  · exact Or.inr ⟨r,hc.1,h⟩

theorem foldl_ackTimeout_rewound (now timeout minAck : ℕ) (l : List ℕ) (acc : Tx × Bool) :
    Rewound acc.1 (l.foldl (ackTimeout now timeout minAck) acc).1 := by
  induction l generalizing acc with
  | nil => exact .refl
  | cons r l ih => exact (ackTimeout_rewound now timeout minAck acc r).trans (ih _)

variable (now : ℕ)
theorem rewind_rewound (pac : Pacing) (tx : Tx) : Rewound tx (tx.rewind now pac).2 := by
  have h : ∀ timeout,Rewound tx (tx.ackTimeouts now timeout).1 :=
    fun timeout => foldl_ackTimeout_rewound now timeout tx.minAck _ (tx,false)
  simp only [rewind]
  generalize (if tx.ackTimeoutMs=0 then (if pac.ice then 80 else 40) else tx.ackTimeoutMs)=t
  split
  · exact (h t).trans (pacingOnTimeout_rewound _ _)
  · simpa only using h t

theorem sendChunks_spec (tx : Tx) {windowEnd : ℕ} (hend : windowEnd≤tx.total) (fuel : ℕ)
    {cursor : ℕ} (hcur : Aligned cursor tx.total) :
    Aligned (tx.sendChunks windowEnd fuel cursor).2 tx.total ∧
      ∀ b∈(tx.sendChunks windowEnd fuel cursor).1,∃ off,off%chunkMax=0 ∧
        off<tx.total ∧ b=.chunk tx.xferId off (Chunks.piece chunkMax tx.buf off) := by
  induction fuel generalizing cursor with
  | zero => exact ⟨hcur,by simp [sendChunks]⟩
  | succ fuel ih =>
    rw [sendChunks]
    by_cases hlt : cursor<windowEnd
    · rw [if_pos hlt]
      have hmod : cursor%chunkMax=0 := by
        rcases hcur with h | h
        · exact h
        · omega
      have hlen:=Chunks.piece_length chunkMax tx.buf cursor
      have hnext : Aligned (cursor+(Chunks.piece chunkMax tx.buf cursor).length) tx.total := by
        rw [hlen]
        unfold Aligned Tx.total at *
        unfold chunkMax at *
        omega
      obtain ⟨hal,hmem⟩ := ih hnext
      refine ⟨hal,fun b hb => ?_⟩
      rcases mem_cons.mp hb with rfl | hb
      · exact ⟨cursor,hmod,by omega,rfl⟩
      · exact hmem b hb
    · rw [if_neg hlt]
      exact ⟨hcur,by simp⟩

theorem sendChunks_transfer (tx : Tx) (windowEnd fuel cursor : ℕ) :
    ∀ b∈(tx.sendChunks windowEnd fuel cursor).1,b.isTransfer := by
  induction fuel generalizing cursor with
  | zero => exact forall_mem_nil _
  | succ fuel ih =>
    rw [sendChunks]
    split
    · exact forall_mem_cons.mpr ⟨rfl,ih _⟩
    · exact forall_mem_nil _

structure AlignedTx (tx : Tx) : Prop where
  ack : ∀ r∈tx.expect,Aligned (tx.ack r) tx.total
  cursor : Aligned tx.sendCursor tx.total

theorem AlignedTx.minAck (h : AlignedTx tx) : Aligned tx.minAck tx.total := by
  rcases minAck_cases tx with hm | ⟨r,hr,hm⟩ <;> rw [hm]
  · exact aligned_self _
  · exact h.ack r hr

theorem AlignedTx.same (h : AlignedTx tx) (hs : Same tx tx')
    (hc : Aligned tx'.sendCursor tx.total) : AlignedTx tx' where
  ack r hr := by
    rw [hs.ack,hs.total]
    exact h.ack r (hs.expect ▸ hr)
  cursor := by
    rw [hs.total]
    exact hc

theorem AlignedTx.rewound (h : AlignedTx tx) (hr : Rewound tx tx') : AlignedTx tx' := by
  refine h.same hr.same ?_
  rcases hr.cursor with hc | ⟨r,hmem,hc⟩ <;> rw [hc]
  · exact h.cursor
  · exact h.ack r hmem

def Emits (tx : Tx) (b : Body) : Prop := b=tx.beginBody ∨ ∃ off,off%chunkMax=0 ∧ off<tx.total ∧
    b=.chunk tx.xferId off (Chunks.piece chunkMax tx.buf off)

theorem Emits.of_same (h : Same tx tx') {b : Body} (hb : Emits tx' b) : Emits tx b := by
  unfold Emits at *
  rwa [h.beginBody,h.total,h.xferId,h.buf] at hb

structure Drives (tx : Tx) (r : Tx × List Body) : Prop where
  same : Same tx r.1
  ready : r.1.ready → tx.ready ∨ tx.complete
  aligned : AlignedTx tx → AlignedTx r.1
  bodies : AlignedTx tx → ∀ b∈r.2,Emits tx b
  transfer : ∀ b∈r.2,b.isTransfer

theorem driveWindow_drives (tx : Tx) : Drives tx tx.driveWindow where
  same := ⟨rfl,rfl,rfl,rfl,rfl,rfl,rfl⟩
  ready h := Or.inl h
  aligned h := by
    have hs:=sendChunks_spec tx (min_le_right (tx.minAck+tx.cwnd) tx.total) tx.chunksCap
      (aligned_max h.cursor h.minAck)
    exact ⟨h.ack,hs.1⟩
  bodies h b hb := by
    have hs:=sendChunks_spec tx (min_le_right (tx.minAck+tx.cwnd) tx.total) tx.chunksCap
      (aligned_max h.cursor h.minAck)
    exact Or.inr (hs.2 b hb)
  transfer := sendChunks_transfer _ _ _ _

theorem pacingReset_rewound (tx : Tx) : Rewound tx (pacingReset pac tx) := by
  unfold pacingReset
  split <;> exact ⟨⟨rfl,rfl,rfl,rfl,rfl,rfl,rfl⟩,rfl,Or.inl rfl⟩

theorem Rewound.drives (h : Rewound tx tx') {out : List Body}
    (hout : ∀ b∈out,b=tx.beginBody) : Drives tx (tx',out) where
  same := h.same
  ready hr := Or.inl (h.ready ▸ hr)
  aligned ha := ha.rewound h
  bodies _ b hb := Or.inl (hout b hb)
  transfer b hb := by
    rw [hout b hb]
    rfl

theorem driveBegin_drives (pac : Pacing) (tx : Tx) : Drives tx (tx.driveBegin now pac) := by
  have h : Rewound tx (if tx.cwnd=0 ∨ tx.chunksCap=0 then pacingReset pac tx else tx) := by
    split
    · exact pacingReset_rewound pac tx
    · exact .refl
  simp only [driveBegin]
  generalize (if tx.cwnd=0 ∨ tx.chunksCap=0 then pacingReset pac tx else tx)=tx₁ at h
  split
  · have h₂ : Rewound tx₁ { tx₁ with lastBeginMs := now } :=
      ⟨⟨rfl,rfl,rfl,rfl,rfl,rfl,rfl⟩,rfl,Or.inl rfl⟩
    refine (h.trans h₂).drives fun b hb => ?_
    rw [mem_singleton.mp hb,h.same.beginBody]
  · exact h.drives (by simp)

theorem markReady_drives (tx : Tx) : Drives tx ((tx.markReady pac).2,[]) where
  same := markReady_same pac tx
  ready := markReady_ready
  aligned h := h.same (markReady_same pac tx) (by
    rw [markReady_cursor]
    exact h.cursor)
  bodies _ b hb := by cases hb
  transfer b hb := by cases hb

theorem Drives.trans {r r' : Tx × List Body} (h : Drives tx r) (h' : Drives r.1 r') :
    Drives tx (r'.1,r.2++r'.2) where
  same := h.same.trans h'.same
  ready hr := by
    rcases h'.ready hr with hr | hc
    · exact h.ready hr
    · exact Or.inr (h.same.complete ▸ hc)
  aligned ha := h'.aligned (h.aligned ha)
  bodies ha b hb := by
    rcases mem_append.mp hb with hb | hb
    · exact h.bodies ha b hb
    · exact (h'.bodies (h.aligned ha) b hb).of_same h.same
  transfer b hb := by
    rcases mem_append.mp hb with hb | hb
    · exact h.transfer b hb
    · exact h'.transfer b hb

theorem drive_drives (pac : Pacing) (tx : Tx) : Drives tx (tx.drive now pac).2 := by
  have hbegin:=driveBegin_drives now pac tx
  unfold drive
  split
  · exact Rewound.refl.drives (by simp)
  dsimp only
  split
  · have h:=hbegin.trans (markReady_drives pac (tx.driveBegin now pac).1)
    rwa [append_nil] at h
  have hrewind:=Rewound.drives (rewind_rewound now pac (tx.driveBegin now pac).1) (forall_mem_nil _)
  have h:=((hbegin.trans hrewind).trans (driveWindow_drives _)).trans
    (markReady_drives ((tx.driveBegin now pac).1.rewind now pac).1 _)
  simpa only [append_nil] using h

def acked (tx : Tx) (src ackBytes : ℕ) : Tx :=
  { tx with ack := update tx.ack src (max (tx.ack src) (min ackBytes tx.total)) }

theorem pacingOnAckProgress_rewound (tx : Tx) : Rewound tx (pacingOnAckProgress pac tx) := by
  unfold pacingOnAckProgress
  split <;> exact ⟨⟨rfl,rfl,rfl,rfl,rfl,rfl,rfl⟩,rfl,Or.inl rfl⟩

variable {pac}
theorem raiseAck_rewound (pac : Pacing) (tx : Tx) (src ackBytes : ℕ) :
    Rewound (tx.acked src ackBytes) (tx.raiseAck now pac src ackBytes) := by
  simp only [raiseAck]
  by_cases hlt : tx.ack src < min ackBytes tx.total
  · rw [if_pos hlt]
    set tx':={ tx with
      ack := update tx.ack src (min ackBytes tx.total)
      ackTimerMs := update tx.ackTimerMs src (max now 1) } with htx'
    have hstart : Rewound (tx.acked src ackBytes) tx' := by
      refine ⟨⟨rfl,rfl,rfl,rfl,rfl,rfl,?_⟩,rfl,Or.inl rfl⟩
      simp only [acked,htx',max_eq_right hlt.le]
    split
    · exact hstart.trans (pacingOnAckProgress_rewound pac tx')
    · exact hstart
  · rw [if_neg hlt]
    refine ⟨⟨rfl,rfl,rfl,rfl,rfl,rfl,?_⟩,rfl,Or.inl rfl⟩
    simp only [acked,max_eq_left (not_lt.mp hlt),update_eq_self]

theorem onAck_drives (pac : Pacing) (tx : Tx) (src ackBytes : ℕ) :
    Drives (tx.acked src ackBytes) ((tx.onAck now pac src ackBytes).2,[]) :=
  ((raiseAck_rewound now pac tx src ackBytes).drives (forall_mem_nil _)).trans
    (markReady_drives pac _)

end Tx

namespace Rx
variable {rx : Rx} {blob : List UInt8}
theorem contiguousFrom_spec (rx : Rx) (fuel i contiguity : ℕ) (hi : ∀ c < i,rx.bits c)
    (hal : Aligned contiguity rx.total) (hbelow : ∀ c,c*chunkMax<contiguity → rx.bits c) :
    Aligned (rx.contiguousFrom fuel i contiguity) rx.total ∧
      ∀ c,c*chunkMax < rx.contiguousFrom fuel i contiguity → rx.bits c := by
  induction fuel generalizing i contiguity with
  | zero => exact ⟨hal,hbelow⟩
  | succ fuel ih =>
    rw [contiguousFrom]
    by_cases hc : rx.hasChunk i
    · rw [if_pos hc]
      have hbit : rx.bits i := by
        simp only [hasChunk,Bool.and_eq_true] at hc
        exact hc.2
      have hnext : ∀ c < i+1,rx.bits c := by
        intro c hlt
        rcases Nat.lt_succ_iff_lt_or_eq.mp hlt with h | rfl
        · exact hi c h
        · exact hbit
      refine ih (i+1) _ hnext ?_ ?_
      · exact aligned_min (Or.inl (Nat.mul_mod_left _ _)) (aligned_self _)
      · intro c hlt
        have hmul : c*chunkMax<(i+1)*chunkMax := lt_of_lt_of_le hlt (min_le_left _ _)
        exact hnext c (Nat.lt_of_mul_lt_mul_right hmul)
    · rw [if_neg hc]
      exact ⟨hal,hbelow⟩

theorem setChunk_bits (rx : Rx) (index : ℕ) :
    rx.setChunk index={ rx with bits := (rx.setChunk index).bits } ∧
      (∀ c,rx.bits c → (rx.setChunk index).bits c) ∧
      ∀ c,(rx.setChunk index).bits c → rx.bits c ∨ c=index := by
  unfold setChunk
  split
  · exact ⟨rfl,fun _ h => h,fun _ h => Or.inl h⟩
  refine ⟨rfl,fun c hc => ?_,fun c hc => ?_⟩ <;> by_cases hci : c=index
  · simp [hci]
  · simpa [update_of_ne hci] using hc
  · exact Or.inr hci
  · exact Or.inl (by simpa [update_of_ne hci] using hc)

theorem store_same (rx : Rx) (off : ℕ) (data : List UInt8) :
    (rx.store off data).op=rx.op ∧ (rx.store off data).slot=rx.slot ∧
      (rx.store off data).xferId=rx.xferId ∧ (rx.store off data).ready=rx.ready ∧
      (rx.store off data).buf=Chunks.write rx.buf off data := by
  unfold store
  rw [(setChunk_bits _ _).1]
  exact ⟨rfl,rfl,rfl,rfl,rfl⟩

theorem onChunk_transfer (now : ℕ) (ice : Bool) (rx : Rx) (off : ℕ) (data : List UInt8) :
    ∀ b∈(rx.onChunk now ice off data).2.1,b.isTransfer := by
  have hmark : ∀ rx : Rx,∀ b∈(rx.markReady now).2.1,b.isTransfer := by
    intro rx
    unfold markReady
    split
    · exact forall_mem_nil _
    · split <;> exact forall_mem_singleton.mpr rfl
  unfold onChunk
  split
  · exact forall_mem_nil _
  dsimp only
  split
  · exact forall_mem_cons.mpr ⟨rfl,hmark _⟩
  · exact hmark _

end Rx
end RecompNet.StateSync
