import RecompNet.Session.Transfer

/-!
# The pacing of a transfer

Congestion window, chunk budget and ACK timeout of an outbound transfer over any sequence of ACKs,
pumps and dropped seats, and where a pump sends from and to.
-/
namespace RecompNet.StateSync
open List Tx Chunks Function

/-- The bounds of the transport, and a cursor and watermarks within the blob. -/
structure Tx.Paced (ice : Bool) (tx : Tx) : Prop where
  cwnd : (if ice then 8*1024 else 256*1024)≤tx.cwnd ∧ tx.cwnd≤256*1024
  chunks : (if ice then 4 else 128)≤tx.chunksCap ∧ tx.chunksCap ≤ if ice then 64 else 128
  timeout : 40≤tx.ackTimeoutMs ∧ tx.ackTimeoutMs ≤ if ice then 180 else 40
  cursor : tx.sendCursor≤tx.total
  acks : ∀ r,tx.ack r≤tx.total

namespace Tx
variable {tx tx' : Tx} {pac : Pacing} {now r : ℕ}

structure Slower (tx tx' : Tx) : Prop where
  same : Same tx tx'
  cwnd : tx'.cwnd=tx.cwnd
  chunks : tx'.chunksCap=tx.chunksCap
  timeout : tx'.ackTimeoutMs=tx.ackTimeoutMs
  cursor : tx'.sendCursor≤tx.sendCursor

theorem Slower.refl (tx : Tx) : Slower tx tx := ⟨.refl,rfl,rfl,rfl,le_rfl⟩

theorem Slower.trans {tx'' : Tx} (h : Slower tx tx') (h' : Slower tx' tx'') : Slower tx tx'' :=
  ⟨h.same.trans h'.same,h'.cwnd.trans h.cwnd,h'.chunks.trans h.chunks,
    h'.timeout.trans h.timeout,h'.cursor.trans h.cursor⟩

variable {ice : Bool}
theorem Paced.slower (h : Paced ice tx) (hs : Slower tx tx') : Paced ice tx' where
  cwnd := by rw [hs.cwnd]; exact h.cwnd
  chunks := by rw [hs.chunks]; exact h.chunks
  timeout := by rw [hs.timeout]; exact h.timeout
  cursor := by rw [hs.same.total]; exact hs.cursor.trans h.cursor
  acks r := by rw [hs.same.total,hs.same.ack]; exact h.acks r

theorem paced_reset (hcursor : tx.sendCursor≤tx.total) (hacks : ∀ r,tx.ack r≤tx.total) :
    Paced pac.ice (pacingReset pac tx) := by
  unfold pacingReset
  cases hice : pac.ice
  · exact ⟨⟨le_rfl,le_rfl⟩,⟨le_rfl,le_rfl⟩,⟨le_rfl,le_rfl⟩,hcursor,hacks⟩
  · rw [if_pos rfl]
    refine ⟨?_,?_,?_,hcursor,hacks⟩ <;> simp only [if_true]
    · split <;> omega
    · split <;> omega
    · omega

theorem Paced.progress (h : Paced pac.ice tx) : Paced pac.ice (pacingOnAckProgress pac tx) := by
  obtain ⟨hw,hc,ht,hcursor,hacks⟩ := h
  unfold pacingOnAckProgress
  cases hice : pac.ice
  · rw [hice] at hw hc ht
    exact ⟨hw,hc,ht,hcursor,hacks⟩
  · simp only [hice,if_true] at hw hc ht
    refine ⟨?_,?_,?_,hcursor,hacks⟩ <;> simp only [if_true] <;> omega

theorem Paced.timedOut (h : Paced pac.ice tx) :
    (pacingOnTimeout pac tx).1.ice=pac.ice ∧ Paced pac.ice (pacingOnTimeout pac tx).2 := by
  obtain ⟨hw,hc,ht,hcursor,hacks⟩ := h
  unfold pacingOnTimeout
  cases hice : pac.ice
  · rw [hice] at hw hc ht
    exact ⟨hice,hw,hc,ht,hcursor,hacks⟩
  · simp only [hice,if_true] at hw hc ht
    refine ⟨rfl,?_,?_,?_,hcursor,hacks⟩ <;> simp only [if_true] <;> omega

theorem pacingOnTimeout_cursor (pac : Pacing) (tx : Tx) :
    (pacingOnTimeout pac tx).2.sendCursor=tx.sendCursor := by
  unfold pacingOnTimeout
  split <;> rfl

theorem markReady_slower (pac : Pacing) (tx : Tx) :
    (tx.markReady pac).1.ice=pac.ice ∧ Slower tx (tx.markReady pac).2 := by
  unfold markReady pacingRememberSuccess
  split
  · split <;> exact ⟨rfl,⟨rfl,rfl,rfl,rfl,rfl,rfl,rfl⟩,rfl,rfl,rfl,le_rfl⟩
  · exact ⟨rfl,.refl tx⟩

theorem Paced.markReady (h : Paced pac.ice tx) :
    (tx.markReady pac).1.ice=pac.ice ∧ Paced pac.ice (tx.markReady pac).2 :=
  ⟨(markReady_slower pac tx).1,h.slower (markReady_slower pac tx).2⟩

theorem Paced.onAck (h : Paced pac.ice tx) (now src ackBytes : ℕ) :
    (tx.onAck now pac src ackBytes).1.ice=pac.ice ∧
      Paced pac.ice (tx.onAck now pac src ackBytes).2 := by
  suffices hraise : Paced pac.ice (tx.raiseAck now pac src ackBytes) from hraise.markReady
  unfold raiseAck
  dsimp only
  split
  · have hraised : Paced pac.ice { tx with
        ack := update tx.ack src (min ackBytes tx.total)
        ackTimerMs := update tx.ackTimerMs src (max now 1) } := by
      refine { h with acks := fun r => ?_ }
      show update tx.ack src (min ackBytes tx.total) r≤tx.total
      rw [update_apply]
      split
      · exact min_le_right _ _
      · exact h.acks r
    split
    · exact hraised.progress
    · exact hraised
  · exact h

theorem Paced.drop (h : Paced ice tx) (slot : ℕ) :
    Paced ice { tx with expect := tx.expect.erase slot } :=
  { h with }

theorem ackTimeout_slower (now timeout minAck : ℕ) (acc : Tx × Bool) (r : ℕ) :
    Slower acc.1 (ackTimeout now timeout minAck acc r).1 := by
  unfold ackTimeout
  dsimp only
  split
  · exact .refl _
  · exact ⟨⟨rfl,rfl,rfl,rfl,rfl,rfl,rfl⟩,rfl,rfl,rfl,min_le_left _ _⟩

theorem foldl_ackTimeout_slower (now timeout minAck : ℕ) (l : List ℕ) (acc : Tx × Bool) :
    Slower acc.1 (l.foldl (ackTimeout now timeout minAck) acc).1 := by
  induction l generalizing acc with
  | nil => exact .refl _
  | cons r l ih => exact (ackTimeout_slower now timeout minAck acc r).trans (ih _)

theorem ackTimeouts_slower (now timeout : ℕ) (tx : Tx) : Slower tx (tx.ackTimeouts now timeout).1 :=
  foldl_ackTimeout_slower now timeout tx.minAck (List.range maxSlots) (tx,false)

theorem foldl_ackTimeout_cursor (timeout minAck : ℕ) (l : List ℕ) (acc : Tx × Bool)
    (hr : r∈l) (hexpect : r∈acc.1.expect) (hack : acc.1.ack r<acc.1.total)
    (hbase : timeout≤now-acc.1.ackBase r) :
    (l.foldl (ackTimeout now timeout minAck) acc).1.sendCursor≤acc.1.ack r := by
  induction l generalizing acc with
  | nil => cases hr
  | cons r' l ih =>
    have hrest:=foldl_ackTimeout_slower now timeout minAck l (ackTimeout now timeout minAck acc r')
    have hstep:=ackTimeout_slower now timeout minAck acc r'
    rw [foldl_cons]
    by_cases hrr : r'=r
    · subst hrr
      refine hrest.cursor.trans ?_
      unfold ackTimeout
      dsimp only
      rw [if_neg (by simp only [not_or,not_not]; exact ⟨hexpect,not_le.mpr hack,not_lt.mpr hbase⟩)]
      exact min_le_right _ _
    · have htimer : (ackTimeout now timeout minAck acc r').1.ackBase r=acc.1.ackBase r := by
        unfold ackTimeout
        dsimp only
        split
        · rfl
        unfold ackBase
        dsimp only
        simp only [update_of_ne (Ne.symm hrr)]
      have hmem : r∈l := (mem_cons.mp hr).resolve_left (Ne.symm hrr)
      have hcursor:=ih (ackTimeout now timeout minAck acc r') hmem
        (by rw [hstep.same.expect]; exact hexpect)
        (by rw [hstep.same.ack,hstep.same.total]; exact hack) (by rw [htimer]; exact hbase)
      rwa [hstep.same.ack] at hcursor

theorem Paced.rewind (h : Paced pac.ice tx) (now : ℕ) :
    (tx.rewind now pac).1.ice=pac.ice ∧ Paced pac.ice (tx.rewind now pac).2 := by
  unfold Tx.rewind
  dsimp only
  generalize (if tx.ackTimeoutMs=0 then (if pac.ice then 80 else 40) else tx.ackTimeoutMs)=t
  have hslow:=ackTimeouts_slower now t tx
  generalize tx.ackTimeouts now t=b at hslow ⊢
  cases b.2
  · exact ⟨rfl,h.slower hslow⟩
  · exact (h.slower hslow).timedOut

theorem rewind_cursor_le (now : ℕ) (pac : Pacing) (tx : Tx) :
    (tx.rewind now pac).2.sendCursor≤tx.sendCursor := by
  unfold rewind
  dsimp only
  generalize (if tx.ackTimeoutMs=0 then (if pac.ice then 80 else 40) else tx.ackTimeoutMs)=t
  have hslow:=ackTimeouts_slower now t tx
  generalize tx.ackTimeouts now t=b at hslow ⊢
  split
  · rw [pacingOnTimeout_cursor]
    exact hslow.cursor
  · exact hslow.cursor

theorem Paced.rewind_cursor (h : Paced pac.ice tx) (now : ℕ) (hr : r < maxSlots)
    (hexpect : r∈tx.expect) (hack : tx.ack r<tx.total)
    (hbase : tx.ackTimeoutMs≤now-tx.ackBase r) : (tx.rewind now pac).2.sendCursor≤tx.ack r := by
  have htimeout : tx.ackTimeoutMs≠0 := by
    have := h.timeout.1
    omega
  have hcursor : (tx.ackTimeouts now tx.ackTimeoutMs).1.sendCursor≤tx.ack r := by
    unfold ackTimeouts
    exact foldl_ackTimeout_cursor tx.ackTimeoutMs tx.minAck (List.range maxSlots) (tx,false)
      (mem_range.mpr hr) hexpect hack hbase
  unfold Tx.rewind
  dsimp only
  rw [if_neg htimeout]
  generalize tx.ackTimeouts now tx.ackTimeoutMs=b at hcursor ⊢
  split
  · rw [pacingOnTimeout_cursor]
    exact hcursor
  · exact hcursor

variable {cursor : ℕ}
theorem sendChunks_window (tx : Tx) (windowEnd fuel : ℕ) (hcursor : cursor≤tx.total) :
    (tx.sendChunks windowEnd fuel cursor).2≤tx.total ∧
      ∀ id off data,.chunk id off data∈(tx.sendChunks windowEnd fuel cursor).1 →
        off<windowEnd ∧ data=Chunks.piece chunkMax tx.buf off := by
  induction fuel generalizing cursor with
  | zero => exact ⟨hcursor,fun _ _ _ h => by cases h⟩
  | succ fuel ih =>
    rw [sendChunks]
    split
    · next hlt =>
      have hlen:=piece_length chunkMax tx.buf cursor
      have hnext : cursor+(piece chunkMax tx.buf cursor).length≤tx.total := by
        unfold total at hcursor ⊢
        omega
      obtain ⟨hle,hmem⟩ := ih hnext
      refine ⟨hle,fun id off data h => ?_⟩
      rcases mem_cons.mp h with heq | h
      · cases heq
        exact ⟨hlt,rfl⟩
      · exact hmem id off data h
    · exact ⟨hcursor,fun _ _ _ h => by cases h⟩

theorem sendChunks_covers (tx : Tx) (windowEnd fuel : ℕ) {b : ℕ} (hle : cursor≤b)
    (hlt : b<(tx.sendChunks windowEnd fuel cursor).2) :
    ∃ off data,.chunk tx.xferId off data∈(tx.sendChunks windowEnd fuel cursor).1 ∧
      off≤b ∧ b<off+data.length := by
  induction fuel generalizing cursor with
  | zero => exact absurd hlt (not_lt.mpr hle)
  | succ fuel ih =>
    rw [sendChunks] at hlt ⊢
    split at hlt
    · next hin =>
      rw [if_pos hin]
      by_cases hb : b<cursor+(piece chunkMax tx.buf cursor).length
      · exact ⟨cursor,_,mem_cons_self,hle,hb⟩
      · obtain ⟨off,data,hmem,hoff⟩ := ih (not_lt.mp hb) hlt
        exact ⟨off,data,mem_cons_of_mem _ hmem,hoff⟩
    · exact absurd hlt (not_lt.mpr hle)

variable {windowEnd fuel : ℕ}
theorem sendChunks_whole (tx : Tx) (hend : windowEnd≤tx.total) {k : ℕ}
    (hk : k<fuel) (hlt : cursor+k*chunkMax<windowEnd) : .chunk tx.xferId (cursor+k*chunkMax)
        (Chunks.piece chunkMax tx.buf (cursor+k*chunkMax)) ∈
      (tx.sendChunks windowEnd fuel cursor).1 := by
  induction k generalizing fuel cursor with
  | zero =>
    obtain ⟨fuel,rfl⟩ := Nat.exists_eq_succ_of_ne_zero (Nat.ne_of_gt hk)
    rw [Nat.zero_mul,Nat.add_zero] at hlt ⊢
    rw [sendChunks,if_pos hlt]
    exact mem_cons_self
  | succ k ih =>
    obtain ⟨fuel,rfl⟩ := Nat.exists_eq_succ_of_ne_zero (Nat.ne_of_gt (Nat.zero_lt_of_lt hk))
    have hlen : (piece chunkMax tx.buf cursor).length=chunkMax := by
      rw [piece_length]
      unfold total at hend
      rw [Nat.succ_mul] at hlt
      omega
    rw [sendChunks,if_pos (Nat.lt_of_le_of_lt (Nat.le_add_right _ _) hlt)]
    have hnext : cursor+(k+1)*chunkMax=cursor+chunkMax+k*chunkMax := by
      rw [Nat.succ_mul]
      omega
    rw [hnext] at hlt ⊢
    dsimp only
    rw [hlen]
    exact mem_cons_of_mem _ (ih (Nat.lt_of_succ_lt_succ hk) hlt)

theorem sendChunks_cursor (tx : Tx) (hend : windowEnd≤tx.total)
    (hlt : cursor+fuel*chunkMax≤windowEnd) :
    (tx.sendChunks windowEnd fuel cursor).2=cursor+fuel*chunkMax := by
  induction fuel generalizing cursor with
  | zero => simp [sendChunks]
  | succ fuel ih =>
    have hlen : (piece chunkMax tx.buf cursor).length=chunkMax := by
      rw [piece_length]
      unfold total at hend
      rw [Nat.succ_mul] at hlt
      omega
    have hpos : 0<chunkMax := by decide
    rw [Nat.succ_mul] at hlt ⊢
    rw [sendChunks,if_pos (by omega)]
    dsimp only
    rw [hlen,ih (by omega)]
    omega

theorem Paced.driveBegin (h : Paced pac.ice tx) (now : ℕ) :
    Slower tx (tx.driveBegin now pac).1 ∧ (tx.driveBegin now pac).1.ackTimerMs=tx.ackTimerMs ∧
      (tx.driveBegin now pac).1.startMs=tx.startMs ∧
      ∀ id off data,.chunk id off data∉(tx.driveBegin now pac).2 := by
  have hcwnd : ¬(tx.cwnd=0 ∨ tx.chunksCap=0) := by
    have hw:=h.cwnd.1
    have hc:=h.chunks.1
    split_ifs at hw hc <;> omega
  unfold Tx.driveBegin
  rw [if_neg hcwnd]
  dsimp only
  split
  · exact ⟨⟨⟨rfl,rfl,rfl,rfl,rfl,rfl,rfl⟩,rfl,rfl,rfl,le_rfl⟩,rfl,rfl,
      fun _ _ _ h => by cases mem_singleton.mp h⟩
  · exact ⟨.refl tx,rfl,rfl,fun _ _ _ h => by cases h⟩

def sendFrom (now : ℕ) (pac : Pacing) (tx : Tx) : ℕ :=
  let b:=((tx.driveBegin now pac).1.rewind now pac).2
  max b.sendCursor b.minAck

section
variable (h : Paced pac.ice tx)
include h
theorem minAck_le_total : tx.minAck≤tx.total := by
  rcases minAck_cases tx with hm | ⟨r,-,hm⟩ <;> rw [hm]
  exact h.acks r

theorem Paced.driveWindow : Paced pac.ice tx.driveWindow.1 :=
  ⟨h.cwnd,h.chunks,h.timeout,(sendChunks_window tx _ _
    (max_le h.cursor (minAck_le_total h))).1,h.acks⟩

theorem Paced.drive (now : ℕ) :
    (tx.drive now pac).1.ice=pac.ice ∧ Paced pac.ice (tx.drive now pac).2.1 := by
  have hbegin:=h.slower (h.driveBegin now).1
  unfold Tx.drive
  split
  · exact ⟨rfl,h⟩
  dsimp only
  split
  · exact hbegin.markReady
  obtain ⟨hice,hrewound⟩ := hbegin.rewind now
  generalize (tx.driveBegin now pac).1.rewind now pac=b at hice hrewound ⊢
  rw [← hice] at hrewound ⊢
  exact hrewound.driveWindow.markReady

theorem Paced.drive_window {id off : ℕ} {data : List UInt8}
    (hmem : .chunk id off data∈(tx.drive now pac).2.2) :
    off<tx.minAck+(tx.drive now pac).2.1.cwnd ∧ off+data.length≤tx.total ∧
      data.length ≤ chunkMax := by
  have hslow:=(h.driveBegin now).1
  have hno {out : List Body} (hb : .chunk id off data∈(tx.driveBegin now pac).2++out) :
      .chunk id off data∈out :=
    (mem_append.mp hb).resolve_left ((h.driveBegin now).2.2.2 id off data)
  unfold Tx.drive at hmem ⊢
  split at hmem
  · cases hmem
  next hready =>
  rw [if_neg hready]
  dsimp only at hmem ⊢
  split at hmem
  · exact absurd hmem ((h.driveBegin now).2.2.2 id off data)
  next hcomplete =>
  rw [if_neg hcomplete]
  have hrewound:=(h.slower hslow).rewind now
  have hsame:=rewind_rewound now pac (tx.driveBegin now pac).1
  generalize (tx.driveBegin now pac).1.rewind now pac=b at hmem hrewound hsame ⊢
  have hchunk:=hno hmem
  have hcursor : max b.2.sendCursor b.2.minAck≤b.2.total :=
    max_le hrewound.2.cursor (minAck_le_total hrewound.2)
  obtain ⟨hlt,rfl⟩ := (sendChunks_window b.2 _ _ hcursor).2 id off data hchunk
  have hminAck : b.2.minAck=tx.minAck := hsame.same.minAck.trans hslow.same.minAck
  have htotal : b.2.total=tx.total := hsame.same.total.trans hslow.same.total
  have hkept:=(markReady_slower b.1 b.2.driveWindow.1).2.cwnd
  have hlen:=piece_length chunkMax b.2.buf off
  rw [hkept]
  rw [hminAck,htotal] at hlt
  have htotal' : b.2.buf.length=tx.total := htotal
  refine ⟨(lt_min_iff.mp hlt).1,?_,?_⟩ <;> omega

theorem Paced.sendFrom_le (hr : r < maxSlots) (hexpect : r∈tx.expect)
    (hack : tx.ack r<tx.total) (hbase : tx.ackTimeoutMs≤now-tx.ackBase r) :
    tx.sendFrom now pac≤tx.ack r := by
  obtain ⟨hslow,htimer,hstart,-⟩ := h.driveBegin now
  have hsame:=hslow.same.trans (rewind_rewound now pac (tx.driveBegin now pac).1).same
  have hcursor:=(h.slower hslow).rewind_cursor now hr (by rwa [hslow.same.expect])
    (by rwa [hslow.same.ack,hslow.same.total])
    (by unfold ackBase; rw [hslow.timeout,htimer,hstart]; exact hbase)
  rw [hslow.same.ack] at hcursor
  refine max_le hcursor ?_
  rw [hsame.minAck]
  exact minAck_le_ack hr hexpect

theorem Paced.sendFrom_le_max (now : ℕ) : tx.sendFrom now pac ≤ max tx.sendCursor tx.minAck := by
  have hslow:=(h.driveBegin now).1
  have hsame:=hslow.same.trans (rewind_rewound now pac (tx.driveBegin now pac).1).same
  unfold sendFrom
  dsimp only
  rw [hsame.minAck]
  exact max_le_max_right _ ((rewind_cursor_le now pac _).trans hslow.cursor)

theorem Paced.drive_covers (hready : tx.ready=false) {b : ℕ}
    (hle : tx.sendFrom now pac≤b) (hlt : b<(tx.drive now pac).2.1.sendCursor) :
    ∃ id off data,.chunk id off data∈(tx.drive now pac).2.2 ∧ off≤b ∧ b<off+data.length := by
  have hslow:=(h.driveBegin now).1
  have hsame:=(rewind_rewound now pac (tx.driveBegin now pac).1).same
  unfold sendFrom at hle
  dsimp only at hle
  unfold Tx.drive at hlt ⊢
  rw [if_neg (by rw [hready]; decide)] at hlt ⊢
  dsimp only at hlt ⊢
  split at hlt
  · next hcomplete =>
    -- everything is acknowledged: the pump would start at the end
    have hend : (tx.driveBegin now pac).1.total≤(tx.driveBegin now pac).1.minAck :=
      of_decide_eq_true hcomplete
    rw [hsame.minAck] at hle
    have hcursor:=(h.slower hslow).cursor
    have hlt':=hlt.trans_le (markReady_slower pac (tx.driveBegin now pac).1).2.cursor
    exact absurd ((le_max_right _ _).trans hle) (not_le.mpr (hlt'.trans_le (hcursor.trans hend)))
  · next hcomplete =>
    rw [if_neg hcomplete]
    generalize (tx.driveBegin now pac).1.rewind now pac=r at hle hlt ⊢
    have hlt':=hlt.trans_le (markReady_slower r.1 r.2.driveWindow.1).2.cursor
    obtain ⟨off,data,hmem,hoff⟩ := sendChunks_covers r.2 _ _ hle hlt'
    exact ⟨r.2.xferId,off,data,mem_append_right _ hmem,hoff⟩

end

theorem Paced.drive_plain (pac : Pacing) (h : Paced pac.ice tx) (hready : tx.ready=false)
    (hbegin : tx.beginDue now pac=false) (hcomplete : tx.complete=false)
    (htimer : ∀ r,now-tx.ackBase r<tx.ackTimeoutMs) :
    tx.drive now pac=(pac,tx.driveWindow.1,tx.driveWindow.2) := by
  have hquiet (l : List ℕ) : l.foldl (ackTimeout now tx.ackTimeoutMs tx.minAck) (tx,false) =
      (tx,false) := by
    induction l with
    | nil => rfl
    | cons r l ih =>
      rw [foldl_cons,ackTimeout,if_pos (.inr (.inr (htimer r)))]
      exact ih
  have hcwnd : ¬(tx.cwnd=0 ∨ tx.chunksCap=0) := by
    have hw:=h.cwnd.1
    have hc:=h.chunks.1
    split_ifs at hw hc <;> omega
  have htimeout : tx.ackTimeoutMs≠0 := fun h0 => by
    have := h.timeout.1
    omega
  have hstart : tx.driveBegin now pac=(tx,[]) := by
    unfold Tx.driveBegin
    rw [if_neg hcwnd]
    dsimp only
    rw [if_neg (by rw [hbegin]; decide)]
  have hrewind : tx.rewind now pac=(pac,tx) := by
    unfold Tx.rewind ackTimeouts
    dsimp only
    rw [if_neg htimeout,hquiet]
    rfl
  have hsent : tx.driveWindow.1.complete=false := hcomplete
  unfold Tx.drive
  rw [if_neg (by rw [hready]; decide),hstart]
  dsimp only
  rw [if_neg (by rw [hcomplete]; decide),hrewind,Tx.markReady,hsent,Bool.and_false]
  rfl

theorem AlignedTx.onAck (h : AlignedTx tx) (now src : ℕ) {ackBytes : ℕ}
    (hack : Aligned ackBytes tx.total) : AlignedTx (tx.onAck now pac src ackBytes).2 := by
  refine (onAck_drives now pac tx src ackBytes).aligned ⟨fun r hr => ?_,h.cursor⟩
  show Aligned (update tx.ack src (max (tx.ack src) (min ackBytes tx.total)) r) tx.total
  rw [update_apply]
  split
  · next hrs =>
    exact aligned_max (h.ack src (hrs ▸ hr)) (aligned_min hack (aligned_self _))
  · exact h.ack r hr

end Tx

/-- ACKs, pumps and dropped seats. -/
def Call.Paces : Call → Prop
  | .recv _ ⟨_,.ack _ _⟩ => True
  | .drive _ => True
  | .dropPeer _ => True
  | _ => False

/-- An ACK is of whole chunks or of everything. -/
def Call.Whole (total : ℕ) : Call → Prop
  | .recv _ ⟨_,.ack _ ackBytes⟩ => Aligned ackBytes total
  | _ => True

def Sending (ice : Bool) (total : ℕ) (whole : Prop) (s : Session) : Prop :=
  s.pacing.ice=ice ∧ ∃ tx,s.tx=some tx ∧ tx.Paced ice ∧ tx.total=total ∧ (whole → tx.AlignedTx)

section Runs
variable {s : Session} {ice : Bool} {total : ℕ} {whole : Prop}
theorem Sending.congr {s' : Session} (h : Sending ice total whole s) (htx : s'.tx=s.tx)
    (hpacing : s'.pacing=s.pacing) : Sending ice total whole s' := by
  unfold Sending
  rwa [htx,hpacing]

theorem Sending.driveSender (h : Sending ice total whole s) (now : ℕ) :
    Sending ice total whole (driveSender now s).1 := by
  obtain ⟨rfl,tx,htx,hpaced,htotal,haligned⟩ := h
  unfold StateSync.driveSender
  rw [htx]
  have hdrives:=drive_drives now s.pacing tx
  exact ⟨(hpaced.drive now).1,_,rfl,(hpaced.drive now).2,hdrives.same.total.trans htotal,
    fun hw => hdrives.aligned (haligned hw)⟩

theorem driveProbe_tx (now : ℕ) (s : Session) :
    (driveProbe now s).1.tx=s.tx ∧ (driveProbe now s).1.pacing=s.pacing := by
  unfold driveProbe
  split
  · exact ⟨rfl,rfl⟩
  · split_ifs <;> exact ⟨rfl,rfl⟩

theorem Sending.call (h : Sending ice total whole s) {c : Call} (hc : c.Paces)
    (hwhole : whole → c.Whole total) : Sending ice total whole (callAct s c).1 := by
  match c,hc with
  | .recv now ⟨src,.ack xferId ackBytes⟩,_ =>
    show Sending ice total whole (handleDecoded now s ⟨src,.ack xferId ackBytes⟩).1
    unfold handleDecoded
    dsimp only
    split
    · exact h
    obtain ⟨rfl,tx,htx,hpaced,rfl,haligned⟩ := h
    unfold onAck
    rw [htx]
    dsimp only
    split
    · exact ⟨rfl,tx,htx,hpaced,rfl,haligned⟩
    have hsame:=(onAck_drives now s.pacing tx src ackBytes).same
    exact ⟨(hpaced.onAck now src ackBytes).1,_,rfl,(hpaced.onAck now src ackBytes).2,
      hsame.total,fun hw => (haligned hw).onAck now src (hwhole hw)⟩
  | .drive now,_ =>
    show Sending ice total whole (StateSync.drive now s).1
    unfold StateSync.drive
    dsimp only
    have hprobe:=h.congr (driveProbe_tx now s).1 (driveProbe_tx now s).2
    split
    · exact hprobe.driveSender now
    · exact hprobe
  | .dropPeer slot,_ =>
    have hdrop : Sending ice total whole (dropReceiver s slot) := by
      obtain ⟨rfl,tx,htx,hpaced,rfl,haligned⟩ := h
      unfold dropReceiver
      rw [htx]
      dsimp only
      split
      · have hready:=(hpaced.drop slot).markReady
        have hdrives:=markReady_drives s.pacing { tx with expect := tx.expect.erase slot }
        refine ⟨hready.1,_,rfl,hready.2,hdrives.same.total,fun hw => hdrives.aligned ?_⟩
        exact ⟨fun r hr => (haligned hw).ack r (Finset.mem_of_mem_erase hr),(haligned hw).cursor⟩
      · exact ⟨rfl,tx,htx,hpaced,rfl,haligned⟩
    show Sending ice total whole (dropPeer s slot)
    unfold dropPeer
    dsimp only
    split
    · split
      · exact hdrop.congr rfl rfl
      · exact hdrop
    · exact hdrop

theorem sending_openTx (now : ℕ) (s : Session) (op : StateOp) (slot : ℕ) (blob : List UInt8) :
    Sending s.pacing.ice blob.length whole (openTx now s op slot blob).1 := by
  have hfresh (xferId : ℕ) (expect : Finset ℕ) :
      Paced s.pacing.ice (pacingReset s.pacing (freshTx now op slot xferId blob expect)) :=
    paced_reset (Nat.zero_le _) fun _ => Nat.zero_le _
  have hrewound:=pacingReset_rewound s.pacing (freshTx now op slot
    (xferIdOf op s.cfg.localSlot (bumpXferId s.nextXferId)) blob (defaultReceivers s op))
  refine Sending.driveSender (s := { txClear (probeClear s) with
    tx := some _,stallSim := true,nextXferId := bumpXferId s.nextXferId })
    ⟨rfl,_,rfl,hfresh _ _,hrewound.same.total,fun _ => ?_⟩ now
  exact AlignedTx.rewound ⟨fun _ _ => aligned_zero _,aligned_zero _⟩ hrewound

theorem Sending.run (h : Sending ice total whole s) {cs : List Call} (hcs : ∀ c∈cs,c.Paces)
    (hwhole : whole → ∀ c∈cs,c.Whole total) :
    Sending ice total whole (cs.foldl (fun s c => (callAct s c).1) s) := by
  induction cs generalizing s with
  | nil => exact h
  | cons c cs ih =>
    exact ih (h.call (hcs c mem_cons_self) fun hw => hwhole hw c mem_cons_self)
      (fun c' hc' => hcs c' (mem_cons_of_mem c hc'))
      fun hw c' hc' => hwhole hw c' (mem_cons_of_mem c hc')

end Runs

/-- **Pacing.** -/
theorem transfer_stays_paced (s₀ : Session) (now₀ : ℕ) (op : StateOp) (slot : ℕ)
    (blob : List UInt8) (cs : List Call) (hcs : ∀ c∈cs,c.Paces) :
    let s:=cs.foldl (fun s c => (callAct s c).1) (openTx now₀ s₀ op slot blob).1
    ∃ tx,s.tx=some tx ∧ tx.total=blob.length ∧ s.pacing.ice=s₀.pacing.ice ∧
      tx.Paced s₀.pacing.ice ∧ ∀ now,
        (∀ id off data,.chunk id off data∈(tx.drive now s.pacing).2.2 →
          off<tx.minAck+(tx.drive now s.pacing).2.1.cwnd ∧
          off+data.length≤blob.length ∧ data.length ≤ chunkMax ∧
          ((∀ c∈cs,c.Whole blob.length) → off%chunkMax=0) ∧
          (blob.length≤tx.minAck+(tx.drive now s.pacing).2.1.cwnd ∨ (∀ c∈cs,c.Whole blob.length) ∧
              (tx.minAck+(tx.drive now s.pacing).2.1.cwnd)%chunkMax=0 →
            off+data.length≤tx.minAck+(tx.drive now s.pacing).2.1.cwnd)) ∧
        (∀ r < maxSlots,r∈tx.expect → tx.ack r<tx.total →
          tx.ackTimeoutMs≤now-tx.ackBase r → tx.sendFrom now s.pacing≤tx.ack r) ∧
        tx.sendFrom now s.pacing ≤ max tx.sendCursor tx.minAck ∧
        (tx.ready=false → ∀ b,tx.sendFrom now s.pacing≤b →
          b<(tx.drive now s.pacing).2.1.sendCursor →
          ∃ id off data,.chunk id off data∈(tx.drive now s.pacing).2.2 ∧ off≤b ∧
            b<off+data.length) := by
  intro s
  obtain ⟨hice,tx,htx,hpaced,htotal,haligned⟩ : Sending s₀.pacing.ice blob.length
      (∀ c∈cs,c.Whole blob.length) s := (sending_openTx now₀ s₀ op slot blob).run hcs id
  have hpaced' : tx.Paced s.pacing.ice := by rwa [hice]
  refine ⟨tx,htx,htotal,hice,hpaced,fun now => ⟨fun id off data hmem => ?_,?_,
    hpaced'.sendFrom_le_max now,fun hready b hle hlt => hpaced'.drive_covers hready hle hlt⟩⟩
  · obtain ⟨hwindow,hend,hlen⟩ := hpaced'.drive_window hmem
    have hstart (hwhole : ∀ c∈cs,c.Whole blob.length) : off%chunkMax=0 := by
      rcases (drive_drives now s.pacing tx).bodies (haligned hwhole) _ hmem with
        hbegin | ⟨off',hmod,-,hchunk⟩
      · cases hbegin
      · cases hchunk
        exact hmod
    rw [htotal] at hend
    refine ⟨hwindow,hend,hlen,hstart,?_⟩
    rintro (hpast | ⟨hwhole,hedge⟩)
    · exact hend.trans hpast
    · -- a chunk that starts on a boundary before the edge ends at it at the latest
      have hmod:=hstart hwhole
      unfold chunkMax at hmod hedge hlen
      omega
  · exact fun r hr hexpect hack hbase => hpaced'.sendFrom_le hr hexpect hack hbase

/-- Two chunks and a half over ICE: both receivers acknowledge, the faster one leaves, and pumps
follow that find the other one timed out. -/
def pacedCalls : List Call :=
  [.recv 20 ⟨1,.ack 1 1120⟩,.recv 22 ⟨2,.ack 1 2240⟩,.drive 40,.dropPeer 2,.drive 300]
def pacedHost : Session := freshSession { pairCfg false with slotCount := 3 } true

theorem transfer_stays_paced_resends :
    let s:=pacedCalls.foldl (fun s c => (callAct s c).1)
      (openTx 1 pacedHost .save 0 (List.replicate 2800 0)).1
    ∃ tx,s.tx=some tx ∧ (tx.ack 1=1120 ∧ tx.ready=false ∧ tx.expect={1} ∧
        tx.cwnd<32*1024 ∧ tx.sendFrom 600 s.pacing=1120 ∧
        (tx.drive 600 s.pacing).2.1.sendCursor=2800) ∧ 8*1024≤tx.cwnd ∧
      ∀ b,1120≤b → b<2800 → ∃ id off data,.chunk id off data∈(tx.drive 600 s.pacing).2.2 ∧
        off≤b ∧ b<off+data.length ∧ off%chunkMax=0 := by
  intro s
  have hpaces : ∀ c∈pacedCalls,c.Paces := by simp [pacedCalls,Call.Paces]
  have hwhole : ∀ c∈pacedCalls,c.Whole 2800 := by
    simp [pacedCalls,Call.Whole,Aligned,chunkMax]
  have hsee : (s.tx.map fun tx => decide (tx.ack 1=1120 ∧ tx.ready=false ∧ tx.expect={1} ∧
      tx.cwnd<32*1024 ∧ tx.sendFrom 600 s.pacing=1120 ∧
      (tx.drive 600 s.pacing).2.1.sendCursor=2800))=some true := by decide +kernel
  obtain ⟨tx,htx,-,-,hpaced,hpump⟩ :=
    transfer_stays_paced pacedHost 1 .save 0 (List.replicate 2800 0) pacedCalls hpaces
  rw [htx] at hsee
  have hat:=of_decide_eq_true (Option.some.inj hsee)
  obtain ⟨hchunks,-,-,hcovers⟩ := hpump 600
  refine ⟨tx,htx,hat,hpaced.cwnd.1,fun b hlow hhigh => ?_⟩
  obtain ⟨id,off,data,hmem,hfrom,hto⟩ := hcovers hat.2.1 b (hat.2.2.2.2.1.trans_le hlow)
    (hhigh.trans_eq hat.2.2.2.2.2.symm)
  refine ⟨id,off,data,hmem,hfrom,hto,(hchunks id off data hmem).2.2.2.1 ?_⟩
  rwa [length_replicate]

def iceTx (blob : List UInt8) (sendCursor : ℕ) : Tx :=
  ⟨false,.save,0,1,protoChecksum blob,blob,{1},fun _ => 0,fun _ => 0,sendCursor,1,1,32*1024,16,80⟩

theorem openTx_ice (blob : List UInt8) :
    (openTx 1 (freshSession (pairCfg false) true) .save 0 blob).1.tx =
      some ((iceTx blob 0).drive 1 ⟨true,0,0⟩).2.1 := by
  have hexpect : defaultReceivers (freshSession (pairCfg false) true) .save={1} := by decide
  unfold openTx
  rw [hexpect]
  rfl

theorem iceTx_drive {blob : List UInt8} (hblob : blob.length=40000) {cursor : ℕ}
    (hcursor : cursor≤40000) :
    (iceTx blob cursor).minAck=0 ∧ (iceTx blob cursor).drive 1 ⟨true,0,0⟩ =
      (⟨true,0,0⟩,iceTx blob ((iceTx blob cursor).sendChunks 32768 16 cursor).2,
        ((iceTx blob cursor).sendChunks 32768 16 cursor).1) := by
  have htotal : (iceTx blob cursor).total=40000 := hblob
  have hmin : (iceTx blob cursor).minAck=0 :=
    Nat.le_zero.mp (minAck_le_ack (r := 1) (by decide) (Finset.mem_singleton_self 1))
  have hpaced : (iceTx blob cursor).Paced true :=
    ⟨(by decide : 8*1024≤32*1024 ∧ 32*1024≤256*1024),(by decide : 4≤16 ∧ 16≤64),
      (by decide : 40≤80 ∧ 80≤180),hcursor.trans htotal.ge,fun _ => Nat.zero_le _⟩
  have hcomplete : (iceTx blob cursor).complete=false := by
    unfold complete
    rw [hmin,htotal]
    simp
  have hwindow : min (0+(iceTx blob cursor).cwnd) 40000=32768 := by
    show min (0+32*1024) 40000=32768
    omega
  refine ⟨hmin,(Paced.drive_plain ⟨true,0,0⟩ hpaced rfl rfl hcomplete
    fun _ => (by decide : 1-1<80)).trans ?_⟩
  unfold driveWindow
  dsimp only
  rw [hmin,htotal,hwindow,Nat.max_zero]
  rfl

theorem window_overrun : ∃ (tx : Tx) (off : ℕ) (data : List UInt8),
    (openTx 1 (freshSession (pairCfg false) true) .save 0 (List.replicate 40000 0)).1.tx=some tx ∧
    .chunk 1 off data∈(tx.drive 1 ⟨true,0,0⟩).2.2 ∧
    tx.minAck+(tx.drive 1 ⟨true,0,0⟩).2.1.cwnd<off+data.length := by
  generalize hb : List.replicate 40000 (0 : UInt8)=blob
  have hblob : blob.length=40000 := by rw [← hb,length_replicate]
  have hend (cursor : ℕ) : 32768≤(iceTx blob cursor).total := by
    rw [show (iceTx blob cursor).total=40000 from hblob]
    decide
  have hsent:=sendChunks_cursor (iceTx blob 0) (hend 0) (by decide : 0+16*chunkMax≤32768)
  have hchunk:=sendChunks_whole (iceTx blob 17920) (hend 17920) (by decide : 13<16)
    (by decide : 17920+13*chunkMax<32768)
  obtain ⟨hmin,hsecond⟩ := iceTx_drive hblob (by decide : 17920≤40000)
  refine ⟨iceTx blob 17920,17920+13*chunkMax,piece chunkMax blob (17920+13*chunkMax),?_,?_,?_⟩
  · rw [openTx_ice,(iceTx_drive hblob (Nat.zero_le _)).2,hsent]
    rfl
  · rw [hsecond]
    exact hchunk
  · rw [hsecond,hmin,piece_length,hblob]
    show 0+32*1024<17920+13*chunkMax+min chunkMax (40000-(17920+13*chunkMax))
    unfold chunkMax
    omega

end RecompNet.StateSync
