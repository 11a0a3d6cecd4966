import RecompNet.Session.Transfer

/-!
# The hash-probe barrier

The host's `take_reply` with `match = 1` should mean that the application of every expected seat
was asked about exactly this probe and said "match".
-/
namespace RecompNet.StateSync
open List
variable {ι : Type} (room : Room ι)
def Answered (log : List (ι × Event)) (src : ℕ) (key : ProbeKey) (matched : Bool) : Prop :=
  ∃ j,(room.cfg j).wireId=src ∧ (j,Event.answered key matched)∈log

structure ProbeGood (room : Room ι) (log : List (ι × Event)) (i : ι) (p : Probe) : Prop where
  host_match : p.sender → ∀ r∈p.matchSet,Answered room log r p.key true
  host_expect : p.sender → ∀ r∈p.expect,r < room.slotCount
  guest_answer : p.sender=false → p.pending=false →
    Answered room log (room.cfg i).wireId p.key p.matched
  guest_parked : p.sender=false → p.parked → p.pending=false ∧ p.matched

structure BarrierGood (room : Room ι) (log : List (ι × Event)) (i : ι) (s : Session) : Prop where
  cfg : s.cfg=room.cfg i
  probe : ∀ p,s.probe=some p → ProbeGood room log i p

def ReplyGood (log : List (ι × Event)) (pkt : Packet) : Prop :=
  ∀ key matched,pkt.body=.probeReply key matched → Answered room log pkt.localSlot key matched

def barrierFacts : Net.LogFacts ι Session Packet Event where
  node := BarrierGood room
  msg := ReplyGood room

variable {room : Room ι} {log log' : List (ι × Event)} {i : ι} {s s' : Session} {p : Probe}
variable {matched : Bool}
theorem Answered.mono (hl : log ⊆ log') {src : ℕ} {key : ProbeKey}
    (h : Answered room log src key matched) : Answered room log' src key matched :=
  h.imp fun _ hj => ⟨hj.1,hl hj.2⟩

theorem ProbeGood.mono (hl : log ⊆ log') (h : ProbeGood room log i p) : ProbeGood room log' i p :=
  ⟨fun hs r hr => (h.host_match hs r hr).mono hl,h.host_expect,
    fun hs hp => (h.guest_answer hs hp).mono hl,h.guest_parked⟩

theorem BarrierGood.mono (hl : log ⊆ log') (h : BarrierGood room log i s) :
    BarrierGood room log' i s := ⟨h.cfg,fun p hp => (h.probe p hp).mono hl⟩

theorem barrierFacts_stable : (barrierFacts room).Stable where
  node _ _ h := BarrierGood.mono (subset_append_left ..) h
  msg _ h key matched hb := (h key matched hb).mono (subset_append_left ..)

structure NoProbe (s : Session) (r : Session × List Packet) : Prop where
  cfg : r.1.cfg=s.cfg
  probe : r.1.probe=s.probe ∨ r.1.probe=none
  out : ∀ m∈r.2,m.body.isTransfer

theorem NoProbe.keep (hc : s'.cfg=s.cfg) (hp : s'.probe=s.probe) : NoProbe s (s',[]) :=
  ⟨hc,Or.inl hp,forall_mem_nil _⟩
theorem NoProbe.silent (s : Session) : NoProbe s (s,[]) := .keep rfl rfl
theorem NoProbe.clear (s : Session) : NoProbe s (probeClear s,[]) :=
  ⟨rfl,Or.inr rfl,forall_mem_nil _⟩

theorem NoProbe.trans {a b : Session × List Packet} (ha : NoProbe s a) (hb : NoProbe a.1 b) :
    NoProbe s (b.1,a.2++b.2) where
  cfg := hb.cfg.trans ha.cfg
  probe := by
    rcases hb.probe with h | h
    · exact ha.probe.imp h.trans h.trans
    · exact Or.inr h
  out m hm := (mem_append.mp hm).elim (ha.out m) (hb.out m)

variable (now : ℕ)
theorem NoProbe.driveSender (s : Session) : NoProbe s (driveSender now s) := by
  unfold StateSync.driveSender
  split
  · exact .silent s
  next tx _ =>
  refine ⟨rfl,Or.inl rfl,fun m hm => ?_⟩
  obtain ⟨b,hb,rfl⟩ := mem_map.mp hm
  exact (Tx.drive_drives now s.pacing tx).transfer b hb

theorem NoProbe.rxSendAck (s : Session) (src : ℕ) (rx : Rx) : NoProbe s (rxSendAck now s src rx) :=
  ⟨rfl,Or.inl rfl,forall_mem_singleton.mpr rfl⟩

theorem NoProbe.onBeginAgain (s : Session) (src : ℕ) (r : Received) (op : StateOp)
    (slot xferId total crc : ℕ) :
    NoProbe s (onBeginAgain now s src r op slot xferId total crc) := by
  unfold StateSync.onBeginAgain
  split
  · exact .silent s
  split
  · exact ⟨rfl,Or.inl rfl,forall_mem_singleton.mpr rfl⟩
  split
  · split
    · exact .rxSendAck now s src _
    · exact .silent s
  · exact .silent s

theorem NoProbe.supersede (s : Session) (src : ℕ) :
    NoProbe s (supersedeTx (supersedeProbe s src) src,[]) := by
  have hprobe : NoProbe s (supersedeProbe s src,[]) := by
    unfold supersedeProbe
    split
    · split
      · exact .clear s
      · exact .silent s
    · exact .silent s
  have htx : NoProbe (supersedeProbe s src) (supersedeTx (supersedeProbe s src) src,[]) := by
    unfold supersedeTx
    split
    · split
      · exact .keep rfl rfl
      · exact .silent _
    · exact .silent _
  exact hprobe.trans htx

theorem NoProbe.openRx (s : Session) (src : ℕ) (op : StateOp)
    (slot xferId total crc : ℕ) : NoProbe s (openRx now s src op slot xferId total crc) := by
  have hsup:=NoProbe.supersede s src
  exact ⟨hsup.cfg,hsup.probe,forall_mem_singleton.mpr rfl⟩

theorem NoProbe.onBegin (s : Session) (src : ℕ) (op : StateOp)
    (slot xferId total crc : ℕ) : NoProbe s (onBegin now s src op slot xferId total crc) := by
  have hopen:=NoProbe.openRx now s src op slot xferId total crc
  unfold StateSync.onBegin
  split
  · exact .silent s
  split
  · exact .silent s
  split
  · exact .silent s
  split
  · exact .silent s
  split
  · exact .silent s
  split
  · split
    · exact .onBeginAgain ..
    split
    · exact .silent s
    · exact hopen
  · exact hopen

theorem NoProbe.onChunkClosed (s : Session) (src xferId : ℕ) :
    NoProbe s (onChunkClosed now s src xferId) := by
  unfold StateSync.onChunkClosed
  split
  · split
    · exact ⟨rfl,Or.inl rfl,forall_mem_singleton.mpr rfl⟩
    · exact .silent s
  · exact .silent s

theorem NoProbe.onChunk (s : Session) (src xferId off : ℕ) (data : List UInt8) :
    NoProbe s ((onChunk now s src xferId off data).1,(onChunk now s src xferId off data).2.1) := by
  have hclosed:=NoProbe.onChunkClosed now s src xferId
  unfold StateSync.onChunk
  dsimp only
  split
  · exact .silent s
  split
  · next rx _ =>
    split
    · refine ⟨rfl,Or.inl rfl,fun m hm => ?_⟩
      obtain ⟨b,hb,rfl⟩ := mem_map.mp hm
      exact Rx.onChunk_transfer now s.pacing.ice rx off data b hb
    · exact hclosed
  · exact hclosed

theorem NoProbe.onAck (s : Session) (src xferId ackBytes : ℕ) :
    NoProbe s (onAck now s src xferId ackBytes,[]) := by
  unfold StateSync.onAck
  split
  · exact .silent s
  split
  · exact .silent s
  · exact .keep rfl rfl

theorem NoProbe.foldl_finishRx (l : List ℕ) (s : Session) : NoProbe s (l.foldl finishRx s,[]) := by
  induction l generalizing s with
  | nil => exact .silent s
  | cons src l ih =>
    have hone : NoProbe s (finishRx s src,[]) := .keep rfl rfl
    exact hone.trans (ih _)

theorem NoProbe.recomputeStall (h : NoProbe s (s',[])) : NoProbe s (recomputeStall s',[]) :=
  ⟨h.cfg,h.probe,forall_mem_nil _⟩

variable (s)
theorem NoProbe.finishFrom (which : FinishFrom) : NoProbe s (finishFrom s which,[]) := by
  cases which with
  | all =>
    have hfold:=NoProbe.foldl_finishRx (List.range maxSlots) s
    simp only [StateSync.finishFrom]
    generalize (List.range maxSlots).foldl finishRx s=s₁ at hfold
    exact .recomputeStall ⟨hfold.cfg,hfold.probe,forall_mem_nil _⟩
  | slot seat =>
    refine .recomputeStall ?_
    split
    · exact .keep rfl rfl
    split
    · exact .keep rfl rfl
    · exact .silent s

theorem NoProbe.stateFinish : NoProbe s (stateFinish s,[]) := by
  unfold StateSync.stateFinish
  split
  · exact .finishFrom s .all
  · exact .recomputeStall (.keep rfl rfl)
  · exact .recomputeStall (.keep rfl rfl)

theorem NoProbe.takeReady : NoProbe s (takeReady s,[]) := by
  unfold StateSync.takeReady
  split <;> exact .keep rfl rfl

variable {s}
theorem NoProbe.stateBegin (s : Session) (op : StateOp) (slot : ℕ) (blob : List UInt8) :
    NoProbe s ((stateBegin now s op slot blob).1,(stateBegin now s op slot blob).2.1) := by
  unfold StateSync.stateBegin
  split
  · exact .silent s
  split
  · exact .silent s
  split
  · exact .silent s
  split
  · exact .silent s
  simp only [openTx]
  generalize pacingReset s.pacing (freshTx now op slot
    (xferIdOf op s.cfg.localSlot (bumpXferId s.nextXferId)) blob (defaultReceivers s op))=tx
  have hopen : NoProbe s ({ txClear (probeClear s) with
      tx := some tx,stallSim := true,nextXferId := bumpXferId s.nextXferId },
      [s.packet tx.beginBody]) := ⟨rfl,Or.inr rfl,forall_mem_singleton.mpr rfl⟩
  exact hopen.trans (.driveSender now _)

structure Tells (room : Room ι) (log : List (ι × Event)) (i : ι) (r : Session × List Packet) :
    Prop where
  node : BarrierGood room log i r.1
  msg : ∀ m∈r.2,ReplyGood room log m

theorem ReplyGood.of_other {m : Packet} (h : ∀ key matched,m.body≠.probeReply key matched) :
    ReplyGood room log m :=
  fun key matched hb => absurd hb (h key matched)

theorem Tells.noProbe {r : Session × List Packet} (hr : NoProbe s r)
    (h : BarrierGood room log i s) : Tells room log i r where
  node := by
    refine ⟨hr.cfg.trans h.cfg,fun p hp => ?_⟩
    rcases hr.probe with heq | heq
    · exact h.probe p (heq ▸ hp)
    · rw [heq] at hp
      cases hp
  msg m hm := .of_other fun key matched hb => by
    have htransfer:=hr.out m hm
    rw [hb] at htransfer
    cases htransfer

section
variable (h : BarrierGood room log i s)
include h
theorem Tells.silent : Tells room log i (s,[]) :=
  .noProbe (.silent s) h

theorem BarrierGood.setProbe (hcfg : s'.cfg=s.cfg)
    (hs : s'.probe=some p) (hp : ProbeGood room log i p) : BarrierGood room log i s' :=
  ⟨hcfg.trans h.cfg,fun _ hp' => Option.some.inj (hs.symm.trans hp') ▸ hp⟩

theorem BarrierGood.packet (b : Body) : s.packet b=⟨(room.cfg i).wireId,b⟩ := by
  rw [Session.packet,Session.wireSlot,h.cfg]

theorem BarrierGood.reply {key : ProbeKey} {matched : Bool}
    (ha : Answered room log (room.cfg i).wireId key matched) :
    ReplyGood room log (s.packet (.probeReply key matched)) := by
  rw [h.packet]
  rintro key' matched' hb
  obtain ⟨rfl,rfl⟩ := Body.probeReply.inj hb
  exact ha

end

theorem Tells.driveProbe (now : ℕ) (h : BarrierGood room log i s) :
    Tells room log i (driveProbe now s) := by
  unfold StateSync.driveProbe
  split
  · exact .silent h
  next p hp =>
  have hgood:=h.probe p hp
  have hstamp : ProbeGood room log i { p with lastTxMs := now } :=
    { hgood with }
  split
  · next hc =>
    have hguest : p.sender=false := by simpa using hc.1
    split
    · refine ⟨h.setProbe rfl rfl hstamp,forall_mem_singleton.mpr (h.reply ?_)⟩
      obtain ⟨hpend,hmatch⟩ := hgood.guest_parked hguest hc.2
      exact hmatch ▸ hgood.guest_answer hguest hpend
    · exact .silent h
  · split
    · exact .silent h
    split
    · exact .silent h
    · exact ⟨h.setProbe rfl rfl hstamp,forall_mem_singleton.mpr (.of_other nofun)⟩

section
variable (h : BarrierGood room log i s)
include h
variable {src : ℕ} {key : ProbeKey}
theorem Tells.onProbe {replied : Finset ℕ}
    (hpark : probeIsFresh s src key replied → s.probe.any Probe.parked=false) :
    Tells room log i (onProbe s src key replied) := by
  unfold StateSync.onProbe
  split
  · exact .silent h
  next hc =>
  split
  · next p hp =>
    obtain ⟨hsome,hq⟩ := Option.filter_eq_some_iff.mp hp
    simp only [Bool.and_eq_true,Bool.not_eq_true',beq_iff_eq] at hq
    obtain ⟨⟨hguest,hpend⟩,rfl⟩ := hq
    exact ⟨h,forall_mem_singleton.mpr (h.reply ((h.probe p hsome).guest_answer hguest hpend))⟩
  · next hp =>
    have hfresh : probeIsFresh s src key replied := by
      simp only [not_or] at hc
      simp [probeIsFresh,hp,hc]
      exact (not_and_or.mp hc.2.2.1).imp not_lt.mp id
    have hparked : (s.probe.map Probe.parked).getD false=false := by
      have := hpark hfresh
      cases hs : s.probe with
      | none => rfl
      | some p => simpa [hs] using this
    refine ⟨h.setProbe rfl rfl ⟨nofun,nofun,nofun,fun _ hpk => ?_⟩,forall_mem_nil _⟩
    simp [freshProbe,hparked] at hpk

theorem Tells.onProbeReply
    {matched : Bool} (hmsg : ReplyGood room log ⟨src,.probeReply key matched⟩) :
    Tells room log i (onProbeReply s src key matched) := by
  unfold StateSync.onProbeReply
  split
  · split
    · exact ⟨h,forall_mem_singleton.mpr (.of_other nofun)⟩
    · exact .silent h
  next p hp =>
  obtain ⟨hsome,hsender⟩ := Option.filter_eq_some_iff.mp hp
  have hgood:=h.probe p hsome
  split
  · exact .silent h
  next hc =>
  simp only [not_or,not_not] at hc
  obtain ⟨-,rfl,-,-⟩ := hc
  refine ⟨h.setProbe rfl rfl ⟨fun _ r hr => ?_,hgood.host_expect,fun hs => ?_,fun hs => ?_⟩,
    forall_mem_nil _⟩
  · -- A bit is set only by the reply just received.
    dsimp only at hr ⊢
    split at hr
    · next hm =>
      rcases Finset.mem_insert.mp hr with rfl | hr
      · exact hm ▸ hmsg p.key matched rfl
      · exact hgood.host_match hsender r hr
    · exact hgood.host_match hsender r (Finset.mem_of_mem_erase hr)
  · exact absurd (hsender.symm.trans hs) (by decide)
  · exact absurd (hsender.symm.trans hs) (by decide)

theorem Tells.onProbeDone (src : ℕ) (key : ProbeKey) :
    Tells room log i (onProbeDone s src key,[]) := by
  unfold StateSync.onProbeDone
  split
  · split
    · exact .silent h
    · exact .noProbe (.clear s) h
  · exact .silent h

end

variable (now : ℕ)
theorem Tells.drive (h : BarrierGood room log i s) : Tells room log i (drive now s) := by
  have hprobe:=Tells.driveProbe now h
  have hsend : Tells room log i (if (StateSync.driveProbe now s).1.anyActive
      then StateSync.driveSender now (StateSync.driveProbe now s).1
      else ((StateSync.driveProbe now s).1,[])) := by
    split
    · exact .noProbe (.driveSender now _) hprobe.node
    · exact .silent hprobe.node
  exact ⟨hsend.node,fun m hm => (mem_append.mp hm).elim (hprobe.msg m) (hsend.msg m)⟩

theorem defaultReceivers_lt (h : BarrierGood room log i s) {op : StateOp} {r : ℕ}
    (hr : r∈defaultReceivers s op) : r < room.slotCount := by
  have h2:=room.two_le
  rcases mem_defaultReceivers hr with ⟨-,rfl⟩ | ⟨-,-,hlt⟩
  · omega
  · rwa [h.cfg,room.same_slotCount] at hlt

theorem Tells.stateProbe (h : BarrierGood room log i s) (key : ProbeKey) :
    Tells room log i (stateProbe now s key) := by
  unfold StateSync.stateProbe
  dsimp only
  split
  · exact .silent h
  split
  · exact .silent h
  split
  · exact .silent h
  refine .driveProbe now (h.setProbe rfl rfl ⟨fun _ r hr => ?_,fun _ r hr => ?_,nofun,nofun⟩)
  · cases hr
  · exact defaultReceivers_lt h hr

theorem Tells.probeFinish (h : BarrierGood room log i s) : Tells room log i (probeFinish s) := by
  have hdone : (sendProbeDone s).1.cfg=s.cfg ∧ ∀ m∈(sendProbeDone s).2,ReplyGood room log m := by
    unfold sendProbeDone
    split
    · split
      · exact ⟨rfl,forall_mem_singleton.mpr (.of_other nofun)⟩
      · exact ⟨rfl,forall_mem_nil _⟩
    · exact ⟨rfl,forall_mem_nil _⟩
  exact ⟨⟨hdone.1.trans h.cfg,nofun⟩,hdone.2⟩

theorem Tells.dropPeer (h : BarrierGood room log i s) (slot : ℕ) :
    Tells room log i (dropPeer s slot,[]) := by
  have hdrop : NoProbe s (dropReceiver s slot,[]) := by
    unfold dropReceiver
    split
    · split
      · exact .keep rfl rfl
      · exact .silent s
    · exact .silent s
  have hgood:=(Tells.noProbe hdrop h).node
  unfold StateSync.dropPeer
  dsimp only
  split
  · next p hp =>
    have hprobe:=hgood.probe p hp
    split
    · exact ⟨hgood.setProbe rfl rfl ⟨hprobe.host_match,
        fun hs r hr => hprobe.host_expect hs r (Finset.mem_of_mem_erase hr),
        hprobe.guest_answer,hprobe.guest_parked⟩,forall_mem_nil _⟩
    · exact .silent hgood
  · exact .silent hgood

theorem BarrierGood.answerProbe (h : BarrierGood room log i s) (hp : s.probe=some p)
    (hguest : p.sender=false) (hpend : p.pending)
    (ha : Answered room log (room.cfg i).wireId p.key matched) :
    BarrierGood room log i (answerProbe now s p matched) := by
  have hpark : p.parked=false := by
    by_contra hpk
    have hno:=((h.probe p hp).guest_parked hguest (by simpa using hpk)).1
    exact absurd (hpend.symm.trans hno) (by decide)
  have hhost : ∀ {q : Prop},p.sender → q :=
    fun hs => absurd (hguest.symm.trans hs) (by decide)
  have hanswer : ProbeGood room log i { p with pending := false,matched := matched } :=
    ⟨hhost,hhost,fun _ _ => ha,fun _ hpk => absurd (hpark.symm.trans hpk) (by decide)⟩
  unfold StateSync.answerProbe
  dsimp only
  split
  · split
    · exact ⟨h.cfg,nofun⟩
    · exact h.setProbe rfl rfl hanswer
  split
  · next hm =>
    split
    · exact ⟨h.cfg,nofun⟩
    · exact h.setProbe rfl rfl ⟨hhost,hhost,fun _ _ => ha,fun _ _ => ⟨rfl,hm⟩⟩
  · exact h.setProbe rfl rfl hanswer

structure TellsLog (room : Room ι) (log : List (ι × Event)) (i : ι)
    (r : Session × List Packet × List Event) : Prop where
  node : BarrierGood room (log++r.2.2.map fun e => (i,e)) i r.1
  msg : ∀ m∈r.2.1,ReplyGood room (log++r.2.2.map fun e => (i,e)) m

theorem Tells.withEvents {r : Session × List Packet × List Event}
    (h : Tells room log i (r.1,r.2.1)) : TellsLog room log i r :=
  ⟨h.node.mono (subset_append_left ..),
    fun m hm key matched hb => (h.msg m hm key matched hb).mono (subset_append_left ..)⟩

theorem TellsLog.probeReply (h : BarrierGood room log i s) (matched : Bool) :
    TellsLog room log i (probeReply now s matched) := by
  unfold StateSync.probeReply
  split
  · exact (Tells.silent h).withEvents
  next p hp =>
  split
  · exact (Tells.silent h).withEvents
  next hc =>
  obtain ⟨hguest,hpend⟩ : p.sender=false ∧ p.pending := by simpa using hc
  have hlog : BarrierGood room (log++[Event.answered p.key matched].map fun e => (i,e)) i s :=
    h.mono (subset_append_left ..)
  have ha : Answered room (log++[Event.answered p.key matched].map fun e => (i,e))
      (room.cfg i).wireId p.key matched := ⟨i,rfl,mem_append_right _ (mem_singleton.mpr rfl)⟩
  exact ⟨hlog.answerProbe now hp hguest hpend ha,forall_mem_singleton.mpr (hlog.reply ha)⟩

/-- The guest is not handed a new probe while it is parked on an earlier one. -/
def notParked (w : Net ι Session Packet Event) (i : ι) : Call → Prop
  | .recv _ ⟨src,.probe key replied⟩ =>
    ((w.node i).rbPeerSlot.any fun r => src≠r)=false →
      probeIsFresh (w.node i) src key replied → (w.node i).probe.any Probe.parked=false
  | _ => True

theorem TellsLog.handleDecoded {pkt : Packet} (h : BarrierGood room log i s)
    (hmsg : ReplyGood room log pkt) (hpark : ∀ key replied,pkt.body=.probe key replied →
      (s.rbPeerSlot.any fun r => pkt.localSlot≠r)=false →
      probeIsFresh s pkt.localSlot key replied → s.probe.any Probe.parked=false) :
    TellsLog room log i (handleDecoded now s pkt) := by
  obtain ⟨src,body⟩ := pkt
  unfold StateSync.handleDecoded
  dsimp only
  split
  · exact (Tells.silent h).withEvents
  next hfilter =>
  cases body with
  | begin op slot xferId total crc => exact (Tells.noProbe (.onBegin now s ..) h).withEvents
  | chunk xferId offset data => exact (Tells.noProbe (.onChunk now s ..) h).withEvents
  | ack xferId ackBytes => exact (Tells.noProbe (.onAck now s ..) h).withEvents
  | probe key replied =>
    exact (Tells.onProbe h (hpark key replied rfl (by simpa using hfilter))).withEvents
  | probeReply key matched => exact (Tells.onProbeReply h hmsg).withEvents
  | probeDone key => exact (Tells.onProbeDone h src key).withEvents

instance (w : Net Bool Session Packet Event) (i : Bool) (c : Call) : Decidable (notParked w i c) :=
  match c with
  | .recv _ ⟨_,.probe _ _⟩ => inferInstanceAs (Decidable (_=false → _ → _=false))
  | .recv _ ⟨_,.begin ..⟩ | .recv _ ⟨_,.chunk ..⟩ | .recv _ ⟨_,.ack ..⟩
  | .recv _ ⟨_,.probeReply ..⟩ | .recv _ ⟨_,.probeDone _⟩
  | .drive _ | .begin .. | .probe .. | .probeReply .. | .probeFinish | .takeReady | .finish
  | .finishFrom _ | .dropPeer _ | .setLink .. => inferInstanceAs (Decidable True)

variable {w : Net ι Session Packet Event}
theorem callAct_tells (h : BarrierGood room log i (w.node i))
    (c : Call) (hin : ∀ m∈callInputs c,ReplyGood room log m) (hok : notParked w i c) :
    TellsLog room log i (callAct (w.node i) c) := by
  cases c with
  | recv now pkt =>
    refine .handleDecoded now h (hin pkt (mem_singleton.mpr rfl)) ?_
    obtain ⟨src,body⟩ := pkt
    rintro key replied rfl
    exact hok
  | drive now => exact (Tells.drive now h).withEvents
  | begin now op slot blob => exact (Tells.noProbe (.stateBegin now _ op slot blob) h).withEvents
  | probe now key => exact (Tells.stateProbe now h key).withEvents
  | probeReply now matched => exact .probeReply now h matched
  | probeFinish => exact (Tells.probeFinish h).withEvents
  | takeReady => exact (Tells.noProbe (.takeReady _) h).withEvents
  | finish => exact (Tells.noProbe (.stateFinish _) h).withEvents
  | finishFrom which => exact (Tells.noProbe (.finishFrom _ which) h).withEvents
  | dropPeer slot => exact (Tells.dropPeer h slot).withEvents
  | setLink running ice rbPeerSlot =>
    have hlink : Tells room log i
        ({ w.node i with
            running := running,pacing := { (w.node i).pacing with ice := ice },
            rbPeerSlot := rbPeerSlot },[]) := ⟨⟨h.cfg,h.probe⟩,forall_mem_nil _⟩
    exact hlink.withEvents

variable [DecidableEq ι]
theorem barrier_holds
    (hw : Net.Reach (nodeSpec ι) notParked (Init room) w) : (barrierFacts room).Holds w := by
  refine Net.log_invariant barrierFacts_stable ?_ ?_ hw
  · rintro w ⟨hsent,hlog,hnode⟩
    refine ⟨fun i => ?_,by simp [hsent]⟩
    obtain ⟨ice,hi⟩ := hnode i
    rw [hi]
    exact ⟨rfl,nofun⟩
  · intro w i c hk hok hin
    have h:=callAct_tells (hk.node i) c hin hok
    exact ⟨h.node,h.msg⟩

/-- **Probe barrier truth.** -/
theorem probe_barrier_truth {w : Net ι Session Packet Event}
    (hw : Net.Reach (nodeSpec ι) notParked (Init room) w) :
    (∀ i p,(w.node i).probe=some p → probeTakeReply (w.node i)=some true →
      ∀ r∈p.expect,∃ j,room.seat j=r ∧ (j,Event.answered p.key true)∈w.log) ∧
    ∀ src key matched,(⟨src,.probeReply key matched⟩ : Packet)∈w.sent →
      ∃ j,(room.cfg j).wireId=src ∧ (j,Event.answered key matched)∈w.log := by
  have hk:=barrier_holds hw
  refine ⟨fun i p hp htake r hr => ?_,fun src key matched hm => hk.msg _ hm key matched rfl⟩
  have hgood:=(hk.node i).probe p hp
  simp only [probeTakeReply,hp] at htake
  split at htake
  · next hc =>
    have hsender : p.sender=true := (Bool.and_eq_true_iff.mp hc).1
    have hall : p.expect ⊆ p.matchSet := by simpa [Probe.allMatched] using htake
    obtain ⟨j,hj,hmem⟩ := hgood.host_match hsender r (hall hr)
    exact ⟨j,(room.seat_of_wireId (hj ▸ hgood.host_expect hsender r hr)).trans hj,hmem⟩
  · cases htake

def firstProbe : ProbeKey := ⟨.save,0,1,1⟩
def secondProbe : ProbeKey := ⟨.save,0,1,2⟩

def firstProbeCalls : List (Bool × Call) := [(false,.setLink true false none),
    (true,.setLink true false none),(false,.probe 100 firstProbe),
    (true,.recv 110 ⟨0,.probe firstProbe ∅⟩),(true,.probeReply 120 true),
    (false,.recv 130 ⟨1,.probeReply firstProbe true⟩)]

def secondProbeCalls : List (Bool × Call) := [(false,.probeFinish),(false,.probe 140 secondProbe),
    (true,.recv 150 ⟨0,.probe secondProbe ∅⟩),(true,.drive 170),
    (false,.recv 180 ⟨1,.probeReply secondProbe true⟩)]

def firstProbeRun : Net Bool Session Packet Event :=
  Net.run (nodeSpec Bool) pairStart firstProbeCalls
theorem firstProbeRun_reach : Net.Reach (nodeSpec Bool) notParked (Init Room.pair) firstProbeRun :=
  (Net.Reach.start pairStart_init).run firstProbeCalls (by decide +kernel)

theorem probe_barrier_truth_first :
    (∃ p,(firstProbeRun.node false).probe=some p ∧
      probeTakeReply (firstProbeRun.node false)=some true ∧ ∀ r∈p.expect,
        ∃ j,Room.pair.seat j=r ∧ (j,Event.answered p.key true)∈firstProbeRun.log) ∧
    (⟨1,.probeReply firstProbe true⟩ : Packet)∈firstProbeRun.sent ∧
      ∃ j,(pairCfg j).wireId=1 ∧ (j,Event.answered firstProbe true)∈firstProbeRun.log := by
  have htake : probeTakeReply (firstProbeRun.node false)=some true := by decide +kernel
  have hsome : (firstProbeRun.node false).probe.isSome=true := by decide +kernel
  have hsent : (⟨1,.probeReply firstProbe true⟩ : Packet)∈firstProbeRun.sent := by
    decide +kernel
  obtain ⟨p,hp⟩ := Option.isSome_iff_exists.mp hsome
  exact ⟨⟨p,hp,htake,(probe_barrier_truth firstProbeRun_reach).1 false p hp htake⟩,hsent,
    (probe_barrier_truth firstProbeRun_reach).2 1 firstProbe true hsent⟩

theorem parked_guest_answers_unasked :
    ∃ w,Net.Reach (nodeSpec Bool) Net.anyCall (Init Room.pair) w ∧
      probeTakeReply (w.node false)=some true ∧
      (w.node false).probe.map Probe.key=some secondProbe ∧
      (w.node false).probe.map Probe.expect=some {1} ∧
      ∀ j matched,(j,Event.answered secondProbe matched)∉w.log := by
  refine ⟨Net.run (nodeSpec Bool) firstProbeRun secondProbeCalls,?_,by decide +kernel,
    by decide +kernel,by decide +kernel,by decide +kernel⟩
  exact ((Net.Reach.start pairStart_init).run firstProbeCalls (by decide +kernel)).run
    secondProbeCalls (by decide +kernel)

end RecompNet.StateSync
