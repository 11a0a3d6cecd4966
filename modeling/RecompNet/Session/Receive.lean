import RecompNet.Session.Transfer

/-!
# What a call does to a receive

A session keeps, for each source seat, an open receive and a note of the last transfer it opened.
-/
namespace RecompNet.StateSync
open Function List Session

def Session.seatState (s : Session) (j : ℕ) : Option Rx × Option Received := (s.rx j,s.received j)

variable {s : Session} {i j : ℕ}
theorem setRx_seatState (hij : j≠i) (rx : Rx) : (setRx s i rx).seatState j=s.seatState j := by
  unfold seatState setRx
  dsimp only
  rw [update_of_ne hij]

theorem rxClear_seatState (hij : j≠i) : (rxClear s i).seatState j=s.seatState j := by
  unfold seatState rxClear
  dsimp only
  rw [update_of_ne hij]

variable (src : ℕ)
theorem supersede_seatState :
    (supersedeTx (supersedeProbe s src) src).seatState j=s.seatState j := by
  have hprobe : (supersedeProbe s src).seatState j=s.seatState j := by
    unfold supersedeProbe
    split
    · split <;> rfl
    · rfl
  rw [← hprobe]
  unfold supersedeTx
  split
  · split <;> rfl
  · rfl

variable (now : ℕ) (op : StateOp)
theorem onBegin_seatState (slot xferId total crc : ℕ) (hij : j≠i) :
    (onBegin now s i op slot xferId total crc).1.seatState j=s.seatState j := by
  have hopen : (openRx now s i op slot xferId total crc).1.seatState j=s.seatState j := by
    have hcleared : (rxClear (supersedeTx (supersedeProbe s i) i) i).seatState j=s.seatState j :=
      (rxClear_seatState hij).trans (supersede_seatState i)
    refine (setRx_seatState hij _).trans (Eq.trans ?_ hcleared)
    unfold seatState
    dsimp only
    rw [update_of_ne hij]
  unfold onBegin
  split_ifs
  · rfl
  · rfl
  · rfl
  · rfl
  · rfl
  split
  · next r hr =>
    split_ifs
    · unfold onBeginAgain
      split_ifs
      · rfl
      · rfl
      split
      · split
        · exact setRx_seatState hij _
        · rfl
      · rfl
    · rfl
    · exact hopen
  · exact hopen

theorem onChunk_seatState (now xferId offset : ℕ) (data : List UInt8) (hij : j≠i) :
    (onChunk now s i xferId offset data).1.seatState j=s.seatState j := by
  have hclosed : (onChunkClosed now s i xferId).1.seatState j=s.seatState j := by
    unfold onChunkClosed
    split
    · split
      · unfold seatState
        dsimp only
        rw [update_of_ne hij]
      · rfl
    · rfl
  unfold onChunk
  dsimp only
  split
  · rfl
  split
  · split
    · exact setRx_seatState hij _
    · exact hclosed
  · exact hclosed

theorem handleDecoded_seatState (body : Body) (hij : j≠i) :
    (handleDecoded now s ⟨i,body⟩).1.seatState j=s.seatState j := by
  unfold handleDecoded
  dsimp only
  split
  · rfl
  · cases body with
    | begin op slot xferId total crc => exact onBegin_seatState now op slot xferId total crc hij
    | chunk xferId offset data => exact onChunk_seatState now xferId offset data hij
    | ack xferId ackBytes =>
      change (onAck now s i xferId ackBytes).seatState j=s.seatState j
      unfold onAck
      split
      · rfl
      · split <;> rfl
    | probe key replied =>
      change (onProbe s i key replied).1.seatState j=s.seatState j
      unfold onProbe
      split
      · rfl
      · split <;> rfl
    | probeReply key matched =>
      change (onProbeReply s i key matched).1.seatState j=s.seatState j
      unfold onProbeReply
      split
      · split <;> rfl
      · split <;> rfl
    | probeDone key =>
      change (onProbeDone s i key).seatState j=s.seatState j
      unfold onProbeDone
      split
      · split <;> rfl
      · rfl

/-- The checks of `state_on_begin` before it looks at the transfer id. -/
structure BeginTaken (s : Session) (src : ℕ) (op : StateOp) (xferId total : ℕ) : Prop where
  other : src≠s.wireSlot
  upload : op=.memcard → s.cfg.localSlot=0 ∧ src≠0
  download : op≠.memcard → s.cfg.localSlot≠0
  size : total≠0 ∧ total ≤ stateMax
  source : src < maxSlots
  named : xferId≠0

variable (s)
def Newer (src xferId : ℕ) : Prop := ∀ r,s.received src=some r →
    idDistance xferId r.id≠0 ∧ idDistance xferId r.id < idHalf xferId r.id

/-- The packet is filtered by `rb_peer_slot`. -/
def Filtered : Prop := (s.rbPeerSlot.any fun r => src≠r)=true
def Rx.Takes (rx : Rx) (offset : ℕ) (data : List UInt8) : Prop :=
  offset ≤ rx.total ∧ data≠[] ∧ offset+data.length ≤ rx.total

def Opens : Call → Prop
  | .recv _ pkt =>
    match pkt.body with
    | .begin op _ xferId total _ =>
      pkt.localSlot=src ∧ ¬ Filtered s src ∧ BeginTaken s src op xferId total ∧ Newer s src xferId
    | _ => False
  | _ => False

def Stores (offset : ℕ) (data : List UInt8) : Call → Prop
  | .recv _ pkt =>
    match pkt.body with
    | .chunk xferId off bytes =>
      pkt.localSlot=src ∧ ¬ Filtered s src ∧ src < maxSlots ∧ src≠s.wireSlot ∧ off=offset ∧
        bytes=data ∧ ∃ rx,s.rx src=some rx ∧ rx.xferId=xferId ∧ rx.Takes offset data
    | _ => False
  | _ => False

variable {s}

inductive SeatStep (s : Session) (src : ℕ) (c : Call) :
    Option Rx × Option Received → List Body → Prop
  | keep (ho : ¬ Opens s src c) : SeatStep s src c (s.seatState src) []
  | opened {now slot xferId total crc : ℕ} {op : StateOp}
    (hc : c=.recv now ⟨src,.begin op slot xferId total crc⟩) (ho : Opens s src c) : SeatStep s src c
      (some { freshRx op slot xferId total crc with lastAckMs := now },
        some (freshReceived op slot xferId total crc)) [.ack xferId 0]
  | beginAgain {now : ℕ} {r : Received} {rx : Rx} (ho : ¬ Opens s src c)
    (hr : s.received src=some r) (hx : s.rx src=some rx) (hid : rx.xferId=r.id) :
    SeatStep s src c (some { rx with lastAckMs := now },s.received src) [rx.ackBody]
  | beginFinished {r : Received} (ho : ¬ Opens s src c) (hr : s.received src=some r)
    (hf : r.finished) : SeatStep s src c (s.seatState src) [.ack r.id r.total]
  | stored {now offset : ℕ} {ice : Bool} {data : List UInt8} {rx : Rx} (ho : ¬ Opens s src c)
    (hx : s.rx src=some rx) (hs : Stores s src offset data c) (ht : rx.Takes offset data) :
    SeatStep s src c (some (rx.onChunk now ice offset data).1,s.received src)
      (rx.onChunk now ice offset data).2.1
  | chunkFinished {now : ℕ} {r : Received} (ho : ¬ Opens s src c) (hr : s.received src=some r)
    (hf : r.finished) :
    SeatStep s src c (s.rx src,some { r with lastReackMs := now }) [.ack r.id r.total]
  | closed (ho : ¬ Opens s src c) : SeatStep s src c
      (none,(s.received src).map fun r =>
        { r with finished := r.finished || (s.rx src).any Rx.ready }) []

def Acks (out : List Packet) (acks : List Body) : Prop :=
  ∀ p∈out,∀ id k,p.body=.ack id k → .ack id k∈acks
theorem seatState_setRx (rx : Rx) : (setRx s i rx).seatState i=(some rx,s.received i) := by
  simp [seatState,setRx]

theorem openRx_seatState (slot xferId total crc : ℕ) :
    (openRx now s i op slot xferId total crc).1.seatState i =
      (some { freshRx op slot xferId total crc with lastAckMs := now },
        some (freshReceived op slot xferId total crc)) := by
  simp [openRx,rxSendAck,seatState_setRx]

theorem onBegin_seatStep (slot xferId total crc : ℕ) (hfilter : ¬ Filtered s i) :
    ∃ acks,SeatStep s i (.recv now ⟨i,.begin op slot xferId total crc⟩)
        ((onBegin now s i op slot xferId total crc).1.seatState i) acks ∧
      Acks (onBegin now s i op slot xferId total crc).2 acks := by
  set c : Call := .recv now ⟨i,.begin op slot xferId total crc⟩ with hc
  have hignored : ∀ (h : ¬ Opens s i c),∃ acks,SeatStep s i c (s.seatState i) acks ∧
      Acks [] acks := fun h => ⟨[],.keep h,fun p hp => by cases hp⟩
  have hnot : ¬ BeginTaken s i op xferId total → ¬ Opens s i c := fun h ho => h ho.2.2.1
  have hopen : BeginTaken s i op xferId total → Newer s i xferId →
      ∃ acks,SeatStep s i c ((openRx now s i op slot xferId total crc).1.seatState i) acks ∧
        Acks (openRx now s i op slot xferId total crc).2 acks := by
    intro htaken hnew
    rw [openRx_seatState]
    refine ⟨_,.opened hc ⟨rfl,hfilter,htaken,hnew⟩,?_⟩
    intro p hp id k hbody
    obtain rfl := mem_singleton.mp hp
    exact mem_singleton.mpr hbody.symm
  unfold onBegin
  split_ifs with h₁ h₂ h₃ h₄ h₅
  · exact hignored (hnot fun h => h.other h₁)
  · exact hignored (hnot fun h => h₂.2.elim (fun hne => hne (h.upload h₂.1).1) (h.upload h₂.1).2)
  · exact hignored (hnot fun h => h.download h₃.1 h₃.2)
  · exact hignored (hnot fun h => h₄.elim h.size.1 (not_lt.mpr h.size.2))
  · exact hignored (hnot fun h => h₅.elim (not_le.mpr h.source) h.named)
  have htaken : BeginTaken s i op xferId total := by
    refine ⟨h₁,?_,fun hop hloc => h₃ ⟨hop,hloc⟩,?_,?_,?_⟩
    · intro hop
      constructor
      · by_contra hloc
        exact h₂ ⟨hop,.inl hloc⟩
      · intro hi
        exact h₂ ⟨hop,.inr hi⟩
    · exact ⟨fun h => h₄ (.inl h),not_lt.mp fun h => h₄ (.inr h)⟩
    · exact not_le.mp fun h => h₅ (.inl h)
    · exact fun h => h₅ (.inr h)
  cases hr : s.received i with
  | none => exact hopen htaken fun r hr' => by rw [hr] at hr'; cases hr'
  | some r =>
    dsimp only
    by_cases hzero : idDistance xferId r.id=0
    · -- a BEGIN of the transfer noted last
      have ho : ¬ Opens s i c := fun ho => (ho.2.2.2 r hr).1 hzero
      rw [if_pos hzero]
      unfold onBeginAgain
      split_ifs with hsame hfin
      · exact hignored ho
      · obtain ⟨hid,htotal,-⟩ := not_or.mp hsame |>.imp not_not.mp not_or.mp
        refine ⟨_,.beginFinished ho hr hfin,?_⟩
        intro p hp id k hbody
        obtain rfl := mem_singleton.mp hp
        rw [mem_singleton,← hid,← not_not.mp htotal]
        exact hbody.symm
      split
      · next rx hx =>
        split_ifs with hid
        · rw [rxSendAck,seatState_setRx]
          refine ⟨_,.beginAgain ho hr hx (hid.trans (not_not.mp (not_or.mp hsame).1)),?_⟩
          intro p hp id k hbody
          obtain rfl := mem_singleton.mp hp
          exact mem_singleton.mpr hbody.symm
        · exact hignored ho
      · exact hignored ho
    · rw [if_neg hzero]
      split_ifs with hhalf
      · exact hignored fun ho => not_lt.mpr hhalf (ho.2.2.2 r hr).2
      refine hopen htaken fun r' hr' => ?_
      rw [hr] at hr'
      cases hr'
      exact ⟨hzero,not_le.mp hhalf⟩

theorem onChunk_seatStep (now xferId offset : ℕ) (data : List UInt8) (hfilter : ¬ Filtered s i) :
    ∃ acks,SeatStep s i (.recv now ⟨i,.chunk xferId offset data⟩)
        ((onChunk now s i xferId offset data).1.seatState i) acks ∧
      Acks (onChunk now s i xferId offset data).2.1 acks := by
  set c : Call := .recv now ⟨i,.chunk xferId offset data⟩ with hc
  have ho : ¬ Opens s i c := id
  have hkeep : ∃ acks,SeatStep s i c (s.seatState i) acks ∧ Acks [] acks :=
    ⟨[],.keep ho,fun p hp => by cases hp⟩
  have hclosed : ∃ acks,SeatStep s i c ((onChunkClosed now s i xferId).1.seatState i) acks ∧
      Acks (onChunkClosed now s i xferId).2 acks := by
    unfold onChunkClosed
    cases hr : s.received i with
    | none => exact hkeep
    | some r =>
      dsimp only
      split_ifs with hfin
      · refine ⟨[.ack r.id r.total],?_,?_⟩
        · simp only [seatState,update_self]
          exact .chunkFinished ho hr hfin.1
        · intro p hp id k hbody
          obtain rfl := mem_singleton.mp hp
          rw [mem_singleton,hfin.2.1]
          exact hbody.symm
      · exact hkeep
  unfold onChunk
  dsimp only
  split_ifs with hsrc
  · exact hkeep
  · cases hx : s.rx i with
    | none => exact hclosed
    | some rx =>
      dsimp only
      by_cases hid : rx.xferId=xferId
      · rw [if_pos hid]
        dsimp only
        by_cases hin : rx.total<offset ∨ data=[] ∨ rx.total<offset+data.length
        · have hsame : rx.onChunk now s.pacing.ice offset data=(rx,[],false) := by
            unfold Rx.onChunk
            rw [if_pos hin]
          rw [hsame,seatState_setRx]
          have hseat : s.seatState i=(some rx,s.received i) := by
            rw [seatState,hx]
          exact ⟨[],hseat ▸ .keep ho,fun p hp => by cases hp⟩
        · push Not at hin
          have ht : rx.Takes offset data := hin
          obtain ⟨hlt,hwire⟩ := not_or.mp hsrc
          rw [seatState_setRx]
          refine ⟨_,.stored ho hx ⟨rfl,hfilter,not_le.mp hlt,hwire,rfl,rfl,rx,hx,hid,ht⟩ ht,?_⟩
          intro p hp id k hbody
          obtain ⟨b,hb,rfl⟩ := mem_map.mp hp
          have hbk : b=.ack id k := hbody
          exact hbk ▸ hb
      · rw [if_neg hid]
        exact hclosed

theorem handleDecoded_seatStep (now src : ℕ) (pkt : Packet) :
    ∃ acks,SeatStep s src (.recv now pkt) ((handleDecoded now s pkt).1.seatState src) acks ∧
      (pkt.localSlot=src → Acks (handleDecoded now s pkt).2.1 acks) := by
  obtain ⟨i,body⟩ := pkt
  by_cases hi : src=i
  · subst hi
    unfold handleDecoded
    dsimp only
    have hquiet : ∀ (h : ¬ Opens s src (.recv now ⟨src,body⟩)) (out : List Packet),
        (∀ p∈out,∀ id k,p.body≠.ack id k) →
        ∃ acks,SeatStep s src (.recv now ⟨src,body⟩) (s.seatState src) acks ∧
          (src=src → Acks out acks) := fun h out hout =>
      ⟨[],.keep h,fun _ p hp id k hb => absurd hb (hout p hp id k)⟩
    split
    · next hfilter =>
      refine hquiet (fun ho => ?_) [] (fun p hp => by cases hp)
      cases body with
      | begin => exact ho.2.1 hfilter
      | _ => exact ho
    next hfilter =>
    cases body with
    | begin op slot xferId total crc =>
      obtain ⟨acks,hstep,hacks⟩ := onBegin_seatStep now op slot xferId total crc hfilter
      exact ⟨acks,hstep,fun _ => hacks⟩
    | chunk xferId offset data =>
      obtain ⟨acks,hstep,hacks⟩ := onChunk_seatStep now xferId offset data hfilter
      exact ⟨acks,hstep,fun _ => hacks⟩
    | ack xferId ackBytes =>
      have hseat : (onAck now s src xferId ackBytes).seatState src=s.seatState src := by
        unfold onAck
        split
        · rfl
        · split <;> rfl
      dsimp only
      rw [hseat]
      exact hquiet id [] (fun p hp => by cases hp)
    | probe key replied =>
      have hseat : (onProbe s src key replied).1.seatState src=s.seatState src := by
        unfold onProbe
        split
        · rfl
        · split <;> rfl
      dsimp only
      rw [hseat]
      refine hquiet id _ fun p hp id k => ?_
      unfold onProbe at hp
      split at hp
      · cases hp
      split at hp
      · obtain rfl := mem_singleton.mp hp
        exact Body.noConfusion
      · cases hp
    | probeReply key matched =>
      have hseat : (onProbeReply s src key matched).1.seatState src=s.seatState src := by
        unfold onProbeReply
        split
        · split <;> rfl
        · split <;> rfl
      dsimp only
      rw [hseat]
      refine hquiet id _ fun p hp id k => ?_
      unfold onProbeReply at hp
      split at hp
      · split at hp
        · obtain rfl := mem_singleton.mp hp
          exact Body.noConfusion
        · cases hp
      · split at hp <;> cases hp
    | probeDone key =>
      have hseat : (onProbeDone s src key).seatState src=s.seatState src := by
        unfold onProbeDone
        split
        · split <;> rfl
        · rfl
      dsimp only
      rw [hseat]
      exact hquiet id [] (fun p hp => by cases hp)
  · rw [handleDecoded_seatState now body hi]
    refine ⟨[],.keep ?_,fun h => absurd h.symm hi⟩
    intro ho
    cases body with
    | begin => exact hi ho.1.symm
    | _ => exact ho

theorem finishRx_seatState : (finishRx s src).seatState src=(none,(s.received src).map fun r =>
      { r with finished := r.finished || (s.rx src).any Rx.ready }) := by
  simp [finishRx,rxClear,seatState]

theorem finishRx_seatState_of_ne {src : ℕ} (h : j≠src) :
    (finishRx s src).seatState j=s.seatState j := by
  refine (rxClear_seatState h).trans ?_
  simp [seatState,update_of_ne h]

theorem foldl_finishRx_seatState {l : List ℕ} (hl : l.Nodup) (j : ℕ) :
    (l.foldl finishRx s).seatState j =
      if j∈l then (finishRx s j).seatState j else s.seatState j := by
  induction l generalizing s with
  | nil => rfl
  | cons k l ih =>
    obtain ⟨hk,hl⟩ := nodup_cons.mp hl
    rw [foldl_cons,ih hl]
    by_cases hjk : j=k
    · subst hjk
      rw [if_neg hk,if_pos mem_cons_self]
    have hsame:=finishRx_seatState_of_ne (s := s) hjk
    by_cases hj : j∈l
    · rw [if_pos hj,if_pos (mem_cons_of_mem k hj),finishRx_seatState,finishRx_seatState]
      rw [seatState,seatState,Prod.mk.injEq] at hsame
      rw [hsame.1,hsame.2]
    · rw [if_neg hj,if_neg (by simp [hjk,hj]),hsame]

def Call.fromSeat : Call → Option ℕ
  | .recv _ pkt => some pkt.localSlot
  | _ => none

theorem finishFrom_seatState (which : FinishFrom) (src : ℕ) :
    (finishFrom s which).seatState src=s.seatState src ∨
      (finishFrom s which).seatState src=(finishRx s src).seatState src := by
  cases which with
  | all =>
    have h:=foldl_finishRx_seatState (s := s) (nodup_range (n := maxSlots)) src
    change ((List.range maxSlots).foldl finishRx s).seatState src=_ ∨
      ((List.range maxSlots).foldl finishRx s).seatState src=_
    rw [h]
    split
    · exact .inr rfl
    · exact .inl rfl
  | slot seat =>
    change seatState (if !s.cfg.isObserver ∧ seat=s.cfg.localSlot then txClear s
      else if seat < maxSlots then finishRx s seat else s) src=_ ∨ seatState
      (if !s.cfg.isObserver ∧ seat=s.cfg.localSlot then txClear s
      else if seat < maxSlots then finishRx s seat else s) src=_
    split_ifs
    · exact .inl rfl
    · by_cases h : src=seat
      · subst h
        exact .inr rfl
      · exact .inl (finishRx_seatState_of_ne h)
    · exact .inl rfl

theorem driveSender_seatState : (driveSender now s).1.seatState j=s.seatState j := by
  unfold driveSender
  split <;> rfl

theorem driveProbe_seatState : (driveProbe now s).1.seatState j=s.seatState j := by
  unfold driveProbe
  split
  · rfl
  · split_ifs <;> rfl

variable {c : Call}
theorem callAct_seatState (hc : c.fromSeat=none) (src : ℕ) :
    (callAct s c).1.seatState src=s.seatState src ∨
      (callAct s c).1.seatState src=(finishRx s src).seatState src := by
  cases c with
  | recv now pkt => cases hc
  | drive now =>
    left
    change (drive now s).1.seatState src=s.seatState src
    unfold drive
    dsimp only
    split
    · rw [driveSender_seatState,driveProbe_seatState]
    · rw [driveProbe_seatState]
  | begin now op slot blob =>
    left
    change (stateBegin now s op slot blob).1.seatState src=s.seatState src
    unfold stateBegin
    split_ifs
    · rfl
    · rfl
    · rfl
    · rfl
    · exact driveSender_seatState now
  | probe now key =>
    left
    change (stateProbe now s key).1.seatState src=s.seatState src
    unfold stateProbe
    dsimp only
    split_ifs
    · rfl
    · rfl
    · rfl
    · exact driveProbe_seatState now
  | probeReply now matched =>
    left
    change (probeReply now s matched).1.seatState src=s.seatState src
    unfold probeReply
    split
    · rfl
    split
    · rfl
    unfold answerProbe
    dsimp only
    split_ifs <;> rfl
  | probeFinish =>
    left
    change (sendProbeDone s).1.seatState src=s.seatState src
    unfold sendProbeDone
    split
    · split <;> rfl
    · rfl
  | takeReady =>
    left
    change (takeReady s).seatState src=s.seatState src
    unfold takeReady
    split <;> rfl
  | finish =>
    change (stateFinish s).seatState src=_ ∨ (stateFinish s).seatState src=_
    unfold stateFinish
    split
    · exact finishFrom_seatState .all src
    · exact .inl rfl
    next seat _ =>
    by_cases h : src=seat
    · subst h
      exact .inr rfl
    · exact .inl (finishRx_seatState_of_ne h)
  | finishFrom which => exact finishFrom_seatState which src
  | dropPeer slot =>
    left
    change (dropPeer s slot).seatState src=s.seatState src
    have hdrop : (dropReceiver s slot).seatState src=s.seatState src := by
      unfold dropReceiver
      split
      · split <;> rfl
      · rfl
    unfold dropPeer
    dsimp only
    split
    · split <;> exact hdrop
    · exact hdrop
  | setLink running ice rbPeerSlot => exact .inl rfl

theorem callAct_seatStep (s : Session) (src : ℕ) (c : Call) :
    ∃ acks,SeatStep s src c ((callAct s c).1.seatState src) acks ∧
      (c.fromSeat=some src → Acks (callAct s c).2.1 acks) := by
  cases hc : c.fromSeat with
  | some i =>
    cases c with
    | recv now pkt =>
      obtain ⟨acks,hstep,hacks⟩ := handleDecoded_seatStep (s := s) now src pkt
      refine ⟨acks,hstep,fun h => hacks ?_⟩
      cases hc
      exact Option.some.inj h
    | _ => cases hc
  | none =>
    have ho : ¬ Opens s src c := by
      cases c with
      | recv now pkt => cases hc
      | _ => exact id
    refine (callAct_seatState (s := s) hc src).elim (fun h => ?_) fun h => ?_
    · exact ⟨[],h ▸ .keep ho,fun h => by cases h⟩
    · rw [h,finishRx_seatState]
      exact ⟨[],.closed ho,fun h => by cases h⟩

theorem callAct_seat (s : Session) (src : ℕ) (c : Call) :
    ∃ seat acks,SeatStep s src c seat acks ∧ (callAct s c).1.rx src=seat.1 ∧
      (callAct s c).1.received src=seat.2 ∧
      (c.fromSeat=some src → Acks (callAct s c).2.1 acks) := by
  obtain ⟨acks,hstep,hacks⟩ := callAct_seatStep s src c
  exact ⟨_,acks,hstep,rfl,rfl,hacks⟩

theorem sendChunks_not_ack (tx : Tx) (windowEnd fuel cursor : ℕ) :
    ∀ b∈(tx.sendChunks windowEnd fuel cursor).1,∀ id k,b≠.ack id k := by
  induction fuel generalizing cursor with
  | zero => exact forall_mem_nil _
  | succ fuel ih =>
    rw [Tx.sendChunks]
    split
    · exact forall_mem_cons.mpr ⟨fun _ _ => Body.noConfusion,ih _⟩
    · exact forall_mem_nil _

theorem driveSender_not_ack : ∀ p∈(driveSender now s).2,∀ id k,p.body≠.ack id k := by
  have hbegin : ∀ (pac : Pacing) (tx : Tx),∀ b∈(tx.driveBegin now pac).2,∀ id k,
      b≠.ack id k := by
    intro pac tx
    unfold Tx.driveBegin
    generalize (if tx.cwnd=0 ∨ tx.chunksCap=0 then pacingReset pac tx else tx)=tx'
    dsimp only
    split
    · exact forall_mem_singleton.mpr fun _ _ => Body.noConfusion
    · exact forall_mem_nil _
  have hwindow : ∀ tx : Tx,∀ b∈tx.driveWindow.2,∀ id k,b≠.ack id k := by
    intro tx
    unfold Tx.driveWindow
    exact sendChunks_not_ack _ _ _ _
  have hdrive : ∀ (pac : Pacing) (tx : Tx),∀ b∈(tx.drive now pac).2.2,∀ id k,b≠.ack id k := by
    intro pac tx
    unfold Tx.drive
    split
    · exact forall_mem_nil _
    dsimp only
    split
    · exact hbegin pac tx
    intro b hb
    rcases mem_append.mp hb with hb | hb
    · exact hbegin pac tx b hb
    · exact hwindow _ b hb
  unfold driveSender
  split
  · exact forall_mem_nil _
  intro p hp
  obtain ⟨b,hb,rfl⟩ := mem_map.mp hp
  exact hdrive _ _ b hb

theorem driveProbe_not_ack : ∀ p∈(driveProbe now s).2,∀ id k,p.body≠.ack id k := by
  unfold driveProbe
  split
  · exact forall_mem_nil _
  split_ifs
  · exact forall_mem_singleton.mpr fun _ _ => Body.noConfusion
  · exact forall_mem_nil _
  · exact forall_mem_nil _
  · exact forall_mem_nil _
  · exact forall_mem_singleton.mpr fun _ _ => Body.noConfusion

theorem callAct_ack {p : Packet} (hp : p∈(callAct s c).2.1) {id k : ℕ}
    (hbody : p.body=.ack id k) : ∃ src,c.fromSeat=some src := by
  cases c with
  | recv now pkt => exact ⟨_,rfl⟩
  | drive now =>
    exfalso
    change p∈(driveProbe now s).2++_ at hp
    rcases mem_append.mp hp with hp | hp
    · exact driveProbe_not_ack now p hp id k hbody
    split at hp
    · exact driveSender_not_ack now p hp id k hbody
    · cases hp
  | begin now op slot blob =>
    exfalso
    change p∈(stateBegin now s op slot blob).2.1 at hp
    unfold stateBegin at hp
    split_ifs at hp
    · cases hp
    · cases hp
    · cases hp
    · cases hp
    rcases mem_cons.mp hp with rfl | hp
    · cases hbody
    · exact driveSender_not_ack now p hp id k hbody
  | probe now key =>
    exfalso
    change p∈(stateProbe now s key).2 at hp
    unfold stateProbe at hp
    dsimp only at hp
    split_ifs at hp
    · cases hp
    · cases hp
    · cases hp
    · exact driveProbe_not_ack now p hp id k hbody
  | probeReply now matched =>
    exfalso
    change p∈(probeReply now s matched).2.1 at hp
    unfold probeReply at hp
    split at hp
    · cases hp
    split at hp
    · cases hp
    · obtain rfl := mem_singleton.mp hp
      cases hbody
  | probeFinish =>
    exfalso
    change p∈(sendProbeDone s).2 at hp
    unfold sendProbeDone at hp
    split at hp
    · split at hp
      · obtain rfl := mem_singleton.mp hp
        cases hbody
      · cases hp
    · cases hp
  | takeReady | finish | finishFrom | dropPeer | setLink => cases hp

section Config
variable (now : ℕ) (s : Session)
theorem onBegin_cfg (src : ℕ) (op : StateOp) (slot xferId total crc : ℕ) :
    (onBegin now s src op slot xferId total crc).1.cfg=s.cfg := by
  have hprobe : (supersedeProbe s src).cfg=s.cfg := by
    unfold supersedeProbe
    split
    · split <;> rfl
    · rfl
  have htx : ∀ t : Session,(supersedeTx t src).cfg=t.cfg := by
    intro t
    unfold supersedeTx
    split
    · split <;> rfl
    · rfl
  have hopen : (openRx now s src op slot xferId total crc).1.cfg=s.cfg := (htx _).trans hprobe
  have hagain : ∀ r,(onBeginAgain now s src r op slot xferId total crc).1.cfg=s.cfg := by
    intro r
    unfold onBeginAgain
    split
    · rfl
    split
    · rfl
    split
    · split <;> rfl
    · rfl
  unfold onBegin
  split_ifs
  · rfl
  · rfl
  · rfl
  · rfl
  · rfl
  split
  · split_ifs
    · exact hagain _
    · rfl
    · exact hopen
  · exact hopen

theorem onChunk_cfg (src xferId offset : ℕ) (data : List UInt8) :
    (onChunk now s src xferId offset data).1.cfg=s.cfg := by
  have hclosed : (onChunkClosed now s src xferId).1.cfg=s.cfg := by
    unfold onChunkClosed
    split
    · split <;> rfl
    · rfl
  unfold onChunk
  dsimp only
  split
  · rfl
  split
  · split
    · rfl
    · exact hclosed
  · exact hclosed

theorem handleDecoded_cfg (pkt : Packet) : (handleDecoded now s pkt).1.cfg=s.cfg := by
  unfold handleDecoded
  dsimp only
  split
  · rfl
  split
  · exact onBegin_cfg ..
  · exact onChunk_cfg ..
  · unfold onAck
    split
    · rfl
    · split <;> rfl
  · unfold onProbe
    split
    · rfl
    · split <;> rfl
  · unfold onProbeReply
    split
    · split <;> rfl
    · split <;> rfl
  unfold onProbeDone
  split
  · split <;> rfl
  · rfl

theorem driveProbe_cfg : (driveProbe now s).1.cfg=s.cfg := by
  unfold driveProbe
  split
  · rfl
  · split_ifs <;> rfl

theorem driveSender_cfg : (driveSender now s).1.cfg=s.cfg := by
  unfold driveSender
  split <;> rfl

theorem stateBegin_cfg (op : StateOp) (slot : ℕ) (blob : List UInt8) :
    (stateBegin now s op slot blob).1.cfg=s.cfg := by
  unfold stateBegin
  split_ifs
  · rfl
  · rfl
  · rfl
  · rfl
  · exact driveSender_cfg now _

theorem stateProbe_cfg (key : ProbeKey) : (stateProbe now s key).1.cfg=s.cfg := by
  unfold stateProbe
  dsimp only
  split_ifs
  · rfl
  · rfl
  · rfl
  · exact driveProbe_cfg now _

theorem probeReply_cfg (matched : Bool) : (probeReply now s matched).1.cfg=s.cfg := by
  unfold probeReply
  split
  · rfl
  split
  · rfl
  unfold answerProbe
  dsimp only
  split_ifs <;> rfl

theorem foldl_finishRx_cfg (l : List ℕ) : (l.foldl finishRx s).cfg=s.cfg := by
  induction l generalizing s with
  | nil => rfl
  | cons i l ih => exact ih (finishRx s i)

theorem finishFrom_cfg (which : FinishFrom) : (finishFrom s which).cfg=s.cfg := by
  cases which with
  | all => exact foldl_finishRx_cfg s _
  | slot seat =>
    unfold finishFrom
    dsimp only
    split_ifs <;> rfl

theorem stateFinish_cfg : (stateFinish s).cfg=s.cfg := by
  unfold stateFinish
  split
  · exact finishFrom_cfg s .all
  · rfl
  · rfl

theorem dropPeer_cfg (slot : ℕ) : (dropPeer s slot).cfg=s.cfg := by
  have hdrop : (dropReceiver s slot).cfg=s.cfg := by
    unfold dropReceiver
    split
    · split <;> rfl
    · rfl
  unfold dropPeer
  dsimp only
  split
  · split <;> exact hdrop
  · exact hdrop

theorem callAct_cfg (c : Call) : (callAct s c).1.cfg=s.cfg := by
  cases c with
  | recv now pkt => exact handleDecoded_cfg now s pkt
  | drive now =>
    change (if (driveProbe now s).1.anyActive then driveSender now (driveProbe now s).1
      else ((driveProbe now s).1,[])).1.cfg=s.cfg
    split
    · exact (driveSender_cfg now _).trans (driveProbe_cfg now s)
    · exact driveProbe_cfg now s
  | begin now op slot blob => exact stateBegin_cfg now s op slot blob
  | probe now key => exact stateProbe_cfg now s key
  | probeReply now matched => exact probeReply_cfg now s matched
  | probeFinish =>
    change (sendProbeDone s).1.cfg=s.cfg
    unfold sendProbeDone
    split
    · split <;> rfl
    · rfl
  | takeReady =>
    change (takeReady s).cfg=s.cfg
    unfold takeReady
    split <;> rfl
  | finish => exact stateFinish_cfg s
  | finishFrom which => exact finishFrom_cfg s which
  | dropPeer slot => exact dropPeer_cfg s slot
  | setLink => rfl

end Config

theorem runCalls_cfg (cfg : Config) (ice : Bool) (cs : List Call) :
    (runCalls cfg ice cs).cfg=cfg := by
  induction cs using List.reverseRecOn with
  | nil => rfl
  | append_singleton cs c ih => rw [runCalls_concat,callAct_cfg,ih]

end RecompNet.StateSync
