import RecompNet.Session.OwnRows

/-!
# Epochs

INPUT, INPUT_CONFIRM and rollback control of another input epoch leave no trace.
-/
namespace RecompNet.Whole
open List DelaySync
open Proto (DecodedPacket)
open BoundedQueue
open DelaySync (Alarmed Guards Hears Stored)
variable {pkt e : DecodedPacket} {q : List DecodedPacket}
theorem mem_admitNewer (h : e∈admitNewer pkt q) : e∈q ∨ e=pkt := by
  rcases mem_offer h with hshed | hnew
  · exact .inl (mem_shed hshed)
  · exact .inr hnew

theorem mem_coalesce {same : DecodedPacket → DecodedPacket → Bool} (h : e∈coalesce same pkt q) :
    e∈q ∨ e=pkt := by
  unfold coalesce at h
  cases hm : merge (same pkt) (fun _ => pkt) q with
  | none =>
    rw [hm] at h
    exact mem_admitNewer h
  | some q' =>
    rw [hm] at h
    rcases mem_merge hm h with hold | ⟨_,_,_,hnew⟩
    · exact .inl hold
    · exact .inr hnew

theorem mem_noteResolved (h : e∈noteResolved pkt q) : e∈q ∨ e=pkt := by
  unfold noteResolved at h
  cases hm : merge (sameSender pkt) (fun e =>
      if epochBefore e.rbResolvedThrough pkt.rbResolvedThrough then pkt else e) q with
  | none =>
    rw [hm] at h
    exact mem_offer h
  | some q' =>
    rw [hm] at h
    rcases mem_merge hm h with hold | ⟨z,hz,_,hnew⟩
    · exact .inl hold
    split at hnew
    · exact .inr hnew
    · exact .inl (hnew ▸ hz)

variable {rb : RbQueues} {kind : Session.RbKind}
theorem mem_queue_setQueue (k : Session.RbKind)
    (h : e∈Session.queue (Session.setQueue rb k q) kind)
    (hq : e∈q → e∈Session.queue rb k ∨ e=pkt) : e∈Session.queue rb kind ∨ e=pkt := by
  cases k <;> cases kind <;> first | exact hq h | exact .inl h

theorem RbQueues.mem_receive {skip : Bool} (h : e∈Session.queue (rb.receive skip pkt) kind) :
    e∈Session.queue rb kind ∨ e=pkt ∧ pkt.type.isRbControl := by
  have hcontrol : ∀ {p : Prop},p ∨ e=pkt → pkt.type.isRbControl →
      p ∨ e=pkt ∧ pkt.type.isRbControl :=
    fun hp ht => hp.imp_right fun he => ⟨he,ht⟩
  unfold receive at h
  split at h
  · next ht => exact hcontrol (mem_queue_setQueue .fc h mem_push) (by rw [ht]; rfl)
  · next ht =>
    split at h
    · exact .inl h
    split at h
    · exact .inl h
    · exact hcontrol (mem_queue_setQueue .sync h mem_offer) (by rw [ht]; rfl)
  · next ht =>
    split at h
    · exact .inl h
    · exact hcontrol (mem_queue_setQueue .sealRows h mem_admitNewer) (by rw [ht]; rfl)
  · next ht =>
    split at h
    · exact .inl h
    · exact hcontrol (mem_queue_setQueue .baseline h mem_coalesce) (by rw [ht]; rfl)
  · next ht =>
    split at h
    · exact .inl h
    · exact hcontrol (mem_queue_setQueue .post h mem_coalesce) (by rw [ht]; rfl)
  · next ht => exact hcontrol (mem_queue_setQueue .resolved h mem_noteResolved) (by rw [ht]; rfl)
  · exact .inl h

namespace Session
variable {A B : List (List UInt8)} {s s' s'' : Session}

/-- The packet stood in one of these datagrams. -/
def Origin (A : List (List UInt8)) (s : Session) (pkt : DecodedPacket) : Prop :=
  ∃ bytes∈A,s.accepted bytes=some pkt

structure Fresh (A : List (List UInt8)) (s : Session) : Prop where
  stored : Stored (fun body => ∃ pkt,s.Origin A pkt ∧ inputBody pkt=some body) s.input
  queues : ∀ kind,∀ e∈queue s.rb kind,
    s.Origin A e ∧ e.type.isRbControl ∧ e.inputEpoch.toNat=s.input.inputEpoch
  alarm : Alarmed s.input

structure Safe (A : List (List UInt8)) (s s' : Session) : Prop where
  cfg : s'.cfg=s.cfg
  fresh : Fresh A s → Fresh A s'
  stays : s.input.inputDesync.isSome → s'.input.inputDesync.isSome

theorem Safe.refl (A : List (List UInt8)) (s : Session) : Safe A s s := ⟨rfl,id,id⟩
theorem Safe.trans (h : Safe A s s') (h' : Safe A s' s'') : Safe A s s'' :=
  ⟨h'.cfg.trans h.cfg,h'.fresh ∘ h.fresh,h'.stays ∘ h.stays⟩

theorem origin_congr (h : s'.cfg=s.cfg) : s'.Origin A pkt=s.Origin A pkt := by
  unfold Origin accepted
  rw [h]

theorem Fresh.mono (h : Fresh A s) (hAB : A ⊆ B) : Fresh B s := by
  have horigin : ∀ pkt,s.Origin A pkt → s.Origin B pkt :=
    fun pkt ⟨bytes,hb,hacc⟩ => ⟨bytes,hAB hb,hacc⟩
  refine ⟨⟨?_,?_⟩,?_,h.alarm⟩
  · intro slot tick smp hget
    obtain ⟨ackTick,frames,acks,f,⟨pkt,hpkt,hbody⟩,hf⟩ := h.stored.rows slot tick smp hget
    exact ⟨ackTick,frames,acks,f,⟨pkt,horigin pkt hpkt,hbody⟩,hf⟩
  · intro slot tick hash hget
    obtain ⟨pkt,hpkt,hbody⟩ := h.stored.confirms slot tick hash hget
    exact ⟨pkt,horigin pkt hpkt,hbody⟩
  · exact fun kind e he => ⟨horigin e (h.queues kind e he).1,(h.queues kind e he).2⟩

theorem Safe.of_hears
    (h : Hears (fun body => ∃ pkt,s.Origin A pkt ∧ inputBody pkt=some body) s.input s'.input)
    (hrb : s'.rb=s.rb) : Safe A s s' := by
  have hcfg : s'.cfg=s.cfg := h.cfg
  refine ⟨hcfg,fun hf => ⟨?_,?_,h.alarm hf.alarm⟩,h.stays⟩
  · have horigin : (fun body => ∃ pkt,s'.Origin A pkt ∧ inputBody pkt=some body) =
        fun body => ∃ pkt,s.Origin A pkt ∧ inputBody pkt=some body := by
      funext body
      simp only [origin_congr hcfg]
    rw [horigin]
    exact h.stored hf.stored
  · intro kind e he
    rw [hrb] at he
    rw [origin_congr hcfg,h.epoch]
    exact hf.queues kind e he

theorem Safe.of_guards (h : Guards s.input s'.input) (hrb : s'.rb=s.rb) : Safe A s s' :=
  .of_hears h.hears hrb
theorem Safe.of_same (hi : s'.input=s.input) (hrb : s'.rb=s.rb) : Safe A s s' :=
  .of_guards (hi ▸ .refl s.input) hrb

variable {f : DelaySync.Session → DelaySync.Session}
theorem Safe.withInput (h : ∀ i,Guards i (f i)) : Safe A s (s.withInput f) :=
  .of_guards ((Guards.gate s.input s.gate).trans (h _)) rfl
theorem Safe.of_watch (h : ∀ i,(f i).watch=i.watch) : Safe A s (s.withInput f) :=
  .withInput fun i => .of_watch (h i)
theorem Safe.withState (f : StateSync.Session → StateSync.Session) : Safe A s (s.withState f) :=
  .of_same rfl rfl

variable (now : ℕ) {body : DelaySync.Body}
theorem Safe.onInputPlane (hpkt : s.Origin A pkt)
    (hbody : inputBody pkt=some body) : Safe A s (s.onInputPlane now body) := by
  have hgate : Hears (fun body => ∃ pkt,s.Origin A pkt ∧ inputBody pkt=some body) s.input
      { s.input with gate := s.gate } := (Guards.gate s.input s.gate).hears
  exact .of_hears (hgate.trans (hears_handleDecoded now ⟨pkt,hpkt,hbody⟩)) rfl

theorem Safe.onControl (hpkt : s.Origin A pkt)
    (hepoch : pkt.type.isRbControl → pkt.inputEpoch.toNat=s.input.inputEpoch) :
    Safe A s (s.onControl pkt) := by
  unfold Session.onControl
  dsimp only
  split
  · exact .of_same rfl rfl
  split
  · exact .refl A s
  split
  · exact .of_same rfl rfl
  · exact .of_same rfl rfl
  · split
    · exact .of_same rfl rfl
    · exact .refl A s
  refine ⟨rfl,fun hf => ⟨hf.stored,?_,hf.alarm⟩,id⟩
  intro kind e he
  rcases RbQueues.mem_receive he with hold | ⟨rfl,hcontrol⟩
  · exact hf.queues kind e hold
  · exact ⟨hpkt,hcontrol,hepoch hcontrol⟩

theorem Safe.handleDecoded (hpkt : s.Origin A pkt) : Safe A s (s.handleDecoded now pkt) := by
  unfold Session.handleDecoded
  split
  · exact .refl A s
  next hctl =>
  split
  · exact .refl A s
  split
  · next body hbody =>
    have hbye : Safe A s (s.noteBye pkt) := by
      unfold noteBye
      dsimp only
      split
      · exact .of_same rfl rfl
      · exact .refl A s
    exact hbye.trans (.onInputPlane now (origin_congr hbye.cfg ▸ hpkt) hbody)
  · split
    · exact .withState _
    refine .onControl hpkt fun hcontrol => ?_
    by_contra hne
    exact hctl ⟨hcontrol,hne⟩

theorem Safe.hear {bytes : List UInt8} (hb : bytes∈A) : Safe A s (s.hear now bytes) := by
  unfold Session.hear
  split
  · next pkt hacc =>
    have hstamp : Safe A s (s.stamp now pkt) := by
      unfold stamp
      split
      · split <;> exact .of_same rfl rfl
      · exact .of_same rfl rfl
    have hpkt : s.Origin A pkt := ⟨bytes,hb,hacc⟩
    exact hstamp.trans (.handleDecoded now (origin_congr hstamp.cfg ▸ hpkt))
  · exact .refl A s

variable {ds : List (List UInt8)}
theorem Safe.hearAll (hds : ds ⊆ A) : Safe A s (s.hearAll now ds) := by
  unfold Session.hearAll
  induction ds generalizing s with
  | nil => exact .refl A s
  | cons bytes ds ih =>
    have hfirst : Safe A s (s.hear now bytes) := .hear now (hds mem_cons_self)
    exact hfirst.trans (ih (List.Subset.trans (subset_cons_self _ _) hds))

variable {bursts : List (List (List UInt8))}
theorem Safe.burst (hb : bursts.flatten ⊆ A) : Safe A s (burst now bursts s) := by
  induction bursts generalizing s with
  | nil => exact .refl A s
  | cons ds rest ih =>
    have hdrive : Safe A s (s.withState fun p => (StateSync.driveSender now p).1) := .withState _
    rw [flatten_cons] at hb
    unfold Session.burst
    dsimp only
    split
    · exact hdrive
    have hds : ds ⊆ A := List.Subset.trans (subset_append_left _ _) hb
    have hrest : rest.flatten ⊆ A := List.Subset.trans (subset_append_right _ _) hb
    exact (hdrive.trans (.hearAll now hds)).trans (ih hrest)

theorem Safe.driveProfiles : Safe A s (s.driveProfiles now) := .of_same rfl rfl

theorem Safe.pump (linkUp : Bool) (hds : ds ⊆ A) (hb : bursts.flatten ⊆ A) :
    Safe A s (s.pump now linkUp ds bursts) := by
  have hbursts : ∀ s : Session,
      Safe A s (if s.state.anyActive then Session.burst now bursts s else s) := by
    intro s
    split
    · exact .burst now hb
    · exact .refl A s
  unfold Session.pump
  refine .trans (.of_watch (linked_watch linkUp)) ?_
  refine .trans (.hearAll now hds) ?_
  refine .trans (.of_watch fun i => maybeBootstrap_watch now i) ?_
  refine .trans (.driveProfiles now) ?_
  refine .trans (.withState fun p => (StateSync.driveProbe now p).1) ?_
  refine .trans (hbursts _) ?_
  refine .trans (.of_watch fun i => keepAlive_watch now i) ?_
  refine .trans (.of_watch fun i => sendInputBundle_watch now i) ?_
  exact .of_watch fun i => resendDelaySync_watch now i

def Call.datagrams : Call → List (List UInt8)
  | .pump _ _ ds bursts => ds++bursts.flatten
  | _ => []

theorem Safe.call (c : Call) (hc : c≠.hardResync) (hA : c.datagrams ⊆ A) :
    Safe A s (s.call c) := by
  cases c with
  | startLan => exact .of_watch fun _ => rfl
  | pump now linkUp ds bursts =>
    exact .pump now linkUp (List.Subset.trans (subset_append_left _ _) hA)
      (List.Subset.trans (subset_append_right _ _) hA)
  | tryAdmit now simTick sampled =>
    exact .of_guards ((Guards.gate s.input s.gate).trans (.tryAdmit now simTick sampled _)) rfl
  | advance =>
    exact .of_watch fun i => applyPendingDelay_watch { i with simTick := i.simTick+1 }
  | requestDelayChange now newDelay =>
    exact .of_watch fun i => requestDelayChange_watch now newDelay i
  | hardResync => exact absurd rfl hc
  | primeDelayInputs now size bytes =>
    change Safe A s (s.primeDelayInputs now size bytes)
    unfold primeDelayInputs
    split
    · exact .refl A s
    · exact .of_guards (.of_watch (sendInputBundle_watch now _)) rfl
  | setInputSendSuppress suppress => exact .of_guards (.gate s.input _) rfl
  | prepareLocalTip now simTick sampled =>
    exact .of_watch fun i => prepareLocalTip_watch now simTick sampled i
  | setSimTick simTick =>
    exact .of_watch fun i => applyPendingDelay_watch { i with simTick := simTick }
  | clearRemoteInputs =>
    refine ⟨rfl,fun hf => ⟨⟨?_,hf.stored.confirms⟩,hf.queues,hf.alarm⟩,id⟩
    intro slot tick smp hget
    change ringGet (if slot=s.cfg.localSlot then s.input.remoteRings slot else .empty) tick =
      some smp at hget
    split at hget
    · exact hf.stored.rows slot tick smp hget
    · cases hget
  | takeRb kind =>
    change Safe A s (s.takeRb kind).1
    unfold takeRb
    split
    · exact .refl A s
    next entry rest hq =>
    refine ⟨rfl,fun hf => ⟨hf.stored,?_,hf.alarm⟩,id⟩
    intro kind' e he
    have hsub : e∈queue s.rb kind' ∨ e=entry :=
      mem_queue_setQueue kind he fun hrest => .inl (hq ▸ mem_cons_of_mem entry hrest)
    rcases hsub with hold | rfl
    · exact hf.queues kind' e hold
    · exact hf.queues kind e (hq ▸ mem_cons_self)
  | takeModset => exact .of_same rfl rfl
  | takeModsetAck | profilesBegin =>
    unfold Session.call
    dsimp only
    split
    · exact .of_same rfl rfl
    · exact .refl A s
  | state c quiet => exact .withState fun p => (StateSync.callAct p c).1

theorem hardResync_fresh (s : Session) : Fresh [] s.hardResync := by
  refine ⟨⟨nofun,nofun⟩,?_,nofun⟩
  intro kind e he
  cases kind <;> cases he

theorem freshSession_fresh (cfg : Config) : Fresh [] (freshSession cfg) := by
  refine ⟨⟨nofun,nofun⟩,?_,nofun⟩
  intro kind e he
  cases kind <;> cases he

/-- The datagrams given to a session since its last `hard_resync`. -/
def arrived (cs : List Call) : List (List UInt8) := cs.foldl (fun ds c => match c with
    | .hardResync => []
    | c => ds++c.datagrams) []

theorem run_fresh (cfg : Config) (cs : List Call) :
    Fresh (arrived cs) (cs.foldl call (freshSession cfg)) := by
  induction cs using List.reverseRecOn with
  | nil => exact freshSession_fresh cfg
  | append_singleton cs c ih =>
    unfold arrived at ih ⊢
    rw [foldl_append,foldl_append,foldl_cons,foldl_nil,foldl_cons,foldl_nil]
    split
    · exact hardResync_fresh _
    next hc =>
    exact (Safe.call c (fun h => hc h) (subset_append_right _ _)).fresh
      (ih.mono (subset_append_left _ _))

theorem run_stays {cs : List Call} (hcs : ∀ c∈cs,c≠.hardResync)
    (h : s.input.inputDesync.isSome) : (cs.foldl call s).input.inputDesync.isSome := by
  induction cs generalizing s with
  | nil => exact h
  | cons c cs ih =>
    have hstep : Safe c.datagrams s (s.call c) := .call c (hcs c mem_cons_self) (List.Subset.refl _)
    exact ih (fun c' hc' => hcs c' (mem_cons_of_mem c hc')) (hstep.stays h)

/-- What is kept of INPUT, INPUT_CONFIRM and rollback control. -/
structure Records where
  localRing : InputRing
  remoteRings : ℕ → InputRing
  highestRemoteAck : ℕ
  remoteContiguousAck : ℕ → Option ℕ
  peerAckTick : ℕ → Option ℕ
  peerAckSeen : ℕ → Bool
  published : TickRing historyLength ℕ
  peerHistory : ℕ → TickRing historyLength ℕ
  rb : RbQueues

def records (s : Session) : Records :=
  ⟨s.input.localRing,s.input.remoteRings,s.input.highestRemoteAck,s.input.remoteContiguousAck,
    s.input.peerAckTick,s.input.peerAckSeen,s.input.published,s.input.peerHistory,s.rb⟩

variable {now : ℕ}
theorem onInputPlane_records (h : (DelaySync.handleDecoded now { s.input with gate := s.gate }
      (Session.packet { s.input with gate := s.gate } body)).1 =
        { s.input with gate := s.gate }) : (s.onInputPlane now body).records=s.records := by
  unfold onInputPlane Session.withInput records
  dsimp only
  rw [h]

theorem handleDecoded_records (htype : pkt.type=.input ∨ pkt.type=.inputConfirm ∨
    pkt.type.isRbControl) (hne : pkt.inputEpoch.toNat≠s.input.inputEpoch) :
    (s.handleDecoded now pkt).records=s.records := by
  unfold handleDecoded
  split
  · rfl
  next hctl =>
  split
  · rfl
  rcases htype with htype | htype | hrb
  · have hbye : s.noteBye pkt=s := by
      unfold noteBye
      rw [if_neg (by simp [htype])]
    have hbody : inputBody pkt=some (.input pkt.localSlot.toNat pkt.inputEpoch.toNat
        pkt.ackTick.toNat (pkt.frames.map inputFrame) (pkt.acks.map ackOf)) := by
      unfold inputBody
      rw [htype]
    rw [hbody,hbye]
    refine onInputPlane_records ?_
    unfold DelaySync.handleDecoded
    rw [if_neg (by simp [DelaySync.Session.packet])]
    exact DelaySync.onInput_of_epoch_ne hne
  · have hbye : s.noteBye pkt=s := by
      unfold noteBye
      rw [if_neg (by simp [htype])]
    have hbody : inputBody pkt=some (.inputConfirm pkt.localSlot.toNat pkt.inputEpoch.toNat
        pkt.confirmSimTick.toNat pkt.confirmHash.toNat) := by
      unfold inputBody
      rw [htype]
    rw [hbody,hbye]
    refine onInputPlane_records ?_
    unfold DelaySync.handleDecoded
    rw [if_neg (by simp [DelaySync.Session.packet])]
    exact DelaySync.onInputConfirm_of_epoch_ne hne
  · exact absurd ⟨hrb,hne⟩ hctl

theorem inputBody_input {slot epoch ackTick : ℕ} {frames : List DelaySync.WireFrame}
    {acks : List (Option ℕ)} (h : inputBody pkt=some (.input slot epoch ackTick frames acks)) :
    pkt.type=.input ∧ pkt.localSlot.toNat=slot ∧ pkt.inputEpoch.toNat=epoch ∧
      frames=pkt.frames.map inputFrame := by
  unfold inputBody at h
  dsimp only at h
  split at h
  case h_4 ht =>
    cases h
    exact ⟨ht,rfl,rfl,rfl⟩
  all_goals cases h

/-- **Epochs are isolated.** For every run of a session: a packet of INPUT, INPUT_CONFIRM or rollback
control with another epoch changes none of the records, and what is published or taken came in
since the last `hard_resync`. -/
theorem epochs_isolated (cfg : Config) (cs : List Call) :
    let s:=cs.foldl call (freshSession cfg)
    (∀ now pkt,pkt.type=.input ∨ pkt.type=.inputConfirm ∨ pkt.type.isRbControl=true →
      pkt.inputEpoch.toNat≠s.input.inputEpoch → (s.handleDecoded now pkt).records=s.records) ∧
    (∀ now simTick sampled rows,(s.tryAdmit now simTick sampled).2=.publish rows →
      ∀ slot,s.cfg.slotOccupied slot=true → slot≠s.cfg.localSlot →
        ∃ pkt,s.Origin (arrived cs) pkt ∧ pkt.type=.input ∧ pkt.localSlot.toNat=slot ∧
          pkt.inputEpoch.toNat=s.input.inputEpoch ∧ ∃ f∈pkt.frames,f.tick.toNat=simTick ∧
            rows[slot]? = some (frameSample (inputFrame f))) ∧
    (∀ now simTick sampled rows,(s.tryAdmit now simTick sampled).2=.publish rows →
      s.cfg.localSlot<s.cfg.slotCount → ∃ smp,rows[s.cfg.localSlot]? = some smp ∧
        (smp=neutralSample simTick ∨
          ∃ row∈given (cs++[.tryAdmit now simTick sampled]),smp=row simTick)) ∧
    (∀ kind e,(s.takeRb kind).2=some e → s.Origin (arrived cs) e ∧
      e.type.isRbControl=true ∧ e.inputEpoch.toNat=s.input.inputEpoch) ∧
    (∀ T slot own peer,s.cfg.slotOccupied slot=true → slot≠s.cfg.localSlot →
      s.input.published.get? T=some own → (s.input.peerHistory slot).get? T=some peer →
      own≠peer → s.input.inputDesync.isSome=true) ∧
    (s.input.inputDesync.isSome=true → ∀ later : List Call,(∀ c∈later,c≠.hardResync) →
      ∀ now simTick sampled rows,
        ((later.foldl call s).tryAdmit now simTick sampled).2≠.publish rows) := by
  intro s
  have hf : Fresh (arrived cs) s := run_fresh cfg cs
  refine ⟨fun now pkt htype hne => handleDecoded_records htype hne,?_,?_,?_,hf.alarm,?_⟩
  · intro now simTick sampled rows hpub slot hocc hloc
    obtain ⟨smp,hget,hrow⟩ := tryAdmit_rows hpub hocc hloc
    obtain ⟨ackTick,frames,acks,f,⟨pkt,hpkt,hbody⟩,hmem,htick,hsmp⟩ :=
      hf.stored.rows slot simTick smp hget
    obtain ⟨htype,hslot,hepoch,rfl⟩ := inputBody_input hbody
    obtain ⟨wf,hwf,rfl⟩ := mem_map.mp hmem
    refine ⟨pkt,hpkt,htype,hslot,hepoch,wf,hwf,htick,?_⟩
    rw [hrow,hsmp,← htick]
    rfl
  · intro now simTick sampled rows hpub hplay
    have hgiven : given (cs++[.tryAdmit now simTick sampled]) =
        given cs++[fun t => futureSample t sampled] := by
      unfold given
      rw [foldl_append]
      rfl
    rw [hgiven]
    have hown : s.input.localRing.Holds (Own (given cs++[fun t => futureSample t sampled])) :=
      (run_own cfg cs).mono fun t smp ⟨htick,hfrom⟩ =>
        ⟨htick,hfrom.imp_right fun ⟨row,hrow,heq⟩ => ⟨row,mem_append_left _ hrow,heq⟩⟩
    have hobserver : s.input.isObserver=false := by
      rw [DelaySync.Session.isObserver,Config.isObserver,decide_eq_false_iff_not,not_le]
      exact hplay
    obtain ⟨smp,hsmp,hrow⟩ := tryAdmit_own (s := { s.input with gate := s.gate })
      (fun t => ⟨rfl,.inr ⟨_,mem_append_right _ mem_cons_self,rfl⟩⟩) hown (fun _ _ h => h.1)
      hobserver hpub
    exact ⟨smp,hrow,hsmp.2⟩
  · intro kind e he
    unfold takeRb at he
    split at he
    · cases he
    next entry rest hq =>
    obtain rfl := Option.some.inj he
    exact hf.queues kind entry (hq ▸ mem_cons_self)
  · intro hset later hlater now simTick sampled rows
    exact tryAdmit_of_desync (run_stays hlater hset)

def strayConfirm : List (List UInt8) :=
  let cfg:=pairCfg false
  let magic:=UInt32.ofNat cfg.protocolMagic
  let sid:=UInt32.ofNat cfg.sessionId
  [(Proto.encodeStart 1200 magic sid 0).getD [],
    (Proto.encodeInput 1200 magic sid 1 0 0 [⟨0,[]⟩]).getD [],
    (Proto.encodeInputConfirm 1200 magic sid 1 0 0 5).getD []]

def strayCalls : List Call :=
  [.startLan,.pump 1 false strayConfirm [],.tryAdmit 2 0 (neutralSample 0)]

theorem epochs_isolated_stray :
    let s:=strayCalls.foldl call (freshSession (pairCfg false))
    (∃ own,s.input.published.get? 0=some own ∧ own≠5) ∧
    (s.input.peerHistory 1).get? 0=some 5 ∧ s.input.inputDesync.isSome=true ∧
    ∀ rows,((s.call .advance).tryAdmit 9 1 (neutralSample 1)).2≠.publish rows := by
  intro s
  have hown : ∃ own,s.input.published.get? 0=some own ∧ own≠5 :=
    ⟨(s.input.published.get? 0).getD 5,by decide +kernel,by decide +kernel⟩
  have hpeer : (s.input.peerHistory 1).get? 0=some 5 := by decide +kernel
  have hset : s.input.inputDesync.isSome=true := by
    obtain ⟨own,hget,hne⟩ := hown
    exact (epochs_isolated (pairCfg false) strayCalls).2.2.2.2.1 0 1 own 5 (by decide +kernel)
      (by decide +kernel) hget hpeer hne
  refine ⟨hown,hpeer,hset,?_⟩
  exact (epochs_isolated (pairCfg false) strayCalls).2.2.2.2.2 hset [.advance]
    (by simp) 9 1 (neutralSample 1)

end Session
end RecompNet.Whole
