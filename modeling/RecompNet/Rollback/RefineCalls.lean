import RecompNet.Rollback.Refine

/-!
# The calls are steps of the machine

Wire handlers, pumps, admission and frame end, then `reachable_steps`: whatever
holds of the machine in every run holds of the driver.
-/
namespace RecompNet.RbDriver
open Function List
variable {σ : Type} {C : Setup σ} {v : View}

namespace Driver
variable (d : Driver σ)
theorem onFrameCommitRequest_steps (sender : ℕ) (m : RbSync) :
    Steps C d (d.onFrameCommitRequest C sender m) := by
  unfold onFrameCommitRequest
  split
  · split
    · exact (Says.send d _ fun _ => by simp).steps
    · exact .refl d
  · exact .refl d

section
variable (m : RbSync)
theorem onRereplay_steps : Steps C d (d.onRereplay C v m) := by
  unfold onRereplay
  split
  · have h:=tipExtend_spec (C := C) (v := v) d m.c m.slot false
    split
    · next e he =>
      rw [he] at h
      exact h
    next e he =>
    rw [he] at h
    exact h.trans (episodeAbort_steps _ _)
  · split
    · split
      · exact .of_eq rfl
      · exact .refl d
    · exact (Says.sendSync d _ _ _ _ _ _ _ _).steps

theorem noteBeginSeq_steps : Steps C d (d.noteBeginSeq m).1 := by
  unfold noteBeginSeq
  dsimp only
  split
  · exact .of_eq rfl
  split
  · exact nackBegin_steps ..
  · exact .refl d

theorem arbitrateOpen_steps : Steps C d (d.arbitrateOpen v m).1 := by
  unfold arbitrateOpen
  split
  · exact .refl d
  split
  · exact episodeClear_steps d
  · exact nackBegin_steps ..

theorem arbitrateDeferred_steps : Steps C d (d.arbitrateDeferred m).1 := by
  unfold arbitrateDeferred
  split
  · exact .refl d
  split
  · exact .refl d
  split
  · exact (sendNack_steps _ _ _ _ _).trans (.of_eq rfl)
  · exact nackBegin_steps ..

theorem onNewBegin_steps : Steps C d (d.onNewBegin C v m) := by
  unfold onNewBegin
  have h:=noteBeginSeq_steps (C := C) d m
  split
  · next e he =>
    rw [he] at h
    exact h
  next e he =>
  rw [he] at h
  have h':=h.trans (arbitrateOpen_steps (v := v) e m)
  split
  · next f hf =>
    rw [hf] at h'
    exact h'
  next f hf =>
  rw [hf] at h'
  have h'':=h'.trans (arbitrateDeferred_steps f m)
  split
  · next g hg =>
    rw [hg] at h''
    exact h''
  next g hg =>
  rw [hg] at h''
  exact h''.trans (followOrDefer_steps ..)

theorem onBegin_steps : Steps C d (d.onBegin C v m) := by
  unfold onBegin
  split
  · exact .refl d
  split
  · exact onRereplay_steps d m
  have h:=beginRepeat_steps (C := C) d m.epoch
  split
  · next e he =>
    rw [he] at h
    exact h
  next e he =>
  rw [he] at h
  exact h.trans (onNewBegin_steps e m)

theorem onNack_steps : Steps C d (d.onNack C v m) := by
  unfold onNack
  split
  · have h : Steps C d { d with rb := d.rb.demoteResolvedThrough m.c } :=
      .one (.resolve (min d.rb.resolvedThrough m.c))
    exact h.trans (episodeAbort_steps _ _)
  · exact .refl d

theorem onAbort_steps : Steps C d (d.onAbort v m) := by
  unfold onAbort
  split
  · exact .of_eq rfl
  split
  · exact (episodeClear_steps (v := v) d).trans (.of_eq rfl)
  · exact .refl d

end

variable (sender : ℕ) (m : RbSync)
theorem onIdent_steps : Steps C d (d.onIdent C sender m) := by
  unfold onIdent
  split
  · exact .refl d
  next seat _ =>
  dsimp only
  generalize hx : (if m.c.testBit (localSlot C) then d
    else { d with aux := { d.aux with identOwed := true } })=x
  have hout : x.outline=d.outline := by
    rw [← hx]
    split <;> rfl
  split
  · exact .of_eq hout
  unfold judgeIdent
  dsimp only
  split
  · exact .of_eq hout
  · exact (refuse_steps _ _).start_eq hout

theorem onCommit_steps : Steps C d (d.onCommit C v sender m) := by
  unfold onCommit
  split
  · dsimp only
    split
    · exact (episodeClear_steps _).start_eq rfl
    · exact .of_eq rfl
  · exact .refl d

theorem requestQuiesce_outline : (d.requestQuiesce v).outline=d.outline := by
  unfold requestQuiesce
  split <;> rfl

theorem onQuiesce_steps : Steps C d (d.onQuiesce C v sender m) := by
  unfold onQuiesce
  split
  · exact .refl d
  · exact .of_eq (requestQuiesce_outline _)

theorem onSync_steps : Steps C d (d.onSync C v sender m) := by
  unfold onSync
  split
  · exact onFrameCommitRequest_steps ..
  · exact onBegin_steps ..
  · exact onNack_steps ..
  · exact onAbort_steps ..
  · exact onIdent_steps ..
  · exact onCommit_steps ..
  · exact onQuiesce_steps ..
  · exact .refl d

theorem onSealRows_steps (m : SealChunk) : Steps C d (d.onSealRows C v sender m) := by
  unfold onSealRows
  dsimp only
  split
  · exact .refl d
  split
  · split
    · exact .of_eq rfl
    · exact .refl d
  · exact (takeSealRows_steps _ _).trans (.of_eq rfl)

theorem onPeerBaseline_steps (sender epoch load : ℕ) (digest : DigestParts) :
    Steps C d (d.onPeerBaseline C v sender epoch load digest) := by
  unfold onPeerBaseline
  split
  · exact .refl d
  split
  · exact .of_eq rfl
  split
  · exact .refl d
  · exact (baselineTryCompare_steps _).start_eq rfl

theorem samplePostRtt_outline : (d.samplePostRtt v).outline=d.outline := by
  unfold samplePostRtt
  split <;> rfl

theorem onPeerPost_steps {sender epoch target master : ℕ}
    (hrec : .received ⟨sender,.post epoch target master⟩∈d.log) :
    Steps C d (d.onPeerPost C v sender epoch target master) := by
  unfold onPeerPost
  split
  · exact .refl d
  next i hi =>
  have hheard : Heard C i (.post epoch target master) d.outline.log := ⟨sender,hi,hrec⟩
  split
  · refine .one (.posts d.peerPost _ (fun _ _ h => .inl h) fun j e h => ?_)
    dsimp only at h
    by_cases hj : j=i
    · subst hj
      rw [update_self] at h
      cases h
      exact .inr hheard
    · rw [update_of_ne hj] at h
      exact .inl h
  · split
    · exact .refl d
    next hopen =>
    have hepoch : epoch=d.corr.epochId := by
      by_contra h
      exact hopen (.inr h)
    dsimp only
    have hout : ((d.samplePostRtt v).noteAnswer C sender).outline=d.outline :=
      samplePostRtt_outline d
    generalize (d.samplePostRtt v).noteAnswer C sender=e at hout
    have hlatch : Steps C e { e with
        peerPost := update e.peerPost i (some ⟨target,master⟩) } := by
      refine .one (.posts _ e.earlyPost (fun j p h => ?_) fun _ _ h => .inl h)
      dsimp only at h
      by_cases hj : j=i
      · subst hj
        rw [update_self] at h
        cases h
        rw [hout]
        subst hepoch
        exact .inr (.inr hheard)
      · rw [update_of_ne hj] at h
        exact .inl h
    exact hlatch.start_eq hout

theorem onFrameCommit_steps {sender tick digest : ℕ}
    (hrec : .received ⟨sender,.frameCommit tick digest⟩∈d.log) :
    Steps C d (d.onFrameCommit C sender tick digest) := by
  unfold onFrameCommit
  split
  · exact .refl d
  next i hi =>
  refine .one (.digests _ _ (fun j g h => ?_) fun j g h => ?_)
  · by_cases hj : j=i
    · subst hj
      simp only [update_self,HashConfirm.notePeer_loc] at h
      exact .inl h
    · simp only [update_of_ne hj] at h
      exact .inl h
  · by_cases hj : j=i
    · subst hj
      simp only [update_self,HashConfirm.notePeer_peer] at h
      rcases TickRing.get?_store_eq_some h with ⟨rfl,rfl⟩ | h
      · exact .inr ⟨sender,hi,hrec⟩
      · exact .inl h
    · simp only [update_of_ne hj] at h
      exact .inl h

theorem handle_steps (p : RbPacket) (hp : sessionAccepts C p) : Steps C d (handle C v d p) := by
  have htake : Steps C d (d.note (.received p)) := .one (.take p hp)
  unfold handle
  obtain ⟨sender,m⟩ := p
  refine htake.trans ?_
  cases m with
  | sync m => exact onSync_steps ..
  | sealRows m => exact onSealRows_steps ..
  | baseline epoch load digest => exact onPeerBaseline_steps ..
  | post epoch target master => exact onPeerPost_steps _ (by simp [note])
  | resolved tick => exact .one (.resolve _)
  | frameCommit tick digest => exact onFrameCommit_steps _ (by simp [note])
  | modset | modsetAck => exact .refl _

theorem drainWire_steps (inbox : List RbPacket) : Steps C d (d.drainWire C v inbox) := by
  have haccept : ∀ p∈drainOrder C inbox,sessionAccepts C p := by
    intro p hp
    obtain ⟨k,-,hk⟩ := mem_flatMap.mp hp
    have h:=(mem_filter.mp hk).2
    exact (Bool.and_eq_true_iff.mp h).1
  unfold drainWire
  generalize drainOrder C inbox=packets at haccept
  induction packets generalizing d with
  | nil => exact .refl d
  | cons p packets ih =>
    exact (handle_steps d p (haccept p (by simp))).trans
      (ih _ fun q hq => haccept q (mem_cons_of_mem _ hq))

theorem bootLatchOwn_steps : Steps C d (d.bootLatchOwn C) := by
  unfold bootLatchOwn
  split
  · exact .refl d
  split
  · exact .refl d
  next digest hdig =>
  obtain ⟨i,hi,hloc⟩ := Option.bind_eq_some_iff.mp hdig
  exact .one (.latchOwn digest ⟨i,firstSeat_mem hi,hloc⟩)

theorem bootLatchPeers_steps : Steps C d (d.bootLatchPeers C) := by
  refine .one (.latchPeers _ fun i g h => ?_)
  split at h
  · exact .inr h
  · exact .inl h

variable (code : Refusal)
theorem bootSettle_refuse_steps : Steps C d (d.bootSettle.refuse C code) := by
  have hstep:=Step.settleRefused (C := C) (s := d.outline) code
  refine .one ?_
  convert hstep using 1
  unfold refuse
  by_cases hr : d.refusal.isSome
  · obtain ⟨c,hc⟩ := Option.isSome_iff_exists.mp hr
    rw [if_pos (show d.bootSettle.refusal.isSome=true from hr)]
    simp [outline,bootSettle,hc]
  rw [if_neg (show ¬ d.bootSettle.refusal.isSome from hr)]
  have hn : d.refusal=none := by simpa using hr
  simp [outline,bootSettle,hn]

@[simp] theorem refuse_boot : (d.refuse C code).boot=d.boot := by
  unfold refuse
  split <;> rfl

theorem bootWait_spec : Steps C d (d.bootWait C v).1 ∧
    ((d.bootWait C v).2=false → (d.bootWait C v).1.boot.settled) := by
  unfold bootWait
  dsimp only
  generalize (if d.aux.bootHoldSinceMs=0 then v.now else d.aux.bootHoldSinceMs)=since
  split
  · exact ⟨(bootSettle_refuse_steps _ _).start_eq rfl,fun _ => by simp [bootSettle]⟩
  · exact ⟨.of_eq rfl,fun h => by cases h⟩

variable (own : ℕ)
theorem bootVerdict_steps (hown : d.boot.own=some own) : Steps C d (d.bootVerdict C own) := by
  unfold bootVerdict
  dsimp only
  split
  · split
    · next h => exact .one (.allowFork h)
    · exact bootSettle_refuse_steps ..
  next hall =>
  refine .one (.agree own hown fun i hi => ?_)
  by_contra h
  exact hall ⟨i,hi,h⟩

theorem bootDigestGate_steps : Steps C d (d.bootDigestGate C v).1 := by
  unfold bootDigestGate
  split
  · exact .refl d
  dsimp only
  have hown:=bootLatchOwn_steps (C := C) d
  split
  · exact hown
  next own ho =>
  have hpeers:=hown.trans (bootLatchPeers_steps (C := C) (d.bootLatchOwn C))
  split
  · exact hpeers.trans (bootWait_spec _).1
  · exact hpeers.trans (bootVerdict_steps _ _ ho)

theorem bootVerdict_settled : (d.bootVerdict C own).boot.settled := by
  unfold bootVerdict
  dsimp only
  split
  · split
    · rfl
    · simp [bootSettle]
  · rfl

theorem bootDigestGate_settled (h : (d.bootDigestGate C v).2=false) :
    (d.bootDigestGate C v).1.boot.settled := by
  unfold bootDigestGate at h ⊢
  split
  · assumption
  next hs =>
  rw [if_neg hs] at h
  dsimp only at h ⊢
  split
  · next ho => simp [ho] at h
  next own ho =>
  rw [ho] at h
  dsimp only at h
  split
  · next hm =>
    rw [if_pos hm] at h
    exact (bootWait_spec _).2 h
  · exact bootVerdict_settled ..

theorem refuse_frame : (d.refuse C code).stage=d.stage ∧ (d.refuse C code).sim=d.sim := by
  unfold refuse
  split <;> exact ⟨rfl,rfl⟩

theorem bootLatchOwn_frame :
    (d.bootLatchOwn C).stage=d.stage ∧ (d.bootLatchOwn C).sim=d.sim := by
  unfold bootLatchOwn
  split
  · exact ⟨rfl,rfl⟩
  · split <;> exact ⟨rfl,rfl⟩

theorem bootWait_frame : (d.bootWait C v).1.stage=d.stage ∧ (d.bootWait C v).1.sim=d.sim := by
  unfold bootWait
  dsimp only
  generalize (if d.aux.bootHoldSinceMs=0 then v.now else d.aux.bootHoldSinceMs)=since
  split
  · exact refuse_frame _ _
  · exact ⟨rfl,rfl⟩

theorem bootVerdict_frame :
    (d.bootVerdict C own).stage=d.stage ∧ (d.bootVerdict C own).sim=d.sim := by
  unfold bootVerdict
  dsimp only
  split
  · split
    · exact ⟨rfl,rfl⟩
    · exact refuse_frame _ _
  · exact ⟨rfl,rfl⟩

theorem bootDigestGate_frame :
    (d.bootDigestGate C v).1.stage=d.stage ∧ (d.bootDigestGate C v).1.sim=d.sim := by
  have hlatch:=bootLatchOwn_frame (C := C) d
  unfold bootDigestGate
  split
  · exact ⟨rfl,rfl⟩
  dsimp only
  split
  · exact hlatch
  rw [← hlatch.1,← hlatch.2]
  split
  · exact bootWait_frame ((d.bootLatchOwn C).bootLatchPeers C)
  · exact bootVerdict_frame ((d.bootLatchOwn C).bootLatchPeers C) _

theorem preAdmitHold_steps : Steps C d (d.preAdmitHold C v).1 := by
  have hgate:=bootDigestGate_steps (C := C) (v := v) d
  unfold preAdmitHold
  split
  · exact .refl d
  split
  · split
    · next e he =>
      rw [he] at hgate
      exact hgate
    next e he =>
    rw [he] at hgate
    exact hgate
  · exact .refl d

theorem preAdmitHold_free (h : (d.preAdmitHold C v).2=false) :
    (d.preAdmitHold C v).1.stage=d.stage ∧ (d.preAdmitHold C v).1.sim=d.sim ∧
      (d.preAdmitHold C v).1.refusal=none ∧
      (d.sim=1 → d.stage=.idle → (d.preAdmitHold C v).1.boot.settled) := by
  have hgate:=bootDigestGate_settled (C := C) (v := v) d
  have hframe:=bootDigestGate_frame (C := C) (v := v) d
  unfold preAdmitHold at h ⊢
  split
  · next hm =>
    rw [if_pos hm] at h
    cases h
  next hm =>
  rw [if_neg hm] at h
  split
  · next hone =>
    rw [if_pos hone] at h
    split
    · next e he =>
      rw [he] at h
      cases h
    next e he =>
    rw [he] at h hgate hframe
    exact ⟨hframe.1,hframe.2,by simpa using h,fun _ _ => hgate rfl⟩
  · next hone =>
    rw [if_neg hone] at h
    exact ⟨rfl,rfl,by simpa using h,fun h1 hi => absurd ⟨h1,hi⟩ hone⟩

theorem modsetFail_steps : Steps C d (d.modsetFail C) := by
  unfold modsetFail
  split
  · exact .refl d
  dsimp only
  split
  · exact .of_eq rfl
  · exact (refuse_steps _ _).start_eq rfl

theorem modsetTakeAcks_steps (acks : List (ℕ × Bool)) (d : Driver σ) :
    Steps C d (modsetTakeAcks C acks d) := by
  induction acks generalizing d with
  | nil => exact .refl d
  | cons ack acks ih =>
    unfold modsetTakeAcks
    split
    · exact ih d
    split
    · exact (ih _).start_eq rfl
    · exact modsetFail_steps d

theorem modsetTimeout_steps : Steps C d (d.modsetTimeout C v) := by
  unfold modsetTimeout
  split
  · exact modsetFail_steps d
  · exact .refl d

theorem modsetHost_steps (set : ModSet) (acks : List (ℕ × Bool)) :
    Steps C d (d.modsetHost C v set acks) := by
  unfold modsetHost
  dsimp only
  generalize hx : (if d.aux.modsetSent=false ∨ d.sim%30=0 then
      { d with aux := { d.aux with modsetSent := true } }.send
        (.modset (C.knobs.forceModset.getD set.text))
    else d)=x
  have hsend : Steps C d x := by
    rw [← hx]
    split
    · exact (Says.send _ _ fun _ => by simp).steps.start_eq rfl
    · exact .refl d
  have htake:=hsend.trans (modsetTakeAcks_steps acks x)
  split
  · exact htake
  split
  · exact htake.trans (.of_eq rfl)
  · exact htake.trans (modsetTimeout_steps _)

theorem modsetGuest_steps (set : ModSet) (text : Option String) :
    Steps C d (d.modsetGuest C v set text) := by
  unfold modsetGuest
  split
  · exact modsetTimeout_steps d
  next text =>
  have hack : Steps C d (d.send (.modsetAck (set.check text).isNone)) :=
    (Says.send _ _ fun _ => by simp).steps
  dsimp only
  split
  · exact hack.trans (.of_eq rfl)
  · exact hack.trans (modsetFail_steps _)

theorem modsetPump_steps (text : Option String) (acks : List (ℕ × Bool)) :
    Steps C d (d.modsetPump C v text acks) := by
  unfold modsetPump
  split
  · exact .refl d
  split
  · split
    · exact (Says.send _ _ fun _ => by simp).steps
    · exact .refl d
  dsimp only
  generalize (if d.aux.modsetSinceMs=0 then v.now else d.aux.modsetSinceMs)=since
  split
  · exact (modsetHost_steps _ _ _).start_eq rfl
  · exact (modsetGuest_steps _ _ _).start_eq rfl

theorem sendIdentity_steps : Steps C d (d.sendIdentity C v) := by
  unfold sendIdentity
  split
  · exact .refl d
  split
  · exact .refl d
  split
  · exact .refl d
  · exact (Says.sendSync _ _ _ _ _ _ _ _ _).steps.start_eq rfl

theorem requestMissingFrameCommits_steps : Steps C d (d.requestMissingFrameCommits C v) := by
  unfold requestMissingFrameCommits
  split
  · exact .refl d
  split
  · exact .refl d
  dsimp only
  split
  · exact .refl d
  · exact (says_foldl (fun e p => .sendSync e ..) _ _).steps.start_eq rfl

theorem beginResend_steps : Steps C d (d.beginResend C v) := by
  unfold beginResend
  split
  · exact .refl d
  · exact (Says.sendSync _ _ _ _ _ _ _ _ _).steps.start_eq rfl

theorem postResend_steps : Steps C d (d.postResend v) := by
  unfold postResend
  split
  · exact .refl d
  · exact (Says.send _ _ fun _ => by simp).steps.start_eq rfl

theorem pumpSealing_steps (hs : d.stage=.sealing) : Steps C d (d.pumpSealing C v) := by
  unfold pumpSealing
  split
  · have hspec:=runReplay_spec (C := C) (v := v)
      { d with rb := d.rb.setPhase .awaitingBaseline } hs
    split
    · next e he =>
      rw [he] at hspec
      exact (hspec.1 rfl).start_eq rfl
    next e he =>
    rw [he] at hspec
    exact (hspec.2 rfl).start_eq rfl
  · split
    · exact episodeAbort_steps d _
    · exact beginResend_steps d

theorem dropStalePosts_steps : Steps C d d.dropStalePosts :=
  .one (.posts _ d.earlyPost (fun _ _ h => .inl (Option.filter_eq_some_iff.mp h).1)
    fun _ _ h => .inl h)

theorem judgePosts_steps (hs : d.stage=.verifying)
    (ht : ∀ i p,d.peerPost i=some p → p.target=d.corr.targetTick) :
    Steps C d (d.judgePosts C v) := by
  unfold judgePosts
  split
  · next hall =>
    refine commitEpisode_steps d hs fun i hi => ?_
    obtain ⟨p,hp,hdig⟩ := Option.map_eq_some_iff.mp (hall i hi)
    rw [hp,← hdig,← ht i p hp]
  refine (episodeAbort_steps _ _).start_eq ?_
  rw [enterLockstep_outline]
  rfl

theorem pumpVerifying_steps (hs : d.stage=.verifying) : Steps C d (d.pumpVerifying C v) := by
  have hdrop:=dropStalePosts_steps (C := C) d
  unfold pumpVerifying
  dsimp only
  split
  · refine hdrop.trans (judgePosts_steps _ hs fun i p h => ?_)
    simpa [dropStalePosts] using (Option.filter_eq_some_iff.mp h).2
  split
  · exact hdrop.trans (episodeAbort_steps _ _)
  · exact hdrop.trans ((beginResend_steps _).trans (postResend_steps _))

theorem pumpEpisode_steps : Steps C d (d.pumpEpisode C v) := by
  unfold pumpEpisode
  split
  · next hs => exact pumpSealing_steps d hs
  · next hs => exact pumpVerifying_steps d hs
  · unfold pumpTipHold
    split
    · exact episodeClear_steps d
    split
    · exact episodeClear_steps d
    · exact postResend_steps d
  · exact .refl d
  · exact .refl d

theorem correct_steps (t slot : ℕ) : Steps C d (d.correct C v t slot) := by
  unfold correct
  split
  · split
    · exact .refl d
    · exact beginInitiator_steps ..
  split
  · exact .refl d
  split
  · exact tipExtend_spec ..
  · exact .refl d

variable {d : Driver σ}
theorem reconcileCells_mem {slot t : ℕ} (h : (slot,t)∈d.reconcileCells C) :
    slot<slotCount C ∧ slot≠localSlot C ∧ d.rb.resolvedThrough<t ∧ d.sim≤t+histDepth ∧ t<d.sim := by
  obtain ⟨slot',hslot,hcell⟩ := mem_flatMap.mp h
  obtain ⟨t',ht',heq⟩ := mem_map.mp hcell
  obtain ⟨rfl,rfl⟩ := Prod.mk.inj heq
  have hs:=mem_filter.mp hslot
  rw [mem_range'_1] at ht'
  unfold reconcileFrom windowFrom at ht'
  exact ⟨mem_range.mp hs.1,by simpa using hs.2,by omega,by omega,by omega⟩

theorem reconcileScan_steps {env : PollInput} {cells : List (ℕ × ℕ)}
    (hc : ∀ slot t,(slot,t)∈cells → 1≤t ∧ d.sim≤t+histDepth) :
    Steps C d (reconcileScan C env cells d) := by
  induction cells generalizing d with
  | nil => exact .refl d
  | cons cell cells ih =>
    obtain ⟨slot,t⟩ := cell
    have hrest : ∀ slot t,(slot,t)∈cells → 1≤t ∧ d.sim≤t+histDepth :=
      fun slot t h => hc slot t (mem_cons_of_mem _ h)
    unfold reconcileScan
    split
    · exact ih hrest
    next published wire _ =>
    dsimp only
    have ht:=hc slot t (by simp)
    split
    · have hmark : Steps C d ({ d with ih := d.ih.promote slot wire }.owedMark t slot) :=
        .one (.mark t slot ht.1 ht.2)
      exact hmark.trans (correct_steps _ _ _)
    · exact (ih (d := { d with ih := d.ih.promote slot wire }) hrest).start_eq rfl

section
variable (d : Driver σ)
theorem owedRetry_steps (t slot : ℕ) : Steps C d (d.owedRetry C v t slot) := by
  have hfloor:=snapFloor_outline (C := C) d t
  unfold owedRetry
  split
  · next e he =>
    rw [he] at hfloor
    exact Steps.start_eq (.one (.lose t)) hfloor
  next e load he =>
  rw [he] at hfloor
  split
  · exact Steps.start_eq (.one (.lose t)) hfloor
  have hbegin:=(beginInitiator_steps (C := C) (v := v) e t slot).start_eq hfloor
  split
  · next f hf =>
    rw [hf] at hbegin
    exact hbegin
  next f hf =>
  rw [hf] at hbegin
  exact hbegin.trans (.of_eq rfl)

theorem reconcileWire_steps (env : PollInput) : Steps C d (d.reconcileWire C env) := by
  unfold reconcileWire
  split
  · exact owedRetry_steps ..
  refine reconcileScan_steps fun slot t h => ?_
  have hm:=reconcileCells_mem h
  exact ⟨by omega,hm.2.2.2.1⟩

theorem quiesceSend_steps : Steps C d (d.quiesceSend C v) :=
  (Says.sendSync _ _ _ _ _ _ _ _ _).steps.start_eq rfl

theorem quiesceFinish_steps (wireOk : Bool) : Steps C d (d.quiesceFinish C v wireOk) := by
  unfold quiesceFinish
  dsimp only
  generalize (if d.aux.quiesceAllMs=0 then max v.now 1 else d.aux.quiesceAllMs)=since
  split
  · exact .of_eq rfl
  split
  · exact ((quiesceSend_steps _).trans (.of_eq rfl)).start_eq rfl
  · exact .of_eq rfl

theorem quiescePump_steps (wireOk : Bool) : Steps C d (d.quiescePump C v wireOk) := by
  unfold quiescePump
  split
  · exact .refl d
  split
  · exact .of_eq rfl
  split
  · exact .refl d
  dsimp only
  generalize hx : (if wireOk ∧
    (d.aux.quiesceSentMs=0 ∨ 50≤v.now-d.aux.quiesceSentMs) then d.quiesceSend C v
    else d)=x
  have hsend : Steps C d x := by
    rw [← hx]
    split
    · exact quiesceSend_steps d
    · exact .refl d
  split
  · exact hsend.trans (quiesceFinish_steps _ _)
  · exact hsend

theorem takeSealRows_sim (m : SealChunk) : (d.takeSealRows C v m).sim=d.sim := by
  unfold takeSealRows
  dsimp only
  split <;> rfl

theorem earlySealTake_sim : (d.earlySealTake C v).sim=d.sim := by
  unfold earlySealTake
  dsimp only
  generalize d.aux.earlySeal.filter _ = chunks
  induction chunks generalizing d with
  | nil => rfl
  | cons m chunks ih => exact (ih _).trans (takeSealRows_sim d m)

theorem openEpisode_span (corr : RbCorrection) : (d.openEpisode C v corr).1.sim=d.sim ∧
      ((d.openEpisode C v corr).2 → corr.targetTick<corr.loadTick+sealMaskBits) := by
  unfold openEpisode
  split
  · exact ⟨rfl,fun h => by cases h⟩
  next hspan =>
  have hlt : corr.targetTick<corr.loadTick+sealMaskBits := by omega
  dsimp only
  split
  · exact ⟨rfl,fun h => by cases h⟩
  obtain ⟨sends,-,hout⟩ := enterSealing_outline (C := C) (v := v)
    { d with
      corr
      rb := ((d.rb.beginEpisode corr).sealInputs (getInputRow C v) corr.loadTick
        corr.targetTick d.ih).1
      ih := ((d.rb.beginEpisode corr).sealInputs (getInputRow C v) corr.loadTick
        corr.targetTick d.ih).2 } corr.mismatchTick corr.slot.toNat corr.initiator
  have hsim:=congrArg Outline.sim hout
  split
  · exact ⟨hsim,fun _ => hlt⟩
  · exact ⟨(earlySealTake_sim _).trans hsim,fun _ => hlt⟩

end

theorem snapFloor_le {want load : ℕ} (h : (d.snapFloor C want).2=some load) : load≤want := by
  unfold snapFloor at h
  split at h
  · cases h
  dsimp only at h
  have hm:=mem_reverse.mp (mem_of_find?_eq_some h)
  rw [ticks,mem_range'_1] at hm
  split at hm <;> omega

/-- A guard that refuses did not hold in a call that begins. -/
theorem not_of_snd {p : Prop} [Decidable p] {a b : Driver σ × Bool} (ha : a.2=false)
    (h : (if p then a else b).2) : ¬ p := by
  intro hp
  rw [if_pos hp,ha] at h
  cases h

variable (d)
theorem beginInitiator_span (t slot : ℕ) (h : (d.beginInitiator C v t slot).2) :
    1≤t ∧ (d.beginInitiator C v t slot).1.sim≤t+sealMaskBits := by
  have hfloor:=congrArg Outline.sim (snapFloor_outline (C := C) d t)
  have hle : ∀ load,(d.snapFloor C t).2=some load → load≤t := fun load h => snapFloor_le h
  unfold beginInitiator at h ⊢
  have hidle:=not_of_snd rfl h
  rw [if_neg hidle] at h ⊢
  have hcool:=not_of_snd rfl h
  rw [if_neg hcool] at h ⊢
  have hquiet:=not_of_snd rfl h
  rw [if_neg hquiet] at h ⊢
  have hpos:=not_of_snd rfl h
  rw [if_neg hpos] at h ⊢
  split
  · next e he =>
    rw [he] at h
    cases h
  next e load he =>
  rw [he] at h hfloor
  have hload:=hle load (by rw [he])
  dsimp only at h ⊢
  have hwide:=not_of_snd rfl h
  rw [if_neg hwide] at h ⊢
  have hopen:=openEpisode_span (C := C) (v := v)
    { e with aux := { e.aux with epochSeq := e.aux.epochSeq+1 } }
    { epochId := epochMake (e.aux.epochSeq+1) (localSlot C)
      mismatchTick := t
      loadTick := load
      targetTick := max (min (e.rb.suggestTarget t e.simTip) e.simTip) t
      slot := slot
      initiator := true
      fromPeerNotify := false
      lightTip := RbSession.isLightTipCandidate load
        (max (min (e.rb.suggestTarget t e.simTip) e.simTip) t) e.rb.resolvedThrough
        e.rb.cfg.lightTipMaxDepth }
  have hspan:=hopen.2 h
  rw [hopen.1]
  dsimp only at hspan ⊢
  have htarget : e.simTip≤e.rb.suggestTarget t e.simTip := by
    unfold RbSession.suggestTarget
    omega
  have htip : e.simTip=e.sim-1 := rfl
  omega

theorem chainFork_steps (i tick : ℕ) : Steps C d (d.chainFork C v i tick).1 := by
  unfold chainFork
  split
  · have hbegin:=beginInitiator_steps (C := C) (v := v) d tick i
    have hspan:=beginInitiator_span (C := C) (v := v) d tick i
    split
    · next e he =>
      rw [he] at hbegin hspan
      obtain ⟨hpos,hsim⟩ := hspan rfl
      have hmark : Steps C e (e.owedMark tick i) :=
        .one (.mark tick i hpos (hsim.trans (by simp [sealMaskBits,histDepth])))
      exact (hbegin.trans hmark).trans (.of_eq rfl)
    next e he =>
    rw [he] at hbegin
    exact hbegin.trans (.of_eq rfl)
  · exact .of_eq rfl

theorem checkSeat_steps (owed : Option ℕ) (settle i : ℕ) :
    Steps C d (d.checkSeat C v owed settle i).1 := by
  unfold checkSeat
  split
  · exact .of_eq rfl
  split
  · exact .of_eq rfl
  split
  · exact .of_eq rfl
  split
  · exact .refl d
  split
  · exact .refl d
  · exact chainFork_steps ..

variable {d}
theorem checkSeats_steps (owed : Option ℕ) (settle : ℕ) (seats : List ℕ) (d : Driver σ) :
    Steps C d (checkSeats C v owed settle seats d) := by
  induction seats generalizing d with
  | nil => exact .refl d
  | cons i seats ih =>
    have h:=checkSeat_steps (C := C) (v := v) d owed settle i
    unfold checkSeats
    split
    · next e he =>
      rw [he] at h
      exact h
    next e he =>
    rw [he] at h
    exact h.trans (ih e)

section
variable (d : Driver σ)
theorem checkChainFork_steps : Steps C d (d.checkChainFork C v) := by
  unfold checkChainFork
  split
  · exact .refl d
  · exact checkSeats_steps ..

variable (slot : ℕ)
theorem armInjector_outline : (d.armInjector C slot).outline=d.outline := by
  unfold armInjector
  split <;> rfl

theorem disarm_outline : (d.disarm slot).outline=d.outline := by
  unfold disarm
  split <;> rfl

theorem invent_outline : (d.invent C slot).1.outline=d.outline := by
  unfold invent
  split
  · rfl
  · exact disarm_outline ..

theorem admitLocal_outline (env : PollInput) (slot : ℕ) :
    (d.admitLocal C env slot).1.outline=d.outline := by
  unfold admitLocal
  split <;> rfl

theorem admitRemote_outline (env : PollInput) (slot : ℕ) :
    (d.admitRemote C env slot).1.outline=d.outline := by
  unfold admitRemote
  dsimp only
  generalize hx : (if (d.armInjector C slot).lockstepNoInvent C then
      (d.armInjector C slot).disarm slot else d.armInjector C slot)=x
  have hout : x.outline=d.outline := by
    rw [← hx]
    split
    · exact (disarm_outline ..).trans (armInjector_outline ..)
    · exact armInjector_outline ..
  split
  · exact hout
  split
  · exact (disarm_outline ..).trans hout
  · exact hout
  · exact (invent_outline ..).trans hout

end

theorem admitSeats_outline (env : PollInput) (slots : List ℕ) (rows : List RbFrame)
    (d : Driver σ) : (admitSeats C env slots rows d).1.outline=d.outline := by
  induction slots generalizing rows d with
  | nil => rfl
  | cons slot slots ih =>
    unfold admitSeats
    split
    · exact (ih _ _).trans (admitLocal_outline ..)
    have h:=admitRemote_outline (C := C) d env slot
    split
    · next e he =>
      rw [he] at h
      exact h
    next e row he =>
    rw [he] at h
    exact (ih _ _).trans h

section
variable (d : Driver σ) (env : PollInput)
theorem admitTick_steps
    (hs : d.stage=.idle ∨ d.stage=.tipHold) : Steps C d (d.admitTick C env) := by
  have hhold:=preAdmitHold_steps (C := C) (v := env.toView) d
  have hfree:=preAdmitHold_free (C := C) (v := env.toView) d
  unfold admitTick
  split
  · next e he =>
    rw [he] at hhold
    exact hhold
  next e he =>
  rw [he] at hhold hfree
  obtain ⟨hstage,hsim,hr,hb⟩ := hfree rfl
  dsimp only at hstage hsim hr hb
  split
  · exact hhold
  have hseats:=admitSeats_outline (C := C) env (range (slotCount C)) [] e
  split
  · next f hf =>
    rw [hf] at hseats
    exact hhold.trans (.of_eq hseats)
  next f rows hf =>
  rw [hf] at hseats
  dsimp only at hseats
  have hsnap:=(snapTake_outline (C := C) f f.sim).trans hseats
  refine hhold.trans ?_
  unfold admitLive
  dsimp only
  generalize f.snapTake C f.sim=g at hsnap
  have hadmit : Steps C g { g with
      host := C.host.publish g.sim rows false g.host
      pendingAdmit := .live
      log := .admitted g.sim::g.log } := by
    refine .one (.admitLive ?_ ?_ ?_) <;> rw [hsnap]
    · change e.stage=.idle ∨ e.stage=.tipHold
      rwa [hstage]
    · exact hr
    · intro h1 hi
      exact hb (hsim.symm.trans h1) (hstage.symm.trans hi)
  exact hadmit.start_eq hsnap

theorem replayStep_steps (hs : d.stage=.replaying) : Steps C d (d.replayStep C v) := by
  have hsnap:=snapTake_outline (C := C) d d.replayNext
  unfold replayStep
  dsimp only
  generalize d.snapTake C d.replayNext=e at hsnap
  have hes : e.stage=.replaying := (congrArg Outline.stage hsnap).trans hs
  split
  · refine (episodeAbort_steps _ _).start_eq ?_
    rw [resimEnd_outline,hsnap]
  next rows _ =>
  have hadmit : Steps C e { e with
      host := C.host.publish e.replayNext rows true e.host
      pendingAdmit := .replay } := .one (.admitReplay hes)
  exact hadmit.start_eq hsnap

theorem pump_steps : Steps C d (d.pump C env) := by
  unfold pump
  dsimp only
  refine (drainWire_steps (v := env.toView) d env.inbox).trans ?_
  refine (requestMissingFrameCommits_steps (v := env.toView) _).trans ?_
  refine (deferPump_steps (v := env.toView) _).trans ?_
  refine (modsetPump_steps (v := env.toView) _ env.modset env.modsetAcks).trans ?_
  refine (sendIdentity_steps (v := env.toView) _).trans ?_
  refine (reconcileWire_steps _ env).trans ?_
  refine (pumpEpisode_steps (v := env.toView) _).trans ?_
  exact (quiescePump_steps _ _).trans (checkChainFork_steps _)

theorem admitOrStall_steps : Steps C d (d.admitOrStall C env) := by
  unfold admitOrStall
  split
  · next hs => exact replayStep_steps d hs
  next hr =>
  split
  · exact .refl d
  next hsv =>
  split
  · exact .refl d
  split
  · exact .refl d
  · refine admitTick_steps d env ?_
    cases hstage : d.stage <;> simp_all

theorem pollAdmit_steps : Steps C d (d.pollAdmit C env) := by
  unfold pollAdmit
  split
  · next hs => exact replayStep_steps d hs
  split
  · split
    · exact (drainWire_steps _ _).trans (quiescePump_steps _ _)
    · exact quiescePump_steps _ _
  · exact (pump_steps d env).trans (admitOrStall_steps _ env)

theorem finishReplay_steps (hs : d.stage=.replaying) : Steps C d (d.finishReplay C v) := by
  unfold finishReplay
  dsimp only
  have hnote : ((d.note (.ran d.replayNext)).replayNote C d.replayNext).outline =
      { d.outline with log := [.ran d.replayNext]++d.log } := replayNote_outline ..
  have hnext : ((d.note (.ran d.replayNext)).replayNote C d.replayNext).replayNext =
      d.replayNext := congrArg Outline.replayNext hnote
  have htarget : ((d.note (.ran d.replayNext)).replayNote C d.replayNext).corr.targetTick =
      d.corr.targetTick := congrArg (fun o => o.tuple.target) hnote
  generalize (d.note (.ran d.replayNext)).replayNote C d.replayNext=e at hnote hnext htarget
  rw [hnext]
  have he : Driver.outline { e with replayNext := d.replayNext+1 } =
      { d.outline with replayNext := d.replayNext+1,log := [.ran d.replayNext]++d.log } := by
    change { e.outline with replayNext := d.replayNext+1 }=_
    rw [hnote]
  split
  · next hlast =>
    refine replayFinish_verify _ _ (.last hs ?_) he
    rw [htarget] at hlast
    exact Nat.le_of_lt_succ hlast
  next hmore =>
  rw [htarget] at hmore
  refine .one ?_
  rw [he]
  exact .stepReplay hs (by change d.replayNext<d.corr.targetTick; omega)

theorem ageOut_outline : d.ageOut.outline=d.outline.ageOut := by
  unfold ageOut
  dsimp only
  split
  · next h =>
    unfold Outline.ageOut
    exact (if_pos h).symm
  next h =>
  unfold Outline.ageOut
  exact (if_neg h).symm

end

theorem commitLive_steps {e : Driver σ} (hp : d.pendingAdmit=.live)
    (he : e.outline={ d.outline with pending := .stall }) : Steps C d (e.commitLive C).ageOut := by
  generalize hg : e.liveDigest C=g
  let s : Outline := { d.outline with
    pending := .stall
    sim := d.sim+1
    log := .sent (.frameCommit d.sim g)::d.log }
  let own0 : ℕ → Option ℕ := fun i => (hcNoteLocal C e.hc d.sim g i).loc.get? 0
  have hsim : e.sim=d.sim := congrArg Outline.sim he
  have hlog : e.log=d.log := congrArg Outline.log he
  have hout : (e.commitLive C).ageOut.outline={ s.ageOut with own0 } := by
    have hcommit : (e.commitLive C).outline={ s with own0 } := by
      have hpeer : (e.commitLive C).outline.peer0=e.outline.peer0 := by
        funext i
        change (hcNoteLocal C e.hc e.sim (e.liveDigest C) i).peer.get? 0=(e.hc i).peer.get? 0
        rw [hcNoteLocal_peer]
      have hcl : (e.commitLive C).outline={ e.outline with
          sim := e.sim+1
          log := .sent (.frameCommit e.sim g)::e.log
          own0 := fun i => (hcNoteLocal C e.hc e.sim g i).loc.get? 0 } := by
        rw [← hg]
        dsimp only
        rw [← hpeer]
        rfl
      rw [hcl,he,hsim,hlog]
    rw [ageOut_outline,hcommit]
    unfold Outline.ageOut
    dsimp only
    split <;> rfl
  have hfin : Relation.ReflTransGen (Step C) d.outline s.ageOut := .single (.finishLive g hp)
  refine hfin.tail ?_
  rw [hout]
  have hpeer : s.ageOut.peer0=s.peer0 ∧ s.ageOut.own0=s.own0 := by
    unfold Outline.ageOut
    split <;> exact ⟨rfl,rfl⟩
  refine .digests own0 s.ageOut.peer0 (fun i g' h => ?_) fun _ _ h => .inl h
  rcases hcNoteLocal_own h with ⟨h0,rfl⟩ | h
  · refine .inr ((Outline.ageOut_log s).subset ?_)
    rw [← h0]
    simp [s]
  rw [hpeer.2]
  refine .inl ?_
  have : s.own0 i=e.outline.own0 i := by rw [he]
  rw [this]
  exact h

theorem lockstepTick_outline (d : Driver σ) : d.lockstepTick.outline=d.outline := by
  unfold lockstepTick
  split <;> rfl

theorem hcHeal_outline (d : Driver σ) :
    Driver.outline { d with hc := hcHeal C d.hc }=d.outline := by
  have hrings (i : ℕ) : (hcHeal C d.hc i).loc=(d.hc i).loc ∧
      (hcHeal C d.hc i).peer=(d.hc i).peer := by
    unfold hcHeal
    split
    · exact HashConfirm.healStaleGap_rings _
    · exact ⟨rfl,rfl⟩
  simp only [outline,(hrings _).1,(hrings _).2]

theorem finishLive_steps {e : Driver σ} (hp : d.pendingAdmit=.live)
    (he : e.outline={ d.outline with pending := .stall }) : Steps C d (e.finishLive C v) := by
  have hcommit:=commitLive_steps (C := C) hp he
  unfold finishLive
  dsimp only
  have hid:=(hcommit.trans (.of_eq (lockstepTick_outline _))).trans
    (sendIdentity_steps (v := v) (e.commitLive C).ageOut.lockstepTick)
  generalize (e.commitLive C).ageOut.lockstepTick.sendIdentity C v=f at hid
  have hfork:=(hid.trans (.of_eq (hcHeal_outline (C := C) f))).trans
    (checkChainFork_steps (v := v) { f with hc := hcHeal C f.hc })
  generalize { f with hc := hcHeal C f.hc }.checkChainFork C v=g at hfork
  exact hfork.trans (.one (.resolve _))

theorem finishFrame_steps (d : Driver σ) (ran : σ) (hp : d.pendingAdmit≠.stall) :
    Steps C d (d.finishFrame C v ran) := by
  unfold finishFrame
  dsimp only
  split
  · next hr =>
    have hend : Steps C d { d with host := ran,pendingAdmit := .stall } := .one (.endReplay hr)
    split
    · next hs => exact hend.trans (finishReplay_steps _ hs)
    · exact hend
  next hr =>
  have hlive : d.pendingAdmit=.live := by
    cases h : d.pendingAdmit <;> simp_all
  split
  · exact .one (.endResim hlive)
  · exact finishLive_steps hlive rfl

end Driver

variable {d : Driver σ}
theorem call_steps {d' : Driver σ} {c : Call σ} (h : d.call C c=some d') : Steps C d d' := by
  unfold Driver.call at h
  split at h
  · split at h
    · cases h
      exact Driver.pollAdmit_steps ..
    · cases h
  · split at h
    · cases h
    next hp =>
    cases h
    exact Driver.finishFrame_steps d _ hp
  · cases h
    exact .of_eq (Driver.requestQuiesce_outline d)
  · cases h
    exact .of_eq rfl
  · cases h
    exact .of_eq rfl

theorem start_outline {host : σ} (h : start C host=some d) : ∃ core,d.outline=.init core := by
  unfold start at h
  obtain ⟨rb,hrb,rfl⟩ := Option.map_eq_some_iff.mp h
  unfold RbSession.create at hrb
  split at hrb
  · cases hrb
  · cases hrb
    exact ⟨_,rfl⟩

theorem reachable_steps (h : Reachable C d) :
    ∃ core,Relation.ReflTransGen (Step C) (.init core) d.outline := by
  obtain ⟨host,d₀,calls,hstart,hrun⟩ := h
  obtain ⟨core,hcore⟩ := start_outline hstart
  refine ⟨core,?_⟩
  rw [← hcore]
  exact runCalls_refines Driver.outline (fun _ _ _ hc => call_steps hc) hrun

theorem reachable_invariant {P : Event → List Event → Prop} {I : Outline → Prop}
    (hinit : ∀ core,I (.init core))
    (hstep : ∀ {s s'},I s → Step C s s' → Trace.All P s'.log → I s') (h : Reachable C d)
    (hP : Trace.All P d.log) : I d.outline := by
  obtain ⟨core,hsteps⟩ := reachable_steps h
  exact Trace.invariant Outline.log (fun hs => hs.log_suffix) (fun hs hP hI => hstep hI hs hP)
    hsteps (hinit core) hP

end RecompNet.RbDriver
