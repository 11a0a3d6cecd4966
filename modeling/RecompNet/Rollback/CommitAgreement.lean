import RecompNet.Rollback.RefineCalls

/-!
# Commit agreement

An epoch commits at a target only on POSTs of exactly that epoch and target, one of every expected
seat, whose digest is the one computed here after the replay of the episode's own span.
-/
namespace RecompNet.RbDriver
open List
variable {σ : Type} {C : Setup σ}
def Replayed (log : List Event) (epoch load target digest : ℕ) : Prop :=
  ∃ later past,log=later++.verified epoch target digest::past ∧
    replayProgress past=some (load,target+1) ∧ ∃ first,.opened epoch load first∈past

variable {log : List Event} {log' : List Event} {epoch target digest : ℕ}
theorem Replayed.mono {load : ℕ} (h : Replayed log epoch load target digest) (hl : log <:+ log') :
    Replayed log' epoch load target digest := by
  obtain ⟨later,past,rfl,hp,ho⟩ := h
  obtain ⟨pre,rfl⟩ := hl
  exact ⟨pre++later,past,by simp,hp,ho⟩

variable {i : ℕ}
theorem Heard.mono {m : RbMsg} (h : Heard C i m log) (hl : log <:+ log') : Heard C i m log' :=
  h.imp fun _ hs => ⟨hs.1,hl.subset hs.2⟩

theorem Heard.post_received (h : Heard C i (.post epoch target digest) log)
    (hacc : ∀ p,.received p∈log → sessionAccepts C p) :
    .received ⟨i,.post epoch target digest⟩∈log := by
  obtain ⟨sender,hfrom,hrec⟩ := h
  have haccept:=(Bool.and_eq_true_iff.mp (hacc _ hrec)).2
  have hsender : sender∈expect C := by
    by_cases hone : (expect C).card=1
    · simpa [hone] using haccept
    rw [fromBit,if_neg hone] at hfrom
    split at hfrom
    · assumption
    · cases hfrom
  rw [← fromBit_of_mem hsender hfrom]
  exact hrec

def CommitAgreed (C : Setup σ) : Event → List Event → Prop
  | .committed epoch target _ _,past => ∃ load digest,
      Replayed past epoch load target digest ∧
        ∀ i∈expect C,Heard C i (.post epoch target digest) past
  | _,_ => True

structure PostInv (C : Setup σ) (s : Outline) : Prop where
  accepted : ∀ p,.received p∈s.log → sessionAccepts C p
  early : ∀ i e,s.earlyPost i=some e → Heard C i (.post e.epoch e.target e.digest) s.log
  peer : ∀ i p,s.peerPost i=some p → Heard C i (.post s.tuple.epoch p.target p.digest) s.log
  opened : s.stage≠.idle → s.tuple.load ≤ s.tuple.target ∧
    ∃ first,.opened s.tuple.epoch s.tuple.load first∈s.log
  replaying : s.stage=.replaying →
    replayProgress s.log=some (s.tuple.load,s.replayNext) ∧ s.replayNext ≤ s.tuple.target
  verified : s.stage=.verifying →
    Replayed s.log s.tuple.epoch s.tuple.load s.tuple.target s.localPost
  commits : Trace.All (CommitAgreed C) s.log

def Quiet (C : Setup σ) : Event → Prop
  | .received p => sessionAccepts C p=true
  | .loaded _ => False
  | .ran _ => False
  | .restored _ => False
  | .admitted _ => False
  | .committed .. => False
  | _ => True

variable {pre : List Event}
theorem replayProgress_quiet (hq : ∀ e∈pre,Quiet C e) (past : List Event) :
    replayProgress (pre++past)=replayProgress past := by
  induction pre with
  | nil => rfl
  | cons e pre ih =>
    have hrest:=ih fun e he => hq e (mem_cons_of_mem _ he)
    have he:=hq e (by simp)
    cases e <;> first | exact hrest | exact he.elim

theorem PostInv.commits_append (h : Trace.All (CommitAgreed C) log)
    (hpre : ∀ e∈pre,∀ epoch target r r',e≠.committed epoch target r r') :
    Trace.All (CommitAgreed C) (pre++log) := by
  refine h.append fun e he past => ?_
  cases e with
  | committed epoch target r r' => exact absurd rfl (hpre _ he epoch target r r')
  | _ => trivial

variable {s s' : Outline}
theorem PostInv.quiet (h : PostInv C s) (pre : List Event)
    (hlog : s'.log=pre++s.log) (hq : ∀ e∈pre,Quiet C e)
    (hkeep : s'.tuple=s.tuple ∧ s'.stage=s.stage ∧ s'.peerPost=s.peerPost ∧
      s'.earlyPost=s.earlyPost ∧ s'.replayNext=s.replayNext ∧ s'.localPost=s.localPost) :
    PostInv C s' := by
  obtain ⟨ht,hs,hp,he,hn,hl⟩ := hkeep
  have hsuf : s.log <:+ s'.log := ⟨pre,hlog.symm⟩
  constructor
  · intro p hmem
    rw [hlog] at hmem
    rcases mem_append.mp hmem with hmem | hmem
    · exact hq _ hmem
    · exact h.accepted p hmem
  · intro i e hi
    exact (h.early i e (he ▸ hi)).mono hsuf
  · intro i p hi
    rw [ht]
    exact (h.peer i p (hp ▸ hi)).mono hsuf
  · intro hidle
    rw [ht]
    obtain ⟨hle,first,hfirst⟩ := h.opened (hs ▸ hidle)
    exact ⟨hle,first,hsuf.subset hfirst⟩
  · intro hrep
    rw [ht,hn,hlog,replayProgress_quiet hq]
    exact h.replaying (hs ▸ hrep)
  · intro hver
    rw [ht,hl]
    exact (h.verified (hs ▸ hver)).mono hsuf
  · rw [hlog]
    exact PostInv.commits_append h.commits fun e hmem _ _ _ _ heq => by
      have := hq e hmem
      rw [heq] at this
      exact this

theorem PostInv.init (core : Tuple) : PostInv C (.init core) where
  accepted := by simp [Outline.init]
  early := by simp [Outline.init]
  peer := by simp [Outline.init]
  opened := by simp [Outline.init]
  replaying := by simp [Outline.init]
  verified := by simp [Outline.init]
  commits := trivial

variable {ran : List Event}
theorem PostInv.progress_end (h : PostInv C s) (hr : ReplayEnds s ran) : s.stage≠.idle ∧
      replayProgress (ran++s.log)=some (s.tuple.load,s.tuple.target+1) := by
  cases hr with
  | inline hs hp =>
    have hidle : s.stage≠.idle := by rw [hs]; simp
    have hle:=(h.opened hidle).1
    rw [Nat.max_eq_right (by omega)] at hp
    exact ⟨hidle,hp⟩
  | last hs hn =>
    obtain ⟨hp,hle⟩ := h.replaying hs
    have hnext : s.replayNext=s.tuple.target := by omega
    refine ⟨by rw [hs]; simp,?_⟩
    simp [replayProgress,hp,hnext]

theorem PostInv.posts {peerPost : ℕ → Option PeerPost}
    {earlyPost : ℕ → Option EarlyPost} (h : PostInv C s)
    (hpeer : ∀ i p,peerPost i=some p → s.peerPost i=some p ∨
      s.earlyPost i=some ⟨s.tuple.epoch,p.target,p.digest⟩ ∨
      Heard C i (.post s.tuple.epoch p.target p.digest) s.log)
    (hearly : ∀ i e,earlyPost i=some e → s.earlyPost i=some e ∨
      Heard C i (.post e.epoch e.target e.digest) s.log) :
    PostInv C { s with peerPost,earlyPost } where
  accepted := h.accepted
  early := fun i e hi => (hearly i e hi).elim (h.early i e) id
  peer := by
    intro i p hi
    rcases hpeer i p hi with hold | hearly | hheard
    · exact h.peer i p hold
    · exact h.early i _ hearly
    · exact hheard
  opened := h.opened
  replaying := h.replaying
  verified := h.verified
  commits := h.commits

theorem PostInv.fresh (h : PostInv C s) (pre : List Event) (hlog : s'.log=pre++s.log)
    (hpre : ∀ e∈pre,(∀ p,e≠.received p) ∧ ∀ epoch target r r',e≠.committed epoch target r r')
    (hs : s'.stage=.idle ∨ s'.stage=.sealing ∨ s'.stage=.tipHold) (he : s'.earlyPost=s.earlyPost)
    (hp : ∀ i p,s'.peerPost i=some p → s'.tuple.epoch=s.tuple.epoch ∧ s.peerPost i=some p)
    (ho : s'.stage≠.idle → s'.tuple.load ≤ s'.tuple.target ∧
      ∃ first,.opened s'.tuple.epoch s'.tuple.load first∈s'.log) : PostInv C s' := by
  have hsuf : s.log <:+ s'.log := ⟨pre,hlog.symm⟩
  constructor
  · intro p hmem
    rw [hlog] at hmem
    rcases mem_append.mp hmem with hmem | hmem
    · exact absurd rfl ((hpre _ hmem).1 p)
    · exact h.accepted p hmem
  · intro i e hi
    exact (h.early i e (he ▸ hi)).mono hsuf
  · intro i p hi
    obtain ⟨hepoch,hold⟩ := hp i p hi
    rw [hepoch]
    exact (h.peer i p hold).mono hsuf
  · exact ho
  · intro hrep
    rw [hrep] at hs
    simp at hs
  · intro hver
    rw [hver] at hs
    simp at hs
  · rw [hlog]
    exact PostInv.commits_append h.commits fun e hmem => (hpre e hmem).2

theorem PostInv.verify {sends : List Event} (own0 : ℕ → Option ℕ)
    (next digest : ℕ) (h : PostInv C s) (hr : ReplayEnds s ran)
    (hs : ∀ e∈sends,∃ t g,e=.sent (.frameCommit t g)) : PostInv C { s with
      stage := .verifying,localPost := digest,replayNext := next,own0
      sim := s.tuple.target+1
      owed := Driver.owedClearSpan s.owed s.tuple.load s.tuple.target
      log := .verified s.tuple.epoch s.tuple.target digest ::
        .sent (.post s.tuple.epoch s.tuple.target digest) ::
        .replayed s.tuple.load s.tuple.target::(sends++(ran++s.log)) } := by
  obtain ⟨hidle,hprog⟩ := h.progress_end hr
  obtain ⟨hle,first,hfirst⟩ := h.opened hidle
  -- what stands between the old trace and the verdict
  let mid : List Event := .sent (.post s.tuple.epoch s.tuple.target digest) ::
    .replayed s.tuple.load s.tuple.target::(sends++ran)
  have hmid : ∀ e∈mid,(∃ m,e=.sent m) ∨ (∃ l t,e=.replayed l t) ∨ ∃ t,e=.ran t := by
    simp only [mid,forall_mem_cons]
    refine ⟨.inl ⟨_,rfl⟩,.inr (.inl ⟨_,_,rfl⟩),?_⟩
    exact hr.forall_mem hs (fun _ _ => .inl ⟨_,rfl⟩) fun _ => .inr (.inr ⟨_,rfl⟩)
  have hlog : .sent (.post s.tuple.epoch s.tuple.target digest) ::
      .replayed s.tuple.load s.tuple.target::(sends++(ran++s.log))=mid++s.log := by
    simp [mid]
  have hpast : replayProgress (mid++s.log)=some (s.tuple.load,s.tuple.target+1) := by
    rw [← hlog]
    change replayProgress (sends++(ran++s.log))=_
    rw [replayProgress_sends (fun e he => by obtain ⟨t,g,rfl⟩ := hs e he; exact ⟨_,rfl⟩),hprog]
  rw [hlog]
  have hsuf : s.log <:+ .verified s.tuple.epoch s.tuple.target digest::(mid++s.log) :=
    ⟨.verified s.tuple.epoch s.tuple.target digest::mid,by simp⟩
  constructor
  · intro p hmem
    rcases mem_cons.mp hmem with hmem | hmem
    · cases hmem
    rcases mem_append.mp hmem with hmem | hmem
    · rcases hmid _ hmem with ⟨m,hm⟩ | ⟨l,t,hm⟩ | ⟨t,hm⟩ <;> cases hm
    · exact h.accepted p hmem
  · exact fun i e hi => (h.early i e hi).mono hsuf
  · exact fun i p hi => (h.peer i p hi).mono hsuf
  · exact fun _ => ⟨hle,first,hsuf.subset hfirst⟩
  · exact fun hrep => (by cases hrep)
  · exact fun _ => ⟨[],mid++s.log,rfl,hpast,first,mem_append_right _ hfirst⟩
  · refine .cons trivial (PostInv.commits_append h.commits fun e hmem epoch target r r' heq => ?_)
    rcases hmid e hmem with ⟨m,hm⟩ | ⟨l,t,hm⟩ | ⟨t,hm⟩ <;> rw [hm] at heq <;> cases heq

theorem PostInv.commit (m : RbSync) (h : PostInv C s) (hs : s.stage=.verifying)
    (hp : ∀ i∈expect C,s.peerPost i=some ⟨s.tuple.target,s.localPost⟩) : PostInv C { s with
      stage := .tipHold
      resolved := max s.resolved s.core.target
      own0 := fun _ => none
      peer0 := fun _ => none
      log := .sent (.resolved (max s.resolved s.core.target))::.sent (.sync m) ::
        .committed s.tuple.epoch s.tuple.target s.resolved (max s.resolved s.core.target) ::
        s.log } := by
  have hidle : s.stage≠.idle := by rw [hs]; simp
  obtain ⟨hle,first,hfirst⟩ := h.opened hidle
  have hsuf : s.log <:+ .sent (.resolved (max s.resolved s.core.target))::.sent (.sync m) ::
      .committed s.tuple.epoch s.tuple.target s.resolved (max s.resolved s.core.target) ::
      s.log := ⟨[_,_,_],rfl⟩
  constructor
  · intro p hmem
    simp only [mem_cons,reduceCtorEq,false_or] at hmem
    exact h.accepted p hmem
  · exact fun i e hi => (h.early i e hi).mono hsuf
  · exact fun i p hi => (h.peer i p hi).mono hsuf
  · exact fun _ => ⟨hle,first,hsuf.subset hfirst⟩
  · exact fun hrep => (by cases hrep)
  · exact fun hver => (by cases hver)
  · refine .cons trivial (.cons trivial (.cons ?_ h.commits))
    exact ⟨s.tuple.load,s.localPost,h.verified hs,fun i hi => h.peer i _ (hp i hi)⟩

theorem PostInv.step (h : PostInv C s) (hstep : Step C s s') : PostInv C s' := by
  have hkeep : s.tuple=s.tuple ∧ s.stage=s.stage ∧ s.peerPost=s.peerPost ∧
      s.earlyPost=s.earlyPost ∧ s.replayNext=s.replayNext ∧ s.localPost=s.localPost :=
    ⟨rfl,rfl,rfl,rfl,rfl,rfl⟩
  cases hstep with
  | say m hm => exact h.quiet [.sent m] rfl (by simp [Quiet]) hkeep
  | take p hp => exact h.quiet [.received p] rfl (by simpa [Quiet] using hp) hkeep
  | posts peerPost earlyPost hpeer hearly => exact h.posts hpeer hearly
  | digests | resolve | admitReplay | endReplay | endResim | latchOwn | latchPeers =>
    exact h.quiet [] rfl (by simp) hkeep
  | clear tuple core =>
    exact h.fresh [] rfl (by simp) (.inl rfl) rfl (fun _ _ hi => (by cases hi))
      (fun hidle => absurd rfl hidle)
  | restore tick hs =>
    exact h.fresh [.restored tick] rfl (by simp) (.inl hs) rfl (fun _ _ hi => ⟨rfl,hi⟩)
      (fun hidle => absurd hs hidle)
  | «open» t hs ht =>
    exact h.fresh [.opened t.epoch t.load t.target] rfl (by simp) (.inr (.inl rfl)) rfl
      (fun _ _ hi => (by cases hi)) (fun _ => ⟨ht,t.target,by simp⟩)
  | reopen target hs ht =>
    have hidle : s.stage≠.idle := by rcases hs with hs | hs <;> rw [hs] <;> simp
    obtain ⟨hle,first,hfirst⟩ := h.opened hidle
    exact h.fresh [] rfl (by simp) (.inr (.inl rfl)) rfl (fun _ _ hi => (by cases hi))
      (fun _ => ⟨hle.trans ht,first,hfirst⟩)
  | sealTaken target grown hg =>
    exact h.quiet [.sealTaken target s.tuple.target] rfl (by simp [Quiet]) hkeep
  | load hs =>
    obtain ⟨hle,first,hfirst⟩ := h.opened (by rw [hs]; simp)
    exact h.fresh [.loaded s.tuple.load] rfl (by simp) (.inr (.inl hs)) rfl
      (fun _ _ hi => ⟨rfl,hi⟩) (fun _ => ⟨hle,first,mem_cons_of_mem _ hfirst⟩)
  | run tick hs =>
    obtain ⟨hle,first,hfirst⟩ := h.opened (by rw [hs]; simp)
    exact h.fresh [.ran tick] rfl (by simp) (.inr (.inl hs)) rfl
      (fun _ _ hi => ⟨rfl,hi⟩) (fun _ => ⟨hle,first,mem_cons_of_mem _ hfirst⟩)
  | startReplay hs hp =>
    have hopen:=h.opened (by rw [hs]; simp)
    exact ⟨h.accepted,h.early,h.peer,fun _ => hopen,fun _ => ⟨hp,hopen.1⟩,
      fun hver => (by cases hver),h.commits⟩
  | stepReplay hs hn =>
    have hsuf : s.log <:+ .ran s.replayNext::s.log := suffix_cons ..
    obtain ⟨hle,first,hfirst⟩ := h.opened (by rw [hs]; simp)
    obtain ⟨hp,-⟩ := h.replaying hs
    exact ⟨fun p hmem => h.accepted p (by simpa using hmem),
      fun i e hi => (h.early i e hi).mono hsuf,fun i p hi => (h.peer i p hi).mono hsuf,
      fun _ => ⟨hle,first,hsuf.subset hfirst⟩,fun _ => ⟨by simp [replayProgress,hp],hn⟩,
      fun hver => (by rw [hs] at hver; cases hver),.cons trivial h.commits⟩
  | verify ran sends own0 next digest hr hs ho => exact h.verify own0 next digest hr hs
  | commit m hs hp => exact h.commit m hs hp
  | admitLive hs hr hb =>
    refine h.fresh [.admitted s.sim] rfl (by simp) ?_ rfl (fun _ _ hi => ⟨rfl,hi⟩) fun hidle => ?_
    · rcases hs with hs | hs
      · exact .inl hs
      · exact .inr (.inr hs)
    · obtain ⟨hle,first,hfirst⟩ := h.opened hidle
      exact ⟨hle,first,mem_cons_of_mem _ hfirst⟩
  | finishLive digest hp =>
    have hlive : PostInv C { s with
        pending := .stall
        sim := s.sim+1
        log := .sent (.frameCommit s.sim digest)::s.log } := h.quiet [_] rfl (by simp [Quiet]) hkeep
    unfold Outline.ageOut
    split
    · exact hlive.quiet [.lost _] rfl (by simp [Quiet]) ⟨rfl,rfl,rfl,rfl,rfl,rfl⟩
    · exact hlive
  | agree | allowFork => exact h.quiet [.bootSettled] rfl (by simp [Quiet]) hkeep
  | settleRefused code =>
    exact h.quiet ((if s.refusal.isSome then [] else [.refused code])++[.bootSettled]) (by simp)
      (settleRefused_forall_mem trivial trivial) hkeep
  | refuse code hr => exact h.quiet [.refused code] rfl (by simp [Quiet]) hkeep
  | mark t slot ht hw => exact h.quiet [.marked t slot] rfl (by simp [Quiet]) hkeep
  | lose t => exact h.quiet [.lost t] rfl (by simp [Quiet]) hkeep

theorem reachable_postInv {d : Driver σ} (h : Reachable C d) : PostInv C d.outline :=
  reachable_invariant PostInv.init (fun hinv hstep _ => hinv.step hstep) h
    (Trace.All.of_forall (fun _ _ => trivial) d.log)

/-- **Commit agreement.** -/
theorem commit_agreement {d : Driver σ} (h : Reachable C d) {later past : List Event}
    {epoch target before after : ℕ}
    (hlog : d.log=later++.committed epoch target before after::past) :
    ∃ load digest,Replayed past epoch load target digest ∧
      ∀ i∈expect C,.received ⟨i,.post epoch target digest⟩∈past := by
  have hinv:=reachable_postInv h
  have hcommits : Trace.All (CommitAgreed C) d.log := hinv.commits
  rw [hlog] at hcommits
  obtain ⟨load,digest,hrep,hheard⟩ := hcommits.at
  refine ⟨load,digest,hrep,fun i hi => ?_⟩
  refine (hheard i hi).post_received fun p hp => hinv.accepted p ?_
  change .received p∈d.log
  rw [hlog]
  exact mem_append_right _ (mem_cons_of_mem _ hp)

theorem commit_agreement_duel : ∃ d,Reachable (duel 1 2) d ∧ ∃ later past,
    d.log=later++.committed 8 1 0 1::past ∧ ∃ load digest,Replayed past 8 load 1 digest ∧
        ∀ i∈expect (duel 1 2),.received ⟨i,.post 8 1 digest⟩∈past := by
  obtain ⟨d,hd,hmem⟩ : ∃ d,Reachable (duel 1 2) d ∧ .committed 8 1 0 1∈d.log :=
    reachable_play [] committedDuel (by decide +kernel)
  obtain ⟨later,past,hlog⟩ := append_of_mem hmem
  exact ⟨d,hd,later,past,hlog,commit_agreement hd hlog⟩

/-- **The driver's record of an episode is true**: its POSTs, its load tick and its replay cursor. -/
theorem episode_record_true {d : Driver σ} (h : Reachable C d) : (∀ i p,d.peerPost i=some p →
      .received ⟨i,.post d.corr.epochId p.target p.digest⟩∈d.log) ∧
    (∀ i e,d.earlyPost i=some e → .received ⟨i,.post e.epoch e.target e.digest⟩∈d.log) ∧
    (d.stage≠.idle → d.corr.loadTick≤d.corr.targetTick ∧
      ∃ first,.opened d.corr.epochId d.corr.loadTick first∈d.log) ∧
    (d.stage=.replaying → replayProgress d.log=some (d.corr.loadTick,d.replayNext) ∧
      d.replayNext≤d.corr.targetTick) ∧
    (d.stage=.verifying → Replayed d.log d.corr.epochId d.corr.loadTick d.corr.targetTick
      d.localPostDigest) := by
  have hinv:=reachable_postInv h
  exact ⟨fun i p hp => (hinv.peer i p hp).post_received hinv.accepted,
    fun i e he => (hinv.early i e he).post_received hinv.accepted,hinv.opened,hinv.replaying,
    hinv.verified⟩

theorem episode_record_true_duel : ∃ d,Reachable (duel 1 2) d ∧ d.peerPost 0=some ⟨1,7⟩ ∧
    .received ⟨0,.post d.corr.epochId 1 7⟩∈d.log := by
  obtain ⟨d,hd,hp⟩ : ∃ d,Reachable (duel 1 2) d ∧ d.peerPost 0=some ⟨1,7⟩ :=
    reachable_play [] committedDuel (by decide +kernel)
  exact ⟨d,hd,hp,(episode_record_true hd).1 0 _ hp⟩

end RecompNet.RbDriver
