import RecompNet.Rollback.RefineCalls

/-!
# The two replay shapes

INLINE runs the whole span inside one `poll_admit`, INCREMENTAL one tick of it per call.
-/
namespace RecompNet.RbDriver
open Driver
variable {σ : Type}
def Setup.withMode (C : Setup σ) (mode : ReplayMode) : Setup σ :=
  { C with cfg := { C.cfg with replayMode := mode } }

namespace Driver
variable (C : Setup σ) (v : View) (d : Driver σ)

/-- What `poll_admit` does before the episode pump. -/
def beforePump (env : PollInput) : Driver σ :=
  let d:=d.drainWire C env.toView env.inbox
  let d:=(d.requestMissingFrameCommits C env.toView).deferPump C env.toView
  let d:=(d.modsetPump C env.toView env.modset env.modsetAcks).sendIdentity C env.toView
  d.reconcileWire C env

def afterPump (env : PollInput) : Driver σ :=
  let d:=d.quiescePump C env.toView !((expect C).card=1 && env.peerDisconnected)
  (d.checkChainFork C env.toView).admitOrStall C env

def drainTimeout : Driver σ :=
  if d.aux.quiesce=.draining ∧ 10000<v.now-d.aux.quiesceReqMs then
    { d with aux := { d.aux with quiesce := .timedOut } }
  else d

variable {C v d}
theorem pollAdmit_eq_afterPump {env : PollInput} (hs : d.stage≠.replaying) (hrun : env.running) :
    d.pollAdmit C env=((d.beforePump C env).pumpEpisode C env.toView).afterPump C env := by
  unfold pollAdmit
  rw [if_neg hs,if_neg (by simp [hrun])]
  rfl

theorem pollAdmit_replaying (hs : d.stage=.replaying) (env : PollInput) :
    d.pollAdmit C env=d.replayStep C env.toView := by
  unfold pollAdmit
  rw [if_pos hs]

theorem drainTimeout_stage (d : Driver σ) (v : View) : (d.drainTimeout v).stage=d.stage := by
  unfold drainTimeout
  split <;> rfl

theorem quiescePump_of_busy (hs : d.stage≠.idle) (wireOk : Bool) :
    d.quiescePump C v wireOk=d.drainTimeout v := by
  unfold quiescePump drainTimeout
  by_cases hq : d.aux.quiesce=.draining
  · by_cases ht : 10000<v.now-d.aux.quiesceReqMs
    · rw [if_neg (not_not_intro hq),if_pos ht,if_pos ⟨hq,ht⟩]
    · rw [if_neg (not_not_intro hq),if_neg ht,if_pos (.inl hs),if_neg (fun h => ht h.2)]
  · rw [if_pos hq,if_neg (fun h => hq h.1)]

theorem checkChainFork_of_busy (hs : d.stage≠.idle) : d.checkChainFork C v=d := by
  unfold checkChainFork
  rw [if_pos hs]

theorem afterPump_replaying (hs : d.stage=.replaying) (env : PollInput) :
    d.afterPump C env=(d.drainTimeout env.toView).replayStep C env.toView := by
  have hbusy : d.stage≠.idle := by simp [hs]
  unfold afterPump
  dsimp only
  rw [quiescePump_of_busy hbusy,checkChainFork_of_busy (by rwa [drainTimeout_stage])]
  unfold admitOrStall
  rw [if_pos ((drainTimeout_stage d _).trans hs)]

theorem afterPump_verifying (hs : d.stage=.verifying) (env : PollInput) :
    d.afterPump C env=d.drainTimeout env.toView := by
  have hbusy : d.stage≠.idle := by simp [hs]
  have hstage : (d.drainTimeout env.toView).stage=.verifying := (drainTimeout_stage d _).trans hs
  unfold afterPump
  dsimp only
  rw [quiescePump_of_busy hbusy,checkChainFork_of_busy (by rwa [drainTimeout_stage])]
  unfold admitOrStall
  rw [if_neg (by simp [hstage]),if_pos (.inr hstage)]

variable (C d) in
def runHanded (w : View) : Driver σ :=
  if d.stage=.replaying then d.finishFrame C w (C.host.runTick d.replayNext d.host).2 else d

variable (C) in
def replayRounds : List (PollInput × View) → Driver σ → Driver σ
  | [],d => d
  | (env,w)::rounds,d =>
    if d.stage=.replaying then replayRounds rounds ((d.pollAdmit C env).runHanded C w) else d

theorem replayRounds_of_ended (hs : d.stage≠.replaying) (rounds : List (PollInput × View)) :
    replayRounds C rounds d=d := by
  cases rounds with
  | nil => rfl
  | cons r rounds =>
    unfold replayRounds
    rw [if_neg hs]

theorem replayRounds_cons (hs : d.stage=.replaying) (env : PollInput) (w : View)
    (rounds : List (PollInput × View)) : replayRounds C ((env,w)::rounds) d =
      replayRounds C rounds ((d.replayStep C env.toView).runHanded C w) := by
  rw [replayRounds,if_pos hs,pollAdmit_replaying hs]

theorem runHanded_of_ended (hs : d.stage≠.replaying) (w : View) : d.runHanded C w=d := by
  unfold runHanded
  rw [if_neg hs]

theorem runHanded_of_replay (hs : d.stage=.replaying) (hp : d.pendingAdmit=.replay) (w : View) :
    d.runHanded C w={ d with
        host := (C.host.runTick d.replayNext d.host).2
        pendingAdmit := .stall }.finishReplay C w := by
  unfold runHanded finishFrame
  rw [if_pos hs]
  dsimp only
  rw [if_pos hp,if_pos hs]

variable (C v) in
def inlineRest (ts : List ℕ) (d : Driver σ) : Driver σ :=
  match replayTicks C v ts d with
  | (d,true) => (d.replayFinish C).enterVerify C v
  | (d,false) => d

structure Label where
  stage : Stage
  next : ℕ
  pending : Admit
  enteredMs : ℕ
  quiesce : Quiesce

def relabel (L : Label) (d : Driver σ) : Driver σ :=
  { d with
    stage := L.stage
    replayNext := L.next
    pendingAdmit := L.pending
    aux := { d.aux with stageEnteredMs := L.enteredMs,quiesce := L.quiesce } }

section Relabel
variable (L : Label) (t : ℕ)
theorem snapTake_relabel : (d.relabel L).snapTake C t=(d.snapTake C t).relabel L := by
  unfold snapTake
  split <;> rfl

theorem resimEnd_relabel : (d.relabel L).resimEnd C=(d.resimEnd C).relabel L := by
  unfold resimEnd
  change (if d.aux.inResim then _ else _)=_
  split <;> rfl

theorem restoreTip_relabel : (d.relabel L).restoreTip C=(d.restoreTip C).relabel L := by
  have hend : resimEnd C { d.relabel L with rewound := false } =
      ({ d with rewound := false }.resimEnd C).relabel L :=
    resimEnd_relabel (d := { d with rewound := false }) L
  unfold restoreTip
  change (if d.rewound then _ else _)=_
  split
  · rw [hend]
    rfl
  · rfl

theorem replayNote_relabel : (d.relabel L).replayNote C t=(d.replayNote C t).relabel L := by
  unfold replayNote
  change (if t<d.corr.loadTick ∨ sealMaskBits≤t-d.corr.loadTick then _ else _)=_
  split <;> rfl

theorem commitReplayed_relabel :
    commitReplayed C (d.relabel L) t=(commitReplayed C d t).relabel L := by
  have haux : (d.relabel L).aux.replayDig t=d.aux.replayDig t := rfl
  unfold commitReplayed
  rw [haux]
  cases d.aux.replayDig t <;> rfl

theorem commitReplayed_foldl_relabel (offs : List ℕ) (d : Driver σ) :
    offs.foldl (commitReplayed C) (d.relabel L)=(offs.foldl (commitReplayed C) d).relabel L := by
  induction offs generalizing d with
  | nil => rfl
  | cons off offs ih => rw [List.foldl_cons,List.foldl_cons,commitReplayed_relabel,ih]

theorem finishSpan_relabel : (d.relabel L).finishSpan C=(d.finishSpan C).relabel L := by
  have hend : resimEnd C { d.relabel L with
      owed := owedClearSpan (d.relabel L).owed (d.relabel L).corr.loadTick
        (d.relabel L).corr.targetTick
      aux := { (d.relabel L).aux with replayDig := fun _ => none } }=_ :=
    resimEnd_relabel (d := { d with
      owed := owedClearSpan d.owed d.corr.loadTick d.corr.targetTick
      aux := { d.aux with replayDig := fun _ => none } }) L
  unfold finishSpan
  dsimp only
  rw [hend]
  rfl

theorem replayFinish_relabel : (d.relabel L).replayFinish C=(d.replayFinish C).relabel L := by
  have hfold:=commitReplayed_foldl_relabel (C := C) L (List.range sealMaskBits)
    { d with rewound := false }
  unfold replayFinish
  rw [← finishSpan_relabel,← hfold]
  rfl

theorem episodeAbort_relabel (cls : AbortClass) : (d.relabel L).episodeAbort C v cls =
    (d.episodeAbort C v cls).relabel { L with stage := .idle,enteredMs := v.now } := by
  have hrestore : restoreTip C ((d.relabel L).sendSync .abort d.corr.epochId cls.code d.sim 0
      d.corr.slot.toNat false false)=_ :=
    restoreTip_relabel (d := d.sendSync .abort d.corr.epochId cls.code d.sim 0 d.corr.slot.toNat
      false false) L
  unfold episodeAbort
  dsimp only
  change (let d:=(restoreTip C ((d.relabel L).sendSync .abort d.corr.epochId cls.code d.sim 0
      d.corr.slot.toNat false false)).episodeClear v
    { d with aux := { d.aux with cooldownUntilTick := d.sim+cooldownTicks } })=_
  rw [hrestore]
  rfl

theorem enterVerify_relabel : (d.relabel L).enterVerify C v =
    (d.enterVerify C v).relabel { L with stage := .verifying,enteredMs := v.now } := rfl

end Relabel

section Rounds
variable {t ms : ℕ} {p : Admit} {q : Quiesce} {w : View} (d : Driver σ)
theorem replayNote_corr (t : ℕ) : (d.replayNote C t).corr=d.corr := by
  unfold replayNote
  split <;> rfl

theorem snapTake_corr (t : ℕ) : (d.snapTake C t).corr=d.corr := by
  unfold snapTake
  split <;> rfl

theorem advanceSim_corr (t : ℕ) : (d.advanceSim C t).1.corr=d.corr := by
  unfold advanceSim
  split
  · rfl
  dsimp only
  split
  · exact replayNote_corr ..
  · rfl

theorem finishReplay_relabel : (d.relabel ⟨.replaying,t,p,ms,q⟩).finishReplay C w =
      if d.corr.targetTick<t+1 then
        ((((d.note (.ran t)).replayNote C t).replayFinish C).enterVerify C w).relabel
          ⟨.verifying,t+1,p,w.now,q⟩
      else ((d.note (.ran t)).replayNote C t).relabel ⟨.replaying,t+1,p,ms,q⟩ := by
  have hnote : ((d.relabel ⟨.replaying,t,p,ms,q⟩).note (.ran t)).replayNote C t=_ :=
    replayNote_relabel (d := d.note (.ran t)) ⟨.replaying,t,p,ms,q⟩ t
  have hcorr : ((d.note (.ran t)).replayNote C t).corr=d.corr := replayNote_corr ..
  unfold finishReplay
  change (let e:=((d.relabel ⟨.replaying,t,p,ms,q⟩).note (.ran t)).replayNote C t
    let e:={ e with replayNext := e.replayNext+1 }
    if e.corr.targetTick<e.replayNext then (e.replayFinish C).enterVerify C w else e)=_
  rw [hnote]
  generalize (d.note (.ran t)).replayNote C t=e at hcorr
  change (if e.corr.targetTick<t+1 then
    ((e.relabel ⟨.replaying,t+1,p,ms,q⟩).replayFinish C).enterVerify C w
    else e.relabel ⟨.replaying,t+1,p,ms,q⟩)=_
  rw [hcorr,replayFinish_relabel,enterVerify_relabel]

theorem replayStep_relabel : (d.relabel ⟨.replaying,t,p,ms,q⟩).replayStep C v =
      match (d.snapTake C t).loadSealedRows C t with
      | none =>
        (((d.snapTake C t).resimEnd C).episodeAbort C v .abort).relabel ⟨.idle,t,p,v.now,q⟩
      | some rows =>
        { d.snapTake C t with
          host := C.host.publish t rows true (d.snapTake C t).host }.relabel
          ⟨.replaying,t,.replay,ms,q⟩ := by
  unfold replayStep
  change (let e:=(d.relabel ⟨.replaying,t,p,ms,q⟩).snapTake C t
    match e.loadSealedRows C e.replayNext with
    | none => (e.resimEnd C).episodeAbort C v .abort
    | some rows =>
      { e with host := C.host.publish e.replayNext rows true e.host,pendingAdmit := .replay })=_
  rw [snapTake_relabel]
  generalize d.snapTake C t=e
  change (match e.loadSealedRows C t with
    | none => ((e.relabel ⟨.replaying,t,p,ms,q⟩).resimEnd C).episodeAbort C v .abort
    | some rows => _)=_
  cases e.loadSealedRows C t with
  | none =>
    dsimp only
    rw [resimEnd_relabel,episodeAbort_relabel]
  | some rows => rfl

theorem runHanded_relabel : (d.relabel ⟨.replaying,t,.replay,ms,q⟩).runHanded C w =
      ({ d with host := (C.host.runTick t d.host).2 }.relabel
        ⟨.replaying,t,.stall,ms,q⟩).finishReplay C w := runHanded_of_replay rfl rfl w

theorem round_eq (hrun : ∀ s,(C.host.runTick t s).1) (d : Driver σ) :
    ((d.relabel ⟨.replaying,t,p,ms,q⟩).replayStep C v).runHanded C w =
      match (d.snapTake C t).advanceSim C t with
      | (e,true) =>
        if e.corr.targetTick<t+1 then
          ((e.replayFinish C).enterVerify C w).relabel ⟨.verifying,t+1,.stall,w.now,q⟩
        else e.relabel ⟨.replaying,t+1,.stall,ms,q⟩
      | (e,false) => ((e.resimEnd C).episodeAbort C v .abort).relabel ⟨.idle,t,p,v.now,q⟩ := by
  rw [replayStep_relabel]
  generalize d.snapTake C t=e
  unfold advanceSim
  cases e.loadSealedRows C t with
  | none => exact runHanded_of_ended (show Stage.idle≠.replaying by decide) w
  | some rows =>
    dsimp only
    rw [if_pos (hrun _),runHanded_relabel,finishReplay_relabel]
    dsimp only
    rw [replayNote_corr]
    rfl

def clocks (rounds : List (PollInput × View)) : List View := rounds.flatMap fun r => [r.1.toView,r.2]

def handed (next : ℕ) (pending : Admit) (quiesce : Quiesce) (d : Driver σ) : Driver σ :=
  { d with
    replayNext := next
    pendingAdmit := pending
    aux := { d.aux with quiesce } }

theorem inlineRest_cons (ts : List ℕ) (d : Driver σ) : inlineRest C v (t::ts) d =
    match (d.snapTake C t).advanceSim C t with
    | (e,true) => inlineRest C v ts e
    | (e,false) => (e.resimEnd C).episodeAbort C v .abort := by
  unfold inlineRest
  rw [replayTicks]
  rcases (d.snapTake C t).advanceSim C t with ⟨e,rfl | rfl⟩ <;> rfl

theorem replayRounds_relabel (rounds : List (PollInput × View)) {k : ℕ} {d : Driver σ} {t : ℕ}
    {p : Admit} (ht : d.corr.targetTick=t+k) (hlen : k < rounds.length)
    (hrun : ∀ t',t≤t' → t'≤t+k → ∀ s,(C.host.runTick t' s).1) :
    ∃ w∈clocks rounds,∃ next pending,replayRounds C rounds (d.relabel ⟨.replaying,t,p,ms,q⟩) =
        (inlineRest C w (List.range' t (k+1)) d).handed next pending q := by
  induction rounds generalizing k d t p with
  | nil => exact absurd hlen (Nat.not_lt_zero k)
  | cons r rounds ih =>
    obtain ⟨env,w⟩ := r
    have hcorr : ((d.snapTake C t).advanceSim C t).1.corr=d.corr :=
      (advanceSim_corr ..).trans (snapTake_corr ..)
    simp only [List.range'_succ,inlineRest_cons]
    rw [replayRounds_cons rfl,round_eq (hrun t le_rfl (Nat.le_add_right t k))]
    generalize (d.snapTake C t).advanceSim C t=turn at hcorr ⊢
    obtain ⟨e,rfl | rfl⟩ := turn
    · -- a row is missing: the poll aborts, and the remaining rounds do nothing
      refine ⟨env.toView,by simp [clocks],t,p,?_⟩
      exact replayRounds_of_ended (show Stage.idle≠.replaying by decide) rounds
    dsimp only at hcorr ⊢
    rw [hcorr,ht]
    cases k with
    | zero =>
      rw [if_pos (show t+0<t+1 by omega)]
      refine ⟨w,by simp [clocks],t+1,.stall,?_⟩
      exact replayRounds_of_ended (show Stage.verifying≠.replaying by decide) rounds
    | succ k =>
      rw [if_neg (by omega)]
      obtain ⟨w',hw',hend⟩ := ih (d := e) (t := t+1) (p := .stall) (k := k)
        (by rw [hcorr,ht]; omega) (by simpa using hlen)
        fun t' hlo hhi => hrun t' (by omega) (by omega)
      exact ⟨w',List.mem_append_right _ hw',hend⟩

end Rounds

section Mode
variable (mode : ReplayMode)
theorem withMode_host : (C.withMode mode).host=C.host := rfl
theorem snapTake_withMode (t : ℕ) : d.snapTake (C.withMode mode) t=d.snapTake C t := rfl
theorem resimBegin_withMode : d.resimBegin (C.withMode mode)=d.resimBegin C := rfl
theorem resimEnd_withMode : d.resimEnd (C.withMode mode)=d.resimEnd C := rfl

theorem restoreTip_withMode : d.restoreTip (C.withMode mode)=d.restoreTip C := by
  unfold restoreTip
  simp only [resimEnd_withMode,withMode_host]

theorem episodeAbort_withMode (cls : AbortClass) :
    d.episodeAbort (C.withMode mode) v cls=d.episodeAbort C v cls := by
  unfold episodeAbort
  simp only [restoreTip_withMode]

theorem enterLockstep_withMode : d.enterLockstep (C.withMode mode)=d.enterLockstep C := rfl

theorem baselineFork_withMode : d.baselineFork (C.withMode mode) v=d.baselineFork C v := by
  unfold baselineFork
  simp only [episodeAbort_withMode,enterLockstep_withMode]

theorem compareBases_withMode (mine : DigestParts) (bases : List DigestParts) (d : Driver σ) :
    compareBases (C.withMode mode) v mine bases d=compareBases C v mine bases d := by
  induction bases generalizing d with
  | nil => rfl
  | cons theirs rest ih =>
    unfold compareBases
    simp only [ih,baselineFork_withMode]
    rfl

theorem sendBaseline_withMode : d.sendBaseline (C.withMode mode) v=d.sendBaseline C v := by
  unfold sendBaseline baselineTryCompare
  simp only [compareBases_withMode,withMode_host]

theorem loadBaseline_withMode : d.loadBaseline (C.withMode mode) v=d.loadBaseline C v := by
  unfold loadBaseline
  simp only [episodeAbort_withMode,withMode_host]

theorem advanceSim_withMode (t : ℕ) : d.advanceSim (C.withMode mode) t=d.advanceSim C t := by
  unfold advanceSim loadSealedRows replayNote
  simp only [withMode_host]
  rfl

theorem replayTicks_withMode (ts : List ℕ) (d : Driver σ) :
    replayTicks (C.withMode mode) v ts d=replayTicks C v ts d := by
  induction ts generalizing d with
  | nil => rfl
  | cons t ts ih =>
    unfold replayTicks
    simp only [ih,snapTake_withMode,advanceSim_withMode,resimEnd_withMode,episodeAbort_withMode]

theorem commitReplayed_withMode :
    (commitReplayed (C.withMode mode) : Driver σ → ℕ → Driver σ)=commitReplayed C := rfl

theorem replayFinish_withMode : d.replayFinish (C.withMode mode)=d.replayFinish C := by
  unfold replayFinish finishSpan
  simp only [commitReplayed_withMode,resimEnd_withMode,withMode_host]

theorem enterVerify_withMode : d.enterVerify (C.withMode mode) v=d.enterVerify C v := rfl

theorem inlineRest_withMode (ts : List ℕ) :
    inlineRest (C.withMode mode) v ts d=inlineRest C v ts d := by
  unfold inlineRest
  simp only [replayTicks_withMode,replayFinish_withMode,enterVerify_withMode]

end Mode

variable (C v d) in
def loadSealed : Driver σ × Bool :=
  match { d with rb := d.rb.setPhase .awaitingBaseline }.loadBaseline C v with
  | (d,false) => (d,false)
  | (d,true) =>
    let d:=d.sendBaseline C v
    if d.stage=.idle then (d,false)
    else ({ d with rb := d.rb.setPhase .replay }.resimBegin C,true)

theorem pumpEpisode_withMode (hs : d.stage=.sealing)
    (hrows : d.rb.allPeerSealRowsComplete) (mode : ReplayMode) :
    d.pumpEpisode (C.withMode mode) v=match d.loadSealed C v with
      | (e,false) => e
      | (e,true) =>
        match mode with
        | .inline => inlineRest C v (ticks e.corr.loadTick e.corr.targetTick) e
        | .incremental => { e with replayNext := e.corr.loadTick }.stageSet v .replaying := by
  unfold pumpEpisode
  rw [hs]
  dsimp only
  unfold pumpSealing runReplay loadSealed
  rw [if_pos hrows,loadBaseline_withMode]
  simp only [sendBaseline_withMode]
  generalize loadBaseline C v _ = loaded
  obtain ⟨e,rfl | rfl⟩ := loaded
  · rfl
  dsimp only
  generalize e.sendBaseline C v=b
  by_cases hidle : b.stage=.idle
  · simp only [if_pos hidle]
  simp only [if_neg hidle]
  unfold replaySpan
  simp only [resimBegin_withMode]
  cases mode with
  | incremental => rfl
  | inline =>
    have hmode : (C.withMode .inline).cfg.replayMode=.inline := rfl
    unfold inlineRest
    simp only [hmode,replayTicks_withMode,replayFinish_withMode,enterVerify_withMode]
    generalize replayTicks C v _ _ = ran
    obtain ⟨e,rfl | rfl⟩ := ran <;> rfl

theorem loadBaseline_idle (h : (d.loadBaseline C v).2=false) :
    (d.loadBaseline C v).1.stage=.idle := by
  unfold loadBaseline at h ⊢
  dsimp only at h ⊢
  split
  · rfl
  next hsave =>
  rw [if_neg hsave] at h
  split
  · rfl
  next hload =>
  rw [if_neg hload] at h
  cases h

theorem loadSealed_spec : ((d.loadSealed C v).2=false → (d.loadSealed C v).1.stage=.idle) ∧
      ((d.loadSealed C v).2 → (d.loadSealed C v).1.corr.loadTick=d.corr.loadTick ∧
        (d.loadSealed C v).1.corr.targetTick=d.corr.targetTick) := by
  have hload:=(loadBaseline_spec (C := C) (v := v)
    { d with rb := d.rb.setPhase .awaitingBaseline }).1
  have hidle:=loadBaseline_idle (C := C) (v := v)
    (d := { d with rb := d.rb.setPhase .awaitingBaseline })
  unfold loadSealed
  generalize loadBaseline C v _ = loaded at hload hidle
  obtain ⟨e,rfl | rfl⟩ := loaded
  · exact ⟨fun _ => hidle rfl,fun h => (by cases h)⟩
  dsimp only
  have hout:=hload rfl
  split
  · next hb => exact ⟨fun _ => hb,fun h => (by cases h)⟩
  next hb =>
  refine ⟨fun h => (by cases h),fun _ => ?_⟩
  rcases sendBaseline_cases (C := C) (v := v) e with ⟨m,-,hsent⟩ | ⟨hi,-⟩
  · have htuple : (e.sendBaseline C v).outline.tuple=e.outline.tuple :=
      (congrArg Outline.tuple hsent).trans rfl
    rw [hout] at htuple
    exact ⟨congrArg Tuple.load htuple,congrArg Tuple.target htuple⟩
  · exact absurd hi hb

def drain (d : Driver σ) : Quiesce × ℕ := (d.aux.quiesce,d.aux.quiesceReqMs)

section Drain
variable (d)
theorem snapTake_drain (t : ℕ) : (d.snapTake C t).drain=d.drain := by
  unfold snapTake
  split <;> rfl

theorem resimEnd_drain : (d.resimEnd C).drain=d.drain := by
  unfold resimEnd
  split <;> rfl

theorem episodeAbort_drain (cls : AbortClass) : (d.episodeAbort C v cls).drain=d.drain := by
  change (restoreTip C (d.sendSync .abort d.corr.epochId cls.code d.sim 0 d.corr.slot.toNat false
    false)).drain=d.drain
  unfold restoreTip
  split
  · exact resimEnd_drain _
  · rfl

theorem advanceSim_drain (t : ℕ) : (d.advanceSim C t).1.drain=d.drain := by
  unfold advanceSim
  split
  · rfl
  dsimp only
  split
  · unfold replayNote
    split <;> rfl
  · rfl

theorem commitReplayed_drain (offs : List ℕ) (d : Driver σ) :
    (offs.foldl (commitReplayed C) d).drain=d.drain := by
  induction offs generalizing d with
  | nil => rfl
  | cons off offs ih =>
    rw [List.foldl_cons,ih]
    unfold commitReplayed
    split <;> rfl

theorem finishSpan_drain : (d.finishSpan C).drain=d.drain :=
  resimEnd_drain (C := C) { d with
    owed := owedClearSpan d.owed d.corr.loadTick d.corr.targetTick
    aux := { d.aux with replayDig := fun _ => none } }

theorem replayFinish_drain : (d.replayFinish C).drain=d.drain := by
  unfold replayFinish
  rw [finishSpan_drain,commitReplayed_drain]
  rfl

theorem enterVerify_drain : (d.enterVerify C v).drain=d.drain := rfl

end Drain

theorem inlineRest_ends (ts : List ℕ) (d : Driver σ) : (inlineRest C v ts d).drain=d.drain ∧
    ((inlineRest C v ts d).stage=.verifying ∨ (inlineRest C v ts d).stage=.idle) := by
  induction ts generalizing d with
  | nil => exact ⟨(enterVerify_drain _).trans (replayFinish_drain d),.inl rfl⟩
  | cons t ts ih =>
    have hturn : ((d.snapTake C t).advanceSim C t).1.drain=d.drain :=
      (advanceSim_drain ..).trans (snapTake_drain ..)
    rw [inlineRest_cons]
    generalize (d.snapTake C t).advanceSim C t=turn at hturn
    obtain ⟨e,rfl | rfl⟩ := turn
    · exact ⟨((episodeAbort_drain ..).trans (resimEnd_drain e)).trans hturn,.inr rfl⟩
    · exact ⟨(ih e).1.trans hturn,(ih e).2⟩

def unstamped (d : Driver σ) : Driver σ :=
  { d with
    replayNext := 0
    pendingAdmit := .stall
    aux := { d.aux with stageEnteredMs := 0,postSentMs := 0,postResendMs := 0 } }

theorem handed_unstamped (d : Driver σ) (next : ℕ) (pending : Admit) (quiesce : Quiesce) :
    (d.handed next pending quiesce).unstamped =
      { d.unstamped with aux := { d.unstamped.aux with quiesce } } := rfl

theorem inlineRest_unstamped (w : View) (ts : List ℕ) (d : Driver σ) :
    (inlineRest C w ts d).unstamped=(inlineRest C v ts d).unstamped := by
  induction ts generalizing d with
  | nil => rfl
  | cons t ts ih =>
    rw [inlineRest_cons,inlineRest_cons]
    rcases (d.snapTake C t).advanceSim C t with ⟨e,rfl | rfl⟩
    · rfl
    · exact ih e

theorem inlineRest_clock {w : View} (hw : w.now=v.now) (ts : List ℕ) (d : Driver σ) :
    inlineRest C w ts d=inlineRest C v ts d := by
  induction ts generalizing d with
  | nil =>
    unfold inlineRest enterVerify
    rw [hw]
    rfl
  | cons t ts ih =>
    rw [inlineRest_cons,inlineRest_cons]
    rcases (d.snapTake C t).advanceSim C t with ⟨e,rfl | rfl⟩
    · unfold episodeAbort episodeClear
      rw [hw]
    · exact ih e

theorem drainTimeout_eq_handed {d d₀ : Driver σ} (h : d.drain=d₀.drain) :
    d.drainTimeout v=d.handed d.replayNext d.pendingAdmit (d₀.drainTimeout v).aux.quiesce := by
  obtain ⟨hq,hreq⟩ := Prod.mk.inj h
  unfold drainTimeout
  rw [← hq,← hreq]
  split
  · rfl
  · rw [← hq]
    rfl

end Driver

def Outline.Spans (s : Outline) : Prop := s.stage≠.idle → s.tuple.load ≤ s.tuple.target

variable {C : Setup σ} {s s' : Outline}
theorem Step.spans (h : s.Spans) (hstep : Step C s s') : s'.Spans := by
  cases hstep with
  | clear tuple core => exact fun hs => absurd rfl hs
  | «open» t hs ht => exact fun _ => ht
  | reopen target hs ht =>
    have hopen : s.stage≠.idle := by rcases hs with hs | hs <;> simp [hs]
    exact fun _ => (h hopen).trans ht
  | startReplay hs hp => exact fun _ => h (by simp [hs])
  | verify ran sends own0 replayNext digest hr hsends ho =>
    refine fun _ => h ?_
    cases hr with
    | inline hs _ => simp [hs]
    | last hs _ => simp [hs]
  | commit m hs hp => exact fun _ => h (by simp [hs])
  | finishLive digest hp =>
    unfold Outline.ageOut
    split <;> exact h
  | _ => exact h

theorem Driver.beforePump_steps (d : Driver σ) (env : PollInput) :
    Steps C d (d.beforePump C env) := by
  unfold beforePump
  dsimp only
  refine (drainWire_steps (v := env.toView) d env.inbox).trans ?_
  refine (requestMissingFrameCommits_steps (v := env.toView) _).trans ?_
  refine (deferPump_steps (v := env.toView) _).trans ?_
  refine (modsetPump_steps (v := env.toView) _ env.modset env.modsetAcks).trans ?_
  exact (sendIdentity_steps (v := env.toView) _).trans (reconcileWire_steps _ env)

theorem steps_spans (h : Relation.ReflTransGen (Step C) s s') (hs : s.Spans) : s'.Spans := by
  induction h with
  | refl => exact hs
  | tail _ hstep ih => exact hstep.spans ih

variable {d : Driver σ}
theorem reachable_spans (h : Reachable C d) (env : PollInput) :
    (d.beforePump C env).outline.Spans := by
  obtain ⟨core,hsteps⟩ := reachable_steps h
  exact steps_spans (hsteps.trans (d.beforePump_steps env)) fun hs => absurd rfl hs

theorem Driver.incremental_ends (env : PollInput) (w : View)
    {rounds : List (PollInput × View)} (hspan : d.corr.loadTick≤d.corr.targetTick)
    (hlen : d.corr.targetTick-d.corr.loadTick ≤ rounds.length)
    (hrun : ∀ t,d.corr.loadTick≤t → t≤d.corr.targetTick → ∀ s,(C.host.runTick t s).1) :
    ∃ c∈env.toView::w::clocks rounds,∃ next pending,
      replayRounds C rounds ((({ d with replayNext := d.corr.loadTick }.stageSet env.toView
        .replaying).afterPump C env).runHanded C w) =
        (inlineRest C c (ticks d.corr.loadTick d.corr.targetTick) d).handed next pending
          (d.drainTimeout env.toView).aux.quiesce := by
  have hstart : ({ d with replayNext := d.corr.loadTick }.stageSet env.toView
      .replaying).drainTimeout env.toView=d.relabel ⟨.replaying,d.corr.loadTick,d.pendingAdmit,
        env.now,(d.drainTimeout env.toView).aux.quiesce⟩ := by
    unfold drainTimeout
    by_cases hout : d.aux.quiesce=.draining ∧ 10000<env.now-d.aux.quiesceReqMs
    · rw [if_pos hout]
      exact if_pos hout
    · rw [if_neg hout]
      exact if_neg hout
  have hticks : ticks d.corr.loadTick d.corr.targetTick =
      List.range' d.corr.loadTick (d.corr.targetTick-d.corr.loadTick+1) := by
    unfold ticks
    congr 1
    omega
  rw [afterPump_replaying rfl,hstart,← replayRounds_cons rfl,hticks]
  exact replayRounds_relabel ((env,w)::rounds) (by omega) (by simpa using Nat.lt_succ_of_le hlen)
    fun t hlo hhi => hrun t hlo (by omega)

/-- **Replay-shape equivalence.** -/
theorem replay_shapes_agree {C : Setup σ} {d : Driver σ} (hd : Reachable C d) (env : PollInput)
    (hs : (d.beforePump C env).stage=.sealing)
    (hrows : (d.beforePump C env).rb.allPeerSealRowsComplete=true)
    (hrun : ∀ t,(d.beforePump C env).corr.loadTick≤t →
      t≤(d.beforePump C env).corr.targetTick → ∀ s,(C.host.runTick t s).1=true)
    (w : View) (rounds : List (PollInput × View))
    (hlen : (d.beforePump C env).corr.targetTick-(d.beforePump C env).corr.loadTick ≤
      rounds.length) :
    let inline:=(d.beforePump C env).pumpEpisode (C.withMode .inline) env.toView
    let started:=(d.beforePump C env).pumpEpisode (C.withMode .incremental) env.toView
    let incremental:=replayRounds (C.withMode .incremental) rounds
      ((started.afterPump (C.withMode .incremental) env).runHanded (C.withMode .incremental) w)
    (started.stage≠.replaying → started=inline) ∧
    (started.stage=.replaying → incremental.stage≠.replaying ∧
      incremental.unstamped=(inline.drainTimeout env.toView).unstamped ∧
      ((∀ c∈w::clocks rounds,c.now=env.now) → incremental={ inline.drainTimeout env.toView with
          replayNext := incremental.replayNext
          pendingAdmit := incremental.pendingAdmit }) ∧ (inline.stage=.verifying →
        inline.afterPump (C.withMode .inline) env=inline.drainTimeout env.toView)) := by
  have hspan:=reachable_spans hd env (by change (d.beforePump C env).stage≠.idle; simp [hs])
  change (d.beforePump C env).corr.loadTick≤(d.beforePump C env).corr.targetTick at hspan
  generalize d.beforePump C env=e at hs hrows hrun hlen hspan
  intro inline started incremental
  have hinline : inline=_ := pumpEpisode_withMode hs hrows .inline
  have hstarted : started=_ := pumpEpisode_withMode hs hrows .incremental
  obtain ⟨hover,hsame⟩ := loadSealed_spec (C := C) (v := env.toView) (d := e)
  generalize e.loadSealed C env.toView=loaded at hinline hstarted hover hsame
  obtain ⟨x,rfl | rfl⟩ := loaded
  · dsimp only at hinline hstarted
    refine ⟨fun _ => hstarted.trans hinline.symm,fun hr => ?_⟩
    rw [hstarted,hover rfl] at hr
    cases hr
  dsimp only at hinline hstarted
  obtain ⟨hload,htarget⟩ := hsame rfl
  rw [← hload,← htarget] at hrun hspan hlen
  obtain ⟨c,hc,next,pending,hinc⟩ :=
    incremental_ends (C := C.withMode .incremental) env w hspan hlen hrun
  have hend : incremental=_ := (hstarted ▸ hinc :)
  rw [inlineRest_withMode] at hend
  obtain ⟨-,hstage⟩ := inlineRest_ends (C := C) (v := c)
    (ticks x.corr.loadTick x.corr.targetTick) x
  have hdrain : inline.drainTimeout env.toView=_ :=
    drainTimeout_eq_handed (hinline ▸ (inlineRest_ends _ x).1)
  refine ⟨fun hr => absurd (congrArg stage hstarted) hr,fun _ => ⟨?_,?_,?_,?_⟩⟩
  · rw [hend]
    change (inlineRest C c _ x).stage≠.replaying
    rcases hstage with h | h <;> simp [h]
  · rw [hend,hdrain,handed_unstamped,handed_unstamped,hinline,
      inlineRest_unstamped c (v := env.toView)]
  · intro hclocks
    have hnow : c.now=env.now := by
      rcases List.mem_cons.mp hc with rfl | hc
      · rfl
      · exact hclocks c hc
    rw [hdrain,hend,hinline,inlineRest_clock (v := env.toView) hnow]
    rfl
  · exact fun hv => afterPump_verifying hv env

def correctionPoll : PollInput := plainPoll 30 4 [⟨0,.sync ⟨8,1,0,1,0,.begin,false,false⟩⟩,
    ⟨0,.sealRows ⟨8,0,1,0,0,[⟨0,0,0,0,false,true,0,0,0⟩,⟨1,1,0,0,false,true,0,0,0⟩]⟩⟩] noRow

def secondRound : PollInput × View :=
  (plainPoll 50 4 [⟨0,.sync ⟨8,1,2,0,0,.abort,false,false⟩⟩] noRow,⟨60,neutralTo 4⟩)

theorem replay_shapes_agree_duel : ∃ d,Reachable ((duel 1 2).withMode .incremental) d ∧
    Driver.unstamped (Driver.replayRounds ((duel 1 2).withMode .incremental) [secondRound]
      ((d.pollAdmit ((duel 1 2).withMode .incremental) correctionPoll).runHanded
        ((duel 1 2).withMode .incremental) ⟨40,neutralTo 4⟩)) =
      Driver.unstamped (((d.beforePump ((duel 1 2).withMode .incremental) correctionPoll).pumpEpisode
        (duel 1 2) correctionPoll.toView).drainTimeout correctionPoll.toView) := by
  obtain ⟨d,hd,hstage,hs,hrows,hlen,hstarted⟩ : ∃ d,Reachable ((duel 1 2).withMode .incremental) d ∧
        let e:=d.beforePump ((duel 1 2).withMode .incremental) correctionPoll
        d.stage≠.replaying ∧ e.stage=.sealing ∧ e.rb.allPeerSealRowsComplete=true ∧
        e.corr.targetTick-e.corr.loadTick≤1 ∧
        (e.pumpEpisode ((duel 1 2).withMode .incremental) correctionPoll.toView).stage =
          .replaying := reachable_play [] twoTicks (by decide +kernel)
  have h:=(replay_shapes_agree hd correctionPoll hs hrows (fun _ _ _ _ => rfl) ⟨40,neutralTo 4⟩
    [secondRound] hlen).2 hstarted
  refine ⟨d,hd,?_⟩
  rw [pollAdmit_eq_afterPump hstage rfl]
  exact h.2.1

def stuckDuel : Setup (List ℕ) :=
  { duel 1 2 with host := { stillHost with runTick := fun _ saved => (false,saved) } }

theorem failed_tick_splits_shapes : ∃ d,Reachable stuckDuel d ∧
    (d.beforePump stuckDuel correctionPoll).stage=.sealing ∧
    (d.beforePump stuckDuel correctionPoll).rb.allPeerSealRowsComplete=true ∧
    ((d.beforePump stuckDuel correctionPoll).pumpEpisode (stuckDuel.withMode .inline)
      correctionPoll.toView).stage=.idle ∧
    (Driver.replayRounds (stuckDuel.withMode .incremental) [secondRound]
      ((((d.beforePump stuckDuel correctionPoll).pumpEpisode (stuckDuel.withMode .incremental)
        correctionPoll.toView).afterPump (stuckDuel.withMode .incremental) correctionPoll).runHanded
        (stuckDuel.withMode .incremental) ⟨40,neutralTo 4⟩)).stage=.verifying :=
  reachable_play [] twoTicks (by decide +kernel)

end RecompNet.RbDriver
