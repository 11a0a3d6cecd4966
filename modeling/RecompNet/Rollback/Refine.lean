import RecompNet.Rollback.Machine

/-!
# The episode functions are steps of the machine

`Steps C d d'` says that the outline of `d'` is reached from that of `d`.
-/
namespace RecompNet.RbDriver
open RbSession List Step
variable {σ : Type} (C : Setup σ) (v : View)
def Steps (d d' : Driver σ) : Prop := Relation.ReflTransGen (Step C) d.outline d'.outline

variable {C v} {d d' d'' : Driver σ}
theorem Steps.of_eq (h : d'.outline=d.outline) : Steps C d d' := by
  unfold Steps
  rw [h]

theorem Steps.refl (d : Driver σ) : Steps C d d := .of_eq rfl
theorem Steps.trans (h : Steps C d d') (h' : Steps C d' d'') : Steps C d d'' :=
  Relation.ReflTransGen.trans h h'

theorem Steps.start_eq (h : Steps C d' d'') (he : d'.outline=d.outline) : Steps C d d'' := by
  unfold Steps at *
  rwa [he] at h

theorem Steps.one (h : Step C d.outline d'.outline) : Steps C d d' := .single h

def Says (d d' : Driver σ) : Prop := ∃ sends,d'={ d with log := sends++d.log } ∧
    ∀ e∈sends,∃ m : RbMsg,e=.sent m ∧ ∀ t,m≠.resolved t

theorem Says.refl (d : Driver σ) : Says d d := ⟨[],rfl,by simp⟩

theorem Says.trans (h : Says d d') (h' : Says d' d'') : Says d d'' := by
  obtain ⟨l,rfl,hl⟩ := h
  obtain ⟨l',rfl,hl'⟩ := h'
  refine ⟨l'++l,by simp,fun e he => ?_⟩
  rcases mem_append.mp he with he | he
  · exact hl' e he
  · exact hl e he

theorem Says.send (d : Driver σ) (m : RbMsg) (hm : ∀ t,m≠.resolved t) : Says d (d.send m) :=
  ⟨[.sent m],rfl,by simpa using hm⟩

theorem Says.sendSync (d : Driver σ) (op : SyncOp) (epoch a b c slot : ℕ) (light again : Bool) :
    Says d (d.sendSync op epoch a b c slot light again) := .send d _ fun _ => by simp

variable {α : Type}
theorem says_foldl {f : Driver σ → α → Driver σ} (hf : ∀ d a,Says d (f d a))
    (l : List α) (d : Driver σ) : Says d (l.foldl f d) := by
  induction l generalizing d with
  | nil => exact .refl d
  | cons a l ih => exact (hf d a).trans (ih _)

theorem Says.steps (h : Says d d') : Steps C d d' := by
  obtain ⟨sends,rfl,hs⟩ := h
  induction sends with
  | nil => exact .refl d
  | cons e sends ih =>
    obtain ⟨m,rfl,hm⟩ := hs e (by simp)
    have hrest:=ih fun e he => hs e (mem_cons_of_mem _ he)
    exact hrest.trans (.one (.say m hm))

theorem steps_foldl {f : Driver σ → α → Driver σ} (hf : ∀ d a,Steps C d (f d a))
    (l : List α) (d : Driver σ) : Steps C d (l.foldl f d) := by
  induction l generalizing d with
  | nil => exact .refl d
  | cons a l ih => exact (hf d a).trans (ih _)

namespace Driver

section
variable (d : Driver σ)
@[simp] theorem snapTake_outline (t : ℕ) : (d.snapTake C t).outline=d.outline := by
  unfold snapTake
  split <;> rfl

theorem liftForkCap_outline (oldest : ℕ) : (d.liftForkCap oldest).outline=d.outline := by
  unfold liftForkCap
  split <;> rfl

@[simp] theorem snapFloor_outline (want : ℕ) : (d.snapFloor C want).1.outline=d.outline := by
  unfold snapFloor
  split
  · rfl
  · exact liftForkCap_outline ..

@[simp] theorem resimEnd_outline : (d.resimEnd C).outline=d.outline := by
  unfold resimEnd
  split <;> rfl

@[simp] theorem enterLockstep_outline : (d.enterLockstep C).outline=d.outline := by
  unfold enterLockstep
  split <;> rfl

theorem refuse_steps (code : Refusal) : Steps C d (d.refuse C code) := by
  unfold refuse
  split
  · exact .refl d
  · next h =>
    exact .one (.refuse code (by simpa [outline] using h))

theorem episodeClear_steps : Steps C d (d.episodeClear v) :=
  .one (.clear ⟨0,0,0⟩ ⟨0,0,0⟩)

theorem restoreTip_clear_steps : Steps C d ((d.restoreTip C).episodeClear v) := by
  refine (episodeClear_steps (v := v) d).trans ?_
  unfold restoreTip
  split
  · refine .one ?_
    have h:=resimEnd_outline (C := C) { d with rewound := false }
    have hstep:=restore (C := C) (s := (d.episodeClear v).outline)
      (({ d with rewound := false }.resimEnd C).aux.tipTick) rfl
    generalize { d with rewound := false }.resimEnd C=e at h hstep
    convert hstep using 1
    simp only [outline,Outline.mk.injEq] at h
    simp only [episodeClear,outline,sessionReset,h]
  · exact .refl _

theorem episodeAbort_steps (cls : AbortClass) : Steps C d (d.episodeAbort C v cls) :=
  ((Says.sendSync d _ _ _ _ _ _ _ _).steps).trans (restoreTip_clear_steps (v := v) _)

end

theorem sendSealChunks_sends (n off span : ℕ) (d : Driver σ) :
    Says d (sendSealChunks C n off span d) := by
  induction n generalizing off d with
  | zero => exact .refl d
  | succ n ih =>
    unfold sendSealChunks
    dsimp only
    split
    · exact .refl d
    split
    · exact .refl d
    · exact (Says.send d (.sealRows _) fun _ => by simp).trans (ih _ _)

theorem sendLocalSealRows_sends (d : Driver σ) : Says d (d.sendLocalSealRows C) := by
  unfold sendLocalSealRows
  dsimp only
  split
  · exact .refl d
  · exact sendSealChunks_sends ..

theorem baselineFork_steps (d : Driver σ) : Steps C d (d.baselineFork C v) := by
  unfold baselineFork
  refine (episodeAbort_steps _ .abort).start_eq ?_
  rw [enterLockstep_outline]
  rfl

theorem compareBases_cases (mine : DigestParts) (bases : List DigestParts) (d : Driver σ) :
    (compareBases C v mine bases d).outline=d.outline ∨
      (compareBases C v mine bases d).stage=.idle ∧ Steps C d (compareBases C v mine bases d) := by
  induction bases generalizing d with
  | nil => exact .inl rfl
  | cons theirs rest ih =>
    unfold compareBases
    dsimp only
    generalize (if 0<C.knobs.forceForkEvery then d.aux.forceForkN+1 else d.aux.forceForkN)=n
    split
    · rcases ih { d with aux := { d.aux with forceForkN := n } } with h | ⟨hi,hs⟩
      · exact .inl h
      · exact .inr ⟨hi,hs.start_eq rfl⟩
    · exact .inr ⟨rfl,(baselineFork_steps _).start_eq rfl⟩

section
variable (d : Driver σ)
theorem baselineTryCompare_cases : (d.baselineTryCompare C v).outline=d.outline ∨
      (d.baselineTryCompare C v).stage=.idle ∧ Steps C d (d.baselineTryCompare C v) := by
  unfold baselineTryCompare
  split
  · exact .inl rfl
  next mine _ =>
  rcases compareBases_cases (C := C) (v := v) mine _
    { d with aux := { d.aux with peerBase := fun _ => none } } with h | ⟨hi,hs⟩
  · exact .inl h
  · exact .inr ⟨hi,hs.start_eq rfl⟩

theorem baselineTryCompare_steps : Steps C d (d.baselineTryCompare C v) := by
  rcases baselineTryCompare_cases (C := C) (v := v) d with h | ⟨-,hs⟩
  · exact .of_eq h
  · exact hs

theorem sendBaseline_cases : (∃ m : RbMsg,(∀ t,m≠.resolved t) ∧
      (d.sendBaseline C v).outline=(d.send m).outline) ∨
      (d.sendBaseline C v).stage=.idle ∧ Steps C d (d.sendBaseline C v) := by
  let m : RbMsg := .baseline d.corr.epochId d.corr.loadTick (C.host.digestParts d.host)
  have hm : ∀ t,m≠.resolved t := fun _ => by simp [m]
  let e:={ d with aux := { d.aux with localBase := some (C.host.digestParts d.host) } }.send m
  have he : Steps C d e := (Says.send _ m hm).steps.start_eq rfl
  rcases baselineTryCompare_cases (C := C) (v := v) e with h | ⟨hi,hs⟩
  · exact .inl ⟨m,hm,h⟩
  · exact .inr ⟨hi,he.trans hs⟩

@[simp] theorem replayNote_outline (t : ℕ) : (d.replayNote C t).outline=d.outline := by
  unfold replayNote
  split <;> rfl

theorem advanceSim_outline (t : ℕ) : (d.advanceSim C t).1.outline =
      if (d.advanceSim C t).2 then { d.outline with log := .ran t::d.log } else d.outline := by
  unfold advanceSim
  split
  · rfl
  dsimp only
  split
  · rw [replayNote_outline]
    rfl
  · rfl

end

theorem replayTicks_spec (ts : List ℕ) (d : Driver σ) :
    ((replayTicks C v ts d).2=true → (replayTicks C v ts d).1.outline =
        { d.outline with log := (ts.map .ran).reverse++d.log }) ∧
    (d.stage=.sealing → Steps C d (replayTicks C v ts d).1) := by
  induction ts generalizing d with
  | nil => exact ⟨fun _ => rfl,fun _ => .refl d⟩
  | cons t ts ih =>
    have hout:=advanceSim_outline (C := C) (d.snapTake C t) t
    have hsnap:=snapTake_outline (C := C) d t
    have hlog : (d.snapTake C t).log=d.log := congrArg Outline.log hsnap
    rw [hsnap,hlog] at hout
    unfold replayTicks
    split
    · next e hadv =>
      rw [hadv,if_pos rfl] at hout
      have hl : e.log=.ran t::d.log := congrArg Outline.log hout
      refine ⟨fun h => ?_,fun hs => ?_⟩
      · rw [(ih e).1 h,hout,hl]
        simp
      · have he : Steps C d e := .one (hout ▸ run t hs)
        exact he.trans ((ih e).2 ((congrArg Outline.stage hout).trans hs))
    · next e hadv =>
      rw [hadv,if_neg (by simp)] at hout
      refine ⟨fun h => (by cases h),fun _ => ?_⟩
      have he : Steps C d (e.resimEnd C) := .of_eq ((resimEnd_outline e).trans hout)
      exact he.trans (episodeAbort_steps _ _)

theorem hcNoteLocal_own {hc : ℕ → HashConfirm} {t g i g' : ℕ}
    (h : (hcNoteLocal C hc t g i).loc.get? 0=some g') :
    (t=0 ∧ g'=g) ∨ (hc i).loc.get? 0=some g' := by
  unfold hcNoteLocal at h
  split at h
  · rw [HashConfirm.noteLocal_loc] at h
    rcases TickRing.get?_store_eq_some h with ⟨ht,hg⟩ | h
    · exact .inl ⟨ht.symm,hg⟩
    · exact .inr h
  · exact .inr h

theorem hcNoteLocal_peer (hc : ℕ → HashConfirm) (t g i : ℕ) :
    (hcNoteLocal C hc t g i).peer=(hc i).peer := by
  unfold hcNoteLocal
  split <;> simp

theorem commitReplayed_fold (offs : List ℕ) (d : Driver σ) :
    ∃ sends own0,(offs.foldl (commitReplayed C) d).outline =
        { d.outline with own0,log := sends++d.log } ∧
      (∀ e∈sends,∃ t g,e=.sent (.frameCommit t g)) ∧
      ∀ i g,own0 i=some g → d.outline.own0 i=some g ∨ .sent (.frameCommit 0 g)∈sends := by
  induction offs generalizing d with
  | nil => exact ⟨[],d.outline.own0,rfl,by simp,fun i g h => .inl h⟩
  | cons off offs ih =>
    rw [foldl_cons]
    unfold commitReplayed
    split
    · exact ih d
    next digest _ =>
    obtain ⟨sends,own0,hout,hs,ho⟩ := ih { d with
      hc := hcNoteLocal C d.hc (d.corr.loadTick+off) digest
      log := .sent (.frameCommit (d.corr.loadTick+off) digest)::d.log }
    refine ⟨sends++[.sent (.frameCommit (d.corr.loadTick+off) digest)],own0,?_,?_,?_⟩
    · unfold commitReplayed at hout
      rw [hout]
      simp only [outline,hcNoteLocal_peer,append_assoc,singleton_append]
    · intro e he
      rcases mem_append.mp he with he | he
      · exact hs e he
      · exact ⟨_,_,mem_singleton.mp he⟩
    · intro i g hg
      rcases ho i g hg with h | h
      · rcases hcNoteLocal_own h with ⟨h0,rfl⟩ | h
        · rw [h0]
          exact .inr (by simp)
        · exact .inl h
      · exact .inr (mem_append_left _ h)

theorem finishSpan_outline (d : Driver σ) : (d.finishSpan C).outline={ d.outline with
      owed := owedClearSpan d.outline.owed d.outline.tuple.load d.outline.tuple.target
      sim := d.outline.tuple.target+1
      log := .replayed d.outline.tuple.load d.outline.tuple.target::d.outline.log } := by
  have h:=resimEnd_outline (C := C) { d with
    owed := owedClearSpan d.owed d.corr.loadTick d.corr.targetTick
    aux := { d.aux with replayDig := fun _ => none } }
  unfold finishSpan
  dsimp only
  generalize resimEnd C _ = e at h
  simp only [outline,Outline.mk.injEq,Tuple.mk.injEq] at h
  simp only [outline,h]

theorem enterVerify_outline (d : Driver σ) : (d.enterVerify C v).outline={ d.outline with
      stage := .verifying
      localPost := C.host.digestMaster d.host
      log := .verified d.outline.tuple.epoch d.outline.tuple.target (C.host.digestMaster d.host) ::
        .sent (.post d.outline.tuple.epoch d.outline.tuple.target (C.host.digestMaster d.host)) ::
        d.outline.log } := rfl

variable {d e : Driver σ}
theorem replayFinish_verify (ran : List Event) (next : ℕ) (hr : ReplayEnds d.outline ran)
    (he : e.outline={ d.outline with replayNext := next,log := ran++d.log }) :
    Steps C d ((e.replayFinish C).enterVerify C v) := by
  obtain ⟨sends,own0,hf,hs,ho⟩ :=
    commitReplayed_fold (C := C) (range sealMaskBits) { e with rewound := false }
  replace hf : ((range sealMaskBits).foldl (commitReplayed C) { e with rewound := false }).outline
      = { e.outline with own0,log := sends++e.outline.log } := hf
  rw [he] at hf
  have hown : e.outline.own0=d.outline.own0 := by rw [he]
  have hstep:=verify (C := C) (s := d.outline) ran sends own0 next
    (C.host.digestMaster (e.replayFinish C).host) hr hs (fun i g h => by
      rcases ho i g h with h | h
      · exact .inl (congrFun hown i ▸ h)
      · exact .inr (mem_append_left _ h))
  refine .one ?_
  convert hstep using 1
  rw [enterVerify_outline]
  generalize C.host.digestMaster (e.replayFinish C).host=g
  unfold replayFinish
  rw [finishSpan_outline,hf]
  rfl

variable (d)
theorem loadBaseline_spec : ((d.loadBaseline C v).2=true → (d.loadBaseline C v).1.outline =
        { d.outline with log := .loaded d.corr.loadTick::d.log }) ∧
    ((d.loadBaseline C v).2=false → Steps C d (d.loadBaseline C v).1) := by
  unfold loadBaseline
  dsimp only
  split
  · exact ⟨fun h => (by cases h),fun _ => (episodeAbort_steps _ _).start_eq rfl⟩
  split
  · exact ⟨fun h => (by cases h),fun _ => (episodeAbort_steps _ _).start_eq rfl⟩
  · exact ⟨fun _ => rfl,fun h => (by cases h)⟩

def ReplaySpec (C : Setup σ) (v : View) (d : Driver σ) (r : Driver σ × Bool) : Prop :=
  (r.2=true → Steps C d (r.1.enterVerify C v)) ∧ (r.2=false → Steps C d r.1)

theorem replaySpan_spec (hs : d.stage=.sealing)
    (hp : replayProgress d.log=some (d.corr.loadTick,d.corr.loadTick)) :
    ReplaySpec C v d (d.replaySpan C v) := by
  unfold replaySpan
  dsimp only
  have hbegin : ({ d with rb := d.rb.setPhase .replay }.resimBegin C).outline=d.outline := rfl
  generalize { d with rb := d.rb.setPhase .replay }.resimBegin C=e at hbegin
  have hes : e.stage=.sealing := (congrArg Outline.stage hbegin).trans hs
  have hel : e.log=d.log := congrArg Outline.log hbegin
  have het : e.outline.tuple=d.outline.tuple := congrArg Outline.tuple hbegin
  split
  · refine ⟨fun h => (by cases h),fun _ => Steps.start_eq (.one ?_) hbegin⟩
    refine .startReplay hes ?_
    rw [het]
    change replayProgress e.log=some (d.corr.loadTick,d.corr.loadTick)
    rw [hel,hp]
  have hspec:=replayTicks_spec (C := C) (v := v) (ticks e.corr.loadTick e.corr.targetTick) e
  split
  · next f hf =>
    rw [hf] at hspec
    refine ⟨fun _ => ?_,fun h => (by cases h)⟩
    have hsteps : Steps C e f := hspec.2 hes
    have hout:=hspec.1 rfl
    refine (hsteps.trans (replayFinish_verify [] f.replayNext ?_ rfl)).start_eq hbegin
    refine .inline ((congrArg Outline.stage hout).trans hes) ?_
    have hprog:=replayProgress_rans (e.corr.targetTick+1-e.corr.loadTick)
      (show replayProgress e.log=some (e.outline.tuple.load,e.outline.tuple.load) by
        rw [het,hel,hp]; rfl)
    rw [hout]
    refine hprog.trans ?_
    refine congrArg some (Prod.ext rfl ?_)
    change e.corr.loadTick+(e.corr.targetTick+1-e.corr.loadTick) =
      max e.corr.loadTick (e.corr.targetTick+1)
    omega
  · next f hf =>
    rw [hf] at hspec
    exact ⟨fun h => (by cases h),fun _ => (hspec.2 hes).start_eq hbegin⟩

theorem runReplay_spec (hs : d.stage=.sealing) : ReplaySpec C v d (d.runReplay C v) := by
  have hload:=loadBaseline_spec (C := C) (v := v) d
  unfold runReplay
  split
  · next e he =>
    rw [he] at hload
    exact ⟨fun h => (by cases h),fun _ => hload.2 rfl⟩
  next e he =>
  rw [he] at hload
  have hout : e.outline=_ := hload.1 rfl
  have hstage : e.stage=.sealing := (congrArg Outline.stage hout).trans hs
  have hde : Steps C d e := .one (hout ▸ load hs)
  dsimp only
  rcases sendBaseline_cases (C := C) (v := v) e with ⟨m,hm,hsent⟩ | ⟨hidle,hsteps⟩
  · have hb : Steps C d (e.sendBaseline C v) :=
      (hde.trans (Says.send e m hm).steps).trans (.of_eq hsent)
    have hbs : (e.sendBaseline C v).stage=.sealing := (congrArg Outline.stage hsent).trans hstage
    rw [if_neg (by rw [hbs]; simp)]
    have hlog : (e.sendBaseline C v).log=.sent m::.loaded d.corr.loadTick::d.log := by
      have hl : e.log=.loaded d.corr.loadTick::d.log := congrArg Outline.log hout
      rw [← hl]
      exact congrArg Outline.log hsent
    have htuple : (e.sendBaseline C v).outline.tuple=d.outline.tuple :=
      (congrArg Outline.tuple hsent).trans (show e.outline.tuple=d.outline.tuple by rw [hout])
    have hloadTick : (e.sendBaseline C v).corr.loadTick=d.corr.loadTick :=
      congrArg Tuple.load htuple
    have hspan:=replaySpan_spec (C := C) (v := v) (e.sendBaseline C v) hbs (by
      rw [hlog,hloadTick]; rfl)
    exact ⟨fun h => hb.trans (hspan.1 h),fun h => hb.trans (hspan.2 h)⟩
  · rw [if_pos hidle]
    exact ⟨fun h => (by cases h),fun _ => hde.trans hsteps⟩

theorem commitEpisode_steps (hs : d.stage=.verifying)
    (hp : ∀ i∈expect C,d.peerPost i=some ⟨d.corr.targetTick,d.localPostDigest⟩) :
    Steps C d (d.commitEpisode v) := by
  have hcommit (m : RbSync) := commit (C := C) (s := d.outline) m hs hp
  unfold commitEpisode commitHold
  split
  · next rb hrb =>
    unfold enterTipHold at hrb
    split at hrb
    · cases hrb
      refine .one ?_
      convert hcommit ⟨d.corr.epochId,d.corr.mismatchTick,d.corr.loadTick,d.corr.targetTick,
        d.corr.slot.toNat,.commit,false,false⟩ using 1
      simp [outline,commitPromote,stageSet,commitPromoteSealed,note,send,sendSync]
    · cases hrb
  · -- the core refused the tip-hold: the episode ends with the commit
    refine (Relation.ReflTransGen.single (hcommit ⟨0,0,0,0,0,.commit,false,false⟩)).tail ?_
    convert clear (C := C) ⟨0,0,0⟩ ⟨0,0,0⟩ using 1
    simp [outline,commitPromote,episodeClear,onPostMatch,setPhase,
      commitPromoteSealed,sessionReset,RbCorrection.zero,note,send,sendSync]

variable {d}
theorem reopenSealing_steps {newTarget : ℕ} (tick slot : ℕ) (notify : Bool)
    (hs : d.stage=.tipHold ∨ d.stage=.verifying) (ht : d.corr.targetTick≤newTarget)
    (he : e.outline={ d.outline with
      core := { d.outline.core with target := max d.outline.core.target newTarget } }) :
    Steps C d (e.reopenSealing C v newTarget tick slot notify) := by
  unfold reopenSealing
  dsimp only
  -- the notification and the rows go out first; what is left is the one step
  generalize hx : (if notify then
      { e with aux := { e.aux with tipExtends := e.aux.tipExtends+1 } }.sendSync .begin
        e.corr.epochId tick e.corr.loadTick newTarget slot false true
    else { e with aux := { e.aux with tipExtends := e.aux.tipExtends+1 } })=x
  have hnote : Says { e with aux := { e.aux with tipExtends := e.aux.tipExtends+1 } } x := by
    rw [← hx]
    split
    · exact .sendSync ..
    · exact .refl _
  obtain ⟨note,rfl,hn⟩ := hnote
  obtain ⟨rows,hrows,hr⟩ := sendLocalSealRows_sends (C := C) { e with
    corr := { e.corr with targetTick := newTarget }
    peerPost := fun _ => none
    localPostDigest := 0
    rb := e.rb.setPhase .sealInputs
    aux := { e.aux with
      tipExtends := e.aux.tipExtends+1
      peerCommitMask := ∅,localBase := none,peerBase := fun _ => none }
    log := note++e.log }
  have hsays : Says d { d with log := rows++note++d.log } := by
    refine ⟨rows++note,rfl,fun ev hev => ?_⟩
    rcases mem_append.mp hev with h | h
    · exact hr ev h
    · exact hn ev h
  refine hsays.steps.trans (.one ?_)
  convert reopen (C := C) (s := Driver.outline { d with log := rows++note++d.log })
    newTarget hs ht using 1
  simp only [outline,Outline.mk.injEq,Tuple.mk.injEq] at he
  rw [hrows]
  simp [outline,stageSet,setPhase,he]

section
variable (d : Driver σ)
theorem tipExtend_spec (tick slot : ℕ) (notify : Bool) :
    Steps C d (d.tipExtend C v tick slot notify).1 := by
  unfold tipExtend
  dsimp only
  split
  · exact .refl d
  next hs =>
  have hstage : d.stage=.tipHold ∨ d.stage=.verifying := by
    by_contra h
    rw [not_or] at h
    exact hs h
  split
  · exact .refl d
  split
  · exact .refl d
  split
  · exact .refl d
  split
  · exact .of_eq rfl
  split
  · exact .of_eq rfl
  next rb ih hext =>
  have hg:=extendTarget_grown hext
  refine reopenSealing_steps tick slot notify hstage (le_max_right ..) ?_
  simp only [outline,Outline.mk.injEq,Tuple.mk.injEq,and_true,true_and]
  exact ⟨⟨hg.epoch,hg.base,hg.target⟩,hg.resolved⟩

theorem takeSealRows_steps (m : SealChunk) : Steps C d (d.takeSealRows C v m) := by
  unfold takeSealRows
  dsimp only
  split
  · exact .one (.sealTaken m.target d.rb.corr.targetTick (.inl rfl))
  next rb ih happ =>
  have hg:=applyPeerSealRows_grown happ
  refine .one ?_
  convert sealTaken (C := C) (s := d.outline) m.target
    (max d.rb.corr.targetTick m.target) (.inr rfl) using 1
  simp only [outline,note,Outline.mk.injEq,Tuple.mk.injEq,and_true,true_and]
  exact ⟨⟨hg.epoch,hg.base,hg.target⟩,hg.resolved⟩

theorem earlySealTake_steps : Steps C d (d.earlySealTake C v) := by
  unfold earlySealTake
  exact (steps_foldl takeSealRows_steps _ d).trans (.of_eq rfl)

theorem earlyPostTake_steps : Steps C d (d.earlyPostTake C) := by
  refine .one (.posts _ _ (fun i p h => ?_) fun i e h => ?_)
  · unfold earlyPostTake at h
    dsimp only at h
    split at h
    · next e he =>
      split at h
      · next hep =>
        cases h
        refine .inr (.inl (he.trans ?_))
        change some e=some ⟨d.corr.epochId,e.target,e.digest⟩
        rw [← hep]
      · exact .inl h
    · exact .inl h
  · exact .inl (Option.filter_eq_some_iff.mp h).1

theorem nackBegin_steps (epoch mismatch load frontier slot : ℕ) :
    Steps C d (d.nackBegin epoch mismatch load frontier slot) :=
  (Says.sendSync _ _ _ _ _ _ _ _ _).steps.start_eq rfl

theorem sendNack_steps (epoch mismatch load slot : ℕ) :
    Steps C d (d.sendNack epoch mismatch load slot) := nackBegin_steps ..

theorem beginRepeat_steps (epoch : ℕ) : Steps C d (d.beginRepeat epoch).1 := by
  unfold beginRepeat
  split
  · exact (says_foldl (fun d n => .sendSync d ..) _ d).steps
  · exact .of_eq rfl

theorem enterSealing_outline (mismatch slot : ℕ) (asInitiator : Bool) :
    ∃ sends,(∀ e∈sends,∃ m : RbMsg,e=.sent m ∧ ∀ t,m≠.resolved t) ∧
      (d.enterSealing C v mismatch slot asInitiator).outline={ d.outline with
        stage := .sealing
        peerPost := fun _ => none
        log := .opened d.corr.epochId d.corr.loadTick d.corr.targetTick::(sends++d.log) } := by
  unfold enterSealing
  dsimp only
  generalize hx : (if asInitiator then
      d.sendSync .begin d.corr.epochId mismatch d.corr.loadTick d.corr.targetTick slot
        d.corr.lightTip false
    else d)=x
  have hnote : Says d x := by
    rw [← hx]
    split
    · exact .sendSync ..
    · exact .refl _
  obtain ⟨note,rfl,hn⟩ := hnote
  obtain ⟨rows,hrows,hr⟩ := sendLocalSealRows_sends (C := C) { d with
    aux := { d.aux with beginResendMs := v.now,answeredMask := ∅ }
    log := note++d.log }
  refine ⟨rows++note,fun ev hev => ?_,?_⟩
  · rcases mem_append.mp hev with h | h
    · exact hr ev h
    · exact hn ev h
  · rw [hrows]
    simp [outline,stageSet,Driver.note]

theorem openEpisode_steps (hs : d.stage=.idle) (corr : RbCorrection) :
    Steps C d (d.openEpisode C v corr).1 := by
  unfold openEpisode
  split
  · exact .refl d
  dsimp only
  have hspec:=sealInputs_spec (getInputRow C v) (d.rb.beginEpisode corr)
    corr.loadTick corr.targetTick d.ih
  have hepoch : (d.rb.beginEpisode corr).corr.epochId=corr.epochId := by
    unfold beginEpisode
    dsimp only
    split <;> rfl
  have hres : (d.rb.beginEpisode corr).resolvedThrough=d.rb.resolvedThrough := rfl
  rw [hepoch,hres] at hspec
  generalize (d.rb.beginEpisode corr).sealInputs (getInputRow C v) corr.loadTick
    corr.targetTick d.ih=core at hspec
  obtain ⟨hr,he,hsealed⟩ := hspec
  split
  · -- the core would not seal the span
    refine .one ?_
    convert clear (C := C) (s := d.outline) ⟨0,0,0⟩ ⟨0,0,0⟩ using 1
    simp [outline,episodeClear,sessionReset,RbCorrection.zero,hr]
  next hsome =>
  obtain ⟨hle,hbase,htarget⟩ := hsealed (by simpa using hsome)
  obtain ⟨sends,hsends,hout⟩ := enterSealing_outline (C := C) (v := v)
    { d with corr,rb := core.1,ih := core.2 } corr.mismatchTick corr.slot.toNat corr.initiator
  generalize ({ d with corr,rb := core.1,ih := core.2 } : Driver σ).enterSealing C v
    corr.mismatchTick corr.slot.toNat corr.initiator=e at hout
  have hopen : Steps C d e := by
    have hsays : Says d { d with log := sends++d.log } := ⟨sends,rfl,hsends⟩
    refine hsays.steps.trans (.one ?_)
    convert Step.open (C := C) (s := Driver.outline { d with log := sends++d.log })
      ⟨corr.epochId,corr.loadTick,corr.targetTick⟩ hs hle using 1
    rw [hout]
    simp [outline,hr,he,hbase,htarget]
  split
  · exact hopen
  · exact hopen.trans ((earlyPostTake_steps e).trans ((earlySealTake_steps _).start_eq rfl))

theorem beginInitiator_steps (mismatch slot : ℕ) :
    Steps C d (d.beginInitiator C v mismatch slot).1 := by
  unfold beginInitiator
  split
  · exact .refl d
  next hs =>
  have hfloor:=snapFloor_outline (C := C) d mismatch
  split
  · exact .refl d
  split
  · exact .refl d
  split
  · exact .refl d
  split
  · next e he =>
    rw [he] at hfloor
    exact .of_eq hfloor
  next e load he =>
  rw [he] at hfloor
  dsimp only
  split
  · exact .of_eq hfloor
  · refine (openEpisode_steps _ ?_ _).start_eq hfloor
    exact (congrArg Outline.stage hfloor).trans (not_not.mp hs)

theorem snapAtTip_outline (load : ℕ) : (d.snapAtTip C load).outline=d.outline := by
  unfold snapAtTip
  split <;> rfl

theorem followHeld_steps (hs : d.stage=.idle) (epoch mismatch load target slot : ℕ) (light : Bool) :
    Steps C d (d.followHeld C v epoch mismatch load target slot light).1 := by
  unfold followHeld
  split
  · exact nackBegin_steps ..
  dsimp only
  split
  · exact (sendNack_steps _ _ _ _ _).start_eq rfl
  · refine (openEpisode_steps _ ?_ _).start_eq rfl
    exact hs

theorem beginFollower_steps (epoch mismatch load target slot : ℕ) (light : Bool) :
    Steps C d (d.beginFollower C v epoch mismatch load target slot light).1 := by
  unfold beginFollower
  split
  · exact .refl d
  next hs =>
  split
  · exact .refl d
  dsimp only
  have htip:=snapAtTip_outline (C := C) d load
  split
  · exact (sendNack_steps _ _ _ _ _).start_eq htip
  · exact (followHeld_steps _ ((congrArg Outline.stage htip).trans (not_not.mp hs)) _ _ _ _ _
      _).start_eq htip

theorem followOrDefer_steps (epoch mismatch load target slot : ℕ) (light : Bool) :
    Steps C d (d.followOrDefer C v epoch mismatch load target slot light) := by
  unfold followOrDefer
  split
  · split
    · exact .refl d
    · exact .of_eq rfl
  · exact beginFollower_steps ..

theorem deferPump_steps : Steps C d (d.deferPump C v) := by
  unfold deferPump
  split
  · exact .refl d
  split
  · exact .refl d
  split
  · exact (beginFollower_steps _ _ _ _ _ _ _).start_eq rfl
  split
  · exact (sendNack_steps _ _ _ _ _).start_eq rfl
  · exact .refl d

end
end Driver
end RecompNet.RbDriver
