import RecompNet.Rollback.RefineCalls

/-!
# What an episode cannot touch before it is opened

`Frame C ok d d'` collects what the driver's passes leave alone: the sim clock, the owed table, the
held BEGIN, the session hold and the remote rows of the history (only our own seat's rows are ever
filled in from the session).
-/
namespace RecompNet.RbDriver
open List
variable {σ : Type} (C : Setup σ) (v : View)
def Event.calm : Event → Bool
  | .sent _ => true
  | .received _ => true
  | .refused _ => true
  | _ => false

def Event.isOpened : Event → Bool
  | .opened .. => true
  | _ => false

def Event.opening (e : Event) : Bool := e.calm || e.isOpened

structure Rest where
  stage : Stage
  sim : ℕ
  owed : TickRing histDepth ℕ
  defer : Option Deferred
  holdActive : Bool
  holdAt : ℕ
  pending : Admit
  frontier : ℕ
  ih : InputHist
  log : List Event

def Driver.rest (d : Driver σ) : Rest :=
  ⟨d.stage,d.sim,d.owed,d.defer,d.holdActive,d.holdAt,d.pendingAdmit,d.rb.resolvedThrough,
    d.ih,d.log⟩

structure Frame (ok : Event → Bool) (d d' : Driver σ) : Prop where
  sim : d'.sim=d.sim
  owed : d'.owed=d.owed
  defer : d'.defer=d.defer
  holdActive : d'.holdActive=d.holdActive
  holdAt : d'.holdAt=d.holdAt
  pending : d'.pendingAdmit=d.pendingAdmit
  frontier : d.rb.resolvedThrough≤d'.rb.resolvedThrough
  rows : ∀ slot t,slot≠localSlot C → d'.ih.get slot t=d.ih.get slot t
  log : ∃ pre,d'.log=pre++d.log ∧ ∀ e∈pre,ok e

structure Still (d d' : Driver σ) : Prop extends Frame C Event.calm d d' where
  stage : d'.stage=d.stage

structure Talks (d d' : Driver σ) : Prop where
  rest : { d'.rest with log := [] }={ d.rest with log := [] }
  log : ∃ pre,d'.log=pre++d.log ∧ ∀ e∈pre,e.calm

def Logs (p : Event → Bool) (d d' : Driver σ) : Prop := ∃ pre,d'.log=pre++d.log ∧ ∃ e∈pre,p e

/-- An episode was opened between `d` and `d'`. -/
def Opened (d d' : Driver σ) : Prop := Logs Event.isOpened d d'

variable {C v} {d d' d'' : Driver σ} {ok ok' : Event → Bool}
theorem Frame.trans (h : Frame C ok d d') (h' : Frame C ok d' d'') : Frame C ok d d'' := by
  obtain ⟨l,hl,hok⟩ := h.log
  obtain ⟨l',hl',hok'⟩ := h'.log
  refine ⟨h'.sim.trans h.sim,h'.owed.trans h.owed,h'.defer.trans h.defer,
    h'.holdActive.trans h.holdActive,h'.holdAt.trans h.holdAt,h'.pending.trans h.pending,
    h.frontier.trans h'.frontier,fun slot t hne => (h'.rows slot t hne).trans (h.rows slot t hne),
    l'++l,by rw [hl',hl,append_assoc],fun e he => ?_⟩
  exact (mem_append.mp he).elim (hok' e) (hok e)

theorem Frame.mono (h : Frame C ok d d') (hok : ∀ e,ok e → ok' e) : Frame C ok' d d' := by
  obtain ⟨l,hl,hall⟩ := h.log
  exact { h with log := ⟨l,hl,fun e he => hok e (hall e he)⟩ }

theorem Still.opening (h : Still C d d') : Frame C Event.opening d d' :=
  h.toFrame.mono fun e he => by simp [Event.opening,he]
theorem Talks.of_rest (h : d'.rest=d.rest) : Talks d d' :=
  ⟨by rw [h],[],congrArg Rest.log h,by simp⟩
section
variable (h : Talks d d')
include h
theorem Talks.stage : d'.stage=d.stage := congrArg Rest.stage h.rest
theorem Talks.sim : d'.sim=d.sim := congrArg Rest.sim h.rest
theorem Talks.ih : d'.ih=d.ih := congrArg Rest.ih h.rest
theorem Talks.frontier : d'.rb.resolvedThrough=d.rb.resolvedThrough :=
  congrArg Rest.frontier h.rest

theorem Talks.still : Still C d d' := by
  have howed : d'.owed=d.owed := congrArg Rest.owed h.rest
  have hdefer : d'.defer=d.defer := congrArg Rest.defer h.rest
  have hactive : d'.holdActive=d.holdActive := congrArg Rest.holdActive h.rest
  have hat : d'.holdAt=d.holdAt := congrArg Rest.holdAt h.rest
  have hpending : d'.pendingAdmit=d.pendingAdmit := congrArg Rest.pending h.rest
  exact ⟨⟨h.sim,howed,hdefer,hactive,hat,hpending,h.frontier.ge,fun _ _ _ => by rw [h.ih],
    h.log⟩,h.stage⟩

end

theorem Still.of_rest (h : d'.rest=d.rest) : Still C d d' := (Talks.of_rest h).still
theorem Still.refl (d : Driver σ) : Still C d d := .of_rest rfl
theorem Still.trans (h : Still C d d') (h' : Still C d' d'') : Still C d d'' :=
  ⟨h.toFrame.trans h'.toFrame,h'.stage.trans h.stage⟩

theorem Says.talks (h : Says d d') : Talks d d' := by
  obtain ⟨sends,rfl,hs⟩ := h
  refine ⟨rfl,sends,rfl,fun e he => ?_⟩
  obtain ⟨m,rfl,-⟩ := hs e he
  rfl

theorem Says.still (h : Says d d') : Still C d d' := h.talks.still

variable {p : Event → Bool}
theorem Logs.left (h : Logs p d' d'') (hlog : d.log <:+ d'.log) : Logs p d d'' := by
  obtain ⟨pre,hpre,e,he,ho⟩ := h
  obtain ⟨earlier,hearlier⟩ := hlog
  exact ⟨pre++earlier,by rw [hpre,← hearlier,append_assoc],e,mem_append_left _ he,ho⟩

theorem Frame.log_suffix (h : Frame C ok d d') : d.log <:+ d'.log := by
  obtain ⟨pre,hpre,-⟩ := h.log
  exact ⟨pre,hpre.symm⟩

namespace Driver
def SameRemote (C : Setup σ) (ih ih' : InputHist) : Prop :=
  ∀ slot t,slot≠localSlot C → ih'.get slot t=ih.get slot t

theorem getInputRow_remote (ih : InputHist) (slot tick : ℕ) (c : InputHist)
    (h : SameRemote C ih c) : SameRemote C ih (getInputRow C v slot tick c).2 := by
  unfold getInputRow
  split
  · exact h
  split
  · exact h
  split
  · exact h
  split
  · exact h
  next hlocal =>
  split
  · exact h
  intro slot' t hne
  rw [InputHist.get_put_of_slot_ne _ _ _ fun heq => hlocal fun hl => hne (heq.trans hl)]
  exact h slot' t hne

theorem coverTicks_remote (ts : List ℕ) (ih : InputHist) (c : InputHist)
    (h : SameRemote C ih c) : SameRemote C ih (coverTicks C v c ts).2 := by
  induction ts generalizing c with
  | nil => exact h
  | cons t ts ih' =>
    have hnext:=getInputRow_remote (v := v) ih (localSlot C) t c h
    unfold coverTicks
    split
    · next c' hc => rwa [hc] at hnext
    next row c' hc =>
    rw [hc] at hnext
    exact ih' c' hnext

theorem localRowsCover_remote (ih : InputHist) (load target : ℕ) :
    SameRemote C ih (localRowsCover C v ih load target).2 := by
  unfold localRowsCover
  split
  · exact fun _ _ _ => rfl
  · exact coverTicks_remote _ _ _ fun _ _ _ => rfl

variable (d : Driver σ)
theorem snapFloor_rest (want : ℕ) : (d.snapFloor C want).1.rest=d.rest := by
  unfold snapFloor
  split
  · rfl
  dsimp only
  unfold liftForkCap
  split <;> rfl

theorem enterSealing_frame (mismatch slot : ℕ) (asInitiator : Bool) :
    Frame C Event.opening d (d.enterSealing C v mismatch slot asInitiator) ∧
      Opened d (d.enterSealing C v mismatch slot asInitiator) := by
  unfold enterSealing
  dsimp only
  generalize hb : (if asInitiator then d.sendSync .begin d.corr.epochId mismatch d.corr.loadTick
    d.corr.targetTick slot d.corr.lightTip false else d)=b
  have hbegin : Still C d b := by
    rw [← hb]
    split
    · exact (Says.sendSync ..).still
    · exact .refl d
  have hreset : Still C b { b with aux := { b.aux with
      beginResendMs := v.now,answeredMask := ∅ } } := .of_rest rfl
  have hsent:=(hbegin.trans hreset).trans (sendLocalSealRows_sends (C := C) _).still
  generalize Driver.sendLocalSealRows C _ = e at hsent ⊢
  obtain ⟨pre,hpre,hcalm⟩ := hsent.opening.log
  refine ⟨⟨hsent.sim,hsent.owed,hsent.defer,hsent.holdActive,hsent.holdAt,hsent.pending,
    hsent.frontier,hsent.rows,.opened _ _ _::pre,congrArg (cons _) hpre,?_⟩,
    .opened _ _ _::pre,congrArg (cons _) hpre,_,mem_cons_self,rfl⟩
  intro e he
  rcases mem_cons.mp he with rfl | he
  · rfl
  · exact hcalm e he

theorem openEpisode_initiator (hs : d.stage=.idle) (corr : RbCorrection) (hi : corr.initiator) :
    Still C d (d.openEpisode C v corr).1 ∧ (d.openEpisode C v corr).2=false ∨
      Frame C Event.opening d (d.openEpisode C v corr).1 ∧ Opened d (d.openEpisode C v corr).1 ∧
        (d.openEpisode C v corr).2 := by
  unfold openEpisode
  split
  · exact .inl ⟨.refl d,rfl⟩
  dsimp only
  have hrows : SameRemote C d.ih ((d.rb.beginEpisode corr).sealInputs (getInputRow C v)
      corr.loadTick corr.targetTick d.ih).2 :=
    RbSession.sealInputs_keeps (W := fun _ => True) (fun slot tick c _ => getInputRow_remote d.ih
      slot tick c) _ _ _ _ (fun _ _ _ _ => trivial) fun _ _ _ => rfl
  have hfrontier:=(RbSession.sealInputs_spec (getInputRow C v) (d.rb.beginEpisode corr)
    corr.loadTick corr.targetTick d.ih).1
  generalize (d.rb.beginEpisode corr).sealInputs (getInputRow C v) corr.loadTick corr.targetTick
    d.ih=core at hrows hfrontier
  split
  · exact .inl ⟨⟨⟨rfl,rfl,rfl,rfl,rfl,rfl,hfrontier.ge,hrows,[],rfl,by simp⟩,hs.symm⟩,rfl⟩
  rw [hi]
  have hcore : Frame C Event.opening d { d with corr,rb := core.1,ih := core.2 } :=
    ⟨rfl,rfl,rfl,rfl,rfl,rfl,hfrontier.ge,hrows,[],rfl,by simp⟩
  obtain ⟨hframe,hopened⟩ := enterSealing_frame (C := C) (v := v)
    { d with corr,rb := core.1,ih := core.2 } corr.mismatchTick corr.slot.toNat true
  exact .inr ⟨hcore.trans hframe,hopened,rfl⟩

theorem beginInitiator_cases (mismatch slot : ℕ) :
    Still C d (d.beginInitiator C v mismatch slot).1 ∧
        (d.beginInitiator C v mismatch slot).2=false ∨
      Frame C Event.opening d (d.beginInitiator C v mismatch slot).1 ∧
        Opened d (d.beginInitiator C v mismatch slot).1 ∧
        (d.beginInitiator C v mismatch slot).2 := by
  unfold beginInitiator
  split
  · exact .inl ⟨.refl d,rfl⟩
  next hidle =>
  have hidle : d.stage=.idle := not_not.mp hidle
  split
  · exact .inl ⟨.refl d,rfl⟩
  split
  · exact .inl ⟨.refl d,rfl⟩
  split
  · exact .inl ⟨.refl d,rfl⟩
  have hrest:=snapFloor_rest (C := C) d mismatch
  split
  · next e he =>
    rw [he] at hrest
    exact .inl ⟨.of_rest hrest,rfl⟩
  next e load he =>
  rw [he] at hrest
  have hstill : Still C d
      { e with aux := { e.aux with epochSeq := e.aux.epochSeq+1 } } := .of_rest hrest
  have hstage : e.stage=.idle := (congrArg Rest.stage hrest).trans hidle
  dsimp only
  split
  · exact .inl ⟨.of_rest hrest,rfl⟩
  rcases openEpisode_initiator (C := C) (v := v)
    { e with aux := { e.aux with epochSeq := e.aux.epochSeq+1 } } hstage
    ⟨epochMake (e.aux.epochSeq+1) (localSlot C),mismatch,load,
      max (min (e.rb.suggestTarget mismatch e.simTip) e.simTip) mismatch,slot,true,
      false,RbSession.isLightTipCandidate load
        (max (min (e.rb.suggestTarget mismatch e.simTip) e.simTip) mismatch)
        e.rb.resolvedThrough e.rb.cfg.lightTipMaxDepth⟩ rfl with h | h
  · exact .inl ⟨hstill.trans h.1,h.2⟩
  · exact .inr ⟨hstill.opening.trans h.1,Logs.left h.2.1 hstill.log_suffix,h.2.2⟩

theorem reopenSealing_frame (newTarget tick slot : ℕ) (notify : Bool) :
    Frame C Event.calm d (d.reopenSealing C v newTarget tick slot notify) := by
  unfold reopenSealing
  dsimp only
  generalize hb : (if notify then ({ d with aux := { d.aux with
    tipExtends := d.aux.tipExtends+1 } } : Driver σ).sendSync .begin d.corr.epochId tick
    d.corr.loadTick newTarget slot false true else { d with aux := { d.aux with
    tipExtends := d.aux.tipExtends+1 } })=b
  have hbegin : Still C d b := by
    have hcount : Still C d { d with aux := { d.aux with tipExtends := d.aux.tipExtends+1 } } :=
      .of_rest rfl
    rw [← hb]
    split
    · exact hcount.trans (Says.sendSync ..).still
    · exact hcount
  have hreset : Still C b { b with
      corr := { b.corr with targetTick := newTarget }
      peerPost := fun _ => none
      localPostDigest := 0
      rb := b.rb.setPhase .sealInputs
      aux := { b.aux with peerCommitMask := ∅,localBase := none,peerBase := fun _ => none } } :=
    .of_rest rfl
  have hsent:=(hbegin.trans hreset).trans (sendLocalSealRows_sends (C := C) _).still
  generalize Driver.sendLocalSealRows C _ = e at hsent ⊢
  exact { hsent.toFrame with }

theorem tipExtend_frame (tick slot : ℕ) (notify : Bool) :
    Frame C Event.calm d (d.tipExtend C v tick slot notify).1 := by
  unfold tipExtend
  dsimp only
  split
  · exact (Still.refl d).toFrame
  split
  · exact (Still.refl d).toFrame
  split
  · exact (Still.refl d).toFrame
  split
  · exact (Still.refl d).toFrame
  have hrows:=localRowsCover_remote (C := C) (v := v) d.ih d.corr.loadTick
    (max tick d.corr.targetTick)
  generalize localRowsCover C v d.ih d.corr.loadTick (max tick d.corr.targetTick)=covered at hrows
  have hcover : Frame C Event.calm d { d with ih := covered.2 } :=
    ⟨rfl,rfl,rfl,rfl,rfl,rfl,le_rfl,hrows,[],rfl,by simp⟩
  split
  · exact hcover
  split
  · exact hcover
  next rb ih he =>
  have hih : SameRemote C d.ih ih :=
    RbSession.extendTarget_keeps (W := fun _ => True) (fun slot tick c _ =>
      getInputRow_remote d.ih slot tick c) he (fun _ _ _ _ => trivial) hrows
  have hgrown : rb.resolvedThrough=d.rb.resolvedThrough :=
    (RbSession.extendTarget_grown he).resolved
  have hcore : Frame C Event.calm d { d with rb,ih } :=
    ⟨rfl,rfl,rfl,rfl,rfl,rfl,hgrown.ge,hih,[],rfl,by simp⟩
  exact hcore.trans (reopenSealing_frame _ _ _ _ _)

theorem correct_frame (t slot : ℕ) : Frame C Event.opening d (d.correct C v t slot) := by
  unfold correct
  split
  · split
    · exact (Still.refl d).opening
    rcases beginInitiator_cases (C := C) (v := v) d t slot with h | h
    · exact h.1.opening
    · exact h.1
  split
  · exact (Still.refl d).opening
  split
  · exact (tipExtend_frame d t slot true).mono fun e he => by simp [Event.opening,he]
  · exact (Still.refl d).opening

theorem owedRetry_rows (t slot : ℕ) : SameRemote C d.ih (d.owedRetry C v t slot).ih := by
  have hrest:=snapFloor_rest (C := C) d t
  unfold owedRetry
  split
  · next e he =>
    rw [he] at hrest
    exact fun _ _ _ => congrArg (fun r : Rest => r.ih.get _ _) hrest
  next e load he =>
  rw [he] at hrest
  have hih : SameRemote C d.ih e.ih := fun _ _ _ => congrArg (fun r : Rest => r.ih.get _ _) hrest
  split
  · exact hih
  rcases beginInitiator_cases (C := C) (v := v) e t slot with h | h
  all_goals
    split
    all_goals
      next hb =>
      rw [hb] at h
      exact fun s x hne => (h.1.rows s x hne).trans (hih s x hne)

end Driver
end RecompNet.RbDriver
