import RecompNet.Lib.Rekey
import RecompNet.Rollback.ReplayShape

/-!
# Leaving a replay half way

`rb_run_replay` saves the live tip under its own tick, in the store that also holds the snapshots
of the past, and loads the baseline over the engine.
-/
namespace RecompNet.RbDriver
open Function List Driver
open Rekey
variable {σ E : Type}

/-- The host's snapshot hooks are a map from ticks to engine states. -/
structure MapStore (H : RbHost σ) (E : Type) where
  engine : σ → E
  snaps : σ → ℕ → Option E
  save_ok : ∀ t s,(H.snapSave t s).1
  save_snaps : ∀ t s,snaps (H.snapSave t s).2=update (snaps s) t (some (engine s))
  load_ok : ∀ t s,(H.snapLoad t s).1=(snaps s t).isSome
  load_engine : ∀ t s e,snaps s t=some e → engine (H.snapLoad t s).2=e
  load_snaps : ∀ t s,snaps (H.snapLoad t s).2=snaps s
  drop_snaps : ∀ t s k,snaps (H.snapDropAfter t s) k=if k≤t then snaps s k else none
  publish_snaps : ∀ t rows resim s,snaps (H.publish t rows resim s)=snaps s
  runTick_snaps : ∀ t s,snaps (H.runTick t s).2=snaps s
  resimBegin_snaps : ∀ s,snaps (H.resimBegin s)=snaps s
  resimEnd_snaps : ∀ s,snaps (H.resimEnd s)=snaps s

/-- The ticks `rb_snap_take` does not skip. -/
def snapDue (C : Setup σ) (t : ℕ) : Bool :=
  decide (¬(1<C.knobs.snapInterval ∧ t%C.knobs.snapInterval≠0))

namespace Driver
variable {C : Setup σ} {v : View} {S : MapStore C.host E} {d d' d₀ : Driver σ}
  {ws : List (ℕ × E)} {t : ℕ}

variable (S d₀) in
def withTip : ℕ → Option E := update (S.snaps d₀.host) d₀.sim (some (S.engine d₀.host))

structure Rewound (S : MapStore C.host E) (d₀ : Driver σ) (ws : List (ℕ × E)) (d : Driver σ) :
    Prop where
  rewound : d.rewound
  tipTick : d.aux.tipTick=d₀.sim
  sim : d.sim=d₀.sim
  snaps : S.snaps d.host=rekey (snapDue C) ws (withTip S d₀)

def marks (d : Driver σ) : Bool × ℕ × ℕ := (d.rewound,d.aux.tipTick,d.sim)
def place (d : Driver σ) : Stage × RbCorrection × Admit := (d.stage,d.corr,d.pendingAdmit)
theorem stage_of_place (h : d'.place=d.place) : d'.stage=d.stage := congrArg Prod.fst h
theorem corr_of_place (h : d'.place=d.place) : d'.corr=d.corr := congrArg (fun p => p.2.1) h
theorem pendingAdmit_of_place (h : d'.place=d.place) : d'.pendingAdmit=d.pendingAdmit :=
  congrArg (fun p => p.2.2) h

section
variable (h : Rewound S d₀ ws d)
include h
theorem Rewound.frame (hmarks : d'.marks=d.marks)
    (hsnaps : S.snaps d'.host=S.snaps d.host) : Rewound S d₀ ws d' where
  rewound := (congrArg Prod.fst hmarks).trans h.rewound
  tipTick := (congrArg (fun m => m.2.1) hmarks).trans h.tipTick
  sim := (congrArg (fun m => m.2.2) hmarks).trans h.sim
  snaps := hsnaps.trans h.snaps

theorem Rewound.snapTake (t : ℕ) : Rewound S d₀ (ws++[(t,S.engine d.host)]) (d.snapTake C t) := by
  unfold Driver.snapTake
  split
  · next hskip =>
    refine { h with snaps := ?_ }
    rw [rekey_concat,if_neg (by simp only [snapDue,decide_eq_true_eq,not_not]; exact hskip)]
    exact h.snaps
  next hdue =>
  refine { h with snaps := ?_ }
  rw [rekey_concat,if_pos (by simp only [snapDue,decide_eq_true_eq]; exact hdue),← h.snaps]
  exact S.save_snaps t d.host

theorem Rewound.resimBegin : Rewound S d₀ ws (d.resimBegin C) :=
  h.frame rfl (S.resimBegin_snaps _)

theorem Rewound.resimEnd : Rewound S d₀ ws (d.resimEnd C) := by
  unfold Driver.resimEnd
  split
  · exact h.frame rfl (S.resimEnd_snaps _)
  · exact h

end

theorem replayNote_marks (d : Driver σ) (t : ℕ) : (d.replayNote C t).marks=d.marks := by
  unfold replayNote
  split <;> rfl

theorem replayNote_host (d : Driver σ) (t : ℕ) : (d.replayNote C t).host=d.host := by
  unfold replayNote
  split <;> rfl

theorem Rewound.replayNote (h : Rewound S d₀ ws d) (t : ℕ) : Rewound S d₀ ws (d.replayNote C t) :=
  h.frame (replayNote_marks d t) (congrArg S.snaps (replayNote_host d t))

theorem Rewound.advanceSim (h : Rewound S d₀ ws d) (t : ℕ) :
    Rewound S d₀ ws (d.advanceSim C t).1 := by
  unfold Driver.advanceSim
  split
  · exact h
  next rows _ =>
  have hran : S.snaps (C.host.runTick t (C.host.publish t rows true d.host)).2 =
      S.snaps d.host := (S.runTick_snaps _ _).trans (S.publish_snaps _ _ _ _)
  have hrun : Rewound S d₀ ws
      { d with host := (C.host.runTick t (C.host.publish t rows true d.host)).2 } :=
    h.frame rfl hran
  dsimp only
  split
  · apply Rewound.replayNote
    exact hrun.frame rfl rfl
  · exact hrun

structure Left (S : MapStore C.host E) (d₀ : Driver σ) (ws : List (ℕ × E)) (d : Driver σ) :
    Prop where
  idle : d.stage=.idle
  sim : d.sim=d₀.sim
  engine : rekey (snapDue C) ws (withTip S d₀) d₀.sim=some (S.engine d.host)

theorem rekey_withTip_isSome (S : MapStore C.host E) (d₀ : Driver σ) (ws : List (ℕ × E)) :
    (rekey (snapDue C) ws (withTip S d₀) d₀.sim).isSome := by
  induction ws using List.reverseRecOn with
  | nil => simp [withTip]
  | append_singleton ws w ih =>
    rw [rekey_concat]
    split
    · by_cases hk : d₀.sim=w.1
      · rw [hk,update_self]
        rfl
      · rwa [update_of_ne hk]
    · exact ih

theorem Rewound.restoreTip (h : Rewound S d₀ ws d) : (d.restoreTip C).sim=d₀.sim ∧
    rekey (snapDue C) ws (withTip S d₀) d₀.sim=some (S.engine (d.restoreTip C).host) := by
  obtain ⟨tip,htip⟩ := Option.isSome_iff_exists.mp (rekey_withTip_isSome S d₀ ws)
  have hend : (({ d with rewound := false }.resimEnd C).sim=d.sim ∧
      ({ d with rewound := false }.resimEnd C).aux.tipTick=d.aux.tipTick) ∧
      S.snaps ({ d with rewound := false }.resimEnd C).host=S.snaps d.host := by
    unfold Driver.resimEnd
    split
    · exact ⟨⟨rfl,rfl⟩,S.resimEnd_snaps _⟩
    · exact ⟨⟨rfl,rfl⟩,rfl⟩
  unfold Driver.restoreTip
  rw [if_pos h.rewound]
  refine ⟨hend.1.1.trans h.sim,?_⟩
  rw [htip]
  refine congrArg some (S.load_engine _ _ _ ?_).symm
  rw [hend.1.2,hend.2,h.tipTick,h.snaps,htip]

theorem Rewound.abort (h : Rewound S d₀ ws d) (cls : AbortClass) :
    Left S d₀ ws (d.episodeAbort C v cls) := by
  have hsent : Rewound S d₀ ws
      (d.sendSync .abort d.corr.epochId cls.code d.sim 0 d.corr.slot.toNat false false) :=
    h.frame rfl rfl
  obtain ⟨hsim,hengine⟩ := hsent.restoreTip
  exact ⟨rfl,hsim,hengine⟩

theorem loadBaseline_rewound (h : (d.loadBaseline C v).2) :
    Rewound S d [] (d.loadBaseline C v).1 ∧ (d.loadBaseline C v).1.place=d.place := by
  unfold loadBaseline at h ⊢
  dsimp only at h ⊢
  rw [if_neg (by rw [S.save_ok]; simp)] at h ⊢
  split at h
  · cases h
  next hload =>
  rw [if_neg hload]
  refine ⟨⟨rfl,rfl,rfl,?_⟩,rfl⟩
  exact (S.load_snaps _ _).trans (S.save_snaps _ _)

variable {d : Driver σ}
theorem compareBases_rewound (mine : DigestParts) (bases : List DigestParts)
    (h : Rewound S d₀ ws d) : Left S d₀ ws (compareBases C v mine bases d) ∨
      (Rewound S d₀ ws (compareBases C v mine bases d) ∧
        (compareBases C v mine bases d).place=d.place) := by
  induction bases generalizing d with
  | nil => exact .inr ⟨h,rfl⟩
  | cons theirs rest ih =>
    unfold compareBases
    dsimp only
    generalize (if 0<C.knobs.forceForkEvery then d.aux.forceForkN+1 else d.aux.forceForkN)=n
    have hcount : Rewound S d₀ ws { d with aux := { d.aux with forceForkN := n } } :=
      h.frame rfl rfl
    split
    · exact ih hcount
    refine .inl (Rewound.abort ?_ _)
    have hlock : ∀ e : Driver σ,(e.enterLockstep C).marks=e.marks ∧
        (e.enterLockstep C).host=e.host := by
      intro e
      unfold enterLockstep
      split <;> exact ⟨rfl,rfl⟩
    exact hcount.frame (hlock _).1 (congrArg S.snaps (hlock _).2)

theorem sendBaseline_rewound (h : Rewound S d₀ ws d) : Left S d₀ ws (d.sendBaseline C v) ∨
      (Rewound S d₀ ws (d.sendBaseline C v) ∧ (d.sendBaseline C v).place=d.place) := by
  have hsaid : Rewound S d₀ ws ({ d with aux := { d.aux with
      localBase := some (C.host.digestParts d.host),peerBase := fun _ => none } }.send
      (.baseline d.corr.epochId d.corr.loadTick (C.host.digestParts d.host))) := h.frame rfl rfl
  exact compareBases_rewound _ _ hsaid

variable (C S) in
def takenUp : List ℕ → Driver σ → List (ℕ × E)
  | [],_ => []
  | t::ts,d => (t,S.engine d.host) ::
    match (d.snapTake C t).advanceSim C t with
    | (d,true) => takenUp ts d
    | (_,false) => []

variable (ts : List ℕ)
theorem replayTicks_rewound {ws : List (ℕ × E)} (h : Rewound S d₀ ws d) :
    ((replayTicks C v ts d).2=false →
      Left S d₀ (ws++takenUp C S ts d) (replayTicks C v ts d).1) ∧ ((replayTicks C v ts d).2 →
      Rewound S d₀ (ws++takenUp C S ts d) (replayTicks C v ts d).1) := by
  induction ts generalizing d ws with
  | nil =>
    refine ⟨fun hfail => (by cases hfail),fun _ => ?_⟩
    rw [takenUp,append_nil]
    exact h
  | cons t ts ih =>
    have hstep:=(h.snapTake t).advanceSim t
    unfold replayTicks takenUp
    generalize (d.snapTake C t).advanceSim C t=ran at hstep
    obtain ⟨e,rfl | rfl⟩ := ran
    · refine ⟨fun _ => ?_,fun hdone => (by cases hdone)⟩
      exact hstep.resimEnd.abort _
    have hrest:=ih hstep
    rw [append_assoc,singleton_append] at hrest
    exact hrest

theorem takenUp_keys (d : Driver σ) : (takenUp C S ts d).map Prod.fst <+: ts := by
  induction ts generalizing d with
  | nil => exact prefix_rfl
  | cons t ts ih =>
    unfold takenUp
    refine cons_prefix_cons.mpr ⟨rfl,?_⟩
    generalize (d.snapTake C t).advanceSim C t=ran
    obtain ⟨e,rfl | rfl⟩ := ran
    · exact nil_prefix
    · exact ih e

theorem takenUp_keys_of_done
    (h : (replayTicks C v ts d).2) : (takenUp C S ts d).map Prod.fst=ts := by
  induction ts generalizing d with
  | nil => rfl
  | cons t ts ih =>
    unfold replayTicks at h
    unfold takenUp
    generalize (d.snapTake C t).advanceSim C t=ran at h
    obtain ⟨e,rfl | rfl⟩ := ran
    · cases h
    · exact congrArg (t::·) (ih h)

theorem replayTick_place (d : Driver σ) (t : ℕ) :
    ((d.snapTake C t).advanceSim C t).1.place=d.place := by
  have hsnap : ∀ e : Driver σ,(e.snapTake C t).place=e.place := by
    intro e
    unfold snapTake
    split <;> rfl
  have hnote : ∀ e : Driver σ,(e.replayNote C t).place=e.place := by
    intro e
    unfold replayNote
    split <;> rfl
  unfold advanceSim
  split
  · exact hsnap d
  dsimp only
  split
  · exact (hnote _).trans (hsnap d)
  · exact hsnap d

theorem replayTicks_place
    (h : (replayTicks C v ts d).2) : (replayTicks C v ts d).1.place=d.place := by
  induction ts generalizing d with
  | nil => rfl
  | cons t ts ih =>
    have hplace:=replayTick_place (C := C) d t
    unfold replayTicks at h ⊢
    generalize (d.snapTake C t).advanceSim C t=ran at h hplace
    obtain ⟨e,rfl | rfl⟩ := ran
    · cases h
    · exact (ih h).trans hplace

structure Done (S : MapStore C.host E) (d₀ : Driver σ) (ws : List (ℕ × E)) (d : Driver σ) :
    Prop where
  once : (ws.map Prod.fst).Nodup
  every : ∀ t∈ticks d₀.corr.loadTick d₀.corr.targetTick,t∈ws.map Prod.fst
  sim : d.sim=d₀.corr.targetTick+1
  snaps : ∀ k,S.snaps d.host k =
    if k≤d₀.corr.targetTick then rekey (snapDue C) ws (withTip S d₀) k else none

theorem Done.enterVerify (h : Done S d₀ ws d) : Done S d₀ ws (d.enterVerify C v) :=
  { h with }

theorem commitReplayed_keeps (offs : List ℕ) (d : Driver σ) :
    (offs.foldl (commitReplayed C) d).host=d.host ∧
      (offs.foldl (commitReplayed C) d).place=d.place := by
  induction offs generalizing d with
  | nil => exact ⟨rfl,rfl⟩
  | cons off offs ih =>
    have hone : (commitReplayed C d off).host=d.host ∧ (commitReplayed C d off).place=d.place := by
      unfold commitReplayed
      split <;> exact ⟨rfl,rfl⟩
    exact ⟨(ih _).1.trans hone.1,(ih _).2.trans hone.2⟩

theorem finishSpan_snaps (S : MapStore C.host E) (d : Driver σ) :
    (∀ k,S.snaps (d.finishSpan C).host k =
      if k≤d.corr.targetTick then S.snaps d.host k else none) ∧
    (d.finishSpan C).sim=d.corr.targetTick+1 ∧ (d.finishSpan C).place=d.place := by
  have hend : ∀ e : Driver σ,S.snaps (e.resimEnd C).host=S.snaps e.host ∧
      (e.resimEnd C).place=e.place := by
    intro e
    unfold resimEnd
    split
    · exact ⟨S.resimEnd_snaps _,rfl⟩
    · exact ⟨rfl,rfl⟩
  unfold finishSpan
  dsimp only
  generalize hcleared : ({ d with
    owed := owedClearSpan d.owed d.corr.loadTick d.corr.targetTick
    aux := { d.aux with replayDig := fun _ => none } } : Driver σ)=e
  have hhost : e.host=d.host := by rw [← hcleared]
  have hplace : e.place=d.place := by rw [← hcleared]; rfl
  obtain ⟨hsnaps,hat⟩ := hend e
  have hcorr : (e.resimEnd C).corr=d.corr := corr_of_place (hat.trans hplace)
  refine ⟨fun k => ?_,by rw [hcorr],hat.trans hplace⟩
  rw [S.drop_snaps,hsnaps,hhost,hcorr]

theorem Rewound.finish (h : Rewound S d₀ ws d) (hcorr : d.corr=d₀.corr)
    (honce : (ws.map Prod.fst).Nodup)
    (hevery : ∀ t∈ticks d₀.corr.loadTick d₀.corr.targetTick,t∈ws.map Prod.fst) :
    Done S d₀ ws (d.replayFinish C) ∧ (d.replayFinish C).place=d.place := by
  obtain ⟨hhost,hplace⟩ := commitReplayed_keeps (C := C) (List.range sealMaskBits)
    { d with rewound := false }
  unfold replayFinish
  generalize (List.range sealMaskBits).foldl (commitReplayed C) { d with rewound := false }=e
    at hhost hplace
  have hspan : e.corr=d₀.corr := (corr_of_place hplace).trans hcorr
  obtain ⟨hsnaps,hsim,hat⟩ := finishSpan_snaps S e
  refine ⟨⟨honce,hevery,by rw [hsim,hspan],fun k => ?_⟩,hat.trans hplace⟩
  rw [hsnaps,hspan,hhost,h.snaps]

variable (C S v d) in
/-- The ticks an INLINE `rb_run_replay` takes up. -/
def inlineTaken : List (ℕ × E) :=
  let d:=(d.loadBaseline C v).1.sendBaseline C v
  if d.stage=.idle then []
  else takenUp C S (ticks d.corr.loadTick d.corr.targetTick)
    ({ d with rb := d.rb.setPhase .replay }.resimBegin C)

theorem inlineTaken_once : ((inlineTaken C v S d).map Prod.fst).Nodup := by
  unfold inlineTaken
  dsimp only
  split
  · exact nodup_nil
  · exact (takenUp_keys _ _).sublist.nodup nodup_range'

variable (S)
theorem runReplay_loaded (hs : d.stage=.sealing) (hload : (d.loadBaseline C v).2) :
    (Left S d [] (d.runReplay C v).1 ∧ (d.runReplay C v).2=false ∧ inlineTaken C v S d=[]) ∨
    ∃ e,Rewound S d [] e ∧ e.place=d.place ∧ d.runReplay C v=e.replaySpan C v ∧
      inlineTaken C v S d=takenUp C S (ticks d.corr.loadTick d.corr.targetTick)
        ({ e with rb := e.rb.setPhase .replay }.resimBegin C) := by
  obtain ⟨hrew,hplace⟩ := loadBaseline_rewound (S := S) hload
  unfold runReplay inlineTaken
  generalize d.loadBaseline C v=loaded at hload hrew hplace
  obtain ⟨l,rfl | rfl⟩ := loaded
  · cases hload
  dsimp only at hrew hplace ⊢
  rcases sendBaseline_rewound (v := v) hrew with hleft | ⟨hrew',hplace'⟩
  · left
    rw [if_pos hleft.idle,if_pos hleft.idle]
    exact ⟨hleft,rfl,rfl⟩
  have hat : (l.sendBaseline C v).place=d.place := hplace'.trans hplace
  have hstage : (l.sendBaseline C v).stage=.sealing := (stage_of_place hat).trans hs
  have hbusy : (l.sendBaseline C v).stage≠.idle := by simp [hstage]
  have hcorr : (l.sendBaseline C v).corr=d.corr := corr_of_place hat
  refine .inr ⟨_,hrew',hat,by rw [if_neg hbusy],?_⟩
  rw [if_neg hbusy,hcorr]

theorem runReplay_inline (hmode : C.cfg.replayMode=.inline)
    (hs : d.stage=.sealing) (hload : (d.loadBaseline C v).2) :
    ((d.runReplay C v).2=false → Left S d (inlineTaken C v S d) (d.runReplay C v).1) ∧
    ((d.runReplay C v).2 → Done S d (inlineTaken C v S d) (d.runReplay C v).1 ∧
      (d.runReplay C v).1.stage=.sealing) := by
  rcases runReplay_loaded S hs hload with ⟨hleft,hfail,htaken⟩ | ⟨e,hrew,hplace,hrun,htaken⟩
  · rw [htaken]
    exact ⟨fun _ => hleft,fun hdone => absurd (hfail.symm.trans hdone) (by simp)⟩
  have hcorr : e.corr=d.corr := corr_of_place hplace
  have hready : Rewound S d [] ({ e with rb := e.rb.setPhase .replay }.resimBegin C) :=
    Rewound.resimBegin (hrew.frame rfl rfl)
  rw [hrun,htaken]
  unfold replaySpan
  simp only [hmode]
  have hspan : ({ e with rb := e.rb.setPhase .replay }.resimBegin C).corr=d.corr := hcorr
  have hat : ({ e with rb := e.rb.setPhase .replay }.resimBegin C).place=d.place := hplace
  rw [hspan]
  generalize ({ e with rb := e.rb.setPhase .replay }.resimBegin C)=r at hready hspan hat
  have hticks:=replayTicks_rewound (v := v) (ticks d.corr.loadTick d.corr.targetTick) hready
  have hkept:=replayTicks_place (C := C) (v := v) (ticks d.corr.loadTick d.corr.targetTick) (d := r)
  have hall:=takenUp_keys_of_done (C := C) (v := v) (S := S)
    (ticks d.corr.loadTick d.corr.targetTick) (d := r)
  rw [nil_append] at hticks
  generalize replayTicks C v _ r=ran at hticks hkept hall
  obtain ⟨f,rfl | rfl⟩ := ran
  · exact ⟨fun _ => hticks.1 rfl,fun hdone => (by cases hdone)⟩
  refine ⟨fun hfail => (by cases hfail),fun _ => ?_⟩
  have hf : f.place=d.place := (hkept rfl).trans hat
  have honce : (ticks d.corr.loadTick d.corr.targetTick).Nodup := nodup_range'
  obtain ⟨hdone,hend⟩ := (hticks.2 rfl).finish (corr_of_place hf) (by rwa [hall rfl])
    (by rw [hall rfl]; exact fun _ ht => ht)
  change Done S d _ (f.replayFinish C) ∧ (f.replayFinish C).stage=.sealing
  exact ⟨hdone,(stage_of_place (hend.trans hf)).trans hs⟩

variable {S}

structure Aside (d d' : Driver σ) : Prop where
  host : d'.host=d.host
  marks : d'.marks=d.marks
  place : d'.place=d.place
  replayNext : d'.replayNext=d.replayNext

/-- An INCREMENTAL replay on its way from `d₁`: `rb_replay_step` takes up a tick, in the poll that
loaded the baseline or in a later one, the host runs what was handed out, and asides of either
come between. -/
inductive Replays (S : MapStore C.host E) (d₁ : Driver σ) : List (ℕ × E) → Driver σ → Prop
  | started : Replays S d₁ [] d₁
  | step {ws : List (ℕ × E)} {d : Driver σ} (v : View) (h : Replays S d₁ ws d)
      (hs : d.stage=.replaying) (hp : d.pendingAdmit=.stall) :
      Replays S d₁ (ws++[(d.replayNext,S.engine d.host)]) (d.replayStep C v)
  | frame {ws : List (ℕ × E)} {d : Driver σ} (v : View) (ran : σ) (h : Replays S d₁ ws d)
      (hs : d.stage=.replaying) (hp : d.pendingAdmit≠.stall)
      (hran : S.snaps ran=S.snaps d.host) : Replays S d₁ ws (d.finishFrame C v ran)
  | aside {ws : List (ℕ × E)} {d d' : Driver σ} (h : Replays S d₁ ws d) (hd : Aside d d') :
      Replays S d₁ ws d'

structure Handing (S : MapStore C.host E) (d₀ : Driver σ) (ws : List (ℕ × E)) (d : Driver σ) :
    Prop where
  rewound : Rewound S d₀ ws d
  stage : d.stage=.replaying
  corr : d.corr=d₀.corr
  next : (d.pendingAdmit=.stall ∧ d.replayNext=d₀.corr.loadTick+ws.length) ∨
    (d.pendingAdmit=.replay ∧ d.replayNext+1=d₀.corr.loadTick+ws.length)

structure Along (S : MapStore C.host E) (d₀ : Driver σ) (ws : List (ℕ × E)) (d : Driver σ) :
    Prop where
  keys : ws.map Prod.fst=List.range' d₀.corr.loadTick ws.length
  stand : Handing S d₀ ws d ∨ Left S d₀ ws d ∨ (Done S d₀ ws d ∧ d.stage=.verifying)

theorem Handing.step (h : Handing S d₀ ws d) (hp : d.pendingAdmit=.stall) (v : View) :
    Handing S d₀ (ws++[(d.replayNext,S.engine d.host)]) (d.replayStep C v) ∨
      Left S d₀ (ws++[(d.replayNext,S.engine d.host)]) (d.replayStep C v) := by
  have hsnap:=h.rewound.snapTake d.replayNext
  have hkept : (d.snapTake C d.replayNext).place=d.place ∧
      (d.snapTake C d.replayNext).replayNext=d.replayNext := by
    unfold snapTake
    split <;> exact ⟨rfl,rfl⟩
  unfold replayStep
  dsimp only
  generalize d.snapTake C d.replayNext=e at hsnap hkept
  obtain ⟨hplace,hnext⟩ := hkept
  split
  · exact .inr (hsnap.resimEnd.abort _)
  refine .inl ⟨hsnap.frame rfl (S.publish_snaps _ _ _ _),(stage_of_place hplace).trans h.stage,
    (corr_of_place hplace).trans h.corr,.inr ⟨rfl,?_⟩⟩
  rcases h.next with ⟨-,hat⟩ | ⟨hr,-⟩
  · rw [length_append,length_singleton,← Nat.add_assoc,← hat]
    exact congrArg (· + 1) hnext
  · simp [hp] at hr

variable {ran : σ}
theorem Handing.finishReplay (h : Handing S d₀ ws d)
    (hkeys : ws.map Prod.fst=List.range' d₀.corr.loadTick ws.length)
    (hat : d.replayNext+1=d₀.corr.loadTick+ws.length) (v : View)
    (hran : S.snaps ran=S.snaps d.host) :
    Handing S d₀ ws ({ d with host := ran,pendingAdmit := .stall }.finishReplay C v) ∨
      (Done S d₀ ws ({ d with host := ran,pendingAdmit := .stall }.finishReplay C v) ∧
        ({ d with host := ran,pendingAdmit := .stall }.finishReplay C v).stage=.verifying) := by
  have hnoted : Rewound S d₀ ws ((({ d with host := ran,pendingAdmit := .stall }.note
      (.ran d.replayNext)).replayNote C d.replayNext)) := by
    apply Rewound.replayNote
    exact h.rewound.frame rfl hran
  have hkept : ∀ e : Driver σ,(e.replayNote C d.replayNext).place=e.place ∧
      (e.replayNote C d.replayNext).replayNext=e.replayNext := by
    intro e
    unfold replayNote
    split <;> exact ⟨rfl,rfl⟩
  obtain ⟨hplace,hnext⟩ := hkept
    ({ d with host := ran,pendingAdmit := .stall }.note (.ran d.replayNext))
  unfold Driver.finishReplay
  dsimp only
  generalize ({ d with host := ran,pendingAdmit := .stall }.note
    (.ran d.replayNext)).replayNote C d.replayNext=e at hnoted hplace hnext
  have hcorr : e.corr=d₀.corr := (corr_of_place hplace).trans h.corr
  have hnext' : e.replayNext=d.replayNext := hnext
  have hmoved : Rewound S d₀ ws { e with replayNext := e.replayNext+1 } := hnoted.frame rfl rfl
  split
  · next hlast =>
    refine .inr ⟨(hmoved.finish hcorr ?_ ?_).1.enterVerify,rfl⟩
    · rw [hkeys]
      exact nodup_range'
    · intro t ht
      rw [mem_ticks] at ht
      rw [hkeys,mem_range'_1]
      rw [hcorr] at hlast
      omega
  · refine .inl ⟨hmoved,(stage_of_place hplace).trans h.stage,hcorr,.inl ⟨?_,?_⟩⟩
    · exact pendingAdmit_of_place hplace
    · exact (congrArg (· + 1) hnext').trans hat

theorem Along.frame (h : Along S d₀ ws d) (hs : d.stage=.replaying)
    (hp : d.pendingAdmit≠.stall) (v : View) (hran : S.snaps ran=S.snaps d.host) :
    Along S d₀ ws (d.finishFrame C v ran) := by
  refine ⟨h.keys,?_⟩
  rcases h.stand with hhand | hleft | ⟨-,hverify⟩
  · rcases hhand.next with ⟨hstall,-⟩ | ⟨hreplay,hat⟩
    · exact absurd hstall hp
    have hfinish : d.finishFrame C v ran =
        { d with host := ran,pendingAdmit := .stall }.finishReplay C v := by
      unfold finishFrame
      dsimp only
      rw [if_pos hreplay,if_pos hs]
    rw [hfinish]
    rcases hhand.finishReplay h.keys hat v hran with hnext | hdone
    · exact .inl hnext
    · exact .inr (.inr hdone)
  · simp [hleft.idle] at hs
  · simp [hverify] at hs

theorem Replays.along {d₁ : Driver σ} (h : Replays S d₁ ws d) (hstart : Along S d₀ [] d₁) :
    Along S d₀ ws d := by
  induction h with
  | started => exact hstart
  | @step ws d v _ hs hp ih =>
    rcases ih.stand with hhand | hleft | ⟨-,hverify⟩
    · refine ⟨?_,?_⟩
      · rcases hhand.next with ⟨-,hat⟩ | ⟨hreplay,-⟩
        · rw [map_append,ih.keys,length_append,length_singleton,List.range'_concat,hat,Nat.one_mul]
          rfl
        · simp [hp] at hreplay
      · rcases hhand.step hp v with hnext | hleft
        · exact .inl hnext
        · exact .inr (.inl hleft)
    · simp [hleft.idle] at hs
    · simp [hverify] at hs
  | frame v ran _ hs hp hran ih => exact ih.frame hs hp v hran
  | @aside ws d d' _ hd ih =>
    have hsnaps : S.snaps d'.host=S.snaps d.host := congrArg S.snaps hd.host
    have hsim : d'.sim=d.sim := congrArg (fun m => m.2.2) hd.marks
    refine ⟨ih.keys,?_⟩
    rcases ih.stand with hhand | hleft | ⟨hdone,hverify⟩
    · refine .inl ⟨hhand.rewound.frame hd.marks hsnaps,(stage_of_place hd.place).trans hhand.stage,
        (corr_of_place hd.place).trans hhand.corr,?_⟩
      rw [pendingAdmit_of_place hd.place,hd.replayNext]
      exact hhand.next
    · exact .inr (.inl ⟨(stage_of_place hd.place).trans hleft.idle,hsim.trans hleft.sim,
        by rw [hd.host]; exact hleft.engine⟩)
    · exact .inr (.inr ⟨⟨hdone.once,hdone.every,hsim.trans hdone.sim,
        fun k => (congrFun hsnaps k).trans (hdone.snaps k)⟩,
        (stage_of_place hd.place).trans hverify⟩)

theorem runReplay_incremental (S : MapStore C.host E) (hmode : C.cfg.replayMode=.incremental)
    (hs : d.stage=.sealing) (hp : d.pendingAdmit=.stall)
    (hload : (d.loadBaseline C v).2) : Along S d [] (d.runReplay C v).1 := by
  refine ⟨rfl,?_⟩
  rcases runReplay_loaded S hs hload with ⟨hleft,-,-⟩ | ⟨e,hrew,hplace,hrun,-⟩
  · exact .inr (.inl hleft)
  rw [hrun]
  unfold replaySpan
  simp only [hmode]
  have hready : Rewound S d [] ({ e with rb := e.rb.setPhase .replay }.resimBegin C) :=
    Rewound.resimBegin (hrew.frame rfl rfl)
  have hcorr : e.corr=d.corr := corr_of_place hplace
  have hstall : e.pendingAdmit=.stall := (pendingAdmit_of_place hplace).trans hp
  refine .inl ⟨hready.frame rfl rfl,rfl,hcorr,.inl ⟨hstall,?_⟩⟩
  exact congrArg RbCorrection.loadTick hcorr

/-- `rb_run_replay` and all that follows until the replay is over, in either shape: the
ticks it took up, each in the engine state it found, and the driver it came to. -/
inductive Attempt (S : MapStore C.host E) (v : View) (d : Driver σ) : List (ℕ × E) → Driver σ → Prop
  | inline (hmode : C.cfg.replayMode=.inline) :
      Attempt S v d (inlineTaken C v S d) (d.runReplay C v).1
  | incremental {ws : List (ℕ × E)} {d' : Driver σ} (hmode : C.cfg.replayMode=.incremental)
      (h : Replays S (d.runReplay C v).1 ws d') : Attempt S v d ws d'

theorem Attempt.left (h : Attempt S v d ws d') (hs : d.stage=.sealing)
    (hp : d.pendingAdmit=.stall) (hload : (d.loadBaseline C v).2)
    (hend : d'.stage=.idle) : Left S d ws d' ∧ (ws.map Prod.fst).Nodup := by
  cases h with
  | inline hmode =>
    obtain ⟨hleft,hdone⟩ := runReplay_inline S hmode hs hload
    cases hfinished : (d.runReplay C v).2 with
    | false => exact ⟨hleft hfinished,inlineTaken_once⟩
    | true => simp [(hdone hfinished).2] at hend
  | incremental hmode h =>
    have hat:=h.along (runReplay_incremental S hmode hs hp hload)
    refine ⟨?_,by rw [hat.keys]; exact nodup_range'⟩
    rcases hat.stand with hhand | hleft | ⟨-,hverify⟩
    · simp [hhand.stage] at hend
    · exact hleft
    · simp [hverify] at hend

end Driver

/-- An aborted attempt gives the host its tip back unless another snapshot was written for it. -/
theorem abort_restores_tip_iff {C : Setup σ} (S : MapStore C.host E) {v : View}
    {d d' : Driver σ} {ws : List (ℕ × E)} (hs : d.stage=.sealing)
    (hp : d.pendingAdmit=.stall) (hload : (d.loadBaseline C v).2=true)
    (hrun : Driver.Attempt S v d ws d') (hend : d'.stage=.idle) :
    d'.sim=d.sim ∧ (S.engine d'.host=S.engine d.host ↔
      ∀ e,(d.sim,e)∈ws → snapDue C d.sim=true → e=S.engine d.host) := by
  obtain ⟨hleft,honce⟩ := hrun.left hs hp hload hend
  refine ⟨hleft.sim,?_⟩
  have hengine:=hleft.engine
  constructor
  · intro hback e he hdue
    rw [rekey_of_written _ honce he hdue,hback] at hengine
    exact Option.some.inj hengine
  · intro hsame
    by_cases hwritten : ∃ e,(d.sim,e)∈ws ∧ snapDue C d.sim=true
    · obtain ⟨e,he,hdue⟩ := hwritten
      rw [rekey_of_written _ honce he hdue] at hengine
      exact (Option.some.inj hengine).symm.trans (hsame e he hdue)
    have hkept : ∀ e,(d.sim,e)∈ws → snapDue C d.sim=false := fun e he =>
      Bool.eq_false_iff.mpr fun hdue => hwritten ⟨e,he,hdue⟩
    rw [rekey_of_unwritten _ _ hkept,withTip,update_self] at hengine
    exact (Option.some.inj hengine).symm

structure Tally where
  sum : ℕ
  store : List (ℕ × ℕ)
  deriving DecidableEq

variable (stuck : ℕ → Bool)
def tallyHost : RbHost Tally where
  snapSave t s := (true,{ s with store := (t,s.sum)::s.store })
  snapLoad t s :=
    match s.store.lookup t with
    | some sum => (true,{ s with sum })
    | none => (false,s)
  snapHas t s := (s.store.lookup t).isSome
  snapOldest s := (s.store.map Prod.fst).min?
  snapDropAfter t s := { s with store := s.store.filter (·.1≤t) }
  publish _ rows _ s := { s with sum := s.sum+(rows.map RbFrame.buttons).sum }
  runTick t s := (!stuck t,s)
  resimBegin s := s
  resimEnd s := s
  digestMaster s := s.sum
  digestParts s := ⟨s.sum,s.sum,s.sum,s.sum⟩
  decodeSample _ sample f := { f with buttons := (sample.bytes.1.getD 0 0).toNat }
  sanitizeRow _ f := f
  neutralRow _ f := f
  admitSample _ _ _ s := s
  bootDigestNoted s := s
  requestReturnToLobby s := s

theorem lookup_filter_le (store : List (ℕ × ℕ)) (t k : ℕ) :
    (store.filter (·.1≤t)).lookup k=if k≤t then store.lookup k else none := by
  induction store with
  | nil => simp
  | cons entry store ih =>
    obtain ⟨t',sum⟩ := entry
    by_cases hkept : t'≤t
    · rw [filter_cons_of_pos (by simpa using hkept)]
      by_cases hk : k=t'
      · subst hk
        simp [hkept]
      have hne : (k == t')=false := by simpa using hk
      simp only [lookup_cons,hne]
      exact ih
    · rw [filter_cons_of_neg (by simpa using hkept),ih]
      by_cases hk : k≤t
      · have hne : (k == t')=false := by simp; omega
        simp [hk,lookup_cons,hne]
      · simp [hk]

def tallyStore : MapStore (tallyHost stuck) ℕ where
  engine := Tally.sum
  snaps s t := s.store.lookup t
  save_ok _ _ := rfl
  save_snaps t s := by
    funext k
    by_cases hk : k=t
    · subst hk
      simp [tallyHost]
    have hne : (k == t)=false := by simpa using hk
    simp only [tallyHost,List.lookup_cons,hne]
    rw [update_of_ne hk]
  load_ok t s := by
    simp only [tallyHost]
    cases s.store.lookup t <;> rfl
  load_engine t s e h := by
    simp only [tallyHost,h]
  load_snaps t s := by
    simp only [tallyHost]
    cases s.store.lookup t <;> rfl
  drop_snaps t s k := lookup_filter_le s.store t k
  publish_snaps _ _ _ _ := rfl
  runTick_snaps _ _ := rfl
  resimBegin_snaps _ := rfl
  resimEnd_snaps _ := rfl

def tallyDuel : Setup Tally where
  cfg := ⟨1,2,2,0,.inline,0⟩
  knobs := .defaults
  host := tallyHost stuck
  buildFp := 0
  contentFp := 0
  modset := none

def quietTicks : List (Call Tally) :=
  [.poll (plainPoll 10 2 [] noRow),.finishFrame ⟨11,neutralTo 3⟩ ⟨0,[(0,0)]⟩,
    .poll (plainPoll 20 3 [⟨0,.frameCommit 0 0⟩] noRow),
    .finishFrame ⟨21,neutralTo 4⟩ ⟨0,[(1,0),(0,0)]⟩]

def pressedPoll : PollInput := plainPoll 30 4 [⟨0,.sync ⟨8,1,1,2,0,.begin,false,false⟩⟩,
    ⟨0,.sealRows ⟨8,1,2,0,0,[⟨1,1,0,0,false,true,0,0,0⟩,⟨2,0,0,0,false,true,0,0,0⟩]⟩⟩] noRow

/-- The driver that a poll's episode pump hands to `rb_run_replay` once all rows are in. -/
def Driver.atReplay (C : Setup σ) (d : Driver σ) (env : PollInput) : Driver σ :=
  let e:=d.beforePump C env
  { e with rb := e.rb.setPhase .awaitingBaseline }

theorem abort_restores_tip_early : ∃ d,Reachable (tallyDuel (· == 1)) d ∧
    ∃ d',Driver.Attempt (C := tallyDuel (· == 1)) (tallyStore (· == 1)) pressedPoll.toView
      (d.atReplay (tallyDuel (· == 1)) pressedPoll) [(1,0)] d' ∧
    d'.sim=d.sim ∧ d'.host.sum=d.host.sum := by
  obtain ⟨d,hd,hs,hp,hload,hend,htaken,hsim,htip,hsum⟩ :
      ∃ d,Reachable (tallyDuel (· == 1)) d ∧ let e:=d.atReplay (tallyDuel (· == 1)) pressedPoll
        e.stage=.sealing ∧ e.pendingAdmit=.stall ∧
        (e.loadBaseline (tallyDuel (· == 1)) pressedPoll.toView).2=true ∧
        (e.runReplay (tallyDuel (· == 1)) pressedPoll.toView).1.stage=.idle ∧
        inlineTaken (tallyDuel (· == 1)) pressedPoll.toView (tallyStore (· == 1)) e =
          [(1,0)] ∧ e.sim=d.sim ∧ d.sim=2 ∧ e.host.sum=d.host.sum :=
    reachable_play ⟨0,[]⟩ quietTicks (by decide +kernel)
  refine ⟨d,hd,?_⟩
  generalize d.atReplay (tallyDuel (· == 1)) pressedPoll=e
    at hs hp hload hend htaken hsim hsum ⊢
  have hrun:=Attempt.inline (C := tallyDuel (· == 1)) (S := tallyStore (· == 1))
    (v := pressedPoll.toView) (d := e) rfl
  rw [htaken] at hrun
  obtain ⟨hstands,hback⟩ := abort_restores_tip_iff (C := tallyDuel (· == 1))
    (tallyStore (· == 1)) hs hp hload hrun hend
  refine ⟨_,hrun,hstands.trans hsim,(hback.mpr ?_).trans hsum⟩
  intro state he
  rw [hsim,htip] at he
  simp at he

theorem late_abort_loads_replayed_state : ∃ d,Reachable (tallyDuel (· == 2)) d ∧
    (d.atReplay (tallyDuel (· == 2)) pressedPoll).stage=.sealing ∧
    (d.beforePump (tallyDuel (· == 2)) pressedPoll).rb.allPeerSealRowsComplete=true ∧
    ((d.atReplay (tallyDuel (· == 2)) pressedPoll).loadBaseline (tallyDuel (· == 2))
      pressedPoll.toView).2=true ∧
    ((d.beforePump (tallyDuel (· == 2)) pressedPoll).pumpEpisode (tallyDuel (· == 2))
      pressedPoll.toView).stage=.idle ∧
    (tallyStore (· == 2)).engine ((d.beforePump (tallyDuel (· == 2)) pressedPoll).pumpEpisode
      (tallyDuel (· == 2)) pressedPoll.toView).host ≠
      (tallyStore (· == 2)).engine (d.atReplay (tallyDuel (· == 2)) pressedPoll).host :=
  reachable_play ⟨0,[]⟩ quietTicks (by decide +kernel)

end RecompNet.RbDriver
