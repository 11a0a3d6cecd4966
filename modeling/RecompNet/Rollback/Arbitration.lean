import RecompNet.Lib.Contest
import RecompNet.Rollback.ReplayShape

/-!
# Dual initiation

Several seats may open an episode at once.
-/
namespace RecompNet.RbDriver
open List RbSession Driver
variable {σ : Type} {C : Setup σ} {v : View}
def hasRow (C : Setup σ) (v : View) (ih : InputHist) (t : ℕ) : Bool :=
  (getInputRow C v (localSlot C) t ih).1.isSome
def SameRows (C : Setup σ) (v : View) (base : ℕ) (ih ih' : InputHist) : Prop :=
  ∀ t,base≤t → t<base+histDepth → hasRow C v ih' t=hasRow C v ih t

variable {base : ℕ} {ih ih' ih'' : InputHist}
theorem SameRows.refl (ih : InputHist) : SameRows C v base ih ih := fun _ _ _ => rfl

theorem SameRows.trans (h : SameRows C v base ih ih') (h' : SameRows C v base ih' ih'') :
    SameRows C v base ih ih'' :=
  fun t hlow hhigh => (h' t hlow hhigh).trans (h t hlow hhigh)

theorem hasRow_eq (ih : InputHist) (t : ℕ) : hasRow C v ih t =
    (decide (localSlot C<slotCount C) && ((ih.get (localSlot C) t).isSome ||
      ((v.localRow (wireForSim C t)).filter (·.valid)).isSome)) := by
  have hown : emptySeat C (localSlot C)=false := by simp [emptySeat]
  unfold hasRow getInputRow
  by_cases hslot : slotCount C≤localSlot C
  · rw [if_pos hslot,decide_eq_false (not_lt.mpr hslot)]
    rfl
  rw [if_neg hslot,if_neg (by simp [hown]),decide_eq_true (not_le.mp hslot)]
  cases ih.get (localSlot C) t with
  | some row => rfl
  | none =>
    dsimp only
    rw [if_neg (by simp)]
    cases (v.localRow (wireForSim C t)).filter (·.valid) <;> rfl

/-- Reading the row of `t` evicts none of the window from `base` on: `t` lies in it, or no own row
is published for `t` that could be fetched. -/
def Keeps (C : Setup σ) (v : View) (base t : ℕ) : Prop :=
  t<base+histDepth ∨ (v.localRow (wireForSim C t)).filter (·.valid)=none

theorem getInputRow_sameRows (slot t : ℕ) (hlow : base≤t) (hkeep : Keeps C v base t) :
    SameRows C v base ih (getInputRow C v slot t ih).2 := by
  unfold getInputRow
  split
  · exact .refl ih
  split
  · exact .refl ih
  split
  · exact .refl ih
  split
  · exact .refl ih
  next hlocal =>
  obtain rfl : slot=localSlot C := not_not.mp hlocal
  split
  · exact .refl ih
  next sample hsample =>
  have hhigh : t<base+histDepth := hkeep.resolve_right fun hnone => by
    rw [hnone] at hsample
    cases hsample
  intro t' hlow' hhigh'
  rw [hasRow_eq,hasRow_eq]
  by_cases ht : t'=t
  · subst ht
    rw [hsample]
    simp
  have hmod : t'%histDepth≠(rowFromSample C (localSlot C) t sample).tick%histDepth := by
    change t'%histDepth≠t%histDepth
    unfold histDepth at hhigh hhigh' ⊢
    omega
  rw [InputHist.get_put_of_mod_ne _ _ hmod]

theorem SameRows.all (h : SameRows C v base ih ih') {ts : List ℕ}
    (hin : ∀ t∈ts,base≤t ∧ t<base+histDepth) :
    ts.all (hasRow C v ih')=ts.all (hasRow C v ih) := by
  rw [Bool.eq_iff_iff,all_eq_true,all_eq_true]
  exact forall₂_congr fun t ht => by rw [h t (hin t ht).1 (hin t ht).2]

theorem coverTicks_eq (ts : List ℕ) (ih : InputHist) (hin : ∀ t∈ts,base≤t ∧ t<base+histDepth) :
    (coverTicks C v ih ts).1=ts.all (hasRow C v ih) ∧
      SameRows C v base ih (coverTicks C v ih ts).2 := by
  induction ts generalizing ih with
  | nil => exact ⟨rfl,.refl ih⟩
  | cons t ts hind =>
    obtain ⟨hlow,hhigh⟩ := hin t mem_cons_self
    have hsame : SameRows C v base ih (getInputRow C v (localSlot C) t ih).2 :=
      getInputRow_sameRows (localSlot C) t hlow (.inl hhigh)
    have hrest : ∀ t'∈ts,base≤t' ∧ t'<base+histDepth := fun t' ht' =>
      hin t' (mem_cons_of_mem _ ht')
    rw [all_cons]
    unfold coverTicks
    cases hrow : getInputRow C v (localSlot C) t ih with
    | mk row next =>
      rw [hrow] at hsame
      have hhas : hasRow C v ih t=row.isSome := by rw [hasRow,hrow]
      cases row with
      | none =>
        rw [hhas]
        exact ⟨rfl,hsame⟩
      | some r =>
        obtain ⟨hcovers,hafter⟩ := hind next hrest
        refine ⟨?_,hsame.trans hafter⟩
        rw [hhas]
        dsimp only
        rw [hcovers,Option.isSome_some,Bool.true_and]
        exact hsame.all hrest

variable {load target : ℕ}
theorem localRowsCover_sameRows (hlow : base≤load) (hhigh : target<base+histDepth) :
    SameRows C v base ih (localRowsCover C v ih load target).2 := by
  unfold localRowsCover
  split
  · exact .refl ih
  refine (coverTicks_eq _ ih fun t ht => ?_).2
  have ht:=mem_ticks.mp ht
  omega

theorem localRowsCover_congr (h : SameRows C v base ih ih') (hlow : base≤load)
    (hhigh : target<base+histDepth) :
    (localRowsCover C v ih' load target).1=(localRowsCover C v ih load target).1 := by
  have hin : ∀ t∈ticks load target,base≤t ∧ t<base+histDepth := by
    intro t ht
    have ht:=mem_ticks.mp ht
    omega
  unfold localRowsCover
  split
  · rfl
  · rw [(coverTicks_eq _ ih' hin).1,(coverTicks_eq _ ih hin).1]
    exact h.all hin

namespace Driver
variable {d d' e : Driver σ}

structure Ground (σ : Type) where
  sim : ℕ
  host : σ
  owed : TickRing histDepth ℕ
  cfg : RbConfig
  seen : List ℕ
  newest : ℕ → ℕ

variable (d)
def ground : Ground σ := ⟨d.sim,d.host,d.owed,d.rb.cfg,d.aux.beginSeen,d.aux.beginSeenSeq⟩
def claims : Stage × ℕ × Option Deferred := (d.stage,d.corr.epochId,d.defer)

variable {load : ℕ}
theorem takeSealRows_ground (m : SealChunk) (hbase : d.rb.sealBaseTick=load) (hlow : base≤load)
    (hkeep : ∀ t,load≤t → t<load+d.rb.cfg.sealMaxSpan → Keeps C v base t) :
    let d':=takeSealRows C v d m
    d'.ground=d.ground ∧ d'.claims=d.claims ∧ d'.rb.sealBaseTick=load ∧
      SameRows C v base d.ih d'.ih := by
  unfold takeSealRows
  dsimp only
  split
  · exact ⟨rfl,rfl,hbase,.refl _⟩
  next rb ih happly =>
  have hgrown:=applyPeerSealRows_grown happly
  have hkeeps:=applyPeerSealRows_keeps (Q := SameRows C v base d.ih)
    (W := fun t => base≤t ∧ Keeps C v base t)
    (fun slot t c ht hc => hc.trans (getInputRow_sameRows slot t ht.1 ht.2)) happly
    (fun t hfrom hspan => ?_) (.refl _)
  · refine ⟨?_,rfl,hgrown.base.trans hbase,hkeeps⟩
    exact congrArg (fun cfg => (⟨d.sim,d.host,d.owed,cfg,_,_⟩ : Ground σ)) hgrown.cfg
  · change d.rb.sealBaseTick≤t at hfrom
    change t-d.rb.sealBaseTick<d.rb.cfg.sealMaxSpan at hspan
    exact ⟨by omega,hkeep t (by omega) (by omega)⟩

theorem earlySealTake_ground (hbase : d.rb.sealBaseTick=load)
    (hlow : base≤load)
    (hkeep : ∀ t,load≤t → t<load+d.rb.cfg.sealMaxSpan → Keeps C v base t) :
    let d':=d.earlySealTake C v
    d'.ground=d.ground ∧ d'.claims=d.claims ∧ SameRows C v base d.ih d'.ih := by
  have hall : ∀ (chunks : List SealChunk) (d : Driver σ),d.rb.sealBaseTick=load →
      (∀ t,load≤t → t<load+d.rb.cfg.sealMaxSpan → Keeps C v base t) →
      (chunks.foldl (takeSealRows C v) d).ground=d.ground ∧
        (chunks.foldl (takeSealRows C v) d).claims=d.claims ∧
        SameRows C v base d.ih (chunks.foldl (takeSealRows C v) d).ih := by
    intro chunks
    induction chunks with
    | nil => exact fun d _ _ => ⟨rfl,rfl,.refl _⟩
    | cons m chunks hind =>
      intro d hbase hkeep
      obtain ⟨hground,hclaims,hbase',hrows⟩ :=
        takeSealRows_ground (C := C) (v := v) d m hbase hlow hkeep
      have hcfg : (takeSealRows C v d m).rb.cfg=d.rb.cfg := congrArg Ground.cfg hground
      obtain ⟨hground',hclaims',hrows'⟩ := hind (takeSealRows C v d m) hbase' (by rwa [hcfg])
      exact ⟨hground'.trans hground,hclaims'.trans hclaims,hrows.trans hrows'⟩
  exact hall _ d hbase hkeep

theorem enterSealing_ground (mismatch slot : ℕ) :
    let d':=d.enterSealing C v mismatch slot false
    d'.ground=d.ground ∧ d'.claims=(.sealing,d.corr.epochId,d.defer) ∧ d'.rb=d.rb ∧ d'.ih=d.ih := by
  obtain ⟨sends,hsends,-⟩ := sendLocalSealRows_sends (C := C)
    { d with aux := { d.aux with beginResendMs := v.now,answeredMask := ∅ } }
  unfold enterSealing
  dsimp only
  rw [if_neg (by simp),hsends]
  exact ⟨rfl,rfl,rfl,rfl⟩

/-- The spans `rb_begin_episode` and the core can seal. -/
def sealable (load target : ℕ) : Bool :=
  decide (load≤target ∧ target-load<sealMaskBits ∧ target-load<d.rb.cfg.sealMaxSpan)

theorem sealInputs_sealed {τ : Type} (get : GetInputRow τ) (s : RbSession) (first target : ℕ)
    (c : τ) : (s.sealInputs get first target c).1.inputsSealed =
      decide (first≤target ∧ target-first<s.cfg.sealMaxSpan) := by
  unfold sealInputs
  dsimp only
  split
  · next h =>
    refine (decide_eq_false ?_).symm
    omega
  next h =>
  refine (decide_eq_true ?_).symm
  omega

theorem openEpisode_ground (corr : RbCorrection) (hi : corr.initiator=false)
    (hseal : d.sealable corr.loadTick corr.targetTick) (hlow : base ≤ corr.loadTick)
    (hkeep : ∀ t,corr.loadTick≤t → t<corr.loadTick+d.rb.cfg.sealMaxSpan → Keeps C v base t) :
    let d':=(d.openEpisode C v corr).1
    d'.ground=d.ground ∧ d'.claims=(.sealing,corr.epochId,d.defer) ∧
      SameRows C v base d.ih d'.ih := by
  obtain ⟨hle,hmask,hspan⟩ := of_decide_eq_true hseal
  have hsealed:=sealInputs_sealed (getInputRow C v) (d.rb.beginEpisode corr) corr.loadTick
    corr.targetTick d.ih
  have hspec:=(sealInputs_spec (getInputRow C v) (d.rb.beginEpisode corr)
    corr.loadTick corr.targetTick d.ih).2.2
  have hrows : SameRows C v base d.ih ((d.rb.beginEpisode corr).sealInputs (getInputRow C v)
      corr.loadTick corr.targetTick d.ih).2 := sealInputs_keeps
    (Q := SameRows C v base d.ih) (W := fun t => base≤t ∧ Keeps C v base t)
    (fun slot t c ht hc => hc.trans (getInputRow_sameRows slot t ht.1 ht.2))
    (d.rb.beginEpisode corr) corr.loadTick corr.targetTick d.ih
    (fun t hfrom hto _ => ⟨by omega,hkeep t hfrom (by omega)⟩) (.refl _)
  have hcfg:=sealInputs_cfg (getInputRow C v) (d.rb.beginEpisode corr) corr.loadTick
    corr.targetTick d.ih
  unfold openEpisode
  rw [if_neg (not_le.mpr hmask)]
  dsimp only
  generalize (d.rb.beginEpisode corr).sealInputs (getInputRow C v) corr.loadTick corr.targetTick
    d.ih=core at hsealed hspec hrows hcfg ⊢
  have hopen : core.1.inputsSealed := by
    rw [hsealed]
    exact decide_eq_true ⟨hle,hspan⟩
  rw [if_neg (by simp [hopen]),hi,if_neg (by simp)]
  obtain ⟨hground,hclaims,hrb,hih⟩ := enterSealing_ground (C := C) (v := v)
    { d with corr,rb := core.1,ih := core.2 } corr.mismatchTick corr.slot.toNat
  generalize enterSealing C v _ _ _ false=s at hground hclaims hrb hih ⊢
  have hcore : s.rb.cfg=d.rb.cfg := (congrArg cfg hrb).trans hcfg
  obtain ⟨hground',hclaims',hrows'⟩ := earlySealTake_ground (C := C) (v := v)
    ((s.earlyPostTake C).earlyBaseTake C)
    ((congrArg sealBaseTick hrb).trans (hspec hopen).2.1) hlow
    (hcore ▸ hkeep)
  refine ⟨hground'.trans (hground.trans ?_),hclaims'.trans hclaims,?_⟩
  · exact congrArg (fun cfg => (⟨d.sim,d.host,d.owed,cfg,_,_⟩ : Ground σ)) hcfg
  · exact SameRows.trans (hih ▸ hrows) hrows'

variable {d}
def followable (C : Setup σ) (v : View) (d : Driver σ) (m : RbSync) : Bool :=
  m.a != 0 && (decide (d.sim < m.b) ||
    C.host.snapHas m.b d.host && (d.owedFirst.filter (·.1 < m.b)).isNone &&
      (localRowsCover C v d.ih m.b (max m.c m.a)).1 && d.sealable m.b (max m.c m.a))

/-- The span of `m` lies in the window from `base` on, and so do the published own rows of the
ticks for which early SEAL_ROWS of its episode may be taken. -/
def InWindow (C : Setup σ) (v : View) (base : ℕ) (d : Driver σ) (m : RbSync) : Prop :=
  m.b≤d.sim → base ≤ m.b ∧ max m.c m.a<base+histDepth ∧
    ∀ t,m.b≤t → t < m.b+d.rb.cfg.sealMaxSpan → Keeps C v base t

variable {m : RbSync}
theorem followable_keeps (hsim : d'.sim=d.sim) (hhost : d'.host=d.host)
    (howed : d'.owed=d.owed) (hcfg : d'.rb.cfg=d.rb.cfg) (hrows : SameRows C v base d.ih d'.ih)
    (hwin : InWindow C v base d m) (h : d.followable C v m) : d'.followable C v m := by
  have hfirst : d'.owedFirst=d.owedFirst := by
    rw [owedFirst,owedFirst,windowFrom,windowFrom,hsim,howed]
  have hseal : ∀ load target,d'.sealable load target=d.sealable load target := by
    intro load target
    rw [sealable,sealable,hcfg]
  simp only [followable,bne_iff_ne,Bool.and_eq_true,Bool.or_eq_true,decide_eq_true_eq] at h ⊢
  rw [hsim,hhost,hfirst,hseal]
  refine ⟨h.1,?_⟩
  rcases Nat.lt_or_ge d.sim m.b with hahead | hhere
  · exact .inl hahead
  have hway:=h.2.resolve_left hhere.not_gt
  obtain ⟨hlow,hhigh,-⟩ := hwin hhere
  rw [localRowsCover_congr hrows hlow hhigh]
  exact .inr hway

theorem followOrDefer_ground (hs : d.stage=.idle) (hfree : d.defer=none)
    (hfollow : d.followable C v m) (hwin : InWindow C v base d m) :
    let d':=d.followOrDefer C v m.epoch m.a m.b m.c m.slot m.lightTip
    d'.ground=d.ground ∧ SameRows C v base d.ih d'.ih ∧
      ((d'.stage=.idle ∧ d'.defer.map (·.epoch)=some m.epoch) ∨
        (d'.stage≠.idle ∧ d'.corr.epochId=m.epoch ∧ d'.defer=none)) := by
  simp only [followable,bne_iff_ne,Bool.and_eq_true,Bool.or_eq_true,decide_eq_true_eq] at hfollow
  obtain ⟨hmis,hway⟩ := hfollow
  unfold followOrDefer
  by_cases hahead : d.sim < m.b
  · rw [if_pos ⟨hahead,hmis,hs⟩,hfree,if_neg (by simp)]
    exact ⟨rfl,.refl _,.inl ⟨hs,rfl⟩⟩
  obtain ⟨⟨⟨hsnap,howed⟩,hcover⟩,hseal⟩ := hway.resolve_left hahead
  obtain ⟨hlow,hhigh,hkeep⟩ := hwin (not_lt.mp hahead)
  have hrows : SameRows C v base d.ih (localRowsCover C v d.ih m.b (max m.c m.a)).2 :=
    localRowsCover_sameRows hlow hhigh
  obtain ⟨hground,hclaims,hrows'⟩ := openEpisode_ground (C := C) (v := v)
    { d with ih := (localRowsCover C v d.ih m.b (max m.c m.a)).2 }
    ⟨m.epoch,m.a,m.b,max m.c m.a,m.slot,false,true,m.lightTip⟩ rfl hseal hlow hkeep
  rw [if_neg fun h => hahead h.1]
  unfold beginFollower snapAtTip
  rw [if_neg (not_not.mpr hs),if_neg hmis]
  dsimp only
  rw [if_neg (by simp [hsnap]),if_neg (by simp [hsnap])]
  unfold followHeld
  rw [Option.isNone_iff_eq_none.mp howed]
  dsimp only
  rw [if_neg (by simp [hcover])]
  refine ⟨hground,hrows.trans hrows',.inr ⟨?_,?_,?_⟩⟩
  · intro hidle
    cases (congrArg Prod.fst hclaims).symm.trans hidle
  · exact congrArg (·.2.1) hclaims
  · exact (congrArg (·.2.2) hclaims).trans hfree

variable (d)
def openEpoch : Option ℕ := if d.stage=.idle then none else some d.corr.epochId
def heldEpoch : Option ℕ := d.defer.map (·.epoch)
def holding : Option ℕ := d.openEpoch.elim d.heldEpoch (Contest.contend epochInitiator d.heldEpoch)

structure Newer (d : Driver σ) (m : RbSync) : Prop where
  unseen : m.epoch∉d.aux.beginSeen
  newest : d.aux.beginSeenSeq (epochInitiator m.epoch)<epochSeq m.epoch
  overOpen : ∀ e,d.openEpoch=some e → epochInitiator e=epochInitiator m.epoch →
    d.aux.initiator=false ∧ epochSeq e<epochSeq m.epoch
  overHeld : ∀ e,d.heldEpoch=some e → epochInitiator e=epochInitiator m.epoch →
    epochSeq e<epochSeq m.epoch

def noteBegin (m : RbSync) : Driver σ :=
  { d with aux := { d.aux with
    beginSeen := (m.epoch::d.aux.beginSeen).take beginSeenMax
    beginSeenSeq := Function.update d.aux.beginSeenSeq (epochInitiator m.epoch)
      (epochSeq m.epoch) } }

variable {d}

structure Contested (C : Setup σ) (v : View) (base : ℕ) (m : RbSync) (d d' : Driver σ) : Prop where
  ground : d'.ground=d.ground
  rows : SameRows C v base d.ih d'.ih
  winner : d'.holding=Contest.contend epochInitiator d.holding m.epoch
  opens : ∀ e,d'.openEpoch=some e → e=m.epoch ∨
    (d.openEpoch=some e ∧ d'.aux.initiator=d.aux.initiator)
  holds : ∀ e,d'.heldEpoch=some e → e=m.epoch ∨ d.heldEpoch=some e

theorem openEpoch_of_idle (hs : d.stage=.idle) : d.openEpoch=none := if_pos hs

theorem holding_of_idle (hs : d.stage=.idle) : d.holding=d.heldEpoch := by
  unfold holding
  rw [openEpoch_of_idle hs]
  rfl

theorem Contested.of_taken (hs : e.stage=.idle) (hfree : e.defer=none)
    (hground : e.ground=d.ground) (hih : e.ih=d.ih)
    (hwins : Contest.contend epochInitiator d.holding m.epoch=some m.epoch)
    (hfollow : d.followable C v m) (hwin : InWindow C v base d m) :
    Contested C v base m d (e.followOrDefer C v m.epoch m.a m.b m.c m.slot m.lightTip) := by
  have hfollow' : e.followable C v m := followable_keeps (congrArg Ground.sim hground)
    (congrArg Ground.host hground) (congrArg Ground.owed hground) (congrArg Ground.cfg hground)
    (hih ▸ .refl _) hwin hfollow
  have hwin' : InWindow C v base e m := by
    have hsim : e.sim=d.sim := congrArg Ground.sim hground
    have hcfg : e.rb.cfg=d.rb.cfg := congrArg Ground.cfg hground
    rwa [InWindow,hsim,hcfg]
  obtain ⟨hground',hrows,hend⟩ := followOrDefer_ground hs hfree hfollow' hwin'
  generalize e.followOrDefer C v m.epoch m.a m.b m.c m.slot m.lightTip=d' at hground' hrows hend
  rcases hend with ⟨hidle,hheld⟩ | ⟨hopen,hepoch,hnone⟩
  · refine ⟨hground'.trans hground,hih ▸ hrows,hwins ▸ (holding_of_idle hidle).trans hheld,
      fun x hx => ?_,fun x hx => .inl (Option.some.inj (hx.symm.trans hheld))⟩
    rw [openEpoch_of_idle hidle] at hx
    cases hx
  have hone : d'.openEpoch=some m.epoch := (if_neg hopen).trans (congrArg some hepoch)
  have hnil : d'.heldEpoch=none := congrArg (Option.map _) hnone
  refine ⟨hground'.trans hground,hih ▸ hrows,?_,
    fun x hx => .inl (Option.some.inj (hx.symm.trans hone)),fun x hx => ?_⟩
  · rw [holding,hone,hnil,hwins]
    rfl
  · cases hnil.symm.trans hx

theorem arbitrateDeferred_contest (hs : d.stage=.idle)
    (hheld : ∀ x,d.heldEpoch=some x → epochInitiator x=epochInitiator m.epoch →
      epochSeq x<epochSeq m.epoch)
    (hfollow : d.followable C v m) (hwin : InWindow C v base d m) :
    Contested C v base m d (match d.arbitrateDeferred m with
      | (g,false) => g
      | (g,true) => g.followOrDefer C v m.epoch m.a m.b m.c m.slot m.lightTip) := by
  have hhold:=holding_of_idle hs
  unfold arbitrateDeferred
  cases hb : d.defer with
  | none =>
    refine .of_taken hs hb rfl rfl ?_ hfollow hwin
    rw [hhold,heldEpoch,hb]
    rfl
  | some b =>
    have hepoch : d.heldEpoch=some b.epoch := by rw [heldEpoch,hb]; rfl
    have hnewer:=hheld b.epoch hepoch
    dsimp only
    have hne : m.epoch≠b.epoch := by
      intro heq
      rw [heq] at hnewer
      exact absurd (hnewer rfl) (lt_irrefl _)
    rw [if_neg hne]
    by_cases hle : epochInitiator m.epoch≤epochInitiator b.epoch
    · rw [if_pos (hle.lt_or_eq.imp_right fun heq => ⟨heq,hnewer heq.symm⟩)]
      refine .of_taken (e := { d.sendNack b.epoch b.mismatch b.load b.slot with defer := none })
        hs rfl rfl rfl ?_ hfollow hwin
      rw [hhold,hepoch]
      exact if_pos hle
    rw [if_neg fun h => hle (h.elim le_of_lt fun h => h.1.le)]
    refine ⟨rfl,.refl _,?_,fun x hx => .inr ⟨hx,rfl⟩,fun x hx => .inr hx⟩
    rw [hhold,hepoch]
    exact (hhold.trans hepoch).trans (if_neg hle).symm

theorem arbitrate_contest
    (hopen : ∀ x,d.openEpoch=some x → epochInitiator x=epochInitiator m.epoch →
      d.aux.initiator=false ∧ epochSeq x<epochSeq m.epoch)
    (hheld : ∀ x,d.heldEpoch=some x → epochInitiator x=epochInitiator m.epoch →
      epochSeq x<epochSeq m.epoch)
    (hfollow : d.followable C v m) (hwin : InWindow C v base d m) :
    Contested C v base m d (match d.arbitrateOpen v m with
      | (f,false) => f
      | (f,true) =>
        match f.arbitrateDeferred m with
        | (g,false) => g
        | (g,true) => g.followOrDefer C v m.epoch m.a m.b m.c m.slot m.lightTip) := by
  unfold arbitrateOpen
  by_cases hs : d.stage=.idle
  · rw [if_pos hs]
    exact arbitrateDeferred_contest hs hheld hfollow hwin
  have hepoch : d.openEpoch=some d.corr.epochId := if_neg hs
  have hhold : d.holding=Contest.contend epochInitiator d.heldEpoch d.corr.epochId := by
    rw [holding,hepoch]
    rfl
  have hnewer:=hopen _ hepoch
  rw [if_neg hs]
  by_cases hle : epochInitiator m.epoch≤epochInitiator d.corr.epochId
  · rw [if_pos (hle.lt_or_eq.imp_right fun heq =>
      ⟨(hnewer heq.symm).1,heq,(hnewer heq.symm).2⟩)]
    have hcleared : Contested C v base m (d.episodeClear v) _ :=
      arbitrateDeferred_contest (d := d.episodeClear v) rfl hheld hfollow hwin
    refine { hcleared with winner := ?_,opens := fun x hx => ?_ }
    · rw [hhold,Contest.contend_contend_of_le hle]
      exact hcleared.winner
    · exact (hcleared.opens x hx).imp_right fun h => nomatch h.1
  · rw [if_neg fun h => hle (h.elim le_of_lt fun h => h.2.1.le)]
    refine ⟨rfl,.refl _,?_,fun x hx => .inr ⟨hx,rfl⟩,fun x hx => .inr hx⟩
    rw [hhold,Contest.contend_contend_of_lt (not_le.mp hle)]
    exact hhold

theorem onBegin_contest (hobs : isObserver C=false) (hnot : m.rereplay=false)
    (hnew : Newer d m) (hfollow : d.followable C v m) (hwin : InWindow C v base d m) :
    Contested C v base m (d.noteBegin m) (d.onBegin C v m) := by
  unfold onBegin
  rw [if_neg (by simp [hobs]),if_neg (by simp [hnot])]
  unfold beginRepeat
  rw [if_neg hnew.unseen]
  dsimp only
  unfold onNewBegin noteBeginSeq
  dsimp only
  rw [if_pos hnew.newest]
  exact arbitrate_contest (d := d.noteBegin m) hnew.overOpen hnew.overHeld hfollow hwin

/-- `m` can take part in the contest in `d`. -/
structure Ready (C : Setup σ) (v : View) (base : ℕ) (d : Driver σ) (m : RbSync) : Prop where
  begins : m.op=.begin ∧ m.rereplay=false
  newer : Newer d m
  follow : d.followable C v m
  window : InWindow C v base d m

theorem Ready.next {m' : RbSync} {x : Event} (h : Ready C v base d m)
    (hother : epochInitiator m'.epoch≠epochInitiator m.epoch)
    (hstep : Contested C v base m' ((d.note x).noteBegin m') d') : Ready C v base d' m := by
  have hsim : d'.sim=d.sim := congrArg Ground.sim hstep.ground
  have hcfg : d'.rb.cfg=d.rb.cfg := congrArg Ground.cfg hstep.ground
  refine ⟨h.begins,⟨?_,?_,fun e he hseat => ?_,fun e he hseat => ?_⟩,?_,?_⟩
  · rw [show d'.aux.beginSeen=_ from congrArg Ground.seen hstep.ground]
    intro hin
    rcases mem_cons.mp (mem_of_mem_take hin) with heq | hin
    · exact hother (congrArg epochInitiator heq.symm)
    · exact h.newer.unseen hin
  · rw [show d'.aux.beginSeenSeq=_ from congrArg Ground.newest hstep.ground]
    exact lt_of_eq_of_lt (Function.update_of_ne hother.symm ..) h.newer.newest
  · rcases hstep.opens e he with rfl | ⟨hopen,hinit⟩
    · exact absurd hseat hother
    · obtain ⟨hfollows,hseq⟩ := h.newer.overOpen e hopen hseat
      exact ⟨hinit.trans hfollows,hseq⟩
  · rcases hstep.holds e he with rfl | hheld
    · exact absurd hseat hother
    · exact h.newer.overHeld e hheld hseat
  · exact followable_keeps hsim (congrArg Ground.host hstep.ground)
      (congrArg Ground.owed hstep.ground) hcfg hstep.rows h.window h.follow
  · rw [InWindow,hsim,hcfg]
    exact h.window

def beginPacket (b : ℕ × RbSync) : RbPacket := ⟨b.1,.sync b.2⟩

theorem handle_contest {b : ℕ × RbSync} (hobs : isObserver C=false)
    (hready : Ready C v base d b.2) :
    Contested C v base b.2 ((d.note (.received (beginPacket b))).noteBegin b.2)
      (handle C v d (beginPacket b)) := by
  have hnew : Newer (d.note (.received (beginPacket b))) b.2 :=
    { hready.newer with }
  have hstep:=onBegin_contest (C := C) (v := v) hobs hready.begins.2 hnew
    hready.follow hready.window
  unfold handle beginPacket
  simp only [onSync,hready.begins.1]
  exact hstep

theorem drain_contest (hobs : isObserver C=false) (bs : List (ℕ × RbSync)) {d : Driver σ}
    (hready : ∀ b∈bs,Ready C v base d b.2)
    (hseats : ((bs.map (·.2.epoch)).map epochInitiator).Nodup) :
    ((bs.map beginPacket).foldl (handle C v) d).holding =
      (bs.map (·.2.epoch)).foldl (Contest.contend epochInitiator) d.holding := by
  induction bs generalizing d with
  | nil => rfl
  | cons b bs ih =>
    obtain ⟨hfirst,hrest⟩ := nodup_cons.mp hseats
    have hstep:=handle_contest hobs (hready b mem_cons_self)
    have hwinner : (handle C v d (beginPacket b)).holding =
      Contest.contend epochInitiator d.holding b.2.epoch := hstep.winner
    rw [map_cons,foldl_cons,map_cons,foldl_cons,← hwinner]
    refine ih (fun b' hb' => (hready b' (mem_cons_of_mem _ hb')).next ?_ hstep) hrest
    intro heq
    refine hfirst (mem_map.mpr ⟨b'.2.epoch,?_,heq.symm⟩)
    exact mem_map_of_mem hb'

theorem drainOrder_begins {bs : List (ℕ × RbSync)}
    (haccept : ∀ b∈bs,sessionAccepts C (beginPacket b)) :
    drainOrder C (bs.map beginPacket)=bs.map beginPacket := by
  have hrank : ∀ k,(bs.map beginPacket).filter
      (fun p => sessionAccepts C p && p.msg.drainRank == k) =
        if k=0 then bs.map beginPacket else [] := by
    intro k
    split
    · next hk =>
      refine filter_eq_self.mpr fun p hp => ?_
      obtain ⟨b,hb,rfl⟩ := mem_map.mp hp
      rw [haccept b hb,hk]
      rfl
    next hk =>
    refine filter_eq_nil_iff.mpr fun p hp => ?_
    obtain ⟨b,-,rfl⟩ := mem_map.mp hp
    simpa [beginPacket,RbMsg.drainRank] using fun _ => Ne.symm hk
  unfold drainOrder
  simp only [hrank]
  simp [range_succ]

end Driver

/-- **Dual initiation is order free.** The driver holds the BEGIN of the lowest initiator seat,
whatever order they came in. -/
theorem arbitration_order_free {d : Driver σ} {base : ℕ} {bs : List (ℕ × RbSync)}
    (hobs : isObserver C=false)
    (haccept : ∀ b∈bs,sessionAccepts C (Driver.beginPacket b)=true)
    (hseats : ((bs.map (·.2.epoch)).map Driver.epochInitiator).Nodup)
    (hready : ∀ b∈bs,Driver.Ready C v base d b.2) {bs' : List (ℕ × RbSync)}
    (horder : bs'.Perm bs) : (d.drainWire C v (bs'.map Driver.beginPacket)).holding =
      (bs.map (·.2.epoch)++d.holding.toList).argmin Driver.epochInitiator := by
  have hepochs : (bs'.map (·.2.epoch)).Perm (bs.map (·.2.epoch)) := horder.map _
  have hseats' : ((bs'.map (·.2.epoch)).map epochInitiator).Nodup :=
    (hepochs.map _).nodup_iff.mpr hseats
  unfold drainWire
  rw [drainOrder_begins fun b hb => haccept b (horder.mem_iff.mp hb),
    drain_contest hobs bs' (fun b hb => hready b (horder.mem_iff.mp hb)) hseats',
    Contest.foldl_contend_perm hepochs hseats]

def trio : Setup (List ℕ) :=
  { duel 2 2 with cfg := ⟨2,3,2,0,.inline,0⟩ }

def trioTicks : List (Call (List ℕ)) :=
  [.poll (plainPoll 10 2 [] noRow),.finishFrame ⟨11,neutralTo 3⟩ [0],
    .poll (plainPoll 20 3 [⟨0,.frameCommit 0 7⟩,⟨1,.frameCommit 0 7⟩] noRow),
    .finishFrame ⟨21,neutralTo 4⟩ [1,0]]

def beginBy (seat seq target : ℕ) : RbPacket :=
  ⟨seat,.sync ⟨Driver.epochMake seq seat,1,1,target,0,.begin,false,false⟩⟩
def emptyBegin : RbSync := ⟨8,0,1,1,0,.begin,false,false⟩
def trioFollows : List (Call (List ℕ)) := trioTicks++[.poll (plainPoll 30 4 [beginBy 1 1 1] noRow)]
def rival (seat seq : ℕ) : ℕ × RbSync :=
  (seat,⟨Driver.epochMake seq seat,1,1,1,0,.begin,false,false⟩)

theorem arbitration_order_free_trio : ∃ d,Reachable trio d ∧ d.holding=some 9 ∧
    ∀ bs' : List (ℕ × RbSync),bs'.Perm [rival 1 2,rival 0 1] →
      (d.drainWire trio ⟨40,neutralTo 4⟩ (bs'.map Driver.beginPacket)).holding=some 8 := by
  obtain ⟨d,hd,hopen,hheld,hinit,hseen,hzero,hone,hspan,hfollow₁,hfollow₀⟩ :
      ∃ d,Reachable trio d ∧ d.openEpoch=some 9 ∧ d.heldEpoch=none ∧
        d.aux.initiator=false ∧ d.aux.beginSeen=[9] ∧ d.aux.beginSeenSeq 0=0 ∧
        d.aux.beginSeenSeq 1=1 ∧ d.rb.cfg.sealMaxSpan=64 ∧
        d.followable trio ⟨40,neutralTo 4⟩ (rival 1 2).2=true ∧
        d.followable trio ⟨40,neutralTo 4⟩ (rival 0 1).2=true :=
    reachable_play [] trioFollows (by decide +kernel)
  have hholding : d.holding=some 9 := by rw [holding,hopen,hheld]; rfl
  refine ⟨d,hd,hholding,fun bs' horder => ?_⟩
  have hready : ∀ b∈[rival 1 2,rival 0 1],Ready trio ⟨40,neutralTo 4⟩ 1 d b.2 := by
    intro b hb
    rw [mem_pair] at hb
    have hwin (m : RbSync) (hb : m.b=1) (hc : m.c=1) (ha : m.a=1) :
        InWindow trio ⟨40,neutralTo 4⟩ 1 d m := by
      intro _
      rw [hb,hc,ha,hspan]
      exact ⟨le_rfl,by decide,fun t _ ht => .inl (ht.trans_le (by decide))⟩
    have hnone : ∀ e,d.heldEpoch=some e → False := fun e he => by
      rw [hheld] at he
      cases he
    have hnine : ∀ e,d.openEpoch=some e → e=9 := fun e he =>
      (Option.some.inj (hopen.symm.trans he)).symm
    rcases hb with rfl | rfl
    · refine ⟨by decide,⟨?_,?_,fun e he _ => ?_,fun e he => (hnone e he).elim⟩,hfollow₁,
        hwin _ rfl rfl rfl⟩
      · rw [hseen]
        decide
      · exact lt_of_eq_of_lt hone (by decide)
      · rw [hnine e he]
        exact ⟨hinit,by decide⟩
    · refine ⟨by decide,⟨?_,?_,fun e he hseat => ?_,fun e he => (hnone e he).elim⟩,hfollow₀,
        hwin _ rfl rfl rfl⟩
      · rw [hseen]
        decide
      · exact lt_of_eq_of_lt hzero (by decide)
      · rw [hnine e he] at hseat
        exact absurd hseat (by decide)
  rw [arbitration_order_free (by decide) (by decide) (by decide) hready horder,hholding]
  decide

def Driver.replayable (C : Setup σ) (v : View) (d : Driver σ) (m : RbSync) : Bool :=
  (localRowsCover C v d.ih m.b (max m.c m.a)).1 && (d.owedFirst.filter (·.1 < m.b)).isNone &&
    (decide (d.sim < m.b) || C.host.snapHas m.b d.host)

theorem empty_begin_splits_orders : ∃ d,Reachable trio d ∧ d.stage=.idle ∧
    d.holding=none ∧ (∀ b∈[rival 1 1,(0,emptyBegin)],
      sessionAccepts trio (Driver.beginPacket b)=true ∧ b.2.epoch∉d.aux.beginSeen ∧
      d.aux.beginSeenSeq (Driver.epochInitiator b.2.epoch)<Driver.epochSeq b.2.epoch ∧
      d.replayable trio ⟨40,neutralTo 4⟩ b.2=true) ∧
    (d.drainWire trio ⟨40,neutralTo 4⟩ (([rival 1 1,(0,emptyBegin)]).map
      Driver.beginPacket)).holding=none ∧
    (d.drainWire trio ⟨40,neutralTo 4⟩ (([(0,emptyBegin),rival 1 1]).map
      Driver.beginPacket)).holding=some 9 := reachable_play [] trioTicks (by decide +kernel)

end RecompNet.RbDriver
