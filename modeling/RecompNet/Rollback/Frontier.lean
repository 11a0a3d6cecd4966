import RecompNet.Rollback.RefineCalls

/-!
# The confirmed frontier and the two copies of the episode

The driver and the rollback core each keep the open episode's epoch, first tick and target.
-/
namespace RecompNet.RbDriver
variable {σ : Type} {C : Setup σ}

/-- A SEAL_ROWS chunk handed to the core stays within the driver's target. -/
def SealWithin : Event → List Event → Prop
  | .sealTaken target ours,_ => target≤ours
  | _,_ => True

instance : ∀ (e : Event) (past : List Event),Decidable (SealWithin e past)
  | .sealTaken target ours,_ => inferInstanceAs (Decidable (target≤ours))
  | .sent _,_ | .received _,_ | .admitted _,_ | .loaded _,_ | .restored _,_ | .ran _,_
  | .replayed _ _,_ | .verified _ _ _,_ | .committed _ _ _ _,_ | .opened _ _ _,_
  | .marked _ _,_ | .lost _,_ | .bootSettled,_ | .refused _,_ =>
    isTrue trivial

def FrontierSound : Event → List Event → Prop
  | .committed _ target before after,_ => after ≤ max before target
  | .sent (.resolved tick),past => ∃ m epoch target before after rest,
      past=.sent (.sync m)::.committed epoch target before after::rest ∧ tick ≤ max before target
  | _,_ => True

structure FrontierInv (s : Outline) : Prop where
  agree : s.stage≠.idle → s.core=s.tuple
  sound : Trace.All FrontierSound s.log

theorem FrontierInv.init (core : Tuple) : FrontierInv (.init core) :=
  ⟨fun h => absurd rfl h,trivial⟩
def FrontierQuiet (e : Event) : Prop := ∀ past,FrontierSound e past

variable {s s' : Outline}
theorem FrontierInv.quiet (h : FrontierInv s) (pre : List Event)
    (hlog : s'.log=pre++s.log) (hq : ∀ e∈pre,FrontierQuiet e)
    (hagree : s'.stage≠.idle → s'.core=s'.tuple) : FrontierInv s' := by
  refine ⟨hagree,?_⟩
  rw [hlog]
  exact h.sound.append hq

theorem FrontierInv.note (h : FrontierInv s) {e : Event}
    (hlog : s'.log=e::s.log) (hq : FrontierQuiet e)
    (hagree : s'.stage≠.idle → s'.core=s'.tuple) : FrontierInv s' :=
  h.quiet [e] hlog (fun _ he => List.mem_singleton.mp he ▸ hq) hagree

theorem frontierQuiet_sent {m : RbMsg} (hm : ∀ t,m≠.resolved t) : FrontierQuiet (.sent m) := by
  intro past
  unfold FrontierSound
  split
  · next he => cases he
  · next tick he =>
    cases he
    exact absurd rfl (hm tick)
  · trivial

theorem FrontierInv.step (h : FrontierInv s) (hstep : Step C s s')
    (hfine : Trace.All SealWithin s'.log) : FrontierInv s' := by
  cases hstep with
  | say m hm =>
    exact h.note rfl (frontierQuiet_sent hm) h.agree
  | clear tuple core => exact h.quiet [] rfl (by simp) (fun hidle => absurd rfl hidle)
  | «open» t hs ht => exact h.note rfl (fun _ => trivial) fun _ => rfl
  | reopen target hs ht =>
    have hidle : s.stage≠.idle := by rcases hs with hs | hs <;> rw [hs] <;> simp
    refine h.quiet [] rfl (by simp) fun _ => ?_
    have hagree:=h.agree hidle
    rw [hagree,Nat.max_eq_right ht]
  | sealTaken target grown hg =>
    refine h.note rfl (fun _ => trivial) fun hidle => ?_
    have hagree:=h.agree hidle
    have hle : target ≤ s.tuple.target := hfine.head
    have hgrown : grown=s.tuple.target := by
      rw [hagree] at hg
      omega
    rw [hagree,hgrown]
  | startReplay hs hp => exact h.quiet [] rfl (by simp) fun _ => h.agree (by rw [hs]; simp)
  | verify ran sends own0 next digest hr hs ho =>
    have hidle : s.stage≠.idle := by
      cases hr with
      | inline hs => rw [hs]; simp
      | last hs => rw [hs]; simp
    have hrest : ∀ e∈sends++ran,FrontierQuiet e :=
      hr.forall_mem hs (fun _ _ _ => trivial) fun _ _ => trivial
    refine h.quiet (.verified s.tuple.epoch s.tuple.target digest ::
      .sent (.post s.tuple.epoch s.tuple.target digest) ::
      .replayed s.tuple.load s.tuple.target::(sends++ran)) (by simp) ?_ fun _ => h.agree hidle
    simp only [List.forall_mem_cons]
    exact ⟨fun _ => trivial,fun _ => trivial,fun _ => trivial,hrest⟩
  | commit m hs hp =>
    have hagree:=h.agree (by rw [hs]; simp)
    have htarget : s.core.target=s.tuple.target := by rw [hagree]
    refine ⟨fun _ => hagree,.cons ?_ (.cons trivial (.cons ?_ h.sound))⟩
    · exact ⟨m,_,_,_,_,s.log,rfl,by rw [htarget]⟩
    · change max s.resolved s.core.target ≤ max s.resolved s.tuple.target
      rw [htarget]
  | finishLive digest hp =>
    have hlive : FrontierInv { s with
        pending := .stall
        sim := s.sim+1
        log := .sent (.frameCommit s.sim digest)::s.log } := h.note rfl (fun _ => trivial) h.agree
    unfold Outline.ageOut
    split
    · exact hlive.note rfl (fun _ => trivial) h.agree
    · exact hlive
  | settleRefused code =>
    exact h.quiet ((if s.refusal.isSome then [] else [.refused code])++[.bootSettled]) (by simp)
      (settleRefused_forall_mem (fun _ => trivial) fun _ => trivial) h.agree
  | _ =>
    first
    | exact h.quiet [] rfl (by simp) h.agree
    | exact h.note rfl (fun _ => trivial) h.agree

/-- **Frontier soundness.** -/
theorem frontier_sound {d : Driver σ} (h : Reachable C d) (hfine : Trace.All SealWithin d.log) :
    (d.stage≠.idle → d.rb.corr.epochId=d.corr.epochId ∧
      d.rb.sealBaseTick=d.corr.loadTick ∧ d.rb.corr.targetTick=d.corr.targetTick) ∧
    (∀ later past epoch target before after,
      d.log=later++.committed epoch target before after::past → after ≤ max before target) ∧
    ∀ later past tick,d.log=later++.sent (.resolved tick)::past →
      ∃ m epoch target before after rest,
        past=.sent (.sync m)::.committed epoch target before after::rest ∧
          tick ≤ max before target := by
  have hinv : FrontierInv d.outline := reachable_invariant FrontierInv.init FrontierInv.step h hfine
  have hsound : Trace.All FrontierSound d.log := hinv.sound
  refine ⟨fun hidle => ?_,?_,?_⟩
  · have hagree:=hinv.agree hidle
    exact ⟨congrArg Tuple.epoch hagree,congrArg Tuple.load hagree,congrArg Tuple.target hagree⟩
  · intro later past epoch target before after hlog
    rw [hlog] at hsound
    exact hsound.at
  · intro later past tick hlog
    rw [hlog] at hsound
    exact hsound.at

theorem frontier_sound_duel : ∃ d,Reachable (duel 1 2) d ∧ Trace.All SealWithin d.log ∧
    d.stage≠.idle ∧ d.rb.corr.targetTick=d.corr.targetTick ∧
      ∃ later past,d.log=later++.committed 8 1 0 1::past ∧ 1 ≤ max 0 1 := by
  obtain ⟨d,hd,hfine,hopen,hmem⟩ : ∃ d,Reachable (duel 1 2) d ∧ Trace.All SealWithin d.log ∧
      d.stage≠.idle ∧ .committed 8 1 0 1∈d.log :=
    reachable_play [] committedDuel (by decide +kernel)
  obtain ⟨later,past,hlog⟩ := List.append_of_mem hmem
  have hsound:=frontier_sound hd hfine
  exact ⟨d,hd,hfine,hopen,(hsound.1 hopen).2.2,later,past,hlog,hsound.2.1 later past 8 1 0 1 hlog⟩

def overtakenDuel (tail : List (Call (List ℕ))) : List (Call (List ℕ)) := twoTicks ++
    .poll (plainPoll 30 4 [⟨0,.sync ⟨8,1,1,1,0,.begin,false,false⟩⟩,
      ⟨0,.sealRows ⟨8,1,1,0,0,[⟨1,1,0,0,false,true,0,0,0⟩]⟩⟩] noRow) ::
    .poll (plainPoll 40 4 [⟨0,.sealRows ⟨8,1,2,0,0,
      [⟨1,1,0,0,false,true,0,0,0⟩,⟨2,1,0,0,false,true,0,0,0⟩]⟩⟩] noRow)::tail

theorem frontier_overtaken :
    (∃ d,Reachable (duel 1 2) d ∧ d.stage=.verifying ∧ d.corr.targetTick=1 ∧
      d.rb.corr.targetTick=2) ∧
    ∃ d,Reachable (duel 1 2) d ∧ .committed 8 1 0 2∈d.log ∧ ¬ 2 ≤ max 0 1 ∧
      .sent (.resolved 2)∈d.log ∧ d.confirmedThrough=2 := by
  refine ⟨reachable_play [] (overtakenDuel []) (by decide +kernel),?_⟩
  exact reachable_play [] (overtakenDuel [.poll (plainPoll 50 4 [⟨0,.post 8 1 7⟩] noRow)])
    (by decide +kernel)

end RecompNet.RbDriver
