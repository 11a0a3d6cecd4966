import RecompNet.Rollback.RefineCalls

/-!
# Corrections that are owed

A tick marked as owed stays in the ledger until a completed replay covers it or its loss is
reported.
-/
namespace RecompNet.RbDriver
open List
variable {σ : Type} {C : Setup σ}
def owedTicks : List Event → List ℕ
  | [] => []
  | .marked t _::past => t::owedTicks past
  | .replayed load target::past =>
    (owedTicks past).filter fun t => ¬ (load≤t ∧ t≤target)
  | .lost t::past => (owedTicks past).filter (· ≠ t)
  | _::past => owedTicks past

def OwedSafe : Event → List Event → Prop
  | .replayed load target,past => ∀ t∈owedTicks past,
      ¬ (load≤t ∧ t≤target) → target+1≤t+histDepth
  | .marked tick _,past => ∀ t∈owedTicks past,t%histDepth=tick%histDepth → t=tick
  | _,_ => True

instance : ∀ (e : Event) (past : List Event),Decidable (OwedSafe e past)
  | .replayed load target,past => inferInstanceAs (Decidable (∀ t∈owedTicks past,
      ¬ (load≤t ∧ t≤target) → target+1≤t+histDepth))
  | .marked tick _,past => inferInstanceAs (Decidable (∀ t∈owedTicks past,
      t%histDepth=tick%histDepth → t=tick))
  | .sent _,_ | .received _,_ | .admitted _,_ | .loaded _,_ | .restored _,_ | .ran _,_
  | .verified _ _ _,_ | .committed _ _ _ _,_ | .opened _ _ _,_ | .sealTaken _ _,_
  | .lost _,_ | .bootSettled,_ | .refused _,_ =>
    isTrue trivial

def Event.covers (t : ℕ) : Event → Bool
  | .replayed load target => load≤t ∧ t≤target
  | _ => false

def Driver.owedOutstanding (d : Driver σ) : List ℕ :=
  (List.range' d.windowFrom (d.sim-d.windowFrom)).filter (d.owed.has ·)

variable {t : ℕ} {r : TickRing histDepth ℕ}
theorem owedClear_has_of_ne {t' : ℕ} (h : r.has t')
    (hne : t'≠t) : (Driver.owedClear r t).has t' := by
  unfold Driver.owedClear
  split
  · next ht => exact TickRing.has_clear_of_ne ht h hne
  · exact h

theorem owedClearSpan_has_of_not_mem {load target : ℕ}
    (h : r.has t) (hout : ¬ (load≤t ∧ t≤target)) : (Driver.owedClearSpan r load target).has t := by
  unfold Driver.owedClearSpan
  split
  · exact h
  have hne : ∀ x∈ticks load target,t≠x := by
    intro x hx heq
    rw [mem_ticks] at hx
    exact hout (heq ▸ hx)
  clear hout
  generalize ticks load target=l at hne
  induction l generalizing r with
  | nil => exact h
  | cons x l ih =>
    exact ih (owedClear_has_of_ne h (hne x (by simp)))
      fun y hy => hne y (mem_cons_of_mem _ hy)

def OwedQuiet (e : Event) : Prop := ∀ past,owedTicks (e::past)=owedTicks past

variable {past : List Event}
theorem owedTicks_append {pre : List Event} (h : ∀ e∈pre,OwedQuiet e) :
    owedTicks (pre++past)=owedTicks past := by
  induction pre with
  | nil => rfl
  | cons e pre ih =>
    rw [cons_append,h e (by simp) (pre++past)]
    exact ih fun e' he' => h e' (mem_cons_of_mem _ he')

variable {slot : ℕ}
theorem mem_owedTicks_of_marked {later : List Event}
    (hopen : ∀ load target,.replayed load target∈later → ¬ (load≤t ∧ t≤target))
    (hlost : .lost t∉later) : t∈owedTicks (later++.marked t slot::past) := by
  induction later with
  | nil => simp [owedTicks]
  | cons e later ih =>
    have hmem : t∈owedTicks (later++.marked t slot::past) :=
      ih (fun load target h => hopen load target (mem_cons_of_mem _ h))
        fun h => hlost (mem_cons_of_mem _ h)
    cases e with
    | marked => exact mem_cons_of_mem _ hmem
    | replayed load target =>
      exact mem_filter.mpr ⟨hmem,decide_eq_true (hopen load target (by simp))⟩
    | lost x =>
      refine mem_filter.mpr ⟨hmem,decide_eq_true fun hx => hlost ?_⟩
      rw [hx]
      exact mem_cons_self
    | _ => exact hmem

def OwedInv (s : Outline) : Prop := ∀ t∈owedTicks s.log,s.owed.has t ∧ s.sim≤t+histDepth ∧ 1≤t
theorem OwedInv.init (core : Tuple) : OwedInv (.init core) := fun _ h => by cases h

variable {s s' : Outline}

section
variable (h : OwedInv s)
include h
theorem OwedInv.quiet (pre : List Event) (hlog : s'.log=pre++s.log) (hq : ∀ e∈pre,OwedQuiet e)
    (howed : s'.owed=s.owed) (hsim : s'.sim=s.sim) : OwedInv s' := by
  intro t ht
  rw [hlog,owedTicks_append hq] at ht
  rw [howed,hsim]
  exact h t ht

theorem OwedInv.note {e : Event} (hlog : s'.log=e::s.log) (hq : OwedQuiet e)
    (howed : s'.owed=s.owed) (hsim : s'.sim=s.sim) : OwedInv s' :=
  h.quiet [e] hlog (fun _ he => mem_singleton.mp he ▸ hq) howed hsim

theorem OwedInv.mark (ht : 1≤t) (hw : s.sim≤t+histDepth)
    (hcell : ∀ x∈owedTicks s.log,x%histDepth=t%histDepth → x=t) :
    OwedInv { s with owed := s.owed.store t slot,log := .marked t slot::s.log } := by
  intro x hx
  by_cases hxt : x=t
  · subst hxt
    exact ⟨by simp [TickRing.has],hw,ht⟩
  have hmem : x∈owedTicks s.log := (mem_cons.mp hx).resolve_left hxt
  obtain ⟨hhas,hrest⟩ := h x hmem
  refine ⟨?_,hrest⟩
  unfold TickRing.has
  rw [TickRing.get?_store_of_mod_ne _ _ fun hm => hxt (hcell x hmem hm)]
  exact hhas

theorem OwedInv.lose (t : ℕ) :
    OwedInv { s with owed := Driver.owedClearSpan s.owed t t,log := .lost t::s.log } := by
  intro x hx
  obtain ⟨hmem,hne⟩ := mem_filter.mp hx
  obtain ⟨hhas,hrest⟩ := h x hmem
  have hxt : x≠t := of_decide_eq_true hne
  exact ⟨owedClearSpan_has_of_not_mem hhas (by omega),hrest⟩

theorem OwedInv.verify (pre mid : List Event)
    (hlog : s'.log=pre++.replayed s.tuple.load s.tuple.target::(mid++s.log))
    (hpre : ∀ e∈pre,OwedQuiet e) (hmid : ∀ e∈mid,OwedQuiet e)
    (howed : s'.owed=Driver.owedClearSpan s.owed s.tuple.load s.tuple.target)
    (hsim : s'.sim=s.tuple.target+1) (hfine : Trace.All OwedSafe s'.log) : OwedInv s' := by
  rw [hlog] at hfine
  have hsafe : ∀ t∈owedTicks (mid++s.log),¬ (s.tuple.load≤t ∧ t ≤ s.tuple.target) →
      s.tuple.target+1≤t+histDepth := hfine.at
  rw [owedTicks_append hmid] at hsafe
  intro t ht
  rw [hlog,owedTicks_append hpre] at ht
  unfold owedTicks at ht
  rw [owedTicks_append hmid] at ht
  obtain ⟨hmem,hout⟩ := mem_filter.mp ht
  have hout:=of_decide_eq_true hout
  obtain ⟨hhas,-,hone⟩ := h t hmem
  rw [howed,hsim]
  exact ⟨owedClearSpan_has_of_not_mem hhas hout,hsafe t hmem hout,hone⟩

theorem OwedInv.ageOut (hlog : owedTicks s'.log=owedTicks s.log)
    (howed : s'.owed=s.owed) (hsim : s'.sim=s.sim+1) : OwedInv s'.ageOut := by
  unfold Outline.ageOut
  rw [howed,hsim]
  split
  · next hold =>
    intro t ht
    obtain ⟨hmem,hne⟩ := mem_filter.mp ht
    have hne:=of_decide_eq_true hne
    rw [hlog] at hmem
    obtain ⟨hhas,hw,hone⟩ := h t hmem
    refine ⟨TickRing.has_clear_of_ne hold.2 hhas hne,?_,hone⟩
    change s.sim+1≤t+histDepth
    omega
  · next hkeep =>
    intro t ht
    rw [hlog] at ht
    obtain ⟨hhas,hw,hone⟩ := h t ht
    refine ⟨howed ▸ hhas,?_,hone⟩
    by_contra hout
    have hlast : s.sim+1-histDepth-1=t := by omega
    exact hkeep ⟨by omega,hlast ▸ hhas⟩

theorem OwedInv.step (hstep : Step C s s') (hfine : Trace.All OwedSafe s'.log) : OwedInv s' := by
  cases hstep with
  | verify ran sends own0 next digest hr hs ho =>
    have hmid : ∀ e∈sends++ran,OwedQuiet e := hr.forall_mem hs (fun _ _ _ => rfl) fun _ _ => rfl
    exact h.verify [.verified s.tuple.epoch s.tuple.target digest,
      .sent (.post s.tuple.epoch s.tuple.target digest)] (sends++ran) (by simp)
      (by simp [OwedQuiet,owedTicks]) hmid rfl rfl hfine
  | commit m hs hp => exact h.quiet [_,_,_] rfl (by simp [OwedQuiet,owedTicks]) rfl rfl
  | finishLive digest hp => exact h.ageOut rfl rfl rfl
  | settleRefused code =>
    exact h.quiet ((if s.refusal.isSome then [] else [.refused code])++[.bootSettled]) (by simp)
      (settleRefused_forall_mem (fun _ => rfl) fun _ => rfl) rfl rfl
  | mark t slot ht hw => exact h.mark ht hw hfine.head
  | lose t => exact h.lose t
  | _ =>
    first
    | exact h.quiet [] rfl (by simp) rfl rfl
    | exact h.note rfl (fun _ => rfl) rfl rfl

end

/-- **Owed corrections are kept.** -/
theorem owed_kept {d : Driver σ} (h : Reachable C d) (hfine : Trace.All OwedSafe d.log)
    {later past : List Event} {t slot : ℕ} (hlog : d.log=later++.marked t slot::past) :
    (∃ load target,.replayed load target∈later ∧ load≤t ∧ t≤target) ∨ .lost t∈later ∨
    (d.sim≤t+histDepth ∧ d.owed.has t=true ∧ (t<d.sim → t∈d.owedOutstanding)) := by
  have hinv : OwedInv d.outline := reachable_invariant OwedInv.init OwedInv.step h hfine
  by_cases hpaid : ∃ load target,.replayed load target∈later ∧ load≤t ∧ t≤target
  · exact .inl hpaid
  by_cases hlost : .lost t∈later
  · exact .inr (.inl hlost)
  have hmem : t∈owedTicks d.outline.log := by
    change t∈owedTicks d.log
    rw [hlog]
    exact mem_owedTicks_of_marked (fun load target hr hin => hpaid ⟨load,target,hr,hin⟩) hlost
  obtain ⟨hhas,hw,-⟩ := hinv t hmem
  refine .inr (.inr ⟨hw,hhas,fun hlt => mem_filter.mpr ⟨?_,hhas⟩⟩)
  have hw : d.sim≤t+histDepth := hw
  rw [mem_range'_1]
  unfold Driver.windowFrom
  omega

def rowOneLate (slot wire : ℕ) : Option InputSample :=
  if wire=1 then none else tickOneRow 1 0 slot wire

theorem owed_kept_duel : ∃ d later past,Reachable (duel 1 2) d ∧ Trace.All OwedSafe d.log ∧
    d.log=later++.marked 1 0::past ∧
    ((∃ load target,.replayed load target∈later ∧ load≤1 ∧ 1≤target) ∨ .lost 1∈later ∨
      (d.sim≤1+histDepth ∧ d.owed.has 1=true ∧ (1<d.sim → 1∈d.owedOutstanding))) := by
  obtain ⟨d,hd,hfine,hmem⟩ :
      ∃ d,Reachable (duel 1 2) d ∧ Trace.All OwedSafe d.log ∧ .marked 1 0∈d.log :=
    reachable_play [] (twoTicks++[.poll (plainPoll 30 4 [] (tickOneRow 1 0))]) (by decide +kernel)
  obtain ⟨later,past,hlog⟩ := append_of_mem hmem
  exact ⟨d,later,past,hd,hfine,hlog,owed_kept hd hfine hlog⟩

def beginOf (epoch load target : ℕ) : RbPacket :=
  ⟨0,.sync ⟨epoch,load,load,target,0,.begin,false,false⟩⟩

def sealRowsOf (epoch load target : ℕ) : RbPacket := ⟨0,.sealRows ⟨epoch,load,target,0,0,
    (ticks load target).map fun t => ⟨t,0,0,0,false,true,0,0,0⟩⟩⟩

def abortOf (epoch target : ℕ) : RbPacket := ⟨0,.sync ⟨epoch,1,target,0,0,.abort,false,false⟩⟩

def abortedSpan (k : ℕ) : List (Call (List ℕ)) :=
  let load:=2+21*k
  let target:=load+19
  let epoch:=8*(k+1)
  let now:=100+2100*k
  [.poll (plainPoll now target [beginOf epoch load target,sealRowsOf epoch load target] rowOneLate),
    .poll (plainPoll (now+2050) (target+20) [abortOf epoch target] rowOneLate),
    .finishFrame ⟨now+2060,neutralTo (target+21)⟩ (List.range (target+2)).reverse]

def leftBehindDuel : List (Call (List ℕ)) := twoTicks++(List.range 6).flatMap abortedSpan ++
    [.poll (plainPoll 13000 147 [] rowOneLate),
      .finishFrame ⟨13010,neutralTo 148⟩ (List.range 129).reverse,
      .poll (plainPoll 13020 148 [beginOf 56 129 131] (tickOneRow 1 0)),
      .poll (plainPoll 13040 148 [sealRowsOf 56 129 131] (tickOneRow 1 0))]

theorem owed_left_behind : ∃ d,Reachable (duel 1 20) d ∧ .marked 1 0∈d.log ∧
    (∀ load target,.replayed load target∈d.log → ¬ (load≤1 ∧ 1≤target)) ∧
    .lost 1∉d.log ∧ 1+histDepth<d.sim ∧ 1∉d.owedOutstanding ∧ d.owedFirst=none := by
  obtain ⟨d,hd,hmark,hcovers,hrest⟩ : ∃ d,Reachable (duel 1 20) d ∧ .marked 1 0∈d.log ∧
      (∀ e∈d.log,e.covers 1=false) ∧ .lost 1∉d.log ∧ 1+histDepth<d.sim ∧
      1∉d.owedOutstanding ∧ d.owedFirst=none :=
    reachable_play [] leftBehindDuel (by decide +kernel)
  refine ⟨d,hd,hmark,fun load target hmem hin => ?_,hrest⟩
  have hnot:=hcovers _ hmem
  simp [Event.covers,hin] at hnot

end RecompNet.RbDriver
