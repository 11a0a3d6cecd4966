import RecompNet.Rollback.Frame

/-!
# What reconcile does with late rows

`rb_reconcile_wire` walks the predicted rows whose true sample is in, promotes each and stops at
the first that asks for a rewind.
-/
namespace RecompNet.RbDriver
open List
variable {σ : Type} (C : Setup σ) (env : PollInput)
def padsEqual (a b : RbFrame) : Bool :=
  rowsEqual a b && a.analog == b.analog && a.rx == b.rx && a.ry == b.ry

def scanUpTo {α : Type} (p : α → Bool) : List α → List α
  | [] => []
  | a::l => a::if p a then [] else scanUpTo p l

theorem find?_of_mem_scanUpTo {α : Type} {p : α → Bool} {a : α} {l : List α}
    (h : a∈scanUpTo p l) (ha : p a) : l.find? p=some a := by
  induction l with
  | nil => cases h
  | cons b l ih =>
    unfold scanUpTo at h
    by_cases hb : p b
    · rw [if_pos hb,mem_singleton] at h
      rw [h,find?_cons_of_pos hb]
    rw [if_neg hb] at h
    rw [find?_cons_of_neg hb]
    rcases mem_cons.mp h with rfl | h
    · exact absurd ha hb
    · exact ih h

namespace Driver
variable (d : Driver σ)
def wrongAt (c : ℕ × ℕ) : Bool := (d.lateRow C env c.1 c.2).any fun r => mispredicted r.1 r.2

def promoteCell (d : Driver σ) (c : ℕ × ℕ) : Driver σ :=
  match d.lateRow C env c.1 c.2 with
  | none => d
  | some (_,wire) => { d with ih := d.ih.promote c.1 wire }

def scanned (cells : List (ℕ × ℕ)) : List (ℕ × ℕ) := scanUpTo (d.wrongAt C env) cells

end Driver

/-- The tick was marked as owed between `d` and `d'`, and still is. -/
def MarksOwed (d d' : Driver σ) (t slot : ℕ) : Prop :=
  (∃ pre,d'.log=pre++d.log ∧ .marked t slot∈pre) ∧ d'.owed.get? t=some slot

variable {C env}
theorem mispredicted_eq {published wire : RbFrame} (h : published.isPredicted) :
    Driver.mispredicted published wire=!rowsEqual wire published := by
  unfold Driver.mispredicted RbSession.decideStickReplace
  cases heq : rowsEqual wire published with
  | true => rfl
  | false =>
    have hdiff : Contract.frameGameplayEquals published.toContract wire.toContract=false := by
      by_contra hsame
      simp only [Contract.frameGameplayEquals,RbFrame.toContract,Bool.not_eq_false,
        Bool.and_eq_true,beq_iff_eq] at hsame
      obtain ⟨⟨⟨-,hb⟩,hx⟩,hy⟩ := hsame
      simp [rowsEqual,hb,hx,hy] at heq
    rw [Contract.stickReplaceDecide_predicted _ h,hdiff]
    rfl

namespace Driver
variable {d : Driver σ} {slot t : ℕ} {published wire : RbFrame}
theorem lateRow_some (h : d.lateRow C env slot t=some (published,wire)) :
    d.ih.get slot t=some published ∧ published.isPredicted ∧
      wire.tick=t ∧ wire.isValid ∧ wire.isPredicted=false := by
  unfold lateRow at h
  split at h
  · cases h
  next row hrow =>
  obtain ⟨sample,-,hpair⟩ := Option.map_eq_some_iff.mp h
  obtain ⟨hget,hpred⟩ := Option.filter_eq_some_iff.mp hrow
  cases hpair
  exact ⟨hget,hpred,rfl,rfl,rfl⟩

theorem lateRow_none {row : RbFrame} (h : d.ih.get slot t=some row)
    (hreal : row.isPredicted=false) : d.lateRow C env slot t=none := by
  unfold lateRow
  rw [h]
  simp [Option.filter,hreal]

theorem lateRow_congr {d' : Driver σ} (h : d'.ih.get slot t=d.ih.get slot t) :
    d'.lateRow C env slot t=d.lateRow C env slot t := by
  unfold lateRow
  rw [h]

theorem wrongAt_of_late (h : d.lateRow C env slot t=some (published,wire)) :
    d.wrongAt C env (slot,t)=!rowsEqual wire published := by
  unfold wrongAt
  rw [h]
  exact mispredicted_eq (lateRow_some h).2.1

theorem promoteCell_get_self (h : d.lateRow C env slot t=some (published,wire)) :
    (promoteCell C env d (slot,t)).ih.get slot t=some wire := by
  obtain ⟨hget,-,htick,hvalid,hreal⟩ := lateRow_some h
  unfold promoteCell
  rw [h]
  change (d.ih.promote slot wire).get slot t=some wire
  rw [InputHist.promote_eq_put _ _ hvalid hreal,← htick]
  exact InputHist.get_put_self hvalid (InputHist.get_lt hget)

variable {c : ℕ × ℕ}
theorem promoteCell_get_of_ne (hne : (slot,t)≠c) :
    (promoteCell C env d c).ih.get slot t=d.ih.get slot t := by
  unfold promoteCell
  split
  · rfl
  next row wire h =>
  obtain ⟨hget,-,htick,hvalid,hreal⟩ := lateRow_some h
  change (d.ih.promote c.1 wire).get slot t=d.ih.get slot t
  rw [InputHist.promote_eq_put _ _ hvalid hreal]
  rw [← htick] at hget
  exact InputHist.get_put_of_held hget (by rwa [htick])

theorem promoteCell_lateRow (c : ℕ × ℕ) : (promoteCell C env d c).lateRow C env slot t =
    if (slot,t)=c then none else d.lateRow C env slot t := by
  split
  · next heq =>
    subst heq
    cases h : d.lateRow C env slot t with
    | none =>
      unfold promoteCell
      rw [h]
      exact h
    | some r => exact lateRow_none (promoteCell_get_self h) (lateRow_some h).2.2.2.2
  · next hne => exact lateRow_congr (promoteCell_get_of_ne hne)

theorem promoteCell_wrongAt (h : d.wrongAt C env c=false) :
    (promoteCell C env d c).wrongAt C env=d.wrongAt C env := by
  funext c'
  unfold wrongAt
  rw [promoteCell_lateRow]
  split
  · next heq =>
    have heq : c'=c := heq
    rw [heq]
    exact h.symm
  · rfl

theorem promoteAll_get (cells : List (ℕ × ℕ)) (d : Driver σ) :
    (cells.foldl (promoteCell C env) d).ih.get slot t=match d.lateRow C env slot t with
      | some (_,wire) => if (slot,t)∈cells then some wire else d.ih.get slot t
      | none => d.ih.get slot t := by
  induction cells generalizing d with
  | nil => cases d.lateRow C env slot t <;> simp
  | cons c cells ih =>
    rw [foldl_cons,ih,promoteCell_lateRow]
    by_cases heq : (slot,t)=c
    · subst heq
      rw [if_pos rfl]
      cases h : d.lateRow C env slot t with
      | none =>
        unfold promoteCell
        rw [h]
      | some r =>
        obtain ⟨row,wire⟩ := r
        simp [promoteCell_get_self h]
    · rw [if_neg heq,promoteCell_get_of_ne heq]
      simp [heq]

theorem promoteAll_rest (env : PollInput) (cells : List (ℕ × ℕ)) (d : Driver σ) :
    ∃ ih,cells.foldl (promoteCell C env) d={ d with ih } := by
  induction cells generalizing d with
  | nil => exact ⟨d.ih,rfl⟩
  | cons c cells ih =>
    obtain ⟨next,hnext⟩ : ∃ next,promoteCell C env d c={ d with ih := next } := by
      unfold promoteCell
      split
      · exact ⟨d.ih,rfl⟩
      · exact ⟨_,rfl⟩
    rw [foldl_cons,hnext]
    exact ih _

theorem reconcileScan_eq (cells : List (ℕ × ℕ)) (d : Driver σ) : d.reconcileScan C env cells =
      match cells.find? (d.wrongAt C env) with
      | none => (d.scanned C env cells).foldl (promoteCell C env) d
      | some c => (((d.scanned C env cells).foldl (promoteCell C env) d).owedMark c.2 c.1).correct C
          env.toView c.2 c.1 := by
  induction cells generalizing d with
  | nil => rfl
  | cons c cells ih =>
    obtain ⟨slot,t⟩ := c
    have hstep : d.reconcileScan C env ((slot,t)::cells)=if d.wrongAt C env (slot,t) then
          ((promoteCell C env d (slot,t)).owedMark t slot).correct C env.toView t slot
        else (promoteCell C env d (slot,t)).reconcileScan C env cells := by
      rw [reconcileScan]
      unfold wrongAt promoteCell
      cases d.lateRow C env slot t with
      | none | some => rfl
    rw [hstep]
    unfold scanned scanUpTo
    by_cases hw : d.wrongAt C env (slot,t)
    · rw [if_pos hw,if_pos hw,find?_cons_of_pos hw]
      rfl
    rw [if_neg hw,if_neg hw,find?_cons_of_neg hw,ih,promoteCell_wrongAt (by simpa using hw)]
    unfold scanned
    rw [promoteCell_wrongAt (by simpa using hw)]
    rfl

variable {cells : List (ℕ × ℕ)}
theorem reconcileScan_marks (hmem : (slot,t)∈d.scanned C env cells)
    (hlate : d.lateRow C env slot t=some (published,wire)) :
    MarksOwed d (d.reconcileScan C env cells) t slot ↔ rowsEqual wire published=false := by
  have hwrong:=wrongAt_of_late hlate
  obtain ⟨ih,hih⟩ := promoteAll_rest (C := C) env (d.scanned C env cells) d
  rw [reconcileScan_eq,hih]
  constructor
  · rintro ⟨⟨pre,hlog,hpre⟩,-⟩
    cases hf : cells.find? (d.wrongAt C env) with
    | none =>
      rw [hf] at hlog
      have hnil : pre=[] := append_left_eq_self.mp hlog.symm
      rw [hnil] at hpre
      cases hpre
    | some c =>
      rw [hf] at hlog
      obtain ⟨l,hl,hok⟩ := (correct_frame (C := C) (v := env.toView)
        ({ d with ih }.owedMark c.2 c.1) c.2 c.1).log
      have hsplit : pre=l++[.marked c.2 c.1] := by
        have hall : l++.marked c.2 c.1::d.log=pre++d.log := hl.symm.trans hlog
        rw [show l++.marked c.2 c.1::d.log=(l++[.marked c.2 c.1])++d.log by simp] at hall
        exact (append_cancel_right hall).symm
      rw [hsplit] at hpre
      rcases mem_append.mp hpre with hin | hin
      · exact absurd (hok _ hin) (by simp [Event.opening,Event.calm,Event.isOpened])
      have hc : (slot,t)=c := by
        simp only [mem_singleton,Event.marked.injEq] at hin
        exact Prod.ext hin.2 hin.1
      have hp:=find?_some hf
      rw [← hc,hwrong] at hp
      simpa using hp
  · intro hdiff
    have hf : cells.find? (d.wrongAt C env)=some (slot,t) :=
      find?_of_mem_scanUpTo hmem (by rw [hwrong,hdiff]; rfl)
    rw [hf]
    have hframe:=correct_frame (C := C) (v := env.toView) ({ d with ih }.owedMark t slot) t slot
    obtain ⟨l,hl,-⟩ := hframe.log
    refine ⟨⟨l++[.marked t slot],?_,by simp⟩,?_⟩
    · rw [append_assoc]
      exact hl
    · change (correct C env.toView ({ d with ih }.owedMark t slot) t slot).owed.get? t=some slot
      rw [hframe.owed]
      exact TickRing.get?_store_self ..

theorem reconcileScan_get (hne : slot≠localSlot C) : (d.reconcileScan C env cells).ih.get slot t =
      ((d.scanned C env cells).foldl (promoteCell C env) d).ih.get slot t := by
  rw [reconcileScan_eq]
  split
  · rfl
  · exact (correct_frame _ _ _).rows slot t hne

end Driver

open Driver in
/-- **What reconcile accepts.** A late row is left for the next pass or promoted. -/
theorem reconcile_accepts {d : Driver σ} {slot t : ℕ} {published wire : RbFrame}
    (hcell : (slot,t)∈d.reconcileCells C)
    (hlate : d.lateRow C env slot t=some (published,wire)) :
    ((d.reconcileWire C env).ih.get slot t=some published ∨
      (d.reconcileWire C env).ih.get slot t=some wire) ∧
    ((d.reconcileWire C env).ih.get slot t=some wire →
      ((padsEqual published wire=false → MarksOwed d (d.reconcileWire C env) t slot) ↔
        ¬ (padsEqual published wire=false ∧ rowsEqual published wire=true))) := by
  obtain ⟨hget,hpred,-,-,hreal⟩ := lateRow_some hlate
  have hneq : published≠wire := fun h => by rw [h,hreal] at hpred; cases hpred
  have hremote : slot≠localSlot C := (reconcileCells_mem hcell).2.1
  unfold reconcileWire
  split
  · next u s _ =>
    have hkeep : (d.owedRetry C env.toView u s).ih.get slot t=some published :=
      (owedRetry_rows d u s slot t hremote).trans hget
    rw [hkeep]
    exact ⟨.inl rfl,fun h => absurd (Option.some.inj h) hneq⟩
  rw [reconcileScan_get hremote,promoteAll_get,hlate]
  dsimp only
  by_cases hmem : (slot,t)∈d.scanned C env (d.reconcileCells C)
  · rw [if_pos hmem]
    refine ⟨.inr rfl,fun _ => ?_⟩
    have hmarks:=reconcileScan_marks hmem hlate
    have hsymm : rowsEqual wire published=rowsEqual published wire := by
      unfold rowsEqual
      rw [Bool.beq_comm (a := wire.buttons),Bool.beq_comm (a := wire.stickX),
        Bool.beq_comm (a := wire.stickY)]
    rw [hmarks,hsymm]
    cases rowsEqual published wire <;> simp [padsEqual]
  · rw [if_neg hmem,hget]
    exact ⟨.inl rfl,fun h => absurd (Option.some.inj h) hneq⟩

def predictedOne : RbFrame := ⟨1,0,0,0,true,true,0,0,0⟩

theorem reconcile_accepts_button : ∃ d,Reachable (duel 1 2) d ∧
    (0,1)∈d.reconcileCells (duel 1 2) ∧
    d.lateRow (duel 1 2) (plainPoll 30 4 [] (tickOneRow 1 0)) 0 1 =
      some (predictedOne,⟨1,1,0,0,false,true,0,0,0⟩) ∧
    MarksOwed d (d.reconcileWire (duel 1 2) (plainPoll 30 4 [] (tickOneRow 1 0))) 1 0 := by
  obtain ⟨d,hd,hcell,hlate,hget⟩ : ∃ d,Reachable (duel 1 2) d ∧
      (0,1)∈d.reconcileCells (duel 1 2) ∧
      d.lateRow (duel 1 2) (plainPoll 30 4 [] (tickOneRow 1 0)) 0 1 =
        some (predictedOne,⟨1,1,0,0,false,true,0,0,0⟩) ∧
      (d.reconcileWire (duel 1 2) (plainPoll 30 4 [] (tickOneRow 1 0))).ih.get 0 1 =
        some ⟨1,1,0,0,false,true,0,0,0⟩ := reachable_play [] twoTicks (by decide +kernel)
  exact ⟨d,hd,hcell,hlate,((reconcile_accepts hcell hlate).2 hget).mpr (by decide) (by decide)⟩

def Event.isMarked : Event → Bool
  | .marked .. => true
  | _ => false

theorem analog_accepted_silently : ∃ d d',Reachable (duel 1 2) d ∧
    (0,1)∈d.reconcileCells (duel 1 2) ∧
    d.lateRow (duel 1 2) (plainPoll 30 4 [] (tickOneRow 0 5)) 0 1 =
      some (predictedOne,⟨1,0,0,0,false,true,5,0,0⟩) ∧
    padsEqual predictedOne ⟨1,0,0,0,false,true,5,0,0⟩=false ∧
    d.call (duel 1 2) (.poll (plainPoll 30 4 [] (tickOneRow 0 5)))=some d' ∧
    d'.ih.get 0 1=some ⟨1,0,0,0,false,true,5,0,0⟩ ∧
    (∀ e∈d'.log,e.isMarked=false) ∧ d'.owedFirst=none ∧ ∀ e∈d'.log,e.isOpened=false := by
  obtain ⟨d,hd,hcell,hlate,hcall⟩ : ∃ d,Reachable (duel 1 2) d ∧
      (0,1)∈d.reconcileCells (duel 1 2) ∧
      d.lateRow (duel 1 2) (plainPoll 30 4 [] (tickOneRow 0 5)) 0 1 =
        some (predictedOne,⟨1,0,0,0,false,true,5,0,0⟩) ∧
      (d.call (duel 1 2) (.poll (plainPoll 30 4 [] (tickOneRow 0 5)))).map (fun d' => decide
        (d'.ih.get 0 1=some ⟨1,0,0,0,false,true,5,0,0⟩ ∧
          (∀ e∈d'.log,e.isMarked=false) ∧ d'.owedFirst=none ∧
          ∀ e∈d'.log,e.isOpened=false))=some true :=
    reachable_play [] twoTicks (by decide +kernel)
  obtain ⟨d',hd',hsee'⟩ := Option.map_eq_some_iff.mp hcall
  exact ⟨d,d',hd,hcell,hlate,by decide,hd',of_decide_eq_true hsee'⟩

end RecompNet.RbDriver
