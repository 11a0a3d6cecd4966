import RecompNet.Input.Hist

/-!
# The input history as a table

Within a window of `histDepth` ticks the ring of a seat is a table from ticks to rows.
-/
namespace RecompNet
open List

namespace InputHist

/-- The calls that store a row. -/
inductive Op
  | put (slot : ℕ) (f : RbFrame)
  | promote (slot : ℕ) (wire : RbFrame)
  | inventHoldLast (slot tick : ℕ)
  | inventIdle (slot tick : ℕ)

def Op.slot : Op → ℕ
  | .put slot _ | .promote slot _ | .inventHoldLast slot _ | .inventIdle slot _ => slot

def Op.tick : Op → ℕ
  | .put _ f => f.tick
  | .promote _ wire => wire.tick
  | .inventHoldLast _ tick | .inventIdle _ tick => tick

def op (h : InputHist) : Op → InputHist
  | .put slot f => h.put slot f
  | .promote slot wire => h.promote slot wire
  | .inventHoldLast slot tick => ((h.inventHoldLast slot tick).map Prod.snd).getD h
  | .inventIdle slot tick => ((h.inventIdle slot tick).map Prod.snd).getD h

def run (h : InputHist) (ops : List Op) : InputHist := ops.foldl op h

variable (slotCount : ℕ)
def blank (neutral : ℕ → RbFrame) : InputHist :=
  { reset slotCount with neutral }

/-- The ticks of a seat stay within a window. -/
def Close (ops : List Op) : Prop := ∀ a∈ops,∀ b∈ops,a.slot=b.slot → a.tick<b.tick+histDepth

def newestBelow {α : Type} (g : ℕ → Option α) : ℕ → Option α
  | 0 => none
  | t+1 => (g t).or (newestBelow g t)

variable {α : Type}
theorem newestBelow_spec (g : ℕ → Option α) (t : ℕ) : match newestBelow g t with
    | some v => ∃ u<t,g u=some v ∧ ∀ w,u<w → w<t → g w=none
    | none => ∀ u<t,g u=none := by
  induction t with
  | zero => exact fun u hu => absurd hu (Nat.not_lt_zero u)
  | succ t ih =>
    rw [newestBelow]
    cases hg : g t with
    | some v => exact ⟨t,Nat.lt_succ_self t,hg,fun w hlo hhi => by omega⟩
    | none =>
      rw [Option.none_or]
      cases hrest : newestBelow g t with
      | some v =>
        rw [hrest] at ih
        obtain ⟨u,hu,hv,hbetween⟩ := ih
        refine ⟨u,by omega,hv,fun w hlo hhi => ?_⟩
        rcases Nat.lt_succ_iff_lt_or_eq.mp hhi with hlt | rfl
        · exact hbetween w hlo hlt
        · exact hg
      | none =>
        rw [hrest] at ih
        intro u hu
        rcases Nat.lt_succ_iff_lt_or_eq.mp hu with hlt | rfl
        · exact ih u hlt
        · exact hg

variable {g : ℕ → Option α} {t : ℕ}
theorem newestBelow_eq_none (h : ∀ u<t,g u=none) : newestBelow g t=none := by
  induction t with
  | zero => rfl
  | succ t ih =>
    rw [newestBelow,h t (Nat.lt_succ_self t),Option.none_or]
    exact ih fun u hu => h u (Nat.lt_succ_of_lt hu)

variable {n : ℕ}
theorem lookBack_eq (h : ∀ u<t,u+n<t → g u=none) :
    ((List.range n).findSome? fun k => if k+1≤t then g (t-(k+1)) else none)=newestBelow g t := by
  induction n generalizing t with
  | zero => exact (newestBelow_eq_none fun u hu => h u hu hu).symm
  | succ n ih =>
    rw [range_succ_eq_map,findSome?_cons,findSome?_map]
    cases t with
    | zero => simp [newestBelow]
    | succ t =>
      have hrest:=ih (t := t) fun u hu hlt => h u (by omega) (by omega)
      rw [newestBelow,← hrest,if_pos (by omega),Nat.add_sub_add_right,Nat.sub_zero]
      have hshift : ((fun k => if k+1≤t+1 then g (t+1-(k+1)) else none) ∘ Nat.succ) =
          fun k => if k+1≤t then g (t-(k+1)) else none := by
        funext k
        simp only [Function.comp_apply,Nat.succ_eq_add_one,Nat.add_le_add_iff_right,
          Nat.add_sub_add_right]
      rw [hshift]
      cases g t <;> rfl

abbrev Table := ℕ → ℕ → Option RbFrame
def Table.set (m : Table) (slot : ℕ) (f : RbFrame) : Table :=
  fun s t => if s=slot ∧ t=f.tick then some f else m s t

variable (neutral : ℕ → RbFrame)
def Op.row (m : Table) : Op → RbFrame
  | .put _ f => f
  | .promote _ wire => { wire with isPredicted := false }
  | .inventHoldLast slot tick =>
    ((newestBelow (m slot) tick).getD (neutral slot)).withPad tick true true
  | .inventIdle slot tick =>
    { (neutral slot).withPad tick true true with
      analog := ((newestBelow (m slot) tick).map (·.analog)).getD (neutral slot).analog }

def Op.accepted : Op → Bool
  | .put slot f | .promote slot f => f.isValid && slot<slotCount
  | .inventHoldLast slot _ | .inventIdle slot _ => slot<slotCount

def Table.op (neutral : ℕ → RbFrame) (m : Table) (o : Op) : Table :=
  if o.accepted slotCount then m.set o.slot (o.row neutral m) else m
def Table.run (neutral : ℕ → RbFrame) (ops : List Op) : Table :=
  ops.foldl (Table.op slotCount neutral) fun _ _ => none
theorem Op.row_tick (m : Table) (o : Op) : (o.row neutral m).tick=o.tick := by
  cases o <;> rfl

variable {neutral : ℕ → RbFrame} {m : Table} {o : Op}
theorem Op.row_valid (h : o.accepted n) : (o.row neutral m).isValid := by
  cases o with
  | put | promote => exact (Bool.and_eq_true_iff.mp h).1
  | inventHoldLast | inventIdle => rfl

theorem Op.accepted_lt (h : o.accepted n) : o.slot<n := by
  cases o with
  | put | promote => exact of_decide_eq_true (Bool.and_eq_true_iff.mp h).2
  | inventHoldLast | inventIdle => exact of_decide_eq_true h

structure Holds (n : ℕ) (neutral : ℕ → RbFrame) (ops : List Op) (h : InputHist) (m : Table) :
    Prop where
  count : h.slotCount=n
  same : h.neutral=neutral
  get : ∀ slot t,h.get slot t=m slot t
  ticks : ∀ slot t row,m slot t=some row → ∃ o∈ops,o.slot=slot ∧ o.tick=t

variable {h : InputHist}
theorem get_put_close {slot : ℕ} {f : RbFrame} (hv : f.isValid) (hs : slot<h.slotCount)
    (hnear : ∀ t row,h.get slot t=some row → t<f.tick+histDepth ∧ f.tick<t+histDepth)
    (slot' t : ℕ) :
    (h.put slot f).get slot' t=if slot'=slot ∧ t=f.tick then some f else h.get slot' t := by
  by_cases hslot : slot'=slot
  · subst hslot
    by_cases ht : t=f.tick
    · rw [if_pos ⟨rfl,ht⟩,ht,get_put_self hv hs]
    rw [if_neg fun hc => ht hc.2]
    by_cases hm : t%histDepth=f.tick%histDepth
    · -- the cell of another tick of the window is never written
      have hnone : h.get slot' t=none := by
        cases hg : h.get slot' t with
        | none => rfl
        | some row =>
          obtain ⟨hlo,hhi⟩ := hnear t row hg
          rcases Nat.lt_or_gt_of_ne ht with hlt | hgt
          · exact absurd hm.symm (TickRing.mod_ne_of_lt_add hlt hhi)
          · exact absurd hm (TickRing.mod_ne_of_lt_add hgt hlo)
      rw [hnone]
      unfold get put
      simp [hv,hs,TickRing.get?_store,ht,hm]
    · exact get_put_of_mod_ne h f hm
  · rw [if_neg fun hc => hslot hc.1]
    exact get_put_of_slot_ne h f t hslot

variable {ops : List Op}
theorem op_eq_put (hh : Holds n neutral ops h m) (hclose : Close (ops++[o])) :
    h.op o=if o.accepted n then h.put o.slot (o.row neutral m) else h := by
  have hlast : ∀ slot tick,o.slot=slot → o.tick=tick →
      h.lastBefore slot tick=newestBelow (m slot) tick := by
    intro slot tick hslot htick
    have hget : h.get slot=m slot := funext (hh.get slot)
    unfold lastBefore
    rw [hget]
    refine lookBack_eq fun u hu hfar => ?_
    cases hm : m slot u with
    | none => rfl
    | some row =>
      obtain ⟨o',ho',hs',ht'⟩ := hh.ticks slot u row hm
      have hnear:=hclose o (by simp) o' (by simp [ho']) (hslot.trans hs'.symm)
      unfold histDepth at hnear hfar
      omega
  have hcount:=hh.count
  cases o with
  | put slot f =>
    unfold op put Op.accepted
    simp only [hcount,Bool.and_eq_true,decide_eq_true_eq,Op.slot,Op.row]
    by_cases hok : f.isValid ∧ slot<n
    · rw [if_pos hok,if_pos hok]
    · rw [if_neg hok,if_neg hok]
  | promote slot wire =>
    unfold op promote put Op.accepted
    simp only [hcount,Bool.and_eq_true,decide_eq_true_eq,Op.slot,Op.row]
    by_cases hv : wire.isValid
    · by_cases hs : slot<n <;> simp [hv,hs]
    · simp [hv]
  | inventHoldLast slot tick =>
    unfold op inventHoldLast Op.accepted
    simp only [hcount,decide_eq_true_eq,Op.slot,Op.row,hlast slot tick rfl rfl,hh.same]
    by_cases hs : slot<n <;> simp [hs]
  | inventIdle slot tick =>
    unfold op inventIdle Op.accepted
    simp only [hcount,decide_eq_true_eq,Op.slot,Op.row,hlast slot tick rfl rfl,hh.same]
    by_cases hs : slot<n
    · simp only [hs,if_true,Option.map_some,Option.getD_some]
      rfl
    · simp [hs]

theorem Holds.op (hh : Holds n neutral ops h m) (hclose : Close (ops++[o])) :
    Holds n neutral (ops++[o]) (h.op o) (m.op n neutral o) := by
  rw [op_eq_put hh hclose]
  unfold Table.op
  have hold : ∀ slot t row,m slot t=some row → ∃ o'∈ops++[o],o'.slot=slot ∧ o'.tick=t := by
    intro slot t row hm
    obtain ⟨o',ho',hs⟩ := hh.ticks slot t row hm
    exact ⟨o',mem_append_left _ ho',hs⟩
  by_cases hacc : o.accepted n
  · rw [if_pos hacc,if_pos hacc]
    have hs : o.slot<h.slotCount := hh.count ▸ Op.accepted_lt hacc
    have hv : (o.row neutral m).isValid := Op.row_valid hacc
    have hget:=get_put_close (h := h) hv hs fun t row hg => by
      rw [hh.get] at hg
      obtain ⟨o',ho',hslot,htick⟩ := hh.ticks _ _ _ hg
      rw [Op.row_tick,← htick]
      exact ⟨hclose o' (by simp [ho']) o (by simp) hslot,
        hclose o (by simp) o' (by simp [ho']) hslot.symm⟩
    refine ⟨?_,?_,fun slot t => ?_,fun slot t row hm => ?_⟩
    · unfold put
      split <;> exact hh.count
    · unfold put
      split <;> exact hh.same
    · rw [hget,hh.get]
      rfl
    · unfold Table.set at hm
      split at hm
      · next hat => exact ⟨o,by simp,hat.1.symm,(hat.2.trans (Op.row_tick ..)).symm⟩
      · exact hold slot t row hm
  · rw [if_neg hacc,if_neg hacc]
    exact { hh with ticks := hold }

theorem Close.left {more : List Op} (h : Close (ops++more)) : Close ops :=
  fun a ha b hb => h a (mem_append_left _ ha) b (mem_append_left _ hb)

theorem holds_run (neutral : ℕ → RbFrame) (hclose : Close ops) :
    let n:=min (max slotCount 1) maxSlots
    Holds n neutral ops ((blank slotCount neutral).run ops) (Table.run n neutral ops) := by
  intro n
  induction ops using reverseRecOn with
  | nil =>
    refine ⟨rfl,rfl,fun slot t => ?_,fun slot t row h => by cases h⟩
    unfold get
    split <;> rfl
  | append_singleton ops o ih =>
    have h:=(ih hclose.left).op hclose
    rw [run,Table.run,foldl_append,foldl_append]
    exact h

/-- **The history is the table of the last rows stored**, for every run whose ticks stay within the
ring. -/
theorem history_is_last_stored (slotCount : ℕ) (neutral : ℕ → RbFrame) (ops : List Op)
    (hclose : Close ops) :
    let n:=min (max slotCount 1) maxSlots
    let at':=fun ops => ((blank slotCount neutral).run ops).get
    at' ops=Table.run n neutral ops ∧ ∀ pre o post,ops=pre++o::post →
      (∀ slot t,(slot,t)≠(o.slot,o.tick) → at' (pre++[o]) slot t=at' pre slot t) ∧
      (∀ slot wire,o=.promote slot wire → wire.isValid=true → slot<n →
        at' (pre++[o]) slot wire.tick=some { wire with isPredicted := false }) ∧
      ∀ slot t,o=.inventHoldLast slot t → slot<n → ∃ held,
        at' (pre++[o]) slot t=some (held.withPad t true true) ∧
          ((∃ u<t,at' pre slot u=some held ∧ ∀ w,u<w → w<t → at' pre slot w=none) ∨
            (∀ u<t,at' pre slot u=none) ∧ held=neutral slot) := by
  intro n at'
  have hat : ∀ {ops},Close ops → at' ops=Table.run n neutral ops := fun hc =>
    funext fun slot => funext fun t => (holds_run slotCount neutral hc).get slot t
  refine ⟨hat hclose,fun pre o post heq => ?_⟩
  have hc : Close (pre++[o]++post) := by
    rw [append_assoc]
    exact heq ▸ hclose
  have hstep : Table.run n neutral (pre++[o])=(Table.run n neutral pre).op n neutral o := by
    simp only [Table.run,foldl_append,foldl_cons,foldl_nil]
  rw [hat hc.left,hat hc.left.left,hstep]
  refine ⟨fun slot t hne => ?_,fun slot wire ho hv hs => ?_,fun slot t ho hs => ?_⟩
  · unfold Table.op
    split
    · refine if_neg fun hat => hne ?_
      rw [hat.1,hat.2,Op.row_tick]
    · rfl
  · subst ho
    simp [Table.op,Op.accepted,Table.set,Op.row,Op.slot,hv,hs]
  · subst ho
    have hnew:=newestBelow_spec (Table.run n neutral pre slot) t
    refine ⟨(newestBelow (Table.run n neutral pre slot) t).getD (neutral slot),?_,?_⟩
    · simp [Table.op,Op.accepted,Table.set,Op.row,Op.slot,RbFrame.withPad,hs]
    · cases hfound : newestBelow (Table.run n neutral pre slot) t with
      | some row =>
        rw [hfound] at hnew
        exact .inl hnew
      | none =>
        rw [hfound] at hnew
        exact .inr ⟨hnew,rfl⟩

def padAt (tick buttons : ℕ) : RbFrame := ⟨tick,buttons,0,0,false,true,1,0,0⟩
def heldOps : List Op := [.put 0 (padAt 300 5),.inventHoldLast 0 302,.promote 0 (padAt 302 7)]

theorem history_is_last_stored_held : Close heldOps ∧
    ((blank 2 fun _ => .zero).run heldOps).get=Table.run 2 (fun _ => .zero) heldOps := by
  have hclose : Close heldOps := by
    intro a ha b hb
    simp only [heldOps,mem_cons,not_mem_nil,or_false] at ha hb
    rcases ha with rfl | rfl | rfl <;> rcases hb with rfl | rfl | rfl <;> decide
  exact ⟨hclose,(history_is_last_stored 2 (fun _ => .zero) heldOps hclose).1⟩

end InputHist
end RecompNet
