import Mathlib.Data.List.FinRange
import RecompNet.Lib.BitMask

/-!
# One handshake across all seats (`rnet_rb_quorum.c`)

A quorum keeps each seat's last reply of one epoch; its view is what the host compares with the
local digests.
-/
namespace RecompNet
open List

/-- `RNET_RB_QUORUM_SEATS`, `RNET_RB_QUORUM_DIGESTS`. -/
def quorumSeats : ℕ := 8
def quorumDigests : ℕ := 4
abbrev Digests := Fin quorumDigests → UInt32

structure RbQuorum where
  expect : BitVec 32
  epoch : UInt32
  seen : BitVec 32
  ready : BitVec 32
  digest : ℕ → Digests

namespace RbQuorum
/-- `rnet_rb_quorum_reset`. -/
def reset (expect : BitVec 32) (epoch : UInt32) : RbQuorum :=
  ⟨expect &&& (BitVec.twoPow 32 quorumSeats-1),epoch,0,0,fun _ _ => 0⟩

/-- A call of `rnet_rb_quorum_note`; `digest` may be NULL. -/
structure Reply where
  seat : ℤ
  epoch : UInt32
  digest : Option Digests
  ready : Bool

def Reply.digests (r : Reply) : Digests := r.digest.getD fun _ => 0

variable (q : RbQuorum)
/-- `rnet_rb_quorum_note`. -/
def note (r : Reply) : RbQuorum × Bool :=
  if r.epoch≠q.epoch ∨ r.seat<0 ∨ (quorumSeats : ℤ) ≤ r.seat then (q,false)
  else
    let bit:=BitVec.twoPow 32 r.seat.toNat
    if q.expect &&& bit=0 then (q,false)
    else
      ({ q with
        digest := Function.update q.digest r.seat.toNat r.digests
        seen := q.seen ||| bit
        ready := if r.ready then q.ready ||| bit else q.ready },true)

def run (rs : List Reply) : RbQuorum := rs.foldl (fun q r => (q.note r).1) q
theorem run_snoc (rs : List Reply) (r : Reply) : q.run (rs++[r])=((q.run rs).note r).1 := by
  simp only [run,foldl_append,foldl_cons,foldl_nil]
def answered (s : ℕ) : Bool := (q.expect &&& q.seen) &&& BitVec.twoPow 32 s≠0

/-- The variables of the inner loop of `rnet_rb_quorum_view`. -/
structure Scan where
  v : UInt32
  agree : Bool
  dissent : Option ℕ

variable (loc : Option Digests)
def scanSeat (first : ℕ) (i : Fin quorumDigests) (c : Scan) (s : ℕ) : Scan :=
  if q.answered s=false then c
  else
    let c:=if q.digest s i≠q.digest first i then
        { c with agree := false,dissent := c.dissent.or (some s) }
      else c
    if loc.any (fun l => q.digest s i≠l i) then { c with v := q.digest s i } else c

def scan (first : ℕ) (dissent : Option ℕ) (i : Fin quorumDigests) : Scan :=
  (List.range quorumSeats).foldl (q.scanSeat loc first i) ⟨q.digest first i,true,dissent⟩

/-- `rnet_rb_quorum_view`. -/
def view : Digests × Option ℕ × Bool :=
  match (List.range quorumSeats).find? q.answered with
  | none => (fun _ => 0,none,false)
  | some first =>
    let dissent:=(List.finRange quorumDigests).foldl
      (fun dissent i => (q.scan loc first dissent i).dissent) none
    (fun i =>
      let c:=q.scan loc first none i
      if c.agree then q.digest first i else c.v,dissent,dissent.isNone)

section Loops
variable {q : RbQuorum} {first : ℕ} {i : Fin quorumDigests} (loc : Option Digests)
theorem scan_agree_iff (l : List ℕ) (c : Scan) :
    ((l.foldl (q.scanSeat loc first i) c).agree=true ↔
      c.agree ∧ ∀ s∈l,q.answered s → q.digest s i=q.digest first i) ∧
    ((l.foldl (q.scanSeat loc first i) c).dissent=none ↔
      c.dissent=none ∧ ∀ s∈l,q.answered s → q.digest s i=q.digest first i) := by
  induction l generalizing c with
  | nil => simp
  | cons s l ih =>
    have hstep : ((q.scanSeat loc first i c s).agree=true ↔
          c.agree ∧ (q.answered s → q.digest s i=q.digest first i)) ∧
        ((q.scanSeat loc first i c s).dissent=none ↔
          c.dissent=none ∧ (q.answered s → q.digest s i=q.digest first i)) := by
      unfold scanSeat
      by_cases ha : q.answered s=false
      · simp [ha]
      by_cases hd : q.digest s i=q.digest first i
      · rw [if_neg ha]
        dsimp only
        rw [if_neg (not_not.mpr hd)]
        split <;> simp [hd]
      rw [if_neg ha]
      dsimp only
      rw [if_pos hd]
      split <;> simp [hd,ha]
    rw [foldl_cons,(ih _).1,(ih _).2,hstep.1,hstep.2,forall_mem_cons,and_assoc,and_assoc]
    exact ⟨Iff.rfl,Iff.rfl⟩

theorem scan_v_iff (loc : Digests) (l : List ℕ) (c : Scan) :
    (l.foldl (q.scanSeat (some loc) first i) c).v=loc i ↔
      c.v=loc i ∧ ∀ s∈l,q.answered s → q.digest s i=loc i := by
  induction l generalizing c with
  | nil => simp
  | cons s l ih =>
    have hstep : (q.scanSeat (some loc) first i c s).v=loc i ↔
        c.v=loc i ∧ (q.answered s → q.digest s i=loc i) := by
      unfold scanSeat
      by_cases ha : q.answered s=false
      · simp [ha]
      by_cases hd : q.digest s i=loc i
      · rw [if_neg ha]
        dsimp only
        rw [if_neg (by simp [hd])]
        split <;> simp [hd]
      rw [if_neg ha]
      dsimp only
      rw [if_pos (by simp [hd])]
      simp [hd,ha]
    rw [foldl_cons,ih,hstep,forall_mem_cons,and_assoc]

theorem dissent_eq_none_iff (is : List (Fin quorumDigests)) (d : Option ℕ) :
    is.foldl (fun dissent i => (q.scan loc first dissent i).dissent) d=none ↔
      d=none ∧ ∀ i∈is,∀ s∈List.range quorumSeats,q.answered s →
        q.digest s i=q.digest first i := by
  induction is generalizing d with
  | nil => simp
  | cons i is ih =>
    rw [foldl_cons,ih,forall_mem_cons,← and_assoc]
    refine and_congr_left' ?_
    exact (scan_agree_iff loc (List.range quorumSeats) _).2

theorem view_spec (q : RbQuorum) (loc : Digests) : ((q.view (some loc)).1=loc ↔
      (∀ s<quorumSeats,q.answered s → q.digest s=loc) ∧
        ((∃ s<quorumSeats,q.answered s) ∨ loc=fun _ => 0)) ∧
    ((q.view (some loc)).2.2 ↔ (∃ s<quorumSeats,q.answered s) ∧
        ∀ s<quorumSeats,∀ r<quorumSeats,q.answered s → q.answered r → q.digest s=q.digest r) := by
  unfold view
  cases hfirst : (List.range quorumSeats).find? q.answered with
  | none =>
    have hno : ∀ s<quorumSeats,¬ q.answered s :=
      fun s hs => List.find?_eq_none.mp hfirst s (mem_range.mpr hs)
    have hex : ¬ ∃ s<quorumSeats,q.answered s := by
      rintro ⟨s,hs,ha⟩
      exact hno s hs ha
    refine ⟨⟨fun h => ⟨fun s hs ha => absurd ha (hno s hs),.inr h.symm⟩,fun h => ?_⟩,?_⟩
    · exact (h.2.resolve_left hex).symm
    · simp [hex]
  | some first =>
    have hans : q.answered first := List.find?_some hfirst
    have hlt : first<quorumSeats := mem_range.mp (mem_of_find?_eq_some hfirst)
    have hex : ∃ s<quorumSeats,q.answered s := ⟨first,hlt,hans⟩
    constructor
    · have hout : ∀ i,(if (q.scan (some loc) first none i).agree then q.digest first i
          else (q.scan (some loc) first none i).v)=loc i ↔
            ∀ s<quorumSeats,q.answered s → q.digest s i=loc i := by
        intro i
        have hagree:=(@scan_agree_iff q first i (some loc)
          (List.range quorumSeats) ⟨q.digest first i,true,none⟩).1
        have hv:=@scan_v_iff q first i loc (List.range quorumSeats) ⟨q.digest first i,true,none⟩
        simp only [mem_range,true_and] at hagree hv
        unfold scan
        split
        · next ha =>
          have hall:=hagree.mp ha
          exact ⟨fun h s hs hs' => (hall s hs hs').trans h,fun h => h first hlt hans⟩
        · rw [hv]
          exact ⟨And.right,fun h => ⟨h first hlt hans,h⟩⟩
      refine ⟨fun h => ⟨fun s hs ha => funext fun i => ?_,.inl hex⟩,fun h => funext fun i => ?_⟩
      · exact (hout i).mp (congrFun h i) s hs ha
      · exact (hout i).mpr fun s hs ha => congrFun (h.1 s hs ha) i
    · dsimp only
      rw [Option.isNone_iff_eq_none,dissent_eq_none_iff]
      simp only [true_and,mem_range,mem_finRange,forall_true_left]
      refine ⟨fun h => ⟨hex,fun s hs r hr hs' hr' => funext fun i => ?_⟩,fun h i s hs ha => ?_⟩
      · exact (h i s hs hs').trans (h i r hr hr').symm
      · exact congrFun (h.2 s hs first hlt ha hans) i

end Loops

def lastReply (epoch : UInt32) (rs : List Reply) (s : ℕ) : Option Digests :=
  rs.foldl (fun last r => if r.epoch=epoch ∧ r.seat=(s : ℤ) then some r.digests else last) none

variable (expect : BitVec 32)

/-- The seat is expected and has been noted; `d` is its last reply. -/
def Reported (epoch : UInt32) (rs : List Reply) (s : ℕ) (d : Digests) : Prop :=
  s<quorumSeats ∧ expect.getLsbD s ∧ lastReply epoch rs s=some d
def Counts (epoch : UInt32) (r : Reply) : Bool :=
  r.epoch=epoch && 0 ≤ r.seat && r.seat<quorumSeats && expect.getLsbD r.seat.toNat

structure Tallied (expect : BitVec 32) (epoch : UInt32) (rs : List Reply) (q : RbQuorum) :
    Prop where
  same : q.epoch=epoch
  mask : ∀ s<quorumSeats,q.expect.getLsbD s=expect.getLsbD s
  seen : ∀ s<quorumSeats,expect.getLsbD s → (q.seen.getLsbD s ↔ (lastReply epoch rs s).isSome)
  digest : ∀ s d,Reported expect epoch rs s d → q.digest s=d

theorem tallied_reset (epoch : UInt32) : Tallied expect epoch [] (reset expect epoch) where
  same := rfl
  mask := by
    have hones : ∀ s<quorumSeats,(BitVec.twoPow 32 quorumSeats-1).getLsbD s := by decide
    intro s hs
    rw [reset,BitVec.getLsbD_and,hones s hs,Bool.and_true]
  seen := by simp [reset,lastReply]
  digest := by
    rintro s d ⟨-,-,h⟩
    cases h

variable {expect : BitVec 32} {epoch : UInt32} {rs : List Reply} {q : RbQuorum}
theorem note_of_not_counts
    (h : Tallied expect epoch rs q) {r : Reply} (hr : Counts expect epoch r=false) :
    (q.note r).1=q := by
  unfold note
  split
  · rfl
  next hin =>
  push Not at hin
  obtain ⟨hepoch,hpos,hlt⟩ := hin
  have hs : r.seat.toNat<quorumSeats := by omega
  have hbit : q.expect &&& BitVec.twoPow 32 r.seat.toNat=0 := by
    rw [BitVec.and_twoPow_eq_zero (by unfold quorumSeats at hs; omega),h.mask _ hs]
    simpa [Counts,hepoch.trans h.same,hpos,hlt] using hr
  dsimp only
  rw [if_pos hbit]

theorem Tallied.note (h : Tallied expect epoch rs q) (r : Reply) :
    Tallied expect epoch (rs++[r]) (q.note r).1 := by
  have hlast : ∀ s : ℕ,lastReply epoch (rs++[r]) s =
      if r.epoch=epoch ∧ r.seat=(s : ℤ) then some r.digests else lastReply epoch rs s := by
    intro s
    simp only [lastReply,foldl_append,foldl_cons,foldl_nil]
  by_cases hc : Counts expect epoch r
  · simp only [Counts,Bool.and_eq_true,decide_eq_true_eq] at hc
    obtain ⟨⟨⟨hepoch,hpos⟩,hlt⟩,hbit⟩ := hc
    have hs : r.seat.toNat<quorumSeats := by omega
    have h32 : r.seat.toNat<32 := by unfold quorumSeats at hs; omega
    have hin : ¬ (q.expect &&& BitVec.twoPow 32 r.seat.toNat=0) := by
      rw [BitVec.and_twoPow_eq_zero h32,h.mask _ hs,hbit]
      exact Bool.false_ne_true.symm
    have hok : ¬ (r.epoch≠q.epoch ∨ r.seat<0 ∨ (quorumSeats : ℤ) ≤ r.seat) := by
      rw [h.same]
      rintro (hne | hneg | hge)
      · exact hne hepoch
      · omega
      · omega
    unfold RbQuorum.note
    rw [if_neg hok]
    dsimp only
    rw [if_neg hin]
    refine ⟨h.same,h.mask,fun s hs' he => ?_,?_⟩
    · rw [BitVec.getLsbD_or_twoPow h32,hlast]
      by_cases heq : r.seat=(s : ℤ)
      · simp [hepoch,heq]
      · have hne : r.seat.toNat≠s := by omega
        simp [heq,hne,h.seen s hs' he]
    · rintro s d ⟨hs',he,hd⟩
      rw [hlast] at hd
      by_cases heq : r.seat=(s : ℤ)
      · rw [if_pos ⟨hepoch,heq⟩] at hd
        have hto : r.seat.toNat=s := by omega
        dsimp only
        rw [hto,Function.update_self]
        exact Option.some.inj hd
      rw [if_neg fun hno => heq hno.2] at hd
      have hne : s≠r.seat.toNat := by omega
      dsimp only
      rw [Function.update_of_ne hne]
      exact h.digest s d ⟨hs',he,hd⟩
  · rw [note_of_not_counts h (by simpa using hc)]
    have hsame : ∀ s<quorumSeats,expect.getLsbD s →
        lastReply epoch (rs++[r]) s=lastReply epoch rs s := by
      intro s hs he
      rw [hlast,if_neg]
      rintro ⟨hepoch,hseat⟩
      refine hc ?_
      have hto : r.seat.toNat=s := by omega
      simp [Counts,hepoch,hto,he]
      omega
    refine ⟨h.same,h.mask,fun s hs he => ?_,?_⟩
    · rw [hsame s hs he]
      exact h.seen s hs he
    · rintro s d ⟨hs,he,hd⟩
      rw [hsame s hs he] at hd
      exact h.digest s d ⟨hs,he,hd⟩

theorem tallied_run (expect : BitVec 32) (epoch : UInt32) (rs : List Reply) :
    Tallied expect epoch rs ((reset expect epoch).run rs) := by
  induction rs using List.reverseRecOn with
  | nil => exact tallied_reset expect epoch
  | append_singleton rs r ih =>
    rw [run_snoc]
    exact ih.note r

theorem run_filter (expect : BitVec 32) (epoch : UInt32) (rs : List Reply) :
    (reset expect epoch).run rs=(reset expect epoch).run (rs.filter (Counts expect epoch)) := by
  induction rs using List.reverseRecOn with
  | nil => rfl
  | append_singleton rs r ih =>
    rw [run_snoc,filter_append]
    by_cases hc : Counts expect epoch r
    · rw [filter_cons_of_pos hc,filter_nil,run_snoc,ih]
    · rw [filter_cons_of_neg hc,filter_nil,append_nil,← ih]
      exact note_of_not_counts (tallied_run expect epoch rs) (by simpa using hc)

theorem Tallied.answered_iff (h : Tallied expect epoch rs q) {s : ℕ} (hs : s<quorumSeats) :
    q.answered s ↔ ∃ d,Reported expect epoch rs s d := by
  have h32 : s<32 := by unfold quorumSeats at hs; omega
  have hbit : q.answered s ↔ expect.getLsbD s ∧ q.seen.getLsbD s := by
    rw [answered,decide_eq_true_eq,ne_eq,BitVec.and_twoPow_eq_zero h32,BitVec.getLsbD_and,
      h.mask s hs,Bool.not_eq_false,Bool.and_eq_true]
  rw [hbit]
  constructor
  · rintro ⟨he,hseen⟩
    obtain ⟨d,hd⟩ := Option.isSome_iff_exists.mp ((h.seen s hs he).mp hseen)
    exact ⟨d,hs,he,hd⟩
  · rintro ⟨d,-,he,hd⟩
    exact ⟨he,(h.seen s hs he).mpr (by rw [hd]; rfl)⟩

/-- A view shows the local digests exactly where no seat that counts dissents. -/
theorem view_masks_no_dissenter (expect : BitVec 32) (epoch : UInt32) (rs : List Reply)
    (loc : Digests) :
    let q:=(reset expect epoch).run rs
    ((q.view (some loc)).1=loc ↔ (∀ s d,Reported expect epoch rs s d → d=loc) ∧
      ((∃ s d,Reported expect epoch rs s d) ∨ loc=fun _ => 0)) ∧
    q=(reset expect epoch).run (rs.filter (Counts expect epoch)) ∧
    ((q.view (some loc)).2.2=true ↔ (∃ s d,Reported expect epoch rs s d) ∧
      ∀ s d r d',Reported expect epoch rs s d → Reported expect epoch rs r d' → d=d') := by
  intro q
  have ht : Tallied expect epoch rs q := tallied_run expect epoch rs
  have hex : (∃ s<quorumSeats,q.answered s=true) ↔ ∃ s d,Reported expect epoch rs s d := by
    constructor
    · rintro ⟨s,hs,ha⟩
      exact ⟨s,(ht.answered_iff hs).mp ha⟩
    · rintro ⟨s,d,hr⟩
      exact ⟨s,hr.1,(ht.answered_iff hr.1).mpr ⟨d,hr⟩⟩
  obtain ⟨hview,hret⟩ := view_spec q loc
  refine ⟨?_,run_filter expect epoch rs,?_⟩
  · rw [hview,hex]
    refine and_congr_left' ⟨fun h s d hr => ?_,fun h s hs ha => ?_⟩
    · exact (ht.digest s d hr).symm.trans (h s hr.1 ((ht.answered_iff hr.1).mpr ⟨d,hr⟩))
    · obtain ⟨d,hr⟩ := (ht.answered_iff hs).mp ha
      exact (ht.digest s d hr).trans (h s d hr)
  · rw [hret,hex]
    refine and_congr_right' ⟨fun h s d r d' hs hr => ?_,fun h s hs r hr ha hb => ?_⟩
    · rw [← ht.digest s d hs,← ht.digest r d' hr]
      exact h s hs.1 r hr.1 ((ht.answered_iff hs.1).mpr ⟨d,hs⟩) ((ht.answered_iff hr.1).mpr ⟨d',hr⟩)
    · obtain ⟨d,hd⟩ := (ht.answered_iff hs).mp ha
      obtain ⟨d',hd'⟩ := (ht.answered_iff hr).mp hb
      rw [ht.digest s d hd,ht.digest r d' hd']
      exact h s d r d' hd hd'

theorem empty_view_differs :
    (∀ s d,Reported 6 9 [] s d → d=fun _ => 1) ∧
      (((reset 6 9).run []).view (some fun _ => 1)).1≠fun _ => 1 := by
  refine ⟨?_,fun h => absurd (congrFun h ⟨0,by decide⟩) (by decide)⟩
  rintro s d ⟨-,-,h⟩
  cases h

end RbQuorum
end RecompNet
