import RecompNet.Transport.PeerLearning
import Mathlib.Data.List.ReduceOption

/-!
# What the link simulator hands on (`rnet_netsim.c`)
-/
namespace RecompNet.Transport
open List
variable {ι : Type}
theorem perm_set {α : Type} {o : Option α} : ∀ {l : List (Option α)} {i : ℕ},l[i]? = some o →
    ∀ o' : Option α,o.toList++(l.set i o').reduceOption ~ o'.toList++l.reduceOption
  | a::l,0,h,o' => by
    obtain rfl : a=o := Option.some.inj h
    cases a <;> cases o' <;> simp [reduceOption_cons_of_some,Perm.swap]
  | a::l,i+1,h,o' => by
    have ih:=perm_set (l := l) h o'
    cases a with
    | none => exact ih
    | some x => exact perm_middle.trans ((ih.cons x).trans perm_middle.symm)

namespace NetSim
variable (sim : NetSim ι) (now : ℕ)
/-- The datagrams held back. -/
def flight : List (Datagram ι) := sim.slot.reduceOption.map Held.datagram

theorem hold_flight (d : Datagram ι) : let h:=sim.hold now d
    h.2.lossPct=sim.lossPct ∧ (h.2.flight=sim.flight ∧ (h.1 → 0<sim.lossPct) ∨
      h.1 ∧ h.2.flight ~ d::sim.flight) := by
  have hloss : sim.loses.2.lossPct=sim.lossPct ∧ (sim.loses.1 → 0<sim.lossPct) := by
    unfold loses
    split <;> simp_all [rand]
  have hdelay : ∀ s : NetSim ι,s.delay.2.lossPct=s.lossPct := by
    intro s
    unfold delay
    split <;> rfl
  have hsame : sim.loses.2.flight=sim.flight := by rw [flight,loses_slot,flight]
  unfold hold
  split
  · exact ⟨rfl,.inl ⟨rfl,nofun⟩⟩
  dsimp only
  split
  next hl => exact ⟨hloss.1,.inl ⟨hsame,fun _ => hloss.2 hl⟩⟩
  split
  · exact ⟨hloss.1,.inl ⟨hsame,nofun⟩⟩
  next i hi =>
  refine ⟨(hdelay _).trans hloss.1,.inr ⟨rfl,?_⟩⟩
  rw [loses_slot] at hi
  obtain ⟨hlt,hfree,-⟩ := findIdx?_eq_some_iff_getElem.mp hi
  have hnone : sim.slot[i]? = some none := by
    rw [getElem?_eq_getElem hlt,Option.isNone_iff_eq_none.mp hfree]
  simp only [flight,delay_slot,loses_slot]
  exact (perm_set hnone (some _)).map Held.datagram

theorem due_flight : (sim.due now).2.lossPct=sim.lossPct ∧
    (sim.due now).1.toList++(sim.due now).2.flight ~ sim.flight := by
  unfold due
  split
  · exact ⟨rfl,.rfl⟩
  next b hb =>
  rcases better_mem hb with hnone | ⟨e,he,h,hentry,hfound⟩
  · cases hnone
  have hat : sim.slot[e.2]? = some (some h) := by
    rw [← hentry]
    exact mem_zipIdx_iff_getElem?.mp he
  obtain rfl : b=(h,e.2) := Option.some.inj hfound
  exact ⟨rfl,(perm_set hat none).map Held.datagram⟩

end NetSim

structure SimRun (ι : Type) where
  sim : NetSim ι
  offered : List (Datagram ι)
  handed : List (Datagram ι)

inductive SimCall (ι : Type)
  | hold (now : ℕ) (d : Datagram ι)
  | due (now : ℕ)

namespace SimRun
/-- A datagram that `rnet_netsim_hold` refuses is delivered at once. -/
def step (r : SimRun ι) : SimCall ι → SimRun ι
  | .hold now d =>
    let h:=r.sim.hold now d
    ⟨h.2,d::r.offered,if h.1 then r.handed else d::r.handed⟩
  | .due now =>
    let out:=r.sim.due now
    ⟨out.2,r.offered,out.1.toList++r.handed⟩

def Conserved (loss : UInt32) (r : SimRun ι) : Prop :=
  r.sim.lossPct=loss ∧ ∃ lost,(loss=0 → lost=[]) ∧ lost++(r.handed++r.sim.flight) ~ r.offered

theorem step_conserved {loss : UInt32} {r : SimRun ι} (c : SimCall ι) (h : r.Conserved loss) :
    (r.step c).Conserved loss := by
  obtain ⟨hloss,lost,hnone,hperm⟩ := h
  cases c with
  | hold now d =>
    obtain ⟨hsame,hcase⟩ := r.sim.hold_flight now d
    refine ⟨hsame.trans hloss,?_⟩
    rcases hcase with ⟨hkept,hlossy⟩ | ⟨hheld,hnew⟩
    · simp only [step,hkept]
      cases hheld : (r.sim.hold now d).1 with
      | true =>
        refine ⟨d::lost,fun h0 => ?_,hperm.cons d⟩
        have hpos:=hlossy hheld
        rw [hloss,h0] at hpos
        exact absurd hpos (by decide)
      | false => exact ⟨lost,hnone,perm_middle.trans (hperm.cons d)⟩
    · simp only [step,hheld,if_true]
      refine ⟨lost,hnone,?_⟩
      calc lost++(r.handed++(r.sim.hold now d).2.flight)
          ~ lost++(r.handed++d::r.sim.flight) := (hnew.append_left _).append_left _
        _ ~ lost++d::(r.handed++r.sim.flight) := perm_middle.append_left _
        _ ~ d::r.offered := perm_middle.trans (hperm.cons d)
  | due now =>
    obtain ⟨hsame,hdue⟩ := r.sim.due_flight now
    refine ⟨hsame.trans hloss,lost,hnone,.trans ?_ hperm⟩
    simp only [step,append_assoc]
    exact ((perm_append_comm_assoc ..).trans (hdue.append_left _)).append_left _

/-- **The simulated link keeps every datagram**: what was offered is handed on, still held or, where
loss was asked for, lost; nothing is doubled or made up. -/
theorem link_conserves {env : SimSettings} {sim : NetSim ι} (h : netsimCreate env=some sim)
    (calls : List (SimCall ι)) : let r:=calls.foldl step ⟨sim,[],[]⟩
    ∃ lost,(env.lossPct=0 → lost=[]) ∧ lost++(r.handed++r.sim.flight) ~ r.offered := by
  have hstart : sim.flight=[] ∧ (env.lossPct=0 → sim.lossPct=0) := by
    unfold netsimCreate at h
    split at h
    · cases h
    split at h <;> cases h
    exact ⟨by simp [NetSim.flight,reduceOption_replicate_none],fun h0 => by rw [h0]; rfl⟩
  obtain ⟨-,lost,hnone,hperm⟩ := calls.foldlRecOn (motive := Conserved sim.lossPct) step
    (b := ⟨sim,[],[]⟩) ⟨rfl,[],fun _ => rfl,by rw [hstart.1]; rfl⟩
    fun r hr c _ => step_conserved c hr
  exact ⟨lost,fun h0 => hnone (hstart.2 h0),hperm⟩

theorem link_conserves_noise : ∃ sim : NetSim ℕ,netsimCreate ⟨5,2,0,1⟩=some sim ∧
    let r:=[.hold 0 Lan.noise,.due 1].foldl step ⟨sim,[],[]⟩
    r.handed++r.sim.flight ~ [Lan.noise] := by
  obtain ⟨sim,hsim⟩ : ∃ sim : NetSim ℕ,netsimCreate ⟨5,2,0,1⟩=some sim := ⟨_,rfl⟩
  obtain ⟨lost,hnone,hperm⟩ := link_conserves hsim [.hold 0 Lan.noise,.due 1]
  obtain rfl:=hnone rfl
  exact ⟨sim,hsim,hperm⟩

end SimRun
end RecompNet.Transport
