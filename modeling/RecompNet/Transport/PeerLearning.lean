import RecompNet.Transport.Lan

/-!
# Where a session learns its peers' addresses

With a fixed peer nothing is learned.
-/
namespace RecompNet.Transport
open List List.Subset
variable {ι : Type}

namespace NetSim
variable {sim : NetSim ι} {now : ℕ} {d : Datagram ι} {h : Held ι}
theorem loses_slot (sim : NetSim ι) : sim.loses.2.slot=sim.slot := by
  unfold loses
  split <;> rfl

theorem delay_slot (sim : NetSim ι) : sim.delay.2.slot=sim.slot := by
  unfold delay
  split <;> rfl

theorem mem_hold (hm : some h∈(sim.hold now d).2.slot) : some h∈sim.slot ∨ h.datagram=d := by
  unfold hold at hm
  split at hm
  · exact .inl hm
  dsimp only at hm
  split at hm
  · rw [loses_slot] at hm
    exact .inl hm
  split at hm
  · rw [loses_slot] at hm
    exact .inl hm
  simp only [delay_slot,loses_slot] at hm
  rcases mem_or_eq_of_mem_set hm with hold | hnew
  · exact .inl hold
  · exact .inr (by rw [Option.some.inj hnew])

theorem better_mem {l : List (Option (Held ι) × ℕ)} {best b : Option (Held ι × ℕ)}
    (hb : l.foldl (better now) best=b) : b=best ∨ ∃ e∈l,∃ h,e.1=some h ∧ b=some (h,e.2) := by
  induction l generalizing best with
  | nil => exact .inl hb.symm
  | cons e l ih =>
    rcases ih hb with hsame | ⟨e',he',hfound⟩
    · -- the entry at hand is taken or not
      cases hentry : e.1 with
      | none => exact .inl (by rw [hsame,better,hentry])
      | some h =>
        have hcase : better now best e=best ∨ better now best e=some (h,e.2) := by
          simp only [better,hentry]
          split
          · exact .inl rfl
          split
          · exact .inr rfl
          split
          · exact .inr rfl
          · exact .inl rfl
        rcases hcase with hkept | htaken
        · exact .inl (hsame.trans hkept)
        · exact .inr ⟨e,mem_cons_self,h,hentry,hsame.trans htaken⟩
    · exact .inr ⟨e',mem_cons_of_mem _ he',hfound⟩

theorem due_mem {sim' : NetSim ι} (hdue : sim.due now=(some d,sim')) :
    ∃ h,some h∈sim.slot ∧ h.datagram=d := by
  unfold due at hdue
  split at hdue
  · cases hdue
  next b hb =>
  rcases better_mem hb with hnone | ⟨e,he,h,hentry,hfound⟩
  · cases hnone
  refine ⟨h,?_,?_⟩
  · rw [← hentry]
    exact fst_mem_of_mem_zipIdx he
  · cases hdue
    rw [Option.some.inj hfound]

theorem mem_due (hm : some h∈(sim.due now).2.slot) : some h∈sim.slot := by
  unfold due at hm
  split at hm
  · exact hm
  rcases mem_or_eq_of_mem_set hm with hold | hnew
  · exact hold
  · cases hnew

end NetSim

namespace Lan
def Learned (t : Lan ι) (a : ι) : Prop := ∃ e∈t.learned,e.2.src=a

/-- The peer the application configured, or the source of a datagram that gave an address. -/
def Entitled (mode : Mode ι) (t : Lan ι) (a : ι) : Prop := mode=.fixed a ∨ t.Learned a

structure Good (k : Link) (mode : Mode ι) (t : Lan ι) : Prop where
  hub : t.hubMode ↔ mode=.hub
  learned_taken : ∀ e∈t.learned,e.2∈t.taken
  pending_taken : ∀ d,t.pendingPeer=some d → d∈t.taken
  held_taken : ∀ sim,t.netsim=some sim → ∀ h,some h∈sim.slot → h.datagram∈t.taken
  direct : t.hubMode=false → ∀ e∈t.learned,k.accepts e.2.bytes
  filed : t.hubMode → ∀ d∈t.taken,(hubSeat d.bytes).isSome → ∃ e∈t.learned,e.2=d
  seated : t.hubMode → ∀ e∈t.learned,(hubSeat e.2.bytes).isSome
  peer : ∀ a,t.peer=some a → Entitled mode t a
  slots : ∀ i a,t.hubSlot i=some a → Entitled mode t a
  sent : ∀ p∈t.sent,Entitled mode t p.1

structure Records (t t' : Lan ι) : Prop where
  taken : t.taken ⊆ t'.taken
  learned : t.learned <+: t'.learned
  targets : t'.learned=t.learned → t'.targets=t.targets

variable {k : Link} {mode : Mode ι} {t t' t'' : Lan ι} {d : Datagram ι} {a : ι}
theorem Records.refl (t : Lan ι) : Records t t :=
  ⟨List.Subset.refl _,prefix_refl _,fun _ => rfl⟩

theorem Records.trans (h : Records t t') (h' : Records t' t'') : Records t t'' := by
  refine ⟨List.Subset.trans h.taken h'.taken,h.learned.trans h'.learned,fun hsame => ?_⟩
  have hmid : t'.learned=t.learned := by
    have hback : t'.learned <+: t.learned := hsame ▸ h'.learned
    exact hback.eq_of_length_le h.learned.length_le
  rw [h'.targets (hsame.trans hmid.symm),h.targets hmid]

theorem Entitled.mono (h : Entitled mode t a) (hl : t.learned <+: t'.learned) :
    Entitled mode t' a := by
  rcases h with hfixed | ⟨e,he,hsrc⟩
  · exact .inl hfixed
  · exact .inr ⟨e,hl.subset he,hsrc⟩

theorem targets_entitled (g : Good k mode t) (ha : a∈t.targets) : Entitled mode t a := by
  unfold targets at ha
  split at ha
  · obtain ⟨i,_,hi⟩ := mem_filterMap.mp ha
    split at hi
    · cases hi
    · exact g.slots i a hi
  · split at ha
    · exact g.peer a (Option.mem_toList.mp ha)
    · cases ha

theorem start_good (k : Link) (env : SimSettings) (mode : Mode ι) :
    Good k mode (start env mode) where
  hub := by cases mode <;> simp [start]
  learned_taken := forall_mem_nil _
  pending_taken := nofun
  held_taken := by
    intro sim hsim h hh
    change netsimCreate env=some sim at hsim
    unfold netsimCreate at hsim
    split at hsim
    · cases hsim
    split at hsim
    · cases hsim
    · cases hsim
      cases eq_of_mem_replicate hh
  direct := fun _ => forall_mem_nil _
  filed := fun _ => forall_mem_nil _
  seated := fun _ => forall_mem_nil _
  peer := by
    intro a ha
    cases mode with
    | fixed b => exact .inl (congrArg Mode.fixed (Option.some.inj ha))
    | acceptFirst | hub => cases ha
  slots := nofun
  sent := forall_mem_nil _

theorem Good.inbox (g : Good k mode t) (inbox : List (Arrival ι)) :
    Good k mode { t with inbox := inbox } := { g with }

theorem Good.take (g : Good k mode t) {d : Datagram ι}
    (hq : t.hubMode → hubSeat d.bytes=none) (rest : List (Arrival ι)) :
    Good k mode (t.take d rest) where
  hub := g.hub
  learned_taken := fun e he => mem_append_left _ (g.learned_taken e he)
  pending_taken := fun p hp => mem_append_left _ (g.pending_taken p hp)
  held_taken := fun sim hsim h hh => mem_append_left _ (g.held_taken sim hsim h hh)
  direct := g.direct
  filed := by
    intro hon d' hd' hseat
    rcases mem_append.mp hd' with hold | hnew
    · exact g.filed hon d' hold hseat
    · rw [mem_singleton.mp hnew,hq hon] at hseat
      cases hseat
  seated := g.seated
  peer := g.peer
  slots := g.slots
  sent := g.sent

theorem take_records (t : Lan ι) (d : Datagram ι) (rest : List (Arrival ι)) :
    Records t (t.take d rest) := ⟨subset_append_left _ _,prefix_refl _,fun _ => rfl⟩

theorem hubLearn_records (t : Lan ι) (d : Datagram ι) : Records t (t.hubLearn d) := by
  unfold hubLearn
  split
  · refine ⟨refl _,prefix_append _ _,fun hsame => ?_⟩
    have hlen:=congrArg List.length hsame
    simp at hlen
  · exact .refl t

section Forward
variable [DecidableEq ι]
theorem hubLearnAndForward_records (t : Lan ι) (d : Datagram ι) :
    Records t (t.hubLearnAndForward d) := by
  unfold hubLearnAndForward
  split
  · exact .refl t
  · have h:=hubLearn_records t d
    exact ⟨h.taken,h.learned,h.targets⟩

theorem hubForward_slots {p : ι × List UInt8} (hp : p∈t.hubForward d) :
    ∃ i,t.hubSlot i=some p.1 := by
  obtain ⟨i,_,hi⟩ := mem_filterMap.mp hp
  refine ⟨i,?_⟩
  split at hi
  · next a ha =>
    split at hi
    · cases hi
    · cases hi
      exact ha
  · cases hi

theorem length_of_hubSeat {bytes : List UInt8} (h : (hubSeat bytes).isSome) :
    ¬ bytes.length<hubMinPacket := by
  intro hshort
  have hnone : hubSeat bytes=none := by
    unfold hubSeat hubPacketLocalSlot
    rw [if_pos hshort]
  rw [hnone] at h
  cases h

theorem Good.takeHub (g : Good k mode t) (hhub : t.hubMode) (d : Datagram ι)
    (rest : List (Arrival ι)) : Good k mode ((t.take d rest).hubLearnAndForward d) := by
  have hfixed : ∀ a,mode≠.fixed a := by
    intro a ha
    cases ha.symm.trans (g.hub.mp hhub)
  cases hseat : hubSeat d.bytes with
  | none =>
    -- nothing is filed; copies may go to the seats that are known
    have hlearn : (t.take d rest).hubLearn d=t.take d rest := by
      unfold hubLearn
      rw [hseat]
    have hgood : Good k mode (t.take d rest) := g.take (fun _ => hseat) rest
    unfold hubLearnAndForward
    split
    · exact hgood
    rw [hlearn]
    refine { hgood with sent := ?_ }
    intro p hp
    rcases mem_append.mp hp with hold | hcopy
    · exact hgood.sent p hold
    · obtain ⟨i,hi⟩ := hubForward_slots hcopy
      exact hgood.slots i p.1 hi
  | some i =>
    have hseated : (hubSeat d.bytes).isSome := by rw [hseat]; rfl
    have hlong:=length_of_hubSeat hseated
    have hlearn : (t.take d rest).hubLearn d={ t.take d rest with
        hubSlot := Function.update t.hubSlot i (some d.src)
        peerKnown := true
        learned := t.learned++[(some i,d)] } := by
      unfold hubLearn
      rw [hseat]
      rfl
    have hpre : t.learned <+: t.learned++[(some i,d)] := prefix_append _ _
    have hnew : (some i,d)∈t.learned++[(some i,d)] := mem_append_right _ (mem_singleton_self _)
    have hslots : ∀ j a,Function.update t.hubSlot i (some d.src) j=some a →
        ∃ e∈t.learned++[(some i,d)],e.2.src=a := by
      intro j a hj
      by_cases hji : j=i
      · rw [hji,Function.update_self] at hj
        exact ⟨_,hnew,Option.some.inj hj⟩
      rw [Function.update_of_ne hji] at hj
      rcases g.slots j a hj with hf | ⟨e,he,hsrc⟩
      · exact absurd hf (hfixed a)
      · exact ⟨e,hpre.subset he,hsrc⟩
    unfold hubLearnAndForward
    rw [if_neg hlong,hlearn]
    refine ⟨g.hub,?_,?_,?_,?_,?_,?_,?_,?_,?_⟩
    · intro e he
      rcases mem_append.mp he with hold | hlast
      · exact mem_append_left _ (g.learned_taken e hold)
      · rw [mem_singleton.mp hlast]
        exact mem_append_right _ (mem_singleton_self _)
    · exact fun p hp => mem_append_left _ (g.pending_taken p hp)
    · exact fun sim hsim h hh => mem_append_left _ (g.held_taken sim hsim h hh)
    · exact fun hoff => absurd (hhub.symm.trans hoff) nofun
    · intro hon d' hd' hseat'
      rcases mem_append.mp hd' with hold | hlast
      · obtain ⟨e,he,hed⟩ := g.filed hon d' hold hseat'
        exact ⟨e,hpre.subset he,hed⟩
      · exact ⟨_,hnew,(mem_singleton.mp hlast).symm⟩
    · intro hon e he
      rcases mem_append.mp he with hold | hlast
      · exact g.seated hon e hold
      · rw [mem_singleton.mp hlast]
        exact hseated
    · intro a ha
      exact (g.peer a ha).mono hpre
    · exact fun j a hj => .inr (hslots j a hj)
    · intro p hp
      rcases mem_append.mp hp with hold | hcopy
      · exact (g.sent p hold).mono hpre
      · obtain ⟨j,hj⟩ := hubForward_slots hcopy
        exact .inr (hslots j p.1 hj)

structure Received (k : Link) (mode : Mode ι) (t t' : Lan ι) (got : Option (Datagram ι)) :
    Prop where
  good : Good k mode t'
  records : Records t t'
  taken : ∀ d,got=some d → d∈t'.taken

def Raw.datagram : Raw ι → Option (Datagram ι)
  | .got d => some d
  | _ => none

theorem recvFrom_received (inbox : List (Arrival ι)) (g : Good k mode t) :
    Received k mode t (recvFrom inbox t).2 (recvFrom inbox t).1.datagram := by
  induction inbox generalizing t with
  | nil => exact ⟨g.inbox _,⟨refl _,prefix_refl _,fun _ => rfl⟩,nofun⟩
  | cons arrival rest ih =>
    cases arrival with
    | fault => exact ⟨g.inbox _,⟨refl _,prefix_refl _,fun _ => rfl⟩,nofun⟩
    | datagram d =>
      have hlast : d∈(t.take d rest).taken := mem_append_right _ (mem_singleton_self _)
      unfold recvFrom
      cases hhub : t.hubMode with
      | true =>
        rw [if_pos rfl]
        have hfile:=hubLearnAndForward_records (t.take d rest) d
        refine ⟨g.takeHub hhub d rest,(take_records t d rest).trans hfile,?_⟩
        intro d' hd'
        cases hd'
        exact hfile.taken hlast
      | false =>
        rw [if_neg nofun]
        have hquiet : t.hubMode → hubSeat d.bytes=none :=
          fun hon => absurd (hhub.symm.trans hon) nofun
        split
        · refine ⟨g.take hquiet rest,take_records t d rest,?_⟩
          intro d' hd'
          cases hd'
          exact hlast
        · have hrest:=ih (g.take hquiet rest)
          exact ⟨hrest.good,(take_records t d rest).trans hrest.records,hrest.taken⟩

theorem recvRaw_received (g : Good k mode t) :
    Received k mode t t.recvRaw.2 t.recvRaw.1.datagram := recvFrom_received t.inbox g

end Forward

def Drained.datagram : Drained ι → Option (Datagram ι)
  | .undelayed d => some d
  | .dry => none

theorem drain_received [DecidableEq ι] (now fuel : ℕ) {sim : NetSim ι} (g : Good k mode t)
    (hsim : ∀ h,some h∈sim.slot → h.datagram∈t.taken) : let r:=drain now fuel sim t
    Received k mode t r.2.2 r.1.datagram ∧ ∀ h,some h∈r.2.1.slot → h.datagram∈r.2.2.taken := by
  induction fuel generalizing t sim with
  | zero => exact ⟨⟨g,.refl t,nofun⟩,hsim⟩
  | succ fuel ih =>
    have hraw:=recvRaw_received g
    unfold drain
    generalize t.recvRaw=raw at hraw
    obtain ⟨got,t'⟩ := raw
    have hkept : ∀ h,some h∈sim.slot → h.datagram∈t'.taken :=
      fun h hh => hraw.records.taken (hsim h hh)
    cases got with
    | empty | fault => exact ⟨⟨hraw.good,hraw.records,nofun⟩,hkept⟩
    | got d =>
      have hd : d∈t'.taken := hraw.taken d rfl
      have hheld : ∀ h,some h∈(sim.hold now d).2.slot → h.datagram∈t'.taken := by
        intro h hh
        rcases NetSim.mem_hold hh with hold | hnew
        · exact hkept h hold
        · rw [hnew]
          exact hd
      dsimp only
      split
      · exact ⟨⟨hraw.good,hraw.records,nofun⟩,hkept⟩
      generalize sim.hold now d=held at hheld
      obtain ⟨ok,sim'⟩ := held
      cases ok with
      | true =>
        obtain ⟨hrest,hslots⟩ := ih hraw.good hheld
        exact ⟨⟨hrest.good,hraw.records.trans hrest.records,hrest.taken⟩,hslots⟩
      | false =>
        refine ⟨⟨hraw.good,hraw.records,?_⟩,hheld⟩
        intro d' hd'
        cases hd'
        exact hd

theorem Good.notePeer (g : Good k mode t) (hd : d∈t.taken) : Good k mode (t.notePeer d) := by
  unfold Lan.notePeer
  split
  · exact g
  split
  · refine { g with pending_taken := ?_ }
    intro p hp
    cases hp
    exact hd
  · exact g

theorem notePeer_records (t : Lan ι) (d : Datagram ι) : Records t (t.notePeer d) := by
  unfold Lan.notePeer
  split
  · exact .refl t
  split
  · exact ⟨refl _,prefix_refl _,fun _ => rfl⟩
  · exact .refl t

def Pends (t : Lan ι) (d : Datagram ι) : Prop :=
  t.hubMode=false → t.acceptFirstPeer → t.peerKnown=false → t.pendingPeer=some d

theorem notePeer_pends (t : Lan ι) (d : Datagram ι) : Pends (t.notePeer d) d := by
  unfold Lan.notePeer
  split
  · next hhub => exact fun hoff => absurd (hhub.symm.trans hoff) nofun
  split
  · exact fun _ _ _ => rfl
  next hno =>
  intro _ hfirst hknown
  exact absurd ⟨hfirst,by rw [hknown]; rfl⟩ hno

theorem Good.netsim (g : Good k mode t) (hsim : ∀ h,some h∈sim.slot → h.datagram∈t.taken) :
    Good k mode { t with netsim := some sim } := by
  refine { g with held_taken := ?_ }
  intro sim' hsim'
  cases hsim'
  exact hsim

structure Delivers (k : Link) (mode : Mode ι) (t : Lan ι) (r : Option (Datagram ι) × Lan ι) :
    Prop where
  good : Good k mode r.2
  records : Records t r.2
  pends : ∀ d,r.1=some d → Pends r.2 d

theorem Good.deliver (g : Good k mode t') (hr : Records t t') (hd : d∈t'.taken) :
    Delivers k mode t (some d,t'.notePeer d) := by
  refine ⟨g.notePeer hd,hr.trans (notePeer_records t' d),?_⟩
  intro d' hd'
  cases hd'
  exact notePeer_pends t' d

theorem recv_delivers [DecidableEq ι] (now : ℕ) (g : Good k mode t) :
    Delivers k mode t (t.recv now) := by
  unfold recv
  split
  · have hraw:=recvRaw_received g
    generalize t.recvRaw=raw at hraw
    obtain ⟨got,t'⟩ := raw
    cases got with
    | empty | fault => exact ⟨hraw.good,hraw.records,nofun⟩
    | got d =>
      dsimp only
      split
      · exact ⟨hraw.good,hraw.records,nofun⟩
      · exact hraw.good.deliver hraw.records (hraw.taken d rfl)
  · next sim hsim =>
    obtain ⟨hdrain,hslots⟩ := drain_received now (t.inbox.length+1) g (g.held_taken sim hsim)
    generalize drain now (t.inbox.length+1) sim t=r at hdrain hslots
    obtain ⟨out,sim',t'⟩ := r
    have hset : ∀ s : NetSim ι,Records t { t' with netsim := some s } := fun s =>
      ⟨hdrain.records.taken,hdrain.records.learned,hdrain.records.targets⟩
    cases out with
    | undelayed d => exact (hdrain.good.netsim hslots).deliver (hset sim') (hdrain.taken d rfl)
    | dry =>
      have hless : ∀ h,some h∈(sim'.due now).2.slot → h.datagram∈t'.taken :=
        fun h hh => hslots h (NetSim.mem_due hh)
      dsimp only
      cases hdue : sim'.due now with
      | mk got sim'' =>
        rw [hdue] at hless
        cases got with
        | none => exact ⟨hdrain.good.netsim hless,hset sim'',nofun⟩
        | some d =>
          obtain ⟨h,hh,hd⟩ := NetSim.due_mem hdue
          exact (hdrain.good.netsim hless).deliver (hset sim'') (hd ▸ hslots h hh)

theorem Good.acceptPendingPeer (g : Good k mode t) (hp : Pends t d) (hd : k.accepts d.bytes) :
    Good k mode t.acceptPendingPeer ∧ Records t t.acceptPendingPeer := by
  unfold Lan.acceptPendingPeer
  split
  · exact ⟨g,.refl t⟩
  next hopen =>
  simp only [not_or,Bool.not_eq_true,Bool.not_eq_eq_eq_not,Bool.not_true,Bool.not_eq_false] at hopen
  obtain ⟨hhub,hfirst,hknown⟩ := hopen
  rw [hp hhub hfirst hknown]
  have hpre : t.learned <+: t.learned++[(none,d)] := prefix_append _ _
  constructor
  · refine ⟨g.hub,?_,nofun,g.held_taken,?_,?_,?_,?_,?_,?_⟩
    · intro e he
      rcases mem_append.mp he with hold | hlast
      · exact g.learned_taken e hold
      · rw [mem_singleton.mp hlast]
        exact g.pending_taken d (hp hhub hfirst hknown)
    · intro hoff e he
      rcases mem_append.mp he with hold | hlast
      · exact g.direct hoff e hold
      · rw [mem_singleton.mp hlast]
        exact hd
    · exact fun hon => absurd (hhub.symm.trans hon) nofun
    · exact fun hon => absurd (hhub.symm.trans hon) nofun
    · intro a ha
      exact .inr ⟨_,mem_append_right _ (mem_singleton_self _),Option.some.inj ha⟩
    · exact fun i a hi => (g.slots i a hi).mono hpre
    · exact fun p hp => (g.sent p hp).mono hpre
  · refine ⟨refl _,hpre,fun hsame => ?_⟩
    have hlen:=congrArg List.length hsame
    simp at hlen

section Runs
variable [DecidableEq ι]
theorem pumpRecv_good (nows : List ℕ) (g : Good k mode t) :
    Good k mode (t.pumpRecv k nows) ∧ Records t (t.pumpRecv k nows) := by
  induction nows generalizing t with
  | nil => exact ⟨g,.refl t⟩
  | cons now nows ih =>
    have hrecv:=recv_delivers now g
    unfold pumpRecv
    generalize t.recv now=r at hrecv
    obtain ⟨got,t'⟩ := r
    cases got with
    | none => exact ⟨hrecv.good,hrecv.records⟩
    | some d =>
      dsimp only
      split
      · next hd =>
        obtain ⟨hgood,hrec⟩ := hrecv.good.acceptPendingPeer (hrecv.pends d rfl) hd
        obtain ⟨hgood',hrec'⟩ := ih hgood
        exact ⟨hgood',hrecv.records.trans (hrec.trans hrec')⟩
      · obtain ⟨hgood',hrec'⟩ := ih hrecv.good
        exact ⟨hgood',hrecv.records.trans hrec'⟩

theorem step_good (c : Call ι) (g : Good k mode t) :
    Good k mode (t.step k c) ∧ Records t (t.step k c) := by
  cases c with
  | arrive a => exact ⟨g.inbox _,⟨refl _,prefix_refl _,fun _ => rfl⟩⟩
  | pump nows => exact pumpRecv_good nows g
  | send bytes =>
    change Good k mode (t.send bytes) ∧ Records t (t.send bytes)
    unfold send
    split
    · exact ⟨g,.refl t⟩
    refine ⟨{ g with sent := ?_ },⟨refl _,prefix_refl _,fun _ => rfl⟩⟩
    intro p hp
    rcases mem_append.mp hp with hold | hnew
    · exact g.sent p hold
    · obtain ⟨a,ha,rfl⟩ := mem_map.mp hnew
      exact (targets_entitled g ha).mono (prefix_refl _)

theorem run_good (k : Link) (env : SimSettings) (mode : Mode ι) (cs : List (Call ι)) :
    Good k mode (run k env mode cs) := by
  unfold run
  induction cs using List.reverseRecOn with
  | nil => exact start_good k env mode
  | append_singleton cs c ih =>
    rw [foldl_append,foldl_cons,foldl_nil]
    exact (step_good c ih).1

/-- Endpoints are learned from packets that decode exactly where the hub takes no other. -/
theorem learned_decodes_iff (k : Link) (env : SimSettings) (mode : Mode ι) (cs : List (Call ι)) :
    let t:=run k env mode cs
    ((∀ e∈t.learned,k.accepts e.2.bytes=true) ↔
      (mode=.hub → ∀ d∈t.taken,(hubSeat d.bytes).isSome → k.accepts d.bytes=true)) ∧
    (∀ e∈t.learned,e.2∈t.taken) ∧ (∀ p∈t.sent,Entitled mode t p.1) ∧
    ∀ c,(t.step k c).learned=t.learned → (t.step k c).targets=t.targets := by
  intro t
  have g : Good k mode t := run_good k env mode cs
  refine ⟨⟨fun hall hhub d hd hseat => ?_,fun hdec e he => ?_⟩,g.learned_taken,g.sent,
    fun c => (step_good c g).2.targets⟩
  · obtain ⟨e,he,rfl⟩ := g.filed (g.hub.mpr hhub) d hd hseat
    exact hall e he
  · cases hhub : t.hubMode with
    | false => exact g.direct hhub e he
    | true => exact hdec (g.hub.mp hhub) e.2 (g.learned_taken e he) (g.seated hhub e he)

end Runs

def noSim : SimSettings := ⟨0,0,0,0⟩
def matchLink : Link := ⟨7,3⟩
def guestReady : Datagram ℕ := ⟨5,(Proto.encodeReady maxPacket 7 3 1).getD [],by decide +kernel⟩
def noise : Datagram ℕ := ⟨9,[0,0,0,0,0,0,0,0,0,0,1,0,0,0],by decide⟩

theorem noise_takes_seat :
    let before : List (Call ℕ) := [.arrive (.datagram guestReady),.pump [0,0]]
    (run matchLink noSim .hub before).targets=[5] ∧ matchLink.accepts guestReady.bytes=true ∧
    (run matchLink noSim .hub (before++[.arrive (.datagram noise),.pump [0,0]])).targets=[9] ∧
    matchLink.accepts noise.bytes=false := by
  decide +kernel

end Lan
end RecompNet.Transport
