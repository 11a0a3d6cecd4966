import RecompNet.Session.DelayAgreement

/-!
# Delay-sync retransmission with a fixed delay

Seats of a match with one delay and one bundle redundancy, over any loss.
-/
namespace RecompNet.DelaySync
open Function List TickRing Session

/-- A match with one delay and one redundancy, as hosts must configure it. -/
structure FixedRoom (ι : Type) extends DelayRoom ι where
  delay : ℕ
  redundancy : ℕ
  two_le_delay : 2≤delay
  delay_le : delay≤20
  same_delay : ∀ i,(cfg i).inputDelay=delay
  same_redundancy : ∀ i,(cfg i).bundleRedundancy=redundancy

def Event.simTick : Event → ℕ
  | .published _ simTick _ => simTick

namespace FixedRoom
variable {ι : Type}
def Allowed (w : Net ι Session Packet Event) (i : ι) : Call → Prop
  | .advance => ∃ e∈w.log,e.1=i ∧ e.2.simTick=(w.node i).simTick
  | .requestDelayChange _ _ => False
  | _ => True

instance [DecidableEq ι] (w : Net ι Session Packet Event) (i : ι) :
    ∀ c,Decidable (Allowed w i c)
  | .advance => inferInstanceAs (Decidable (∃ e∈w.log,e.1=i ∧ e.2.simTick=_))
  | .requestDelayChange _ _ => inferInstanceAs (Decidable False)
  | .pump .. | .tryAdmit .. | .setGate _ => inferInstanceAs (Decidable True)

def Reach [DecidableEq ι] (room : FixedRoom ι) (w : Net ι Session Packet Event) : Prop :=
  Net.Reach (nodeSpec ι) Allowed room.toDelayRoom.Init w

/-- Session `i` plays a seat. -/
def Seated (room : FixedRoom ι) (i : ι) : Prop := room.seat i < room.slotCount

theorem Seated.player {room : FixedRoom ι} {i : ι} (h : room.Seated i) :
    (room.cfg i).isObserver=false := by
  simp only [Config.isObserver,room.same_slotCount,decide_eq_false_iff_not,not_le]
  exact h

end FixedRoom

structure Know where
  sim : ℕ
  made : ℕ
  confirmed : ℕ → Prop
  admitted : ℕ → Prop

structure OwnRows (delay : ℕ) (n : Know) (ring : InputRing) (running : Bool) : Prop where
  filled : ring.FilledTo n.made
  keys : ring.Holds fun t smp => smp.tick=t
  tip : running → n.made=n.sim+delay ∨ n.made=n.sim+delay+1
  idle : running=false → n.made=0
  confirmed : ∀ T,n.confirmed T → T<n.made
  admitted : n.admitted n.sim → n.made=n.sim+delay+1

structure Alone {ι : Type} (room : FixedRoom ι) (i : ι) (n : Know) (c : Core) : Prop where
  cfg : c.cfg=room.cfg i
  delay : c.delay=room.delay
  pending : c.delayPending=none
  epoch : c.inputEpoch=0
  sim : c.simTick=n.sim
  idle : c.running=false → n.sim=0
  own : room.Seated i → OwnRows room.delay n c.localRing c.running
  confirmed_le : ∀ T,n.confirmed T → T≤n.sim+room.delay
  published : c.published.Holds fun T _ => n.confirmed T
  publishedKept : ∀ T,n.confirmed T → c.published.has T ∨ T+64<n.sim
  admitted : ∀ T,n.admitted T → c.running ∧ T≤n.sim

structure Among {ι : Type} (room : FixedRoom ι) (k : ι → Know) (i : ι) (c : Core) : Prop where
  kept : room.Seated i → ∀ T,(k i).confirmed T → ∀ j,room.Seated j → j≠i →
    (c.remoteRings (room.seat j)).has T ∨ T<(k i).sim ∨ 100 ≤ room.redundancy
  history : ∀ j,room.Seated j → j≠i →
    (c.peerHistory (room.seat j)).Holds fun T _ => (k j).confirmed T
  past : ∀ j,room.Seated j → j≠i → ∀ T<(k i).sim,(k j).confirmed T
  lag : room.Seated i → ∀ j,j≠i → ∀ T<(k j).sim,(k i).confirmed T
  admitted : ∀ T,(k i).admitted T → ∀ j,room.Seated j → j≠i → (k j).confirmed T

structure Tracks {ι : Type} (room : FixedRoom ι) (k : ι → Know) (i : ι) (c : Core) : Prop where
  alone : Alone room i (k i) c
  among : Among room k i c

def Known {ι : Type} (room : FixedRoom ι) (k : ι → Know) : Body → Prop
  | .hello _ _ delay _ => delay=room.delay
  | .start tick => tick=0
  | .input slot _ _ frames _ => slot < room.slotCount → ∀ j,room.seat j=slot →
      ∀ f∈frames,f.tick<(k j).made ∧ f.tick≤(k j).sim+room.delay
  | .delaySync _ _ => False
  | .inputConfirm slot _ T _ => slot < room.slotCount → ∀ j,room.seat j=slot → (k j).confirmed T
  | _ => True

structure Ahead {ι : Type} (room : FixedRoom ι) (i : ι) (k k' : ι → Know) : Prop where
  others : ∀ j,j≠i → k' j=k j
  sim : (k i).sim≤(k' i).sim
  made : (k i).made≤(k' i).made
  confirmed : ∀ T,(k i).confirmed T → (k' i).confirmed T
  admitted : ∀ T,(k i).admitted T → (k' i).admitted T
  past : ∀ j,room.Seated j → j≠i → ∀ T<(k' i).sim,(k j).confirmed T

def fixedFacts {ι : Type} (room : FixedRoom ι) : Net.Facts ι Session Packet Event (ι → Know) where
  grow := Ahead room
  node k i s := Tracks room k i s.core
  msg k m := Known room k m.body
  log k l := ∀ e∈l,(k e.1).admitted e.2.simTick

section Knowledge
variable {ι : Type} {room : FixedRoom ι} {k k' k'' : ι → Know} {i : ι} {c c' : Core}
theorem Ahead.sim_le (h : Ahead room i k k') (j : ι) :
    (k j).sim≤(k' j).sim ∧ (k j).made≤(k' j).made := by
  by_cases hj : j=i
  · subst hj
    exact ⟨h.sim,h.made⟩
  · rw [h.others j hj]
    exact ⟨le_rfl,le_rfl⟩

variable {T : ℕ}
theorem Ahead.confirmed_mono (h : Ahead room i k k') (j : ι) (hT : (k j).confirmed T) :
    (k' j).confirmed T := by
  by_cases hj : j=i
  · subst hj
    exact h.confirmed T hT
  · rwa [h.others j hj]

theorem Ahead.admitted_mono (h : Ahead room i k k') (j : ι) (hT : (k j).admitted T) :
    (k' j).admitted T := by
  by_cases hj : j=i
  · subst hj
    exact h.admitted T hT
  · rwa [h.others j hj]

theorem Tracks.ahead_refl (h : Tracks room k i c) : Ahead room i k k :=
  ⟨fun _ _ => rfl,le_rfl,le_rfl,fun _ h => h,fun _ h => h,h.among.past⟩

theorem Ahead.trans (h : Ahead room i k k') (h' : Ahead room i k' k'') : Ahead room i k k'' where
  others j hj := (h'.others j hj).trans (h.others j hj)
  sim := h.sim.trans h'.sim
  made := h.made.trans h'.made
  confirmed T hT := h'.confirmed T (h.confirmed T hT)
  admitted T hT := h'.admitted T (h.admitted T hT)
  past j hs hj T hT := by
    have := h'.past j hs hj T hT
    rwa [h.others j hj] at this

theorem Known.ahead {b : Body} (hg : Ahead room i k k') (h : Known room k b) : Known room k' b := by
  cases b <;> simp only [Known] at h ⊢
  case hello => exact h
  case start => exact h
  case input slot epoch ackTick frames acks =>
    intro hs j hj f hf
    have h1:=h hs j hj f hf
    have h2:=hg.sim_le j
    omega
  case inputConfirm slot epoch T hash =>
    intro hs j hj
    exact hg.confirmed_mono j (h hs j hj)

theorem fixedFacts_stable : (fixedFacts room).Stable where
  node := by
    intro i j k k' s hji hg h
    have hkj : k' j=k j := hg.others j hji
    refine ⟨by rw [hkj]; exact h.alone,?_,?_,?_,?_,?_⟩
    · rw [hkj]
      exact h.among.kept
    · intro q hq hqj
      exact (h.among.history q hq hqj).mono fun T _ hT => hg.confirmed_mono q hT
    · intro q hq hqj T hT
      rw [hkj] at hT
      exact hg.confirmed_mono q (h.among.past q hq hqj T hT)
    · intro hs q hqj T hT
      rw [hkj]
      by_cases hqi : q=i
      · subst hqi
        exact hg.past j hs hji T hT
      · rw [hg.others q hqi] at hT
        exact h.among.lag hs q hqj T hT
    · intro T hT q hq hqj
      rw [hkj] at hT
      exact hg.confirmed_mono q (h.among.admitted T hT q hq hqj)
  msg := fun hg h => Known.ahead hg h

theorem Tracks.lag_le (h : Tracks room k i c) (hs : room.Seated i) {j : ι} (hj : j≠i) :
    (k j).sim≤(k i).sim+room.delay+1 := by
  cases hsim : (k j).sim with
  | zero => exact Nat.zero_le _
  | succ n =>
    have := h.alone.confirmed_le n (h.among.lag hs j hj n (by omega))
    omega

theorem Tracks.made_le (h : Tracks room k i c) (hs : room.Seated i) :
    (k i).made≤(k i).sim+room.delay+1 := by
  have hown:=h.alone.own hs
  cases hrun : c.running with
  | false => have := hown.idle hrun; omega
  | true => have := hown.tip hrun; omega

variable {n : Know}
theorem Tracks.replace [DecidableEq ι] (h : Tracks room k i c)
    (halone : Alone room i n c') (hsim : (k i).sim≤n.sim) (hmade : (k i).made≤n.made)
    (hconf : ∀ T,(k i).confirmed T → n.confirmed T) (hadm : ∀ T,(k i).admitted T → n.admitted T)
    (hhist : c'.peerHistory=c.peerHistory)
    (hpast : ∀ j,room.Seated j → j≠i → ∀ T<n.sim,(k j).confirmed T)
    (hkept : room.Seated i → ∀ T,n.confirmed T → ∀ j,room.Seated j → j≠i →
      (c'.remoteRings (room.seat j)).has T ∨ T<n.sim ∨ 100 ≤ room.redundancy)
    (hadmitted : ∀ T,n.admitted T → ∀ j,room.Seated j → j≠i → (k j).confirmed T) :
    Ahead room i k (update k i n) ∧ Tracks room (update k i n) i c' := by
  have hself : update k i n i=n := update_self ..
  have hother : ∀ {j},j≠i → update k i n j=k j := fun hj => update_of_ne hj ..
  have hahead : Ahead room i k (update k i n) := by
    refine ⟨fun j hj => hother hj,?_,?_,?_,?_,?_⟩ <;> rw [hself]
    · exact hsim
    · exact hmade
    · exact hconf
    · exact hadm
    · exact hpast
  refine ⟨hahead,by rw [hself]; exact halone,?_,?_,?_,?_,?_⟩
  · rw [hself]
    exact hkept
  · intro j hj hji
    rw [hhist,hother hji]
    exact h.among.history j hj hji
  · intro j hj hji T hT
    rw [hself] at hT
    rw [hother hji]
    exact hpast j hj hji T hT
  · intro hseat j hji T hT
    rw [hother hji] at hT
    rw [hself]
    exact hconf T (h.among.lag hseat j hji T hT)
  · intro T hT j hj hji
    rw [hself] at hT
    rw [hother hji]
    exact hadmitted T hT j hj hji

theorem Tracks.update [DecidableEq ι] (h : Tracks room k i c) (halone : Alone room i n c')
    (hsim : n.sim=(k i).sim) (hmade : (k i).made≤n.made) (hadm : n.admitted=(k i).admitted)
    (hconf : ∀ T,(k i).confirmed T → n.confirmed T) (hrings : c'.remoteRings=c.remoteRings)
    (hhist : c'.peerHistory=c.peerHistory)
    (hkept : room.Seated i → ∀ T,n.confirmed T → (k i).confirmed T ∨
      ∀ j,room.Seated j → j≠i → (c.remoteRings (room.seat j)).has T) :
    Ahead room i k (update k i n) ∧ Tracks room (update k i n) i c' := by
  refine h.replace halone hsim.ge hmade hconf (fun T hT => hadm ▸ hT) hhist
    (hsim ▸ h.among.past) (fun hseat T hT j hj hji => ?_) (hadm ▸ h.among.admitted)
  rw [hrings,hsim]
  rcases hkept hseat T hT with hold | hnew
  · exact h.among.kept hseat T hold j hj hji
  · exact .inl (hnew j hj hji)

end Knowledge

section Effects
variable {ι : Type} {room : FixedRoom ι} {k : ι → Know} {i : ι} {c c' : Core}
  {inp : List Packet} {s s' : Session} {out : List Packet} {rows : List (ℕ × ℕ)}

def Moved (room : FixedRoom ι) (k : ι → Know) (i : ι) (c : Core) (out : List Packet) : Prop :=
  ∃ k',Ahead room i k k' ∧ Tracks room k' i c ∧ ∀ m∈out,Known room k' m.body

theorem Tracks.moved (h : Tracks room k i c) (hout : ∀ m∈out,Known room k m.body) :
    Moved room k i c out := ⟨k,h.ahead_refl,h,hout⟩

theorem Tracks.plain (h : Tracks room k i s.core) {m : Packet} (hm : s.Plain m) :
    Known room k m.body := by
  rcases hm with rfl | rfl | rfl | ⟨p,hp,rfl⟩
  · exact h.alone.delay
  · trivial
  · rfl
  have hnone : s.delayPending=none := h.alone.pending
  rw [hnone] at hp
  cases hp

theorem Tracks.seated (h : Tracks room k i s.core) (ho : s.isObserver=false) : room.Seated i := by
  have hcfg : s.cfg=room.cfg i := h.alone.cfg
  simp only [isObserver,Config.isObserver,hcfg,room.same_slotCount,
    decide_eq_false_iff_not,not_le] at ho
  exact ho

variable {j : ι}
theorem Tracks.sender (h : Tracks room k i s.core) (hlt : s.cfg.wireId < room.slotCount)
    (hj : room.seat j=s.cfg.wireId) : j=i := by
  have hcfg : s.cfg=room.cfg i := h.alone.cfg
  rw [hcfg] at hlt hj
  have hseat:=room.seat_of_wireId hlt
  exact room.seat_unique i j (by rw [← hseat] at hlt; exact hlt) (hj.trans hseat.symm)

theorem Tracks.bundle (h : Tracks room k i s.core) (now : ℕ) :
    ∀ m∈(sendInputBundle now s).2,Known room k m.body := by
  intro m hm
  obtain ⟨ho,lo,tip,ack,acks,fs,hfs,rfl⟩ := mem_sendInputBundle hm
  have hseat:=h.seated ho
  have hown:=h.alone.own hseat
  intro hlt j hj f hf
  obtain rfl := h.sender hlt hj
  obtain ⟨t,smp,hget,rfl⟩ := mem_bundleFrames (hfs f hf)
  have hkey : smp.tick=t := hown.keys t smp hget
  have hmade:=((hown.filled t).mp (Option.isSome_iff_exists.mpr ⟨_,hget⟩)).1
  have hle:=h.made_le hseat
  simp only [wireFrame]
  omega

theorem Tracks.occupied (h : Tracks room k i s.core) (hj : room.Seated j) :
    s.cfg.slotOccupied (room.seat j) := by
  have hcfg : s.cfg=room.cfg i := h.alone.cfg
  have hocc:=room.seat_occupied j hj
  simp only [Config.slotOccupied,hcfg,room.same_slotCount,room.same_mask] at hocc ⊢
  exact hocc

variable {T : ℕ} {wire : ℕ}
theorem has_store_or_behind {ring : TickRing historyLength ℕ} {hash sim delay : ℕ}
    (hin : ring.has T) (hdelay : delay≤20) (hlow : sim≤wire+64)
    (hwire : wire ≤ sim+delay) (hT : T ≤ sim+delay) : (ring.store wire hash).has T ∨ T+64<sim := by
  by_cases hTw : T=wire
  · exact .inl (by simp [hTw,has])
  by_cases hm : T%historyLength=wire%historyLength
  · refine .inr ?_
    rcases Nat.lt_or_gt_of_ne hTw with hlt | hgt
    · have : T+historyLength≤wire := by
        by_contra hc
        exact mod_ne_of_lt_add hlt (by omega) hm.symm
      simp only [historyLength] at this
      omega
    have : wire+historyLength≤T := by
      by_contra hc
      exact mod_ne_of_lt_add hgt (by omega) hm
    simp only [historyLength] at this
    omega
  · refine .inl ?_
    unfold has at hin ⊢
    rw [get?_store_of_mod_ne _ _ hm]
    exact hin

theorem seed_filled (d : ℕ) {ring : InputRing} (h : ring.FilledTo 0)
    (hk : ring.Holds fun t smp => smp.tick=t) : let r:=(List.range d).foldl (fun ring t =>
      if (ringGet ring t).isSome then ring else ringStore ring (neutralSample t)) ring
    r.FilledTo d ∧ r.Holds fun t smp => smp.tick=t := by
  induction d with
  | zero => exact ⟨h,hk⟩
  | succ d ih =>
    obtain ⟨hf,hkeys⟩ := ih
    rw [range_succ,foldl_append,foldl_cons,foldl_nil]
    generalize (List.range d).foldl _ ring=r at hf hkeys ⊢
    have hmiss : ¬(ringGet r d).isSome := by
      intro hin
      have := ((hf d).mp hin).1
      omega
    rw [if_neg hmiss]
    exact ⟨hf.store (by decide) _,hkeys.store rfl⟩

theorem Tracks.running_of_confirmed (h : Tracks room k i c) (hseat : room.Seated i)
    (hT : (k i).confirmed T) : c.running := by
  have hown:=h.alone.own hseat
  cases hrun : c.running with
  | true => rfl
  | false =>
    have h0:=hown.idle hrun
    have hlt:=hown.confirmed T hT
    omega

theorem Tracks.kept_store (h : Tracks room k i s.core) (hseat : room.Seated i)
    (hT : (k i).confirmed T) (hji : j≠i) {t : ℕ} {smp : InputSample}
    (hin : (s.remoteRings (room.seat j)).has T)
    (hwin : remoteTickInLiveWindow s (room.seat j) t) (ht : t≤(k j).sim+room.delay) :
    ((s.remoteRings (room.seat j)).store t smp).has T ∨ T<(k i).sim ∨ 100 ≤ room.redundancy := by
  by_cases hpast : T<(k i).sim
  · exact .inr (.inl hpast)
  by_cases hTt : T=t
  · exact .inl (by simp [hTt,has])
  by_cases hm : T%historyLength=t%historyLength
  · refine .inr (.inr ?_)
    have hlag:=h.lag_le hseat hji
    have hD:=room.delay_le
    have hTle:=h.alone.confirmed_le T hT
    have hcfg : s.cfg=room.cfg i := h.alone.cfg
    have hsim : s.simTick=(k i).sim := h.alone.sim
    have hred : s.cfg.bundleRedundancy=room.redundancy := by rw [hcfg,room.same_redundancy]
    rcases Nat.lt_or_gt_of_ne hTt with hlt | hgt
    · -- A whole ring ahead of `T` is beyond what seat `j` can have produced.
      have hturn : T+historyLength≤t := by
        by_contra hc
        exact mod_ne_of_lt_add hlt (by omega) hm.symm
      simp only [historyLength] at hturn
      omega
    have hturn : t+historyLength≤T := by
      by_contra hc
      exact mod_ne_of_lt_add hgt (by omega) hm
    have hhigh : T ≤ ringHighestValid (s.remoteRings (room.seat j)) := le_highest (by decide) hin
    have hrun : s.phase=.running := by
      have := h.running_of_confirmed hseat hT
      simpa [core] using this
    simp only [historyLength] at hturn
    simp only [remoteTickInLiveWindow,hrun,ne_eq,not_true_eq_false,if_false,hred,hsim] at hwin
    split at hwin
    · next hc => omega
    split at hwin
    · cases hwin
    · simp only [Bool.and_eq_true,decide_eq_true_eq] at hwin
      omega
  · refine .inl ?_
    unfold has at hin ⊢
    rw [get?_store_of_mod_ne _ _ hm]
    exact hin

theorem Tracks.store (h : Tracks room k i s.core) {slot : ℕ} {f : WireFrame}
    (hf : slot < room.slotCount → ∀ j,room.seat j=slot → f.tick≤(k j).sim+room.delay) :
    Tracks room k i (storeRemoteFrame s slot f).core := by
  rcases storeRemoteFrame_cases s slot f with ⟨hs,-⟩ | ⟨hslot,hloc,hwin,hnew,-,hcore⟩
  · rw [hs]
    exact h
  dsimp only at hcore
  rw [hcore]
  have ha:=h.among
  refine ⟨{ h.alone with },{ ha with kept := ?_ }⟩
  have hslot' : slot < room.slotCount := by
    have hcfg' : s.cfg=room.cfg i := h.alone.cfg
    rwa [hcfg',room.same_slotCount] at hslot
  intro hseat T hT j hj hji
  by_cases hjs : room.seat j=slot
  · subst hjs
    simp only [update_self]
    rcases ha.kept hseat T hT j hj hji with hin | hgone
    · exact h.kept_store hseat hT hji hin hwin (hf hslot' j rfl)
    · exact .inr hgone
  · simp only [update_of_ne hjs]
    exact ha.kept hseat T hT j hj hji

variable [DecidableEq ι]

section
variable (h : Tracks room k i s.core)
include h
theorem Tracks.start {s₁ : Session} {tick : ℕ} (hph : s.phase≠.running)
    (hcore : s₁.core={ s.core with running := true,simTick := tick }) (htick : tick=0) :
    Moved room k i (seedDelayPrefix s₁).core [] := by
  have hidle : s.core.running=false := by simpa [core] using hph
  have hsim:=h.alone.idle hidle
  have hring : s₁.localRing=s.localRing := congrArg Core.localRing hcore
  have hdelay : s₁.delay=room.delay := (congrArg Core.delay hcore).trans h.alone.delay
  have hseed : (seedDelayPrefix s₁).core={ s₁.core with
      localRing := (seedDelayPrefix s₁).localRing } := rfl
  rw [hseed,hcore]
  have hnone : ∀ T,¬(k i).admitted T := by
    intro T hT
    rw [(h.alone.admitted T hT).1] at hidle
    cases hidle
  by_cases hseat : room.Seated i
  · have hown:=h.alone.own hseat
    have hmade:=hown.idle hidle
    have hfilled:=hown.filled
    rw [hmade] at hfilled
    obtain ⟨hf,hkeys⟩ := seed_filled room.delay hfilled hown.keys
    have halone : Alone room i { k i with made := room.delay } { s.core with
        running := true,simTick := tick,localRing := (seedDelayPrefix s₁).localRing } := by
      refine { h.alone with
        sim := htick.trans hsim.symm
        idle := by simp
        own := fun _ => ⟨?_,?_,fun _ => .inl ?_,by simp,?_,?_⟩
        admitted := fun T hT => absurd hT (hnone T) }
      · simp only [seedDelayPrefix,hring,hdelay]
        exact hf
      · simp only [seedDelayPrefix,hring,hdelay]
        exact hkeys
      · simp only [hsim]
        omega
      · intro T hT
        have := hown.confirmed T hT
        omega
      · exact fun hadm => absurd hadm (hnone _)
    obtain ⟨hahead,htracks⟩ := h.update halone rfl (by simp only; omega) rfl (fun _ hT => hT) rfl rfl
      fun _ T hT => .inl hT
    exact ⟨_,hahead,htracks,by simp⟩
  · refine Tracks.moved ⟨{ h.alone with
      sim := htick.trans hsim.symm
      idle := by simp
      own := fun hs => absurd hs hseat
      admitted := fun T hT => absurd hT (hnone T) },{ h.among with }⟩ (by simp)

theorem Tracks.sample (sampled : InputSample)
    (hrun : s.phase=.running) (ho : s.isObserver=false) : Moved room k i
      (sampleLocalFuture s (wireTickFromSim s.simTick s.delay) sampled).core [] := by
  have hseat:=h.seated ho
  have hown:=h.alone.own hseat
  have hdelay : s.delay=room.delay := h.alone.delay
  have hsim : s.simTick=(k i).sim := h.alone.sim
  have hwire : wireTickFromSim s.simTick s.delay=(k i).sim+room.delay := by
    rw [wireTickFromSim,hsim,hdelay]
  have hrunning : s.core.running := by simp [core,hrun]
  rw [hwire]
  unfold sampleLocalFuture
  split
  · exact h.moved (by simp)
  next hmiss =>
  have hkeep : ∀ ring,({ s with localRing := ring } : Session).core =
      { s.core with localRing := ring } := fun _ => rfl
  rw [hkeep]
  have hmade : (k i).made=(k i).sim+room.delay := by
    rcases hown.tip hrunning with hm | hm
    · exact hm
    refine absurd ((hown.filled _).mpr ?_) hmiss
    simp only [historyLength]
    omega
  have hfilled:=hown.filled.store (by decide) (futureSample ((k i).sim+room.delay) sampled)
  rw [hmade] at hfilled
  have halone : Alone room i { k i with made := (k i).sim+room.delay+1 } { s.core with
      localRing := s.localRing.store ((k i).sim+room.delay)
        (futureSample ((k i).sim+room.delay) sampled) } := by
    refine { h.alone with
      own := fun _ => ⟨hfilled,hown.keys.store rfl,fun _ => .inr rfl,?_,?_,fun _ => rfl⟩ }
    · intro hidle
      rw [show s.core.running=true from hrunning] at hidle
      cases hidle
    · intro T hT
      have := hown.confirmed T hT
      simp only
      omega
  obtain ⟨hahead,htracks⟩ := h.update halone rfl (by simp only; omega) rfl (fun _ hT => hT) rfl rfl
    fun _ T hT => .inl hT
  exact ⟨_,hahead,htracks,by simp⟩

theorem Tracks.confirm (now : ℕ) (hlow : s.simTick≤wire+s.trail) (hhigh : wire ≤ s.simTick+s.delay) :
    Moved room k i (prepareWireConfirm now s wire).1.core (prepareWireConfirm now s wire).2.1 := by
  rcases prepareWireConfirm_cases now s wire with ⟨hs,hout⟩ | ⟨resolved,hash,hcol,hcore,hout⟩
  · rw [hs,hout]
    exact h.moved (by simp)
  have hcfg : s.cfg=room.cfg i := h.alone.cfg
  have hdelay : s.delay=room.delay := h.alone.delay
  have hsim : s.simTick=(k i).sim := h.alone.sim
  have htrail : s.trail≤64 := by simp only [trail,historyLength]; omega
  have hrow : ∀ j,room.Seated j → (ringGet (if room.seat j=s.cfg.localSlot then s.localRing
      else s.remoteRings (room.seat j)) wire).isSome := by
    intro j hj
    refine collectWireInputs_rows hcol ?_ (h.occupied hj)
    rw [hcfg,room.same_slotCount]
    exact hj
  rw [hcore]
  have halone : Alone room i { k i with confirmed := fun T => T=wire ∨ (k i).confirmed T }
      { s.core with published := s.published.store wire hash } := by
    refine { h.alone with own := ?_,confirmed_le := ?_,published := ?_,publishedKept := ?_ }
    · intro hseat
      have hown:=h.alone.own hseat
      have hin:=hrow i hseat
      rw [if_pos (by rw [hcfg]; rfl)] at hin
      refine { hown with confirmed := ?_ }
      rintro T (rfl | hT)
      · exact ((hown.filled T).mp hin).1
      · exact hown.confirmed T hT
    · rintro T (rfl | hT)
      · simp only
        omega
      · exact h.alone.confirmed_le T hT
    · exact Holds.store (h.alone.published.mono fun T _ hT => .inr hT) (.inl rfl)
    · rintro T (rfl | hT)
      · exact .inl (by simp [has])
      · rcases h.alone.publishedKept T hT with hin | hpast
        · exact has_store_or_behind hin room.delay_le (show (k i).sim≤wire+64 by omega)
            (show wire≤(k i).sim+room.delay by omega) (h.alone.confirmed_le T hT)
        · exact .inr hpast
  obtain ⟨hahead,htracks⟩ := h.update halone rfl le_rfl rfl (fun _ hT => .inr hT) rfl rfl (by
    rintro hseat T (rfl | hT)
    · refine .inr fun j hj hji => ?_
      have hin:=hrow j hj
      rwa [if_neg] at hin
      rw [hcfg]
      exact fun he => hji (room.seat_unique i j hseat he)
    · exact .inl hT)
  refine ⟨_,hahead,htracks,?_⟩
  intro m hm
  rw [hout m hm]
  intro hlt j hj
  obtain rfl := h.sender hlt hj
  rw [update_self]
  exact .inl rfl

theorem Tracks.step (hin : ∀ m∈inp,Known room k m.body)
    (hs : Step inp s out rows s') : Moved room k i s'.core out := by
  cases hs with
  | calm hcore hout =>
    rw [hcore]
    exact h.moved fun m hm => h.plain (hout m hm)
  | bundle now =>
    rw [sendInputBundle_core]
    exact h.moved (h.bundle now)
  | confirm now wire hrun hlow hhigh => exact h.confirm now hlow hhigh
  | reconfirm now wire hash hpub =>
    refine Tracks.moved h ?_
    intro m hm
    rw [mem_singleton.mp hm]
    intro hlt j hj
    obtain rfl := h.sender hlt hj
    exact h.alone.published wire hash hpub
  | start tick hph hcore htick =>
    refine h.start hph hcore ?_
    rcases htick with h0 | ⟨m,hm,hbody⟩
    · exact h0
    have := hin m hm
    rw [hbody] at this
    exact this
  | sample sampled hrun ho => exact h.sample sampled hrun ho
  | adopt m localSlot slotCount delay version hm hbody hlow hhigh hne hrun =>
    have hknown:=hin m hm
    rw [hbody] at hknown
    exact absurd (hknown.trans h.alone.delay.symm) hne
  | store m slot ackTick frames acks f hm hbody hf =>
    have hknown:=hin m hm
    rw [hbody] at hknown
    exact (h.store fun hlt j hj => (hknown hlt j hj f hf).2).moved (by simp)
  | ack m slot ackTick frames acks hm hbody =>
    obtain ⟨high,peerTick,peerSeen,hcore⟩ := onInputAck_core s slot ackTick acks
    rw [hcore]
    exact Tracks.moved ⟨{ h.alone with },{ h.among with }⟩ (by simp)
  | delaySync m newDelay effectiveTick hm hbody =>
    have hknown:=hin m hm
    rw [hbody] at hknown
    exact hknown.elim
  | peerConfirm m slot tick hash hm hbody =>
    have hknown:=hin m hm
    rw [hbody] at hknown
    rcases onInputConfirm_core s slot tick hash with ⟨-,hs⟩ | ⟨hslot,hcore⟩
    · rw [hs]
      exact h.moved (by simp)
    rw [hcore]
    have hcfg' : s.cfg=room.cfg i := h.alone.cfg
    rw [hcfg',room.same_slotCount] at hslot
    have hhist:=h.among.history
    refine Tracks.moved ⟨{ h.alone with },{ h.among with history := ?_ }⟩ (by simp)
    intro j hj hji
    by_cases hjs : room.seat j=slot
    · subst hjs
      simp only [update_self]
      exact (hhist j hj hji).store (hknown hslot j rfl)
    · simp only [update_of_ne hjs]
      exact hhist j hj hji

theorem Tracks.steps (hin : ∀ m∈inp,Known room k m.body)
    (hs : Steps inp s out rows s') : Moved room k i s'.core out := by
  induction hs with
  | refl => exact h.moved (by simp)
  | tail _ hstep ih =>
    obtain ⟨k₁,hg₁,hs₁,hm₁⟩ := ih
    obtain ⟨k₂,hg₂,hs₂,hm₂⟩ := hs₁.step (fun m hm => (hin m hm).ahead hg₁) hstep
    refine ⟨k₂,hg₁.trans hg₂,hs₂,?_⟩
    intro m hm
    rcases mem_append.mp hm with hold | hnew
    · exact (hm₁ m hold).ahead hg₂
    · exact hm₂ m hnew

theorem Tracks.admit (hrun : s.phase=.running)
    (hrow : s.isObserver=false → s.localRing.has (s.simTick+s.delay))
    (hagree : wireConfirmationsAgree s s.simTick) :
    ∃ k',Ahead room i k k' ∧ Tracks room k' i s.core ∧ (k' i).admitted s.simTick ∧
      ∀ b,Known room k b → Known room k' b := by
  have hsim : s.simTick=(k i).sim := h.alone.sim
  have hcfg : s.cfg=room.cfg i := h.alone.cfg
  have hdelay : s.delay=room.delay := h.alone.delay
  have hrunning : s.core.running := by simp [core,hrun]
  rw [hsim] at hagree hrow ⊢
  rw [hdelay] at hrow
  have hconf : ∀ j,room.Seated j → j≠i → (k j).confirmed (k i).sim := by
    intro j hj hji
    by_cases hs : room.seat j=s.cfg.localSlot
    · exact absurd (room.seat_unique j i hj (by rw [← hcfg]; exact hs.symm)).symm hji
    obtain ⟨hash,hget⟩ := peerHistory_of_agree hagree
      (by rw [hcfg,room.same_slotCount]; exact hj) hs (h.occupied hj)
    exact h.among.history j hj hji _ hash hget
  let n : Know := { k i with admitted := fun T => T=(k i).sim ∨ (k i).admitted T }
  have hself : Function.update k i n i=n := update_self ..
  have halone : Alone room i n s.core := by
    refine { h.alone with own := ?_,admitted := ?_ }
    · intro hseat
      have hown:=h.alone.own hseat
      refine { hown with admitted := fun _ => ?_ }
      have ho : s.isObserver=false := by
        rw [isObserver,hcfg]
        exact hseat.player
      have hlt:=((hown.filled _).mp (hrow ho)).1
      have htip:=hown.tip hrunning
      show (k i).made=(k i).sim+room.delay+1
      omega
    · rintro T (rfl | hT)
      · exact ⟨hrunning,le_rfl⟩
      · exact h.alone.admitted T hT
  obtain ⟨hahead,htracks⟩ := h.replace halone le_rfl le_rfl (fun _ hT => hT) (fun _ => .inr) rfl
    h.among.past h.among.kept (by
      rintro T (rfl | hT)
      · exact hconf
      · exact h.among.admitted T hT)
  exact ⟨_,hahead,htracks,by rw [hself]; exact .inl rfl,fun b hb => hb.ahead hahead⟩

theorem Tracks.advance (hadm : (k i).admitted s.simTick) :
    ∃ k',Ahead room i k k' ∧ Tracks room k' i (advance s).core := by
  have hsim : s.simTick=(k i).sim := h.alone.sim
  have hpend : s.delayPending=none := h.alone.pending
  have hkeep : ∀ x : Session,x.delayPending=none → applyPendingDelay x=x := by
    intro x hx
    simp [applyPendingDelay,hx]
  have hcore : (DelaySync.advance s).core={ s.core with simTick := s.simTick+1 } := by
    unfold DelaySync.advance
    rw [hkeep]
    · rfl
    · exact hpend
  rw [hcore]
  rw [hsim] at hadm ⊢
  obtain ⟨hrunning,-⟩ := h.alone.admitted _ hadm
  let n : Know := { k i with sim := (k i).sim+1 }
  have halone : Alone room i n { s.core with simTick := (k i).sim+1 } := by
    refine ⟨h.alone.cfg,h.alone.delay,h.alone.pending,h.alone.epoch,rfl,?_,?_,?_,
      h.alone.published,?_,?_⟩
    · intro hidle
      rw [show s.core.running=true from hrunning] at hidle
      cases hidle
    · intro hseat
      have hown:=h.alone.own hseat
      have hmade:=hown.admitted hadm
      refine { hown with tip := fun _ => .inl ?_,admitted := fun hadm' => ?_ }
      · show (k i).made=(k i).sim+1+room.delay
        omega
      · -- A tick beyond the sim was never given.
        have := (h.alone.admitted _ hadm').2
        simp only [n] at this
        omega
    · intro T hT
      have := h.alone.confirmed_le T hT
      simp only [n]
      omega
    · intro T hT
      refine (h.alone.publishedKept T hT).imp id fun hlt => ?_
      simp only [n]
      omega
    · intro T hT
      obtain ⟨hr,hle⟩ := h.alone.admitted T hT
      exact ⟨hr,Nat.le_succ_of_le hle⟩
  refine ⟨_,h.replace halone (Nat.le_succ _) le_rfl (fun _ hT => hT) (fun _ hT => hT) rfl ?_ ?_
    h.among.admitted⟩
  · intro j hj hji T hT
    rcases Nat.lt_succ_iff_lt_or_eq.mp hT with hlt | rfl
    · exact h.among.past j hj hji T hlt
    · exact h.among.admitted _ hadm j hj hji
  · intro hseat T hT j hj hji
    rcases h.among.kept hseat T hT j hj hji with hin | hpast | hred
    · exact .inl hin
    · exact .inr (.inl (Nat.lt_succ_of_lt hpast))
    · exact .inr (.inr hred)

end

variable {w : Net ι Session Packet Event}
theorem fixed_init (h : room.toDelayRoom.Init w) : ∃ k,(fixedFacts room).Describe k w := by
  obtain ⟨hsent,hlog,hnode⟩ := h
  refine ⟨fun _ => ⟨0,0,fun _ => False,fun _ => False⟩,fun i => ?_,by simp [hsent],
    by simp [fixedFacts,hlog]⟩
  obtain ⟨s₀,hs₀,hs⟩ := hnode i
  obtain rfl := sessionCreate_eq_some hs₀
  have hcore : (w.node i).core=(freshSession (room.cfg i)).core := by
    rcases hs with hs | hs
    · rw [hs]
    · rw [hs]
      rfl
  show Tracks room _ i (w.node i).core
  rw [hcore]
  refine ⟨⟨rfl,room.same_delay i,rfl,rfl,rfl,fun _ => rfl,fun _ => ?_,by simp,?_,by simp,
    by simp⟩,by simp,?_,by simp,by simp,by simp⟩
  · exact ⟨FilledTo.empty,Holds.empty _,by simp [freshSession,core],fun _ => rfl,by simp,by simp⟩
  · exact Holds.empty _
  · exact fun j _ _ => Holds.empty _

theorem fixed_call {c : Call} (hk : (fixedFacts room).Describe k w) (hok : FixedRoom.Allowed w i c)
    (hin : ∀ m∈callInputs c,Known room k m.body) :
    ∃ k',(fixedFacts room).Matches i k k' (callAct (w.node i) c) w.log := by
  have hnode : Tracks room k i (w.node i).core := hk.node i
  -- Calls that log nothing only have to keep the state and the datagrams known.
  have quiet : ∀ {r : Session × List Packet},Moved room k i r.1.core r.2 →
      ∃ k',(fixedFacts room).Matches i k k' (r.1,r.2,[]) w.log := by
    rintro r ⟨k',hg,hs,hm⟩
    refine ⟨k',hg,hs,hm,?_⟩
    intro e he
    rw [map_nil,append_nil] at he
    exact hg.admitted_mono e.1 (hk.log e he)
  cases c with
  | pump now linkUp pkts => exact quiet (hnode.steps hin (steps_sessionPump now linkUp pkts _))
  | tryAdmit now simTick sampled =>
    have hsteps : Steps [] (w.node i) (tryAdmit now simTick sampled (w.node i)).2.1 []
        (tryAdmit now simTick sampled (w.node i)).1 := Quietly.tryAdmit now simTick sampled (w.node i)
    obtain ⟨k₁,hg₁,hs₁,hm₁⟩ := hnode.steps (by simp) hsteps
    cases hres : (tryAdmit now simTick sampled (w.node i)).2.2 with
    | stall reason =>
      have hev : callAct (w.node i) (.tryAdmit now simTick sampled) =
          ((tryAdmit now simTick sampled (w.node i)).1,
            (tryAdmit now simTick sampled (w.node i)).2.1,[]) := by
        simp [callAct,hres,publishEvents]
      rw [hev]
      exact quiet (r := (_,_)) ⟨k₁,hg₁,hs₁,hm₁⟩
    | publish resolved =>
      obtain ⟨rfl,hrun,hclock,hagree,hrow⟩ := tryAdmit_publish hres
      have hev : callAct (w.node i) (.tryAdmit now (w.node i).simTick sampled) =
          ((tryAdmit now (w.node i).simTick sampled (w.node i)).1,
            (tryAdmit now (w.node i).simTick sampled (w.node i)).2.1,
            [.published (w.node i).inputEpoch (w.node i).simTick resolved]) := by
        simp [callAct,hres,publishEvents]
      rw [hev]
      generalize tryAdmit now (w.node i).simTick sampled (w.node i)=r at hs₁ hm₁ hclock hagree hrow
      obtain ⟨k₂,hg₂,hs₂,hadm,hmono⟩ := hs₁.admit (hclock.phase.trans hrun)
        (by
          intro ho
          rw [hclock.simTick,hclock.delay]
          refine hrow ?_
          rw [← ho,isObserver,isObserver,hclock.cfg])
        (by rw [hclock.simTick]; exact hagree)
      refine ⟨k₂,hg₁.trans hg₂,hs₂,fun m hm => hmono _ (hm₁ m hm),?_⟩
      intro e he
      rcases mem_append.mp he with hold | hnew
      · exact (hg₁.trans hg₂).admitted_mono e.1 (hk.log e hold)
      rw [map_singleton,mem_singleton] at hnew
      subst hnew
      rw [hclock.simTick] at hadm
      exact hadm
  | advance =>
    obtain ⟨e,he,hei,htick⟩ := hok
    have hadm : (k i).admitted (w.node i).simTick := by
      have := hk.log e he
      rwa [hei,htick] at this
    obtain ⟨k',hg,hs⟩ := hnode.advance hadm
    exact quiet (r := (_,[])) ⟨k',hg,hs,by simp⟩
  | requestDelayChange now newDelay => exact hok.elim
  | setGate gate => exact quiet (r := (_,[])) (Tracks.moved hnode (by simp))

theorem fixed_described (hw : room.Reach w) : ∃ k,(fixedFacts room).Describe k w :=
  Net.invariant fixedFacts_stable (fun _ h => fixed_init h)
    (fun _ _ _ _ hk hok hin => fixed_call hk hok hin) hw

end Effects

section Refresh
variable {s : Session}
def Packet.Confirms (slot tick : ℕ) (m : Packet) : Prop :=
  ∃ epoch hash,m.body=.inputConfirm slot epoch tick hash

structure ResendDue (now tick : ℕ) (s : Session) : Prop where
  published : s.published.has tick
  due : confirmDue now s tick

theorem refreshConfirm_cfg (now : ℕ) (s : Session) (wire : ℕ) :
    (refreshConfirm now s wire).1.cfg=s.cfg := (SameClock.refreshConfirm now s wire).cfg

variable {now tick : ℕ}
theorem ResendDue.refreshConfirm {wire : ℕ} (h : ResendDue now tick s)
    (hm : tick%historyLength≠wire%historyLength) :
    ResendDue now tick (refreshConfirm now s wire).1 := by
  have send : ∀ {x : Session} (hash : ℕ),ResendDue now tick x →
      ResendDue now tick (sendInputConfirmTick now x wire hash).1 := by
    intro x hash hx
    refine ⟨hx.published,?_⟩
    have hsame : (sendInputConfirmTick now x wire hash).1.confirmLastSentMs (tick%historyLength) =
        x.confirmLastSentMs (tick%historyLength) := update_of_ne hm ..
    unfold confirmDue
    rw [hsame]
    exact hx.due
  have store : ∀ hash,ResendDue now tick { s with published := s.published.store wire hash } := by
    intro hash
    refine ⟨?_,h.due⟩
    have hp:=h.published
    unfold has at hp ⊢
    rw [get?_store_of_mod_ne _ _ hm]
    exact hp
  unfold DelaySync.refreshConfirm
  split
  · next hash _ =>
    split_ifs
    · exact send hash h
    · exact h
  unfold prepareWireConfirm
  cases collectWireInputs s wire with
  | none => exact h
  | some resolved =>
    dsimp only
    split
    · exact ⟨(store _).published,h.due⟩
    split_ifs
    · exact send (hashResolvedInputs wire resolved) (store (hashResolvedInputs wire resolved))
    · exact store (hashResolvedInputs wire resolved)

theorem refreshConfirm_sends (h : ResendDue now tick s) :
    ∃ m∈(refreshConfirm now s tick).2,m.Confirms s.cfg.wireId tick := by
  obtain ⟨hash,hpub⟩ := Option.isSome_iff_exists.mp h.published
  unfold DelaySync.refreshConfirm
  rw [hpub]
  dsimp only
  rw [if_pos h.due]
  exact ⟨_,mem_singleton_self _,_,_,rfl⟩

theorem refresh_foldl_sends {wireId : ℕ} (ws : List ℕ) (acc : Session × List Packet)
    (hws : ∀ w∈ws,w≠tick → tick%historyLength≠w%historyLength)
    (hcfg : acc.1.cfg.wireId=wireId)
    (h : (∃ m∈acc.2,m.Confirms wireId tick) ∨ (tick∈ws ∧ ResendDue now tick acc.1)) :
    ∃ m∈(ws.foldl (fun acc w => ((refreshConfirm now acc.1 w).1,
      acc.2++(refreshConfirm now acc.1 w).2)) acc).2,m.Confirms wireId tick := by
  induction ws generalizing acc with
  | nil =>
    rcases h with h | h
    · exact h
    · cases h.1
  | cons w ws ih =>
    rw [foldl_cons]
    refine ih _ (fun x hx => hws x (mem_cons_of_mem _ hx))
      (by rw [refreshConfirm_cfg]; exact hcfg) ?_
    rcases h with ⟨m,hm,hc⟩ | ⟨hmem,hdue⟩
    · exact .inl ⟨m,mem_append_left _ hm,hc⟩
    by_cases hw : w=tick
    · subst hw
      obtain ⟨m,hm,hc⟩ := refreshConfirm_sends hdue
      rw [hcfg] at hc
      exact .inl ⟨m,mem_append_right _ hm,hc⟩
    have htail : tick∈ws := by
      rcases mem_cons.mp hmem with rfl | hmem
      · exact absurd rfl hw
      · exact hmem
    exact .inr ⟨htail,hdue.refreshConfirm (hws w mem_cons_self hw)⟩

theorem refreshConfirmWindow_sends (hdelay : s.delay≤20)
    (hlow : s.simTick≤tick+s.trail) (hhigh : tick ≤ s.simTick+s.delay) (h : ResendDue now tick s) :
    ∃ m∈(refreshConfirmWindow now s s.simTick (wireTickFromSim s.simTick s.delay)).2,
      m.Confirms s.cfg.wireId tick := by
  have htrail : s.trail≤64 := by simp only [trail,historyLength]; omega
  have hwin : ∀ w,w∈List.range' (s.simTick-s.trail) (max (wireTickFromSim s.simTick s.delay)
      (s.simTick-s.trail)+1-(s.simTick-s.trail)) ↔ s.simTick≤w+s.trail ∧ w ≤ s.simTick+s.delay := by
    intro w
    rw [mem_range'_1]
    simp only [wireTickFromSim]
    omega
  refine refresh_foldl_sends _ (s,[]) ?_ rfl (.inr ⟨(hwin tick).mpr ⟨hlow,hhigh⟩,h⟩)
  intro w hw hne
  have hb:=(hwin w).mp hw
  rcases Nat.lt_or_gt_of_ne hne with hlt | hgt
  · exact mod_ne_of_lt_add hlt (by simp only [historyLength]; omega)
  · exact (mod_ne_of_lt_add hgt (by simp only [historyLength]; omega)).symm

end Refresh

variable {s : Session} {q : ℕ}
theorem storeRemoteFrame_fills {f : WireFrame} (hrun : s.phase=.running)
    (hseat : q<s.cfg.slotCount) (hne : q≠s.cfg.localSlot)
    (hmiss : ringGet (s.remoteRings q) s.simTick=none) (hf : f.tick=s.simTick) :
    ringGet ((storeRemoteFrame s q f).remoteRings q) s.simTick=some (frameSample f) := by
  have hwin : remoteTickInLiveWindow s q f.tick := by
    simp only [remoteTickInLiveWindow,hrun,ne_eq,not_true_eq_false,if_false,hf,wireTickFromSim]
    rw [if_pos (by omega)]
  rcases storeRemoteFrame_cases s q f with ⟨-,hnone⟩ | ⟨-,-,-,-,-,hcore⟩
  · rw [hf] at hwin
    simp [storedRow,hwin,hf,hmiss,not_le.mpr hseat,hne] at hnone
  have hrings:=congrArg Core.remoteRings hcore
  simp only [core] at hrings
  rw [hrings,update_self,← hf]
  exact get?_store_self ..

theorem onInputConfirm_fills (hseat : q<s.cfg.slotCount) (t hash : ℕ) :
    ((onInputConfirm s q s.inputEpoch t hash).peerHistory q).get? t=some hash := by
  rcases onInputConfirm_core s q t hash with ⟨hle,-⟩ | ⟨-,hcore⟩
  · exact absurd hseat (not_lt.mpr hle)
  have hhist:=congrArg Core.peerHistory hcore
  simp only [core] at hhist
  rw [hhist,update_self]
  exact get?_store_self ..

section Stalled
variable {ι : Type} [DecidableEq ι] {room : FixedRoom ι} {w : Net ι Session Packet Event} {a b : ι}

/-- Session `a` has made its row of `T`: it holds it, or a datagram carries it. -/
def RowMade (room : FixedRoom ι) (w : Net ι Session Packet Event) (a : ι) (T : ℕ) : Prop :=
  (w.node a).localRing.has T=true ∨ ∃ m∈w.sent,m.Carries (room.seat a) T

/-- Session `a` has confirmed `T`: it published it, or a datagram confirms it. -/
def ConfirmMade (room : FixedRoom ι) (w : Net ι Session Packet Event) (a : ι) (T : ℕ) : Prop :=
  (w.node a).published.has T=true ∨ ∃ m∈w.sent,m.Confirms (room.seat a) T

/-- `T` is in the window of the next INPUT bundle, every bundle that is due is sent, and each
carries `T`. -/
def RowResent (slot : ℕ) (s : Session) (T : ℕ) : Prop :=
  bundleLo s (wireTickFromSim s.simTick s.delay)≤T ∧ T≤wireTickFromSim s.simTick s.delay ∧
    ∀ now,BundleDue now s ∨ (sendInputBundle now s).2≠[] →
      ∃ m∈(sendInputBundle now s).2,m.Carries slot T

def ConfirmResent (slot : ℕ) (s : Session) (T : ℕ) : Prop :=
  s.simTick≤T+s.trail ∧ T≤wireTickFromSim s.simTick s.delay ∧ ∀ now,confirmDue now s T →
      ∃ m∈(refreshConfirmWindow now s s.simTick (wireTickFromSim s.simTick s.delay)).2,
        m.Confirms slot T

theorem bundleLo_le (s : Session) (tip : ℕ) :
    bundleLo s tip≤tip+1-max (max s.cfg.bundleRedundancy 1) (s.delay+1) := by
  unfold bundleLo
  dsimp only
  split
  · exact Nat.min_le_right ..
  split
  · exact Nat.min_le_right ..
  · exact le_rfl

/-- **Delay-sync retransmission.** -/
theorem stalled_datum_resent (hw : room.Reach w) (ha : room.Seated a) (hb : room.Seated b)
    (hab : a≠b) : (w.node a).simTick≤(w.node b).simTick+room.delay+1 ∧
    ((w.node b).phase=.running → let T:=(w.node b).simTick
      (ringGet ((w.node b).remoteRings (room.seat a)) T=none → RowMade room w a T →
        RowResent (room.seat a) (w.node a) T ∧ ∀ f : WireFrame,f.tick=T →
          ringGet ((storeRemoteFrame (w.node b) (room.seat a) f).remoteRings (room.seat a)) T =
            some (frameSample f)) ∧
      (((w.node b).peerHistory (room.seat a)).get? T=none → ConfirmMade room w a T →
        ConfirmResent (room.seat a) (w.node a) T ∧ ∀ hash,
          ((onInputConfirm (w.node b) (room.seat a) (w.node b).inputEpoch T hash).peerHistory
            (room.seat a)).get? T=some hash)) := by
  obtain ⟨k,hk⟩ := fixed_described hw
  have hA : Tracks room k a (w.node a).core := hk.node a
  have hB : Tracks room k b (w.node b).core := hk.node b
  have hsimA : (w.node a).simTick=(k a).sim := hA.alone.sim
  have hsimB : (w.node b).simTick=(k b).sim := hB.alone.sim
  have hdelayA : (w.node a).delay=room.delay := hA.alone.delay
  have hcfgA : (w.node a).cfg=room.cfg a := hA.alone.cfg
  have hcfgB : (w.node b).cfg=room.cfg b := hB.alone.cfg
  have hwire : (w.node a).cfg.wireId=room.seat a := by rw [hcfgA]; exact room.wire_seat a ha
  have hlag:=hB.lag_le hb hab
  have hD:=room.delay_le
  have hplayer : (w.node a).isObserver=false := by
    rw [Session.isObserver,hcfgA]
    exact ha.player
  have hseat : room.seat a<(w.node b).cfg.slotCount := by
    rw [hcfgB,room.same_slotCount]
    exact ha
  have hne : room.seat a≠(w.node b).cfg.localSlot := by
    rw [hcfgB]
    exact fun he => hab (room.seat_unique b a hb he)
  refine ⟨by omega,fun hrun => ⟨fun hmiss hmade => ?_,fun hmiss hmade => ?_⟩⟩
  · have hownA:=hA.alone.own ha
    have hlt : (k b).sim<(k a).made := by
      rcases hmade with hin | ⟨m,hm,epoch,ackTick,frames,acks,hbody,f,hf,htick⟩
      · rw [hsimB] at hin
        exact ((hownA.filled _).mp hin).1
      have hknown:=hk.msg m hm
      simp only [fixedFacts,hbody] at hknown
      have := (hknown ha a rfl f hf).1
      omega
    have hmadeA:=hA.made_le ha
    -- Either `a` is not past the tick, or `b` confirmed it and lost the row.
    have hback : (k a).sim≤(k b).sim ∨ 100 ≤ room.redundancy := by
      by_cases hle : (k a).sim≤(k b).sim
      · exact .inl hle
      have hconf:=hB.among.lag hb a hab (k b).sim (by omega)
      rcases hB.among.kept hb _ hconf a ha hab with hin | hpast | hred
      · rw [← hsimB] at hin
        have : ringGet ((w.node b).remoteRings (room.seat a)) (w.node b).simTick≠none :=
          Option.isSome_iff_ne_none.mp hin
        exact absurd hmiss this
      · omega
      · exact .inr hred
    have hlow : bundleLo (w.node a) (wireTickFromSim (w.node a).simTick (w.node a).delay) ≤
        (w.node b).simTick := by
      have hred : (w.node a).cfg.bundleRedundancy=room.redundancy := by
        rw [hcfgA,room.same_redundancy]
      have := bundleLo_le (w.node a) (wireTickFromSim (w.node a).simTick (w.node a).delay)
      rw [hred,hdelayA,hsimA] at this
      rw [hdelayA,hsimA]
      simp only [wireTickFromSim] at this ⊢
      omega
    have hhigh : (w.node b).simTick≤wireTickFromSim (w.node a).simTick (w.node a).delay := by
      rw [wireTickFromSim,hdelayA]
      omega
    refine ⟨⟨hlow,hhigh,fun now hsend => ?_⟩,fun f hf => ?_⟩
    · have hrunA : (w.node a).phase=.running := hsend.elim (·.1) fun h => (sendInputBundle_eq h).2.1
      have htip:=hownA.tip (by simp [core,hrunA])
      obtain ⟨smp,hget⟩ := Option.isSome_iff_exists.mp ((hownA.filled (w.node b).simTick).mpr
        (by simp only [historyLength]; omega))
      have hsent:=hsend.elim (·.sends hplayer hlow hhigh hget) id
      rw [← hwire]
      exact sendInputBundle_carries hsent hlow hhigh hget (hownA.keys _ smp hget)
    · exact storeRemoteFrame_fills hrun hseat hne hmiss hf
  · have hconf : (k a).confirmed (k b).sim := by
      rcases hmade with hin | ⟨m,hm,epoch,hash,hbody⟩
      · obtain ⟨hash,hget⟩ := Option.isSome_iff_exists.mp hin
        rw [hsimB] at hget
        exact hA.alone.published _ hash hget
      have hknown:=hk.msg m hm
      simp only [fixedFacts,hbody] at hknown
      rw [← hsimB]
      exact hknown ha a rfl
    have hle:=hA.alone.confirmed_le _ hconf
    have htrail : room.delay+8≤(w.node a).trail := by
      simp only [trail,historyLength,hdelayA]
      omega
    have hpub : (w.node a).published.has (w.node b).simTick=true := by
      rcases hA.alone.publishedKept _ hconf with hin | hpast
      · rw [hsimB]
        exact hin
      · omega
    refine ⟨⟨by omega,by rw [wireTickFromSim,hdelayA]; omega,fun now hdue => ?_⟩,fun hash => ?_⟩
    · rw [← hwire]
      exact refreshConfirmWindow_sends (by omega) (by omega) (by omega) ⟨hpub,hdue⟩
    · exact onInputConfirm_fills hseat _ hash

/-- **Nobody plays a tick that another seat has not collected**: that seat has hashed all rows of
the tick, or left it more than 64 ticks behind. -/
theorem published_collected (hw : room.Reach w) {epoch T : ℕ} {resolved : List InputSample}
    (ha : (a,Event.published epoch T resolved)∈w.log) (hb : room.Seated b) (hne : b≠a) :
    (w.node b).published.has T ∨ T+64<(w.node b).simTick := by
  obtain ⟨k,hk⟩ := fixed_described hw
  have hA : Tracks room k a (w.node a).core := hk.node a
  have hB : Tracks room k b (w.node b).core := hk.node b
  have hsim : (w.node b).simTick=(k b).sim := hB.alone.sim
  rw [hsim]
  exact hB.alone.publishedKept T (hA.among.admitted T (hk.log _ ha) b hb hne)

/-- **Nobody speaks for a tick past its input window**, in a row or in a confirmation. -/
theorem sent_within_window (hw : room.Reach w) (ha : room.Seated a) {m : Packet} (hm : m∈w.sent) :
    (∀ epoch ack frames acks,m.body=.input (room.seat a) epoch ack frames acks →
      ∀ f∈frames,f.tick≤(w.node a).simTick+room.delay) ∧
    ∀ epoch T hash,m.body=.inputConfirm (room.seat a) epoch T hash →
      T≤(w.node a).simTick+room.delay := by
  obtain ⟨k,hk⟩ := fixed_described hw
  have hA : Tracks room k a (w.node a).core := hk.node a
  have hsim : (w.node a).simTick=(k a).sim := hA.alone.sim
  have hknown : Known room k m.body := hk.msg m hm
  rw [hsim]
  constructor
  · intro epoch ack frames acks hb f hf
    rw [hb] at hknown
    exact (hknown ha a rfl f hf).2
  · intro epoch T hash hb
    rw [hb] at hknown
    exact hA.alone.confirmed_le T (hknown ha a rfl)

end Stalled

/-! The guest of a two-seat room got START, but not the bundle sent with it. -/
def fixedPair : FixedRoom Bool where
  toDelayRoom := pairRoom
  delay := 2
  redundancy := 3
  two_le_delay := Room.pair.two_le
  delay_le := by decide
  same_delay i := by cases i <;> rfl
  same_redundancy i := by cases i <;> rfl

def pairStalledCalls : List (Bool × Call) := [(false,.pump 100 false []),
    (true,.pump 100 false [⟨0x524E4554,1,.hello 0 2 2 wireVersion⟩]),
    (false,.pump 110 false [⟨0x524E4554,1,.ready 1⟩]),
    (true,.pump 120 false [⟨0x524E4554,1,.start 0⟩])]

def pairStalled : Net Bool Session Packet Event :=
  Net.run (nodeSpec Bool) pairStart pairStalledCalls

theorem pairStalled_reach : fixedPair.Reach pairStalled := by
  refine Net.Reach.run _ (.start ?_) ?_
  · exact ⟨rfl,rfl,fun i => ⟨freshSession (pairCfg i),by cases i <;> rfl,.inr rfl⟩⟩
  · decide +kernel

theorem stalled_datum_resent_pair :
    fixedPair.Reach pairStalled ∧ (pairStalled.node true).phase=.running ∧
      ringGet ((pairStalled.node true).remoteRings 0) (pairStalled.node true).simTick=none ∧
      BundleDue 130 (pairStalled.node false) ∧
      ∃ m∈(sendInputBundle 130 (pairStalled.node false)).2,
        m.Carries 0 (pairStalled.node true).simTick := by
  have hrun : (pairStalled.node true).phase=.running := by decide +kernel
  have hmiss : ringGet ((pairStalled.node true).remoteRings 0)
      (pairStalled.node true).simTick=none := by decide +kernel
  have hcover:=stalled_datum_resent (a := false) (b := true) pairStalled_reach
    (show (0 : ℕ)<2 by decide) (show (1 : ℕ)<2 by decide) (by decide)
  have hdue : BundleDue 130 (pairStalled.node false) := by
    unfold BundleDue
    decide +kernel
  have hresent:=((hcover.2 hrun).1 hmiss (.inl (by decide +kernel))).1
  exact ⟨pairStalled_reach,hrun,hmiss,hdue,hresent.2.2 130 (.inl hdue)⟩

theorem sent_within_window_pair : ∃ m∈pairStalled.sent,
    m.body=.input 0 0 0 [⟨0,0,PadBytes.zero⟩,⟨1,0,PadBytes.zero⟩] [] ∧
      1≤(pairStalled.node false).simTick+2 := by
  obtain ⟨m,hm,hb⟩ : ∃ m∈pairStalled.sent,
      m.body=.input 0 0 0 [⟨0,0,PadBytes.zero⟩,⟨1,0,PadBytes.zero⟩] [] := by decide +kernel
  have hwithin:=(sent_within_window pairStalled_reach (a := false) (show (0 : ℕ)<2 by decide) hm).1
  exact ⟨m,hm,hb,hwithin _ _ _ _ hb ⟨1,0,PadBytes.zero⟩ (by simp)⟩

theorem published_collected_pair : fixedPair.Reach pairRun ∧
    ((pairRun.node true).published.has 0 ∨ 0+64<(pairRun.node true).simTick) := by
  have hstart : fixedPair.Reach pairStart :=
    .start ⟨rfl,rfl,fun i => ⟨freshSession (pairCfg i),by cases i <;> rfl,.inr rfl⟩⟩
  have hrun : fixedPair.Reach pairRun := by
    unfold pairRun pairPump pairAdmit
    repeat' first | exact hstart | refine Net.Reach.call _ _ ?_ ?_ ?_
    all_goals first | exact trivial | exact fun _ hm => hm | exact List.forall_mem_nil _
  exact ⟨hrun,published_collected hrun (pairRun_published false)
    (show (1 : ℕ)<2 by decide) (by decide)⟩

end RecompNet.DelaySync
