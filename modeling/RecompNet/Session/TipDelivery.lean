import RecompNet.Lib.LossyNet
import RecompNet.Session.Effects
import RecompNet.Session.Room

/-!
# INPUT delivery under the rollback driver

The rollback driver uses the session's INPUT plane without the confirmation barrier:
`rnet_session_prepare_local_tip` produces the local rows, `rnet_session_set_sim_tick` follows the
driver's clock, `rnet_session_pump` sends and receives.
-/
namespace RecompNet.DelaySync
open Function List Option TickRing

/-- The loop of `rnet_session_prepare_local_tip`: every missing row from the sim
to the tip repeats one sample. -/
def fillTip (simTick tip : ℕ) (sampled : InputSample) (ring : InputRing) : InputRing :=
  (List.range' simTick (tip+1-simTick)).foldl (fun ring w =>
    if (ringGet ring w).isSome then ring else ringStore ring (futureSample w sampled)) ring

def fillLocalTip (simTick : ℕ) (sampled : InputSample) (s : Session) : Session :=
  { s with
    localRing := fillTip simTick (wireTickFromSim simTick s.delay) sampled s.localRing }

def prepareLocalTip (now simTick : ℕ) (sampled : InputSample) (s : Session) :
    Session × List Packet × Bool :=
  if s.phase≠.running then (s,[],false)
  else if simTick≠s.simTick then (s,[],false)
  else
    let b:=sendInputBundle now (fillLocalTip simTick sampled s)
    (b.1,b.2,true)

def setSimTick (simTick : ℕ) (s : Session) : Session :=
  applyPendingDelay { s with simTick := simTick }

inductive TipCall
  | pump (now : ℕ) (linkUp : Bool) (pkts : List Packet)
  | prepareLocalTip (now simTick : ℕ) (sampled : InputSample)
  | setSimTick (simTick : ℕ)

/-- A row of a remote seat was stored. -/
inductive TipEvent
  | stored (slot tick : ℕ)
  deriving DecidableEq

def tipSpec (ι : Type) : NodeSpec ι Session Packet TipEvent TipCall where
  inputs
    | .pump _ _ pkts => pkts
    | _ => []
  act _ c s := match c with
    | .pump now linkUp pkts =>
      let r:=sessionPump now linkUp pkts s
      (r.1,r.2,(pumpRows now (linked linkUp s) pkts).map fun row => .stored row.1 row.2)
    | .prepareLocalTip now simTick sampled =>
      let r:=prepareLocalTip now simTick sampled s
      (r.1,r.2.1,[])
    | .setSimTick simTick => (setSimTick simTick s,[],[])

section Room
variable {ι : Type} [DecidableEq ι] (room : Room ι) (w : Net ι Session Packet TipEvent)
def TipInit : Prop := w.sent=[] ∧ w.log=[] ∧ ∀ i,∃ s₀,sessionCreate (room.cfg i)=some s₀ ∧
    (w.node i=s₀ ∨ w.node i=sessionStartLan s₀)

/-- Everything any interleaving of these calls and deliveries can reach. -/
def TipReach : Prop := Net.Reach (tipSpec ι) Net.anyCall (TipInit room) w

end Room

def Apart (f g : WireFrame) : Prop := f.tick<g.tick ∧ f.tick%historyLength≠g.tick%historyLength

variable {s s' : Session} {slot t : ℕ} {fuel : ℕ} {fs : List WireFrame}
theorem bundles_sublist {g : List WireFrame} (hg : g∈bundles fuel fs) : g.Sublist fs := by
  induction fuel generalizing fs with
  | zero => cases fs <;> simp [bundles] at hg
  | succ fuel ih =>
    cases fs with
    | nil => simp [bundles] at hg
    | cons x xs =>
      simp only [bundles,mem_cons] at hg
      rcases hg with rfl | hg
      · exact take_sublist ..
      · exact (ih hg).trans (drop_sublist ..)

theorem bundleFrames_apart (hkeys : s.localRing.Holds fun t smp => smp.tick=t) (lo tip : ℕ) :
    (bundleFrames s lo tip).Pairwise Apart := by
  unfold bundleFrames
  rw [pairwise_filterMap]
  refine (pairwise_lt_range' (s := lo) (n := tip+1-lo)).imp ?_
  intro t₁ t₂ hlt f hf g hg
  obtain ⟨x,hx,rfl⟩ := map_eq_some_iff.mp hf
  obtain ⟨y,hy,rfl⟩ := map_eq_some_iff.mp hg
  have hx' : x.tick=t₁ := hkeys t₁ x hx
  have hy' : y.tick=t₂ := hkeys t₂ y hy
  simp only [Apart,wireFrame,hx',hy']
  refine ⟨hlt,fun hm => ?_⟩
  have := eq_of_has_of_mod_eq (r := s.localRing) (isSome_iff_exists.mpr ⟨x,hx⟩)
    (isSome_iff_exists.mpr ⟨y,hy⟩) hm
  omega

theorem liveWindow_iff (hslot : slot<s.cfg.slotCount) :
    remoteTickInLiveWindow s slot t ↔ s.phase≠.running ∨
      (t ≤ s.simTick+s.delay+(s.cfg.bundleRedundancy+8) ∧ (s.simTick≤t+(s.cfg.bundleRedundancy+8) ∨
          (ringHighestValid (s.remoteRings slot)<t ∧ s.simTick≤t+64))) := by
  unfold remoteTickInLiveWindow
  split
  · next h => simp [h]
  next h =>
  rw [not_not] at h
  dsimp only [wireTickFromSim]
  split
  · next hwin =>
    refine iff_of_true rfl (.inr ⟨hwin.2,.inl ?_⟩)
    omega
  next hwin =>
  rw [if_neg (not_le.mpr hslot)]
  simp only [Bool.and_eq_true,Bool.or_eq_true,decide_eq_true_eq,ne_eq,h,not_true_eq_false,false_or]
  omega

theorem storeRemoteFrame_clock (s : Session) (slot : ℕ) (f : WireFrame) :
    (storeRemoteFrame s slot f).cfg=s.cfg ∧ (storeRemoteFrame s slot f).phase=s.phase ∧
      (storeRemoteFrame s slot f).simTick=s.simTick ∧
      (storeRemoteFrame s slot f).delay=s.delay := by
  unfold storeRemoteFrame
  split_ifs <;> exact ⟨rfl,rfl,rfl,rfl⟩

variable (f : WireFrame)
theorem storeRemoteFrame_ring (hslot : slot<s.cfg.slotCount)
    (hloc : slot≠s.cfg.localSlot) : (storeRemoteFrame s slot f).remoteRings slot =
      if (s.remoteRings slot).has f.tick ∨ remoteTickInLiveWindow s slot f.tick=false
      then s.remoteRings slot else (s.remoteRings slot).store f.tick (frameSample f) := by
  unfold storeRemoteFrame
  rw [if_neg (not_or.mpr ⟨not_le.mpr hslot,hloc⟩)]
  split
  · next hwin => rw [if_pos (.inr (by simpa using hwin))]
  next hwin =>
  split
  · next hin => rw [if_pos (.inl hin)]
  next hin =>
  have hc : ¬((s.remoteRings slot).has f.tick ∨
      remoteTickInLiveWindow s slot f.tick=false) := not_or.mpr ⟨hin,by simpa using hwin⟩
  rw [if_neg hc]
  simp only [update_self]
  rfl

theorem liveWindow_store (hslot : slot<s.cfg.slotCount)
    (hloc : slot≠s.cfg.localSlot) (hlt : f.tick<t) :
    remoteTickInLiveWindow (storeRemoteFrame s slot f) slot t=remoteTickInLiveWindow s slot t := by
  obtain ⟨hcfg,hphase,hsim,hdelay⟩ := storeRemoteFrame_clock s slot f
  rw [Bool.eq_iff_iff,liveWindow_iff (by rw [hcfg]; exact hslot),liveWindow_iff hslot,hcfg,
    hphase,hsim,hdelay,storeRemoteFrame_ring f hslot hloc]
  split
  · exact Iff.rfl
  next hc =>
  rw [not_or,Bool.not_eq_false,liveWindow_iff hslot] at hc
  have hle : ringHighestValid ((s.remoteRings slot).store f.tick (frameSample f)) ≤
      max (ringHighestValid (s.remoteRings slot)) f.tick := highest_store_le ..
  rcases hc.2 with hph | hc
  · simp [hph]
  by_cases hph : s.phase=.running
  · simp only [ne_eq,hph,not_true_eq_false,false_or]
    omega
  · simp [hph]

theorem storeRemoteFrame_has_of_apart (hslot : slot<s.cfg.slotCount)
    (hloc : slot≠s.cfg.localSlot) (hm : f.tick%historyLength≠t%historyLength) :
    ((storeRemoteFrame s slot f).remoteRings slot).has t=(s.remoteRings slot).has t := by
  rw [storeRemoteFrame_ring f hslot hloc]
  split
  · rfl
  · unfold has
    rw [get?_store_of_mod_ne _ _ hm.symm]

theorem storeFrames_has_of_apart (fs : List WireFrame) (hslot : slot<s.cfg.slotCount)
    (hloc : slot≠s.cfg.localSlot) (hm : ∀ f∈fs,f.tick%historyLength≠t%historyLength) :
    ((fs.foldl (fun s f => storeRemoteFrame s slot f) s).remoteRings slot).has t =
      (s.remoteRings slot).has t := by
  induction fs generalizing s with
  | nil => rfl
  | cons f fs ih =>
    have hcfg:=(storeRemoteFrame_clock s slot f).1
    rw [foldl_cons,ih (by rw [hcfg]; exact hslot) (by rw [hcfg]; exact hloc)
      fun g hg => hm g (mem_cons_of_mem _ hg)]
    exact storeRemoteFrame_has_of_apart f hslot hloc (hm f mem_cons_self)

theorem storeFrames_has_iff (hfs : fs.Pairwise Apart)
    (hslot : slot<s.cfg.slotCount) (hloc : slot≠s.cfg.localSlot) (hmem : ∃ f∈fs,f.tick=t) :
    ((fs.foldl (fun s f => storeRemoteFrame s slot f) s).remoteRings slot).has t=true ↔
      (s.remoteRings slot).has t ∨ remoteTickInLiveWindow s slot t := by
  induction fs generalizing s with
  | nil => simp at hmem
  | cons f fs ih =>
    obtain ⟨hhead,htail⟩ := pairwise_cons.mp hfs
    have hcfg:=(storeRemoteFrame_clock s slot f).1
    have hslot' : slot<(storeRemoteFrame s slot f).cfg.slotCount := by rw [hcfg]; exact hslot
    have hloc' : slot≠(storeRemoteFrame s slot f).cfg.localSlot := by rw [hcfg]; exact hloc
    rw [foldl_cons]
    by_cases hft : f.tick=t
    · subst hft
      rw [storeFrames_has_of_apart fs hslot' hloc' fun g hg => (hhead g hg).2.symm,
        storeRemoteFrame_ring f hslot hloc]
      split
      · next hc =>
        rcases hc with hin | hout
        · simp [hin]
        · simp [hout]
      next hc =>
      rw [not_or,Bool.not_eq_false] at hc
      simp [has,hc.2]
    · obtain ⟨g,hg,hgt⟩ := hmem
      have hg' : g∈fs := by
        rcases mem_cons.mp hg with rfl | h
        · exact absurd hgt hft
        · exact h
      have hap:=hhead g hg'
      rw [ih htail hslot' hloc' ⟨g,hg',hgt⟩,
        storeRemoteFrame_has_of_apart f hslot hloc (hgt ▸ hap.2),
        liveWindow_store f hslot hloc (hgt ▸ hap.1)]

theorem onInputAck_remoteRings (s : Session) (slot ackTick : ℕ) (acks : List (Option ℕ)) :
    (onInputAck s slot ackTick acks).remoteRings=s.remoteRings := by
  obtain ⟨_,_,_,hcore⟩ := onInputAck_core s slot ackTick acks
  exact congrArg Core.remoteRings hcore

theorem le_advanceAck {ring : InputRing} {ack : Option ℕ} {a : ℕ}
    (h : advanceAck ring fuel ack=some a) (ht : t≤a) : (∃ a₀,ack=some a₀ ∧ t≤a₀) ∨ ring.has t := by
  induction fuel generalizing ack with
  | zero => exact .inl ⟨a,h,ht⟩
  | succ fuel ih =>
    cases ack with
    | none =>
      simp only [advanceAck] at h
      split at h
      · next hin =>
        rcases ih h with ⟨a₀,ha₀,hle⟩ | hring
        · cases ha₀
          obtain rfl : t=0 := by omega
          exact .inr hin
        · exact .inr hring
      · cases h
    | some b =>
      simp only [advanceAck] at h
      split at h
      · next hin =>
        rcases ih h with ⟨a₀,ha₀,hle⟩ | hring
        · cases ha₀
          by_cases htb : t≤b
          · exact .inl ⟨b,rfl,htb⟩
          · obtain rfl : t=b+1 := by omega
            exact .inr hin
        · exact .inr hring
      · exact .inl ⟨a,h,ht⟩

section Facts
variable {ι : Type} {room : Room ι} {log : List (ι × TipEvent)} {i : ι} {inp out : List Packet}
  {rows : List (ℕ × ℕ)}

structure TipGood (room : Room ι) (log : List (ι × TipEvent)) (i : ι) (c : Core) : Prop where
  cfg : c.cfg=room.cfg i
  keys : c.localRing.Holds fun t smp => smp.tick=t
  stored : ∀ q t,(c.remoteRings q).has t → (i,.stored q t)∈log
  acked : ∀ q a,c.remoteContiguousAck q=some a → ∀ t≤a,(i,.stored q t)∈log
  heard : ∀ j a,room.seat j < room.slotCount → c.peerAckSeen (room.seat j) →
    c.peerAckTick (room.seat j)=some a → ∀ t≤a,(j,.stored (room.seat i) t)∈log

def TipBody (room : Room ι) (log : List (ι × TipEvent)) : Body → Prop
  | .input slot _ _ frames acks => frames.Pairwise Apart ∧
      ∀ j,room.seat j=slot → slot < room.slotCount → ∀ q a,acks[q]? = some (some a) →
        ∀ t≤a,(j,.stored q t)∈log
  | _ => True

def tipFacts (room : Room ι) : Net.LogFacts ι Session Packet TipEvent where
  node log i s := TipGood room log i s.core
  msg log m := (∀ i,m.ForSession (room.cfg i)) ∧ TipBody room log m.body

variable {log' : List (ι × TipEvent)} {c : Core}
theorem TipGood.mono (h : TipGood room log i c) (hsub : log ⊆ log') : TipGood room log' i c :=
  ⟨h.cfg,h.keys,fun q t ht => hsub (h.stored q t ht),fun q a ha t ht => hsub (h.acked q a ha t ht),
    fun j a hj hs ha t ht => hsub (h.heard j a hj hs ha t ht)⟩

theorem TipBody.mono {b : Body} (h : TipBody room log b)
    (hsub : log ⊆ log') : TipBody room log' b := by
  cases b with
  | input slot epoch ackTick frames acks =>
    exact ⟨h.1,fun j hj hlt q a ha t ht => hsub (h.2 j hj hlt q a ha t ht)⟩
  | hello | ready | start | delaySync | inputConfirm | bye => trivial

theorem tipFacts_stable : (tipFacts room).Stable where
  node _ _ h := h.mono (subset_append_left ..)
  msg _ h := ⟨h.1,TipBody.mono h.2 (subset_append_left ..)⟩

variable {m : Packet}
theorem Session.Plain.tipBody (h : s.Plain m) : TipBody room log m.body := by
  rcases h with rfl | rfl | rfl | ⟨p,-,rfl⟩ <;> trivial
def tipEvents (i : ι) (rows : List (ℕ × ℕ)) : List (ι × TipEvent) :=
  rows.map fun row => (i,.stored row.1 row.2)

theorem TipGood.bundle (h : TipGood room log i s.core) (now : ℕ) :
    ∀ m∈(sendInputBundle now s).2,TipBody room log m.body := by
  intro m hm
  obtain ⟨ho,-,ack,hout⟩ := sendInputBundle_eq (ne_nil_of_mem hm)
  dsimp only at hout
  rw [hout] at hm
  obtain ⟨fs,hfs,rfl⟩ := mem_map.mp hm
  refine ⟨(bundleFrames_apart h.keys _ _).sublist (bundles_sublist hfs),?_⟩
  intro j hj hlt q a ha
  have hcfg : s.cfg=room.cfg i := h.cfg
  have hji : j=i := by
    rw [hcfg] at hj hlt
    refine room.seat_unique i j ?_ (hj.trans (room.seat_of_wireId hlt).symm)
    have := room.seat_of_wireId hlt
    unfold Room.seat at this
    omega
  subst hji
  unfold bundleAcks at ha
  split at ha
  · simp only [List.getElem?_map,map_eq_some_iff] at ha
    obtain ⟨q',hq',ha⟩ := ha
    obtain rfl : q=q' := by
      have := List.getElem?_eq_some_iff.mp hq'
      simpa using this.2
    exact h.acked q a ha
  · simp at ha

variable {ring : InputRing}
theorem seed_keys (d : ℕ) (h : ring.Holds fun t smp => smp.tick=t) :
    ((List.range d).foldl (fun ring t =>
      if (ringGet ring t).isSome then ring else ringStore ring (neutralSample t)) ring).Holds
        fun t smp => smp.tick=t := by
  induction d with
  | zero => exact h
  | succ d ih =>
    rw [range_succ,foldl_append,foldl_cons,foldl_nil]
    split
    · exact ih
    · exact ih.store rfl

variable {tip : ℕ}
theorem fillTip_keys {simTick : ℕ} {sampled : InputSample}
    (h : ring.Holds fun t smp => smp.tick=t) :
    (fillTip simTick tip sampled ring).Holds fun t smp => smp.tick=t := by
  unfold fillTip
  induction List.range' simTick (tip+1-simTick) generalizing ring with
  | nil => exact h
  | cons w ws ih =>
    rw [foldl_cons]
    split
    · exact ih h
    · exact ih (h.store rfl)

theorem TipGood.of_ring (h : TipGood room log i c) (hkeys : ring.Holds fun t smp => smp.tick=t) :
    TipGood room log i { c with localRing := ring } :=
  { h with keys := hkeys }

theorem TipGood.store (h : TipGood room log i s.core) (slot : ℕ) (f : WireFrame) :
    TipGood room (log++tipEvents i (storedRow s slot f)) i (storeRemoteFrame s slot f).core := by
  rcases storeRemoteFrame_cases s slot f with ⟨hs,hrow⟩ | ⟨-,-,-,-,hrow,hcore⟩
  · rw [hs,hrow]
    simpa [tipEvents] using h
  dsimp only at hcore
  rw [hcore,hrow]
  have hsub : log ⊆ log++tipEvents i [(slot,f.tick)] := subset_append_left ..
  have hnew : (i,TipEvent.stored slot f.tick)∈log++tipEvents i [(slot,f.tick)] := by
    simp [tipEvents]
  have hring : ∀ q t,(update s.remoteRings slot
      ((s.remoteRings slot).store f.tick (frameSample f)) q).has t →
      (i,TipEvent.stored q t)∈log++tipEvents i [(slot,f.tick)] := by
    intro q t ht
    by_cases hq : q=slot
    · subst hq
      rw [update_self] at ht
      obtain ⟨v,hv⟩ := isSome_iff_exists.mp ht
      rcases get?_store_eq_some hv with ⟨rfl,-⟩ | hold
      · exact hnew
      · exact hsub (h.stored q t (isSome_iff_exists.mpr ⟨v,hold⟩))
    · rw [update_of_ne hq] at ht
      exact hsub (h.stored q t ht)
  have h':=h.mono hsub
  refine ⟨h'.cfg,h'.keys,hring,?_,h'.heard⟩
  intro q a ha t ht
  dsimp only at ha
  split at ha
  · by_cases hq : q=slot
    · subst hq
      rw [update_self] at ha
      rcases le_advanceAck ha ht with ⟨a₀,ha₀,hle⟩ | hin
      · exact h'.acked q a₀ ha₀ t hle
      · exact hring q t (by rw [update_self]; exact hin)
    · rw [update_of_ne hq] at ha
      exact h'.acked q a ha t ht
  · exact h'.acked q a ha t ht

variable {epoch ackTick : ℕ} {frames : List WireFrame} {acks : List (Option ℕ)}

section
variable (h : TipGood room log i s.core)
include h
theorem TipGood.ack {slot : ℕ} (hm : TipBody room log (.input slot epoch ackTick frames acks)) :
    TipGood room log i (onInputAck s slot ackTick acks).core := by
  have hcfg : s.cfg=room.cfg i := h.cfg
  rcases onInputAck_cases s slot ackTick acks with ⟨high,hcore⟩ | hcore
  · rw [hcore]
    exact { h with }
  rw [hcore]
  refine { h with heard := ?_ }
  intro j a hj hseen ha
  by_cases hq : room.seat j=slot
  · simp only [hq,update_self] at ha
    have hget : acks[room.seat i]? = some (some a) := by
      rw [hcfg] at ha
      cases hx : acks[(room.cfg i).localSlot]? with
      | none => simp [hx] at ha
      | some x =>
        rw [hx,getD_some] at ha
        unfold Room.seat
        rw [hx,ha]
    exact hm.2 j hq (hq ▸ hj) _ a hget
  · simp only [update_of_ne hq] at hseen ha
    exact h.heard j a hj hseen ha

theorem TipGood.step (hin : ∀ m∈inp,TipBody room log m.body) (hstep : Step inp s out rows s') :
    TipGood room (log++tipEvents i rows) i s'.core ∧
      ∀ m∈out,TipBody room (log++tipEvents i rows) m.body := by
  have hnil : log++tipEvents i []=log := append_nil log
  -- only `store` adds rows; what else changes is outside the facts or a local ring
  cases hstep with
  | calm hcore hout =>
    rw [hcore]
    exact ⟨by simpa [tipEvents] using h,fun m hm => (hout m hm).tipBody⟩
  | bundle now =>
    rw [sendInputBundle_core]
    rw [hnil]
    exact ⟨h,h.bundle now⟩
  | confirm now wire =>
    rw [hnil]
    rcases prepareWireConfirm_cases now s wire with ⟨hs,hout⟩ | ⟨_,_,-,hcore,hout⟩
    · rw [hs,hout]
      exact ⟨h,by simp⟩
    rw [hcore]
    refine ⟨{ h with },fun m hm => ?_⟩
    rw [hout m hm]
    trivial
  | reconfirm now wire hash =>
    rw [hnil]
    refine ⟨{ h with },fun m hm => ?_⟩
    rw [mem_singleton.mp hm]
    trivial
  | @start s₁ tick _ hcore _ =>
    rw [hnil]
    have h₁ : TipGood room log i s₁.core := by
      rw [hcore]
      exact { h with }
    exact ⟨h₁.of_ring (seed_keys _ h₁.keys),by simp⟩
  | sample sampled =>
    rw [hnil]
    refine ⟨?_,by simp⟩
    unfold sampleLocalFuture
    split
    · exact h
    · exact h.of_ring (h.keys.store rfl)
  | adopt m _ _ delay =>
    rw [hnil]
    refine ⟨?_,by simp⟩
    split
    · exact { h with keys := seed_keys delay h.keys }
    · exact { h with }
  | store m slot _ _ _ f => exact ⟨h.store slot f,by simp⟩
  | ack m slot ackTick frames acks hm hbody =>
    rw [hnil]
    exact ⟨h.ack (hbody ▸ hin m hm),by simp⟩
  | delaySync m newDelay effectiveTick =>
    rw [hnil]
    refine ⟨?_,by simp⟩
    unfold onDelaySync
    split <;> exact { h with }
  | peerConfirm m slot tick hash =>
    rw [hnil]
    refine ⟨?_,by simp⟩
    rcases onInputConfirm_core s slot tick hash with ⟨-,hs⟩ | ⟨-,hcore⟩
    · rw [hs]
      exact h
    · rw [hcore]
      exact { h with }

theorem TipGood.steps (hin : ∀ m∈inp,TipBody room log m.body)
    (hsteps : Steps inp s out rows s') : TipGood room (log++tipEvents i rows) i s'.core ∧
      ∀ m∈out,TipBody room (log++tipEvents i rows) m.body := by
  induction hsteps with
  | refl => simpa [tipEvents] using h
  | @tail s₁ s₂ out out' rows rows' _ hstep ih =>
    have hlog : log++tipEvents i (rows++rows')=(log++tipEvents i rows)++tipEvents i rows' := by
      simp [tipEvents]
    obtain ⟨hnode,hmsg⟩ := ih
    obtain ⟨hnode',hmsg'⟩ := hnode.step (fun m hm => (hin m hm).mono (subset_append_left ..)) hstep
    rw [hlog]
    refine ⟨hnode',fun m hm => ?_⟩
    rcases mem_append.mp hm with hold | hnew
    · exact (hmsg m hold).mono (subset_append_left ..)
    · exact hmsg' m hnew

end

variable {w : Net ι Session Packet TipEvent}
theorem tip_init (h : TipInit room w) : (tipFacts room).Holds w := by
  obtain ⟨hsent,hlog,hnode⟩ := h
  refine ⟨fun i => ?_,by simp [hsent]⟩
  have hfresh : TipGood room w.log i (freshSession (room.cfg i)).core :=
    ⟨rfl,Holds.empty _,fun q t ht => (by cases ht),fun q a ha => (by cases ha),
      fun j a _ hs => (by cases hs)⟩
  obtain ⟨s₀,hs₀,h⟩ := hnode i
  obtain rfl := sessionCreate_eq_some hs₀
  rcases h with h | h
  · show TipGood room w.log i (w.node i).core
    rw [h]
    exact hfresh
  show TipGood room w.log i (w.node i).core
  rw [h]
  exact hfresh

theorem forSession_all {cfg : Config} (h : m.ForSession cfg) (hcfg : cfg=room.cfg i)
    (j : ι) : m.ForSession (room.cfg j) := by
  subst hcfg
  refine ⟨h.1.trans ?_,h.2.trans ?_⟩
  · rw [room.same_magic,room.same_magic]
  · rw [room.same_session,room.same_session]

theorem tip_described [DecidableEq ι] (hw : TipReach room w) : (tipFacts room).Holds w := by
  refine Net.log_invariant tipFacts_stable (fun w h => tip_init h) ?_ hw
  intro w i c hholds _ hin
  have hgood : TipGood room w.log i (w.node i).core := hholds.node i
  cases c with
  | pump now linkUp pkts =>
    have hsteps:=steps_sessionPump now linkUp pkts (w.node i)
    obtain ⟨hnode,hmsg⟩ := hgood.steps (fun m hm => (hin m hm).2) hsteps
    have hlog : w.log++((pumpRows now (linked linkUp (w.node i)) pkts).map
        fun row => TipEvent.stored row.1 row.2).map (fun e => (i,e)) =
        w.log++tipEvents i (pumpRows now (linked linkUp (w.node i)) pkts) := by
      simp [tipEvents,Function.comp_def]
    simp only [tipFacts,tipSpec,hlog]
    exact ⟨hnode,fun m hm =>
      ⟨forSession_all (hsteps.forSession m hm) hgood.cfg,hmsg m hm⟩⟩
  | prepareLocalTip now simTick sampled =>
    simp only [tipFacts,tipSpec,map_nil,append_nil,prepareLocalTip]
    split
    · exact ⟨hgood,by simp⟩
    split
    · exact ⟨hgood,by simp⟩
    have hfill : TipGood room w.log i (fillLocalTip simTick sampled (w.node i)).core :=
      hgood.of_ring (fillTip_keys hgood.keys)
    rw [sendInputBundle_core]
    refine ⟨hfill,fun m hm => ⟨?_,hfill.bundle now m hm⟩⟩
    have hfor:=(show Step [] _ _ _ _ from Step.bundle now).forSession m hm
    exact forSession_all hfor hgood.cfg
  | setSimTick simTick =>
    simp only [tipFacts,tipSpec,map_nil,append_nil,setSimTick,applyPendingDelay]
    refine ⟨?_,by simp⟩
    split
    · split <;> exact { hgood with }
    · exact { hgood with }

theorem foldl_min_le {α : Type} {f : α → ℕ} {skip : α → Prop} [DecidablePred skip] {l : List α}
    {b : ℕ} {x : α} (hx : x∈l) (hskip : ¬ skip x) :
    l.foldl (fun acc y => if skip y then acc else min (f y) acc) b≤f x := by
  have hle : ∀ (l : List α) (b : ℕ),
      l.foldl (fun acc y => if skip y then acc else min (f y) acc) b≤b := by
    intro l
    induction l with
    | nil => exact fun b => le_refl b
    | cons y l ih =>
      intro b
      rw [foldl_cons]
      refine le_trans (ih _) ?_
      split
      · exact le_refl b
      · exact Nat.min_le_right ..
  induction l generalizing b with
  | nil => cases hx
  | cons y l ih =>
    rw [foldl_cons]
    rcases mem_cons.mp hx with rfl | hx
    · refine le_trans (hle l _) ?_
      rw [if_neg hskip]
      exact Nat.min_le_left ..
    · exact ih hx

theorem ackFloor_le {ackLo : ℕ} (hlow : tip<t+64) (hack : ackLo≤t) : ackFloor tip ackLo≤t := by
  unfold ackFloor
  split <;> omega

theorem bundleLo_le_of_missing {a b : ι} (h : TipGood room log a s.core)
    (hslots : 2 < room.slotCount) (hb : room.seat b < room.slotCount) (hab : a≠b)
    (hnever : (b,TipEvent.stored (room.seat a) t)∉log) (hlow : tip<t+64) : bundleLo s tip≤t := by
  have hcfg : s.cfg=room.cfg a := h.cfg
  have hocc : s.cfg.slotOccupied (room.seat b) := by
    have hocc:=room.seat_occupied b hb
    simp only [Config.slotOccupied,hcfg,room.same_slotCount,room.same_mask] at hocc ⊢
    exact hocc
  have hloc : room.seat b≠s.cfg.localSlot := by
    rw [hcfg]
    intro heq
    have ha : (room.cfg a).localSlot < room.slotCount := heq ▸ hb
    exact hab (room.seat_unique a b ha heq).symm
  have hslots' : 2<s.cfg.slotCount := by rw [hcfg,room.same_slotCount]; exact hslots
  have hmem : room.seat b∈List.range s.cfg.slotCount := by
    rw [mem_range,hcfg,room.same_slotCount]
    exact hb
  unfold bundleLo
  dsimp only
  rw [if_pos hslots']
  refine le_trans (Nat.min_le_left ..) (ackFloor_le hlow ?_)
  refine le_trans (foldl_min_le hmem (by simp [hloc,hocc])) ?_
  split
  · exact Nat.zero_le t
  next hseen =>
  split
  · exact Nat.zero_le t
  next a hack =>
  by_contra hgt
  have hseen' : s.peerAckSeen (room.seat b) := by simpa using hseen
  exact hnever (h.heard b a hb hseen' hack t (Nat.lt_succ_iff.mp (not_le.mp hgt)))

theorem bundleLo_le_iff_pair (hslots : s.cfg.slotCount=2) (hlow : tip<t+64)
    (hhigh : t≤tip) : bundleLo s tip≤t ↔ s.highestRemoteAck<t ∨
      tip<t+max (max s.cfg.bundleRedundancy 1) (s.delay+1) := by
  unfold bundleLo ackFloor
  dsimp only
  rw [if_neg (by omega)]
  generalize max (max s.cfg.bundleRedundancy 1) (s.delay+1)=red
  split
  · split <;> omega
  · omega

theorem handleDecoded_input (now : ℕ)
    (hm : m.magic=s.cfg.protocolMagic ∧ m.sessionId=s.cfg.sessionId)
    (hbody : m.body=.input slot epoch ackTick frames acks) (hepoch : epoch=s.inputEpoch) :
    (handleDecoded now s m).1.remoteRings =
      (frames.foldl (fun s f => storeRemoteFrame s slot f) s).remoteRings := by
  unfold handleDecoded
  rw [if_neg (by simp [hm.1,hm.2]),hbody]
  dsimp only [onInput]
  rw [if_neg (not_not.mpr hepoch),onInputAck_remoteRings]

end Facts

section Main
variable {ι : Type} [DecidableEq ι] {room : Room ι} {w : Net ι Session Packet TipEvent} {a b : ι}

/-- **Rollback INPUT delivery.** -/
theorem tip_delivery (hw : TipReach room w) (ha : room.seat a < room.slotCount)
    (hb : room.seat b < room.slotCount) (hab : a≠b) (t now : ℕ) :
    let sA:=w.node a
    let sB:=w.node b
    let tip:=wireTickFromSim sA.simTick sA.delay
    let slop:=sB.cfg.bundleRedundancy+8
    ((b,TipEvent.stored (room.seat a) t)∉w.log → tip<t+64 → t≤tip →
      sA.localRing.has t=true → (sendInputBundle now sA).2≠[] →
      (2 < room.slotCount → ∃ m∈(sendInputBundle now sA).2,m.Carries (room.seat a) t) ∧
      (room.slotCount=2 → ((∃ m∈(sendInputBundle now sA).2,m.Carries (room.seat a) t) ↔
        sA.highestRemoteAck<t ∨ tip<t+max (max sA.cfg.bundleRedundancy 1) (sA.delay+1)))) ∧
    ∀ m∈w.sent,∀ epoch ackTick frames acks,
      m.body=.input (room.seat a) epoch ackTick frames acks → (∃ f∈frames,f.tick=t) →
      epoch=sB.inputEpoch → sB.simTick≤t+64 → t ≤ sB.simTick+64 →
      (((handleDecoded now sB m).1.remoteRings (room.seat a)).has t=true ↔
        (sB.remoteRings (room.seat a)).has t=true ∨ sB.phase≠.running ∨
          (t ≤ sB.simTick+sB.delay+slop ∧
            (sB.simTick≤t+slop ∨ ringHighestValid (sB.remoteRings (room.seat a))<t))) := by
  intro sA sB tip slop
  have hdescr:=tip_described hw
  have hA : TipGood room w.log a sA.core := hdescr.node a
  have hB : TipGood room w.log b sB.core := hdescr.node b
  have hcfgA : sA.cfg=room.cfg a := hA.cfg
  have hcfgB : sB.cfg=room.cfg b := hB.cfg
  have hwire : sA.cfg.wireId=room.seat a := by rw [hcfgA]; exact room.wire_seat a ha
  constructor
  · intro hnever hlow hhigh hhas hsend
    obtain ⟨smp,hget⟩ := isSome_iff_exists.mp hhas
    have hcarry : bundleLo sA tip≤t →
        ∃ m∈(sendInputBundle now sA).2,m.Carries (room.seat a) t := by
      intro hlo
      rw [← hwire]
      exact sendInputBundle_carries hsend hlo hhigh hget (hA.keys t smp hget)
    constructor
    · intro hslots
      exact hcarry (bundleLo_le_of_missing hA hslots hb hab hnever hlow)
    · intro hslots
      rw [← bundleLo_le_iff_pair (by rw [hcfgA,room.same_slotCount,hslots]) hlow hhigh]
      constructor
      · rintro ⟨m,hm,hc⟩
        exact bundleLo_le_of_carries hA.keys hm hc
      · exact hcarry
  · intro m hm epoch ackTick frames acks hbody hf hepoch hlow hhigh
    obtain ⟨hfor,hmsg⟩ := hdescr.msg m hm
    have happart : frames.Pairwise Apart := by
      rw [hbody] at hmsg
      exact hmsg.1
    have hslot : room.seat a<sB.cfg.slotCount := by rw [hcfgB,room.same_slotCount]; exact ha
    have hloc : room.seat a≠sB.cfg.localSlot := by
      rw [hcfgB]
      exact fun heq => hab (room.seat_unique b a hb heq)
    have hfor' : m.ForSession sB.cfg := by rw [hcfgB]; exact hfor b
    rw [handleDecoded_input now hfor' hbody hepoch,storeFrames_has_iff happart hslot hloc hf,
      liveWindow_iff hslot]
    simp only [hlow,and_true]
    rfl

/-- **An acknowledged row is stored**: where acknowledgements go by seat (from three seats on), a row
counts as acknowledged by a seat only if the session there has stored it. -/
theorem acked_rows_stored (hw : TipReach room w) (hb : room.seat b < room.slotCount) {ack : ℕ}
    (hseen : (w.node a).peerAckSeen (room.seat b))
    (hack : (w.node a).peerAckTick (room.seat b)=some ack) :
    ∀ t≤ack,(b,TipEvent.stored (room.seat a) t)∈w.log := by
  have hA : TipGood room w.log a (w.node a).core := (tip_described hw).node a
  exact hA.heard b ack hb hseen hack

end Main

/-! A two-seat room with delay 20. The host's bundles are lost until the bundle of
rows 1..22 goes out as two datagrams, of which the guest gets the second. -/
def longPairCfg (guest : Bool) : Config := { pairCfg guest with inputDelay := 20 }

def longPair : Room Bool where
  cfg := longPairCfg
  slotCount := 2
  occupiedMask := 0
  sessionId := 1
  protocolMagic := 0x524E4554
  same_slotCount _ := rfl
  same_mask _ := rfl
  same_session _ := rfl
  same_magic _ := rfl
  two_le := Room.pair.two_le
  le_maxSlots := Room.pair.le_maxSlots
  wire_seat _ _ := rfl
  wire_observer i h := by cases i <;> exact absurd h (by decide)
  seat_occupied i _ := by cases i <;> rfl
  seat_unique i j _ h := by cases i <;> cases j <;> first | rfl | cases h

def longPairStart : Net Bool Session Packet TipEvent where
  node i := sessionStartLan (freshSession (longPairCfg i))
  sent := []
  log := []

def neutralFrames (lo count : ℕ) : List WireFrame :=
  (List.range' lo count).map fun t => ⟨t,0,PadBytes.zero⟩
def neutralInput (slot ack lo count : ℕ) : Packet :=
  ⟨0x524E4554,1,.input slot 0 ack (neutralFrames lo count) []⟩

def splitCalls : List (Bool × TipCall) := [(false,.pump 100 false []),
    (true,.pump 100 false [⟨0x524E4554,1,.hello 0 2 20 wireVersion⟩]),
    (false,.pump 110 false [⟨0x524E4554,1,.ready 1⟩]),
    (true,.pump 120 false [⟨0x524E4554,1,.start 0⟩]),
    (false,.prepareLocalTip 200 0 (neutralSample 0)),
    (false,.setSimTick 1),(false,.prepareLocalTip 220 1 (neutralSample 0)),
    (false,.setSimTick 2),(false,.prepareLocalTip 240 2 (neutralSample 0))]

def holeCalls : List (Bool × TipCall) :=
  splitCalls++[(true,.pump 250 false [neutralInput 0 0 22 1]),
    (false,.pump 260 false [neutralInput 1 22 0 20])] ++
    (List.range 13).map fun t => (true,.setSimTick (t+1))

def holeRun (calls : List (Bool × TipCall)) : Net Bool Session Packet TipEvent :=
  Net.run (tipSpec Bool) longPairStart calls
theorem longPairStart_reach : TipReach longPair longPairStart :=
  .start ⟨rfl,rfl,fun i => ⟨freshSession (longPairCfg i),by cases i <;> rfl,.inr rfl⟩⟩

theorem tip_delivery_split :
    TipReach longPair (holeRun splitCalls) ∧
      (∃ m∈(sendInputBundle 300 ((holeRun splitCalls).node false)).2,m.Carries 0 1) := by
  have hreach : TipReach longPair (holeRun splitCalls) :=
    Net.Reach.run _ longPairStart_reach (by decide +kernel)
  have h:=(tip_delivery hreach (a := false) (b := true) (by decide) (by decide) (by decide) 1
    300).1 (by decide +kernel) (by decide +kernel) (by decide +kernel) (by decide +kernel)
    (by decide +kernel)
  exact ⟨hreach,(h.2 rfl).mpr (.inl (by decide +kernel))⟩

theorem row_lost_for_good :
    let w:=holeRun holeCalls
    TipReach longPair w ∧ (true,TipEvent.stored 0 1)∉w.log ∧ (w.node false).localRing.has 1=true ∧
      wireTickFromSim (w.node false).simTick (w.node false).delay=22 ∧
      (sendInputBundle 300 (w.node false)).2=[neutralInput 0 19 2 21] ∧
      neutralInput 0 0 1 21∈w.sent ∧ (w.node true).simTick=13 ∧
      ((handleDecoded 300 (w.node true) (neutralInput 0 0 1 21)).1.remoteRings 0).has 1=false := by
  refine ⟨Net.Reach.run _ longPairStart_reach (by decide +kernel),?_,?_,?_,?_,?_,?_,?_⟩ <;>
    decide +kernel

def openSeat : Room Bool where
  cfg i := { pairCfg i with slotCount := 3,occupiedMask := 3 }
  slotCount := 3
  occupiedMask := 3
  sessionId := 1
  protocolMagic := 0x524E4554
  same_slotCount _ := rfl
  same_mask _ := rfl
  same_session _ := rfl
  same_magic _ := rfl
  two_le := by decide
  le_maxSlots := by decide
  wire_seat _ _ := rfl
  wire_observer i h := by cases i <;> exact absurd h (by decide)
  seat_occupied i _ := by cases i <;> rfl
  seat_unique i j _ h := by cases i <;> cases j <;> first | rfl | cases h

/-- Each pump delivers all that was sent; the newest stands first. -/
def openRun (pumps : List (Bool × ℕ)) : Net Bool Session Packet TipEvent :=
  pumps.foldr (fun p w => Net.next (tipSpec Bool) w p.1 (.pump p.2 false w.sent))
    ⟨fun i => sessionStartLan (freshSession (openSeat.cfg i)),[],[]⟩

theorem openRun_reach (pumps : List (Bool × ℕ)) : TipReach openSeat (openRun pumps) := by
  induction pumps with
  | nil => exact .start ⟨rfl,rfl,fun i => ⟨freshSession _,by cases i <;> rfl,.inr rfl⟩⟩
  | cons p pumps ih => exact .call p.1 _ ih (fun _ hm => hm) trivial

def openAcked : Net Bool Session Packet TipEvent :=
  openRun [(false,150),(true,140),(false,130),(true,120),(false,110),(true,100),(false,100)]

theorem acked_rows_stored_open : (openAcked.node false).peerAckTick (openSeat.seat true)=some 1 ∧
    (true,TipEvent.stored (openSeat.seat false) 1)∈openAcked.log := by
  have hack : (openAcked.node false).peerAckTick (openSeat.seat true)=some 1 := by decide +kernel
  have hreach : TipReach openSeat openAcked := openRun_reach _
  exact ⟨hack,acked_rows_stored hreach (by decide) (by decide +kernel) hack 1 le_rfl⟩

end RecompNet.DelaySync
