import RecompNet.Session.EpochIsolation
import RecompNet.Session.LocalRows

/-!
# The delay of a session

HELLO and `rnet_session_request_delay_change` look at the delay they bring, DELAY_SYNC does not.
-/
namespace RecompNet.DelaySync
variable {s s' : Session}

section
variable (hb : Bounded s)
include hb
theorem Bounded.congr (hd : s'.delay=s.delay)
    (hp : s'.delayPending=s.delayPending) : Bounded s' := by
  unfold Bounded
  rw [hd,hp]
  exact hb

theorem Bounded.of_core (h : s'.core=s.core) : Bounded s' :=
  hb.congr (congrArg Core.delay h) (congrArg Core.delayPending h)
theorem Bounded.bundle (now : ℕ) : Bounded (sendInputBundle now s).1 :=
  hb.of_core (sendInputBundle_core now s)
theorem Bounded.quietly {r : Session × List Packet} (h : Quietly [] s r) :
    Bounded r.1 := Steps.bounded h (by simp) hb

theorem Bounded.handleDecoded (now : ℕ) {m : Packet} (hm : m.body.InRange) :
    Bounded (handleDecoded now s m).1 :=
  (steps_handleDecoded now (List.mem_singleton_self m) s).bounded
    (fun m' hm' => by rwa [List.mem_singleton.mp hm']) hb

theorem Bounded.applyPendingDelay : Bounded (applyPendingDelay s) := by
  unfold DelaySync.applyPendingDelay
  split
  · next p hp =>
    split
    · exact ⟨hb.2 p hp,by simp⟩
    · exact hb
  · exact hb

theorem Bounded.requestDelayChange (now newDelay : ℕ) :
    Bounded (requestDelayChange now newDelay s).1 := by
  have hnew : ∀ effective,Bounded
      { s with delayPending := some ⟨min (max newDelay 2) 20,effective⟩ } := fun effective => by
    refine ⟨hb.1,?_⟩
    rintro p ⟨⟩
    dsimp only
    omega
  unfold DelaySync.requestDelayChange
  dsimp only
  split_ifs
  · exact hb
  · exact hb
  split
  · split
    · exact hb.congr rfl rfl
    · exact (hnew _).congr rfl rfl
  · exact (hnew _).congr rfl rfl

end

def Session.slop (s : Session) : ℕ := s.cfg.bundleRedundancy+8

/-- The ticks around the sim that a running session works with. -/
def Session.Near (s : Session) (t : ℕ) : Prop :=
  s.simTick-s.slop≤t ∧ t≤wireTickFromSim s.simTick s.delay+s.slop

theorem near_slots_distinct (hwide : 2*s.slop+s.delay<historyLength) {t t' : ℕ}
    (ht : s.Near t) (ht' : s.Near t') (h : t%historyLength=t'%historyLength) : t=t' := by
  unfold Session.Near wireTickFromSim at ht ht'
  by_contra hne
  rcases Nat.lt_or_gt_of_ne hne with hlt | hgt
  · exact TickRing.mod_ne_of_lt_add hlt (by omega) h.symm
  · exact TickRing.mod_ne_of_lt_add hgt (by omega) h

end RecompNet.DelaySync

namespace RecompNet.Whole.Session
open DelaySync (Bounded)
open Proto (DecodedPacket)
variable {s : Session}

/-- A DELAY_SYNC in the datagram names a delay that `rnet_session_request_delay_change` allows. -/
def DelaysLegal (cfg : Config) (bytes : List UInt8) : Prop :=
  ∀ pkt,Proto.decode (bytes.getD · 0) bytes.length (UInt32.ofNat cfg.protocolMagic)=some pkt →
    pkt.type=.delaySync → 2≤pkt.newDelay.toNat ∧ pkt.newDelay.toNat≤20

variable {pkt : DecodedPacket}
theorem inputBody_inRange {body : DelaySync.Body}
    (hpkt : pkt.type=.delaySync → 2≤pkt.newDelay.toNat ∧ pkt.newDelay.toNat≤20)
    (h : inputBody pkt=some body) : body.InRange := by
  unfold inputBody at h
  cases htype : pkt.type <;> rw [htype] at h <;> cases h
  case delaySync => exact hpkt htype
  all_goals exact trivial

theorem onControl_input (pkt : DecodedPacket) : (s.onControl pkt).input=s.input := by
  unfold onControl onProfiles
  dsimp only
  split
  · rfl
  split
  · rfl
  split
  · rfl
  · rfl
  · split <;> rfl
  · rfl

theorem bounded_withInput {f : DelaySync.Session → DelaySync.Session} (hb : Bounded s.input)
    (hf : ∀ i,Bounded i → Bounded (f i)) : Bounded (s.withInput f).input := hf _ (hb.congr rfl rfl)

theorem bounded_handleDecoded (hb : Bounded s.input) (now : ℕ)
    (hpkt : pkt.type=.delaySync → 2≤pkt.newDelay.toNat ∧ pkt.newDelay.toNat≤20) :
    Bounded (s.handleDecoded now pkt).input := by
  unfold handleDecoded
  split_ifs
  · exact hb
  · exact hb
  split
  · next body hbody =>
    have hbye : Bounded (s.noteBye pkt).input := by
      unfold noteBye
      dsimp only
      split <;> exact hb
    exact bounded_withInput hbye fun i hi => hi.handleDecoded now (inputBody_inRange hpkt hbody)
  split
  · exact hb
  · rw [onControl_input]
    exact hb

theorem bounded_hear (hb : Bounded s.input) (now : ℕ) {bytes : List UInt8}
    (hbytes : DelaysLegal s.cfg bytes) : Bounded (s.hear now bytes).input := by
  unfold hear
  split
  · next pkt hpkt =>
    have hstamp : Bounded (s.stamp now pkt).input := by
      unfold stamp
      split
      · split <;> exact hb
      · exact hb
    exact bounded_handleDecoded hstamp now (hbytes pkt (Option.mem_filter_iff.mp hpkt).1)
  · exact hb

variable {cfg : Config}
theorem bounded_hearAll (now : ℕ) (ds : List (List UInt8))
    (hds : ∀ bytes∈ds,DelaysLegal cfg bytes) (hcfg : s.cfg=cfg) (hb : Bounded s.input) :
    (s.hearAll now ds).cfg=cfg ∧ Bounded (s.hearAll now ds).input := by
  induction ds generalizing s with
  | nil => exact ⟨hcfg,hb⟩
  | cons bytes ds ih =>
    have hbytes : DelaysLegal s.cfg bytes := hcfg ▸ hds bytes List.mem_cons_self
    exact ih (fun b h => hds b (List.mem_cons_of_mem _ h))
      ((Safe.hear (A := [bytes]) now List.mem_cons_self).cfg.trans hcfg) (bounded_hear hb now hbytes)

theorem bounded_burst (now : ℕ) (bursts : List (List (List UInt8)))
    (hds : ∀ bytes∈bursts.flatten,DelaysLegal cfg bytes) (hcfg : s.cfg=cfg)
    (hb : Bounded s.input) : Bounded (burst now bursts s).input := by
  induction bursts generalizing s with
  | nil => exact hb
  | cons ds rest ih =>
    unfold burst
    dsimp only
    split
    · exact hb
    obtain ⟨hcfg',hb'⟩ := bounded_hearAll (s := s.withState fun p => (StateSync.driveSender now p).1)
      now ds (fun b h => hds b (by simp [h])) hcfg hb
    exact ih (fun b h => hds b (List.mem_append_right _ h)) hcfg' hb'

theorem bounded_pump (hb : Bounded s.input) (now : ℕ) (linkUp : Bool) (ds : List (List UInt8))
    (bursts : List (List (List UInt8)))
    (hds : ∀ bytes∈ds++bursts.flatten,DelaysLegal s.cfg bytes) :
    Bounded (s.pump now linkUp ds bursts).input := by
  have h₁ : Bounded (s.withInput (DelaySync.linked linkUp)).input :=
    bounded_withInput hb fun i hi => hi.of_core (DelaySync.linked_core linkUp i)
  have hc₁ : (s.withInput (DelaySync.linked linkUp)).cfg=s.cfg :=
    congrArg DelaySync.Core.cfg (DelaySync.linked_core linkUp _)
  obtain ⟨hc₂,h₂⟩ := bounded_hearAll now ds (fun b h => hds b (List.mem_append_left _ h)) hc₁ h₁
  unfold pump
  dsimp only
  generalize (s.withInput (DelaySync.linked linkUp)).hearAll now ds=s₂ at hc₂ h₂ ⊢
  have h₃ : Bounded (s₂.withInput fun i => (DelaySync.maybeBootstrap now i).1).input :=
    bounded_withInput h₂ fun i hi => hi.quietly (.maybeBootstrap now i)
  have hquiet (i : DelaySync.Session) : DelaySync.Quietly [] i (DelaySync.maybeBootstrap now i) :=
    .maybeBootstrap now i
  have hc₃ : (s₂.withInput fun i => (DelaySync.maybeBootstrap now i).1).cfg=s.cfg :=
    (DelaySync.Steps.cfg_eq (hquiet _)).trans hc₂
  refine bounded_withInput (bounded_withInput (bounded_withInput ?_ fun i hi =>
    hi.quietly (.keepAlive now i)) fun i hi => hi.bundle now) fun i hi =>
    hi.quietly (.resendDelaySync now i)
  split
  · exact bounded_burst now bursts (fun b h => hds b (List.mem_append_right _ h)) hc₃ h₃
  · exact h₃

theorem bounded_call (hb : Bounded s.input) (c : Call)
    (hc : ∀ bytes∈c.datagrams,DelaysLegal s.cfg bytes) : Bounded (s.call c).input := by
  cases c with
  | startLan => exact bounded_withInput hb fun i hi => hi.congr rfl rfl
  | pump now linkUp ds bursts => exact bounded_pump hb now linkUp ds bursts hc
  | tryAdmit now simTick sampled =>
    have hgated : Bounded { s.input with gate := s.gate } := hb.congr rfl rfl
    exact hgated.quietly (.tryAdmit now simTick sampled _)
  | advance => exact bounded_withInput hb fun i hi =>
      Bounded.applyPendingDelay (s := { i with simTick := i.simTick+1 }) (hi.congr rfl rfl)
  | requestDelayChange now newDelay =>
    exact bounded_withInput hb fun i hi => hi.requestDelayChange now newDelay
  | hardResync => exact ⟨hb.1,fun p hp => by cases hp⟩
  | primeDelayInputs now size bytes =>
    show Bounded (s.primeDelayInputs now size bytes).input
    unfold primeDelayInputs
    split
    · exact hb
    · refine Bounded.bundle ?_ now
      exact hb.congr rfl rfl
  | setInputSendSuppress | clearRemoteInputs => exact hb.congr rfl rfl
  | prepareLocalTip now simTick sampled =>
    refine bounded_withInput hb fun i hi => ?_
    unfold DelaySync.prepareLocalTip
    split_ifs
    · exact hi
    · exact hi
    · exact Bounded.bundle (s := DelaySync.fillLocalTip simTick sampled i) (hi.congr rfl rfl) now
  | setSimTick simTick => exact bounded_withInput hb fun i hi =>
      Bounded.applyPendingDelay (s := { i with simTick := simTick }) (hi.congr rfl rfl)
  | takeRb kind =>
    show Bounded (s.takeRb kind).1.input
    unfold takeRb
    split <;> exact hb
  | takeModsetAck | profilesBegin =>
    unfold call
    dsimp only
    split <;> exact hb
  | _ => exact hb

theorem cfg_call (c : Call) : (s.call c).cfg=s.cfg := by
  by_cases hc : c=.hardResync
  · rw [hc]
    rfl
  · exact (Safe.call c hc (List.Subset.refl _)).cfg

theorem run_bounded (cs : List Call)
    (hcs : ∀ c∈cs,∀ bytes∈c.datagrams,DelaysLegal cfg bytes) (hcfg : s.cfg=cfg)
    (hb : Bounded s.input) : (cs.foldl call s).cfg=cfg ∧ Bounded (cs.foldl call s).input := by
  induction cs generalizing s with
  | nil => exact ⟨hcfg,hb⟩
  | cons c cs ih =>
    exact ih (fun c' h => hcs c' (List.mem_cons_of_mem _ h)) ((cfg_call c).trans hcfg)
      (bounded_call hb c (hcfg ▸ hcs c List.mem_cons_self))

/-- **The session delay stays legal** in every run from a legal configuration in which every
DELAY_SYNC names a legal delay. -/
theorem delay_stays_legal (cfg : Config) (hdelay : 2 ≤ cfg.inputDelay ∧ cfg.inputDelay≤20)
    (hwide : 2*(cfg.bundleRedundancy+8)+20<historyLength) (cs : List Call)
    (hcs : ∀ c∈cs,∀ bytes∈c.datagrams,DelaysLegal cfg bytes) :
    let s:=cs.foldl call (freshSession cfg)
    (2 ≤ s.input.delay ∧ s.input.delay≤20) ∧
      ∀ t t',s.input.Near t → s.input.Near t' → t%historyLength=t'%historyLength → t=t' := by
  intro s
  obtain ⟨hcfg,hb⟩ := run_bounded (s := freshSession cfg) cs hcs rfl ⟨hdelay,fun p hp => by cases hp⟩
  refine ⟨hb.1,fun t t' ht ht' => DelaySync.near_slots_distinct ?_ ht ht'⟩
  have hslop : s.input.slop=cfg.bundleRedundancy+8 := by
    rw [← hcfg]
    rfl
  rw [hslop]
  have hle : s.input.delay≤20 := hb.1.2
  omega

def syncCalls (newDelay : UInt8) : List Call :=
  let cfg:=pairCfg false
  let magic:=UInt32.ofNat cfg.protocolMagic
  let sid:=UInt32.ofNat cfg.sessionId
  [.startLan,.pump 1 false [(Proto.encodeStart 1200 magic sid 0).getD [],
    (Proto.encodeDelaySync 1200 magic sid newDelay 0).getD []] []]

theorem delay_stays_legal_pair :
    ((syncCalls 5).foldl call (freshSession (pairCfg false))).input.delay=5 ∧ (2≤5 ∧ 5≤20) := by
  have hrun : ((syncCalls 5).foldl call (freshSession (pairCfg false))).input.delay=5 := by
    decide +kernel
  have hall : ∀ c∈syncCalls 5,∀ bytes∈c.datagrams,(Proto.decode (bytes.getD · 0) bytes.length
      (UInt32.ofNat (pairCfg false).protocolMagic)).all (fun pkt => decide
        (pkt.type=.delaySync → 2≤pkt.newDelay.toNat ∧ pkt.newDelay.toNat≤20))=true := by
    decide +kernel
  have h:=(delay_stays_legal (pairCfg false) (by decide +kernel) (by decide +kernel) (syncCalls 5)
    fun c hc bytes hbytes pkt hpkt => by
      have hb:=hall c hc bytes hbytes
      rw [hpkt] at hb
      exact of_decide_eq_true hb).1
  rw [hrun] at h
  exact ⟨hrun,h⟩

instance (s : DelaySync.Session) (t : ℕ) : Decidable (s.Near t) := inferInstanceAs (Decidable (_ ∧ _))
def overdue : Session := (syncCalls 200).foldl call (freshSession (pairCfg false))
def redundant : Session := (syncCalls 2++[Call.setSimTick 100]).foldl call
  (freshSession { pairCfg false with bundleRedundancy := 60 })

theorem delay_sync_unchecked :
    (overdue.input.phase=.running ∧ overdue.input.delay=200 ∧ overdue.input.Near 0 ∧
      overdue.input.Near 128) ∧
    redundant.input.phase=.running ∧ redundant.input.delay=2 ∧ redundant.input.Near 40 ∧
      redundant.input.Near (40+128) := by
  decide +kernel

end RecompNet.Whole.Session
