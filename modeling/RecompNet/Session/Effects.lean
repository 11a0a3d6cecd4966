import RecompNet.Session.DelaySync

/-!
# What a call on a session can do

Every call on a delay-sync session is a sequence of a dozen small effects: a bundle is sent, a
confirmation is prepared, a remote row is stored, a delay is taken over, the session starts.
-/
namespace RecompNet.DelaySync
open Function List

structure Core where
  cfg : Config
  running : Bool
  simTick : ℕ
  delay : ℕ
  delayPending : Option PendingDelay
  localRing : InputRing
  remoteRings : ℕ → InputRing
  highestRemoteAck : ℕ
  remoteContiguousAck : ℕ → Option ℕ
  peerAckTick : ℕ → Option ℕ
  peerAckSeen : ℕ → Bool
  published : TickRing historyLength ℕ
  peerHistory : ℕ → TickRing historyLength ℕ
  inputEpoch : ℕ

def Session.core (s : Session) : Core where
  cfg := s.cfg
  running := s.phase == .running
  simTick := s.simTick
  delay := s.delay
  delayPending := s.delayPending
  localRing := s.localRing
  remoteRings := s.remoteRings
  highestRemoteAck := s.highestRemoteAck
  remoteContiguousAck := s.remoteContiguousAck
  peerAckTick := s.peerAckTick
  peerAckSeen := s.peerAckSeen
  published := s.published
  peerHistory := s.peerHistory
  inputEpoch := s.inputEpoch

/-- How far behind the sim `refresh_confirm_window` reaches. -/
def Session.trail (s : Session) : ℕ :=
  min (max (s.delay+s.cfg.bundleRedundancy+8) 16) (historyLength/2)

def Session.Plain (s : Session) (m : Packet) : Prop :=
  m=s.packet (.hello s.cfg.wireId s.cfg.slotCount s.delay wireVersion) ∨
    m=s.packet (.ready s.cfg.wireId) ∨ m=s.packet (.start 0) ∨
    ∃ p,s.delayPending=some p ∧ m=s.packet (.delaySync p.value p.effective)

/-- A datagram that `handle_decoded` does not drop at once. -/
def Packet.ForSession (cfg : Config) (m : Packet) : Prop :=
  m.magic=cfg.protocolMagic ∧ m.sessionId=cfg.sessionId
instance (cfg : Config) (m : Packet) : Decidable (m.ForSession cfg) :=
  inferInstanceAs (Decidable (_ ∧ _))

def storedRow (s : Session) (slot : ℕ) (f : WireFrame) : List (ℕ × ℕ) :=
  if s.cfg.slotCount ≤ slot ∨ slot=s.cfg.localSlot then []
  else if !remoteTickInLiveWindow s slot f.tick then []
  else if (ringGet (s.remoteRings slot) f.tick).isSome then []
  else [(slot,f.tick)]

inductive Step (inp : List Packet) : Session → List Packet → List (ℕ × ℕ) → Session → Prop
  | calm {s s' out} (hcore : s'.core=s.core) (hout : ∀ m∈out,s.Plain m) : Step inp s out [] s'
  | bundle {s} (now : ℕ) : Step inp s (sendInputBundle now s).2 [] (sendInputBundle now s).1
  | confirm {s} (now wire : ℕ) (hrun : s.phase=.running) (hlow : s.simTick≤wire+s.trail)
      (hhigh : wire ≤ s.simTick+s.delay) :
      Step inp s (prepareWireConfirm now s wire).2.1 [] (prepareWireConfirm now s wire).1
  | reconfirm {s} (now wire hash : ℕ) (hpub : s.published.get? wire=some hash) :
      Step inp s (sendInputConfirmTick now s wire hash).2 [] (sendInputConfirmTick now s wire hash).1
  | start {s s₁} (tick : ℕ) (hph : s.phase≠.running)
      (hcore : s₁.core={ s.core with running := true,simTick := tick })
      (htick : tick=0 ∨ ∃ m∈inp,m.body=.start tick) : Step inp s [] [] (seedDelayPrefix s₁)
  | sample {s} (sampled : InputSample) (hrun : s.phase=.running) (ho : s.isObserver=false) :
      Step inp s [] [] (sampleLocalFuture s (wireTickFromSim s.simTick s.delay) sampled)
  | adopt {s} (m : Packet) (localSlot slotCount delay version : ℕ) (hm : m∈inp)
      (hbody : m.body=.hello localSlot slotCount delay version) (hlow : 2≤delay)
      (hhigh : delay≤20) (hne : delay≠s.delay) (hrun : s.phase=.running → s.simTick=0) :
      Step inp s [] [] (if s.phase≠.running then seedDelayPrefix { s with delay := delay }
        else { s with delay := delay })
  | store {s} (m : Packet) (slot ackTick : ℕ) (frames : List WireFrame) (acks : List (Option ℕ))
      (f : WireFrame) (hm : m∈inp) (hbody : m.body=.input slot s.inputEpoch ackTick frames acks)
      (hf : f∈frames) : Step inp s [] (storedRow s slot f) (storeRemoteFrame s slot f)
  | ack {s} (m : Packet) (slot ackTick : ℕ) (frames : List WireFrame) (acks : List (Option ℕ))
      (hm : m∈inp) (hbody : m.body=.input slot s.inputEpoch ackTick frames acks) :
      Step inp s [] [] (onInputAck s slot ackTick acks)
  | delaySync {s} (m : Packet) (newDelay effectiveTick : ℕ) (hm : m∈inp)
      (hbody : m.body=.delaySync newDelay effectiveTick) :
      Step inp s [] [] (onDelaySync s newDelay effectiveTick)
  | peerConfirm {s} (m : Packet) (slot tick hash : ℕ) (hm : m∈inp)
      (hbody : m.body=.inputConfirm slot s.inputEpoch tick hash) :
      Step inp s [] [] (onInputConfirm s slot s.inputEpoch tick hash)

inductive Steps (inp : List Packet) : Session → List Packet → List (ℕ × ℕ) → Session → Prop
  | refl (s : Session) : Steps inp s [] [] s
  | tail {s s₁ s₂ out out' rows rows'} : Steps inp s out rows s₁ → Step inp s₁ out' rows' s₂ →
      Steps inp s (out++out') (rows++rows') s₂

variable {inp : List Packet} {s s₁ s₂ : Session} {out out' : List Packet} {rows rows' : List (ℕ × ℕ)}
theorem Step.steps (h : Step inp s out rows s₁) : Steps inp s out rows s₁ := by
  simpa using (Steps.refl s).tail h

theorem Steps.trans (h : Steps inp s out rows s₁) (h' : Steps inp s₁ out' rows' s₂) :
    Steps inp s (out++out') (rows++rows') s₂ := by
  induction h' with
  | refl => simpa using h
  | tail _ hstep ih =>
    rw [← append_assoc,← append_assoc]
    exact ih.tail hstep

theorem Step.cfg_eq (h : Step inp s out rows s₁) : s₁.cfg=s.cfg := by
  cases h with
  | calm hcore _ => exact congrArg Core.cfg hcore
  | bundle now =>
    unfold sendInputBundle
    dsimp only
    split_ifs <;> rfl
  | confirm now wire =>
    unfold prepareWireConfirm
    split
    · rfl
    dsimp only
    split
    · rfl
    · split_ifs <;> rfl
  | reconfirm => rfl
  | start tick _ hcore _ => exact congrArg Core.cfg hcore
  | sample =>
    unfold sampleLocalFuture
    split <;> rfl
  | adopt => split <;> rfl
  | store =>
    unfold storeRemoteFrame
    split_ifs <;> rfl
  | ack =>
    unfold onInputAck
    dsimp only
    split_ifs <;> rfl
  | delaySync =>
    unfold onDelaySync
    split <;> rfl
  | peerConfirm =>
    unfold onInputConfirm
    split
    · rfl
    dsimp only
    split
    · split_ifs <;> rfl
    · rfl

theorem Steps.cfg_eq (h : Steps inp s out rows s₁) : s₁.cfg=s.cfg := by
  induction h with
  | refl => rfl
  | tail _ hstep ih => exact hstep.cfg_eq.trans ih

def Quietly (inp : List Packet) (s : Session) (r : Session × List Packet) : Prop :=
  Steps inp s r.2 [] r.1
theorem Quietly.refl (s : Session) : Quietly inp s (s,[]) := Steps.refl s

variable {a : Session × List Packet}
theorem Quietly.seq {b : Session × List Packet} (h : Quietly inp s a) (h' : Quietly inp a.1 b) :
    Quietly inp s (b.1,a.2++b.2) := Steps.trans h h'

theorem Quietly.of_step {r : Session × List Packet} (h : Step inp s r.2 [] r.1) :
    Quietly inp s r := h.steps
theorem Quietly.silent (h : Step inp s [] [] s₁) : Quietly inp s (s₁,[]) := h.steps
theorem Quietly.calm (hcore : s₁.core=s.core) : Quietly inp s (s₁,[]) :=
  .silent (.calm hcore (by simp))

theorem Quietly.then_calm (h : Quietly inp s a)
    (hcore : s₁.core=a.1.core) : Quietly inp s (s₁,a.2) := by
  have hseq:=h.seq (Quietly.calm hcore)
  rwa [append_nil] at hseq

theorem Quietly.bundle (now : ℕ) (s : Session) : Quietly inp s (sendInputBundle now s) :=
  (Step.bundle now).steps

variable {f : WireFrame} {fuel : ℕ} {fs : List WireFrame}
theorem mem_of_mem_bundles {g : List WireFrame}
    (hg : g∈bundles fuel fs) (hf : f∈g) : f∈fs := by
  induction fuel generalizing fs with
  | zero => cases fs <;> simp [bundles] at hg
  | succ fuel ih =>
    cases fs with
    | nil => simp [bundles] at hg
    | cons x xs =>
      simp only [bundles,mem_cons] at hg
      rcases hg with rfl | hg
      · exact mem_of_mem_take hf
      · exact mem_of_mem_drop (ih hg)

theorem mem_bundleFrames {lo tip : ℕ} (hf : f∈bundleFrames s lo tip) :
    ∃ t smp,ringGet s.localRing t=some smp ∧ f=wireFrame smp := by
  simp only [bundleFrames,mem_filterMap,Option.map_eq_some_iff] at hf
  obtain ⟨t,-,smp,hget,rfl⟩ := hf
  exact ⟨t,smp,hget,rfl⟩

/-- An INPUT of seat `slot` with a row for `tick`. -/
def Packet.Carries (slot tick : ℕ) (m : Packet) : Prop :=
  ∃ epoch ackTick frames acks,m.body=.input slot epoch ackTick frames acks ∧
    ∃ f∈frames,f.tick=tick

theorem exists_mem_bundles (hf : f∈fs)
    (hfuel : fs.length≤fuel) : ∃ g∈bundles fuel fs,f∈g := by
  induction fuel generalizing fs with
  | zero =>
    rw [length_eq_zero_iff.mp (Nat.le_zero.mp hfuel)] at hf
    cases hf
  | succ fuel ih =>
    cases fs with
    | nil => cases hf
    | cons x xs =>
      simp only [bundles,mem_cons,exists_eq_or_imp]
      rw [← take_append_drop maxBundle (x::xs)] at hf
      rcases mem_append.mp hf with h | h
      · exact .inl h
      refine .inr (ih h ?_)
      simp only [length_drop,length_cons,maxBundle] at hfuel ⊢
      omega

def bundleAcks (s : Session) : List (Option ℕ) :=
  if 2<s.cfg.slotCount then (List.range s.cfg.slotCount).map s.remoteContiguousAck else []

variable {now : ℕ}
theorem sendInputBundle_eq (h : (sendInputBundle now s).2≠[]) :
    s.isObserver=false ∧ s.phase=.running ∧ ∃ ack,let tip:=wireTickFromSim s.simTick s.delay
      let frames:=bundleFrames s (bundleLo s tip) tip
      (sendInputBundle now s).2=(bundles (frames.length+1) frames).map fun fs =>
        s.packet (.input s.cfg.wireId s.inputEpoch ack fs (bundleAcks s)) := by
  unfold sendInputBundle at h ⊢
  dsimp only at h ⊢
  split at h
  · exact absurd rfl h
  next ho =>
  split at h
  · exact absurd rfl h
  next hrun =>
  split at h
  · exact absurd rfl h
  next hgate =>
  split at h
  · exact absurd rfl h
  next hpace =>
  split at h
  · exact absurd rfl h
  next hframes =>
  rw [if_neg ho,if_neg hrun,if_neg hgate,if_neg hpace,if_neg hframes]
  exact ⟨by simpa using ho,not_not.mp hrun,_,rfl⟩

variable {m : Packet}
theorem mem_sendInputBundle (hm : m∈(sendInputBundle now s).2) :
    s.isObserver=false ∧ ∃ lo tip ack acks fs,(∀ f∈fs,f∈bundleFrames s lo tip) ∧
      m=s.packet (.input s.cfg.wireId s.inputEpoch ack fs acks) := by
  obtain ⟨ho,-,ack,hout⟩ := sendInputBundle_eq (ne_nil_of_mem hm)
  dsimp only at hout
  rw [hout] at hm
  obtain ⟨fs,hfs,rfl⟩ := mem_map.mp hm
  exact ⟨ho,_,_,ack,_,fs,fun f hf => mem_of_mem_bundles hfs hf,rfl⟩

variable {t : ℕ}
theorem wireFrame_mem_bundleFrames {smp : InputSample} {lo tip : ℕ} (hlow : lo≤t) (hhigh : t≤tip)
    (hget : ringGet s.localRing t=some smp) : wireFrame smp∈bundleFrames s lo tip := by
  refine mem_filterMap.mpr ⟨t,?_,by rw [hget]; rfl⟩
  rw [mem_range'_1]
  omega

/-- `send_input_bundle` gets past its gates and its pacing. -/
def BundleDue (now : ℕ) (s : Session) : Prop :=
  s.phase=.running ∧ s.gate.stateStallSim=false ∧ s.gate.inputSendSuppress=false ∧
    (s.lastInputTip=some (wireTickFromSim s.simTick s.delay) → 8≤now-s.lastInputMs)

theorem BundleDue.sends {smp : InputSample} (h : BundleDue now s) (ho : s.isObserver=false)
    (hlow : bundleLo s (wireTickFromSim s.simTick s.delay)≤t)
    (hhigh : t≤wireTickFromSim s.simTick s.delay) (hget : ringGet s.localRing t=some smp) :
    (sendInputBundle now s).2≠[] := by
  obtain ⟨hrun,hstall,hsuppress,hpace⟩ := h
  have hmem:=wireFrame_mem_bundleFrames hlow hhigh hget
  obtain ⟨g,hg,-⟩ := exists_mem_bundles hmem (Nat.le_succ _)
  unfold sendInputBundle
  dsimp only
  rw [if_neg (by simp [ho]),if_neg (by simp [hrun]),if_neg (by simp [hstall,hsuppress]),
    if_neg fun hsoon => absurd hsoon.2 (not_lt.mpr (hpace hsoon.1)),if_neg (ne_nil_of_mem hmem)]
  exact ne_nil_of_mem (mem_map_of_mem hg)

theorem sendInputBundle_carries {smp : InputSample} (h : (sendInputBundle now s).2≠[])
    (hlow : bundleLo s (wireTickFromSim s.simTick s.delay)≤t)
    (hhigh : t≤wireTickFromSim s.simTick s.delay) (hget : ringGet s.localRing t=some smp)
    (htick : smp.tick=t) : ∃ m∈(sendInputBundle now s).2,m.Carries s.cfg.wireId t := by
  obtain ⟨-,-,ack,hout⟩ := sendInputBundle_eq h
  dsimp only at hout
  obtain ⟨g,hg,hfg⟩ := exists_mem_bundles (wireFrame_mem_bundleFrames hlow hhigh hget)
    (Nat.le_succ _)
  rw [hout]
  exact ⟨_,mem_map.mpr ⟨g,hg,rfl⟩,_,_,_,_,rfl,_,hfg,htick⟩

variable {slot : ℕ}
theorem bundleLo_le_of_carries
    (hkeys : s.localRing.Holds fun t smp => smp.tick=t) (hm : m∈(sendInputBundle now s).2)
    (hc : m.Carries slot t) : bundleLo s (wireTickFromSim s.simTick s.delay)≤t := by
  obtain ⟨-,-,ack,hout⟩ := sendInputBundle_eq (ne_nil_of_mem hm)
  dsimp only at hout
  rw [hout] at hm
  obtain ⟨g,hg,rfl⟩ := mem_map.mp hm
  obtain ⟨_,_,frames,_,hbody,f,hf,htick⟩ := hc
  cases hbody
  have hmem:=mem_of_mem_bundles hg hf
  simp only [bundleFrames,mem_filterMap,Option.map_eq_some_iff] at hmem
  obtain ⟨t',ht',smp,hget,rfl⟩ := hmem
  have hkey : smp.tick=t' := hkeys t' smp hget
  rw [mem_range'_1] at ht'
  simp only [wireFrame] at htick
  omega

def frameSample (f : WireFrame) : InputSample := ⟨f.tick,f.size,PadBytes.copy f.size f.bytes,true⟩

theorem storeRemoteFrame_cases (s : Session) (slot : ℕ) (f : WireFrame) :
    (storeRemoteFrame s slot f=s ∧ storedRow s slot f=[]) ∨
    (slot<s.cfg.slotCount ∧ slot≠s.cfg.localSlot ∧
      remoteTickInLiveWindow s slot f.tick ∧ ringGet (s.remoteRings slot) f.tick=none ∧
      storedRow s slot f=[(slot,f.tick)] ∧
      let ring:=(s.remoteRings slot).store f.tick (frameSample f)
      (storeRemoteFrame s slot f).core={ s.core with
        remoteRings := update s.remoteRings slot ring
        remoteContiguousAck :=
          if 2<s.cfg.slotCount then
            update s.remoteContiguousAck slot
              (advanceAck ring historyLength (s.remoteContiguousAck slot))
          else s.remoteContiguousAck }) := by
  unfold storeRemoteFrame storedRow
  split
  · exact .inl ⟨rfl,rfl⟩
  next hslot =>
  split
  · exact .inl ⟨rfl,rfl⟩
  next hwin =>
  split
  · exact .inl ⟨rfl,rfl⟩
  next hnew =>
  rw [not_or,not_le] at hslot
  exact .inr ⟨hslot.1,hslot.2,by simpa using hwin,by simpa using hnew,rfl,rfl⟩

theorem prepareWireConfirm_cases (now : ℕ) (s : Session) (wire : ℕ) :
    ((prepareWireConfirm now s wire).1=s ∧ (prepareWireConfirm now s wire).2.1=[]) ∨
    ∃ resolved hash,collectWireInputs s wire=some resolved ∧
      (prepareWireConfirm now s wire).1.core =
        { s.core with published := s.published.store wire hash } ∧
      ∀ m∈(prepareWireConfirm now s wire).2.1,
        m=s.packet (.inputConfirm s.cfg.wireId s.inputEpoch wire hash) := by
  unfold prepareWireConfirm
  cases hcol : collectWireInputs s wire with
  | none => exact .inl ⟨rfl,rfl⟩
  | some resolved =>
    refine .inr ⟨resolved,hashResolvedInputs wire resolved,rfl,?_⟩
    dsimp only
    split
    · exact ⟨rfl,by simp⟩
    split_ifs
    · exact ⟨rfl,fun m hm => mem_singleton.mp hm⟩
    · exact ⟨rfl,by simp⟩

theorem mapM_getElem? {α β : Type} {f : α → Option β} {l : List α} {r : List β}
    (h : l.mapM f=some r) (q : ℕ) {a : α} (ha : l[q]? = some a) :
    ∃ b,r[q]? = some b ∧ f a=some b := by
  induction l generalizing r q with
  | nil => simp at ha
  | cons x xs ih =>
    rw [mapM_cons] at h
    simp only [Option.pure_def,Option.bind_eq_bind,Option.bind_eq_some_iff,Option.some.injEq] at h
    obtain ⟨b,hb,bs,hbs,rfl⟩ := h
    cases q with
    | zero =>
      obtain rfl : x=a := by simpa using ha
      exact ⟨b,rfl,hb⟩
    | succ q => exact ih hbs q (by simpa using ha)

variable {wire : ℕ} {resolved : List InputSample}
theorem collectWireInputs_rows
    (h : collectWireInputs s wire=some resolved) (hslot : slot<s.cfg.slotCount)
    (hocc : s.cfg.slotOccupied slot) :
    (ringGet (if slot=s.cfg.localSlot then s.localRing else s.remoteRings slot) wire).isSome := by
  obtain ⟨smp,-,hsmp⟩ := mapM_getElem? h slot (getElem?_range hslot)
  simp only [collectSlot,hocc,Bool.not_true,Bool.false_eq_true,if_false,
    Option.map_eq_some_iff] at hsmp
  obtain ⟨x,hx,-⟩ := hsmp
  split at hx
  · next hloc => rw [if_pos hloc,hx]; rfl
  · next hloc => rw [if_neg hloc,hx]; rfl

theorem onInputAck_cases (s : Session) (slot ackTick : ℕ) (acks : List (Option ℕ)) :
    (∃ high,(onInputAck s slot ackTick acks).core={ s.core with highestRemoteAck := high }) ∨
    (onInputAck s slot ackTick acks).core={ s.core with
      peerAckTick := update s.peerAckTick slot ((acks[s.cfg.localSlot]?).getD none)
      peerAckSeen := update s.peerAckSeen slot true } := by
  unfold onInputAck
  dsimp only
  split
  · split_ifs
    · exact .inr rfl
    · exact .inl ⟨_,rfl⟩
  split_ifs
  · exact .inl ⟨_,rfl⟩
  · exact .inl ⟨_,rfl⟩

theorem onInputAck_core (s : Session) (slot ackTick : ℕ) (acks : List (Option ℕ)) :
    ∃ high peerTick peerSeen,(onInputAck s slot ackTick acks).core={ s.core with
      highestRemoteAck := high,peerAckTick := peerTick,peerAckSeen := peerSeen } := by
  rcases onInputAck_cases s slot ackTick acks with ⟨high,h⟩ | h
  · exact ⟨high,_,_,h⟩
  · exact ⟨_,_,_,h⟩

theorem Step.forSession (h : Step inp s out rows s₁) : ∀ m∈out,m.ForSession s.cfg := by
  intro m hm
  cases h with
  | calm _ hout => rcases hout m hm with rfl | rfl | rfl | ⟨_,-,rfl⟩ <;> exact ⟨rfl,rfl⟩
  | bundle now =>
    obtain ⟨-,-,ack,hout⟩ := sendInputBundle_eq (ne_nil_of_mem hm)
    dsimp only at hout
    rw [hout] at hm
    obtain ⟨fs,-,rfl⟩ := mem_map.mp hm
    exact ⟨rfl,rfl⟩
  | confirm now wire =>
    rcases prepareWireConfirm_cases now s wire with ⟨-,hout⟩ | ⟨_,_,-,-,hout⟩
    · rw [hout] at hm
      cases hm
    · rw [hout m hm]
      exact ⟨rfl,rfl⟩
  | reconfirm =>
    rw [mem_singleton.mp hm]
    exact ⟨rfl,rfl⟩
  | start | sample | adopt | store | ack | delaySync | peerConfirm => cases hm

theorem Steps.forSession (h : Steps inp s out rows s₁) : ∀ m∈out,m.ForSession s.cfg := by
  induction h with
  | refl => simp
  | tail hsteps hstep ih =>
    intro m hm
    rcases mem_append.mp hm with hold | hnew
    · exact ih m hold
    · exact hsteps.cfg_eq ▸ hstep.forSession m hnew

theorem onInputConfirm_core (s : Session) (slot tick hash : ℕ) :
    (s.cfg.slotCount ≤ slot ∧ onInputConfirm s slot s.inputEpoch tick hash=s) ∨
    (slot<s.cfg.slotCount ∧ (onInputConfirm s slot s.inputEpoch tick hash).core={ s.core with
        peerHistory := update s.peerHistory slot ((s.peerHistory slot).store tick hash) }) := by
  unfold onInputConfirm
  split
  · next hc => exact .inl ⟨hc.resolve_left (not_not.mpr rfl),rfl⟩
  next hc =>
  rw [not_or,not_le] at hc
  refine .inr ⟨hc.2,?_⟩
  dsimp only
  split
  · split_ifs <;> rfl
  · rfl

variable (now)
theorem sendInputBundle_core (s : Session) : (sendInputBundle now s).1.core=s.core := by
  unfold sendInputBundle
  dsimp only
  split_ifs <;> rfl

theorem bootstrapAnnounce_core (s : Session) : (bootstrapAnnounce now s).1.core=s.core := by
  unfold bootstrapAnnounce
  dsimp only
  split_ifs <;> rfl

theorem bootstrapAnnounce_plain (s : Session) : ∀ m∈(bootstrapAnnounce now s).2,s.Plain m := by
  have hello : ∀ b : Bool,∀ m∈(if b then
      [s.packet (.hello s.cfg.wireId s.cfg.slotCount s.delay wireVersion)] else []),
      s.Plain m := by
    intro b m hm
    cases b
    · cases hm
    · exact .inl (mem_singleton.mp hm)
  unfold bootstrapAnnounce
  dsimp only
  split
  · intro m hm
    rcases mem_append.mp hm with h | h
    · exact hello _ m h
    split at h
    · exact .inr (.inl (mem_singleton.mp h))
    · cases h
  · exact hello _

theorem Quietly.onReady (s : Session) (localSlot : ℕ) : Quietly inp s (onReady s localSlot) := by
  unfold DelaySync.onReady
  split
  · exact .refl s
  dsimp only
  split_ifs
  · refine .of_step (.calm rfl ?_)
    intro m hm
    exact .inr (.inr (.inl (mem_singleton.mp hm)))
  · exact .calm rfl

theorem Quietly.keepAlive (s : Session) : Quietly inp s (keepAlive now s) := by
  unfold DelaySync.keepAlive
  split
  · exact .of_step (.calm rfl fun m hm => .inl (mem_singleton.mp hm))
  · exact .refl s

theorem Quietly.resendDelaySync (s : Session) : Quietly inp s (resendDelaySync now s) := by
  unfold DelaySync.resendDelaySync
  split
  · next p hp =>
    split
    · exact .of_step (.calm rfl fun m hm =>
        .inr (.inr (.inr ⟨p,hp,mem_singleton.mp hm⟩)))
    · exact .refl s
  · exact .refl s

theorem Quietly.onHello {localSlot slotCount delay version : ℕ} (hm : m∈inp)
    (hbody : m.body=.hello localSlot slotCount delay version) (s : Session) :
    Quietly inp s (onHello s localSlot slotCount delay version,[]) := by
  unfold DelaySync.onHello
  split
  · exact .refl s
  split
  · exact .refl s
  have h₁ : Quietly inp s ((if s.phase=.linking then { s with phase := .ready } else s),[]) := by
    split
    · next hl => exact .calm (by simp [Session.core,hl])
    · exact .refl s
  revert h₁
  generalize (if s.phase=.linking then { s with phase := .ready } else s)=s₁
  intro h₁
  dsimp only
  split
  · next hc =>
    obtain ⟨-,-,hlow,hhigh,hne,hrun⟩ := hc
    have hstep:=Step.adopt  m localSlot slotCount delay version hm hbody
      hlow hhigh hne fun h => hrun.resolve_left (not_not.mpr h)
    exact h₁.seq (.silent hstep)
  · exact h₁

variable {tick : ℕ}
theorem Quietly.onStart (hm : m∈inp)
    (hbody : m.body=.start tick) (s : Session) : Quietly inp s (onStart now s tick) := by
  unfold DelaySync.onStart
  split
  · exact .refl s
  next hph =>
  have hstart : Step inp s [] [] (seedDelayPrefix { s with simTick := tick,phase := .running }) :=
    .start tick hph (by simp [Session.core]) (.inr ⟨m,hm,hbody⟩)
  exact (Quietly.silent hstart).seq (Quietly.bundle now _)

def storedRows : Session → ℕ → List WireFrame → List (ℕ × ℕ)
  | _,_,[] => []
  | s,slot,f::fs => storedRow s slot f++storedRows (storeRemoteFrame s slot f) slot fs

theorem storeRemoteFrame_epoch (s : Session) (slot : ℕ) (f : WireFrame) :
    (storeRemoteFrame s slot f).inputEpoch=s.inputEpoch := by
  unfold storeRemoteFrame
  split
  · rfl
  split
  · rfl
  · split <;> rfl

theorem steps_storeFrames {ackTick : ℕ} {frames : List WireFrame}
    {acks : List (Option ℕ)} (hm : m∈inp) (fs : List WireFrame) (hfs : ∀ f∈fs,f∈frames) :
    ∀ s : Session,m.body=.input slot s.inputEpoch ackTick frames acks →
      Steps inp s [] (storedRows s slot fs) (fs.foldl (fun s f => storeRemoteFrame s slot f) s) := by
  induction fs with
  | nil => exact fun s _ => .refl s
  | cons f fs ih =>
    intro s hbody
    have hstep : Step inp s [] (storedRow s slot f) (storeRemoteFrame s slot f) :=
      .store m slot ackTick frames acks f hm hbody (hfs f mem_cons_self)
    exact hstep.steps.trans (ih (fun g hg => hfs g (mem_cons_of_mem _ hg)) _
      (by rw [storeRemoteFrame_epoch]; exact hbody))

theorem storeFrames_epoch (slot : ℕ) (fs : List WireFrame) (s : Session) :
    (fs.foldl (fun s f => storeRemoteFrame s slot f) s).inputEpoch=s.inputEpoch := by
  induction fs generalizing s with
  | nil => rfl
  | cons f fs ih => rw [foldl_cons,ih,storeRemoteFrame_epoch]

def packetRows (s : Session) (m : Packet) : List (ℕ × ℕ) :=
  if m.magic≠s.cfg.protocolMagic ∨ m.sessionId≠s.cfg.sessionId then []
  else match m.body with
    | .input slot epoch _ frames _ => if epoch≠s.inputEpoch then [] else storedRows s slot frames
    | _ => []

theorem steps_handleDecoded (hm : m∈inp) (s : Session) :
    Steps inp s (handleDecoded now s m).2 (packetRows s m) (handleDecoded now s m).1 := by
  unfold handleDecoded packetRows
  split
  · exact .refl s
  · cases hbody : m.body with
    | hello localSlot slotCount delay version => exact Quietly.onHello hm hbody s
    | ready localSlot => exact Quietly.onReady s localSlot
    | start tick => exact Quietly.onStart now hm hbody s
    | input slot epoch ackTick frames acks =>
      dsimp only
      unfold onInput
      split
      · exact .refl s
      next he =>
      obtain rfl : epoch=s.inputEpoch := not_not.mp he
      have hstore:=steps_storeFrames hm frames (fun _ h => h) s hbody
      have hack : Step inp (frames.foldl (fun s f => storeRemoteFrame s slot f) s) [] []
          (onInputAck (frames.foldl (fun s f => storeRemoteFrame s slot f) s) slot ackTick acks) :=
        .ack m slot ackTick frames acks hm (by rw [storeFrames_epoch]; exact hbody)
      simpa using hstore.tail hack
    | delaySync newDelay effectiveTick =>
      exact (Step.delaySync m newDelay effectiveTick hm hbody).steps
    | inputConfirm slot epoch tick hash =>
      dsimp only
      by_cases he : epoch=s.inputEpoch
      · subst he
        exact (Step.peerConfirm m slot tick hash hm hbody).steps
      have hsame : onInputConfirm s slot epoch tick hash=s := if_pos (.inl he)
      rw [hsame]
      exact .refl s
    | bye localSlot =>
      dsimp only
      split
      · exact Quietly.calm rfl
      · exact .refl s

theorem pumpRecv_session (s : Session) (pkts : List Packet) :
    (pumpRecv now s pkts).1=pkts.foldl (fun s m => (handleDecoded now s m).1) s := by
  unfold pumpRecv
  generalize ([] : List Packet)=out
  induction pkts generalizing s out with
  | nil => rfl
  | cons m ms ih => exact ih _ _

/-- Rows that the datagrams of one `pump_recv` add, in order. -/
def pumpRows (now : ℕ) : Session → List Packet → List (ℕ × ℕ)
  | _,[] => []
  | s,m::ms => packetRows s m++pumpRows now (handleDecoded now s m).1 ms

theorem steps_pumpRecv (pkts : List Packet) (hp : ∀ m∈pkts,m∈inp) (s : Session) :
    Steps inp s (pumpRecv now s pkts).2 (pumpRows now s pkts) (pumpRecv now s pkts).1 := by
  have main : ∀ (pkts : List Packet) (acc : Session × List Packet) (rows : List (ℕ × ℕ)),
      (∀ m∈pkts,m∈inp) → Steps inp s acc.2 rows acc.1 →
      let r:=pkts.foldl (fun acc m =>
        ((handleDecoded now acc.1 m).1,acc.2++(handleDecoded now acc.1 m).2)) acc
      Steps inp s r.2 (rows++pumpRows now acc.1 pkts) r.1 := by
    intro pkts
    induction pkts with
    | nil => intro acc rows _ h; simpa [pumpRows] using h
    | cons m ms ih =>
      intro acc rows hin h
      rw [foldl_cons,pumpRows,← append_assoc]
      exact ih _ _ (fun x hx => hin x (mem_cons_of_mem _ hx))
        (h.trans (steps_handleDecoded now (hin m mem_cons_self) acc.1))
  exact main pkts (s,[]) [] hp (.refl s)

theorem Quietly.bootstrapStart (s : Session) : Quietly inp s (bootstrapStart now s) := by
  unfold DelaySync.bootstrapStart
  dsimp only
  split
  · next hc =>
    have hph : s.phase≠.running := by rcases hc.1 with h | h <;> rw [h] <;> decide
    have hsay : Quietly inp s (s,[s.packet (.start 0)]) :=
      .of_step (.calm rfl fun m hm => .inr (.inr (.inl (mem_singleton.mp hm))))
    have hstart : Step inp s [] []
        (seedDelayPrefix { s with startSent := true,simTick := 0,phase := .running }) :=
      .start 0 hph (by simp [Session.core]) (.inl rfl)
    exact (hsay.seq (.silent hstart)).seq (Quietly.bundle now _)
  · exact .refl s

theorem Quietly.maybeBootstrap (s : Session) : Quietly inp s (maybeBootstrap now s) :=
  Quietly.seq (Quietly.of_step (.calm (bootstrapAnnounce_core now s) (bootstrapAnnounce_plain now s)))
    (Quietly.bootstrapStart now _)

variable (linkUp : Bool)

/-- The session `rnet_session_pump` hands to `pump_recv`. -/
def linked (s : Session) : Session :=
  if linkUp ∧ s.phase=.idle then { s with phase := .linking } else s

theorem linked_core (s : Session) : (linked linkUp s).core=s.core := by
  unfold linked
  split
  · next hc => simp [Session.core,hc.2]
  · rfl

theorem steps_sessionPump (pkts : List Packet) (s : Session) :
    Steps pkts s (sessionPump now linkUp pkts s).2 (pumpRows now (linked linkUp s) pkts)
      (sessionPump now linkUp pkts s).1 := by
  have h₀ : Quietly pkts s (linked linkUp s,[]) := .calm (linked_core linkUp s)
  have h₁:=Steps.trans h₀ (steps_pumpRecv now pkts (fun _ h => h) (linked linkUp s))
  have h₂:=h₁.trans (Quietly.maybeBootstrap now (pumpRecv now (linked linkUp s) pkts).1)
  have h₃:=h₂.trans (Quietly.keepAlive now _)
  have h₄:=h₃.trans (Quietly.bundle now _)
  have h₅:=h₄.trans (Quietly.resendDelaySync now _)
  simp only [append_nil,nil_append] at h₅
  unfold sessionPump
  exact h₅

structure SameClock (s s' : Session) : Prop where
  cfg : s'.cfg=s.cfg
  phase : s'.phase=s.phase
  simTick : s'.simTick=s.simTick
  delay : s'.delay=s.delay
  localRing : s'.localRing=s.localRing

theorem SameClock.refl (s : Session) : SameClock s s := ⟨rfl,rfl,rfl,rfl,rfl⟩

theorem SameClock.trans (h : SameClock s s₁) (h' : SameClock s₁ s₂) : SameClock s s₂ :=
  ⟨h'.cfg.trans h.cfg,h'.phase.trans h.phase,h'.simTick.trans h.simTick,h'.delay.trans h.delay,
    h'.localRing.trans h.localRing⟩

theorem SameClock.trail (h : SameClock s s₁) : s₁.trail=s.trail := by
  unfold Session.trail
  rw [h.delay,h.cfg]

theorem SameClock.prepareWireConfirm (s : Session) (wire : ℕ) :
    SameClock s (prepareWireConfirm now s wire).1 := by
  unfold DelaySync.prepareWireConfirm
  cases collectWireInputs s wire with
  | none => exact .refl s
  | some resolved =>
    dsimp only
    split
    · exact ⟨rfl,rfl,rfl,rfl,rfl⟩
    · split_ifs <;> exact ⟨rfl,rfl,rfl,rfl,rfl⟩

theorem SameClock.sendInputBundle (s : Session) : SameClock s (sendInputBundle now s).1 := by
  unfold DelaySync.sendInputBundle
  dsimp only
  split_ifs <;> exact ⟨rfl,rfl,rfl,rfl,rfl⟩

theorem SameClock.refreshConfirm (s : Session) (wire : ℕ) :
    SameClock s (refreshConfirm now s wire).1 := by
  unfold DelaySync.refreshConfirm
  split
  · split_ifs <;> exact ⟨rfl,rfl,rfl,rfl,rfl⟩
  · exact SameClock.prepareWireConfirm now s wire

theorem Quietly.prepareWireConfirm (hrun : s.phase=.running)
    (hlow : s.simTick≤wire+s.trail) (hhigh : wire ≤ s.simTick+s.delay) :
    Quietly inp s ((prepareWireConfirm now s wire).1,(prepareWireConfirm now s wire).2.1) :=
  (Step.confirm now wire hrun hlow hhigh).steps

theorem Quietly.refreshConfirm (hrun : s.phase=.running)
    (hlow : s.simTick≤wire+s.trail) (hhigh : wire ≤ s.simTick+s.delay) :
    Quietly inp s (refreshConfirm now s wire) := by
  unfold DelaySync.refreshConfirm
  split
  · next hash hpub =>
    split_ifs
    · exact (Step.reconfirm now wire hash hpub).steps
    · exact .refl s
  · exact Quietly.prepareWireConfirm now hrun hlow hhigh

theorem Quietly.refreshConfirmWindow (inp : List Packet) (now : ℕ) (hrun : s.phase=.running) :
    Quietly inp s (refreshConfirmWindow now s s.simTick (wireTickFromSim s.simTick s.delay)) ∧
      SameClock s (refreshConfirmWindow now s s.simTick (wireTickFromSim s.simTick s.delay)).1 := by
  have main : ∀ (ws : List ℕ) (acc : Session × List Packet),
      (∀ w∈ws,s.simTick≤w+s.trail ∧ w ≤ s.simTick+s.delay) →
      Quietly inp s acc → SameClock s acc.1 →
      let r:=ws.foldl (fun acc w =>
        ((DelaySync.refreshConfirm now acc.1 w).1,
          acc.2++(DelaySync.refreshConfirm now acc.1 w).2)) acc
      Quietly inp s r ∧ SameClock s r.1 := by
    intro ws
    induction ws with
    | nil => exact fun acc _ h hc => ⟨h,hc⟩
    | cons w ws ih =>
      intro acc hws h hc
      obtain ⟨hlow,hhigh⟩ := hws w mem_cons_self
      rw [foldl_cons]
      refine ih _ (fun x hx => hws x (mem_cons_of_mem _ hx)) (h.seq ?_)
        (hc.trans (SameClock.refreshConfirm now acc.1 w))
      refine Quietly.refreshConfirm now (hc.phase.trans hrun) ?_ ?_
      · rw [hc.simTick,hc.trail]; exact hlow
      · rw [hc.simTick,hc.delay]; exact hhigh
  refine main _ (s,[]) ?_ (.refl s) (.refl s)
  intro w hw
  rw [mem_range'_1] at hw
  simp only [wireTickFromSim] at hw
  change s.simTick-s.trail≤w ∧ w<s.simTick-s.trail +
    (max (s.simTick+s.delay) (s.simTick-s.trail)+1-(s.simTick-s.trail)) at hw
  omega

theorem Quietly.admitConfirm (resolved : List InputSample) (hrun : s.phase=.running) :
    let r:=admitConfirm now s s.simTick resolved
    Quietly inp s (r.1,r.2.1) := by
  have prep : ∀ {x : Session},SameClock s x → Quietly inp x
      ((DelaySync.prepareWireConfirm now x s.simTick).1,
        (DelaySync.prepareWireConfirm now x s.simTick).2.1) := by
    intro x hx
    refine Quietly.prepareWireConfirm now (hx.phase.trans hrun) ?_ ?_
    · rw [hx.simTick]; exact Nat.le_add_right ..
    · rw [hx.simTick]; exact Nat.le_add_right ..
  have hp:=prep (.refl s)
  have hc:=SameClock.prepareWireConfirm now s s.simTick
  unfold DelaySync.admitConfirm
  dsimp only
  split
  · exact hp
  split
  · split
    · exact hp.then_calm rfl
    split
    · exact (hp.seq (prep hc)).seq (Quietly.bundle now _)
    · exact hp
  · exact hp

variable {now} (inp)
theorem Quietly.admitRows (now : ℕ) (hrun : s.phase=.running) : let r:=admitRows now s s.simTick
    Quietly inp s (r.1,r.2.1) := by
  unfold DelaySync.admitRows
  split
  · exact Quietly.bundle now s
  split
  · exact Quietly.bundle now s
  split
  · exact .refl s
  · exact Quietly.admitConfirm now _ hrun

theorem Quietly.admitSample (now : ℕ) (sampled : InputSample) (hrun : s.phase=.running) :
    let a:=admitSample now s (wireTickFromSim s.simTick s.delay) sampled
    Quietly inp s a ∧ SameClock { s with localRing := a.1.localRing } a.1 := by
  unfold DelaySync.admitSample
  split
  · exact ⟨.refl s,.refl s⟩
  next ho =>
  have hs : Quietly inp s (sampleLocalFuture s (wireTickFromSim s.simTick s.delay) sampled,[]) :=
    (Step.sample sampled hrun (by simpa using ho)).steps
  have hc:=SameClock.sendInputBundle now
    (sampleLocalFuture s (wireTickFromSim s.simTick s.delay) sampled)
  refine ⟨hs.seq (Quietly.bundle now _),?_⟩
  generalize DelaySync.sendInputBundle now _ = b at hc
  unfold sampleLocalFuture at hc
  split at hc <;> exact { hc with localRing := rfl }

def AdmitOpen (simTick : ℕ) (s : Session) : Prop :=
  s.phase=.running ∧ s.gate.profilesPending=false ∧
    (s.gate.stateStallSim && s.gate.stateBusy)=false ∧ simTick=s.simTick ∧
    s.inputDesync.isSome=false

theorem tryAdmit_cases (now simTick : ℕ) (sampled : InputSample) (s : Session) :
    (∃ reason,tryAdmit now simTick sampled s=(s,[],.stall reason) ∧ reason≠.waitLocalInput) ∨
    (AdmitOpen simTick s ∧ let wire:=wireTickFromSim s.simTick s.delay
      let a:=admitSample now s wire sampled
      let b:=refreshConfirmWindow now a.1 s.simTick wire
      let c:=admitRows now b.1 s.simTick
      tryAdmit now simTick sampled s=(c.1,a.2++b.2++c.2.1,c.2.2)) := by
  unfold tryAdmit
  split
  · exact .inl ⟨_,rfl,by decide⟩
  next hrun =>
  split
  · exact .inl ⟨_,rfl,by decide⟩
  next hprof =>
  split
  · exact .inl ⟨_,rfl,by decide⟩
  next hstate =>
  split
  · exact .inl ⟨_,rfl,by decide⟩
  next hsim =>
  split
  · exact .inl ⟨_,rfl,by decide⟩
  next hdesync =>
  obtain rfl : simTick=s.simTick := not_not.mp hsim
  exact .inr ⟨⟨not_not.mp hrun,by simpa using hprof,by simpa using hstate,rfl,
    by simpa using hdesync⟩,rfl⟩

theorem Quietly.admitPrelude (now : ℕ) (sampled : InputSample) (hrun : s.phase=.running) :
    let wire:=wireTickFromSim s.simTick s.delay
    let a:=DelaySync.admitSample now s wire sampled
    let b:=DelaySync.refreshConfirmWindow now a.1 s.simTick wire
    Quietly inp s (b.1,a.2++b.2) ∧ b.1.phase=.running ∧ b.1.simTick=s.simTick := by
  dsimp only
  obtain ⟨ha,hca⟩ := Quietly.admitSample inp now sampled hrun
  generalize DelaySync.admitSample now s (wireTickFromSim s.simTick s.delay) sampled=a at ha hca ⊢
  obtain ⟨hb,hcb⟩ := Quietly.refreshConfirmWindow inp now (hca.phase.trans hrun)
  rw [hca.simTick,hca.delay] at hb hcb
  exact ⟨ha.seq hb,(hca.trans hcb).phase.trans hrun,(hca.trans hcb).simTick⟩

variable {inp}
theorem Quietly.tryAdmit (now simTick : ℕ) (sampled : InputSample) (s : Session) :
    let r:=tryAdmit now simTick sampled s
    Quietly inp s (r.1,r.2.1) := by
  rcases tryAdmit_cases now simTick sampled s with ⟨reason,h,-⟩ | ⟨hopen,h⟩
  · rw [h]
    exact .refl s
  dsimp only at h
  rw [h]
  obtain ⟨hb,hrun,hsim⟩ := Quietly.admitPrelude inp now sampled hopen.1
  generalize DelaySync.admitSample now s (wireTickFromSim s.simTick s.delay) sampled=a
    at hb hrun hsim ⊢
  generalize DelaySync.refreshConfirmWindow now a.1 s.simTick (wireTickFromSim s.simTick s.delay)=b
    at hb hrun hsim ⊢
  have hc:=Quietly.admitRows inp now hrun
  rw [hsim] at hc
  exact hb.seq hc

theorem sessionCreate_eq_some {cfg : Config} {s₀ : Session} (h : sessionCreate cfg=some s₀) :
    s₀=freshSession cfg := by
  unfold sessionCreate at h
  split_ifs at h
  exact (Option.some.inj h).symm

theorem callAct_cfg (s : Session) (c : Call) : (callAct s c).1.cfg=s.cfg := by
  cases c with
  | pump now linkUp pkts => exact (steps_sessionPump now linkUp pkts s).cfg_eq
  | tryAdmit now simTick sampled =>
    exact Steps.cfg_eq (show Quietly [] s _ from Quietly.tryAdmit now simTick sampled s)
  | advance =>
    simp only [callAct,advance,applyPendingDelay]
    split
    · split <;> rfl
    · rfl
  | requestDelayChange now newDelay =>
    simp only [callAct,requestDelayChange]
    split
    · rfl
    split
    · rfl
    split
    · split <;> rfl
    · rfl
  | setGate gate => rfl

variable {r : List InputSample}
theorem admitConfirm_publish (h : (admitConfirm now s tick resolved).2.2=.publish r) :
    SameClock s (admitConfirm now s tick resolved).1 ∧
      wireConfirmationsAgree (admitConfirm now s tick resolved).1 tick := by
  have hc:=SameClock.prepareWireConfirm now s tick
  unfold admitConfirm at h ⊢
  dsimp only at h ⊢
  generalize DelaySync.prepareWireConfirm now s tick=p at h hc ⊢
  split at h
  · cases h
  next hdesync =>
  rw [if_neg hdesync]
  split at h
  · split at h
    · cases h
    next hown =>
    split at h
    · cases h
    next hagree =>
    rw [if_neg hown,if_neg hagree]
    exact ⟨hc,by simpa using hagree⟩
  · cases h

theorem admitRows_publish (h : (admitRows now s tick).2.2=.publish r) :
    SameClock s (admitRows now s tick).1 ∧
      wireConfirmationsAgree (admitRows now s tick).1 tick := by
  unfold admitRows at h ⊢
  split at h
  · cases h
  next hloc =>
  rw [if_neg hloc]
  split at h
  · cases h
  next hrem =>
  rw [if_neg hrem]
  split at h
  · cases h
  · exact admitConfirm_publish h

theorem admitRows_resolved (h : (admitRows now s tick).2.2=.publish r) :
    (List.range s.cfg.slotCount).mapM (admitSlot s tick)=some r := by
  unfold admitRows at h
  split at h
  · cases h
  split at h
  · cases h
  split at h
  · cases h
  next resolved hres =>
  unfold admitConfirm at h
  dsimp only at h
  split at h
  · cases h
  split at h
  · split_ifs at h
    cases h
    exact hres
  · cases h

theorem tryAdmit_publish {simTick : ℕ} {sampled : InputSample}
    (h : (tryAdmit now simTick sampled s).2.2=.publish r) :
    let s':=(tryAdmit now simTick sampled s).1
    simTick=s.simTick ∧ s.phase=.running ∧ SameClock { s with localRing := s'.localRing } s' ∧
      wireConfirmationsAgree s' s.simTick ∧
      (s.isObserver=false → s'.localRing.has (s.simTick+s.delay)) := by
  rcases tryAdmit_cases now simTick sampled s with ⟨reason,hcase,-⟩ | ⟨hopen,hcase⟩
  · rw [hcase] at h
    cases h
  dsimp only at hcase ⊢
  rw [hcase] at h ⊢
  obtain ⟨-,hca⟩ := Quietly.admitSample [] now sampled hopen.1
  have hrow : s.isObserver=false → (admitSample now s (wireTickFromSim s.simTick s.delay)
      sampled).1.localRing.has (s.simTick+s.delay) := by
    intro ho
    unfold admitSample
    rw [if_neg (by simp [ho]),(SameClock.sendInputBundle now _).localRing]
    unfold sampleLocalFuture
    split
    · next hin => exact hin
    · simp [ringStore,futureSample,TickRing.has,wireTickFromSim]
  generalize admitSample now s (wireTickFromSim s.simTick s.delay) sampled=a at h hca hrow ⊢
  obtain ⟨-,hcb⟩ := Quietly.refreshConfirmWindow [] now (hca.phase.trans hopen.1)
  rw [hca.simTick,hca.delay] at hcb
  generalize refreshConfirmWindow now a.1 s.simTick (wireTickFromSim s.simTick s.delay)=b
    at h hcb ⊢
  obtain ⟨hcc,hagree⟩ := admitRows_publish h
  have hall:=hca.trans (hcb.trans hcc)
  refine ⟨hopen.2.2.2.1,hopen.1,{ hall with localRing := rfl },hagree,?_⟩
  intro ho
  rw [hcc.localRing,hcb.localRing]
  exact hrow ho

theorem peerHistory_of_agree (h : wireConfirmationsAgree s wire)
    (hslot : slot<s.cfg.slotCount) (hloc : slot≠s.cfg.localSlot)
    (hocc : s.cfg.slotOccupied slot) : ∃ hash,(s.peerHistory slot).get? wire=some hash := by
  unfold wireConfirmationsAgree at h
  split at h
  · cases h
  next hash hpub =>
  have hs:=all_eq_true.mp h slot (mem_range.mpr hslot)
  simp only [hocc,Bool.not_true,Bool.or_false,Bool.or_eq_true,beq_iff_eq,hloc,false_or] at hs
  exact ⟨hash,hs⟩

end RecompNet.DelaySync
