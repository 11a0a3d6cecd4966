import RecompNet.Session.TipDelivery

/-!
# The desync alarm

Whichever of the session's own hash of a tick and a peer's confirmation of it is known first, the
other one sets off `input_desync` if they differ.
-/
namespace RecompNet.DelaySync
open Function

def Alarmed (s : Session) : Prop :=
  ∀ T slot own peer,s.cfg.slotOccupied slot → slot≠s.cfg.localSlot →
    s.published.get? T=some own → (s.peerHistory slot).get? T=some peer → own≠peer →
    s.inputDesync.isSome

structure Watch where
  cfg : Config
  remoteRings : ℕ → InputRing
  peerHistory : ℕ → TickRing historyLength ℕ
  published : TickRing historyLength ℕ
  inputDesync : Option (ℕ × ℕ × ℕ)
  inputEpoch : ℕ

def Session.watch (s : Session) : Watch :=
  ⟨s.cfg,s.remoteRings,s.peerHistory,s.published,s.inputDesync,s.inputEpoch⟩

structure Guards (s s' : Session) : Prop where
  cfg : s'.cfg=s.cfg
  rings : s'.remoteRings=s.remoteRings
  confirms : s'.peerHistory=s.peerHistory
  epoch : s'.inputEpoch=s.inputEpoch
  alarm : Alarmed s → Alarmed s'
  stays : s.inputDesync.isSome → s'.inputDesync.isSome

variable {s s₁ s₂ : Session}
theorem Alarmed.of_watch (h : s₁.watch=s.watch) (ha : Alarmed s) : Alarmed s₁ := by
  have hcfg : s₁.cfg=s.cfg := congrArg Watch.cfg h
  have hpub : s₁.published=s.published := congrArg Watch.published h
  have hpeer : s₁.peerHistory=s.peerHistory := congrArg Watch.peerHistory h
  have hset : s₁.inputDesync=s.inputDesync := congrArg Watch.inputDesync h
  unfold Alarmed
  rw [hcfg,hpub,hpeer,hset]
  exact ha

theorem Guards.of_watch (h : s₁.watch=s.watch) : Guards s s₁ where
  cfg := congrArg Watch.cfg h
  rings := congrArg Watch.remoteRings h
  confirms := congrArg Watch.peerHistory h
  epoch := congrArg Watch.inputEpoch h
  alarm := Alarmed.of_watch h
  stays := fun hs => by
    rw [show s₁.inputDesync=s.inputDesync from congrArg Watch.inputDesync h]
    exact hs

theorem Guards.refl (s : Session) : Guards s s := .of_watch rfl
theorem Guards.gate (s : Session) (g : Gate) : Guards s { s with gate := g } := .of_watch rfl

theorem Guards.trans (h : Guards s s₁) (h' : Guards s₁ s₂) : Guards s s₂ where
  cfg := h'.cfg.trans h.cfg
  rings := h'.rings.trans h.rings
  confirms := h'.confirms.trans h.confirms
  epoch := h'.epoch.trans h.epoch
  alarm := h'.alarm ∘ h.alarm
  stays := h'.stays ∘ h.stays

section
variable (now : ℕ)
theorem sendInputBundle_watch (s : Session) : (sendInputBundle now s).1.watch=s.watch := by
  unfold sendInputBundle
  dsimp only
  split_ifs <;> rfl

theorem bootstrapAnnounce_watch (s : Session) : (bootstrapAnnounce now s).1.watch=s.watch := by
  unfold bootstrapAnnounce
  dsimp only
  split_ifs <;> rfl

theorem bootstrapStart_watch (s : Session) : (bootstrapStart now s).1.watch=s.watch := by
  unfold bootstrapStart
  dsimp only
  split
  · exact sendInputBundle_watch now _
  · rfl

theorem maybeBootstrap_watch (s : Session) : (maybeBootstrap now s).1.watch=s.watch :=
  (bootstrapStart_watch now _).trans (bootstrapAnnounce_watch now s)

theorem keepAlive_watch (s : Session) : (keepAlive now s).1.watch=s.watch := by
  unfold keepAlive
  split <;> rfl

theorem resendDelaySync_watch (s : Session) : (resendDelaySync now s).1.watch=s.watch := by
  unfold resendDelaySync
  split
  · split <;> rfl
  · rfl

end

theorem linked_watch (linkUp : Bool) (s : Session) : (linked linkUp s).watch=s.watch := by
  unfold linked
  split <;> rfl

variable (s)
theorem applyPendingDelay_watch : (applyPendingDelay s).watch=s.watch := by
  unfold applyPendingDelay
  split
  · split <;> rfl
  · rfl

theorem requestDelayChange_watch (now newDelay : ℕ) (s : Session) :
    (requestDelayChange now newDelay s).1.watch=s.watch := by
  unfold requestDelayChange
  dsimp only
  split
  · rfl
  split
  · rfl
  split
  · split <;> rfl
  · rfl

theorem prepareLocalTip_watch (now simTick : ℕ) (sampled : InputSample) (s : Session) :
    (prepareLocalTip now simTick sampled s).1.watch=s.watch := by
  unfold prepareLocalTip
  dsimp only
  split_ifs
  · rfl
  · rfl
  · exact sendInputBundle_watch now _

theorem onHello_watch (localSlot slotCount delay version : ℕ) :
    (onHello s localSlot slotCount delay version).watch=s.watch := by
  unfold onHello
  dsimp only
  split_ifs <;> rfl

theorem onReady_watch (localSlot : ℕ) : (onReady s localSlot).1.watch=s.watch := by
  unfold onReady
  dsimp only
  split_ifs <;> rfl

theorem onStart_watch (now : ℕ) (s : Session) (startTick : ℕ) :
    (onStart now s startTick).1.watch=s.watch := by
  unfold onStart
  split
  · rfl
  · exact sendInputBundle_watch now _

theorem onDelaySync_watch (newDelay effectiveTick : ℕ) :
    (onDelaySync s newDelay effectiveTick).watch=s.watch := by
  unfold onDelaySync
  split <;> rfl

variable {s} {hash slot : ℕ}
theorem eq_of_confirmMismatch_none {wire peer : ℕ} (h : confirmMismatch s wire hash=none)
    (hocc : s.cfg.slotOccupied slot) (hloc : slot≠s.cfg.localSlot)
    (hpeer : (s.peerHistory slot).get? wire=some peer) : hash=peer := by
  have hslot:=List.findSome?_eq_none_iff.mp h slot
    (List.mem_range.mpr (Config.lt_slotCount_of_occupied hocc))
  rw [if_neg (by simp [hloc,hocc]),hpeer] at hslot
  by_contra hne
  simp [Ne.symm hne] at hslot

section
variable (now : ℕ)
theorem Guards.prepareWireConfirm (s : Session) (wire : ℕ) :
    Guards s (prepareWireConfirm now s wire).1 := by
  unfold DelaySync.prepareWireConfirm
  split
  · exact .refl s
  next resolved hrows =>
  dsimp only
  generalize hashResolvedInputs wire resolved=hash
  -- publishing alone keeps what is stored; the check that follows sees to the alarm
  have hkeep : ∀ s₁ : Session,s₁.watch={ s.watch with published := s.published.store wire hash } →
      confirmMismatch { s with published := s.published.store wire hash } wire hash=none →
      Guards s s₁ := by
    intro s₁ hs₁ hnone
    have hcfg : s₁.cfg=s.cfg := congrArg Watch.cfg hs₁
    have hpub : s₁.published=s.published.store wire hash := congrArg Watch.published hs₁
    have hpeer : s₁.peerHistory=s.peerHistory := congrArg Watch.peerHistory hs₁
    have hset : s₁.inputDesync=s.inputDesync := congrArg Watch.inputDesync hs₁
    refine ⟨hcfg,congrArg Watch.remoteRings hs₁,hpeer,congrArg Watch.inputEpoch hs₁,?_,
      fun h => hset ▸ h⟩
    intro ha T slot own peer hocc hloc hown hconf hne
    rw [hcfg] at hocc hloc
    rw [hpub] at hown
    rw [hpeer] at hconf
    rw [hset]
    rcases TickRing.get?_store_eq_some hown with ⟨rfl,rfl⟩ | hold
    · exact absurd (eq_of_confirmMismatch_none hnone hocc hloc hconf) hne
    · exact ha T slot own peer hocc hloc hold hconf hne
  split
  · exact ⟨rfl,rfl,rfl,rfl,fun _ _ _ _ _ _ _ _ _ _ => rfl,fun _ => rfl⟩
  next hnone =>
  split <;> exact hkeep _ rfl hnone

theorem Guards.refreshConfirm (s : Session) (wire : ℕ) :
    Guards s (refreshConfirm now s wire).1 := by
  unfold DelaySync.refreshConfirm
  split
  · split
    · exact .of_watch rfl
    · exact .refl s
  · exact .prepareWireConfirm now s wire

theorem Guards.refreshConfirmWindow (s : Session) (playWire sampleWire : ℕ) :
    Guards s (refreshConfirmWindow now s playWire sampleWire).1 := by
  unfold DelaySync.refreshConfirmWindow
  dsimp only
  generalize List.range' _ _ = wires
  generalize ([] : List Packet)=out
  -- tick after tick, whatever was sent before
  induction wires generalizing s out with
  | nil => exact .refl s
  | cons w wires ih => exact (Guards.refreshConfirm now s w).trans (ih _ _)

theorem Guards.admitConfirm (s : Session) (simTick : ℕ) (resolved : List InputSample) :
    Guards s (admitConfirm now s simTick resolved).1 := by
  have hp:=Guards.prepareWireConfirm now s simTick
  unfold DelaySync.admitConfirm
  dsimp only
  generalize DelaySync.prepareWireConfirm now s simTick=p at hp
  split
  · exact hp
  split
  · split
    · exact hp.trans ⟨rfl,rfl,rfl,rfl,fun _ _ _ _ _ _ _ _ _ _ => rfl,fun _ => rfl⟩
    split
    · exact (hp.trans (.prepareWireConfirm now p.1 simTick)).trans
        (.of_watch (sendInputBundle_watch now _))
    · exact hp
  · exact hp

theorem Guards.admitRows (s : Session) (simTick : ℕ) : Guards s (admitRows now s simTick).1 := by
  unfold DelaySync.admitRows
  dsimp only
  split
  · exact .of_watch (sendInputBundle_watch now s)
  split
  · exact .of_watch (sendInputBundle_watch now s)
  split
  · exact .refl s
  · exact .admitConfirm now s simTick _

theorem Guards.admitSample (s : Session) (sampleWire : ℕ) (sampled : InputSample) :
    Guards s (admitSample now s sampleWire sampled).1 := by
  unfold DelaySync.admitSample
  split
  · exact .refl s
  refine .of_watch ((sendInputBundle_watch now _).trans ?_)
  unfold sampleLocalFuture
  split <;> rfl

end

theorem Guards.tryAdmit (now simTick : ℕ) (sampled : InputSample) (s : Session) :
    Guards s (tryAdmit now simTick sampled s).1 := by
  rcases tryAdmit_cases now simTick sampled s with ⟨reason,h,-⟩ | ⟨-,h⟩
  · rw [h]
    exact .refl s
  dsimp only at h
  rw [h]
  have ha:=Guards.admitSample now s (wireTickFromSim s.simTick s.delay) sampled
  generalize DelaySync.admitSample now s (wireTickFromSim s.simTick s.delay) sampled=a at ha ⊢
  have hb:=Guards.refreshConfirmWindow now a.1 s.simTick (wireTickFromSim s.simTick s.delay)
  generalize DelaySync.refreshConfirmWindow now a.1 s.simTick (wireTickFromSim s.simTick s.delay)=b
    at hb ⊢
  exact (ha.trans hb).trans (.admitRows now b.1 s.simTick)

variable {now simTick : ℕ} {rows : List InputSample} {sampled : InputSample}
theorem tryAdmit_of_desync
    (h : s.inputDesync.isSome) : (tryAdmit now simTick sampled s).2.2≠.publish rows := by
  intro hpub
  rcases tryAdmit_cases now simTick sampled s with ⟨reason,hcase,-⟩ | ⟨hopen,-⟩
  · rw [hcase] at hpub
    cases hpub
  · exact absurd (h.symm.trans hopen.2.2.2.2) nofun

theorem admitRows_rows
    (h : (admitRows now s simTick).2.2=.publish rows) (hocc : s.cfg.slotOccupied slot)
    (hloc : slot≠s.cfg.localSlot) : ∃ smp,ringGet (s.remoteRings slot) simTick=some smp ∧
      rows[slot]? = some { smp with tick := simTick } := by
  have hlt:=Config.lt_slotCount_of_occupied hocc
  obtain ⟨smp,hget,hsmp⟩ := mapM_getElem? (admitRows_resolved h) slot (List.getElem?_range hlt)
  unfold admitSlot at hsmp
  rw [if_neg hloc,if_neg (by simp [hocc])] at hsmp
  obtain ⟨row,hrow,rfl⟩ := Option.map_eq_some_iff.mp hsmp
  exact ⟨row,hrow,hget⟩

theorem tryAdmit_rows (h : (tryAdmit now simTick sampled s).2.2=.publish rows)
    (hocc : s.cfg.slotOccupied slot) (hloc : slot≠s.cfg.localSlot) :
    ∃ smp,ringGet (s.remoteRings slot) simTick=some smp ∧
      rows[slot]? = some { smp with tick := simTick } := by
  rcases tryAdmit_cases now simTick sampled s with ⟨reason,hcase,-⟩ | ⟨hopen,hcase⟩
  · rw [hcase] at h
    cases h
  dsimp only at hcase
  rw [hcase] at h
  obtain rfl := hopen.2.2.2.1
  have ha:=Guards.admitSample now s (wireTickFromSim s.simTick s.delay) sampled
  generalize admitSample now s (wireTickFromSim s.simTick s.delay) sampled=a at ha h
  have hb:=Guards.refreshConfirmWindow now a.1 s.simTick (wireTickFromSim s.simTick s.delay)
  generalize refreshConfirmWindow now a.1 s.simTick (wireTickFromSim s.simTick s.delay)=b at hb h
  have hab:=ha.trans hb
  rw [← hab.rings]
  exact admitRows_rows h (hab.cfg ▸ hocc) (hab.cfg ▸ hloc)

structure Stored (P : Body → Prop) (s : Session) : Prop where
  rows : ∀ slot tick smp,ringGet (s.remoteRings slot) tick=some smp →
    ∃ ackTick frames acks f,P (.input slot s.inputEpoch ackTick frames acks) ∧ f∈frames ∧
      f.tick=tick ∧ smp=frameSample f
  confirms : ∀ slot tick hash,(s.peerHistory slot).get? tick=some hash →
    P (.inputConfirm slot s.inputEpoch tick hash)

structure Hears (P : Body → Prop) (s s' : Session) : Prop where
  cfg : s'.cfg=s.cfg
  epoch : s'.inputEpoch=s.inputEpoch
  stored : Stored P s → Stored P s'
  alarm : Alarmed s → Alarmed s'
  stays : s.inputDesync.isSome → s'.inputDesync.isSome

variable {P : Body → Prop}
theorem Guards.hears (h : Guards s s₁) : Hears P s s₁ where
  cfg := h.cfg
  epoch := h.epoch
  stored := fun hs => ⟨by rw [h.rings,h.epoch]; exact hs.rows,by
    rw [h.confirms,h.epoch]; exact hs.confirms⟩
  alarm := h.alarm
  stays := h.stays

theorem Hears.refl (s : Session) : Hears P s s := (Guards.refl s).hears

theorem Hears.trans (h : Hears P s s₁) (h' : Hears P s₁ s₂) : Hears P s s₂ where
  cfg := h'.cfg.trans h.cfg
  epoch := h'.epoch.trans h.epoch
  stored := h'.stored ∘ h.stored
  alarm := h'.alarm ∘ h.alarm
  stays := h'.stays ∘ h.stays

variable {ackTick : ℕ} {frames : List WireFrame} {acks : List (Option ℕ)}
theorem hears_storeRemoteFrame {f : WireFrame} (hP : P (.input slot s.inputEpoch ackTick frames acks))
    (hf : f∈frames) : Hears P s (storeRemoteFrame s slot f) := by
  have hrest : (storeRemoteFrame s slot f).cfg=s.cfg ∧
      (storeRemoteFrame s slot f).inputDesync=s.inputDesync ∧
      (Alarmed s → Alarmed (storeRemoteFrame s slot f)) := by
    unfold storeRemoteFrame
    split_ifs <;> exact ⟨rfl,rfl,id⟩
  rcases storeRemoteFrame_cases s slot f with ⟨hsame,-⟩ | ⟨-,-,-,-,-,hcore⟩
  · rw [hsame]
    exact .refl s
  dsimp only at hcore
  have hrings : (storeRemoteFrame s slot f).remoteRings =
      update s.remoteRings slot ((s.remoteRings slot).store f.tick (frameSample f)) :=
    congrArg Core.remoteRings hcore
  have hconf : (storeRemoteFrame s slot f).peerHistory=s.peerHistory :=
    congrArg Core.peerHistory hcore
  have hepoch : (storeRemoteFrame s slot f).inputEpoch=s.inputEpoch :=
    congrArg Core.inputEpoch hcore
  refine ⟨hrest.1,hepoch,fun hs => ⟨?_,?_⟩,hrest.2.2,fun h => hrest.2.1 ▸ h⟩
  · intro slot' tick smp hget
    rw [hrings] at hget
    rw [hepoch]
    by_cases hslot : slot'=slot
    · rw [hslot,update_self] at hget
      rcases TickRing.get?_store_eq_some hget with ⟨rfl,rfl⟩ | hold
      · exact ⟨ackTick,frames,acks,f,hslot ▸ hP,hf,rfl,rfl⟩
      · rw [hslot]
        exact hs.rows slot tick smp hold
    · rw [update_of_ne hslot] at hget
      exact hs.rows slot' tick smp hget
  · rw [hconf,hepoch]
    exact hs.confirms

theorem onInputAck_watch (s : Session) (localSlot ackTick : ℕ) (acks : List (Option ℕ)) :
    (onInputAck s localSlot ackTick acks).watch=s.watch := by
  unfold onInputAck
  dsimp only
  split_ifs <;> rfl

theorem hears_onInput (hP : P (.input slot s.inputEpoch ackTick frames acks)) :
    Hears P s (onInput s slot s.inputEpoch ackTick frames acks) := by
  have hfold : ∀ (fs : List WireFrame) (s₁ : Session),(∀ f∈fs,f∈frames) →
      s₁.inputEpoch=s.inputEpoch →
      Hears P s₁ (fs.foldl (fun s f => storeRemoteFrame s slot f) s₁) := by
    intro fs
    induction fs with
    | nil => exact fun s₁ _ _ => .refl s₁
    | cons f fs ih =>
      intro s₁ hfs hepoch
      have hstore : Hears P s₁ (storeRemoteFrame s₁ slot f) :=
        hears_storeRemoteFrame (hepoch ▸ hP) (hfs f List.mem_cons_self)
      exact hstore.trans (ih _ (fun g hg => hfs g (List.mem_cons_of_mem f hg))
        (hstore.epoch.trans hepoch))
  unfold onInput
  rw [if_neg (not_not.mpr rfl)]
  exact (hfold frames s (fun f hf => hf) rfl).trans
    (Guards.of_watch (onInputAck_watch _ slot ackTick acks)).hears

theorem hears_onInputConfirm {tick : ℕ} (hP : P (.inputConfirm slot s.inputEpoch tick hash)) :
    Hears P s (onInputConfirm s slot s.inputEpoch tick hash) := by
  unfold onInputConfirm
  split
  · exact .refl s
  dsimp only
  have hstored : ∀ s₁ : Session,s₁.remoteRings=s.remoteRings → s₁.inputEpoch=s.inputEpoch →
      s₁.peerHistory=update s.peerHistory slot ((s.peerHistory slot).store tick hash) →
      Stored P s → Stored P s₁ := by
    intro s₁ hrings hepoch hconf hs
    refine ⟨by rw [hrings,hepoch]; exact hs.rows,?_⟩
    intro slot' tick' hash' hget
    rw [hconf] at hget
    rw [hepoch]
    by_cases hslot : slot'=slot
    · rw [hslot,update_self] at hget
      rw [hslot]
      rcases TickRing.get?_store_eq_some hget with ⟨rfl,rfl⟩ | hold
      · exact hP
      · exact hs.confirms slot tick' hash' hold
    · rw [update_of_ne hslot] at hget
      exact hs.confirms slot' tick' hash' hget
  -- the new confirmation is compared at once if the own hash is known
  have hquiet : (∀ own,s.published.get? tick=some own → own=hash) → Alarmed s →
      Alarmed { s with peerHistory :=
        Function.update s.peerHistory slot ((s.peerHistory slot).store tick hash) } := by
    intro hown ha T slot' own peer hocc hloc hpub hget hne
    by_cases hslot : slot'=slot
    · change (update s.peerHistory slot _ slot').get? T=some peer at hget
      rw [hslot,update_self] at hget
      rcases TickRing.get?_store_eq_some hget with ⟨rfl,rfl⟩ | hold
      · exact absurd (hown own hpub) hne
      · exact ha T slot' own peer hocc hloc hpub (hslot ▸ hold) hne
    · change (update s.peerHistory slot _ slot').get? T=some peer at hget
      rw [update_of_ne hslot] at hget
      exact ha T slot' own peer hocc hloc hpub hget hne
  split
  · next own hown =>
    split
    · exact ⟨rfl,rfl,hstored _ rfl rfl rfl,fun _ _ _ _ _ _ _ _ _ _ => rfl,fun _ => rfl⟩
    next heq =>
    refine ⟨rfl,rfl,hstored _ rfl rfl rfl,hquiet fun own' hown' => ?_,id⟩
    exact (Option.some.inj (hown.symm.trans hown')) ▸ not_not.mp heq
  · next hnone =>
    refine ⟨rfl,rfl,hstored _ rfl rfl rfl,hquiet fun own hown => ?_,id⟩
    rw [hnone] at hown
    cases hown

variable {localSlot epoch : ℕ}
theorem onInput_of_epoch_ne (h : epoch≠s.inputEpoch) :
    onInput s localSlot epoch ackTick frames acks=s := by
  unfold onInput
  rw [if_pos h]

theorem onInputConfirm_of_epoch_ne (h : epoch≠s.inputEpoch) :
    onInputConfirm s localSlot epoch simTick hash=s := by
  unfold onInputConfirm
  rw [if_pos (.inl h)]

theorem hears_handleDecoded (now : ℕ) {body : Body} (hP : P body) :
    Hears P s (handleDecoded now s (s.packet body)).1 := by
  unfold handleDecoded
  rw [if_neg (by simp [Session.packet])]
  cases body with
  | hello localSlot slotCount delay version => exact (Guards.of_watch (onHello_watch s _ _ _ _)).hears
  | ready localSlot => exact (Guards.of_watch (onReady_watch s _)).hears
  | start startTick => exact (Guards.of_watch (onStart_watch now s _)).hears
  | input localSlot epoch ackTick frames acks =>
    by_cases hepoch : epoch=s.inputEpoch
    · subst hepoch
      exact hears_onInput hP
    change Hears P s (onInput s localSlot epoch ackTick frames acks)
    rw [onInput_of_epoch_ne hepoch]
    exact .refl s
  | delaySync newDelay effectiveTick => exact (Guards.of_watch (onDelaySync_watch s _ _)).hears
  | inputConfirm localSlot epoch simTick hash =>
    by_cases hepoch : epoch=s.inputEpoch
    · subst hepoch
      exact hears_onInputConfirm hP
    change Hears P s (onInputConfirm s localSlot epoch simTick hash)
    rw [onInputConfirm_of_epoch_ne hepoch]
    exact .refl s
  | bye localSlot =>
    change Hears P s (if localSlot≠s.cfg.wireId then { s with peerGone := true } else s)
    split
    · apply Guards.hears
      exact .of_watch rfl
    · exact .refl s

end RecompNet.DelaySync
