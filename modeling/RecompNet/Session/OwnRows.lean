import RecompNet.Session.DesyncAlarm
import RecompNet.Session.Whole

/-!
# Where own rows come from

The local ring holds what the application gave as its input, the rows it was primed with and the
neutral rows of `seed_delay_prefix`.
-/
namespace RecompNet.DelaySync
open List
variable {Q : ℕ → InputSample → Prop} {s s₁ s₂ : Session}

/-- Own rows that all have `Q` stay so. -/
def KeepsOwn (Q : ℕ → InputSample → Prop) (s s' : Session) : Prop :=
  s.localRing.Holds Q → s'.localRing.Holds Q

theorem KeepsOwn.trans (h : KeepsOwn Q s s₁) (h' : KeepsOwn Q s₁ s₂) : KeepsOwn Q s s₂ := h' ∘ h

theorem KeepsOwn.of_ring (h : s₁.localRing=s.localRing) : KeepsOwn Q s s₁ := fun hq => h ▸ hq

theorem KeepsOwn.of_core (h : s₁.core=s.core) : KeepsOwn Q s s₁ :=
  .of_ring (congrArg Core.localRing h)

theorem holds_ringStore {ring : InputRing} {smp : InputSample} (h : ring.Holds Q)
    (hq : Q smp.tick smp) : (ringStore ring smp).Holds Q := by
  unfold ringStore
  split
  · exact TickRing.Holds.store h hq
  · exact h

/-- A loop that stores rows with `Q`, or leaves them out. -/
theorem holds_fill {f : InputRing → ℕ → InputRing} {r : ℕ → InputSample}
    (hf : ∀ ring t,f ring t=ring ∨ f ring t=ringStore ring (r t))
    (hrow : ∀ t,Q (r t).tick (r t)) (ts : List ℕ) {ring : InputRing} (h : ring.Holds Q) :
    (ts.foldl f ring).Holds Q := by
  induction ts generalizing ring with
  | nil => exact h
  | cons t ts ih =>
    refine ih ?_
    rcases hf ring t with heq | heq
    · rwa [heq]
    · rw [heq]
      exact holds_ringStore h (hrow t)

theorem keepsOwn_sendInputBundle (now : ℕ) (s : Session) : KeepsOwn Q s (sendInputBundle now s).1 :=
  .of_ring (SameClock.sendInputBundle now s).localRing

theorem keepsOwn_onInput (slot epoch ackTick : ℕ) (frames : List WireFrame)
    (acks : List (Option ℕ)) (s : Session) :
    KeepsOwn Q s (onInput s slot epoch ackTick frames acks) := by
  unfold onInput
  split
  · exact id
  have hstore (s : Session) :
      KeepsOwn Q s (frames.foldl (fun s f => storeRemoteFrame s slot f) s) := by
    induction frames generalizing s with
    | nil => exact id
    | cons f frames ih =>
      refine .trans (.of_ring ?_) (ih (storeRemoteFrame s slot f))
      unfold storeRemoteFrame
      split_ifs <;> rfl
  refine (hstore s).trans (.of_ring ?_)
  obtain ⟨_,_,_,hcore⟩ := onInputAck_core (frames.foldl (fun s f => storeRemoteFrame s slot f) s)
    slot ackTick acks
  exact congrArg Core.localRing hcore

section Seeds
variable (hseed : ∀ t,Q t (neutralSample t))
include hseed
theorem keepsOwn_seed (s : Session) : KeepsOwn Q s (seedDelayPrefix s) := by
  intro h
  unfold seedDelayPrefix
  exact holds_fill (fun ring t => by split <;> simp) hseed _ h

theorem keepsOwn_onHello (slot count delay version : ℕ) (s : Session) :
    KeepsOwn Q s (onHello s slot count delay version) := by
  unfold onHello
  split
  · exact id
  split
  · exact id
  dsimp only
  generalize hready : (if s.phase=.linking then { s with phase := .ready } else s)=r
  have hring : KeepsOwn Q s r := by
    rw [← hready]
    split <;> exact id
  refine hring.trans ?_
  split
  · split
    · exact keepsOwn_seed hseed { r with delay := delay }
    · exact id
  · exact id

theorem keepsOwn_onStart (now tick : ℕ) (s : Session) : KeepsOwn Q s (onStart now s tick).1 := by
  unfold onStart
  split
  · exact id
  · exact (keepsOwn_seed hseed { s with simTick := tick,phase := .running }).trans
      (keepsOwn_sendInputBundle now _)

theorem keepsOwn_handleDecoded (now : ℕ) (s : Session) (pkt : Packet) :
    KeepsOwn Q s (handleDecoded now s pkt).1 := by
  unfold handleDecoded
  split
  · exact id
  split
  · exact keepsOwn_onHello hseed _ _ _ _ s
  · unfold onReady
    dsimp only
    split
    · exact id
    · split <;> exact id
  · exact keepsOwn_onStart hseed now _ s
  · exact keepsOwn_onInput _ _ _ _ _ s
  · unfold onDelaySync
    split <;> exact id
  · unfold onInputConfirm
    dsimp only
    split
    · exact id
    split
    · split <;> exact id
    · exact id
  · split <;> exact id

theorem keepsOwn_maybeBootstrap (now : ℕ) (s : Session) :
    KeepsOwn Q s (maybeBootstrap now s).1 := by
  have hannounce : KeepsOwn Q s (bootstrapAnnounce now s).1 := by
    unfold bootstrapAnnounce
    dsimp only
    split_ifs <;> exact id
  refine hannounce.trans ?_
  show KeepsOwn Q _ (bootstrapStart now (bootstrapAnnounce now s).1).1
  generalize (bootstrapAnnounce now s).1=a
  unfold bootstrapStart
  dsimp only
  split
  · exact (keepsOwn_seed hseed { a with startSent := true,simTick := 0,phase := .running }).trans
      (keepsOwn_sendInputBundle now _)
  · exact id

end Seeds

theorem keepsOwn_linked (linkUp : Bool) (s : Session) : KeepsOwn Q s (linked linkUp s) :=
  .of_core (linked_core linkUp s)

theorem keepsOwn_keepAlive (now : ℕ) (s : Session) : KeepsOwn Q s (keepAlive now s).1 := by
  unfold keepAlive
  split <;> exact id

theorem keepsOwn_resendDelaySync (now : ℕ) (s : Session) :
    KeepsOwn Q s (resendDelaySync now s).1 := by
  unfold resendDelaySync
  split
  · split <;> exact id
  · exact id

theorem keepsOwn_applyPendingDelay (s : Session) : KeepsOwn Q s (applyPendingDelay s) := by
  unfold applyPendingDelay
  split
  · split <;> exact id
  · exact id

theorem keepsOwn_requestDelayChange (now newDelay : ℕ) (s : Session) :
    KeepsOwn Q s (requestDelayChange now newDelay s).1 := by
  unfold requestDelayChange
  dsimp only
  split
  · exact id
  split
  · exact id
  split
  · split <;> exact id
  · exact id

theorem keepsOwn_prepareWireConfirm (now wire : ℕ) (s : Session) :
    KeepsOwn Q s (prepareWireConfirm now s wire).1 :=
  .of_ring (SameClock.prepareWireConfirm now s wire).localRing

theorem keepsOwn_refreshConfirmWindow (now playWire sampleWire : ℕ) (s : Session) :
    KeepsOwn Q s (refreshConfirmWindow now s playWire sampleWire).1 := by
  unfold refreshConfirmWindow
  dsimp only
  generalize List.range' _ _ = wires
  generalize ([] : List Packet)=out
  induction wires generalizing s out with
  | nil => exact id
  | cons w wires ih =>
    exact .trans (.of_ring (SameClock.refreshConfirm now s w).localRing) (ih _ _)

theorem keepsOwn_admitRows (now simTick : ℕ) (s : Session) :
    KeepsOwn Q s (admitRows now s simTick).1 := by
  unfold admitRows
  split
  · exact keepsOwn_sendInputBundle now s
  split
  · exact keepsOwn_sendInputBundle now s
  split
  · exact id
  have hp : KeepsOwn Q s (prepareWireConfirm now s simTick).1 :=
    keepsOwn_prepareWireConfirm now simTick s
  unfold admitConfirm
  dsimp only
  generalize prepareWireConfirm now s simTick=p at hp
  split
  · exact hp
  split
  · split
    · exact hp
    split
    · exact (hp.trans (keepsOwn_prepareWireConfirm now simTick p.1)).trans
        (keepsOwn_sendInputBundle now _)
    · exact hp
  · exact hp

section Samples
variable {sampled : InputSample} (hsample : ∀ t,Q t (futureSample t sampled))
include hsample
theorem keepsOwn_admitSample (now wire : ℕ) (s : Session) :
    KeepsOwn Q s (admitSample now s wire sampled).1 := by
  unfold admitSample
  split
  · exact id
  have hone : KeepsOwn Q s (sampleLocalFuture s wire sampled) := by
    unfold sampleLocalFuture
    split
    · exact id
    · intro h
      change (ringStore s.localRing (futureSample wire sampled)).Holds Q
      exact holds_ringStore h (hsample wire)
  exact hone.trans (keepsOwn_sendInputBundle now _)

theorem keepsOwn_tryAdmit (now simTick : ℕ) (s : Session) :
    KeepsOwn Q s (tryAdmit now simTick sampled s).1 := by
  rcases tryAdmit_cases now simTick sampled s with ⟨reason,hcase,-⟩ | ⟨-,hcase⟩
  · rw [hcase]
    exact id
  dsimp only at hcase
  rw [hcase]
  have ha:=keepsOwn_admitSample hsample now (wireTickFromSim s.simTick s.delay) s
  generalize admitSample now s (wireTickFromSim s.simTick s.delay) sampled=a at ha ⊢
  have hb : KeepsOwn Q a.1 _ :=
    keepsOwn_refreshConfirmWindow now s.simTick (wireTickFromSim s.simTick s.delay) a.1
  generalize refreshConfirmWindow now a.1 s.simTick (wireTickFromSim s.simTick s.delay)=b
    at hb ⊢
  exact (ha.trans hb).trans (keepsOwn_admitRows now s.simTick b.1)

theorem keepsOwn_prepareLocalTip (now simTick : ℕ) (s : Session) :
    KeepsOwn Q s (prepareLocalTip now simTick sampled s).1 := by
  unfold prepareLocalTip
  split
  · exact id
  split
  · exact id
  have hfill : KeepsOwn Q s (fillLocalTip simTick sampled s) := by
    intro h
    change (fillTip _ _ _ _).Holds Q
    unfold fillTip
    exact holds_fill (fun ring t => by split <;> simp) hsample _ h
  exact hfill.trans (keepsOwn_sendInputBundle now _)

/-- A published own row stood in the ring, or is the sample given with the call. -/
theorem tryAdmit_own {now simTick : ℕ} {rows : List InputSample} (hq : s.localRing.Holds Q)
    (hkeys : ∀ t smp,Q t smp → smp.tick=t) (hplay : s.isObserver=false)
    (h : (tryAdmit now simTick sampled s).2.2=.publish rows) :
    ∃ smp,Q simTick smp ∧ rows[s.cfg.localSlot]? = some smp := by
  rcases tryAdmit_cases now simTick sampled s with ⟨reason,hcase,-⟩ | ⟨hopen,hcase⟩
  · rw [hcase] at h
    cases h
  dsimp only at hcase
  rw [hcase] at h
  obtain rfl := hopen.2.2.2.1
  have ha:=keepsOwn_admitSample hsample now (wireTickFromSim s.simTick s.delay) s hq
  have hcfgA:=Guards.admitSample now s (wireTickFromSim s.simTick s.delay) sampled
  generalize admitSample now s (wireTickFromSim s.simTick s.delay) sampled=a at ha hcfgA h
  have hb:=keepsOwn_refreshConfirmWindow now s.simTick (wireTickFromSim s.simTick s.delay) a.1 ha
  have hcfgB:=Guards.refreshConfirmWindow now a.1 s.simTick (wireTickFromSim s.simTick s.delay)
  generalize refreshConfirmWindow now a.1 s.simTick (wireTickFromSim s.simTick s.delay)=b
    at hb hcfgB h
  have hcfg : b.1.cfg=s.cfg := hcfgB.cfg.trans hcfgA.cfg
  have hslot : s.cfg.localSlot<b.1.cfg.slotCount := by
    rw [hcfg]
    simpa [Session.isObserver,Config.isObserver] using hplay
  obtain ⟨smp,hrow,hsmp⟩ := mapM_getElem? (admitRows_resolved h) s.cfg.localSlot
    (List.getElem?_range hslot)
  unfold admitSlot at hsmp
  rw [if_pos (by rw [hcfg])] at hsmp
  obtain ⟨own,hown,rfl⟩ := Option.map_eq_some_iff.mp hsmp
  have hgiven : Q s.simTick own := hb s.simTick own hown
  exact ⟨own,hgiven,by rw [hrow,← hkeys _ _ hgiven]⟩

end Samples
end RecompNet.DelaySync

namespace RecompNet.Whole.Session
open List DelaySync
variable {Q : ℕ → InputSample → Prop} {s s' : Session}

theorem keepsOwn_withInput {f : DelaySync.Session → DelaySync.Session} (h : ∀ i,KeepsOwn Q i (f i))
    (s : Session) : KeepsOwn Q s.input (s.withInput f).input := h { s.input with gate := s.gate }

section Calls
variable (hseed : ∀ t,Q t (neutralSample t))
include hseed
theorem keepsOwn_hear (now : ℕ) (s : Session) (bytes : List UInt8) :
    KeepsOwn Q s.input (s.hear now bytes).input := by
  unfold hear
  split
  · next pkt _ =>
    have hstamp : KeepsOwn Q s.input (s.stamp now pkt).input := by
      unfold stamp
      split
      · split <;> exact id
      · exact id
    refine hstamp.trans ?_
    generalize s.stamp now pkt=s
    unfold handleDecoded
    split
    · exact id
    split
    · exact id
    split
    · next body _ =>
      have hbye : KeepsOwn Q s.input (s.noteBye pkt).input := by
        unfold noteBye
        dsimp only
        split <;> exact id
      exact hbye.trans (keepsOwn_withInput (fun i => keepsOwn_handleDecoded hseed now i _) _)
    · split
      · exact id
      · refine .of_ring ?_
        unfold onControl
        dsimp only
        split
        · rfl
        split
        · rfl
        split
        · rfl
        · rfl
        · split <;> rfl
        · rfl
  · exact id

theorem keepsOwn_hearAll (now : ℕ) (s : Session) (ds : List (List UInt8)) :
    KeepsOwn Q s.input (s.hearAll now ds).input := by
  unfold hearAll
  induction ds generalizing s with
  | nil => exact id
  | cons bytes ds ih => exact (keepsOwn_hear hseed now s bytes).trans (ih _)

theorem keepsOwn_burst (now : ℕ) (bursts : List (List (List UInt8))) (s : Session) :
    KeepsOwn Q s.input (burst now bursts s).input := by
  induction bursts generalizing s with
  | nil => exact id
  | cons ds rest ih =>
    unfold burst
    dsimp only
    split
    · exact id
    · exact .trans (keepsOwn_hearAll hseed now
        (s.withState fun p => (StateSync.driveSender now p).1) ds) (ih _)

theorem keepsOwn_pump (now : ℕ) (linkUp : Bool) (ds : List (List UInt8))
    (bursts : List (List (List UInt8))) (s : Session) :
    KeepsOwn Q s.input (s.pump now linkUp ds bursts).input := by
  have hbursts (s : Session) :
      KeepsOwn Q s.input (if s.state.anyActive then burst now bursts s else s).input := by
    split
    · exact keepsOwn_burst hseed now bursts s
    · exact id
  unfold pump
  refine .trans (keepsOwn_withInput (keepsOwn_linked linkUp) s) ?_
  refine .trans (keepsOwn_hearAll hseed now _ ds) ?_
  refine .trans (keepsOwn_withInput (keepsOwn_maybeBootstrap hseed now) _) ?_
  have hdriven (s : Session) : KeepsOwn Q s.input ((s.driveProfiles now).withState fun p =>
      (StateSync.driveProbe now p).1).input := id
  refine .trans (hdriven _) ?_
  refine .trans (hbursts _) ?_
  refine .trans (keepsOwn_withInput (keepsOwn_keepAlive now) _) ?_
  refine .trans (keepsOwn_withInput (keepsOwn_sendInputBundle now) _) ?_
  exact keepsOwn_withInput (keepsOwn_resendDelaySync now) _

end Calls

/-- The rows a call gives the session for its own seat. -/
def Call.gives : Call → List (ℕ → InputSample)
  | .tryAdmit _ _ sampled | .prepareLocalTip _ _ sampled => [fun t => futureSample t sampled]
  | .primeDelayInputs _ size bytes => [fun t => ⟨t,size,PadBytes.copy size bytes,true⟩]
  | _ => []

/-- The rows given to a session since its last `hard_resync`. -/
def given (cs : List Call) : List (ℕ → InputSample) := cs.foldl (fun rows c => match c with
    | .hardResync => []
    | c => rows++c.gives) []

/-- A row of tick `t` that was given, or the neutral one. -/
def Own (rows : List (ℕ → InputSample)) (t : ℕ) (smp : InputSample) : Prop :=
  smp.tick=t ∧ (smp=neutralSample t ∨ ∃ row∈rows,smp=row t)

variable {rows : List (ℕ → InputSample)}
theorem own_neutral (t : ℕ) : Own rows t (neutralSample t) := ⟨rfl,.inl rfl⟩

theorem keepsOwn_call (c : Call) (hc : c≠.hardResync) (hrows : c.gives ⊆ rows) (s : Session) :
    KeepsOwn (Own rows) s.input (s.call c).input := by
  cases c with
  | pump now linkUp ds bursts => exact keepsOwn_pump own_neutral now linkUp ds bursts s
  | tryAdmit now simTick sampled =>
    have hgiven (t : ℕ) : Own rows t (futureSample t sampled) :=
      ⟨rfl,.inr ⟨_,hrows mem_cons_self,rfl⟩⟩
    exact keepsOwn_tryAdmit hgiven now simTick { s.input with gate := s.gate }
  | advance => exact keepsOwn_withInput (fun i =>
      keepsOwn_applyPendingDelay { i with simTick := i.simTick+1 }) s
  | requestDelayChange now newDelay =>
    exact keepsOwn_withInput (keepsOwn_requestDelayChange now newDelay) s
  | hardResync => exact absurd rfl hc
  | primeDelayInputs now size bytes =>
    change KeepsOwn (Own rows) s.input (s.primeDelayInputs now size bytes).input
    unfold primeDelayInputs
    split
    · exact id
    refine .trans (fun h => ?_) (keepsOwn_sendInputBundle now _)
    exact holds_fill (r := fun t => ⟨t,size,PadBytes.copy size bytes,true⟩)
      (fun _ _ => .inr rfl) (fun t => ⟨rfl,.inr ⟨_,hrows mem_cons_self,rfl⟩⟩) _ h
  | prepareLocalTip now simTick sampled =>
    have hgiven (t : ℕ) : Own rows t (futureSample t sampled) :=
      ⟨rfl,.inr ⟨_,hrows mem_cons_self,rfl⟩⟩
    exact keepsOwn_prepareLocalTip hgiven now simTick { s.input with gate := s.gate }
  | setSimTick simTick =>
    exact keepsOwn_withInput (fun i => keepsOwn_applyPendingDelay { i with simTick }) s
  | takeRb kind =>
    change KeepsOwn (Own rows) s.input (s.takeRb kind).1.input
    unfold takeRb
    split <;> exact id
  | takeModsetAck | profilesBegin =>
    unfold Session.call
    dsimp only
    split <;> exact id
  | _ => exact id

/-- **Own rows are of the current epoch**: given since the last `hard_resync`, or neutral. -/
theorem run_own (cfg : Config) (cs : List Call) :
    (cs.foldl call (freshSession cfg)).input.localRing.Holds (Own (given cs)) := by
  induction cs using List.reverseRecOn with
  | nil => exact TickRing.Holds.empty _
  | append_singleton cs c ih =>
    unfold given at ih ⊢
    rw [foldl_append,foldl_append,foldl_cons,foldl_nil,foldl_cons,foldl_nil]
    split
    · exact TickRing.Holds.empty _
    next hc =>
    refine keepsOwn_call c (fun h => hc h) (subset_append_right _ _) _ (ih.mono ?_)
    rintro t smp ⟨htick,hfrom⟩
    exact ⟨htick,hfrom.imp_right fun ⟨row,hrow,heq⟩ => ⟨row,mem_append_left _ hrow,heq⟩⟩

end RecompNet.Whole.Session
