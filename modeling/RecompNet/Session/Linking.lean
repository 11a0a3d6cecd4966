import RecompNet.Lib.Trace
import RecompNet.Session.Effects
import RecompNet.Session.Room

/-!
# Linking: HELLO, READY and START

The wire version and the slot count are checked in HELLO only.
-/
namespace RecompNet.DelaySync
def received (calls : List Call) : List Packet := (calls.flatMap callInputs).reverse
def runSession (s : Session) (calls : List Call) : Session :=
  calls.foldl (fun s c => (callAct s c).1) s

variable (cfg : Config)
def Body.HelloOf (q : ℕ) : Body → Prop
  | .hello localSlot slotCount _ version =>
    localSlot=q ∧ slotCount=cfg.slotCount ∧ version=wireVersion
  | _ => False

def Packet.HelloOf (cfg : Config) (q : ℕ) (m : Packet) : Prop :=
  m.ForSession cfg ∧ m.body.HelloOf cfg q

/-- Seat `q` is another occupied seat. -/
def RemoteSeat (q : ℕ) : Prop := q<cfg.slotCount ∧ q≠cfg.localSlot ∧ cfg.slotOccupied q
def Met (past : List Packet) (q : ℕ) : Prop := RemoteSeat cfg q → ∃ m∈past,m.HelloOf cfg q

def Body.RestsOn (past : List Packet) : Body → Prop
  | .ready localSlot => Met cfg past localSlot
  | .start _ => ∀ q<cfg.slotCount,Met cfg past q
  | _ => True

def HelloFirst (m : Packet) (past : List Packet) : Prop :=
  m.ForSession cfg → m.body.RestsOn cfg past

instance (cfg : Config) (q : ℕ) : ∀ b : Body,Decidable (b.HelloOf cfg q)
  | .hello .. => inferInstanceAs (Decidable (_ ∧ _ ∧ _))
  | .ready .. | .start .. | .input .. | .delaySync .. | .inputConfirm .. | .bye .. =>
    inferInstanceAs (Decidable False)

instance (cfg : Config) (q : ℕ) (m : Packet) : Decidable (m.HelloOf cfg q) :=
  inferInstanceAs (Decidable (_ ∧ _))
instance (cfg : Config) (q : ℕ) : Decidable (RemoteSeat cfg q) :=
  inferInstanceAs (Decidable (_ ∧ _ ∧ _))
instance (cfg : Config) (past : List Packet) (q : ℕ) : Decidable (Met cfg past q) :=
  inferInstanceAs (Decidable (_ → _))

instance (cfg : Config) (past : List Packet) : ∀ b : Body,Decidable (b.RestsOn cfg past)
  | .ready _ => inferInstanceAs (Decidable (Met ..))
  | .start _ => inferInstanceAs (Decidable (∀ q<_,Met ..))
  | .hello .. | .input .. | .delaySync .. | .inputConfirm .. | .bye .. =>
    inferInstanceAs (Decidable True)

instance (cfg : Config) (m : Packet) (past : List Packet) : Decidable (HelloFirst cfg m past) :=
  inferInstanceAs (Decidable (_ → _))

section
variable {cfg : Config} {past : List Packet} {s s' : Session} {m : Packet} {q : ℕ}
theorem Met.mono (h : Met cfg past q) : Met cfg (m::past) q := fun hq =>
  let ⟨x,hx,hello⟩ := h hq
  ⟨x,List.mem_cons_of_mem _ hx,hello⟩

def Waiting (cfg : Config) (past : List Packet) (s : Session) : Prop :=
  s.phase≠.running ∧ ∀ q,s.peerReady q → Met cfg past q
def Vetted (cfg : Config) (past : List Packet) (s : Session) : Prop :=
  s.cfg=cfg ∧ ((∀ q,Met cfg past q) ∨ Waiting cfg past s)
theorem Vetted.cons (h : Vetted cfg past s) : Vetted cfg (m::past) s :=
  ⟨h.1,h.2.imp (fun hall q => (hall q).mono) fun hw => ⟨hw.1,fun q hq => (hw.2 q hq).mono⟩⟩

theorem Vetted.step (h : Vetted cfg past s) (hcfg : s'.cfg=s.cfg)
    (hstep : Waiting cfg past s → Waiting cfg past s') : Vetted cfg past s' :=
  ⟨hcfg.trans h.1,h.2.imp id hstep⟩

def SameDoor (s s' : Session) : Prop := s'.phase=s.phase ∧ s'.peerReady=s.peerReady
theorem SameDoor.trans {s'' : Session} (h : SameDoor s s') (h' : SameDoor s' s'') :
    SameDoor s s'' := ⟨h'.1.trans h.1,h'.2.trans h.2⟩
theorem SameDoor.waiting (h : SameDoor s s') (hw : Waiting cfg past s) : Waiting cfg past s' :=
  ⟨h.1 ▸ hw.1,h.2 ▸ hw.2⟩

section
variable (s : Session)
theorem SameDoor.onInput (slot epoch ackTick : ℕ) (frames : List WireFrame)
    (acks : List (Option ℕ)) : SameDoor s (onInput s slot epoch ackTick frames acks) := by
  have hstore : ∀ (s : Session) (f : WireFrame),SameDoor s (storeRemoteFrame s slot f) := by
    intro s f
    unfold storeRemoteFrame
    split_ifs <;> exact ⟨rfl,rfl⟩
  have hfold : ∀ (fs : List WireFrame) (s : Session),
      SameDoor s (fs.foldl (fun s f => storeRemoteFrame s slot f) s) := by
    intro fs
    induction fs with
    | nil => exact fun s => ⟨rfl,rfl⟩
    | cons f fs ih => exact fun s => (hstore s f).trans (ih _)
  have hack : ∀ s : Session,SameDoor s (onInputAck s slot ackTick acks) := by
    intro s
    unfold onInputAck
    dsimp only
    split_ifs <;> exact ⟨rfl,rfl⟩
  unfold DelaySync.onInput
  split
  · exact ⟨rfl,rfl⟩
  · exact (hfold frames s).trans (hack _)

theorem SameDoor.onDelaySync (newDelay effectiveTick : ℕ) :
    SameDoor s (onDelaySync s newDelay effectiveTick) := by
  unfold DelaySync.onDelaySync
  split <;> exact ⟨rfl,rfl⟩

theorem SameDoor.onInputConfirm (slot epoch tick hash : ℕ) :
    SameDoor s (onInputConfirm s slot epoch tick hash) := by
  unfold DelaySync.onInputConfirm
  split
  · exact ⟨rfl,rfl⟩
  dsimp only
  split
  · split_ifs <;> exact ⟨rfl,rfl⟩
  · exact ⟨rfl,rfl⟩

theorem SameDoor.advance : SameDoor s (advance s) := by
  unfold DelaySync.advance applyPendingDelay
  split
  · split <;> exact ⟨rfl,rfl⟩
  · exact ⟨rfl,rfl⟩

theorem onHello_door (localSlot slotCount delay version : ℕ) :
    let s':=onHello s localSlot slotCount delay version
    (s'.phase=.running ↔ s.phase=.running) ∧ s'.peerReady=s.peerReady := by
  unfold onHello
  dsimp only
  split
  · exact ⟨.rfl,rfl⟩
  split
  · exact ⟨.rfl,rfl⟩
  have h₁ : ((if s.phase=.linking then { s with phase := .ready } else s).phase=.running ↔
      s.phase=.running) ∧
      (if s.phase=.linking then { s with phase := .ready } else s).peerReady=s.peerReady := by
    split
    · next hl => simp [hl]
    · exact ⟨.rfl,rfl⟩
  revert h₁
  generalize (if s.phase=.linking then { s with phase := .ready } else s)=s₁
  intro h₁
  split
  · split <;> exact h₁
  · exact h₁

end

theorem onReady_waiting {localSlot : ℕ} (h : Waiting cfg past s) (hmet : Met cfg past localSlot) :
    Waiting cfg past (onReady s localSlot).1 := by
  have hmark : Waiting cfg past
      { s with peerReady := Function.update s.peerReady localSlot true } := by
    refine ⟨h.1,fun q hq => ?_⟩
    by_cases hqs : q=localSlot
    · exact hqs ▸ hmet
    · exact h.2 q (by simpa [Function.update_of_ne hqs] using hq)
  unfold onReady
  split
  · exact h
  · dsimp only
    split <;> exact hmark

section
variable (now : ℕ)
theorem Vetted.handleDecoded (h : Vetted cfg past s) (hfirst : HelloFirst cfg m past) :
    Vetted cfg (m::past) (handleDecoded now s m).1 := by
  have hcfg : (DelaySync.handleDecoded now s m).1.cfg=s.cfg :=
    (steps_handleDecoded now (List.mem_singleton_self m) s).cfg_eq
  refine Vetted.cons ?_
  by_cases hdrop : m.magic≠s.cfg.protocolMagic ∨ m.sessionId≠s.cfg.sessionId
  · rw [show DelaySync.handleDecoded now s m=(s,[]) from if_pos hdrop]
    exact h
  have hfor : m.ForSession cfg := by
    rw [not_or,not_not,not_not,h.1] at hdrop
    exact hdrop
  have hmine:=hfirst hfor
  unfold DelaySync.handleDecoded at hcfg ⊢
  rw [if_neg hdrop] at hcfg ⊢
  -- only READY and START use the hypothesis on the past
  cases hbody : m.body with
  | hello localSlot slotCount delay version =>
    rw [hbody] at hcfg
    obtain ⟨hphase,hready⟩ := onHello_door s localSlot slotCount delay version
    exact h.step hcfg fun hw => ⟨fun hrun => hw.1 (hphase.mp hrun),hready ▸ hw.2⟩
  | ready localSlot =>
    rw [hbody] at hcfg hmine
    exact h.step hcfg fun hw => onReady_waiting hw hmine
  | start tick =>
    rw [hbody] at hcfg hmine
    exact ⟨hcfg.trans h.1,.inl fun q hq => hmine q hq.1 hq⟩
  | input slot epoch ackTick frames acks =>
    rw [hbody] at hcfg
    exact h.step hcfg (SameDoor.onInput s slot epoch ackTick frames acks).waiting
  | delaySync newDelay effectiveTick =>
    rw [hbody] at hcfg
    exact h.step hcfg (SameDoor.onDelaySync s newDelay effectiveTick).waiting
  | inputConfirm slot epoch tick hash =>
    rw [hbody] at hcfg
    exact h.step hcfg (SameDoor.onInputConfirm s slot epoch tick hash).waiting
  | bye localSlot =>
    rw [hbody] at hcfg
    refine h.step hcfg fun hw => ?_
    dsimp only
    split <;> exact hw

theorem Vetted.pumpRecv (pkts : List Packet) (h : Vetted cfg past s)
    (hfirst : Trace.All (HelloFirst cfg) (pkts.reverse++past)) :
    Vetted cfg (pkts.reverse++past) (pumpRecv now s pkts).1 := by
  rw [pumpRecv_session]
  induction pkts generalizing s past with
  | nil => exact h
  | cons m ms ih =>
    rw [List.reverse_cons,List.append_assoc,List.singleton_append] at hfirst ⊢
    exact ih (h.handleDecoded now hfirst.append_right.head) hfirst

theorem Vetted.maybeBootstrap (h : Vetted cfg past s) :
    Vetted cfg past (maybeBootstrap now s).1 := by
  have hcfg : (DelaySync.maybeBootstrap now s).1.cfg=s.cfg :=
    Steps.cfg_eq (show Quietly [] s _ from Quietly.maybeBootstrap now s)
  refine ⟨hcfg.trans h.1,h.2.elim .inl fun hw => ?_⟩
  have hann : Waiting cfg past (bootstrapAnnounce now s).1 ∧
      (bootstrapAnnounce now s).1.cfg=s.cfg := by
    refine ⟨?_,congrArg Core.cfg (bootstrapAnnounce_core now s)⟩
    unfold bootstrapAnnounce
    dsimp only
    split
    · refine ⟨by split_ifs <;> exact hw.1,fun q hq hseat => ?_⟩
      simp only [Bool.or_eq_true,Bool.and_eq_true,beq_iff_eq,Bool.not_eq_true',
        decide_eq_true_eq] at hq
      rcases hq with (hloc | hempty) | hq
      · exact absurd (hloc.2.trans (congrArg Config.localSlot h.1)) hseat.2.1
      · rw [h.1] at hempty
        exact absurd hseat.2.2 (by simp [hempty.2])
      · exact hw.2 q hq hseat
    · split_ifs <;> exact hw
  obtain ⟨hann,hcfg₁⟩ := hann
  unfold DelaySync.maybeBootstrap
  generalize bootstrapAnnounce now s=a at hann hcfg₁ ⊢
  dsimp only
  unfold bootstrapStart
  dsimp only
  split
  · next hc =>
    refine .inl fun q hq => hann.2 q ?_ hq
    have hall:=List.all_eq_true.mp hc.2.1 q
    rw [hcfg₁,h.1] at hall
    exact hall (List.mem_range.mpr hq.1)
  · exact .inr hann

theorem sessionPump_eq (linkUp : Bool) (pkts : List Packet) (s : Session) :
    (sessionPump now linkUp pkts s).1=(resendDelaySync now (sendInputBundle now (keepAlive now
      (maybeBootstrap now (pumpRecv now (linked linkUp s) pkts).1).1).1).1).1 := by
  unfold sessionPump linked
  dsimp only

theorem pump_tail_idle (h : s.phase≠.running) :
    (resendDelaySync now (sendInputBundle now (keepAlive now s).1).1).1=s := by
  have hkeep : keepAlive now s=(s,[]) := if_neg fun hc => h hc.1
  have hbundle : sendInputBundle now s=(s,[]) := by
    unfold sendInputBundle
    split <;> rfl
  rw [hkeep,hbundle]
  unfold resendDelaySync
  split
  · rw [if_neg fun hc => h hc.1]
  · rfl

theorem Vetted.sessionPump (linkUp : Bool) {pkts : List Packet} (h : Vetted cfg past s)
    (hfirst : Trace.All (HelloFirst cfg) (pkts.reverse++past)) :
    Vetted cfg (pkts.reverse++past) (sessionPump now linkUp pkts s).1 := by
  have hcfg:=(steps_sessionPump now linkUp pkts s).cfg_eq
  have h₀ : Vetted cfg past (linked linkUp s) := by
    refine h.step (congrArg Core.cfg (linked_core linkUp s)) fun hw => ?_
    unfold linked
    split
    · exact ⟨by simp,hw.2⟩
    · exact hw
  have h₁:=(h₀.pumpRecv now pkts hfirst).maybeBootstrap now
  refine ⟨hcfg.trans h.1,h₁.2.imp id fun hw => ?_⟩
  rw [sessionPump_eq,pump_tail_idle now hw.1]
  exact hw

end

theorem requestDelayChange_idle (now newDelay : ℕ) (h : s.phase≠.running) :
    requestDelayChange now newDelay s=(s,[]) := if_pos h
theorem tryAdmit_idle (now simTick : ℕ) (sampled : InputSample) (h : s.phase≠.running) :
    tryAdmit now simTick sampled s=(s,[],.stall .notRunning) := if_pos h

theorem Vetted.call (c : Call) (h : Vetted cfg past s)
    (hfirst : Trace.All (HelloFirst cfg) ((callInputs c).reverse++past)) :
    Vetted cfg ((callInputs c).reverse++past) (callAct s c).1 := by
  have hcfg:=callAct_cfg s c
  cases c with
  | pump now linkUp pkts =>
    dsimp only [callAct,callInputs] at hfirst ⊢
    exact h.sessionPump now linkUp hfirst
  | tryAdmit now simTick sampled =>
    refine h.step hcfg fun hw => ?_
    rw [callAct,tryAdmit_idle now simTick sampled hw.1]
    exact hw
  | advance => exact h.step hcfg (SameDoor.advance s).waiting
  | requestDelayChange now newDelay =>
    refine h.step hcfg fun hw => ?_
    rw [callAct,requestDelayChange_idle now newDelay hw.1]
    exact hw
  | setGate gate => exact h.step hcfg id

theorem received_append (calls : List Call) (c : Call) :
    received (calls++[c])=(callInputs c).reverse++received calls := by
  simp [received]

theorem Vetted.run {calls : List Call} (h : Vetted cfg [] s)
    (hfirst : Trace.All (HelloFirst cfg) (received calls)) :
    Vetted cfg (received calls) (runSession s calls) := by
  induction calls using List.reverseRecOn with
  | nil => exact h
  | append_singleton calls c ih =>
    rw [received_append] at hfirst ⊢
    rw [runSession,List.foldl_append]
    exact (ih hfirst.append_right).call c hfirst

theorem vetted_create {s₀ : Session} (hcreate : sessionCreate cfg=some s₀)
    (hs : s=s₀ ∨ s=sessionStartLan s₀) : Vetted cfg [] s := by
  obtain rfl := sessionCreate_eq_some hcreate
  have hready : ∀ q,(false : Bool)=true → Met cfg [] q := fun q hq => (by cases hq)
  rcases hs with rfl | rfl
  · exact ⟨rfl,.inr ⟨by simp [freshSession],hready⟩⟩
  · exact ⟨rfl,.inr ⟨by simp [sessionStartLan],hready⟩⟩

end

/-- **Wire-version refusal.** -/
theorem never_runs_unlinked {cfg : Config} {s₀ s : Session} {calls : List Call} {q : ℕ}
    (hcreate : sessionCreate cfg=some s₀) (hs : s=s₀ ∨ s=sessionStartLan s₀)
    (hfirst : Trace.All (HelloFirst cfg) (received calls)) (hq : RemoteSeat cfg q)
    (hno : ∀ m∈received calls,¬ m.HelloOf cfg q) : (runSession s calls).phase≠.running := by
  rcases ((vetted_create hcreate hs).run hfirst).2 with hall | hw
  · obtain ⟨m,hm,hello⟩ := hall q hq
    exact absurd hello (hno m hm)
  · exact hw.1

def trioCfg : Config := { pairCfg false with slotCount := 3 }

def otherWireCalls : List Call := [.pump 100 false [⟨0x524E4554,1,.hello 2 3 2 (wireVersion+1)⟩,
      ⟨0x524E4554,1,.hello 1 3 2 wireVersion⟩,⟨0x524E4554,1,.ready 1⟩],.pump 200 false []]

theorem never_runs_unlinked_trio :
    (runSession (sessionStartLan (freshSession trioCfg)) otherWireCalls).phase≠.running :=
  never_runs_unlinked (show sessionCreate trioCfg=some _ from rfl) (.inr rfl) (by decide +kernel)
    (show RemoteSeat trioCfg 2 by decide +kernel) (by decide +kernel)

theorem runs_with_other_version :
    let calls : List Call := [.pump 100 false [⟨0x524E4554,1,.hello 1 2 2 (wireVersion+1)⟩,
      ⟨0x524E4554,1,.ready 1⟩]]
    sessionCreate (pairCfg false)=some (freshSession (pairCfg false)) ∧
      RemoteSeat (pairCfg false) 1 ∧ (∀ m∈received calls,¬ m.HelloOf (pairCfg false) 1) ∧
      (runSession (sessionStartLan (freshSession (pairCfg false))) calls).phase=.running := by
  refine ⟨rfl,?_,?_,?_⟩ <;> decide +kernel

end RecompNet.DelaySync
