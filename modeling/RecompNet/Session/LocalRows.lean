import RecompNet.Session.Linking

/-!
# A seated session and its own rows

`try_admit` samples one local row per tick, at `sim + delay`, and plays the row of `sim`.
-/
namespace RecompNet.DelaySync
open List

structure Seat where
  session : Session
  admitted : Bool

def Admit.isPublish : Admit → Bool
  | .publish _ => true
  | .stall _ => false

variable (seat : Seat)
def Seat.step : Call → Seat
  | .tryAdmit now simTick sampled =>
    let r:=tryAdmit now simTick sampled seat.session
    ⟨r.1,seat.admitted || r.2.2.isPublish⟩
  | .advance => ⟨advance seat.session,false⟩
  | c => ⟨(callAct seat.session c).1,seat.admitted⟩

def Seat.run (calls : List Call) : Seat := calls.foldl Seat.step seat

/-- `P` of every call, at the seat that receives it. -/
def Seat.Each (P : Seat → Call → Prop) : Seat → List Call → Prop
  | _,[] => True
  | seat,c::cs => P seat c ∧ Seat.Each P (seat.step c) cs

def Body.InRange : Body → Prop
  | .delaySync newDelay _ => 2≤newDelay ∧ newDelay≤20
  | _ => True

/-- The host steps only past a tick it was given, and DELAY_SYNC names a delay
that `rnet_session_request_delay_change` allows. -/
def Seat.Proper : Call → Prop
  | .advance => seat.admitted=true
  | .pump _ _ pkts => ∀ m∈pkts,m.body.InRange
  | _ => True

def Covers (admitted : Bool) (s : Session) : Prop :=
  ∀ i<s.delay+admitted.toNat,s.localRing.has (s.simTick+i)
def NoSkip (admitted : Bool) (s s' : Session) : Prop :=
  s.phase=.running → s'.delay=s.delay ∨ Covers admitted s'

def Body.FromZero : Body → Prop
  | .start startTick => startTick=0
  | _ => True

def PacketsGapless (now : ℕ) (admitted : Bool) : Session → List Packet → Prop
  | _,[] => True
  | s,m::ms => m.body.FromZero ∧ NoSkip admitted s (handleDecoded now s m).1 ∧
      PacketsGapless now admitted (handleDecoded now s m).1 ms

def Seat.Gapless : Call → Prop
  | .pump now linkUp pkts =>
    PacketsGapless now seat.admitted (linked linkUp seat.session) pkts
  | .advance => NoSkip false seat.session (advance seat.session)
  | _ => True

instance : ∀ b : Body,Decidable b.InRange
  | .delaySync .. => inferInstanceAs (Decidable (_ ∧ _))
  | .hello .. | .ready .. | .start .. | .input .. | .inputConfirm .. | .bye .. =>
    inferInstanceAs (Decidable True)

instance : ∀ b : Body,Decidable b.FromZero
  | .start _ => inferInstanceAs (Decidable (_=_))
  | .hello .. | .ready .. | .input .. | .delaySync .. | .inputConfirm .. | .bye .. =>
    inferInstanceAs (Decidable True)

instance (admitted : Bool) (s : Session) : Decidable (Covers admitted s) :=
  inferInstanceAs (Decidable (∀ i<_,_))
instance (admitted : Bool) (s s' : Session) : Decidable (NoSkip admitted s s') :=
  inferInstanceAs (Decidable (_ → _))

instance packetsGaplessDecidable (now : ℕ) (admitted : Bool) :
    ∀ (s : Session) (pkts : List Packet),Decidable (PacketsGapless now admitted s pkts)
  | _,[] => inferInstanceAs (Decidable True)
  | s,m::ms =>
    have := packetsGaplessDecidable now admitted (handleDecoded now s m).1 ms
    inferInstanceAs (Decidable (_ ∧ _ ∧ _))

instance (seat : Seat) : ∀ c,Decidable (seat.Proper c)
  | .advance => inferInstanceAs (Decidable (_=_))
  | .pump .. => inferInstanceAs (Decidable (∀ m∈_,_))
  | .tryAdmit .. | .requestDelayChange .. | .setGate .. => inferInstanceAs (Decidable True)

instance (seat : Seat) : ∀ c,Decidable (seat.Gapless c)
  | .pump .. => inferInstanceAs (Decidable (PacketsGapless ..))
  | .advance => inferInstanceAs (Decidable (NoSkip ..))
  | .tryAdmit .. | .requestDelayChange .. | .setGate .. => inferInstanceAs (Decidable True)

instance seatEachDecidable (P : Seat → Call → Prop) [∀ seat c,Decidable (P seat c)] :
    ∀ (seat : Seat) (calls : List Call),Decidable (seat.Each P calls)
  | _,[] => inferInstanceAs (Decidable True)
  | seat,c::cs =>
    have := seatEachDecidable P (seat.step c) cs
    inferInstanceAs (Decidable (_ ∧ _))

def Bounded (s : Session) : Prop := (2 ≤ s.delay ∧ s.delay≤20) ∧
    ∀ p,s.delayPending=some p → 2≤p.value ∧ p.value≤20

variable {inp : List Packet} {s s' : Session} {out : List Packet} {rows : List (ℕ × ℕ)}
  {admitted : Bool}

structure Routine (s s' : Session) : Prop where
  running : s'.core.running=s.core.running
  simTick : s'.simTick=s.simTick
  delay : s'.delay=s.delay
  pending : s'.delayPending=s.delayPending
  localRing : s'.localRing=s.localRing

theorem Routine.refl (s : Session) : Routine s s := ⟨rfl,rfl,rfl,rfl,rfl⟩

theorem Routine.of_core {c : Core} (h : s'.core=c) (hrunning : c.running=s.core.running)
    (hsim : c.simTick=s.simTick) (hdelay : c.delay=s.delay)
    (hpending : c.delayPending=s.delayPending) (hring : c.localRing=s.localRing) :
    Routine s s' := by
  subst h
  exact ⟨hrunning,hsim,hdelay,hpending,hring⟩

theorem Step.routine_cases (h : Step inp s out rows s') : Routine s s' ∨
    (∃ tick s₁,s.phase≠.running ∧ s₁.core={ s.core with running := true,simTick := tick } ∧
      (tick=0 ∨ ∃ m∈inp,m.body=.start tick) ∧ s'=seedDelayPrefix s₁) ∨
    (∃ sampled,s.phase=.running ∧
      s'=sampleLocalFuture s (wireTickFromSim s.simTick s.delay) sampled) ∨
    (∃ m∈inp,∃ slot count delay version,m.body=.hello slot count delay version ∧
      (2≤delay ∧ delay≤20) ∧ s'=if s.phase≠.running then
        seedDelayPrefix { s with delay := delay } else { s with delay := delay }) ∨
    ∃ m∈inp,∃ delay effective,m.body=.delaySync delay effective ∧
      s'=onDelaySync s delay effective := by
  cases h with
  | calm hcore _ => exact .inl (.of_core hcore rfl rfl rfl rfl rfl)
  | bundle now => exact .inl (.of_core (sendInputBundle_core now s) rfl rfl rfl rfl rfl)
  | confirm now wire =>
    rcases prepareWireConfirm_cases now s wire with ⟨hs,-⟩ | ⟨_,_,-,hcore,-⟩
    · rw [hs]
      exact .inl (.refl s)
    · exact .inl (.of_core hcore rfl rfl rfl rfl rfl)
  | reconfirm => exact .inl ⟨rfl,rfl,rfl,rfl,rfl⟩
  | start tick hph hcore htick => exact .inr (.inl ⟨tick,_,hph,hcore,htick,rfl⟩)
  | sample sampled hrun => exact .inr (.inr (.inl ⟨sampled,hrun,rfl⟩))
  | adopt m slot count delay version hm hbody hlow hhigh =>
    exact .inr (.inr (.inr (.inl ⟨m,hm,slot,count,delay,version,hbody,⟨hlow,hhigh⟩,rfl⟩)))
  | store m slot _ _ _ f =>
    rcases storeRemoteFrame_cases s slot f with ⟨hs,-⟩ | ⟨-,-,-,-,-,hcore⟩
    · rw [hs]
      exact .inl (.refl s)
    · exact .inl (.of_core hcore rfl rfl rfl rfl rfl)
  | ack m slot ackTick _ acks =>
    obtain ⟨_,_,_,hcore⟩ := onInputAck_core s slot ackTick acks
    exact .inl (.of_core hcore rfl rfl rfl rfl rfl)
  | delaySync m newDelay effectiveTick hm hbody =>
    exact .inr (.inr (.inr (.inr ⟨m,hm,newDelay,effectiveTick,hbody,rfl⟩)))
  | peerConfirm m slot tick hash =>
    rcases onInputConfirm_core s slot tick hash with ⟨-,hs⟩ | ⟨-,hcore⟩
    · rw [hs]
      exact .inl (.refl s)
    · exact .inl (.of_core hcore rfl rfl rfl rfl rfl)

theorem Step.delay_cases (h : Step inp s out rows s') :
    (s'.delay=s.delay ∧ s'.delayPending=s.delayPending) ∨
    (∃ m∈inp,∃ slot count delay version,m.body=.hello slot count delay version ∧
      (2≤delay ∧ delay≤20) ∧ s'.delay=delay ∧ s'.delayPending=s.delayPending) ∨
    ∃ m∈inp,∃ delay effective,m.body=.delaySync delay effective ∧
      s'=onDelaySync s delay effective := by
  rcases h.routine_cases with hr | ⟨tick,s₁,-,hcore,-,rfl⟩ | ⟨sampled,-,rfl⟩ |
    ⟨m,hm,slot,count,delay,version,hbody,hlegal,rfl⟩ | hsync
  · exact .inl ⟨hr.delay,hr.pending⟩
  · exact .inl ⟨congrArg Core.delay hcore,congrArg Core.delayPending hcore⟩
  · unfold sampleLocalFuture
    split <;> exact .inl ⟨rfl,rfl⟩
  · refine .inr (.inl ⟨m,hm,slot,count,delay,version,hbody,hlegal,?_⟩)
    split <;> exact ⟨rfl,rfl⟩
  · exact .inr (.inr hsync)

theorem Step.bounded (h : Step inp s out rows s') (hinp : ∀ m∈inp,m.body.InRange)
    (hb : Bounded s) : Bounded s' := by
  rcases h.delay_cases with ⟨hd,hp⟩ | ⟨m,-,_,_,d,_,-,hd,hd',hp⟩ | ⟨m,hm,d,e,hbody,rfl⟩
  · rw [Bounded,hd,hp]
    exact hb
  · rw [Bounded,hd',hp]
    exact ⟨hd,hb.2⟩
  have hr:=hinp m hm
  rw [hbody] at hr
  unfold onDelaySync
  split
  · exact ⟨hr,by simp⟩
  refine ⟨hb.1,?_⟩
  rintro p hp
  cases hp
  exact hr

theorem Steps.bounded (h : Steps inp s out rows s') (hinp : ∀ m∈inp,m.body.InRange)
    (hb : Bounded s) : Bounded s' := by
  induction h with
  | refl => exact hb
  | tail _ hstep ih => exact hstep.bounded hinp ih

structure Kept (s s' : Session) : Prop where
  running : s'.phase=.running
  simTick : s'.simTick=s.simTick
  rows : ∀ i<historyLength,s.localRing.has (s.simTick+i) → s'.localRing.has (s.simTick+i)

theorem Kept.refl (hrun : s.phase=.running) : Kept s s := ⟨hrun,rfl,fun _ _ h => h⟩

theorem Kept.trans {s'' : Session} (h : Kept s s') (h' : Kept s' s'') : Kept s s'' := by
  refine ⟨h'.running,h'.simTick.trans h.simTick,fun i hi hin => ?_⟩
  have := h'.rows i hi
  rw [h.simTick] at this
  exact this (h.rows i hi hin)

theorem Kept.covers (h : Kept s s') (hb : s.delay≤20) (hd : s'.delay=s.delay)
    (hc : Covers admitted s) : Covers admitted s' := by
  intro i hi
  rw [hd] at hi
  rw [h.simTick]
  have hbit : admitted.toNat≤1 := Bool.toNat_le admitted
  exact h.rows i (by simp only [historyLength]; omega) (hc i hi)

theorem Step.kept (h : Step inp s out rows s') (hrun : s.phase=.running) (hb : Bounded s) :
    Kept s s' := by
  rcases h.routine_cases with hr | ⟨tick,s₁,hph,-⟩ | ⟨sampled,-,rfl⟩ |
    ⟨m,hm,slot,count,delay,version,hbody,hlegal,rfl⟩ | ⟨m,hm,delay,effective,-,rfl⟩
  · refine ⟨?_,hr.simTick,fun i _ hin => hr.localRing ▸ hin⟩
    simpa [Session.core,hrun] using hr.running
  · exact absurd hrun hph
  · unfold sampleLocalFuture
    split
    · exact .refl hrun
    refine ⟨hrun,rfl,fun i hi hin => ?_⟩
    have := hb.1.2
    simp only [ringStore,futureSample,if_true,wireTickFromSim]
    simp only [historyLength] at hi ⊢
    exact TickRing.has_store_of_near _ (.inl hin) (by omega) (by omega)
  · rw [if_neg (not_not.mpr hrun)]
    exact ⟨hrun,rfl,fun _ _ h => h⟩
  · unfold onDelaySync
    split <;> exact ⟨hrun,rfl,fun _ _ h => h⟩

theorem Steps.kept (h : Steps inp s out rows s') (hinp : ∀ m∈inp,m.body.InRange)
    (hrun : s.phase=.running) (hb : Bounded s) : Kept s s' := by
  induction h with
  | refl => exact .refl hrun
  | tail hsteps hstep ih => exact ih.trans (hstep.kept ih.running (hsteps.bounded hinp hb))

theorem seed_has (ring : InputRing) {d t : ℕ} (hd : d≤historyLength) (ht : t<d) :
    ((List.range d).foldl (fun ring t =>
      if (ringGet ring t).isSome then ring else ringStore ring (neutralSample t)) ring).has t =
        true := by
  induction d with
  | zero => omega
  | succ d ih =>
    rw [range_succ,foldl_append,foldl_cons,foldl_nil]
    have ih:=ih (by omega)
    generalize (range d).foldl _ ring=r at ih ⊢
    by_cases htd : t=d
    · subst htd
      split
      · next hin => exact hin
      · exact TickRing.has_store_of_near _ (.inr rfl) (by simp [historyLength,neutralSample])
          (by simp [historyLength,neutralSample])
    have hr:=ih (by omega)
    split
    · exact hr
    · exact TickRing.has_store_of_near _ (.inl hr) (by simp only [neutralSample]; omega)
        (by simp only [neutralSample]; omega)

theorem Step.starts_covered (h : Step inp s out rows s') (hzero : ∀ m∈inp,m.body.FromZero)
    (hidle : s.phase≠.running) (hb : Bounded s) : s'.phase≠.running ∨ Covers false s' := by
  rcases h.routine_cases with hr | ⟨tick,s₁,-,hcore,htick,rfl⟩ | ⟨sampled,hrun,-⟩ |
    ⟨m,hm,slot,count,delay,version,hbody,hlegal,rfl⟩ | ⟨m,hm,delay,effective,-,rfl⟩
  · refine .inl fun hrun => hidle ?_
    simpa [Session.core,hrun] using hr.running.symm
  · refine .inr fun i hi => ?_
    have hd : s₁.delay=s.delay := congrArg Core.delay hcore
    have ht : s₁.simTick=0 := by
      rcases htick with rfl | ⟨m,hm,hbody⟩
      · exact congrArg Core.simTick hcore
      have h0:=hzero m hm
      rw [hbody] at h0
      exact (congrArg Core.simTick hcore).trans h0
    simp only [seedDelayPrefix,Bool.toNat_false,Nat.add_zero,ht,Nat.zero_add] at hi ⊢
    refine seed_has _ ?_ hi
    rw [hd]
    exact le_trans hb.1.2 (by decide)
  · exact absurd hrun hidle
  · rw [if_pos hidle]
    exact .inl hidle
  · unfold onDelaySync
    split <;> exact .inl hidle

structure Supplied (admitted : Bool) (s : Session) : Prop where
  seated : s.cfg.isObserver=false
  bounded : Bounded s
  covers : s.phase=.running → Covers admitted s
  running : admitted → s.phase=.running

def Body.Steady : Body → Prop
  | .hello .. | .delaySync .. => False
  | .start startTick => startTick=0
  | _ => True

theorem Supplied.steady (h : Supplied admitted s) (hinp : ∀ m∈inp,m.body.Steady)
    (hsteps : Steps inp s out rows s') : Supplied admitted s' := by
  induction hsteps with
  | refl => exact h
  | @tail s₁ s₂ _ _ _ _ _ hstep ih =>
    have hrange : ∀ m∈inp,m.body.InRange := by
      intro m hm
      have hs:=hinp m hm
      cases hbody : m.body <;> rw [hbody] at hs <;> simp_all [Body.InRange,Body.Steady]
    have hzero : ∀ m∈inp,m.body.FromZero := by
      intro m hm
      have hs:=hinp m hm
      cases hbody : m.body <;> rw [hbody] at hs <;> simp_all [Body.FromZero,Body.Steady]
    have hdelay : s₂.delay=s₁.delay := by
      rcases hstep.delay_cases with ⟨hd,-⟩ | ⟨m,hm,_,_,_,_,hbody,-⟩ | ⟨m,hm,_,_,hbody,-⟩
      · exact hd
      · have hs:=hinp m hm
        rw [hbody] at hs
        exact hs.elim
      have hs:=hinp m hm
      rw [hbody] at hs
      exact hs.elim
    refine ⟨hstep.cfg_eq ▸ ih.seated,hstep.bounded hrange ih.bounded,fun hrun' => ?_,fun ha => ?_⟩
    · by_cases hrun : s₁.phase=.running
      · exact (hstep.kept hrun ih.bounded).covers ih.bounded.1.2 hdelay (ih.covers hrun)
      obtain rfl : admitted=false := by
        cases admitted with
        | false => rfl
        | true => exact absurd (ih.running rfl) hrun
      exact (hstep.starts_covered hzero hrun ih.bounded).resolve_left (not_not.mpr hrun')
    · exact (hstep.kept (ih.running ha) ih.bounded).running

variable (now : ℕ) {m : Packet}
theorem handleDecoded_idle (hidle : s.phase≠.running)
    (hm : ¬ m.body.Steady) (hzero : m.body.FromZero) :
    (handleDecoded now s m).1.phase≠.running := by
  unfold handleDecoded
  split
  · exact hidle
  · cases hbody : m.body with
    | hello localSlot slotCount delay version =>
      exact fun hrun => hidle ((onHello_door s localSlot slotCount delay version).1.mp hrun)
    | delaySync newDelay effectiveTick =>
      dsimp only
      rw [(SameDoor.onDelaySync s newDelay effectiveTick).1]
      exact hidle
    | start tick =>
      rw [hbody] at hm hzero
      exact absurd hzero hm
    | ready | input | inputConfirm | bye =>
      rw [hbody] at hm
      exact absurd trivial hm

theorem Supplied.handleDecoded (h : Supplied admitted s)
    (hrange : m.body.InRange) (hzero : m.body.FromZero)
    (hskip : NoSkip admitted s (handleDecoded now s m).1) :
    Supplied admitted (handleDecoded now s m).1 := by
  have hsteps:=steps_handleDecoded now (mem_singleton_self m) s
  have hin : ∀ x∈[m],x.body.InRange := fun x hx => mem_singleton.mp hx ▸ hrange
  by_cases hsteady : m.body.Steady
  · exact h.steady (fun x hx => mem_singleton.mp hx ▸ hsteady) hsteps
  refine ⟨hsteps.cfg_eq ▸ h.seated,hsteps.bounded hin h.bounded,fun hrun' => ?_,fun ha => ?_⟩
  · by_cases hrun : s.phase=.running
    · rcases hskip hrun with hd | hc
      · exact (hsteps.kept hin hrun h.bounded).covers h.bounded.1.2 hd (h.covers hrun)
      · exact hc
    · exact absurd hrun' (handleDecoded_idle now hrun hsteady hzero)
  · exact (hsteps.kept hin (h.running ha) h.bounded).running

variable {pkts : List Packet}
theorem Supplied.pumpRecv (h : Supplied admitted s)
    (hrange : ∀ m∈pkts,m.body.InRange) (hgap : PacketsGapless now admitted s pkts) :
    Supplied admitted (pumpRecv now s pkts).1 := by
  rw [pumpRecv_session]
  induction pkts generalizing s with
  | nil => exact h
  | cons m ms ih =>
    exact ih (h.handleDecoded now (hrange m mem_cons_self) hgap.1 hgap.2.1)
      (fun x hx => hrange x (mem_cons_of_mem _ hx)) hgap.2.2

theorem Supplied.quietly {r : Session × List Packet} (h : Supplied admitted s)
    (hq : Quietly [] s r) : Supplied admitted r.1 := h.steady (by simp) hq

theorem Supplied.sessionPump (linkUp : Bool)
    (h : Supplied admitted s) (hrange : ∀ m∈pkts,m.body.InRange)
    (hgap : PacketsGapless now admitted (linked linkUp s) pkts) :
    Supplied admitted (sessionPump now linkUp pkts s).1 := by
  have h₀ : Supplied admitted (linked linkUp s) := h.quietly (.calm (linked_core linkUp s))
  have h₁:=(h₀.pumpRecv now hrange hgap).quietly (Quietly.maybeBootstrap now _)
  have h₂:=(h₁.quietly (Quietly.keepAlive now _)).quietly (Quietly.bundle now _)
  rw [sessionPump_eq]
  exact h₂.quietly (Quietly.resendDelaySync now _)

theorem Supplied.tryAdmit (now simTick : ℕ) (sampled : InputSample) (h : Supplied admitted s) :
    let r:=tryAdmit now simTick sampled s
    Supplied (admitted || r.2.2.isPublish) r.1 := by
  have hq : Quietly [] s ((DelaySync.tryAdmit now simTick sampled s).1,
      (DelaySync.tryAdmit now simTick sampled s).2.1) := Quietly.tryAdmit now simTick sampled s
  have h' : Supplied admitted (DelaySync.tryAdmit now simTick sampled s).1 := h.quietly hq
  dsimp only
  cases hres : (DelaySync.tryAdmit now simTick sampled s).2.2 with
  | stall reason => simpa [Admit.isPublish] using h'
  | publish resolved =>
    obtain ⟨-,hrun,hclock,-,hrow⟩ := tryAdmit_publish hres
    have hrun':=hclock.phase.trans hrun
    refine ⟨h'.seated,h'.bounded,fun _ => ?_,fun _ => hrun'⟩
    intro i hi
    simp only [Admit.isPublish,Bool.or_true,Bool.toNat_true] at hi
    by_cases hlast : i=(DelaySync.tryAdmit now simTick sampled s).1.delay
    · rw [hlast,hclock.delay,hclock.simTick]
      exact hrow h.seated
    · exact h'.covers hrun' i (by omega)

theorem Supplied.advance (h : Supplied true s) (hskip : NoSkip false s (advance s)) :
    Supplied false (advance s) := by
  have hrun:=h.running rfl
  have hb : Bounded (DelaySync.advance s) := by
    unfold DelaySync.advance applyPendingDelay
    split
    · next p hp =>
      split
      · exact ⟨h.bounded.2 p hp,by simp⟩
      · exact h.bounded
    · exact h.bounded
  refine ⟨(callAct_cfg s .advance) ▸ h.seated,hb,fun _ => ?_,by simp⟩
  rcases hskip hrun with hd | hc
  · intro i hi
    have hrow:=h.covers hrun (i+1) (by simp only [Bool.toNat_false,Bool.toNat_true] at hi ⊢; omega)
    have hclock : (DelaySync.advance s).simTick=s.simTick+1 ∧
        (DelaySync.advance s).localRing=s.localRing := by
      unfold DelaySync.advance applyPendingDelay
      split
      · split <;> exact ⟨rfl,rfl⟩
      · exact ⟨rfl,rfl⟩
    rw [hclock.1,hclock.2,Nat.add_assoc,Nat.add_comm 1 i]
    exact hrow
  · exact hc

theorem Supplied.requestDelayChange (now newDelay : ℕ) (h : Supplied admitted s) :
    Supplied admitted (requestDelayChange now newDelay s).1 := by
  have hpend : ∀ e,Supplied admitted (emitDelaySync now
      { s with delayPending := some ⟨min (max newDelay 2) 20,e⟩ } (min (max newDelay 2) 20) e).1 := by
    intro e
    refine { h with bounded := ⟨h.bounded.1,?_⟩ }
    rintro q hq
    cases hq
    simp only
    omega
  unfold DelaySync.requestDelayChange
  dsimp only
  split
  · exact h
  split
  · exact h
  split
  · split
    · exact { h with }
    · exact hpend _
  · exact hpend _

variable {seat : Seat}
theorem Supplied.step (c : Call) (h : Supplied seat.admitted seat.session)
    (hproper : seat.Proper c) (hgap : seat.Gapless c) :
    Supplied (seat.step c).admitted (seat.step c).session := by
  cases c with
  | pump now linkUp pkts =>
    simp only [Seat.step,callAct]
    exact h.sessionPump now linkUp hproper hgap
  | tryAdmit now simTick sampled => exact h.tryAdmit now simTick sampled
  | advance =>
    simp only [Seat.Proper] at hproper
    rw [hproper] at h
    exact h.advance hgap
  | requestDelayChange now newDelay => exact h.requestDelayChange now newDelay
  | setGate gate => exact { h with }

theorem Supplied.run {calls : List Call}
    (h : Supplied seat.admitted seat.session) (hproper : seat.Each Seat.Proper calls)
    (hgap : seat.Each Seat.Gapless calls) :
    Supplied (seat.run calls).admitted (seat.run calls).session := by
  induction calls generalizing seat with
  | nil => exact h
  | cons c cs ih => exact ih (h.step c hproper.1 hgap.1) hproper.2 hgap.2

variable {now tick : ℕ}
theorem admitConfirm_stall {resolved : List InputSample} :
    (admitConfirm now s tick resolved).2.2≠.stall .waitLocalInput := by
  unfold admitConfirm
  dsimp only
  split
  · split <;> simp
  split
  · split
    · simp
    · split <;> simp
  · simp

theorem admitRows_stall (h : s.localRing.has tick) :
    (admitRows now s tick).2.2≠.stall .waitLocalInput := by
  have hplay : (!s.isObserver && (ringGet s.localRing tick).isNone)=false := by
    have : (ringGet s.localRing tick).isSome := h
    cases hg : ringGet s.localRing tick <;> simp_all
  unfold admitRows
  rw [hplay,if_neg (by simp)]
  split
  · simp
  split
  · simp
  · exact admitConfirm_stall

theorem Supplied.play_row (h : Supplied admitted s) (hrun : s.phase=.running) :
    s.localRing.has s.simTick := by
  have hrow:=h.covers hrun 0 (by have := h.bounded.1.1; omega)
  exact hrow

theorem Supplied.tryAdmit_stall (h : Supplied admitted s) (now simTick : ℕ) (sampled : InputSample) :
    (DelaySync.tryAdmit now simTick sampled s).2.2≠.stall .waitLocalInput := by
  rcases tryAdmit_cases now simTick sampled s with ⟨reason,hcase,hne⟩ | ⟨hopen,hcase⟩
  · rw [hcase]
    simpa using hne
  dsimp only at hcase
  rw [hcase]
  obtain ⟨ha,hca⟩ := Quietly.admitSample [] now sampled hopen.1
  have hplay:=(h.quietly ha).play_row (hca.phase.trans hopen.1)
  generalize admitSample now s (wireTickFromSim s.simTick s.delay) sampled=a at hca hplay ⊢
  obtain ⟨-,hcb⟩ := Quietly.refreshConfirmWindow [] now (hca.phase.trans hopen.1)
  rw [hca.simTick,hca.delay] at hcb
  generalize refreshConfirmWindow now a.1 s.simTick (wireTickFromSim s.simTick s.delay)=b at hcb ⊢
  refine admitRows_stall ?_
  rw [hcb.localRing,← hca.simTick]
  exact hplay

theorem supplied_create {cfg : Config} {s₀ : Session} (hcreate : sessionCreate cfg=some s₀)
    (hs : s=s₀ ∨ s=sessionStartLan s₀) (hseat : cfg.isObserver=false)
    (hdelay : 2 ≤ cfg.inputDelay ∧ cfg.inputDelay≤20) : Supplied false s := by
  obtain rfl := sessionCreate_eq_some hcreate
  rcases hs with rfl | rfl
  · exact ⟨hseat,⟨hdelay,by simp [freshSession]⟩,by simp [freshSession],by simp⟩
  · exact ⟨hseat,⟨hdelay,by simp [freshSession,sessionStartLan]⟩,by simp [sessionStartLan],by simp⟩

/-- **Own input.** -/
theorem own_row_present {cfg : Config} {s₀ s : Session} {calls : List Call}
    (hcreate : sessionCreate cfg=some s₀) (hs : s=s₀ ∨ s=sessionStartLan s₀)
    (hseat : cfg.isObserver=false) (hdelay : 2 ≤ cfg.inputDelay ∧ cfg.inputDelay≤20)
    (hproper : Seat.Each Seat.Proper ⟨s,false⟩ calls)
    (hgap : Seat.Each Seat.Gapless ⟨s,false⟩ calls) :
    let s':=(Seat.run ⟨s,false⟩ calls).session
    (s'.phase=.running → s'.localRing.has s'.simTick=true) ∧
      ∀ now simTick sampled,(tryAdmit now simTick sampled s').2.2≠.stall .waitLocalInput := by
  have hsup : Supplied (Seat.run ⟨s,false⟩ calls).admitted (Seat.run ⟨s,false⟩ calls).session :=
    Supplied.run (supplied_create hcreate hs hseat hdelay) hproper hgap
  exact ⟨hsup.play_row,hsup.tryAdmit_stall⟩

def startCalls : List Call :=
  [.pump 100 false [⟨0x524E4554,1,.hello 1 2 2 wireVersion⟩,⟨0x524E4554,1,.ready 1⟩]]

def tickCalls (t : ℕ) : List Call :=
  [.pump (200+20*t) false [⟨0x524E4554,1,.input 1 0 0 [⟨t,0,PadBytes.zero⟩] []⟩,
      ⟨0x524E4554,1,.inputConfirm 1 0 t
        (hashResolvedInputs t [neutralSample t,neutralSample t])⟩],
    .tryAdmit (210+20*t) t (neutralSample 0),.advance]

def loweredCalls : List Call := startCalls++[.pump 110 false [⟨0x524E4554,1,.delaySync 2 1⟩]] ++
    tickCalls 0++tickCalls 1

theorem own_row_present_lowered :
    let s:=sessionStartLan (freshSession { pairCfg false with inputDelay := 3 })
    let s':=(Seat.run ⟨s,false⟩ loweredCalls).session
    s'.phase=.running ∧ s'.simTick=2 ∧ s'.delay=2 ∧ s'.localRing.has s'.simTick=true ∧
      (tryAdmit 300 2 (neutralSample 0) s').2.2≠.stall .waitLocalInput := by
  have hproper : Seat.Each Seat.Proper ⟨sessionStartLan (freshSession
      { pairCfg false with inputDelay := 3 }),false⟩ loweredCalls := by decide +kernel
  have h:=own_row_present (show sessionCreate { pairCfg false with inputDelay := 3 }=some _
    from rfl) (.inr rfl) (by decide) (by decide) hproper (by decide +kernel)
  have hrun : (Seat.run ⟨sessionStartLan (freshSession { pairCfg false with inputDelay := 3 }),
      false⟩ loweredCalls).session.phase=.running := by decide +kernel
  exact ⟨hrun,by decide +kernel,by decide +kernel,h.1 hrun,h.2 _ _ _⟩

def raisedCalls : List Call :=
  startCalls++[.requestDelayChange 110 3]++(List.range 14).flatMap tickCalls

theorem stalls_on_skipped_row :
    let s:=sessionStartLan (freshSession (pairCfg false))
    let s':=(Seat.run ⟨s,false⟩ raisedCalls).session
    sessionCreate (pairCfg false)=some (freshSession (pairCfg false)) ∧
      (pairCfg false).isObserver=false ∧ Seat.Each Seat.Proper ⟨s,false⟩ raisedCalls ∧
      s'.phase=.running ∧ s'.simTick=14 ∧ s'.delay=3 ∧
      (tryAdmit 600 14 (neutralSample 0) s').2.2=.stall .waitLocalInput := by
  refine ⟨rfl,?_,?_,?_,?_,?_,?_⟩ <;> decide +kernel

end RecompNet.DelaySync
