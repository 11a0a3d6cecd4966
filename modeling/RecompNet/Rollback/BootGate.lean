import RecompNet.Rollback.RefineCalls

/-!
# The boot gate

No live tick past tick 0 before every peer's tick-0 digest is in and equals ours, and none after a
refusal.
-/
namespace RecompNet.RbDriver
open List
variable {σ : Type} {C : Setup σ}

/-- Our tick-0 digest went out, and every expected seat sent the same one. -/
def BootAgreed (C : Setup σ) (log : List Event) : Prop :=
  ∃ digest,.sent (.frameCommit 0 digest)∈log ∧
    ∀ i∈expect C,.received ⟨i,.frameCommit 0 digest⟩∈log

variable {log : List Event}
theorem BootAgreed.mono {log' : List Event} (h : BootAgreed C log) (hl : log <:+ log') :
    BootAgreed C log' := by
  obtain ⟨digest,hown,hpeer⟩ := h
  exact ⟨digest,hl.subset hown,fun i hi => hl.subset (hpeer i hi)⟩

/-- Before the gate has settled no replay completes, and FRAME_COMMITs come from expected seats. -/
def BootOrderly (C : Setup σ) : Event → List Event → Prop
  | .replayed _ _,past => .bootSettled∈past
  | .received ⟨sender,.frameCommit _ _⟩,past => .bootSettled∈past ∨ sender∈expect C
  | _,_ => True

instance (e : Event) (past : List Event) : Decidable (BootOrderly C e past) := by
  unfold BootOrderly
  split <;> infer_instance

def AdmitAgreed (C : Setup σ) : Event → List Event → Prop
  | .admitted t,past => 0<t → BootAgreed C past
  | _,_ => True

structure BootInv (C : Setup σ) (s : Outline) : Prop where
  settled : .bootSettled∈s.log → s.boot.settled
  own0 : ∀ i g,s.own0 i=some g → .sent (.frameCommit 0 g)∈s.log
  peer0 : s.boot.settled=false → ∀ i g,s.peer0 i=some g → .received ⟨i,.frameCommit 0 g⟩∈s.log
  own : ∀ g,s.boot.own=some g → .sent (.frameCommit 0 g)∈s.log
  peer : s.boot.settled=false → ∀ i g,s.boot.peer i=some g → .received ⟨i,.frameCommit 0 g⟩∈s.log
  agreed : s.boot.settled → s.refusal=none → BootAgreed C s.log
  waiting : s.boot.settled=false → s.sim≤1 ∧ s.stage≠.verifying ∧ s.stage≠.tipHold
  pending : s.pending=.live → s.sim=0 ∨ s.boot.settled
  admits : Trace.All (AdmitAgreed C) s.log

theorem BootInv.init (core : Tuple) : BootInv C (.init core) where
  settled := by simp [Outline.init]
  own0 := by simp [Outline.init]
  peer0 := by simp [Outline.init]
  own := by simp [Outline.init]
  peer := by simp [Outline.init]
  agreed := by simp [Outline.init]
  waiting := by simp [Outline.init]
  pending := by simp [Outline.init]
  admits := trivial

variable {s : Outline}
theorem BootInv.recorded (h : BootInv C s) (hlog : s.log <:+ log) :
    (∀ i g,s.own0 i=some g → .sent (.frameCommit 0 g)∈log) ∧
    (s.boot.settled=false → ∀ i g,s.peer0 i=some g → .received ⟨i,.frameCommit 0 g⟩∈log) ∧
    (∀ g,s.boot.own=some g → .sent (.frameCommit 0 g)∈log) ∧
    (s.boot.settled=false → ∀ i g,s.boot.peer i=some g → .received ⟨i,.frameCommit 0 g⟩∈log) :=
  ⟨fun i g hi => hlog.subset (h.own0 i g hi),fun hw i g hi => hlog.subset (h.peer0 hw i g hi),
    fun g hi => hlog.subset (h.own g hi),fun hw i g hi => hlog.subset (h.peer hw i g hi)⟩

def SameGate (s s' : Outline) : Prop :=
  s'.boot=s.boot ∧ s'.own0=s.own0 ∧ s'.peer0=s.peer0 ∧ s'.refusal=s.refusal ∧
    s'.sim=s.sim ∧ s'.pending=s.pending

def GateQuiet (e : Event) : Prop := (∀ t,e≠.admitted t) ∧ e≠.bootSettled

theorem BootInv.admits_append {pre : List Event} (h : Trace.All (AdmitAgreed C) log)
    (hq : ∀ e∈pre,GateQuiet e) : Trace.All (AdmitAgreed C) (pre++log) := by
  refine h.append fun e he past => ?_
  cases e with
  | admitted t => exact absurd rfl ((hq _ he).1 t)
  | _ => trivial

variable {s' : Outline}
theorem BootInv.quiet (h : BootInv C s) (hgate : SameGate s s')
    (pre : List Event) (hlog : s'.log=pre++s.log) (hq : ∀ e∈pre,GateQuiet e)
    (hstage : s.boot.settled=false → s'.stage≠.verifying ∧ s'.stage≠.tipHold) :
    BootInv C s' := by
  obtain ⟨hboot,hown,hpeer,href,hsim,hpend⟩ := hgate
  have hsuf : s.log <:+ s'.log := ⟨pre,hlog.symm⟩
  constructor
  · intro hmem
    rw [hlog] at hmem
    rw [hboot]
    rcases mem_append.mp hmem with hmem | hmem
    · exact absurd rfl (hq _ hmem).2
    · exact h.settled hmem
  · exact fun i g hi => hsuf.subset (h.own0 i g (hown ▸ hi))
  · exact fun hw i g hi => hsuf.subset (h.peer0 (hboot ▸ hw) i g (hpeer ▸ hi))
  · exact fun g hi => hsuf.subset (h.own g (hboot ▸ hi))
  · exact fun hw i g hi => hsuf.subset (h.peer (hboot ▸ hw) i g (hboot ▸ hi))
  · intro hs hr
    exact (h.agreed (hboot ▸ hs) (href ▸ hr)).mono hsuf
  · intro hs
    rw [hboot] at hs
    rw [hsim]
    exact ⟨(h.waiting hs).1,hstage hs⟩
  · intro hp
    rw [hsim,hboot]
    exact h.pending (hpend ▸ hp)
  · rw [hlog]
    exact BootInv.admits_append h.admits hq

theorem BootInv.note (h : BootInv C s) (hgate : SameGate s s') {e : Event}
    (hlog : s'.log=e::s.log) (hq : GateQuiet e) (hs : s'.stage=s.stage) : BootInv C s' :=
  h.quiet hgate [e] hlog (fun _ he => mem_singleton.mp he ▸ hq)
    fun hw => hs ▸ (h.waiting hw).2

theorem Heard.frameCommit_received {i tick digest : ℕ}
    (h : Heard C i (.frameCommit tick digest) log) (hfine : Trace.All (BootOrderly C) log) :
    .bootSettled∈log ∨ .received ⟨i,.frameCommit tick digest⟩∈log := by
  obtain ⟨sender,hfrom,hrec⟩ := h
  obtain ⟨later,past,rfl⟩ := append_of_mem hrec
  have hsender : .bootSettled∈past ∨ sender∈expect C := hfine.at
  rcases hsender with hset | hsender
  · exact .inl (mem_append_right _ (mem_cons_of_mem _ hset))
  · rw [← fromBit_of_mem hsender hfrom]
    exact .inr hrec

theorem BootInv.verify {ran sends : List Event} {own0 : ℕ → Option ℕ}
    {next digest : ℕ} (h : BootInv C s) (hr : ReplayEnds s ran)
    (hs : ∀ e∈sends,∃ t g,e=.sent (.frameCommit t g)) (ho : ∀ i g,own0 i=some g →
      s.own0 i=some g ∨ .sent (.frameCommit 0 g)∈sends++(ran++s.log))
    (hs' : s'={ s with
      stage := .verifying,localPost := digest,replayNext := next,own0
      sim := s.tuple.target+1
      owed := Driver.owedClearSpan s.owed s.tuple.load s.tuple.target
      log := .verified s.tuple.epoch s.tuple.target digest ::
        .sent (.post s.tuple.epoch s.tuple.target digest) ::
        .replayed s.tuple.load s.tuple.target::(sends++(ran++s.log)) })
    (hfine : Trace.All (BootOrderly C) s'.log) : BootInv C s' := by
  subst hs'
  -- the replay may complete only on a settled gate
  have hsettled : s.boot.settled := by
    have hother : ∀ e∈sends++ran,e≠.bootSettled :=
      hr.forall_mem hs (fun _ _ => by simp) fun _ => by simp
    have hmem : .bootSettled∈sends++(ran++s.log) := hfine.tail.tail.head
    rw [← append_assoc] at hmem
    rcases mem_append.mp hmem with hmem | hmem
    · exact absurd rfl (hother _ hmem)
    · exact h.settled hmem
  let pre : List Event := .verified s.tuple.epoch s.tuple.target digest ::
    .sent (.post s.tuple.epoch s.tuple.target digest) ::
    .replayed s.tuple.load s.tuple.target::(sends++ran)
  have hlog : .verified s.tuple.epoch s.tuple.target digest ::
      .sent (.post s.tuple.epoch s.tuple.target digest) ::
      .replayed s.tuple.load s.tuple.target::(sends++(ran++s.log))=pre++s.log := by
    simp [pre]
  have hq : ∀ e∈pre,GateQuiet e := by
    simp only [pre,forall_mem_cons]
    refine ⟨by simp [GateQuiet],by simp [GateQuiet],by simp [GateQuiet],?_⟩
    exact hr.forall_mem hs (fun _ _ => by simp [GateQuiet]) fun _ => by simp [GateQuiet]
  rw [hlog]
  have hsuf : s.log <:+ pre++s.log := suffix_append ..
  constructor
  · exact fun _ => hsettled
  · intro i g hi
    rcases ho i g hi with hold | hmem
    · exact hsuf.subset (h.own0 i g hold)
    · rw [← hlog]
      exact mem_cons_of_mem _ (mem_cons_of_mem _ (mem_cons_of_mem _ hmem))
  · exact fun hw => (by rw [hsettled] at hw; cases hw)
  · exact fun g hi => hsuf.subset (h.own g hi)
  · exact fun hw => (by rw [hsettled] at hw; cases hw)
  · exact fun hst hr => (h.agreed hst hr).mono hsuf
  · exact fun hw => (by rw [hsettled] at hw; cases hw)
  · exact fun _ => .inr hsettled
  · exact BootInv.admits_append h.admits hq

theorem BootInv.admitLive (h : BootInv C s)
    (hs : s.stage=.idle ∨ s.stage=.tipHold) (hr : s.refusal=none)
    (hb : s.sim=1 → s.stage=.idle → s.boot.settled) :
    BootInv C { s with pending := .live,log := .admitted s.sim::s.log } := by
  have hsettled : 0<s.sim → s.boot.settled := by
    intro hpos
    by_contra hn
    obtain ⟨hle,-,hhold⟩ := h.waiting (by simpa using hn)
    rcases hs with hs | hs
    · exact hn (hb (by omega) hs)
    · exact hhold hs
  have hsuf : s.log <:+ .admitted s.sim::s.log := suffix_cons ..
  obtain ⟨hown0,hpeer0,hown,hpeer⟩ := h.recorded hsuf
  refine ⟨fun hmem => h.settled (by simpa using hmem),hown0,hpeer0,hown,hpeer,
    fun hst hr => (h.agreed hst hr).mono hsuf,h.waiting,?_,?_⟩
  · intro _
    by_cases hz : s.sim=0
    · exact .inl hz
    · exact .inr (hsettled (by omega))
  · exact .cons (fun hpos => h.agreed (hsettled hpos) hr) h.admits

theorem BootInv.finishLive (h : BootInv C s) (digest : ℕ) (hp : s.pending=.live) :
    BootInv C { s with
      pending := .stall
      sim := s.sim+1
      log := .sent (.frameCommit s.sim digest)::s.log } := by
  have hsuf : s.log <:+ .sent (.frameCommit s.sim digest)::s.log := suffix_cons ..
  obtain ⟨hown0,hpeer0,hown,hpeer⟩ := h.recorded hsuf
  refine ⟨fun hmem => h.settled (by simpa using hmem),hown0,hpeer0,hown,hpeer,
    fun hst hr => (h.agreed hst hr).mono hsuf,?_,fun hlive => (by cases hlive),
    .cons trivial h.admits⟩
  · intro hw
    refine ⟨?_,(h.waiting hw).2⟩
    rcases h.pending hp with hz | hst
    · exact (by omega : s.sim+1≤1)
    · rw [hst] at hw
      cases hw

theorem BootInv.settle (h : BootInv C s) (refusal : Option Refusal)
    (refused : List Event) (hrefused : ∀ e∈refused,∃ code,e=.refused code)
    (hagreed : refusal=none → BootAgreed C s.log) : BootInv C { s with
      boot := { s.boot with settled := true }
      refusal
      log := refused++.bootSettled::s.log } := by
  have hsuf : s.log <:+ refused++.bootSettled::s.log := ⟨refused++[.bootSettled],by simp⟩
  obtain ⟨hown0,-,hown,-⟩ := h.recorded hsuf
  refine ⟨fun _ => rfl,hown0,fun hw => (by cases hw),hown,fun hw => (by cases hw),
    fun _ hr => (hagreed hr).mono hsuf,fun hw => (by cases hw),fun _ => .inr rfl,?_⟩
  · have hset : Trace.All (AdmitAgreed C) (.bootSettled::s.log) := .cons trivial h.admits
    refine hset.append fun e he past => ?_
    obtain ⟨code,rfl⟩ := hrefused e he
    trivial

theorem BootInv.step (hfork : C.knobs.allowBootFork=false)
    (h : BootInv C s) (hstep : Step C s s') (hfine : Trace.All (BootOrderly C) s'.log) :
    BootInv C s' := by
  have hsame : SameGate s s := ⟨rfl,rfl,rfl,rfl,rfl,rfl⟩
  cases hstep with
  | digests own0 peer0 hown hpeer =>
    refine { h with own0 := fun i g hi => ?_,peer0 := fun hw i g hi => ?_ }
    · rcases hown i g hi with hold | hsent
      · exact h.own0 i g hold
      · exact hsent
    · rcases hpeer i g hi with hold | hheard
      · exact h.peer0 hw i g hold
      · refine (hheard.frameCommit_received hfine).resolve_left fun hset => ?_
        have hsettled : s.boot.settled=true := h.settled hset
        rw [show s.boot.settled=false from hw] at hsettled
        cases hsettled
  | «open» t hs ht =>
    exact h.quiet hsame [.opened t.epoch t.load t.target] rfl (by simp [GateQuiet])
      fun _ => ⟨by simp,by simp⟩
  | clear | reopen | startReplay => exact h.quiet hsame [] rfl (by simp) fun _ => ⟨by simp,by simp⟩
  | verify ran sends own0 next digest hr hs ho => exact h.verify hr hs ho rfl hfine
  | commit m hs hp =>
    have hsettled : s.boot.settled := by
      by_contra hn
      exact (h.waiting (by simpa using hn)).2.1 hs
    have hcleared : BootInv C { s with own0 := fun _ => none,peer0 := fun _ => none } :=
      { h with own0 := fun _ _ hi => (by cases hi),peer0 := fun _ _ _ hi => (by cases hi) }
    exact hcleared.quiet ⟨rfl,rfl,rfl,rfl,rfl,rfl⟩
      [.sent (.resolved (max s.resolved s.core.target)),.sent (.sync m),
        .committed s.tuple.epoch s.tuple.target s.resolved (max s.resolved s.core.target)] rfl
      (by simp [GateQuiet]) fun hw => absurd hsettled (by simpa using hw)
  | admitLive hs hr hb => exact h.admitLive hs hr hb
  | admitReplay | endReplay | endResim =>
    exact { h with pending := fun hp => (by cases hp) }
  | finishLive digest hp =>
    have hlive:=h.finishLive digest hp
    unfold Outline.ageOut
    split
    · exact hlive.note ⟨rfl,rfl,rfl,rfl,rfl,rfl⟩ rfl ⟨by simp,by simp⟩ rfl
    · exact hlive
  | latchOwn digest hd =>
    obtain ⟨i,-,hi⟩ := hd
    exact { h with own := fun g hg => (Option.some.inj hg) ▸ h.own0 i digest hi }
  | latchPeers peer hd =>
    exact { h with peer := fun hw i g hi => (hd i g hi).elim (h.peer hw i g) (h.peer0 hw i g) }
  | agree digest hown hpeer =>
    refine h.settle s.refusal [] (by simp) fun hr => ?_
    cases hset : s.boot.settled with
    | true => exact h.agreed hset hr
    | false => exact ⟨digest,h.own digest hown,fun i hi => h.peer hset i digest (hpeer i hi)⟩
  | allowFork hf => rw [hfork] at hf; cases hf
  | settleRefused code =>
    refine h.settle _ _ (fun e he => ?_) fun hn => ?_
    · split at he
      · cases he
      · exact ⟨code,mem_singleton.mp he⟩
    · cases hr : s.refusal <;> rw [hr] at hn <;> cases hn
  | refuse code hr =>
    exact ⟨fun hmem => h.settled (by simpa using hmem),
      fun i g hi => mem_cons_of_mem _ (h.own0 i g hi),
      fun hw i g hi => mem_cons_of_mem _ (h.peer0 hw i g hi),
      fun g hi => mem_cons_of_mem _ (h.own g hi),
      fun hw i g hi => mem_cons_of_mem _ (h.peer hw i g hi),fun _ hr => (by cases hr),h.waiting,h.pending,
      .cons trivial h.admits⟩
  | _ =>
    first
    | exact h.quiet hsame [] rfl (by simp) fun hw => (h.waiting hw).2
    | exact h.note hsame rfl ⟨fun _ he => (by cases he),fun he => (by cases he)⟩ rfl

def NotRefused : Event → List Event → Prop
  | .admitted _,past => ∀ code,.refused code∉past
  | _,_ => True

structure RefusalInv (s : Outline) : Prop where
  stands : ∀ code,.refused code∈s.log → s.refusal≠none
  admits : Trace.All NotRefused s.log

def RefusalQuiet (e : Event) : Prop := (∀ t,e≠.admitted t) ∧ ∀ code,e≠.refused code

theorem RefusalInv.quiet (h : RefusalInv s) (hr : s'.refusal=s.refusal)
    (pre : List Event) (hlog : s'.log=pre++s.log) (hq : ∀ e∈pre,RefusalQuiet e) :
    RefusalInv s' := by
  refine ⟨fun code hmem => ?_,?_⟩
  · rw [hlog] at hmem
    rw [hr]
    rcases mem_append.mp hmem with hmem | hmem
    · exact absurd rfl ((hq _ hmem).2 code)
    · exact h.stands code hmem
  · rw [hlog]
    refine h.admits.append fun e he past => ?_
    cases e with
    | admitted t => exact absurd rfl ((hq _ he).1 t)
    | _ => trivial

theorem RefusalInv.note (h : RefusalInv s) (hr : s'.refusal=s.refusal)
    {e : Event} (hlog : s'.log=e::s.log) (hq : RefusalQuiet e) : RefusalInv s' :=
  h.quiet hr [e] hlog fun _ he => mem_singleton.mp he ▸ hq

theorem RefusalInv.step (h : RefusalInv s) (hstep : Step C s s') : RefusalInv s' := by
  cases hstep with
  | verify ran sends own0 next digest hr hs ho =>
    have hrest : ∀ e∈sends++ran,RefusalQuiet e :=
      hr.forall_mem hs (by simp [RefusalQuiet]) (by simp [RefusalQuiet])
    refine h.quiet rfl (.verified s.tuple.epoch s.tuple.target digest ::
      .sent (.post s.tuple.epoch s.tuple.target digest) ::
      .replayed s.tuple.load s.tuple.target::(sends++ran)) (by simp) ?_
    simp only [forall_mem_cons]
    exact ⟨by simp [RefusalQuiet],by simp [RefusalQuiet],by simp [RefusalQuiet],hrest⟩
  | commit m hs hp =>
    exact h.quiet rfl [.sent (.resolved (max s.resolved s.core.target)),.sent (.sync m),
      .committed s.tuple.epoch s.tuple.target s.resolved (max s.resolved s.core.target)] rfl
      (by simp [RefusalQuiet])
  | admitLive hs hr hb =>
    refine ⟨fun code hmem => h.stands code (by simpa using hmem),.cons (fun code hmem => ?_) h.admits⟩
    exact h.stands code hmem hr
  | finishLive digest hp =>
    have hlive : RefusalInv { s with
        pending := .stall
        sim := s.sim+1
        log := .sent (.frameCommit s.sim digest)::s.log } := h.note rfl rfl ⟨by simp,by simp⟩
    unfold Outline.ageOut
    split
    · exact hlive.note rfl rfl ⟨by simp,by simp⟩
    · exact hlive
  | settleRefused code =>
    refine ⟨fun c _ hn => ?_,?_⟩
    · cases hr : s.refusal <;> rw [hr] at hn <;> cases hn
    · have hset : Trace.All NotRefused (.bootSettled::s.log) := .cons trivial h.admits
      refine hset.append fun e he past => ?_
      split at he
      · cases he
      · rw [mem_singleton.mp he]
        trivial
  | refuse code hr => exact ⟨fun _ _ hn => (by cases hn),.cons trivial h.admits⟩
  | _ =>
    first
    | exact h.quiet rfl [] rfl (by simp)
    | exact h.note rfl rfl ⟨fun _ he => (by cases he),fun _ he => (by cases he)⟩

theorem reachable_refusalInv {d : Driver σ} (h : Reachable C d) : RefusalInv d.outline :=
  reachable_invariant (fun _ => ⟨by simp [Outline.init],trivial⟩)
    (fun hinv hstep _ => hinv.step hstep) h (Trace.All.of_forall (fun _ _ => trivial) d.log)

/-- **Boot gate.** -/
theorem boot_gate {d : Driver σ} (h : Reachable C d) (hfork : C.knobs.allowBootFork=false) :
    (Trace.All (BootOrderly C) d.log → ∀ later past t,
      d.log=later++.admitted t::past → 0<t → BootAgreed C past) ∧
    ∀ later past code,d.log=later++.refused code::past → ∀ t,.admitted t∉later := by
  refine ⟨fun hfine later past t hlog => ?_,fun later past code hlog t hmem => ?_⟩
  · have hinv : BootInv C d.outline :=
      reachable_invariant BootInv.init (fun hinv hstep hP => hinv.step hfork hstep hP) h hfine
    have hadmits : Trace.All (AdmitAgreed C) d.log := hinv.admits
    rw [hlog] at hadmits
    exact hadmits.at
  · have hadmits : Trace.All NotRefused d.log := (reachable_refusalInv h).admits
    obtain ⟨a,b,rfl⟩ := append_of_mem hmem
    rw [hlog,append_assoc] at hadmits
    exact hadmits.at code (by simp)

theorem boot_gate_duel : ∃ d,Reachable (duel 1 2) d ∧
    Trace.All (BootOrderly (duel 1 2)) d.log ∧ ∃ later past,
      d.log=later++.admitted 1::past ∧ BootAgreed (duel 1 2) past := by
  obtain ⟨d,hd,hfine,hmem⟩ : ∃ d,Reachable (duel 1 2) d ∧
      Trace.All (BootOrderly (duel 1 2)) d.log ∧ .admitted 1∈d.log :=
    reachable_play [] twoTicks (by decide +kernel)
  obtain ⟨later,past,hlog⟩ := append_of_mem hmem
  exact ⟨d,hd,hfine,later,past,hlog,(boot_gate hd rfl).1 hfine later past 1 hlog (by simp)⟩

def Event.isFrameCommitTaken : Event → Bool
  | .received ⟨_,.frameCommit _ _⟩ => true
  | _ => false

def ungatedDuel : List (Call (List ℕ)) :=
  [.poll (plainPoll 10 2 [] noRow),.finishFrame ⟨11,neutralTo 3⟩ [0],
    .poll (plainPoll 20 3 [⟨0,.sync ⟨8,1,1,1,0,.begin,false,false⟩⟩,
      ⟨0,.sealRows ⟨8,1,1,0,0,[⟨1,1,0,0,false,true,0,0,0⟩]⟩⟩,⟨0,.post 8 1 7⟩] noRow),
    .poll (plainPoll 30 3 [] noRow)]

theorem boot_gate_bypassed : 0∈expect (duel 1 2) ∧ (duel 1 2).knobs.allowBootFork=false ∧
    ∃ d,Reachable (duel 1 2) d ∧ .admitted 2∈d.log ∧ ∀ e∈d.log,e.isFrameCommitTaken=false := by
  exact ⟨by decide,rfl,reachable_play [] ungatedDuel (by decide +kernel)⟩

end RecompNet.RbDriver
