import RecompNet.Rollback.Admit

/-!
# The episode machine

What the run properties of the driver speak of, and every way it can change.
-/
namespace RecompNet.RbDriver
open List

structure Tuple where
  epoch : ℕ
  load : ℕ
  target : ℕ
  deriving DecidableEq

structure Outline where
  tuple : Tuple
  core : Tuple
  resolved : ℕ
  stage : Stage
  localPost : ℕ
  peerPost : ℕ → Option PeerPost
  earlyPost : ℕ → Option EarlyPost
  replayNext : ℕ
  pending : Admit
  boot : BootGate
  own0 : ℕ → Option ℕ
  peer0 : ℕ → Option ℕ
  refusal : Option Refusal
  sim : ℕ
  owed : TickRing histDepth ℕ
  log : List Event

def replayProgress : List Event → Option (ℕ × ℕ)
  | [] => none
  | .loaded load::_ => some (load,load)
  | .ran t::past =>
    match replayProgress past with
    | some (load,next) => if t=next then some (load,next + 1) else none
    | none => none
  | .restored _::_ => none
  | .admitted _::_ => none
  | _::past => replayProgress past

theorem replayProgress_sends {sends : List Event} (hs : ∀ e∈sends,∃ m,e=.sent m)
    (past : List Event) : replayProgress (sends++past)=replayProgress past := by
  induction sends with
  | nil => rfl
  | cons e sends ih =>
    obtain ⟨m,rfl⟩ := hs e (by simp)
    exact ih fun e he => hs e (mem_cons_of_mem _ he)

theorem replayProgress_rans {past : List Event} {load next : ℕ} (k : ℕ)
    (h : replayProgress past=some (load,next)) :
    replayProgress (((List.range' next k).map .ran).reverse++past)=some (load,next+k) := by
  induction k generalizing next past with
  | zero => simpa using h
  | succ k ih =>
    have hran : replayProgress (.ran next::past)=some (load,next+1) := by
      simp [replayProgress,h]
    have hrest:=ih hran
    rw [List.range'_succ,map_cons,reverse_cons,append_assoc]
    rw [show next+(k+1)=next+1+k by omega]
    exact hrest

def Outline.ageOut (s : Outline) : Outline :=
  if histDepth+1<s.sim ∧ s.owed.has (s.sim-histDepth-1) then
    { s with
      owed := s.owed.clear (s.sim-histDepth-1)
      log := .lost (s.sim-histDepth-1)::s.log }
  else s

variable {σ : Type} (C : Setup σ)
def Heard (i : ℕ) (m : RbMsg) (log : List Event) : Prop :=
  ∃ sender,fromBit C sender=some i ∧ .received ⟨sender,m⟩∈log

variable {C} in
theorem firstSeat_mem {i : ℕ} (h : firstSeat C=some i) : i∈expect C := by
  have := List.find?_some h
  simpa using this

variable {C} in
theorem fromBit_of_mem {sender i : ℕ} (hs : sender∈expect C) (h : fromBit C sender=some i) :
    sender=i := by
  unfold fromBit at h
  split at h
  · next hone =>
    obtain ⟨j,hj⟩ := Finset.card_eq_one.mp hone
    have hmem:=firstSeat_mem h
    rw [hj,Finset.mem_singleton] at hs hmem
    rw [hs,hmem]
  · exact Option.some.inj h

inductive ReplayEnds (s : Outline) : List Event → Prop
  | inline (hs : s.stage=.sealing)
      (hp : replayProgress s.log=some (s.tuple.load,max s.tuple.load (s.tuple.target+1))) :
      ReplayEnds s []
  | last (hs : s.stage=.replaying) (hn : s.tuple.target ≤ s.replayNext) :
      ReplayEnds s [.ran s.replayNext]

theorem ReplayEnds.forall_mem {s : Outline} {ran sends : List Event} {Q : Event → Prop}
    (hr : ReplayEnds s ran) (hs : ∀ e∈sends,∃ t g,e=.sent (.frameCommit t g))
    (hsent : ∀ t g,Q (.sent (.frameCommit t g))) (hran : ∀ t,Q (.ran t)) :
    ∀ e∈sends++ran,Q e := by
  intro e he
  rcases mem_append.mp he with he | he
  · obtain ⟨t,g,rfl⟩ := hs e he
    exact hsent t g
  · cases hr with
    | inline => cases he
    | last => exact mem_singleton.mp he ▸ hran _

theorem settleRefused_forall_mem {refusal : Option Refusal} {code : Refusal} {Q : Event → Prop}
    (hcode : Q (.refused code)) (hsettled : Q .bootSettled) :
    ∀ e∈(if refusal.isSome then [] else [.refused code])++[.bootSettled],Q e := by
  intro e he
  rcases mem_append.mp he with he | he
  · split at he
    · cases he
    · exact mem_singleton.mp he ▸ hcode
  · exact mem_singleton.mp he ▸ hsettled

inductive Step : Outline → Outline → Prop
  | say {s} (m : RbMsg) (hm : ∀ t,m≠.resolved t) : Step s { s with log := .sent m::s.log }
  | take {s} (p : RbPacket) (hp : sessionAccepts C p) : Step s { s with log := .received p::s.log }
  | posts {s : Outline} (peerPost : ℕ → Option PeerPost) (earlyPost : ℕ → Option EarlyPost)
      (hpeer : ∀ i p,peerPost i=some p → s.peerPost i=some p ∨
        s.earlyPost i=some ⟨s.tuple.epoch,p.target,p.digest⟩ ∨
        Heard C i (.post s.tuple.epoch p.target p.digest) s.log)
      (hearly : ∀ i e,earlyPost i=some e → s.earlyPost i=some e ∨
        Heard C i (.post e.epoch e.target e.digest) s.log) : Step s { s with peerPost,earlyPost }
  | digests {s : Outline} (own0 peer0 : ℕ → Option ℕ)
      (hown : ∀ i g,own0 i=some g → s.own0 i=some g ∨ .sent (.frameCommit 0 g)∈s.log)
      (hpeer : ∀ i g,peer0 i=some g → s.peer0 i=some g ∨ Heard C i (.frameCommit 0 g) s.log) :
      Step s { s with own0,peer0 }
  | resolve {s} (resolved : ℕ) : Step s { s with resolved }
  | clear {s} (tuple core : Tuple) :
      Step s { s with stage := .idle,peerPost := fun _ => none,tuple,core }
  | restore {s} (tick : ℕ) (hs : s.stage=.idle) : Step s { s with log := .restored tick::s.log }
  | open {s} (t : Tuple) (hs : s.stage=.idle) (ht : t.load≤t.target) : Step s { s with
        stage := .sealing,tuple := t,core := t,peerPost := fun _ => none
        log := .opened t.epoch t.load t.target::s.log }
  | reopen {s} (target : ℕ) (hs : s.stage=.tipHold ∨ s.stage=.verifying)
      (ht : s.tuple.target≤target) : Step s { s with
        stage := .sealing
        tuple := { s.tuple with target }
        core := { s.core with target := max s.core.target target }
        peerPost := fun _ => none
        localPost := 0 }
  | sealTaken {s} (target grown : ℕ)
      (hg : grown=s.core.target ∨ grown=max s.core.target target) : Step s { s with
        core := { s.core with target := grown }
        log := .sealTaken target s.tuple.target::s.log }
  | load {s} (hs : s.stage=.sealing) : Step s { s with log := .loaded s.tuple.load::s.log }
  | run {s} (tick : ℕ) (hs : s.stage=.sealing) : Step s { s with log := .ran tick::s.log }
  | startReplay {s} (hs : s.stage=.sealing)
      (hp : replayProgress s.log=some (s.tuple.load,s.tuple.load)) :
      Step s { s with stage := .replaying,replayNext := s.tuple.load }
  | stepReplay {s} (hs : s.stage=.replaying) (hn : s.replayNext<s.tuple.target) : Step s { s with
        replayNext := s.replayNext+1
        log := .ran s.replayNext::s.log }
  | verify {s : Outline} (ran sends : List Event) (own0 : ℕ → Option ℕ) (replayNext digest : ℕ)
      (hr : ReplayEnds s ran)
      (hs : ∀ e∈sends,∃ t g,e=.sent (.frameCommit t g))
      (ho : ∀ i g,own0 i=some g →
        s.own0 i=some g ∨ .sent (.frameCommit 0 g)∈sends++(ran++s.log)) : Step s { s with
        stage := .verifying,localPost := digest,replayNext,own0
        sim := s.tuple.target+1
        owed := Driver.owedClearSpan s.owed s.tuple.load s.tuple.target
        log := .verified s.tuple.epoch s.tuple.target digest ::
          .sent (.post s.tuple.epoch s.tuple.target digest) ::
          .replayed s.tuple.load s.tuple.target::(sends++(ran++s.log)) }
  | commit {s} (m : RbSync) (hs : s.stage=.verifying)
      (hp : ∀ i∈expect C,s.peerPost i=some ⟨s.tuple.target,s.localPost⟩) : Step s { s with
        stage := .tipHold
        resolved := max s.resolved s.core.target
        own0 := fun _ => none
        peer0 := fun _ => none
        log := .sent (.resolved (max s.resolved s.core.target))::.sent (.sync m) ::
          .committed s.tuple.epoch s.tuple.target s.resolved (max s.resolved s.core.target) ::
          s.log }
  | admitLive {s} (hs : s.stage=.idle ∨ s.stage=.tipHold) (hr : s.refusal=none)
      (hb : s.sim=1 → s.stage=.idle → s.boot.settled) :
      Step s { s with pending := .live,log := .admitted s.sim::s.log }
  | admitReplay {s} (hs : s.stage=.replaying) : Step s { s with pending := .replay }
  | endReplay {s} (hp : s.pending=.replay) : Step s { s with pending := .stall }
  | endResim {s} (hp : s.pending=.live) : Step s { s with pending := .stall }
  | finishLive {s} (digest : ℕ) (hp : s.pending=.live) : Step s (Outline.ageOut { s with
        pending := .stall
        sim := s.sim+1
        log := .sent (.frameCommit s.sim digest)::s.log })
  | latchOwn {s} (digest : ℕ) (h : ∃ i∈expect C,s.own0 i=some digest) :
      Step s { s with boot := { s.boot with own := some digest } }
  | latchPeers {s : Outline} (peer : ℕ → Option ℕ)
      (h : ∀ i g,peer i=some g → s.boot.peer i=some g ∨ s.peer0 i=some g) :
      Step s { s with boot := { s.boot with peer } }
  | agree {s} (digest : ℕ) (hown : s.boot.own=some digest)
      (hpeer : ∀ i∈expect C,s.boot.peer i=some digest) : Step s { s with
        boot := { s.boot with settled := true }
        log := .bootSettled::s.log }
  | allowFork {s} (h : C.knobs.allowBootFork) : Step s { s with
        boot := { s.boot with settled := true }
        log := .bootSettled::s.log }
  | settleRefused {s} (code : Refusal) : Step s { s with
        boot := { s.boot with settled := true }
        refusal := s.refusal.or (some code)
        log := (if s.refusal.isSome then [] else [.refused code])++.bootSettled::s.log }
  | refuse {s} (code : Refusal) (hr : s.refusal=none) :
      Step s { s with refusal := some code,log := .refused code::s.log }
  | mark {s} (t slot : ℕ) (ht : 1≤t) (hw : s.sim≤t+histDepth) :
      Step s { s with owed := s.owed.store t slot,log := .marked t slot::s.log }
  | lose {s} (t : ℕ) :
      Step s { s with owed := Driver.owedClearSpan s.owed t t,log := .lost t::s.log }

variable {C}
theorem Outline.ageOut_log (s : Outline) : s.log <:+ s.ageOut.log := by
  unfold Outline.ageOut
  split
  · exact suffix_cons ..
  · exact suffix_rfl

theorem Step.log_suffix {s s' : Outline} (h : Step C s s') : s.log <:+ s'.log := by
  cases h with
  | verify ran sends own0 next digest hr hs ho =>
    exact ⟨.verified s.tuple.epoch s.tuple.target digest ::
      .sent (.post s.tuple.epoch s.tuple.target digest) ::
      .replayed s.tuple.load s.tuple.target::(sends++ran),by simp⟩
  | commit m hs hp => exact ⟨[_,_,_],rfl⟩
  | finishLive digest hp =>
    exact List.IsSuffix.trans (suffix_cons (.sent (.frameCommit s.sim digest)) s.log)
      (Outline.ageOut_log { s with
        pending := .stall
        sim := s.sim+1
        log := .sent (.frameCommit s.sim digest)::s.log })
  | settleRefused code => exact ⟨(if s.refusal.isSome then [] else [.refused code])++[.bootSettled],
      by simp⟩
  | _ => first | exact suffix_rfl | exact suffix_cons ..

def Driver.outline (d : Driver σ) : Outline where
  tuple := ⟨d.corr.epochId,d.corr.loadTick,d.corr.targetTick⟩
  core := ⟨d.rb.corr.epochId,d.rb.sealBaseTick,d.rb.corr.targetTick⟩
  resolved := d.rb.resolvedThrough
  stage := d.stage
  localPost := d.localPostDigest
  peerPost := d.peerPost
  earlyPost := d.earlyPost
  replayNext := d.replayNext
  pending := d.pendingAdmit
  boot := d.boot
  own0 := fun i => (d.hc i).loc.get? 0
  peer0 := fun i => (d.hc i).peer.get? 0
  refusal := d.refusal
  sim := d.sim
  owed := d.owed
  log := d.log

def Outline.init (core : Tuple) : Outline where
  tuple := ⟨0,0,0⟩
  core := core
  resolved := 0
  stage := .idle
  localPost := 0
  peerPost := fun _ => none
  earlyPost := fun _ => none
  replayNext := 0
  pending := .stall
  boot := ⟨none,fun _ => none,false⟩
  own0 := fun _ => none
  peer0 := fun _ => none
  refusal := none
  sim := 0
  owed := TickRing.empty
  log := []

end RecompNet.RbDriver
