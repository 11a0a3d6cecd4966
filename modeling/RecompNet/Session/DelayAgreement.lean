import RecompNet.Lib.LossyNet
import RecompNet.Session.Effects
import RecompNet.Session.Room

/-!
# Agreement of delay-sync sessions on published rows

Any number of seats and observers run `DelaySync` sessions over a lossy, duplicating, reordering
network.
-/
namespace RecompNet.DelaySync
open Function List

/-- A match whose configured delays leave the neutral prefix inside the ring (the
lobby clamps them to 2..20). -/
structure DelayRoom (ι : Type) extends Room ι where
  delay_lt : ∀ i,(cfg i).inputDelay<historyLength

def nodeSpec (ι : Type) : NodeSpec ι Session Packet Event Call where
  inputs := callInputs
  act _ c s := callAct s c

namespace DelayRoom
variable {ι : Type} (room : DelayRoom ι)
def Init (w : Net ι Session Packet Event) : Prop :=
  w.sent=[] ∧ w.log=[] ∧ ∀ i,∃ s₀,sessionCreate (room.cfg i)=some s₀ ∧
    (w.node i=s₀ ∨ w.node i=sessionStartLan s₀)

/-- Everything any interleaving of calls and deliveries can reach. -/
def Reach [DecidableEq ι] (w : Net ι Session Packet Event) : Prop :=
  Net.Reach (nodeSpec ι) Net.anyCall room.Init w

end DelayRoom

abbrev Rows := ℕ → ℕ → Option Row
def floor (s : Session) : ℕ := if s.phase=.running then s.simTick else 0

structure LocalGood (created : ℕ → Option Row) (ring : InputRing) (low : ℕ) : Prop where
  copies : ring.Holds fun t smp => smp.tick=t ∧ created t=some smp.row
  kept : ∀ t r,created t=some r → (ringGet ring t).isSome ∨ t<low
  bound : ∀ t r,created t=some r → t<low+historyLength

structure Good {ι : Type} (room : DelayRoom ι) (k : Rows) (i : ι) (s : Session) : Prop where
  cfg : s.cfg=room.cfg i
  delay_lt : s.delay<historyLength
  pending_lt : ∀ p,s.delayPending=some p → p.value<historyLength
  ownRows : room.seat i < room.slotCount → LocalGood (k (room.seat i)) s.localRing (floor s)
  remoteRows : ∀ q,q < room.slotCount → q≠room.seat i →
    (s.remoteRings q).Holds fun t smp => k q t=some smp.row

def GoodBody (slotCount : ℕ) (k : Rows) : Body → Prop
  | .input localSlot _ _ frames _ =>
    localSlot<slotCount → ∀ f∈frames,k localSlot f.tick=some f.row
  | .delaySync newDelay _ => newDelay<historyLength
  | _ => True

def GoodEvent {ι : Type} (room : DelayRoom ι) (k : Rows) (i : ι) : Event → Prop
  | .published _ simTick resolved => ∀ q,q < room.slotCount → ∃ smp,resolved[q]? = some smp ∧
      ((room.cfg i).slotOccupied q → k q simTick=some smp.row) ∧
      ((room.cfg i).slotOccupied q=false → smp.row=⟨0,[]⟩)

structure Grows {ι : Type} (room : DelayRoom ι) (i : ι) (k k' : Rows) : Prop where
  keeps : ∀ q t r,k q t=some r → k' q t=some r
  others : ∀ q,q≠room.seat i → k' q=k q

def facts {ι : Type} (room : DelayRoom ι) : Net.Facts ι Session Packet Event Rows where
  grow := Grows room
  node := Good room
  msg k m := GoodBody room.slotCount k m.body
  log k l := ∀ p∈l,GoodEvent room k p.1 p.2

variable {ι : Type} {room : DelayRoom ι} {k k' : Rows} {i : ι} {s s' : Session}
theorem Grows.refl : Grows room i k k := ⟨fun _ _ _ h => h,fun _ _ => rfl⟩

theorem Grows.trans {k'' : Rows} (h : Grows room i k k') (h' : Grows room i k' k'') :
    Grows room i k k'' where
  keeps q t r hr := h'.keeps q t r (h.keeps q t r hr)
  others q hq := (h'.others q hq).trans (h.others q hq)

theorem GoodBody.grow {b : Body} {n : ℕ} (hg : Grows room i k k') (h : GoodBody n k b) :
    GoodBody n k' b := by
  cases b <;> simp only [GoodBody] at h ⊢
  case input localSlot epoch ackTick frames acks =>
    intro hs f hf
    exact hg.keeps _ _ _ (h hs f hf)
  case delaySync newDelay effectiveTick => exact h

theorem GoodEvent.grow {j : ι} {e : Event} (hg : Grows room i k k') (h : GoodEvent room k j e) :
    GoodEvent room k' j e := by
  cases e with
  | published epoch simTick resolved =>
    intro q hq
    obtain ⟨smp,hsmp,hocc,hempty⟩ := h q hq
    exact ⟨smp,hsmp,fun ho => hg.keeps q simTick _ (hocc ho),hempty⟩

theorem facts_stable : (facts room).Stable where
  node := by
    intro i j k k' s hji hg h
    refine ⟨h.cfg,h.delay_lt,h.pending_lt,?_,?_⟩
    · intro hs
      have hne : room.seat j≠room.seat i := fun e => hji (room.seat_unique i j
        (show room.seat i < room.slotCount from e ▸ hs) e)
      rw [hg.others _ hne]
      exact h.ownRows hs
    · intro q hq hne
      exact (h.remoteRows q hq hne).mono fun t smp ht => hg.keeps q t _ ht
  msg := fun hg h => GoodBody.grow hg h

structure SameRows (s s' : Session) : Prop where
  cfg : s'.cfg=s.cfg
  delay : s'.delay=s.delay
  delayPending : s'.delayPending=s.delayPending
  localRing : s'.localRing=s.localRing
  remoteRings : s'.remoteRings=s.remoteRings
  floor : floor s'=floor s

theorem floor_core (s : Session) : floor s=if s.core.running then s.core.simTick else 0 := by
  simp [floor,Session.core]

theorem SameRows.of_core {c : Core} (h : s'.core=c) (hcfg : c.cfg=s.cfg)
    (hdelay : c.delay=s.delay) (hpending : c.delayPending=s.delayPending)
    (hlocal : c.localRing=s.localRing) (hremote : c.remoteRings=s.remoteRings)
    (hrunning : c.running=s.core.running) (hsim : c.simTick=s.core.simTick) : SameRows s s' := by
  subst h
  exact ⟨hcfg,hdelay,hpending,hlocal,hremote,by rw [floor_core,floor_core,hrunning,hsim]⟩

theorem Good.congr (hg : Good room k i s) (h : SameRows s s') : Good room k i s' := by
  refine ⟨h.cfg.trans hg.cfg,h.delay ▸ hg.delay_lt,h.delayPending ▸ hg.pending_lt,?_,?_⟩
  · rw [h.localRing,h.floor]
    exact hg.ownRows
  · rw [h.remoteRings]
    exact hg.remoteRows

def Extends (room : DelayRoom ι) (k : Rows) (i : ι) (r : Session × List Packet) : Prop :=
  ∃ k',Grows room i k k' ∧ Good room k' i r.1 ∧ ∀ m∈r.2,GoodBody room.slotCount k' m.body

variable {out : List Packet}
theorem Extends.of_good (hg : Good room k i s)
    (hm : ∀ m∈out,GoodBody room.slotCount k m.body) : Extends room k i (s,out) :=
  ⟨k,Grows.refl,hg,hm⟩

theorem Extends.silent (hg : Good room k i s) : Extends room k i (s,[]) :=
  .of_good hg (by simp)

theorem Extends.seq {a b : Session × List Packet} (ha : Extends room k i a)
    (hb : ∀ k',Grows room i k k' → Good room k' i a.1 → Extends room k' i b) :
    Extends room k i (b.1,a.2++b.2) := by
  obtain ⟨k₁,hg₁,hs₁,hm₁⟩ := ha
  obtain ⟨k₂,hg₂,hs₂,hm₂⟩ := hb k₁ hg₁ hs₁
  refine ⟨k₂,hg₁.trans hg₂,hs₂,?_⟩
  intro m hm
  rcases mem_append.mp hm with h | h
  · exact (hm₁ m h).grow hg₂
  · exact hm₂ m h

theorem wireFrame_row (smp : InputSample) : (wireFrame smp).row=smp.row := by
  simp only [wireFrame,WireFrame.row,InputSample.row,PadBytes.take_copy]

theorem Good.seated (hg : Good room k i s) (ho : s.isObserver=false) :
    room.seat i < room.slotCount := by
  simp only [Session.isObserver,Config.isObserver,hg.cfg,room.same_slotCount,
    decide_eq_false_iff_not,not_le] at ho
  exact ho

theorem Extends.sendInputBundle (now : ℕ) (hg : Good room k i s) :
    Extends room k i (sendInputBundle now s) := by
  refine .of_good (hg.congr (.of_core (sendInputBundle_core now s) rfl rfl rfl rfl rfl rfl rfl)) ?_
  intro m hm
  obtain ⟨ho,lo,tip,ack,acks,fs,hfs,rfl⟩ := mem_sendInputBundle hm
  have hseat:=hg.seated ho
  have hwire : s.cfg.wireId=room.seat i := by rw [hg.cfg]; exact room.wire_seat i hseat
  intro _ f hf
  obtain ⟨t,smp,hget,rfl⟩ := mem_bundleFrames (hfs f hf)
  obtain ⟨htick,hrow⟩ := (hg.ownRows hseat).copies t smp hget
  rw [hwire,wireFrame_row,← hrow]
  exact congrArg (k (room.seat i)) htick

variable {created : ℕ → Option Row} {ring : InputRing} {low : ℕ}
theorem LocalGood.raise {low' : ℕ}
    (h : LocalGood created ring low) (hl : low≤low') : LocalGood created ring low' where
  copies := h.copies
  kept t r hr := (h.kept t r hr).imp id fun ht => lt_of_lt_of_le ht hl
  bound t r hr := by have := h.bound t r hr; omega

theorem LocalGood.create (h : LocalGood created ring low) (smp : InputSample) (hlow : low ≤ smp.tick)
    (hhigh : smp.tick<low+historyLength) (hmiss : ringGet ring smp.tick=none) :
    created smp.tick=none ∧
      LocalGood (update created smp.tick (some smp.row)) (ring.store smp.tick smp) low := by
  have hnew : created smp.tick=none := by
    cases hc : created smp.tick with
    | none => rfl
    | some r =>
      rcases h.kept _ r hc with hin | hpast
      · rw [hmiss] at hin; cases hin
      · omega
  refine ⟨hnew,?_,?_,?_⟩
  · intro t x hx
    rcases TickRing.get?_store_eq_some hx with ⟨rfl,rfl⟩ | hold
    · exact ⟨rfl,update_self ..⟩
    obtain ⟨htick,hrow⟩ := h.copies t x hold
    have hne : t≠smp.tick := by
      rintro rfl
      rw [hnew] at hrow
      cases hrow
    exact ⟨htick,by rw [update_of_ne hne,hrow]⟩
  · intro t r hr
    by_cases ht : t=smp.tick
    · subst ht
      exact Or.inl (by simp [ringGet])
    rw [update_of_ne ht] at hr
    have hb:=h.bound t r hr
    rcases h.kept t r hr with hin | hpast
    · by_cases hm : t%historyLength=smp.tick%historyLength
      · -- `t` shares the stored cell: it is a whole ring behind the stored tick.
        refine Or.inr ?_
        by_contra hge
        rcases Nat.lt_or_gt_of_ne ht with hlt | hgt
        · exact TickRing.mod_ne_of_lt_add hlt (by omega) hm.symm
        · exact TickRing.mod_ne_of_lt_add hgt (by omega) hm
      refine Or.inl ?_
      rw [ringGet,TickRing.get?_store_of_mod_ne _ _ hm]
      exact hin
    · exact Or.inr hpast
  · intro t r hr
    by_cases ht : t=smp.tick
    · subst ht
      exact hhigh
    · rw [update_of_ne ht] at hr
      exact h.bound t r hr

def Keeps (created created' : ℕ → Option Row) : Prop := ∀ t r,created t=some r → created' t=some r

theorem Keeps.update {t : ℕ} (r : Row) (h : created t=none) :
    Keeps created (update created t (some r)) := by
  intro t' r' hr'
  have hne : t'≠t := by
    rintro rfl
    rw [h] at hr'
    cases hr'
  rw [update_of_ne hne,hr']

theorem Grows.own (h : Keeps (k (room.seat i)) created) :
    Grows room i k (update k (room.seat i) created) where
  keeps q t r hr := by
    by_cases hq : q=room.seat i
    · subst hq
      rw [update_self]
      exact h t r hr
    · rw [update_of_ne hq]
      exact hr
  others q hq := update_of_ne hq ..

theorem Good.own (hg : Good room k i s) (hcfg : s'.cfg=s.cfg) (hdelay : s'.delay=s.delay)
    (hpend : s'.delayPending=s.delayPending) (hrem : s'.remoteRings=s.remoteRings)
    (hown : LocalGood created s'.localRing (floor s')) :
    Good room (update k (room.seat i) created) i s' := by
  refine ⟨hcfg.trans hg.cfg,hdelay ▸ hg.delay_lt,hpend ▸ hg.pending_lt,fun _ => ?_,?_⟩
  · rw [update_self]
    exact hown
  · intro q hq hne
    rw [hrem,update_of_ne hne]
    exact hg.remoteRows q hq hne

theorem LocalGood.seed (ts : List ℕ) (hts : ∀ t∈ts,t<historyLength) :
    ∀ {created : ℕ → Option Row} {ring : InputRing},LocalGood created ring 0 →
      ∃ created',Keeps created created' ∧ LocalGood created' (ts.foldl (fun ring t =>
          if (ringGet ring t).isSome then ring else ringStore ring (neutralSample t)) ring) 0 := by
  induction ts with
  | nil => intro created ring h; exact ⟨created,fun _ _ hr => hr,h⟩
  | cons t ts ih =>
    intro created ring h
    have hts' : ∀ t∈ts,t<historyLength := fun x hx => hts x (mem_cons_of_mem _ hx)
    rw [foldl_cons]
    split
    · exact ih hts' h
    next hmiss =>
    have ht:=hts t mem_cons_self
    obtain ⟨hnone,hnew⟩ := h.create (neutralSample t) (Nat.zero_le _)
      (by simpa [neutralSample] using ht) (by simpa [neutralSample] using hmiss)
    obtain ⟨created',hk,hc⟩ := ih hts' hnew
    exact ⟨created',fun t' r hr => hk t' r (Keeps.update _ hnone t' r hr),hc⟩

theorem Good.seedDelayPrefix (hg : Good room k i s) (hph : s.phase≠.running) (s' : Session)
    (hcfg : s'.cfg=s.cfg) (hdelay : s'.delay<historyLength)
    (hpend : s'.delayPending=s.delayPending) (hloc : s'.localRing=s.localRing)
    (hrem : s'.remoteRings=s.remoteRings) :
    ∃ k',Grows room i k k' ∧ Good room k' i (seedDelayPrefix s') := by
  have hg' : Good room k i { s with delay := s'.delay } :=
    { hg with delay_lt := hdelay }
  by_cases hseat : room.seat i < room.slotCount
  · have h0 : LocalGood (k (room.seat i)) s'.localRing 0 := by
      have h:=hg.ownRows hseat
      rwa [floor,if_neg hph,← hloc] at h
    obtain ⟨created,hkeep,hown⟩ := LocalGood.seed (range s'.delay)
      (fun t ht => lt_trans (mem_range.mp ht) hdelay) h0
    refine ⟨_,Grows.own hkeep,hg'.own hcfg rfl hpend hrem ?_⟩
    exact hown.raise (Nat.zero_le _)
  · exact ⟨k,.refl,hcfg.trans hg.cfg,hdelay,hpend ▸ hg.pending_lt,
      fun h => absurd h hseat,hrem ▸ hg.remoteRows⟩

theorem Extends.sampleLocalFuture (hg : Good room k i s) (hph : s.phase=.running)
    (ho : s.isObserver=false) (sampled : InputSample) : Extends room k i
      (sampleLocalFuture s (wireTickFromSim s.simTick s.delay) sampled,[]) := by
  unfold DelaySync.sampleLocalFuture
  split
  · exact .silent hg
  next hmiss =>
  have hseat:=hg.seated ho
  have hfloor : floor s=s.simTick := by rw [floor,if_pos hph]
  have hd:=hg.delay_lt
  have hmiss' : ringGet s.localRing (wireTickFromSim s.simTick s.delay)=none := by
    simpa using hmiss
  obtain ⟨hnone,hnew⟩ := (hg.ownRows hseat).create
    (futureSample (wireTickFromSim s.simTick s.delay) sampled)
    (by rw [hfloor]; exact Nat.le_add_right ..)
    (by rw [hfloor]; exact Nat.add_lt_add_left hd _) hmiss'
  have hgrow:=Grows.own (Keeps.update
    (futureSample (wireTickFromSim s.simTick s.delay) sampled).row hnone)
  exact ⟨_,hgrow,hg.own rfl rfl rfl rfl hnew,by simp⟩

theorem Good.storeRemoteFrame (hg : Good room k i s) {slot : ℕ} {f : WireFrame}
    (hf : slot < room.slotCount → k slot f.tick=some f.row) :
    Good room k i (storeRemoteFrame s slot f) := by
  unfold DelaySync.storeRemoteFrame
  split
  · exact hg
  next hslot =>
  split
  · exact hg
  split
  · exact hg
  have hlt : slot < room.slotCount := by
    rw [not_or,hg.cfg,room.same_slotCount,not_le] at hslot
    exact hslot.1
  refine { hg with remoteRows := ?_ }
  intro q hq hne
  by_cases hqs : q=slot
  · subst hqs
    simp only [update_self,ringStore,if_true]
    refine (hg.remoteRows q hq hne).store ?_
    rw [hf hlt]
    simp only [InputSample.row,WireFrame.row,PadBytes.take_copy]
  · simp only [update_of_ne hqs]
    exact hg.remoteRows q hq hne

variable {newDelay : ℕ}
theorem Good.onDelaySync (hg : Good room k i s) (hd : newDelay<historyLength)
    (effectiveTick : ℕ) : Good room k i (onDelaySync s newDelay effectiveTick) := by
  unfold DelaySync.onDelaySync
  split
  · exact ⟨hg.cfg,hd,by simp,hg.ownRows,hg.remoteRows⟩
  refine { hg with pending_lt := ?_ }
  intro p hp
  cases hp
  exact hd

theorem Good.setPhase (hg : Good room k i s) {ph : Phase} (hs : s.phase≠.running)
    (hph : ph≠.running) : Good room k i { s with phase := ph } :=
  hg.congr ⟨rfl,rfl,rfl,rfl,rfl,by simp [floor,hs,hph]⟩

variable {inp : List Packet} {rows : List (ℕ × ℕ)}
theorem Step.extends (h : Step inp s out rows s')
    (hg : Good room k i s) (hin : ∀ m∈inp,GoodBody room.slotCount k m.body) :
    Extends room k i (s',out) := by
  cases h with
  | calm hcore hout =>
    refine .of_good (hg.congr (.of_core hcore rfl rfl rfl rfl rfl rfl rfl)) fun m hm => ?_
    rcases hout m hm with rfl | rfl | rfl | ⟨p,hp,rfl⟩
    · trivial
    · trivial
    · trivial
    · exact hg.pending_lt p hp
  | bundle now => exact Extends.sendInputBundle now hg
  | confirm now wire =>
    rcases prepareWireConfirm_cases now s wire with ⟨hs,hout⟩ | ⟨_,_,-,hcore,hout⟩
    · rw [hs,hout]
      exact .silent hg
    refine .of_good (hg.congr (.of_core hcore rfl rfl rfl rfl rfl rfl rfl)) fun m hm => ?_
    rw [hout m hm]
    trivial
  | reconfirm =>
    refine .of_good (hg.congr ⟨rfl,rfl,rfl,rfl,rfl,rfl⟩) fun m hm => ?_
    rw [mem_singleton.mp hm]
    trivial
  | start tick hph hcore =>
    obtain ⟨k',hgrow,hgood⟩ := hg.seedDelayPrefix hph _ (congrArg Core.cfg hcore)
      (lt_of_eq_of_lt (congrArg Core.delay hcore) hg.delay_lt) (congrArg Core.delayPending hcore)
      (congrArg Core.localRing hcore) (congrArg Core.remoteRings hcore)
    exact ⟨k',hgrow,hgood,by simp⟩
  | sample sampled hrun ho => exact Extends.sampleLocalFuture hg hrun ho sampled
  | adopt m _ _ delay _ _ _ _ hhigh =>
    have hd : delay<historyLength := lt_of_le_of_lt hhigh (by decide)
    split
    · next hph =>
      obtain ⟨k',hgrow,hgood⟩ := hg.seedDelayPrefix hph { s with delay := delay } rfl hd rfl rfl rfl
      exact ⟨k',hgrow,hgood,by simp⟩
    · exact .silent { hg with delay_lt := hd }
  | store m slot _ frames _ f hm hbody hf =>
    have hrows:=hin m hm
    rw [hbody] at hrows
    exact .silent (hg.storeRemoteFrame fun hslot => hrows hslot f hf)
  | ack m slot ackTick _ acks =>
    obtain ⟨_,_,_,hcore⟩ := onInputAck_core s slot ackTick acks
    exact .silent (hg.congr (.of_core hcore rfl rfl rfl rfl rfl rfl rfl))
  | delaySync m newDelay effectiveTick hm hbody =>
    have hd:=hin m hm
    rw [hbody] at hd
    exact .silent (hg.onDelaySync hd effectiveTick)
  | peerConfirm m slot tick hash =>
    rcases onInputConfirm_core s slot tick hash with ⟨-,hs⟩ | ⟨-,hcore⟩
    · rw [hs]
      exact .silent hg
    · exact .silent (hg.congr (.of_core hcore rfl rfl rfl rfl rfl rfl rfl))

theorem Steps.extends (h : Steps inp s out rows s')
    (hg : Good room k i s) (hin : ∀ m∈inp,GoodBody room.slotCount k m.body) :
    Extends room k i (s',out) := by
  induction h with
  | refl => exact .silent hg
  | tail _ hstep ih =>
    exact ih.seq fun k' hgrow hs => hstep.extends hs fun m hm => (hin m hm).grow hgrow

theorem Extends.emitDelaySync (now effectiveTick : ℕ) (hg : Good room k i s)
    (hd : newDelay<historyLength) :
    Extends room k i (emitDelaySync now s newDelay effectiveTick) := by
  refine .of_good (hg.congr ⟨rfl,rfl,rfl,rfl,rfl,rfl⟩) ?_
  intro m hm
  rw [mem_singleton.mp hm]
  exact hd

theorem Good.advance (hg : Good room k i s) : Good room k i (advance s) := by
  have hup : Good room k i { s with simTick := s.simTick+1 } := by
    refine { hg with ownRows := fun hs => (hg.ownRows hs).raise ?_ }
    simp only [floor]
    split <;> omega
  unfold DelaySync.advance applyPendingDelay
  split
  · next p hp =>
    split
    · exact ⟨hup.cfg,hg.pending_lt p hp,by simp,hup.ownRows,hup.remoteRows⟩
    · exact hup
  · exact hup

theorem Extends.requestDelayChange (now newDelay : ℕ) (hg : Good room k i s) :
    Extends room k i (requestDelayChange now newDelay s) := by
  have hc : min (max newDelay 2) 20<historyLength := by simp only [historyLength]; omega
  have hset : ∀ e,Good room k i
      { s with delayPending := some ⟨min (max newDelay 2) 20,e⟩ } := by
    intro e
    refine { hg with pending_lt := ?_ }
    intro p hp
    cases hp
    exact hc
  unfold DelaySync.requestDelayChange
  dsimp only
  split
  · exact .silent hg
  split
  · exact .silent hg
  split
  · split
    · exact Extends.emitDelaySync now _ hg hc
    · exact Extends.emitDelaySync now _ (hset _) hc
  · exact Extends.emitDelaySync now _ (hset _) hc

variable {simTick : ℕ}
theorem admitSlot_good (hg : Good room k i s) {q : ℕ} {smp : InputSample}
    (hq : q < room.slotCount) (h : admitSlot s simTick q=some smp) :
    ((room.cfg i).slotOccupied q=true → k q simTick=some smp.row) ∧
      ((room.cfg i).slotOccupied q=false → smp.row=⟨0,[]⟩) := by
  unfold admitSlot at h
  rw [hg.cfg] at h
  split at h
  · next hloc =>
    subst hloc
    obtain ⟨x,hx,rfl⟩ := Option.map_eq_some_iff.mp h
    refine ⟨fun _ => ((hg.ownRows hq).copies simTick x hx).2,fun hempty => ?_⟩
    rw [room.seat_occupied i hq] at hempty
    cases hempty
  next hne =>
  split at h
  · next hempty =>
    cases h
    refine ⟨fun ho => ?_,fun _ => rfl⟩
    simp [ho] at hempty
  next hocc =>
  obtain ⟨x,hx,rfl⟩ := Option.map_eq_some_iff.mp h
  refine ⟨fun _ => hg.remoteRows q hq hne simTick x hx,fun hempty => ?_⟩
  simp [hempty] at hocc

theorem GoodEvent.of_resolved (hg : Good room k i s) {epoch : ℕ} {resolved : List InputSample}
    (h : (List.range s.cfg.slotCount).mapM (admitSlot s simTick)=some resolved) :
    GoodEvent room k i (.published epoch simTick resolved) := by
  intro q hq
  have hr : (range s.cfg.slotCount)[q]? = some q := by
    rw [hg.cfg,room.same_slotCount]
    exact getElem?_range hq
  obtain ⟨smp,hsmp,htry⟩ := mapM_getElem? h q hr
  exact ⟨smp,hsmp,admitSlot_good hg hq htry⟩

theorem callAct_tryAdmit_good (now simTick : ℕ) (sampled : InputSample) (hg : Good room k i s) :
    let r:=tryAdmit now simTick sampled s
    ∃ k',Grows room i k k' ∧ Good room k' i r.1 ∧ (∀ m∈r.2.1,GoodBody room.slotCount k' m.body) ∧
      ∀ e∈publishEvents s.inputEpoch simTick r.2.2,GoodEvent room k' i e := by
  dsimp only
  rcases tryAdmit_cases now simTick sampled s with ⟨reason,h,-⟩ | ⟨hopen,h⟩
  · rw [h]
    exact ⟨k,.refl,hg,by simp,by simp [publishEvents]⟩
  obtain ⟨hb,hrun,hsim⟩ := Quietly.admitPrelude [] now sampled hopen.1
  obtain rfl : simTick=s.simTick := hopen.2.2.2.1
  dsimp only at h
  rw [h]
  generalize admitSample now s (wireTickFromSim s.simTick s.delay) sampled=a at hb hrun hsim ⊢
  generalize refreshConfirmWindow now a.1 s.simTick (wireTickFromSim s.simTick s.delay)=b
    at hb hrun hsim ⊢
  have hc:=Quietly.admitRows [] now hrun
  rw [hsim] at hc
  -- the rows that are published are those of the session the seats are resolved in
  obtain ⟨k₁,hgrow₁,hgood₁,hm₁⟩ := Steps.extends hb hg (by simp)
  obtain ⟨k₂,hgrow₂,hgood₂,hm₂⟩ := Steps.extends hc hgood₁ (by simp)
  refine ⟨k₂,hgrow₁.trans hgrow₂,hgood₂,fun m hm => ?_,fun e he => ?_⟩
  · rcases mem_append.mp hm with hm | hm
    · exact (hm₁ m hm).grow hgrow₂
    · exact hm₂ m hm
  · cases htry : (admitRows now b.1 s.simTick).2.2 with
    | stall reason =>
      rw [htry] at he
      cases he
    | publish resolved =>
      rw [htry,publishEvents,mem_singleton] at he
      subst he
      exact (GoodEvent.of_resolved hgood₁ (admitRows_resolved htry)).grow hgrow₂

theorem freshSession_good : Good room (fun _ _ => none) i (freshSession (room.cfg i)) where
  cfg := rfl
  delay_lt := room.delay_lt i
  pending_lt := by simp [freshSession]
  ownRows _ := ⟨TickRing.Holds.empty _,by simp,by simp⟩
  remoteRows _ _ _ := TickRing.Holds.empty _

variable {w : Net ι Session Packet Event}
theorem init_described (h : room.Init w) : ∃ k,(facts room).Describe k w := by
  obtain ⟨hsent,hlog,hnode⟩ := h
  refine ⟨fun _ _ => none,fun i => ?_,by simp [hsent],by simp [facts,hlog]⟩
  obtain ⟨s₀,hs₀,h⟩ := hnode i
  obtain rfl := sessionCreate_eq_some hs₀
  rcases h with h | h
  · rw [h]
    exact freshSession_good
  · rw [h]
    exact freshSession_good.setPhase (by simp [freshSession]) (by simp)

theorem callAct_good (c : Call) (hg : Good room k i s)
    (hin : ∀ m∈callInputs c,GoodBody room.slotCount k m.body) :
    ∃ k',Grows room i k k' ∧ Good room k' i (callAct s c).1 ∧
      (∀ m∈(callAct s c).2.1,GoodBody room.slotCount k' m.body) ∧
      ∀ e∈(callAct s c).2.2,GoodEvent room k' i e := by
  have quiet : ∀ {a : Session × List Packet},Extends room k i a →
      ∃ k',Grows room i k k' ∧ Good room k' i a.1 ∧ (∀ m∈a.2,GoodBody room.slotCount k' m.body) ∧
        ∀ e∈([] : List Event),GoodEvent room k' i e :=
    fun h => h.imp fun _ hk => ⟨hk.1,hk.2.1,hk.2.2,by simp⟩
  cases c with
  | pump now linkUp pkts =>
    have hpump:=Steps.extends (steps_sessionPump now linkUp pkts s) hg hin
    dsimp only [callAct]
    generalize sessionPump now linkUp pkts s=a at hpump ⊢
    exact quiet hpump
  | tryAdmit now simTick sampled => exact callAct_tryAdmit_good now simTick sampled hg
  | advance => exact quiet (.silent hg.advance)
  | requestDelayChange now newDelay => exact quiet (Extends.requestDelayChange now newDelay hg)
  | setGate gate =>
    have hgate : SameRows s { s with gate := gate } := ⟨rfl,rfl,rfl,rfl,rfl,rfl⟩
    exact quiet (.silent (hg.congr hgate))

variable [DecidableEq ι]
theorem reach_described (hw : room.Reach w) : ∃ k,(facts room).Describe k w := by
  have hstable : (facts room).Stable := facts_stable
  refine Net.invariant hstable (fun _ h => init_described h) ?_ hw
  intro w i c k hk _ hin
  obtain ⟨k',hgrow,hnode,hmsg,hev⟩ := callAct_good c (hk.node i) hin
  refine ⟨k',hgrow,hnode,hmsg,?_⟩
  intro p hp
  rcases mem_append.mp hp with hold | hnew
  · exact (hk.log p hold).grow hgrow
  · obtain ⟨e,he,rfl⟩ := mem_map.mp hnew
    exact hev e he

/-- **Delay-sync agreement.** -/
theorem published_rows_agree {w : Net ι Session Packet Event} (hw : room.Reach w)
    {i j : ι} {epoch T : ℕ} {a b : List InputSample}
    (hi : (i,Event.published epoch T a)∈w.log)
    (hj : (j,Event.published epoch T b)∈w.log) :
    ∀ slot,slot < room.slotCount → ∃ x y,a[slot]? = some x ∧ b[slot]? = some y ∧
      x.size=y.size ∧ x.bytes.1.take x.size=y.bytes.1.take y.size := by
  intro slot hslot
  obtain ⟨k,hk⟩ := reach_described hw
  obtain ⟨x,hx,hxocc,hxempty⟩ := hk.log _ hi slot hslot
  obtain ⟨y,hy,hyocc,hyempty⟩ := hk.log _ hj slot hslot
  have hmask : (room.cfg i).slotOccupied slot=(room.cfg j).slotOccupied slot := by
    simp only [Config.slotOccupied,room.same_slotCount,room.same_mask]
  have hrow : x.row=y.row := by
    cases ho : (room.cfg i).slotOccupied slot with
    | true => exact Option.some.inj ((hxocc ho).symm.trans (hyocc (hmask ▸ ho)))
    | false => exact (hxempty ho).trans (hyempty (hmask ▸ ho)).symm
  exact ⟨x,y,hx,hy,congrArg Row.size hrow,congrArg Row.data hrow⟩

/-- **One table of inputs.** Whatever was lost, repeated or reordered, each row on the wire, in a
remote ring or handed to a host is the entry of one table for its seat and tick. -/
theorem one_input_table (hw : room.Reach w) : ∃ rows : Rows,
    (∀ m∈w.sent,∀ slot epoch ack frames acks,m.body=.input slot epoch ack frames acks →
      slot < room.slotCount → ∀ f∈frames,rows slot f.tick=some f.row) ∧
    (∀ i slot t smp,slot < room.slotCount → slot≠room.seat i →
      ringGet ((w.node i).remoteRings slot) t=some smp → rows slot t=some smp.row) ∧
    ∀ i epoch T resolved,(i,Event.published epoch T resolved)∈w.log →
      ∀ slot < room.slotCount,(room.cfg i).slotOccupied slot →
        ∃ smp,resolved[slot]? = some smp ∧ rows slot T=some smp.row := by
  obtain ⟨k,hk⟩ := reach_described hw
  refine ⟨k,?_,?_,?_⟩
  · intro m hm slot epoch ack frames acks hb
    have hbody : GoodBody room.slotCount k m.body := hk.msg m hm
    rw [hb] at hbody
    exact hbody
  · intro i slot t smp hslot hother
    exact (hk.node i).remoteRows slot hslot hother t smp
  · intro i epoch T resolved hi slot hslot hocc
    obtain ⟨smp,hsmp,hrow,-⟩ := hk.log _ hi slot hslot
    exact ⟨smp,hsmp,hrow hocc⟩

/-! A two-seat room in which both seats publish tick 0. -/
def pairRoom : DelayRoom Bool where
  toRoom := Room.pair
  delay_lt i := by cases i <;> decide

def pairStart : Net Bool Session Packet Event where
  node i := sessionStartLan (freshSession (pairCfg i))
  sent := []
  log := []

def pairPump (w : Net Bool Session Packet Event) (i : Bool) (now : ℕ) :
    Net Bool Session Packet Event := Net.next (nodeSpec Bool) w i (.pump now false w.sent)
def pairAdmit (w : Net Bool Session Packet Event) (i : Bool) (now : ℕ) :
    Net Bool Session Packet Event := Net.next (nodeSpec Bool) w i (.tryAdmit now 0 default)

def pairRun : Net Bool Session Packet Event :=
  let w:=pairPump (pairPump (pairPump pairStart false 100) true 100) false 110
  let w:=pairPump (pairPump w true 120) false 130
  let w:=pairAdmit (pairAdmit w false 140) true 140
  let w:=pairPump (pairPump w false 150) true 150
  pairAdmit (pairAdmit w false 160) true 160

variable {w : Net Bool Session Packet Event}
theorem pairPump_reach (h : pairRoom.Reach w) (i : Bool)
    (now : ℕ) : pairRoom.Reach (pairPump w i now) := .call i _ h (fun _ hm => hm) trivial

theorem pairAdmit_reach (h : pairRoom.Reach w) (i : Bool)
    (now : ℕ) : pairRoom.Reach (pairAdmit w i now) := .call i _ h (fun _ hm => by cases hm) trivial

theorem pairRun_reach : pairRoom.Reach pairRun := by
  have h₀ : pairRoom.Reach pairStart :=
    .start ⟨rfl,rfl,fun i => ⟨freshSession (pairCfg i),by cases i <;> rfl,.inr rfl⟩⟩
  have h₁:=pairPump_reach (pairPump_reach (pairPump_reach h₀ false 100) true 100) false 110
  have h₂:=pairPump_reach (pairPump_reach h₁ true 120) false 130
  have h₃:=pairAdmit_reach (pairAdmit_reach h₂ false 140) true 140
  have h₄:=pairPump_reach (pairPump_reach h₃ false 150) true 150
  exact pairAdmit_reach (pairAdmit_reach h₄ false 160) true 160

theorem pairRun_published (i : Bool) :
    (i,Event.published 0 0 [neutralSample 0,neutralSample 0])∈pairRun.log := by
  cases i <;> decide +kernel

theorem published_rows_agree_pair :
    pairRoom.Reach pairRun ∧ ∀ slot,slot<2 → ∃ x y : InputSample,
      [neutralSample 0,neutralSample 0][slot]? = some x ∧
      [neutralSample 0,neutralSample 0][slot]? = some y ∧
      x.size=y.size ∧ x.bytes.1.take x.size=y.bytes.1.take y.size :=
  ⟨pairRun_reach,published_rows_agree pairRun_reach (pairRun_published false)
    (pairRun_published true)⟩

theorem one_input_table_pair :
    (∀ i,∃ resolved,(i,Event.published 0 0 resolved)∈pairRun.log) ∧
    ∃ rows : Rows,∀ i epoch T resolved,(i,Event.published epoch T resolved)∈pairRun.log →
      ∀ slot<2,∃ smp,resolved[slot]? = some smp ∧ rows slot T=some smp.row := by
  have hocc : ∀ i,∀ slot<2,(pairRoom.cfg i).slotOccupied slot=true := by decide
  obtain ⟨rows,-,-,hpub⟩ := one_input_table pairRun_reach
  exact ⟨fun i => ⟨_,pairRun_published i⟩,rows,fun i epoch T resolved hi slot hslot =>
    hpub i epoch T resolved hi slot hslot (hocc i slot hslot)⟩

end RecompNet.DelaySync
