import RecompNet.Lib.KeyedQueue
import RecompNet.Session.Whole

/-!
# The queues of rollback control over whole runs

The SYNC, SEAL_ROWS, BASELINE and POST queues of a session as coalescing bounded queues.
-/
namespace RecompNet.Whole.Session
open List
open Proto (DecodedPacket PktType RbWireFrame)
open BoundedQueue

/-- `RNET_RB_EPOCH_SLOT_MASK`. -/
def epochSlotMask : UInt32 := 7

/-- A later episode of the same initiator. -/
def LaterEpisode (e pkt : DecodedPacket) : Prop := epochBefore e.rbEpochId pkt.rbEpochId=true ∧
    e.rbEpochId &&& epochSlotMask=pkt.rbEpochId &&& epochSlotMask

instance (e pkt : DecodedPacket) : Decidable (LaterEpisode e pkt) := instDecidableAnd

namespace RbKind
def type : RbKind → PktType
  | .fc => .rbFrameCommit
  | .sync => .rbSync
  | .sealRows => .rbSealRows
  | .baseline => .rbBaseline
  | .post => .rbPost
  | .resolved => .rbResolved

variable (kind : RbKind)

/-- The queues of episode control. -/
def Episodic : Prop := kind≠.fc ∧ kind≠.resolved

variable (pkt : DecodedPacket)
def key : UInt8 × UInt32 × List ℕ := (pkt.localSlot,pkt.rbEpochId,match kind with
    | .sync => [pkt.rbMismatchTick.toNat,pkt.rbLoadTick.toNat,pkt.rbTargetTick.toNat,
        pkt.rbCorrectedSlot.toNat,pkt.rbInitiator.toNat,pkt.rbFlags.toNat]
    | .sealRows => [pkt.rbMismatchTick.toNat,pkt.rbTargetTick.toNat,pkt.rbSlot.toNat,
        pkt.rbRowBegin.toNat,pkt.rbRows.length]
    | .baseline => [pkt.rbLoadTick.toNat]
    | .post => [pkt.rbTargetTick.toNat]
    | _ => [])

def body : List RbWireFrame × List ℕ :=
  match kind with
  | .sealRows => (pkt.rbRows,[])
  | .baseline => ([],[pkt.rbDigestMaster.toNat,pkt.rbDigestA.toNat,pkt.rbDigestB.toNat,
      pkt.rbDigestC.toNat])
  | .post => ([],[pkt.rbDigestMaster.toNat,pkt.rbInputDigest.toNat,pkt.rbMatch.toNat])
  | _ => ([],[])

end RbKind

section Keys
variable {pkt e : DecodedPacket}
theorem sameSync_iff : sameSync pkt e ↔ RbKind.sync.key e=RbKind.sync.key pkt := by
  simp [sameSync,RbKind.key,UInt32.toNat_inj,UInt8.toNat_inj]

theorem sameSealRows_iff :
    sameSealRows pkt e ↔ RbKind.sealRows.key e=RbKind.sealRows.key pkt := by
  simp [sameSealRows,RbKind.key,UInt32.toNat_inj,UInt8.toNat_inj]

theorem sameBaseline_iff :
    sameBaseline pkt e ↔ RbKind.baseline.key e=RbKind.baseline.key pkt := by
  simp [sameBaseline,RbKind.key,UInt32.toNat_inj]

theorem samePost_iff : samePost pkt e ↔ RbKind.post.key e=RbKind.post.key pkt := by
  simp [samePost,RbKind.key,UInt32.toNat_inj]

theorem laterEpisode_congr (kind : RbKind) (e e' m : DecodedPacket)
    (h : kind.key e=kind.key e') (hm : LaterEpisode e m) : LaterEpisode e' m := by
  have hepoch : e.rbEpochId=e'.rbEpochId := congrArg (fun k => k.2.1) h
  unfold LaterEpisode
  rwa [← hepoch]

end Keys

/-- A control packet is received, or an entry is taken. -/
inductive Ev
  | control (pkt : DecodedPacket)
  | take (kind : RbKind)

variable (s : Session)
def react : Ev → Session
  | .control pkt => s.onControl pkt
  | .take kind => (s.takeRb kind).1

def reactAll (evs : List Ev) : Session := evs.foldl react s

def taken (kind : RbKind) : Session → List Ev → List DecodedPacket
  | _,[] => []
  | s,.control pkt::evs => taken kind (s.react (.control pkt)) evs
  | s,.take k::evs =>
    (if k=kind then (s.takeRb k).2.toList else [])++taken kind (s.react (.take k)) evs

/-- The packet is another seat's and meant for this queue. -/
def Concerns (kind : RbKind) (pkt : DecodedPacket) : Prop :=
  pkt.type=kind.type ∧ pkt.localSlot.toNat≠s.wireSlot ∧ ¬(pkt.type=.rbSync ∧
    (pkt.rbInitiator.toNat=Profiles.profileOffer ∨ pkt.rbInitiator.toNat=Profiles.profileAck))

instance (kind : RbKind) (pkt : DecodedPacket) : Decidable (s.Concerns kind pkt) :=
  instDecidableAnd

/-- `rb_peer_slot` lets the packet through, rows that wait under its key are its own, and an entry
that has to make room for it is of an earlier episode of the same initiator. -/
structure Orderly (kind : RbKind) (pkt : DecodedPacket) : Prop where
  heard : kind≠.sealRows → s.foreign pkt=false
  rows : kind=.sealRows → ∀ e∈queue s.rb kind,kind.key e=kind.key pkt → e.rbRows=pkt.rbRows
  room : ∀ e,(queue s.rb kind).head? = some e → (queue s.rb kind).length=ctrlQueue →
    epochBefore e.rbEpochId pkt.rbEpochId → LaterEpisode e pkt

def opsOf (kind : RbKind) : List Ev → List (Op DecodedPacket)
  | [] => []
  | .control pkt::evs =>
    if s.Concerns kind pkt then .arrive pkt::opsOf kind evs else opsOf kind evs
  | .take k::evs => if k=kind then .take::opsOf kind evs else opsOf kind evs

section Steps
variable {s : Session} {kind : RbKind} {pkt : DecodedPacket} {rb : RbQueues}
theorem queue_receive_other (h : pkt.type≠kind.type) (skip : Bool) :
    queue (rb.receive skip pkt) kind=queue rb kind := by
  have hne (k : RbKind) (hk : pkt.type=k.type) (q : List DecodedPacket) :
      queue (setQueue rb k q) kind=queue rb kind := by
    cases k <;> cases kind <;> first | rfl | exact absurd hk h
  unfold RbQueues.receive
  split
  · next ht => exact hne .fc ht _
  · next ht => split_ifs <;> first | rfl | exact hne .sync ht _
  · next ht => split_ifs <;> first | rfl | exact hne .sealRows ht _
  · next ht => split_ifs <;> first | rfl | exact hne .baseline ht _
  · next ht => split_ifs <;> first | rfl | exact hne .post ht _
  · next ht => exact hne .resolved ht _
  · rfl

variable {q : List DecodedPacket}
theorem arrives_coalesce {same : DecodedPacket → DecodedPacket → Bool}
    (hsame : ∀ e,same pkt e ↔ kind.key e=kind.key pkt) (hlen : q.length ≤ ctrlQueue)
    (hold : ∀ e,q.head? = some e → q.length=ctrlQueue →
      epochBefore e.rbEpochId pkt.rbEpochId → LaterEpisode e pkt) :
    Arrives ctrlQueue kind.key kind.body LaterEpisode pkt q (coalesce same pkt q) := by
  unfold coalesce
  cases hm : merge (same pkt) (fun _ => pkt) q with
  | none =>
    refine arrives_shed (fun e he hkey => ?_) hlen hold
    have hno:=merge_eq_none hm e he
    rw [(hsame e).mpr hkey] at hno
    cases hno
  | some q' => exact arrives_merge hsame hm

theorem arrives_known {e : DecodedPacket} (he : e∈q)
    (hkey : kind.key e=kind.key pkt) (hbody : kind.body e=kind.body pkt) :
    Arrives ctrlQueue kind.key kind.body LaterEpisode pkt q q := by
  obtain ⟨front,back,rfl⟩ := append_of_mem he
  exact .merged front back e e hkey hkey hbody

theorem arrives_receive (hkind : kind.Episodic) (htype : pkt.type=kind.type)
    (ho : s.Orderly kind pkt) (hlen : (queue s.rb kind).length ≤ ctrlQueue) :
    Arrives ctrlQueue kind.key kind.body LaterEpisode pkt (queue s.rb kind)
      (queue (s.rb.receive (s.foreign pkt) pkt) kind) := by
  unfold RbQueues.receive
  cases kind with
  | fc => exact absurd rfl hkind.1
  | resolved => exact absurd rfl hkind.2
  | sync =>
    rw [show pkt.type=.rbSync from htype,ho.heard (by decide)]
    dsimp only
    rw [if_neg (by decide)]
    split
    · next hany =>
      obtain ⟨e,he,hsame⟩ := any_eq_true.mp hany
      exact arrives_known he (sameSync_iff.mp hsame) rfl
    next hany =>
    exact arrives_offer fun e he hkey =>
      hany (any_eq_true.mpr ⟨e,he,sameSync_iff.mpr hkey⟩)
  | sealRows =>
    rw [show pkt.type=.rbSealRows from htype]
    dsimp only
    split
    · next hany =>
      obtain ⟨e,he,hsame⟩ := any_eq_true.mp hany
      have hkey:=sameSealRows_iff.mp hsame
      exact arrives_known he hkey (congrArg (·,[]) (ho.rows rfl e he hkey))
    next hany =>
    refine arrives_shed (fun e he hkey => ?_) hlen ho.room
    exact hany (any_eq_true.mpr ⟨e,he,sameSealRows_iff.mpr hkey⟩)
  | baseline =>
    rw [show pkt.type=.rbBaseline from htype,ho.heard (by decide)]
    exact arrives_coalesce (fun e => sameBaseline_iff) hlen ho.room
  | post =>
    rw [show pkt.type=.rbPost from htype,ho.heard (by decide)]
    exact arrives_coalesce (fun e => samePost_iff) hlen ho.room

theorem onControl_concerned (h : s.Concerns kind pkt) :
    (s.onControl pkt).rb=s.rb.receive (s.foreign pkt) pkt := by
  obtain ⟨htype,hseat,hprofile⟩ := h
  unfold onControl
  dsimp only
  rw [if_neg hprofile,if_neg hseat]
  cases kind <;> rw [htype] <;> rfl

theorem onControl_other (h : ¬s.Concerns kind pkt) :
    queue (s.onControl pkt).rb kind=queue s.rb kind := by
  unfold onControl
  dsimp only
  split
  · rfl
  next hprofile =>
  split
  · rfl
  next hseat =>
  have htype : pkt.type≠kind.type := fun ht => h ⟨ht,hseat,hprofile⟩
  split
  · rfl
  · rfl
  · split <;> rfl
  · exact queue_receive_other htype _

theorem react_cfg (s : Session) (ev : Ev) : (s.react ev).cfg=s.cfg := by
  cases ev with
  | control pkt =>
    show (s.onControl pkt).cfg=s.cfg
    unfold onControl
    dsimp only
    split_ifs <;> first | rfl | (split <;> rfl)
  | take kind =>
    show (s.takeRb kind).1.cfg=s.cfg
    unfold takeRb
    split <;> rfl

variable {s' : Session}
theorem concerns_congr (h : s'.cfg=s.cfg) : s'.Concerns kind pkt ↔ s.Concerns kind pkt := by
  unfold Concerns wireSlot
  rw [show s'.input.cfg=s.input.cfg from h]

theorem opsOf_congr (h : s'.cfg=s.cfg) (kind : RbKind) (evs : List Ev) :
    s'.opsOf kind evs=s.opsOf kind evs := by
  induction evs with
  | nil => rfl
  | cons ev evs ih =>
    cases ev with
    | control pkt => simp only [opsOf,concerns_congr h,ih]
    | take k => simp only [opsOf,ih]

theorem takeRb_queue (k : RbKind) : queue (s.takeRb k).1.rb kind =
    if k=kind then (queue s.rb kind).tail else queue s.rb kind := by
  unfold takeRb
  by_cases hk : k=kind
  · subst hk
    rw [if_pos rfl]
    cases hq : queue s.rb k with
    | nil => exact hq
    | cons entry rest => cases k <;> rfl
  rw [if_neg hk]
  cases hq : queue s.rb k with
  | nil => rfl
  | cons entry rest => cases k <;> cases kind <;> first | rfl | exact absurd rfl hk

theorem takeRb_result (k : RbKind) : (s.takeRb k).2=(queue s.rb k).head? := by
  unfold takeRb
  split
  · next hq => rw [hq]; rfl
  · next hq => rw [hq]; rfl

/-- Every packet of the run that concerns the queue is orderly when it comes. -/
def AllOrderly (kind : RbKind) : Session → List Ev → Prop
  | _,[] => True
  | s,ev::evs => (∀ pkt,ev=.control pkt → s.Concerns kind pkt → s.Orderly kind pkt) ∧
    AllOrderly kind (s.react ev) evs

instance (s : Session) (kind : RbKind) (pkt : DecodedPacket) : Decidable (s.Orderly kind pkt) :=
  decidable_of_iff ((kind≠.sealRows → s.foreign pkt=false) ∧
    (kind=.sealRows → ∀ e∈queue s.rb kind,kind.key e=kind.key pkt → e.rbRows=pkt.rbRows) ∧
    ∀ e∈(queue s.rb kind).head?,(queue s.rb kind).length=ctrlQueue →
      epochBefore e.rbEpochId pkt.rbEpochId → LaterEpisode e pkt)
    ⟨fun h => ⟨h.1,h.2.1,h.2.2⟩,fun h => ⟨h.heard,h.rows,h.room⟩⟩

instance AllOrderly.decide (kind : RbKind) : ∀ (s : Session) (evs : List Ev),
    Decidable (AllOrderly kind s evs)
  | _,[] => isTrue trivial
  | s,.control pkt::evs =>
    have := AllOrderly.decide kind (s.react (.control pkt)) evs
    decidable_of_iff ((s.Concerns kind pkt → s.Orderly kind pkt) ∧
      AllOrderly kind (s.react (.control pkt)) evs)
      ⟨fun h => ⟨fun _ he hc => by cases he; exact h.1 hc,h.2⟩,fun h => ⟨h.1 pkt rfl,h.2⟩⟩
  | s,.take k::evs =>
    have := AllOrderly.decide kind (s.react (.take k)) evs
    decidable_of_iff (AllOrderly kind (s.react (.take k)) evs)
      ⟨fun h => ⟨fun _ he => (nomatch he),h⟩,fun h => h.2⟩

variable {evs : List Ev}
theorem run_queue (hkind : kind.Episodic) (hall : AllOrderly kind s evs)
    (hgood : Good ctrlQueue kind.key (queue s.rb kind)) :
    Run ctrlQueue kind.key kind.body LaterEpisode (queue s.rb kind) (s.opsOf kind evs)
      (taken kind s evs) (queue (s.reactAll evs).rb kind) := by
  induction evs generalizing s with
  | nil => exact .nil _
  | cons ev evs ih =>
    obtain ⟨horderly,hall⟩ := hall
    cases ev with
    | control pkt =>
      have hrest:=ih hall
      rw [opsOf_congr (react_cfg s _)] at hrest
      rw [opsOf]
      split
      · next hc =>
        have harrives:=arrives_receive hkind hc.1 (horderly pkt rfl hc) hgood.1
        rw [← onControl_concerned hc] at harrives
        exact .arrive harrives (hrest (harrives.good hgood))
      next hc =>
      have hsame : queue (s.react (.control pkt)).rb kind=queue s.rb kind := onControl_other hc
      rw [hsame] at hrest
      exact hrest hgood
    | take k =>
      have hrest:=ih hall
      have hqueue : queue (s.react (.take k)).rb kind =
          if k=kind then (queue s.rb kind).tail else queue s.rb kind := takeRb_queue k
      rw [opsOf_congr (react_cfg s _),hqueue] at hrest
      rw [opsOf,taken,takeRb_result]
      by_cases hk : k=kind
      · subst hk
        rw [if_pos rfl] at hrest
        rw [if_pos rfl,if_pos rfl]
        exact .take (hrest hgood.tail)
      rw [if_neg hk] at hrest
      rw [if_neg hk,if_neg hk]
      exact hrest hgood

/-- The packet `m` arrives at a full queue whose head waits under the key of `e`, of an earlier
episode of the same initiator. -/
def Sheds (s : Session) (kind : RbKind) (e m : DecodedPacket) : Prop :=
  LaterEpisode e m ∧ (queue s.rb kind).length=ctrlQueue ∧
    ∃ head,(queue s.rb kind).head? = some head ∧ kind.key head=kind.key e

variable {y : DecodedPacket}
theorem accounts (hkind : kind.Episodic) (hall : AllOrderly kind s evs)
    (hgood : Good ctrlQueue kind.key (queue s.rb kind)) (hy : y∈queue s.rb kind) :
    (∃ m,(m=y ∨ .control m∈evs ∧ s.Concerns kind m) ∧ kind.key m=kind.key y ∧
      ∃ e∈taken kind s evs++queue (s.reactAll evs).rb kind,
        kind.key e=kind.key m ∧ kind.body e=kind.body m) ∨
    ∃ mid m rest,evs=mid++.control m::rest ∧ s.Concerns kind m ∧
      (s.reactAll mid).Sheds kind y m := by
  induction evs generalizing s y with
  | nil => exact .inl ⟨y,.inl rfl,rfl,y,hy,rfl,rfl⟩
  | cons ev evs ih =>
    obtain ⟨horderly,hall⟩ := hall
    have hconcerns {m : DecodedPacket} : (s.react ev).Concerns kind m ↔ s.Concerns kind m :=
      concerns_congr (react_cfg s ev)
    -- what the rest of the run does with an entry `z` of the same key
    have hrest (hgood : Good ctrlQueue kind.key (queue (s.react ev).rb kind)) {z : DecodedPacket}
        (hz : z∈queue (s.react ev).rb kind) (hkey : kind.key z=kind.key y) :
        (∃ m,(m=z ∨ .control m∈ev::evs ∧ s.Concerns kind m) ∧ kind.key m=kind.key y ∧
          ∃ e∈taken kind (s.react ev) evs++queue (s.reactAll (ev::evs)).rb kind,
            kind.key e=kind.key m ∧ kind.body e=kind.body m) ∨
        ∃ mid m rest,ev::evs=mid++.control m::rest ∧ s.Concerns kind m ∧
          (s.reactAll mid).Sheds kind y m := by
      rcases ih hall hgood hz with ⟨m,hm,hkm,he⟩ | ⟨mid,m,rest,rfl,hc,hlater,hfull,head,hh,hk⟩
      · exact .inl ⟨m,hm.imp id fun h => ⟨mem_cons_of_mem ev h.1,hconcerns.mp h.2⟩,
          hkm.trans hkey,he⟩
      · exact .inr ⟨ev::mid,m,rest,rfl,hconcerns.mp hc,laterEpisode_congr kind z y m hkey hlater,
          hfull,head,hh,hk.trans hkey⟩
    cases ev with
    | control pkt =>
      by_cases hc : s.Concerns kind pkt
      · have harrives:=arrives_receive hkind hc.1 (horderly pkt rfl hc) hgood.1
        rw [← onControl_concerned hc] at harrives
        have hgood':=harrives.good hgood
        rcases harrives.entry hy with hstay | ⟨hkey,e,he,hke,hbe⟩ | ⟨hlater,hfull,hhead⟩
        · exact hrest hgood' hstay rfl
        · refine (hrest hgood' he (hke.trans hkey.symm)).imp (fun hm => ?_) id
          obtain ⟨m,rfl | hm,hkm,hend⟩ := hm
          · obtain ⟨e',he',hke',hbe'⟩ := hend
            exact ⟨pkt,.inr ⟨mem_cons_self,hc⟩,hkey.symm,e',he',hke'.trans hke,hbe'.trans hbe⟩
          · exact ⟨m,.inr hm,hkm,hend⟩
        · exact .inr ⟨[],pkt,evs,rfl,hc,hlater,le_antisymm hgood.1 hfull,y,hhead,rfl⟩
      · have hsame : queue (s.react (.control pkt)).rb kind=queue s.rb kind := onControl_other hc
        exact hrest (by rwa [hsame]) (by rwa [hsame]) rfl
    | take k =>
      have hqueue : queue (s.react (.take k)).rb kind =
          if k=kind then (queue s.rb kind).tail else queue s.rb kind := takeRb_queue k
      rw [taken,takeRb_result]
      by_cases hk : k=kind
      · subst hk
        rw [if_pos rfl] at hqueue ⊢
        cases hq : queue s.rb k with
        | nil =>
          rw [hq] at hy
          cases hy
        | cons z q =>
          rw [hq] at hy
          rcases mem_cons.mp hy with rfl | hy
          · exact .inl ⟨y,.inl rfl,rfl,y,mem_cons_self,rfl,rfl⟩
          rw [hq,tail_cons] at hqueue
          have hgood':=hgood.tail
          rw [hq,tail_cons,← hqueue] at hgood'
          refine (hrest hgood' (by rwa [hqueue]) rfl).imp (fun hm => ?_) id
          obtain ⟨m,hm,hkm,e,he,hbe⟩ := hm
          exact ⟨m,hm,hkm,e,mem_cons_of_mem z he,hbe⟩
      · rw [if_neg hk] at hqueue ⊢
        exact hrest (by rwa [hqueue]) (by rwa [hqueue]) rfl

theorem AllOrderly.split {pre post : List Ev} (h : AllOrderly kind s (pre++post)) :
    AllOrderly kind s pre ∧ AllOrderly kind (s.reactAll pre) post := by
  induction pre generalizing s with
  | nil => exact ⟨trivial,h⟩
  | cons ev pre ih => exact ⟨⟨h.1,(ih h.2).1⟩,(ih h.2).2⟩

theorem reactAll_cfg (s : Session) (evs : List Ev) : (s.reactAll evs).cfg=s.cfg := by
  induction evs generalizing s with
  | nil => rfl
  | cons ev evs ih => exact (ih (s.react ev)).trans (react_cfg s ev)

end Steps

/-- **The control queues** are bounded, have one entry per key and keep the order in any run of
orderly packets and takes. -/
theorem control_queues_account (s : Session) (kind : RbKind) (hkind : kind.Episodic)
    (hgood : Good ctrlQueue kind.key (queue s.rb kind)) (evs : List Ev)
    (hall : AllOrderly kind s evs) : Good ctrlQueue kind.key (queue (s.reactAll evs).rb kind) ∧
    ((taken kind s evs++queue (s.reactAll evs).rb kind).map kind.key).Sublist
      ((queue s.rb kind++arrivals (s.opsOf kind evs)).map kind.key) ∧
    ∀ pre pkt post,evs=pre++.control pkt::post → s.Concerns kind pkt →
      (∃ m,(m=pkt ∨ .control m∈post ∧ s.Concerns kind m) ∧ kind.key m=kind.key pkt ∧
        ∃ e∈taken kind (s.reactAll (pre++[.control pkt])) post ++queue (s.reactAll evs).rb kind,
          kind.key e=kind.key m ∧ kind.body e=kind.body m) ∨
      (queue (s.reactAll pre).rb kind).length=ctrlQueue ∨
      ∃ mid m rest,post=mid++.control m::rest ∧ s.Concerns kind m ∧
        (s.reactAll (pre++.control pkt::mid)).Sheds kind pkt m := by
  have hrun:=run_queue hkind hall hgood
  refine ⟨hrun.good hgood,hrun.fifo,?_⟩
  rintro pre pkt post rfl hc
  obtain ⟨hpre,hall⟩ := hall.split
  have hgood₁:=(run_queue hkind hpre hgood).good hgood
  have hcfg:=reactAll_cfg s pre
  have hc₁ : (s.reactAll pre).Concerns kind pkt := (concerns_congr hcfg).mpr hc
  have harrives:=arrives_receive hkind hc.1 (hall.1 pkt rfl hc₁) hgood₁.1
  rw [← onControl_concerned hc₁] at harrives
  have hmid : s.reactAll (pre++[.control pkt])=(s.reactAll pre).react (.control pkt) := foldl_append
  have hend (mid : List Ev) : s.reactAll (pre++.control pkt::mid) =
      ((s.reactAll pre).react (.control pkt)).reactAll mid := foldl_append
  have hof {m : DecodedPacket} : ((s.reactAll pre).react (.control pkt)).Concerns kind m →
      s.Concerns kind m := (concerns_congr ((react_cfg _ _).trans hcfg)).mp
  rw [hmid,hend]
  rcases harrives.self with ⟨y,hy,hkey,hbody⟩ | hfull
  · rcases accounts hkind hall.2 (harrives.good hgood₁) hy with
      ⟨m,rfl | hm,hkm,e,he,hke,hbe⟩ | ⟨mid,m,rest,rfl,hm,hlater,hfull,head,hh,hk⟩
    · exact .inl ⟨pkt,.inl rfl,rfl,e,he,hke.trans hkey,hbe.trans hbody⟩
    · exact .inl ⟨m,.inr ⟨hm.1,hof hm.2⟩,hkm.trans hkey,e,he,hke,hbe⟩
    · refine .inr (.inr ⟨mid,m,rest,rfl,hof hm,laterEpisode_congr kind y pkt m hkey hlater,?_⟩)
      rw [hend]
      exact ⟨hfull,head,hh,hk.trans hkey⟩
  · exact .inr (.inl (le_antisymm hgood₁.1 hfull))

def hostSession : Session := freshSession ⟨3,0,0,2,1,0,0,0⟩
def postOf (epoch target : UInt32) : DecodedPacket :=
  { type := .rbPost,sessionId := 0,localSlot := 1,rbEpochId := epoch,rbTargetTick := target }

/-- A full queue of one episode, the POST of its first tick sent twice, and then one of a later
episode of the same seat. -/
def crowded : List Ev :=
  .control (postOf 41 0)::(List.range 32).map (fun i => .control (postOf 41 (UInt32.ofNat i)))++
    [.control (postOf 49 0),.take .post]

theorem control_queues_account_post :
    ((queue (hostSession.reactAll (crowded.take 33)).rb .post).length=ctrlQueue ∧
      (taken .post hostSession crowded).map (·.rbTargetTick)=[1]) ∧
    ∃ mid m rest,crowded.drop 1=mid++.control m::rest ∧
      (hostSession.reactAll (.control (postOf 41 0)::mid)).Sheds .post (postOf 41 0) m := by
  have horderly : AllOrderly .post hostSession crowded := by decide +kernel
  have hgone : ∀ e∈taken .post (hostSession.reactAll [.control (postOf 41 0)]) (crowded.drop 1)++
      queue (hostSession.reactAll crowded).rb .post,
      RbKind.post.key e≠RbKind.post.key (postOf 41 0) := by decide +kernel
  refine ⟨by decide +kernel,?_⟩
  rcases (control_queues_account hostSession .post ⟨by decide,by decide⟩
    ⟨Nat.zero_le _,nodup_nil⟩ crowded horderly).2.2 [] (postOf 41 0) (crowded.drop 1) rfl
      (by decide) with ⟨m,-,hkey,e,he,hke,-⟩ | hfull | ⟨mid,m,rest,hsplit,-,hsheds⟩
  · exact absurd (hke.trans hkey) (hgone e he)
  · exact absurd hfull (by decide)
  · exact ⟨mid,m,rest,hsplit,hsheds⟩

def chunkOf (buttons : UInt16) (isPredicted : UInt8) : DecodedPacket :=
  { type := .rbSealRows,sessionId := 0,localSlot := 1,rbEpochId := 9,rbSlot := 1
    rbRows := [⟨buttons,0,0,0,isPredicted,1,0,0⟩] }

theorem newer_rows_dropped :
    (hostSession.Concerns .sealRows (chunkOf 5 0) ∧
      taken .sealRows hostSession [.control (chunkOf 4 1),.control (chunkOf 5 0),
        .take .sealRows,.take .sealRows]=[chunkOf 4 1] ∧
      RbKind.sealRows.key (chunkOf 5 0)=RbKind.sealRows.key (chunkOf 4 1) ∧
      RbKind.sealRows.body (chunkOf 5 0)≠RbKind.sealRows.body (chunkOf 4 1)) ∧
    postOf 41 0∉queue (hostSession.reactAll (((List.range 32).map fun i =>
      Ev.control (postOf 41 (UInt32.ofNat i)))++[.control (postOf 50 0)])).rb .post ∧
    ¬LaterEpisode (postOf 41 0) (postOf 50 0) := by
  refine ⟨by decide +kernel,by decide +kernel,fun h => ?_⟩
  exact absurd h.2 (by decide)

end RecompNet.Whole.Session
