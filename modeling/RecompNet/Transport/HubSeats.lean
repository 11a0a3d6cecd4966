import RecompNet.Session.Receive
import RecompNet.Transport.IceHub

/-!
# Whose seat a hub guest speaks for

`handle_decoded` files what a packet says under the slot in its body.
-/
namespace RecompNet
open Function List

namespace DelaySync

structure SeatInput where
  ownRows : Option InputRing
  rows : InputRing
  contiguousAck : Option ℕ
  ackTick : Option ℕ
  ackSeen : Bool
  pairAck : Option ℕ
  confirms : TickRing historyLength ℕ
  ready : Bool

def Session.seatInput (s : Session) (j : ℕ) : SeatInput where
  ownRows := if j=s.cfg.localSlot then some s.localRing else none
  rows := s.remoteRings j
  contiguousAck := s.remoteContiguousAck j
  ackTick := s.peerAckTick j
  ackSeen := s.peerAckSeen j
  pairAck := if s.cfg.slotCount=2 ∧ s.cfg.localSlot<2 ∧ j<2 ∧ j≠s.cfg.localSlot then
    some s.highestRemoteAck else none
  confirms := s.peerHistory j
  ready := s.peerReady j

variable {s : Session} {i j : ℕ}
theorem storeRemoteFrame_seatInput (f : WireFrame) (hij : j≠i) :
    (storeRemoteFrame s i f).seatInput j=s.seatInput j ∧ (storeRemoteFrame s i f).cfg=s.cfg := by
  unfold storeRemoteFrame
  split
  · exact ⟨rfl,rfl⟩
  split
  · exact ⟨rfl,rfl⟩
  split
  · exact ⟨rfl,rfl⟩
  refine ⟨?_,rfl⟩
  unfold Session.seatInput
  dsimp only
  rw [update_of_ne hij,ite_apply,update_of_ne hij,ite_self]

theorem onInputAck_seatInput (ackTick : ℕ) (acks : List (Option ℕ)) (hij : j≠i)
    (hloc : s.cfg.localSlot≠i) (hpair : s.cfg.slotCount=2 → i<2) :
    (onInputAck s i ackTick acks).seatInput j=s.seatInput j := by
  have hupd : ∀ (ack : Option ℕ) (seen : Bool),Session.seatInput { s with
      peerAckTick := update s.peerAckTick i ack
      peerAckSeen := update s.peerAckSeen i seen } j=s.seatInput j := by
    intro ack seen
    unfold Session.seatInput
    dsimp only
    rw [update_of_ne hij,update_of_ne hij]
  unfold onInputAck
  split
  · dsimp only
    generalize (!s.peerAckSeen i || _)=newer
    cases newer with
    | true => exact hupd _ _
    | false => rfl
  split
  · next htwo =>
    -- the one acknowledgment of a room of two belongs to `i`
    have hother : ¬ (s.cfg.slotCount=2 ∧ s.cfg.localSlot<2 ∧ j<2 ∧ j≠s.cfg.localSlot) := by
      rintro ⟨-,hl,hj,hjl⟩
      have hi:=hpair htwo.1
      omega
    unfold Session.seatInput
    dsimp only
    rw [if_neg hother,if_neg hother]
  · rfl

theorem onInput_seatInput (epoch ackTick : ℕ) (frames : List WireFrame) (acks : List (Option ℕ))
    (hij : j≠i) (hloc : s.cfg.localSlot≠i) (hpair : s.cfg.slotCount=2 → i<2) :
    (onInput s i epoch ackTick frames acks).seatInput j=s.seatInput j := by
  have hfold : ∀ (fs : List WireFrame) (s₁ : Session),
      (fs.foldl (fun s f => storeRemoteFrame s i f) s₁).seatInput j=s₁.seatInput j ∧
        (fs.foldl (fun s f => storeRemoteFrame s i f) s₁).cfg=s₁.cfg := by
    intro fs
    induction fs with
    | nil => exact fun s₁ => ⟨rfl,rfl⟩
    | cons f fs ih =>
      intro s₁
      obtain ⟨hseat,hcfg⟩ := storeRemoteFrame_seatInput (s := s₁) f hij
      obtain ⟨hseat',hcfg'⟩ := ih (storeRemoteFrame s₁ i f)
      exact ⟨hseat'.trans hseat,hcfg'.trans hcfg⟩
  unfold onInput
  split
  · rfl
  · obtain ⟨hseat,hcfg⟩ := hfold frames s
    rw [onInputAck_seatInput ackTick acks hij (hcfg ▸ hloc) (hcfg ▸ hpair),hseat]

def Body.slot : Body → Option ℕ
  | .hello localSlot _ _ _ => some localSlot
  | .ready localSlot => some localSlot
  | .input localSlot _ _ _ _ => some localSlot
  | .inputConfirm localSlot _ _ _ => some localSlot
  | .bye localSlot => some localSlot
  | .start _ => none
  | .delaySync _ _ => none

theorem handleDecoded_seatInput (now : ℕ) {body : Body} (hij : j≠i) (hi : i≠0)
    (hloc : s.cfg.localSlot≠i) (hslot : (∃ d e,body=.delaySync d e) ∨
      body.slot=some i ∧ (s.cfg.slotCount=2 → i<2)) :
    (handleDecoded now s (s.packet body)).1.seatInput j=s.seatInput j := by
  unfold handleDecoded
  rw [if_neg (by simp [Session.packet])]
  cases body with
  | hello localSlot slotCount delay version =>
    obtain rfl : localSlot=i := by
      simpa [Body.slot] using (hslot.resolve_left (by simp)).1
    change (onHello s localSlot slotCount delay version).seatInput j=s.seatInput j
    unfold onHello
    dsimp only
    split
    · rfl
    split
    · rfl
    · rw [if_neg fun h => hi h.2.1]
      split <;> rfl
  | ready localSlot =>
    obtain rfl : localSlot=i := by
      simpa [Body.slot] using (hslot.resolve_left (by simp)).1
    change (onReady s localSlot).1.seatInput j=s.seatInput j
    have hupd : Session.seatInput
        { s with peerReady := update s.peerReady localSlot true } j=s.seatInput j := by
      unfold Session.seatInput
      dsimp only
      rw [update_of_ne hij]
    unfold onReady
    split
    · rfl
    dsimp only
    split <;> exact hupd
  | start startTick => simp [Body.slot] at hslot
  | input localSlot epoch ackTick frames acks =>
    obtain rfl : localSlot=i := by
      simpa [Body.slot] using (hslot.resolve_left (by simp)).1
    exact onInput_seatInput epoch ackTick frames acks hij hloc (hslot.resolve_left (by simp)).2
  | delaySync newDelay effectiveTick =>
    change (onDelaySync s newDelay effectiveTick).seatInput j=s.seatInput j
    unfold onDelaySync
    split <;> rfl
  | inputConfirm localSlot epoch simTick hash =>
    obtain rfl : localSlot=i := by
      simpa [Body.slot] using (hslot.resolve_left (by simp)).1
    change (onInputConfirm s localSlot epoch simTick hash).seatInput j=s.seatInput j
    have hupd : ∀ alarm,Session.seatInput { s with
        peerHistory := update s.peerHistory localSlot ((s.peerHistory localSlot).store simTick hash)
        inputDesync := alarm } j=s.seatInput j := by
      intro alarm
      unfold Session.seatInput
      dsimp only
      rw [update_of_ne hij]
    unfold onInputConfirm
    split
    · rfl
    dsimp only
    split
    · split <;> exact hupd _
    · exact hupd _
  | bye localSlot =>
    change (if localSlot≠s.cfg.wireId then { s with peerGone := true } else s).seatInput j =
      s.seatInput j
    split <;> rfl

end DelaySync

namespace Profiles
def Agreement.offer (p : Agreement) (j : ℕ) : Option ProfileCaps :=
  if p.offers.getLsbD j then some (p.caps j) else none

variable {s : Session} {j : ℕ}
theorem profilesChoose_offer (s : Session) :
    (profilesChoose s).profiles.offer j=s.profiles.offer j := by
  unfold profilesChoose
  dsimp only
  split_ifs <;> rfl

theorem handleDecoded_offer (m : Packet) (hj : j≠m.localSlot) :
    (handleDecoded s m).profiles.offer j=s.profiles.offer j := by
  have hnew : ∀ p : Agreement,Agreement.offer { p with
      caps := update p.caps m.localSlot m.caps
      offers := p.offers ||| seatBit m.localSlot } j=p.offer j := by
    intro p
    unfold Agreement.offer
    dsimp only
    rw [update_of_ne hj,BitVec.getLsbD_or,seatBit,BitVec.getLsbD_twoPow]
    simp [Ne.symm hj]
  have hreceive : (profilesReceive s m).profiles.offer j=s.profiles.offer j := by
    unfold profilesReceive
    dsimp only
    split_ifs
    · rfl
    · rfl
    · rfl
    · unfold receiveOffer
      dsimp only
      split_ifs
      · rfl
      · rw [profilesChoose_offer]
        exact hnew s.profiles
    unfold receiveAck
    dsimp only
    split_ifs <;> rfl
  unfold handleDecoded
  split_ifs
  · rfl
  · rfl
  · exact hreceive
  · rfl

end Profiles

namespace Whole
open Proto (DecodedPacket)
open BoundedQueue

def entriesOf (j : ℕ) (q : List DecodedPacket) : List DecodedPacket :=
  q.filter fun e => e.localSlot.toNat=j

/-- The state of a session that belongs to a seat. -/
structure Seat where
  input : DelaySync.SeatInput
  state : Option StateSync.Rx × Option StateSync.Received
  offer : Option Profiles.ProfileCaps
  queued : Session.RbKind → List DecodedPacket
  sio : List DecodedPacket
  gone : Bool
  heardMs : ℕ
  modsetAck : Option (UInt8 × List UInt8)

def Session.seat (s : Session) (j : ℕ) : Seat where
  input := s.input.seatInput j
  state := s.state.seatState j
  offer := s.agreement.offer j
  queued := fun kind => entriesOf j (Session.queue s.rb kind)
  sio := entriesOf j s.sio
  gone := s.peerGoneMask j
  heardMs := s.peerRxMs j
  modsetAck := s.modsetAck j

def Session.HasRoom (s : Session) (pkt : DecodedPacket) : Prop :=
  match pkt.type with
  | .rbFrameCommit => s.rb.fc.length<fcQueue
  | .rbSealRows => s.rb.sealRows.length<ctrlQueue
  | .rbBaseline => s.rb.baseline.length<ctrlQueue
  | .rbPost => s.rb.post.length<ctrlQueue
  | .sioMultiXfer => s.sio.length<sioQueue
  | _ => True

variable {s : Session} {pkt : DecodedPacket} {i j : ℕ} {q : List DecodedPacket}
theorem admitNewer_entriesOf (hroom : q.length<ctrlQueue)
    (hj : j≠pkt.localSlot.toNat) : entriesOf j (admitNewer pkt q)=entriesOf j q := by
  unfold admitNewer entriesOf
  rw [shed_of_lt hroom]
  exact filter_offer (by simpa using Ne.symm hj)

theorem coalesce_entriesOf {same : DecodedPacket → DecodedPacket → Bool}
    (hsame : ∀ e,same pkt e → e.localSlot=pkt.localSlot) (hroom : q.length<ctrlQueue)
    (hj : j≠pkt.localSlot.toNat) : entriesOf j (coalesce same pkt q)=entriesOf j q := by
  unfold coalesce
  cases hm : merge (same pkt) (fun _ => pkt) q with
  | none => exact admitNewer_entriesOf hroom hj
  | some q' =>
    refine filter_merge hm fun e he => ⟨?_,by simpa using Ne.symm hj⟩
    rw [hsame e he]
    simpa using Ne.symm hj

theorem noteResolved_entriesOf (hj : j≠pkt.localSlot.toNat) :
    entriesOf j (noteResolved pkt q)=entriesOf j q := by
  unfold noteResolved
  cases hm : merge (sameSender pkt)
      (fun e => if epochBefore e.rbResolvedThrough pkt.rbResolvedThrough then pkt else e) q with
  | none => exact filter_offer (by simpa using Ne.symm hj)
  | some q' =>
    refine filter_merge hm fun e he => ?_
    have hslot : e.localSlot=pkt.localSlot := by simpa [sameSender] using he
    constructor
    · rw [hslot]
      simpa using Ne.symm hj
    · split
      · simpa using Ne.symm hj
      · rw [hslot]
        simpa using Ne.symm hj

theorem receive_entriesOf (foreign : Bool) (hroom : s.HasRoom pkt)
    (hj : j≠pkt.localSlot.toNat) (kind : Session.RbKind) :
    entriesOf j (Session.queue (s.rb.receive foreign pkt) kind) =
      entriesOf j (Session.queue s.rb kind) := by
  unfold RbQueues.receive
  unfold Session.HasRoom at hroom
  cases htype : pkt.type with
  | rbFrameCommit =>
    rw [htype] at hroom
    cases kind with
    | fc => exact filter_push hroom (by simpa using Ne.symm hj)
    | _ => rfl
  | rbSync =>
    dsimp only
    split
    · rfl
    split
    · rfl
    · cases kind with
      | sync => exact filter_offer (by simpa using Ne.symm hj)
      | _ => rfl
  | rbSealRows =>
    rw [htype] at hroom
    dsimp only
    split
    · rfl
    · cases kind with
      | sealRows => exact admitNewer_entriesOf hroom hj
      | _ => rfl
  | rbBaseline =>
    rw [htype] at hroom
    dsimp only
    split
    · rfl
    · cases kind with
      | baseline =>
        exact coalesce_entriesOf (fun e he => (of_decide_eq_true he).1) hroom hj
      | _ => rfl
  | rbPost =>
    rw [htype] at hroom
    dsimp only
    split
    · rfl
    · cases kind with
      | post => exact coalesce_entriesOf (fun e he => (of_decide_eq_true he).1) hroom hj
      | _ => rfl
  | rbResolved =>
    cases kind with
    | resolved => exact noteResolved_entriesOf hj
    | _ => rfl
  | _ => rfl

namespace Session
variable (now : ℕ)
theorem stamp_seat (hslot : ∀ k,senderSlot pkt=some k → j≠k) :
    (s.stamp now pkt).seat j=s.seat j := by
  unfold stamp
  cases hs : senderSlot pkt with
  | none => rfl
  | some k =>
    dsimp only
    split
    · unfold seat
      dsimp only
      rw [update_of_ne (hslot k hs)]
    · rfl

theorem onControl_seat (hroom : s.HasRoom pkt) (hj : j≠pkt.localSlot.toNat) :
    (s.onControl pkt).seat j=s.seat j := by
  have hoffer : (s.onProfiles pkt).seat j=s.seat j := by
    have h:=Profiles.handleDecoded_offer (s := s.profileView) (profilePacket s.cfg pkt) hj
    unfold seat onProfiles
    dsimp only
    rw [h]
    rfl
  have hrb : Session.seat { s with rb := s.rb.receive (s.foreign pkt) pkt } j=s.seat j := by
    have h : (fun kind => entriesOf j (queue (s.rb.receive (s.foreign pkt) pkt) kind)) =
        fun kind => entriesOf j (queue s.rb kind) :=
      funext fun kind => receive_entriesOf (s.foreign pkt) hroom hj kind
    unfold seat
    dsimp only
    rw [h]
  unfold onControl
  dsimp only
  split
  · exact hoffer
  split
  · rfl
  split
  · next htype =>
    unfold HasRoom at hroom
    rw [htype] at hroom
    have h : entriesOf j (push sioQueue s.sio pkt)=entriesOf j s.sio :=
      filter_push hroom (by simpa using Ne.symm hj)
    unfold seat
    dsimp only
    rw [h]
  · rfl
  · split
    · unfold seat
      dsimp only
      rw [update_of_ne hj]
    · rfl
  · exact hrb

def SpeaksFor (s : Session) (i : ℕ) (pkt : DecodedPacket) : Prop := pkt.type=.delaySync ∨
    pkt.type≠.start ∧ pkt.localSlot.toNat=i ∧ s.HasRoom pkt ∧ (s.cfg.slotCount=2 → i<2)

theorem noteBye_seat (hslot : pkt.type=.bye → j≠pkt.localSlot.toNat) :
    (s.noteBye pkt).seat j=s.seat j := by
  unfold noteBye
  dsimp only
  split
  · next hbye =>
    unfold seat
    dsimp only
    rw [update_of_ne (hslot hbye.1)]
  · rfl

theorem noteBye_cfg : (s.noteBye pkt).cfg=s.cfg := by
  unfold noteBye
  dsimp only
  split <;> rfl

theorem SpeaksFor.inputSlot {body : DelaySync.Body} (h : s.SpeaksFor i pkt)
    (hbody : inputBody pkt=some body) :
    (∃ d e,body=.delaySync d e) ∨ body.slot=some i ∧ (s.cfg.slotCount=2 → i<2) := by
  unfold inputBody at hbody
  dsimp only at hbody
  split at hbody <;> cases hbody
  case h_5 => exact .inl ⟨_,_,rfl⟩
  case h_3 hstart => exact (h.resolve_left (by simp [hstart])).1.elim hstart
  all_goals
    obtain ⟨-,hslot,-,hpair⟩ := h.resolve_left (by simp [*])
    exact .inr ⟨congrArg some hslot,hpair⟩

theorem handleDecoded_seat (hij : j≠i) (hi : i≠0) (hloc : s.cfg.localSlot≠i)
    (h : s.SpeaksFor i pkt) : (s.handleDecoded now pkt).seat j=s.seat j := by
  unfold handleDecoded
  split
  · rfl
  split
  · rfl
  · cases hbody : inputBody pkt with
    | some body =>
      have hbye : (s.noteBye pkt).seat j=s.seat j := by
        refine noteBye_seat fun htype => ?_
        rcases h with hd | ⟨-,hslot,-⟩
        · rw [htype] at hd
          cases hd
        · rwa [hslot]
      have hplane:=DelaySync.handleDecoded_seatInput now (j := j)
        (s := { (s.noteBye pkt).input with gate := (s.noteBye pkt).gate }) hij hi
        ((congrArg Config.localSlot noteBye_cfg).trans_ne hloc)
        ((show (s.noteBye pkt).cfg=s.cfg from noteBye_cfg) ▸ h.inputSlot hbody)
      dsimp only
      rw [← hbye]
      unfold onInputPlane withInput seat
      dsimp only
      rw [hplane]
      rfl
    | none =>
      obtain ⟨-,hslot,hroom,-⟩ := h.resolve_left fun hd => by simp [inputBody,hd] at hbody
      dsimp only
      cases hstate : stateBody pkt with
      | some body =>
        have hplane:=StateSync.handleDecoded_seatState (j := j)
          (s := { s.state with running := s.input.phase=.running }) now body hij
        dsimp only
        rw [hslot]
        unfold onStatePlane withState seat
        dsimp only
        rw [hplane]
        rfl
      | none => exact onControl_seat hroom (hslot ▸ hij)

/-- Every packet that the session takes from the datagram speaks for seat `i`. -/
def OwnVoice (s : Session) (i : ℕ) (bytes : List UInt8) : Prop :=
  ∀ pkt,s.accepted bytes=some pkt → s.SpeaksFor i pkt

theorem hear_seat {bytes : List UInt8} (hij : j≠i) (hi : i≠0)
    (hloc : s.cfg.localSlot≠i) (hown : s.OwnVoice i bytes) :
    (s.hear now bytes).seat j=s.seat j := by
  unfold hear
  cases hacc : s.accepted bytes with
  | none => rfl
  | some pkt =>
    have h:=hown pkt hacc
    have hstamp : (s.stamp now pkt).seat j=s.seat j := by
      refine stamp_seat now fun k hk => ?_
      unfold senderSlot at hk
      rcases h with hd | ⟨hstart,rfl,-⟩
      · rw [hd] at hk
        cases hk
      split at hk
      · contradiction
      · cases hk
      · rwa [← Option.some.inj hk]
    -- the stamps leave what `SpeaksFor` reads alone
    have hsame : (s.stamp now pkt).input=s.input ∧ (s.stamp now pkt).rb=s.rb ∧
        (s.stamp now pkt).sio=s.sio := by
      unfold stamp
      split
      · split <;> exact ⟨rfl,rfl,rfl⟩
      · exact ⟨rfl,rfl,rfl⟩
    obtain ⟨hinput,hrb,hsio⟩ := hsame
    have h' : (s.stamp now pkt).SpeaksFor i pkt := by
      unfold SpeaksFor HasRoom cfg at h ⊢
      rwa [hinput,hrb,hsio]
    have hloc' : (s.stamp now pkt).cfg.localSlot≠i := by
      unfold cfg
      rwa [hinput]
    exact (handleDecoded_seat now hij hi hloc' h').trans hstamp

end Session
end Whole

namespace Transport
open Whole (Session)
variable {t t' : IceHub} {i : Fin 8} {d : List UInt8} {seats : List (Fin 8)}
theorem IceHub.recvFrom_some (h : recvFrom seats t=(some (i,d),t')) :
    i≠0 ∧ t.agent i ∧ t'.agent=t.agent ∧ t'.forwarded=t.forwarded++t.copies i d := by
  induction seats generalizing t with
  | nil => cases h
  | cons k seats ih =>
    unfold recvFrom at h
    split at h
    · exact ih h
    next hk =>
    split at h
    · have hrest:=ih h
      exact hrest
    · cases h
      refine ⟨fun h0 => hk (.inl h0),?_,rfl,rfl⟩
      by_contra hno
      exact hk (.inr (by simpa using hno))

theorem IceHub.recvFrom_none (h : recvFrom seats t=(none,t')) :
    t'.agent=t.agent ∧ t'.forwarded=t.forwarded := by
  induction seats generalizing t with
  | nil =>
    cases h
    exact ⟨rfl,rfl⟩
  | cons k seats ih =>
    unfold recvFrom at h
    split at h
    · exact ih h
    split at h
    · have hrest:=ih h
      exact hrest
    · cases h

structure HubHost.Recorded (ctx : Fin 8 → Bool) (h : HubHost) : Prop where
  agents : ∀ i,h.transport.agent i → ctx i
  handled : ∀ e∈h.handled,e.agent≠0 ∧ ctx e.agent ∧ e.after=e.before.hear e.now e.bytes
  forwarded : ∀ f∈h.transport.forwarded,f.dst≠f.src ∧
    ∃ e∈h.handled,e.agent=f.src ∧ e.bytes=f.bytes

namespace HubHost
variable {ctx : Fin 8 → Bool} {h : HubHost}
theorem Recorded.pumpRecv (hr : Recorded ctx h) (now guard : ℕ) :
    Recorded ctx (h.pumpRecv now guard) := by
  induction guard generalizing h with
  | zero => exact hr
  | succ guard ih =>
    unfold HubHost.pumpRecv
    split
    · next t ht =>
      obtain ⟨hagent,hfwd⟩ := IceHub.recvFrom_none ht
      exact ⟨hagent ▸ hr.agents,hr.handled,hfwd ▸ hr.forwarded⟩
    next i d t ht =>
    obtain ⟨hi,hagent,hsame,hfwd⟩ := IceHub.recvFrom_some ht
    apply ih
    refine ⟨hsame ▸ hr.agents,?_,?_⟩
    · intro e he
      rcases mem_append.mp he with hold | hnew
      · exact hr.handled e hold
      · obtain rfl := mem_singleton.mp hnew
        exact ⟨hi,hr.agents i hagent,rfl⟩
    · intro f hf
      dsimp only at hf
      rw [hfwd] at hf
      rcases mem_append.mp hf with hold | hnew
      · obtain ⟨hne,e,he,hsrc⟩ := hr.forwarded f hold
        exact ⟨hne,e,mem_append_left _ he,hsrc⟩
      obtain ⟨k,hk,rfl⟩ := mem_map.mp hnew
      have hki : k≠i := (of_decide_eq_true (mem_filter.mp hk).2).2.1
      exact ⟨hki,_,mem_append_right _ (mem_singleton.mpr rfl),rfl,rfl⟩

theorem Recorded.call (hr : Recorded ctx h) (c : Call) : Recorded ctx (h.call c) := by
  cases c with
  | arrive | act => exact ⟨hr.agents,hr.handled,hr.forwarded⟩
  | recv now guard => exact hr.pumpRecv now guard

theorem run_recorded (cfg : Config) (ctx : Fin 8 → Bool) (cs : List Call) :
    Recorded ctx (run cfg ctx cs) := by
  have hstart : Recorded ctx ⟨startIceHub ctx,Whole.freshSession cfg,[]⟩ := by
    refine ⟨fun i hi => ?_,fun e he => (by cases he),fun f hf => (by cases hf)⟩
    exact (Bool.and_eq_true_iff.mp hi).2
  unfold run
  generalize (⟨startIceHub ctx,Whole.freshSession cfg,[]⟩ : HubHost)=h at hstart
  induction cs generalizing h with
  | nil => exact hstart
  | cons c cs ih => exact ih (h.call c) (hstart.call c)

/-- A packet in its sender's own voice touches no other seat, at the hub and behind it. -/
theorem own_voice_confined (cfg : Config) (ctx : Fin 8 → Bool) (cs : List Call) :
    (∀ e∈(run cfg ctx cs).handled,e.agent≠0 ∧ ctx e.agent=true ∧
      e.after=e.before.hear e.now e.bytes ∧
      (e.before.cfg.localSlot≠e.agent → e.before.OwnVoice e.agent e.bytes →
        ∀ j : ℕ,j≠e.agent → e.after.seat j=e.before.seat j)) ∧
    (∀ f∈(run cfg ctx cs).transport.forwarded,f.dst≠f.src ∧
      (∃ e∈(run cfg ctx cs).handled,e.agent=f.src ∧ e.bytes=f.bytes) ∧
      ∀ (guest : Session) (now : ℕ),guest.cfg.localSlot≠f.src → guest.OwnVoice f.src f.bytes →
        ∀ j : ℕ,j≠f.src → (guest.hear now f.bytes).seat j=guest.seat j) := by
  have hr:=run_recorded cfg ctx cs
  constructor
  · intro e he
    obtain ⟨hne,hctx,hafter⟩ := hr.handled e he
    refine ⟨hne,hctx,hafter,fun hloc hown j hj => ?_⟩
    rw [hafter]
    exact Session.hear_seat e.now hj (Fin.val_ne_zero_iff.mpr hne) hloc hown
  · intro f hf
    obtain ⟨hne,e,he,hsrc,hbytes⟩ := hr.forwarded f hf
    refine ⟨hne,⟨e,he,hsrc,hbytes⟩,fun guest now hloc hown j hj => ?_⟩
    have hsrc0 : f.src≠0 := hsrc ▸ (hr.handled e he).1
    exact Session.hear_seat now hj (Fin.val_ne_zero_iff.mpr hsrc0) hloc hown

def quadCfg (slot : ℕ) : Config := { pairCfg false with slotCount := 4,localSlot := slot }

def inputFor (slot : UInt8) : List UInt8 :=
  (Proto.encodeInputAcks 1200 (UInt32.ofNat (quadCfg 0).protocolMagic)
    (UInt32.ofNat (quadCfg 0).sessionId) slot 0 0 [⟨0,[7]⟩] [0,0,0,0]).getD []

def guestOneSends (slot : UInt8) : HubHost :=
  run (quadCfg 0) (fun _ => true) [.arrive 1 (inputFor slot),.recv 1 8]

theorem ownVoice_of_input {s : Session} {k : ℕ} {bytes : List UInt8} (hcount : s.cfg.slotCount≠2)
    (h : (s.accepted bytes).all (fun pkt => pkt.type=.input ∧ pkt.localSlot.toNat=k)=true) :
    s.OwnVoice k bytes := by
  intro pkt hacc
  rw [hacc] at h
  obtain ⟨htype,hslot⟩ := of_decide_eq_true h
  refine .inr ⟨by simp [htype],hslot,?_,fun htwo => absurd htwo hcount⟩
  unfold Session.HasRoom
  rw [htype]
  trivial

theorem own_voice_confined_guest_one :
    (∃ e∈(guestOneSends 1).handled,e.agent=1 ∧ e.after.seat 2=e.before.seat 2) ∧
    ∃ f∈(guestOneSends 1).transport.forwarded,f.src=1 ∧ f.dst=3 ∧
      ((Whole.freshSession (quadCfg 3)).hear 1 f.bytes).seat 2 =
        (Whole.freshSession (quadCfg 3)).seat 2 := by
  obtain ⟨hhost,hguest⟩ := own_voice_confined (quadCfg 0) (fun _ => true)
    [.arrive 1 (inputFor 1),.recv 1 8]
  constructor
  · obtain ⟨e,he,hfacts⟩ := any_eq_true.mp (show ((guestOneSends 1).handled.any fun e =>
      e.agent=1 ∧ e.before.cfg.localSlot=0 ∧ e.before.cfg.slotCount=4 ∧
      (e.before.accepted e.bytes).all
        (fun pkt => pkt.type=.input ∧ pkt.localSlot.toNat=1))=true by decide +kernel)
    obtain ⟨hagent,hlocal,hcount,hall⟩ := of_decide_eq_true hfacts
    refine ⟨e,he,hagent,(hhost e he).2.2.2 ?_ ?_ 2 ?_⟩
    · rw [hlocal,hagent]
      decide
    · rw [hagent]
      exact ownVoice_of_input (by rw [hcount]; decide) hall
    · rw [hagent]
      decide
  · obtain ⟨f,hf,hfacts⟩ := any_eq_true.mp (show
      ((guestOneSends 1).transport.forwarded.any fun f => f.src=1 ∧ f.dst=3 ∧
      ((Whole.freshSession (quadCfg 3)).accepted f.bytes).all
        (fun pkt => pkt.type=.input ∧ pkt.localSlot.toNat=1))=true by decide +kernel)
    obtain ⟨hsrc,hdst,hall⟩ := of_decide_eq_true hfacts
    refine ⟨f,hf,hsrc,hdst,(hguest f hf).2.2 _ 1 ?_ ?_ 2 ?_⟩
    · rw [hsrc]
      decide
    · rw [hsrc]
      exact ownVoice_of_input (by decide) hall
    · rw [hsrc]
      decide

theorem guest_one_speaks_for_two :
    (∃ e∈(guestOneSends 2).handled,e.agent=1 ∧ e.after.seat 2≠e.before.seat 2) ∧
    ∃ f∈(guestOneSends 2).transport.forwarded,f.src=1 ∧ f.dst=3 ∧
      ((Whole.freshSession (quadCfg 3)).hear 1 f.bytes).seat 2 ≠
        (Whole.freshSession (quadCfg 3)).seat 2 := by
  constructor
  · obtain ⟨e,he,hfacts⟩ := any_eq_true.mp (show ((guestOneSends 2).handled.any fun e =>
      e.agent=1 ∧ ringGet (e.before.seat 2).input.rows 0=none ∧
        (ringGet (e.after.seat 2).input.rows 0).isSome)=true by decide +kernel)
    obtain ⟨hagent,hnone,hsome⟩ := of_decide_eq_true hfacts
    refine ⟨e,he,hagent,fun heq => ?_⟩
    rw [heq,hnone] at hsome
    cases hsome
  · obtain ⟨f,hf,hfacts⟩ := any_eq_true.mp (show
      ((guestOneSends 2).transport.forwarded.any fun f => f.src=1 ∧ f.dst=3 ∧
        ringGet ((Whole.freshSession (quadCfg 3)).seat 2).input.rows 0=none ∧
        (ringGet (((Whole.freshSession (quadCfg 3)).hear 1 f.bytes).seat 2).input.rows 0).isSome) =
          true by decide +kernel)
    obtain ⟨hsrc,hdst,hnone,hsome⟩ := of_decide_eq_true hfacts
    refine ⟨f,hf,hsrc,hdst,fun heq => ?_⟩
    rw [heq,hnone] at hsome
    cases hsome

end HubHost
end Transport
end RecompNet
