import RecompNet.Lib.BitMask
import RecompNet.Session.Profiles

/-!
# Agreement on the startup profile

Everything an honest session holds about a seat comes from that seat.
-/
namespace RecompNet.Profiles
open Function List
variable {ι : Type} {x : BitVec 32} {r : ℕ}
theorem seat_clear (hr : r<32) :
    x &&& seatBit r=0 ↔ x.getLsbD r=false := BitVec.and_twoPow_eq_zero hr
theorem seat_set (hr : r<32) : x &&& seatBit r≠0 ↔ x.getLsbD r := by
  rw [Ne,seat_clear hr,Bool.not_eq_false]

theorem getLsbD_seatBit {seat : ℕ} (h : seat<32) : (seatBit seat).getLsbD r ↔ r=seat := by
  rw [seatBit,BitVec.getLsbD_twoPow_of_lt h,decide_eq_true_eq,eq_comm]

theorem and_one_eq_zero : x &&& 1=0 ↔ x.getLsbD 0=false :=
  BitVec.and_twoPow_eq_zero (r := 0) (by decide)
theorem maxSlots_lt : maxSlots<32 := by decide

theorem getLsbD_occupiedBits {cfg : Config} (h : cfg.slotCount ≤ maxSlots) (r : ℕ) :
    (occupiedBits cfg).getLsbD r=cfg.slotOccupied r := by
  have h8:=maxSlots_lt
  unfold occupiedBits seatBit
  rw [BitVec.getLsbD_foldl_or _ _ fun i hi => by
    have := mem_range.mp hi
    omega]
  cases hr : cfg.slotOccupied r with
  | false => simp
  | true => simp [Config.lt_slotCount_of_occupied hr]

theorem highestFrom_le (x : BitVec 32) (n : ℕ) : highestFrom x n≤n := by
  induction n with
  | zero => exact Nat.le_refl 0
  | succ n ih =>
    rw [highestFrom]
    split <;> omega

variable {n : ℕ}
theorem highestFrom_set (h0 : x.getLsbD 0) (hn : n<32) : x.getLsbD (highestFrom x n) := by
  induction n with
  | zero => exact h0
  | succ n ih =>
    rw [highestFrom]
    split
    · exact ih (by omega)
    · next h => exact (seat_set hn).mp h

theorem highestFrom_max {q : ℕ} (hn : n<32) (hq : q≤n)
    (h : highestFrom x n<q) : x.getLsbD q=false := by
  induction n with
  | zero => omega
  | succ n ih =>
    rw [highestFrom] at h
    split at h
    · next hbit =>
      by_cases he : q=n+1
      · rwa [he,← seat_clear hn]
      · exact ih (by omega) (by omega) h
    · omega

variable {q : BitVec 32}
theorem decision_congr {occupied : BitVec 32} (hn : n ≤ maxSlots)
    {caps caps' : ℕ → ProfileCaps} (h : ∀ r,occupied.getLsbD r → caps' r=caps r) :
    decision q n occupied caps'=decision q n occupied caps := by
  have h8:=maxSlots_lt
  have hloop : commonAndHash q n occupied caps'=commonAndHash q n occupied caps := by
    unfold commonAndHash
    refine foldl_ext _ _ _ fun acc r hr => ?_
    have hr : r<n := mem_range.mp hr
    unfold chooseSeat
    split
    · rfl
    · next hocc => rw [h r ((seat_set (by omega)).mp hocc)]
  simp only [decision,hloop]

theorem getLsbD_common {occupied : BitVec 32} {b : ℕ} (hn : n ≤ maxSlots)
    {caps : ℕ → ProfileCaps} (hb : b<32) : (commonAndHash q n occupied caps).1.getLsbD b ↔
      ∀ r<n,occupied.getLsbD r → (caps r).profiles.getLsbD b := by
  have h8:=maxSlots_lt
  unfold commonAndHash
  generalize [q,BitVec.ofNat 32 n,occupied].foldl profileFold 2166136261=h
  induction n with
  | zero =>
    simp only [range_zero,foldl_nil,BitVec.getLsbD_allOnes,hb,decide_true,true_iff]
    omega
  | succ n ih =>
    rw [range_succ,foldl_append,foldl_cons,foldl_nil,chooseSeat]
    simp only [Nat.lt_succ_iff_lt_or_eq,or_imp,forall_and,forall_eq,← ih (by omega)]
    split
    · next hocc =>
      rw [seat_clear (by omega)] at hocc
      simp only [hocc,Bool.false_eq_true,false_imp_iff,and_true]
    next hocc =>
    rw [← Ne,seat_set (by omega)] at hocc
    simp only [hocc,BitVec.getLsbD_and,Bool.and_eq_true,true_imp_iff]

structure Board where
  offer : ℕ → Option ProfileCaps
  acks : ℕ → BitVec 32

def Board.caps (k : Board) (r : ℕ) : ProfileCaps := (k.offer r).getD {}

variable (room : Room ι)
def roomMask : BitVec 32 := occupiedBits { (default : Config) with
    slotCount := room.slotCount,occupiedMask := room.occupiedMask }

theorem occupiedBits_room (i : ι) : occupiedBits (room.cfg i)=roomMask room := by
  unfold roomMask occupiedBits Config.slotOccupied
  simp only [room.same_slotCount i,room.same_mask i]

structure Grows (room : Room ι) (i : ι) (k k' : Board) : Prop where
  offer : ∀ r c,k.offer r=some c → k'.offer r=some c
  acks : ∀ r b,(k.acks r).getLsbD b → (k'.acks r).getLsbD b
  others : ∀ r,r≠room.seat i ∨ room.slotCount ≤ r → k'.offer r=k.offer r ∧ k'.acks r=k.acks r

def Owned (k : Board) : Prop := ∀ r,(∀ j,room.seat j≠r) → k.offer r=none ∧ k.acks r=0

structure Held (q : BitVec 32) (k : Board) (s : Session) : Prop where
  seated : s.cfg.localSlot<s.cfg.slotCount
  qualification : s.profiles.qualification=q
  occupied : s.profiles.occupied=occupiedBits s.cfg
  own : s.profiles.offers.getLsbD s.cfg.localSlot
  within : ∀ r,s.profiles.offers.getLsbD r → s.profiles.occupied.getLsbD r
  known : ∀ r,s.profiles.offers.getLsbD r → k.offer r=some (s.profiles.caps r)
  portable : ∀ r,s.profiles.offers.getLsbD r → (s.profiles.caps r).profiles.getLsbD 0
  narrow : (s.profiles.caps s.cfg.localSlot).architecture.toNat≤255

structure Decided (k : Board) (s : Session) : Prop where
  own : s.profiles.acks.getLsbD s.cfg.localSlot
  within : ∀ r,s.profiles.acks.getLsbD r → s.profiles.occupied.getLsbD r
  decision : (s.profiles.selected,s.profiles.transcript) =
    decision s.profiles.qualification s.cfg.slotCount s.profiles.occupied s.profiles.caps
  told : ∀ r,s.profiles.acknowledgedBy.getLsbD r → (k.acks r).getLsbD s.cfg.localSlot

structure Good (room : Room ι) (q : BitVec 32) (k : Board) (i : ι) (s : Session) : Prop where
  cfg : s.cfg=room.cfg i
  unrefused : s.profiles.refused=false
  acks : k.acks (room.seat i)=s.profiles.acks
  idle : s.profiles.active=false → s.profiles={} ∧ k.offer (room.seat i)=none
  held : s.profiles.active → Held q k s
  waiting : s.profiles.active → s.profiles.offers≠s.profiles.occupied →
    s.profiles.acks=0 ∧ s.profiles.acknowledgedBy=0
  decided : s.profiles.active → s.profiles.offers=s.profiles.occupied → Decided k s

structure OfferTrue (q : BitVec 32) (k : Board) (m : Packet) : Prop where
  epochId : m.epochId=q
  flags : m.flags=0
  known : k.offer m.localSlot=some m.caps
  portable : m.caps.profiles.getLsbD 0

structure AckTrue (room : Room ι) (q : BitVec 32) (k : Board) (m : Packet) : Prop where
  epochId : m.epochId=q
  flags : m.flags=0
  correctedSlot : m.correctedSlot=0
  known : ∀ r,(roomMask room).getLsbD r → (k.offer r).isSome
  decision : (m.mismatchTick,m.loadTick)=decision q room.slotCount (roomMask room) k.caps
  held : ∀ r,m.targetTick.getLsbD r → (k.acks m.localSlot).getLsbD r
  own : m.targetTick.getLsbD m.localSlot
  within : ∀ r,m.targetTick.getLsbD r → (roomMask room).getLsbD r

structure Truthful (room : Room ι) (q : BitVec 32) (k : Board) (m : Packet) : Prop where
  offer : m.initiator=profileOffer → OfferTrue q k m
  ack : m.initiator=profileAck → AckTrue room q k m

section Growth
variable {room : Room ι} {q : BitVec 32} {i j : ι} {k k' k'' : Board} {s : Session} {m : Packet}
theorem Grows.refl : Grows room i k k := ⟨fun _ _ h => h,fun _ _ h => h,fun _ _ => ⟨rfl,rfl⟩⟩

theorem Owned.grow (hk : Owned room k) (h : Grows room i k k') : Owned room k' := by
  intro r hr
  have hsame:=h.others r (Or.inl (hr i).symm)
  rw [hsame.1,hsame.2]
  exact hk r hr

theorem Grows.trans (h : Grows room i k k') (h' : Grows room i k' k'') : Grows room i k k'' where
  offer r c hr := h'.offer r c (h.offer r c hr)
  acks r b hr := h'.acks r b (h.acks r b hr)
  others r hr :=
    ⟨(h'.others r hr).1.trans (h.others r hr).1,(h'.others r hr).2.trans (h.others r hr).2⟩

def Board.withAcks (k : Board) (r : ℕ) (mask : BitVec 32) : Board :=
  { k with acks := update k.acks r mask }

theorem Grows.withAcks {mask : BitVec 32} (hseat : room.seat i < room.slotCount)
    (h : ∀ b,(k.acks (room.seat i)).getLsbD b → mask.getLsbD b) :
    Grows room i k (k.withAcks (room.seat i) mask) where
  offer _ _ hr := hr
  acks r b hr := by
    by_cases he : r=room.seat i
    · subst he
      simp only [Board.withAcks,update_self]
      exact h b hr
    · simpa only [Board.withAcks,update_of_ne he] using hr
  others r hr := by
    have he : r≠room.seat i := by
      rintro rfl
      rcases hr with hr | hr
      · exact hr rfl
      · omega
    exact ⟨rfl,update_of_ne he ..⟩

def Board.withOffer (k : Board) (r : ℕ) (c : ProfileCaps) : Board :=
  { k with offer := update k.offer r (some c) }

theorem Grows.withOffer (c : ProfileCaps) (hseat : room.seat i < room.slotCount)
    (h : k.offer (room.seat i)=none) : Grows room i k (k.withOffer (room.seat i) c) where
  offer r c' hr := by
    have he : r≠room.seat i := by
      rintro rfl
      rw [h] at hr
      cases hr
    simpa only [Board.withOffer,update_of_ne he] using hr
  acks _ _ hr := hr
  others r hr := by
    have he : r≠room.seat i := by
      rintro rfl
      rcases hr with hr | hr
      · exact hr rfl
      · omega
    exact ⟨update_of_ne he ..,rfl⟩

theorem Grows.caps (h : Grows room i k k') {r : ℕ} (hr : (k.offer r).isSome) :
    k'.caps r=k.caps r := by
  obtain ⟨c,hc⟩ := Option.isSome_iff_exists.mp hr
  rw [Board.caps,Board.caps,hc,h.offer r c hc]

theorem Held.grow (hs : Held q k s) (h : Grows room i k k') : Held q k' s :=
  { hs with known := fun r hr => h.offer r _ (hs.known r hr) }
theorem Decided.grow (hs : Decided k s) (h : Grows room i k k') : Decided k' s :=
  { hs with told := fun r hr => h.acks r _ (hs.told r hr) }

theorem Truthful.grow (hm : Truthful room q k m) (h : Grows room i k k') :
    Truthful room q k' m where
  offer ho := { hm.offer ho with known := h.offer _ _ (hm.offer ho).known }
  ack ha := by
    have hack:=hm.ack ha
    refine { hack with
      known := fun r hr => ?_,decision := ?_,held := fun r hr => h.acks _ r (hack.held r hr) }
    · obtain ⟨c,hc⟩ := Option.isSome_iff_exists.mp (hack.known r hr)
      rw [h.offer r c hc]
      rfl
    · rw [hack.decision]
      exact (decision_congr room.le_maxSlots fun r hr => h.caps (hack.known r hr)).symm

theorem Good.grow_other (hs : Good room q k j s) (hj : j≠i) (h : Grows room i k k') :
    Good room q k' j s := by
  have hsame:=h.others (room.seat j) (by
    by_cases hseat : room.seat i < room.slotCount
    · exact Or.inl fun he => hj (room.seat_unique i j hseat he)
    by_cases he : room.seat j=room.seat i
    · exact Or.inr (by omega)
    · exact Or.inl he)
  exact {
    cfg := hs.cfg
    unrefused := hs.unrefused
    acks := hsame.2.trans hs.acks
    idle := fun ha => ⟨(hs.idle ha).1,hsame.1.trans (hs.idle ha).2⟩
    held := fun ha => (hs.held ha).grow h
    waiting := hs.waiting
    decided := fun ha ho => (hs.decided ha ho).grow h }

end Growth

section Steps
variable {room : Room ι} {q : BitVec 32} {i : ι} {k : Board} {s : Session} {m : Packet}
theorem Good.seat_lt (hs : Good room q k i s) (ha : s.profiles.active) :
    room.seat i < room.slotCount := by
  have h:=(hs.held ha).seated
  rwa [hs.cfg,room.same_slotCount] at h

theorem Good.slotCount_le (hs : Good room q k i s) : s.cfg.slotCount ≤ maxSlots := by
  rw [hs.cfg,room.same_slotCount]
  exact room.le_maxSlots

theorem profilesChoose_decides (hs : Held q k s) (hcount : s.cfg.slotCount ≤ maxSlots)
    (hall : s.profiles.offers=s.profiles.occupied) (hacks : s.profiles.acks=0) :
    profilesChoose s={ s with profiles := { s.profiles with
      selected := (decision s.profiles.qualification s.cfg.slotCount s.profiles.occupied
        s.profiles.caps).1
      transcript := (decision s.profiles.qualification s.cfg.slotCount s.profiles.occupied
        s.profiles.caps).2
      acks := seatBit s.cfg.localSlot,acknowledgedBy := seatBit s.cfg.localSlot
      dirty := true } } := by
  have hcommon : (commonAndHash s.profiles.qualification s.cfg.slotCount s.profiles.occupied
      s.profiles.caps).1.getLsbD 0 :=
    (getLsbD_common hcount (by decide)).mpr fun r _ hr => hs.portable r (hall ▸ hr)
  unfold profilesChoose
  dsimp only
  rw [if_neg (by simp [hall,hacks]),if_neg (by rw [and_one_eq_zero,hcommon]; decide)]

theorem Good.choose (hheld : Held q k s) (hcfg : s.cfg=room.cfg i)
    (hrefused : s.profiles.refused=false) (hactive : s.profiles.active)
    (hacks : s.profiles.acks=0) (hback : s.profiles.acknowledgedBy=0)
    (hboard : k.acks (room.seat i)=0) :
    ∃ k',Grows room i k k' ∧ Good room q k' i (profilesChoose s) := by
  have h8:=maxSlots_lt
  have hcount : s.cfg.slotCount ≤ maxSlots := by
    rw [hcfg,room.same_slotCount]
    exact room.le_maxSlots
  have hlocal : s.cfg.localSlot=room.seat i := by rw [hcfg,Room.seat]
  have hseated:=hheld.seated
  by_cases hall : s.profiles.offers=s.profiles.occupied
  · rw [profilesChoose_decides hheld hcount hall hacks]
    have hseat : room.seat i < room.slotCount := by
      rw [← hlocal,← room.same_slotCount i,← hcfg]
      exact hseated
    have hgrow : Grows room i k (k.withAcks (room.seat i) (seatBit s.cfg.localSlot)) :=
      .withAcks hseat fun b hb => by simp [hboard] at hb
    have hbit : ∀ r,(seatBit s.cfg.localSlot).getLsbD r → r=s.cfg.localSlot :=
      fun r hr => (getLsbD_seatBit (by omega)).mp hr
    have hown : (seatBit s.cfg.localSlot).getLsbD s.cfg.localSlot :=
      (getLsbD_seatBit (by omega)).mpr rfl
    refine ⟨_,hgrow,hcfg,hrefused,update_self ..,?_,?_,?_,?_⟩
    · intro hidle
      rw [hactive] at hidle
      cases hidle
    · intro _
      exact { hheld with }
    · intro _ hne
      exact absurd hall hne
    · intro _ _
      refine ⟨hown,fun r hr => ?_,rfl,fun r hr => ?_⟩
      · rw [hbit r hr]
        exact hheld.within _ hheld.own
      · rw [hbit r hr]
        simp only [Board.withAcks,hlocal,update_self]
        rw [← hlocal]
        exact hown
  · have hsame : profilesChoose s=s := by
      unfold profilesChoose
      exact if_pos (Or.inl hall)
    rw [hsame]
    refine ⟨k,.refl,hcfg,hrefused,hboard.trans hacks.symm,?_,fun _ => hheld,?_,?_⟩
    · intro hidle
      rw [hactive] at hidle
      cases hidle
    · exact fun _ _ => ⟨hacks,hback⟩
    · exact fun _ h => absurd h hall

section
variable (hs : Good room q k i s)
include hs
theorem receiveOffer_again (ha : s.profiles.active)
    (hslot : m.localSlot<s.cfg.slotCount) (hm : OfferTrue q k m)
    (hhave : s.profiles.offers.getLsbD m.localSlot) : receiveOffer s m=s := by
  have h8:=maxSlots_lt
  have hcount:=hs.slotCount_le
  have hcaps : s.profiles.caps m.localSlot=m.caps :=
    Option.some.inj ((hs.held ha).known _ hhave ▸ hm.known)
  have hmask : s.profiles.offers ||| seatBit m.localSlot=s.profiles.offers := by
    refine BitVec.eq_of_getLsbD_eq fun r _ => ?_
    rw [seatBit,BitVec.getLsbD_or_twoPow (by omega)]
    by_cases he : m.localSlot=r
    · rw [← he,hhave,Bool.true_or]
    · simp [he]
  have hkeep : update s.profiles.caps m.localSlot m.caps=s.profiles.caps := by
    rw [← hcaps,update_eq_self]
  have hdone : s.profiles.offers≠s.profiles.occupied ∨ s.profiles.acks≠0 := by
    by_cases hall : s.profiles.offers=s.profiles.occupied
    · exact Or.inr (BitVec.ne_zero_of_getLsbD (hs.decided ha hall).own)
    · exact Or.inl hall
  unfold receiveOffer
  dsimp only
  rw [if_neg,hkeep,hmask]
  · unfold profilesChoose
    exact if_pos hdone
  · rw [and_one_eq_zero,hm.portable,hcaps]
    simp

theorem Good.receiveOffer (ha : s.profiles.active)
    (hslot : m.localSlot<s.cfg.slotCount) (hother : m.localSlot≠s.cfg.localSlot)
    (hocc : s.profiles.occupied.getLsbD m.localSlot) (hm : OfferTrue q k m) :
    ∃ k',Grows room i k k' ∧ Good room q k' i (receiveOffer s m) := by
  have h8:=maxSlots_lt
  have hcount:=hs.slotCount_le
  cases hhave : s.profiles.offers.getLsbD m.localSlot with
  | true =>
    rw [receiveOffer_again hs ha hslot hm hhave]
    exact ⟨k,.refl,hs⟩
  | false =>
    have hnew : s.profiles.offers≠s.profiles.occupied := by
      intro h
      rw [h,hocc] at hhave
      cases hhave
    obtain ⟨hacks,hback⟩ := hs.waiting ha hnew
    have hheld:=hs.held ha
    unfold Profiles.receiveOffer
    dsimp only
    rw [if_neg (by
      rw [and_one_eq_zero,hm.portable,(seat_clear (by omega)).mpr hhave]
      simp)]
    have hbit : ∀ r,(s.profiles.offers ||| seatBit m.localSlot).getLsbD r →
        s.profiles.offers.getLsbD r ∧ r≠m.localSlot ∨ r=m.localSlot := by
      intro r hr
      by_cases he : r=m.localSlot
      · exact Or.inr he
      rw [seatBit,BitVec.getLsbD_or_twoPow (by omega)] at hr
      simp only [Ne.symm he,decide_false,Bool.or_false] at hr
      exact Or.inl ⟨hr,he⟩
    refine Good.choose ?_ hs.cfg hs.unrefused ha hacks hback (hs.acks.trans hacks)
    refine ⟨hheld.seated,hheld.qualification,hheld.occupied,?_,?_,?_,?_,?_⟩
    · dsimp only
      rw [BitVec.getLsbD_or,hheld.own,Bool.true_or]
    · intro r hr
      rcases hbit r hr with ⟨hr,-⟩ | rfl
      · exact hheld.within r hr
      · exact hocc
    · intro r hr
      dsimp only
      rcases hbit r hr with ⟨hr,hne⟩ | rfl
      · rw [update_of_ne hne]
        exact hheld.known r hr
      · rw [update_self]
        exact hm.known
    · intro r hr
      dsimp only
      rcases hbit r hr with ⟨hr,hne⟩ | rfl
      · rw [update_of_ne hne]
        exact hheld.portable r hr
      · rw [update_self]
        exact hm.portable
    · dsimp only
      rw [update_of_ne (Ne.symm hother)]
      exact hheld.narrow

theorem Good.mask_eq (ha : s.profiles.active) : s.profiles.occupied=roomMask room := by
  rw [(hs.held ha).occupied,hs.cfg,occupiedBits_room]

theorem Good.decision_eq (ha : s.profiles.active) (hall : s.profiles.offers=s.profiles.occupied) :
    (s.profiles.selected,s.profiles.transcript) =
      decision q room.slotCount (roomMask room) k.caps := by
  have hheld:=hs.held ha
  rw [(hs.decided ha hall).decision,hheld.qualification,hs.mask_eq ha,hs.cfg,room.same_slotCount]
  refine decision_congr room.le_maxSlots fun r hr => ?_
  rw [Board.caps,hheld.known r (by rw [hall,hs.mask_eq ha,hr])]
  rfl

theorem Good.receiveAck (ha : s.profiles.active)
    (hslot : m.localSlot<s.cfg.slotCount) (hocc : s.profiles.occupied.getLsbD m.localSlot)
    (hm : AckTrue room q k m) : ∃ k',Grows room i k k' ∧ Good room q k' i (receiveAck s m) := by
  have h8:=maxSlots_lt
  have hcount:=hs.slotCount_le
  have hheld:=hs.held ha
  have hlocal : s.cfg.localSlot<32 := Nat.lt_of_lt_of_le hheld.seated (by omega)
  unfold Profiles.receiveAck
  dsimp only
  by_cases hall : s.profiles.offers=s.profiles.occupied
  · obtain ⟨hsel,htr⟩ := Prod.mk.inj (hm.decision.trans (hs.decision_eq ha hall).symm)
    have hdec:=hs.decided ha hall
    have hwithin : m.targetTick &&& ~~~s.profiles.occupied=0 := by
      rw [BitVec.and_not_eq_zero,hs.mask_eq ha]
      exact hm.within
    have hown : m.targetTick &&& seatBit m.localSlot≠0 := (seat_set (by omega)).mpr hm.own
    rw [if_neg (not_not.mpr hall),if_neg (by
      simp only [hsel,htr,hm.correctedSlot,hwithin,ne_eq,not_true_eq_false,false_or,or_false]
      exact hown)]
    have hgrow : Grows room i k
        (k.withAcks (room.seat i) (s.profiles.acks ||| seatBit m.localSlot)) := by
      refine .withAcks (hs.seat_lt ha) fun b hb => ?_
      rw [BitVec.getLsbD_or,← hs.acks,hb,Bool.true_or]
    refine ⟨_,hgrow,hs.cfg,hs.unrefused,update_self ..,?_,?_,?_,?_⟩
    · intro hidle
      rw [show s.profiles.active=true from ha] at hidle
      cases hidle
    · intro _
      have hk:=hheld.grow hgrow
      exact { hk with }
    · intro _ hne
      exact absurd hall hne
    · intro _ _
      refine ⟨?_,fun r hr => ?_,hdec.decision,fun r hr => ?_⟩
      · dsimp only
        rw [BitVec.getLsbD_or,hdec.own,Bool.true_or]
      · dsimp only at hr ⊢
        rw [seatBit,BitVec.getLsbD_or_twoPow (by omega),Bool.or_eq_true,decide_eq_true_eq] at hr
        rcases hr with hr | rfl
        · exact hdec.within r hr
        · exact hocc
      · refine hgrow.acks r _ ?_
        dsimp only at hr
        split at hr
        · next hback =>
          rw [seatBit,BitVec.getLsbD_or_twoPow (by omega),Bool.or_eq_true,decide_eq_true_eq] at hr
          rcases hr with hr | rfl
          · exact hdec.told r hr
          · exact hm.held _ ((seat_set hlocal).mp hback)
        · exact hdec.told r hr
  · rw [if_pos hall]
    exact ⟨k,.refl,hs⟩

theorem Good.handleDecoded (hm : Truthful room q k m) :
    ∃ k',Grows room i k k' ∧ Good room q k' i (handleDecoded s m) := by
  have h8:=maxSlots_lt
  have hcount:=hs.slotCount_le
  have hkeep : ∃ k',Grows room i k k' ∧ Good room q k' i s := ⟨k,.refl,hs⟩
  unfold Profiles.handleDecoded
  split
  · exact hkeep
  split
  · exact hkeep
  split
  · next hop =>
    unfold profilesReceive
    dsimp only
    split
    · exact hkeep
    next hguard =>
    simp only [Bool.or_eq_true,Bool.not_eq_true',decide_eq_true_eq,beq_iff_eq,not_or,
      Bool.not_eq_false,not_le] at hguard
    obtain ⟨⟨⟨ha,-⟩,hslot⟩,hother⟩ := hguard
    split
    · exact hkeep
    next hbit =>
    have hocc:=(seat_set (by omega)).mp hbit
    have hq:=(hs.held ha).qualification
    split
    · next hbad =>
      rcases hop with hop | hop
      · exact absurd hbad (by simp [hq,(hm.offer hop).epochId,(hm.offer hop).flags])
      · exact absurd hbad (by simp [hq,(hm.ack hop).epochId,(hm.ack hop).flags])
    · split
      · next hoffer => exact hs.receiveOffer ha hslot hother hocc (hm.offer hoffer)
      · next hoffer =>
        exact hs.receiveAck ha hslot hocc (hm.ack (hop.resolve_left hoffer))
  · exact hkeep

theorem Good.handleAll {ms : List Packet} (hms : ∀ m∈ms,Truthful room q k m) :
    ∃ k',Grows room i k k' ∧ Good room q k' i (ms.foldl Profiles.handleDecoded s) := by
  induction ms generalizing k s with
  | nil => exact ⟨k,.refl,hs⟩
  | cons m ms ih =>
    obtain ⟨k₁,hk₁,hs₁⟩ := hs.handleDecoded (hms m mem_cons_self)
    obtain ⟨k₂,hk₂,hs₂⟩ := ih hs₁ fun m' hm' => (hms m' (mem_cons_of_mem _ hm')).grow hk₁
    exact ⟨k₂,hk₁.trans hk₂,hs₂⟩

theorem Good.elsewhere (phase : DelaySync.Phase) (simTick epoch : ℕ) :
    Good room q k i { s with phase := phase,simTick := simTick,inputEpoch := epoch } :=
  ⟨hs.cfg,hs.unrefused,hs.acks,hs.idle,fun ha => ⟨(hs.held ha).seated,
    (hs.held ha).qualification,(hs.held ha).occupied,(hs.held ha).own,(hs.held ha).within,
    (hs.held ha).known,(hs.held ha).portable,(hs.held ha).narrow⟩,hs.waiting,fun ha ho =>
    ⟨(hs.decided ha ho).own,(hs.decided ha ho).within,(hs.decided ha ho).decision,
      (hs.decided ha ho).told⟩⟩

end

theorem sendRbSync_mem {e a b c : BitVec 32} {x : BitVec 8} {op flags : ℕ}
    (h : m∈sendRbSync s e a b c x op flags) :
    m=⟨s.cfg.protocolMagic,s.cfg.sessionId,s.cfg.wireId,s.inputEpoch,e,a,b,c,x,op,flags⟩ := by
  unfold sendRbSync at h
  split at h
  · cases h
  · exact mem_singleton.mp h

section
variable (hs : Good room q k i s)
include hs
theorem Good.wireId_eq (ha : s.profiles.active) : s.cfg.wireId=room.seat i := by
  rw [hs.cfg]
  exact room.wire_seat i (hs.seat_lt ha)

theorem Good.sendOffer (ha : s.profiles.active) (hm : m∈sendOffer s) : Truthful room q k m := by
  have hheld:=hs.held ha
  have hlocal : s.cfg.localSlot=room.seat i := by rw [hs.cfg,Room.seat]
  rw [sendRbSync_mem hm]
  refine ⟨fun _ => ⟨hheld.qualification,rfl,?_,hheld.portable _ hheld.own⟩,
    fun h => absurd h (show profileOffer≠profileAck by decide)⟩
  -- The architecture passes through the eight bits of `corrected_slot`.
  have harch : ((s.profiles.caps s.cfg.localSlot).architecture.setWidth 8).setWidth 32 =
      (s.profiles.caps s.cfg.localSlot).architecture := by
    have hnarrow:=hheld.narrow
    refine BitVec.eq_of_toNat_eq ?_
    simp only [BitVec.toNat_setWidth]
    omega
  dsimp only [Packet.caps]
  rw [hs.wireId_eq ha,← hlocal,hheld.known _ hheld.own,harch]

theorem Good.sendAck (ha : s.profiles.active)
    (hacks : s.profiles.acks≠0) (hm : m∈sendAck s) : Truthful room q k m := by
  have hheld:=hs.held ha
  have hall : s.profiles.offers=s.profiles.occupied := by
    by_contra hne
    exact hacks (hs.waiting ha hne).1
  have hdec:=hs.decided ha hall
  have hlocal : s.cfg.localSlot=room.seat i := by rw [hs.cfg,Room.seat]
  rw [sendRbSync_mem hm]
  refine ⟨fun h => absurd h (show profileAck≠profileOffer by decide),
    fun _ => ⟨hheld.qualification,rfl,rfl,?_,hs.decision_eq ha hall,?_,?_,?_⟩⟩
  · intro r hr
    rw [hheld.known r (by rw [hall,hs.mask_eq ha,hr])]
    rfl
  · intro r hr
    dsimp only
    rw [hs.wireId_eq ha,hs.acks]
    exact hr
  · dsimp only
    rw [hs.wireId_eq ha,← hlocal]
    exact hdec.own
  · rw [← hs.mask_eq ha]
    exact hdec.within

theorem Good.profilesDrive (now : ℕ) : Good room q k i (profilesDrive now s).1 ∧
      ∀ m∈(profilesDrive now s).2,Truthful room q k m := by
  unfold Profiles.profilesDrive
  dsimp only
  split
  · exact ⟨hs,forall_mem_nil _⟩
  next hguard =>
  have ha : s.profiles.active := by simp_all
  have hheld:=hs.held ha
  split
  · exact ⟨hs,forall_mem_nil _⟩
  split
  · exact ⟨hs,forall_mem_nil _⟩
  refine ⟨⟨hs.cfg,hs.unrefused,hs.acks,fun hidle => ?_,fun _ => ?_,hs.waiting,
    fun _ ho => ?_⟩,fun m hm => ?_⟩
  · rw [show s.profiles.active=true from ha] at hidle
    cases hidle
  · exact { hheld with }
  · have hdec:=hs.decided ha ho
    exact { hdec with }
  · rcases mem_append.mp hm with hm | hm
    · exact hs.sendOffer ha hm
    split at hm
    · next hacks => exact hs.sendAck ha hacks hm
    · cases hm

theorem Good.profilesBegin (caps : ProfileCaps) :
    ∃ k',Grows room i k k' ∧ Good room q k' i ((profilesBegin s q caps).getD s) := by
  have h8:=maxSlots_lt
  have hcount:=hs.slotCount_le
  unfold Profiles.profilesBegin
  split
  · exact ⟨k,.refl,hs⟩
  next hguard =>
  simp only [not_or,Bool.not_eq_true,Bool.not_eq_false',not_lt] at hguard
  obtain ⟨-,hportable,hnarrow,hseat,ha,hocc,-,-⟩ := hguard
  obtain ⟨hzero,hnone⟩ := hs.idle ha
  have hlocal : s.cfg.localSlot=room.seat i := by rw [hs.cfg,Room.seat]
  have hlt : s.cfg.localSlot<s.cfg.slotCount := by
    rw [Config.isObserver,decide_eq_false_iff_not,not_le] at hseat
    exact hseat
  have hseat : room.seat i < room.slotCount := by
    rw [← hlocal,← room.same_slotCount i,← hs.cfg]
    exact hlt
  have hgrow:=Grows.withOffer caps hseat hnone
  have hbit : ∀ r,(seatBit s.cfg.localSlot).getLsbD r → r=s.cfg.localSlot :=
    fun r hr => (getLsbD_seatBit (by omega)).mp hr
  have hheld : Held q (k.withOffer (room.seat i) caps) { s with profiles := {
      active := true,qualification := q,occupied := 0 ||| occupiedBits s.cfg
      caps := update (fun _ => {}) s.cfg.localSlot caps
      offers := seatBit s.cfg.localSlot,dirty := true } } := by
    refine ⟨hlt,rfl,BitVec.zero_or,?_,fun r hr => ?_,fun r hr => ?_,fun r hr => ?_,?_⟩
    · exact (getLsbD_seatBit (by omega)).mpr rfl
    · rw [hbit r hr]
      dsimp only
      rw [BitVec.getLsbD_or,getLsbD_occupiedBits hcount,hocc,Bool.or_true]
    · rw [hbit r hr]
      dsimp only [Board.withOffer]
      rw [hlocal,update_self,update_self]
    · rw [hbit r hr]
      dsimp only
      rw [update_self]
      rwa [and_one_eq_zero,Bool.not_eq_false] at hportable
    · dsimp only
      rw [update_self]
      exact hnarrow
  have hboard : (k.withOffer (room.seat i) caps).acks (room.seat i)=0 := by
    rw [Board.withOffer,hs.acks,hzero]
  rw [Option.getD_some,hzero]
  obtain ⟨k',hk',hgood⟩ := Good.choose hheld hs.cfg rfl rfl rfl rfl hboard
  exact ⟨k',hgrow.trans hk',hgood⟩

end
end Steps

variable (room : Room ι)
def agreementFacts (q : BitVec 32) : Net.Facts ι Session Packet Unit Board where
  grow := Grows room
  node k i s := Good room q k i s
  msg := Truthful room q
  log k _ := Owned room k

theorem agreementFacts_stable (q : BitVec 32) : (agreementFacts room q).Stable where
  node hj hk hs := hs.grow_other hj hk
  msg hk hm := hm.grow hk

theorem good_fresh (q : BitVec 32) (i : ι) :
    Good room q ⟨fun _ => none,fun _ => 0⟩ i (freshSession (room.cfg i)) where
  cfg := rfl
  unrefused := rfl
  acks := rfl
  idle _ := ⟨rfl,rfl⟩
  held h := by cases h
  waiting h := by cases h
  decided h := by cases h

variable {room : Room ι} {w : Net ι Session Packet Unit}
theorem call_matches {i : ι}
    {c : Call} {k : Board} (hw : (agreementFacts room q).Describe k w) (hok : Honest q w i c)
    (hin : ∀ m∈callInputs c,Truthful room q k m) :
    ∃ k',(agreementFacts room q).Matches i k k' (nodeSpec.act i c (w.node i)) w.log := by
  have hs : Good room q k i (w.node i) := hw.node i
  have hlog : Owned room k := hw.log
  cases c with
  | begin q' caps =>
    cases hok
    obtain ⟨k',hk',hs'⟩ := hs.profilesBegin caps
    exact ⟨k',hk',hs',forall_mem_nil _,hlog.grow hk'⟩
  | elsewhere phase simTick epoch =>
    exact ⟨k,.refl,hs.elsewhere phase simTick epoch,forall_mem_nil _,hlog⟩
  | sync e a b c x op flags =>
    refine ⟨k,.refl,hs,fun m hm => ?_,hlog⟩
    rw [sendRbSync_mem hm]
    exact ⟨fun h => absurd h hok.1,fun h => absurd h hok.2⟩
  | pump now early phase late =>
    obtain ⟨k₁,hk₁,hs₁⟩ := hs.handleAll fun m hm => hin m (mem_append_left _ hm)
    obtain ⟨hs₂,hout⟩ := (hs₁.elsewhere phase _ _).profilesDrive now
    obtain ⟨k₂,hk₂,hs₃⟩ := hs₂.handleAll fun m hm => (hin m (mem_append_right _ hm)).grow hk₁
    have hk:=hk₁.trans hk₂
    exact ⟨k₂,hk,hs₃,fun m hm => (hout m hm).grow hk₂,hlog.grow hk⟩

theorem reachable_described [DecidableEq ι] (hw : Reachable room q w) :
    ∃ k,(agreementFacts room q).Describe k w := by
  refine Net.invariant (agreementFacts_stable room q) (fun w hinit => ?_) ?_ hw
  · refine ⟨⟨fun _ => none,fun _ => 0⟩,fun i => ?_,fun m hm => ?_,fun _ _ => ⟨rfl,rfl⟩⟩
    · rw [hinit.1 i]
      exact good_fresh room q i
    · rw [hinit.2] at hm
      cases hm
  · exact fun w i c k hk hok hin => call_matches hk hok hin

structure Keeps (s s' : Session) : Prop where
  cfg : s'.cfg=s.cfg
  offers : ∀ r,s.profiles.offers.getLsbD r → s'.profiles.offers.getLsbD r
  caps : ∀ r,s.profiles.offers.getLsbD r → s'.profiles.caps r=s.profiles.caps r

section Keep
variable {s s' s'' : Session}
theorem Keeps.refl (s : Session) : Keeps s s := ⟨rfl,fun _ h => h,fun _ _ => rfl⟩

theorem Keeps.trans (h : Keeps s s') (h' : Keeps s' s'') : Keeps s s'' :=
  ⟨h'.cfg.trans h.cfg,fun r hr => h'.offers r (h.offers r hr),
    fun r hr => (h'.caps r (h.offers r hr)).trans (h.caps r hr)⟩

theorem Keeps.of_none (h : s.profiles.offers=0) (hcfg : s'.cfg=s.cfg) : Keeps s s' :=
  ⟨hcfg,fun r hr => by simp [h] at hr,fun r hr => by simp [h] at hr⟩

theorem Keeps.choose (s : Session) : Keeps s (profilesChoose s) := by
  unfold profilesChoose
  dsimp only
  split
  · exact .refl s
  · split <;> exact ⟨rfl,fun _ h => h,fun _ _ => rfl⟩

theorem Keeps.receiveOffer {m : Packet} (hslot : m.localSlot<32) : Keeps s (receiveOffer s m) := by
  unfold Profiles.receiveOffer
  dsimp only
  split
  · exact ⟨rfl,fun _ h => h,fun _ _ => rfl⟩
  next hguard =>
  have hstore : Keeps s { s with profiles := { s.profiles with
      caps := update s.profiles.caps m.localSlot m.caps
      offers := s.profiles.offers ||| seatBit m.localSlot } } := by
    refine ⟨rfl,fun r hr => ?_,fun r hr => ?_⟩
    · dsimp only
      rw [BitVec.getLsbD_or,hr,Bool.true_or]
    · dsimp only
      by_cases he : r=m.localSlot
      · subst he
        rw [update_self]
        by_contra hne
        exact hguard (Or.inr ⟨(seat_set hslot).mpr hr,hne⟩)
      · rw [update_of_ne he]
  exact hstore.trans (.choose _)

theorem Keeps.handleDecoded (hcount : s.cfg.slotCount ≤ maxSlots) (m : Packet) :
    Keeps s (handleDecoded s m) := by
  have h8:=maxSlots_lt
  unfold Profiles.handleDecoded
  split
  · exact .refl s
  split
  · exact .refl s
  split
  · unfold profilesReceive
    dsimp only
    split
    · exact .refl s
    next hguard =>
    have hslot : m.localSlot<s.cfg.slotCount := by
      simp only [Bool.or_eq_true,decide_eq_true_eq,not_or,not_le] at hguard
      exact hguard.1.2
    split
    · exact .refl s
    split
    · exact ⟨rfl,fun _ h => h,fun _ _ => rfl⟩
    split
    · exact .receiveOffer (by omega)
    unfold receiveAck
    dsimp only
    split
    · exact .refl s
    · split <;> exact ⟨rfl,fun _ h => h,fun _ _ => rfl⟩
  · exact .refl s

theorem Keeps.handleAll (ms : List Packet) (hcount : s.cfg.slotCount ≤ maxSlots) :
    Keeps s (ms.foldl Profiles.handleDecoded s) := by
  induction ms generalizing s with
  | nil => exact .refl s
  | cons m ms ih =>
    have hm:=Keeps.handleDecoded hcount m
    exact hm.trans (ih (by rwa [hm.cfg]))

theorem Keeps.callAct {room : Room ι} {q : BitVec 32} {k : Board} {i : ι}
    (hs : Good room q k i s) (c : Call) : Keeps s (callAct c s).1 := by
  have hcount:=hs.slotCount_le
  cases c with
  | begin q' caps =>
    dsimp only [Profiles.callAct]
    unfold Profiles.profilesBegin
    split
    · exact .refl s
    next hguard =>
    simp only [not_or,Bool.not_eq_true] at hguard
    have hzero : s.profiles.offers=0 := by rw [(hs.idle hguard.2.2.2.2.1).1]
    exact .of_none hzero (Keeps.choose _).cfg
  | elsewhere | sync => exact ⟨rfl,fun _ h => h,fun _ _ => rfl⟩
  | pump now early phase late =>
    dsimp only [Profiles.callAct]
    generalize hearly : early.foldl Profiles.handleDecoded s=s₁
    have h₁ : Keeps s s₁ := hearly ▸ Keeps.handleAll early hcount
    have h₂ : Keeps s₁ (profilesDrive now { s₁ with phase := phase }).1 := by
      unfold profilesDrive
      dsimp only
      split
      · exact ⟨rfl,fun _ h => h,fun _ _ => rfl⟩
      split
      · exact ⟨rfl,fun _ h => h,fun _ _ => rfl⟩
      · split <;> exact ⟨rfl,fun _ h => h,fun _ _ => rfl⟩
    have h₁₂:=h₁.trans h₂
    exact h₁₂.trans (Keeps.handleAll late (by rwa [h₁₂.cfg]))

theorem profilesPeer_eq_some {r : ℕ} {c : ProfileCaps} (hcount : s.cfg.slotCount ≤ maxSlots) :
    profilesPeer s r=some c ↔
      r<s.cfg.slotCount ∧ s.profiles.offers.getLsbD r ∧ s.profiles.caps r=c := by
  have h8:=maxSlots_lt
  unfold profilesPeer
  by_cases hr : r<s.cfg.slotCount
  · simp only [seat_clear (show r<32 by omega)]
    cases s.profiles.offers.getLsbD r <;> simp [hr]
  · simp [hr,not_lt.mp hr]

theorem Keeps.peer (h : Keeps s s') (hcount : s.cfg.slotCount ≤ maxSlots) {r : ℕ}
    {c : ProfileCaps} (hp : profilesPeer s r=some c) : profilesPeer s' r=some c := by
  rw [profilesPeer_eq_some hcount] at hp
  rw [profilesPeer_eq_some (by rwa [h.cfg]),h.cfg]
  exact ⟨hp.1,h.offers r hp.2.1,(h.caps r hp.2.1).trans hp.2.2⟩

end Keep

theorem peer_kept [DecidableEq ι] (hw : Reachable room q w) (cs : List (ι × Call))
    (hcs : Net.RunOk nodeSpec (Honest q) w cs) {i : ι} {c : ProfileCaps}
    (hp : profilesPeer (w.node i) r=some c) :
    profilesPeer ((Net.run nodeSpec w cs).node i) r=some c := by
  induction cs generalizing w with
  | nil => exact hp
  | cons call cs ih =>
    refine ih (.call call.1 call.2 hw hcs.1 hcs.2.1) hcs.2.2 ?_
    obtain ⟨k,hk⟩ := reachable_described hw
    by_cases he : i=call.1
    · subst he
      rw [Net.next_node_self]
      have hs : Good room q k _ _ := hk.node call.1
      exact (Keeps.callAct hs call.2).peer hs.slotCount_le hp
    · simp only [Net.next,update_of_ne he]
      exact hp

/-- `p` is the highest profile in the offers that the session holds of all occupied
seats. -/
structure BestCommon (s : Session) (p : BitVec 32) : Prop where
  common : ∀ r,s.cfg.slotOccupied r → ∃ c,profilesPeer s r=some c ∧ c.profiles.getLsbD p.toNat
  best : ∀ b,p.toNat<b → b<32 → ∃ r c,s.cfg.slotOccupied r ∧
    profilesPeer s r=some c ∧ c.profiles.getLsbD b=false

section Agreement
variable {room : Room ι} {q : BitVec 32} {k : Board} {i j : ι} {s : Session}
theorem profilesStatus_eq_agreed {p t : BitVec 32} (h : profilesStatus s=.agreed p t) :
    s.profiles.active ∧ s.profiles.acks=s.profiles.occupied ∧
      p=s.profiles.selected ∧ t=s.profiles.transcript := by
  unfold profilesStatus at h
  split at h
  · cases h
  next hguard =>
  split at h
  · cases h
  next hacks =>
  cases h
  refine ⟨by simp_all,not_not.mp hacks,rfl,rfl⟩

section
variable (hs : Good room q k i s)
include hs
theorem Good.all_offers (ha : s.profiles.active)
    (hacks : s.profiles.acks=s.profiles.occupied) : s.profiles.offers=s.profiles.occupied := by
  by_contra hne
  have hheld:=hs.held ha
  have hzero:=(hs.waiting ha hne).1
  have hown:=hheld.within _ hheld.own
  rw [← hacks,hzero] at hown
  simp at hown

theorem Good.occupied_iff (ha : s.profiles.active) (r : ℕ) :
    s.profiles.occupied.getLsbD r=s.cfg.slotOccupied r := by
  rw [(hs.held ha).occupied,getLsbD_occupiedBits hs.slotCount_le]

theorem Good.peer_eq (ha : s.profiles.active)
    (hall : s.profiles.offers=s.profiles.occupied) {r : ℕ} (hr : s.cfg.slotOccupied r) :
    profilesPeer s r=k.offer r := by
  have hoffer : s.profiles.offers.getLsbD r := by rw [hall,hs.occupied_iff ha,hr]
  rw [(hs.held ha).known r hoffer,profilesPeer_eq_some hs.slotCount_le]
  exact ⟨Config.lt_slotCount_of_occupied hr,hoffer,rfl⟩

theorem Good.bestCommon (ha : s.profiles.active)
    (hall : s.profiles.offers=s.profiles.occupied) : BestCommon s s.profiles.selected := by
  have hheld:=hs.held ha
  have hcount:=hs.slotCount_le
  generalize hcommon : (commonAndHash s.profiles.qualification s.cfg.slotCount s.profiles.occupied
    s.profiles.caps).1=common
  have hbits : ∀ b<32,common.getLsbD b ↔ ∀ r,s.cfg.slotOccupied r →
      (s.profiles.caps r).profiles.getLsbD b := by
    intro b hb
    rw [← hcommon,getLsbD_common hcount hb]
    simp only [hs.occupied_iff ha]
    exact ⟨fun h r hr => h r (Config.lt_slotCount_of_occupied hr) hr,fun h r _ hr => h r hr⟩
  have hselected : s.profiles.selected=BitVec.ofNat 32 (highestFrom common 31) := by
    rw [← hcommon]
    exact (Prod.mk.inj (hs.decided ha hall).decision).1
  have hle : highestFrom common 31≤31 := highestFrom_le common 31
  have hnat : s.profiles.selected.toNat=highestFrom common 31 := by
    rw [hselected,BitVec.toNat_ofNat,Nat.mod_eq_of_lt (by omega)]
  have hpeer : ∀ r,s.cfg.slotOccupied r → profilesPeer s r=some (s.profiles.caps r) := by
    intro r hr
    rw [hs.peer_eq ha hall hr,hheld.known r (by rw [hall,hs.occupied_iff ha,hr])]
  have hzero : common.getLsbD 0 := (hbits 0 (by decide)).mpr fun r hr =>
    hheld.portable r (by rw [hall,hs.occupied_iff ha,hr])
  refine ⟨fun r hr => ⟨_,hpeer r hr,?_⟩,fun b hb hlt => ?_⟩
  · rw [hnat]
    exact (hbits _ (by omega)).mp (highestFrom_set hzero (by decide)) r hr
  · have hclear : common.getLsbD b=false :=
      highestFrom_max (n := 31) (by decide) (by omega) (by omega)
    by_contra hnone
    have hset : common.getLsbD b := (hbits b hlt).mpr fun r hr => by
      by_contra hne
      exact hnone ⟨r,_,hr,hpeer r hr,Bool.not_eq_true _ ▸ hne⟩
    rw [hclear] at hset
    cases hset

end

theorem board_owner {w : Net ι Session Packet Unit} (hk : (agreementFacts room q).Describe k w)
    {r : ℕ} {c : ProfileCaps} (hc : k.offer r=some c) :
    ∃ o,room.seat o=r ∧ profilesPeer (w.node o) r=some c := by
  have hlog : Owned room k := hk.log
  by_contra hnone
  by_cases howner : ∃ o,room.seat o=r
  · obtain ⟨o,rfl⟩ := howner
    have hs : Good room q k o (w.node o) := hk.node o
    have hlocal : (w.node o).cfg.localSlot=room.seat o := by rw [hs.cfg,Room.seat]
    cases ha : (w.node o).profiles.active with
    | false =>
      rw [(hs.idle ha).2] at hc
      cases hc
    | true =>
      have hheld:=hs.held ha
      refine hnone ⟨o,rfl,(profilesPeer_eq_some hs.slotCount_le).mpr ⟨?_,?_,?_⟩⟩
      · rw [← hlocal]
        exact hheld.seated
      · rw [← hlocal]
        exact hheld.own
      · have hown:=hheld.known _ hheld.own
        rw [hlocal,hc] at hown
        exact (Option.some.inj hown).symm
  · rw [(hlog r fun o ho => howner ⟨o,ho⟩).1] at hc
    cases hc

theorem profilesDrive_sends {now : ℕ} (ha : s.profiles.active)
    (hrefused : s.profiles.refused=false) (hrun : s.phase=.running)
    (hpace : s.profiles.lastTx=0 ∨ 100≤elapsed now s.profiles.lastTx)
    (hback : s.profiles.acknowledgedBy≠s.profiles.occupied) : (profilesDrive now s).2 =
      sendOffer s++if s.profiles.acks≠0 then sendAck s else [] := by
  unfold profilesDrive
  dsimp only
  rw [if_neg (by simp [ha,hrefused,hrun]),if_neg (by simp [hback]),if_neg (by
    rintro ⟨-,hne,hlt⟩
    rcases hpace with h | h
    · exact hne h
    · omega)]

/-- **Startup profiles.** -/
theorem startup_profile_agreement [DecidableEq ι] (room : Room ι) (q : BitVec 32)
    {w : Net ι Session Packet Unit} (hw : Reachable room q w) :
    (∀ i j p t p' t',profilesStatus (w.node i)=.agreed p t →
      profilesStatus (w.node j)=.agreed p' t' → p=p' ∧ t=t' ∧ BestCommon (w.node i) p ∧
        ∀ r,(room.cfg i).slotOccupied r=true → ∃ c,profilesPeer (w.node i) r=some c ∧
          profilesPeer (w.node j) r=some c ∧ ∃ o,room.seat o=r ∧ profilesPeer (w.node o) r=some c) ∧
    (∀ i,(w.node i).profiles.refused=false) ∧
    (∀ cs,Net.RunOk nodeSpec (Honest q) w cs → ∀ i r c,profilesPeer (w.node i) r=some c →
      profilesPeer ((Net.run nodeSpec w cs).node i) r=some c) ∧
    ∀ i now,(w.node i).profiles.active=true → (w.node i).phase=.running →
      (w.node i).profiles.lastTx=0 ∨ 100≤elapsed now (w.node i).profiles.lastTx →
      (profilesDrive now (w.node i)).2=sendOffer (w.node i) ++
          (if (w.node i).profiles.acks≠0 then sendAck (w.node i) else []) ∨
        ∀ r,(room.cfg i).slotOccupied r=true → r≠room.seat i →
          ∃ o,room.seat o=r ∧ (w.node o).profiles.acks.getLsbD (room.seat i)=true := by
  obtain ⟨k,hk⟩ := reachable_described hw
  have hgood : ∀ i,Good room q k i (w.node i) := hk.node
  refine ⟨?_,fun i => (hgood i).unrefused,fun cs hcs i r c hp => peer_kept hw cs hcs hp,?_⟩
  · intro i j p t p' t' hi hj
    obtain ⟨hai,hacki,rfl,rfl⟩ := profilesStatus_eq_agreed hi
    obtain ⟨haj,hackj,rfl,rfl⟩ := profilesStatus_eq_agreed hj
    have halli:=(hgood i).all_offers hai hacki
    have hallj:=(hgood j).all_offers haj hackj
    have hdec:=((hgood i).decision_eq hai halli).trans ((hgood j).decision_eq haj hallj).symm
    obtain ⟨hsel,htr⟩ := Prod.mk.inj hdec
    refine ⟨hsel,htr,(hgood i).bestCommon hai halli,fun r hr => ?_⟩
    have hri : (w.node i).cfg.slotOccupied r=true := by rw [(hgood i).cfg,hr]
    have hrj : (w.node j).cfg.slotOccupied r=true := by
      rw [← (hgood j).occupied_iff haj,(hgood j).mask_eq haj,← (hgood i).mask_eq hai,
        (hgood i).occupied_iff hai,hri]
    have hoffer : (w.node i).profiles.offers.getLsbD r=true := by
      rw [halli,(hgood i).occupied_iff hai,hri]
    have hboard:=((hgood i).held hai).known r hoffer
    exact ⟨_,by rw [(hgood i).peer_eq hai halli hri,hboard],
      by rw [(hgood j).peer_eq haj hallj hrj,hboard],board_owner hk hboard⟩
  · intro i now ha hrun hpace
    by_cases hback : (w.node i).profiles.acknowledgedBy=(w.node i).profiles.occupied
    · refine Or.inr fun r hr _ => ?_
      have hri : (w.node i).cfg.slotOccupied r=true := by rw [(hgood i).cfg,hr]
      have hbit : (w.node i).profiles.acknowledgedBy.getLsbD r=true := by
        rw [hback,(hgood i).occupied_iff ha,hri]
      have hall : (w.node i).profiles.offers=(w.node i).profiles.occupied := by
        by_contra hne
        rw [((hgood i).waiting ha hne).2] at hbit
        simp at hbit
      have htold:=((hgood i).decided ha hall).told r hbit
      rw [(hgood i).cfg] at htold
      have hlog : Owned room k := hk.log
      by_contra hnone
      by_cases howner : ∃ o,room.seat o=r
      · obtain ⟨o,rfl⟩ := howner
        exact hnone ⟨o,rfl,by rw [← (hgood o).acks]; exact htold⟩
      · rw [(hlog r fun o ho => howner ⟨o,ho⟩).2] at htold
        simp at htold
    · exact Or.inl (profilesDrive_sends ha (hgood i).unrefused hrun hpace hback)

def pairStart : Net Bool Session Packet Unit := ⟨fun i => freshSession (pairCfg i),[],[]⟩

def pairOffered : Net Bool Session Packet Unit :=
  Net.run nodeSpec pairStart [(false,.begin 100 ⟨10,20,15,0⟩),(true,.begin 100 ⟨11,21,3,1⟩),
    (false,.pump 1 [] .running []),(true,.pump 1 [] .running [])]

def pairDecided : Net Bool Session Packet Unit :=
  Net.run nodeSpec pairOffered [(false,.pump 2 pairOffered.sent .running []),
    (true,.pump 2 pairOffered.sent .running [])]

def pairAgreed : Net Bool Session Packet Unit :=
  Net.run nodeSpec pairDecided [(false,.pump 3 pairDecided.sent .running []),
    (true,.pump 3 pairDecided.sent .running [])]

theorem pairAgreed_reachable : Reachable Room.pair 100 pairAgreed := by
  have h₀ : Reachable Room.pair 100 pairStart := .start ⟨fun _ => rfl,rfl⟩
  have h₁ : Reachable Room.pair 100 pairOffered := h₀.run _ (by decide +kernel)
  have h₂ : Reachable Room.pair 100 pairDecided := h₁.run _ (by decide +kernel)
  exact h₂.run _ (by decide +kernel)

theorem startup_profile_agreement_pair :
    (∃ t,profilesStatus (pairAgreed.node false)=.agreed 1 t ∧
      profilesStatus (pairAgreed.node true)=.agreed 1 t) ∧
    BestCommon (pairAgreed.node false) 1 := by
  have h:=startup_profile_agreement Room.pair 100 pairAgreed_reachable
  have hi : profilesStatus (pairAgreed.node false) =
      .agreed 1 (pairAgreed.node false).profiles.transcript := by decide +kernel
  have hj : profilesStatus (pairAgreed.node true) =
      .agreed 1 (pairAgreed.node true).profiles.transcript := by decide +kernel
  obtain ⟨-,ht,hbest,-⟩ := h.1 false true _ _ _ _ hi hj
  exact ⟨⟨_,hi,by rw [ht]; exact hj⟩,hbest⟩

theorem Good.decides (hs : Good room q k i s) {r : ℕ}
    (hbit : s.profiles.acks.getLsbD r ∨ s.profiles.acknowledgedBy.getLsbD r) :
    s.profiles.active ∧ s.profiles.offers=s.profiles.occupied := by
  have ha : s.profiles.active := by
    by_contra hno
    rw [(hs.idle (Bool.eq_false_iff.mpr hno)).1] at hbit
    simp at hbit
  refine ⟨ha,by_contra fun hne => ?_⟩
  obtain ⟨hacks,hback⟩ := hs.waiting ha hne
  rw [hacks,hback] at hbit
  simp at hbit

/-- **An acknowledgement that arrived is a decision made**, and the same one. -/
theorem acknowledged_decided [DecidableEq ι] {w : Net ι Session Packet Unit}
    (hw : Reachable room q w) (hr : (w.node i).profiles.acknowledgedBy.getLsbD (room.seat j)) :
    (w.node j).profiles.acks.getLsbD (room.seat i) ∧
      (w.node j).profiles.selected=(w.node i).profiles.selected ∧
      (w.node j).profiles.transcript=(w.node i).profiles.transcript := by
  obtain ⟨k,hk⟩ := reachable_described hw
  have hgood : ∀ o,Good room q k o (w.node o) := hk.node
  obtain ⟨hi,halli⟩ := (hgood i).decides (.inr hr)
  have htold:=((hgood i).decided hi halli).told _ hr
  rw [(hgood i).cfg,(hgood j).acks] at htold
  obtain ⟨hj,hallj⟩ := (hgood j).decides (.inl htold)
  have hdec:=((hgood j).decision_eq hj hallj).trans ((hgood i).decision_eq hi halli).symm
  exact ⟨htold,Prod.mk.inj hdec⟩

def pairTold : Net Bool Session Packet Unit :=
  Net.run nodeSpec pairAgreed [(false,.pump 4 pairAgreed.sent .running [])]

theorem acknowledged_decided_pair : (pairTold.node false).profiles.acknowledgedBy.getLsbD 1 ∧
    (pairTold.node true).profiles.selected=(pairTold.node false).profiles.selected := by
  have hr : (pairTold.node false).profiles.acknowledgedBy.getLsbD (Room.pair.seat true) := by
    decide +kernel
  have hreach : Reachable Room.pair 100 pairTold := pairAgreed_reachable.run _ (by decide +kernel)
  exact ⟨hr,(acknowledged_decided hreach hr).2.1⟩

end Agreement
end RecompNet.Profiles
