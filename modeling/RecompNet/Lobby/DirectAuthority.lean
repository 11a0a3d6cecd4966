import RecompNet.Lobby.LanDirect

/-!
# Who may change a direct-IP room

The host acts on SWAPREQ, CHATREQ and LEAVE of the seated guest only, and gives the seat to a
stranger only while it is empty.
-/
namespace RecompNet.Direct
open GuestSide
open Xfer (ascii)
variable {ι : Type}

/-- The room, the chat and the answer to a swap are as before, and neither a start nor an end
is reported. -/
structure GuestSide.Untouched (s p : GuestSide ι) : Prop where
  room : p.room=s.room
  chat : p.guest.chat=s.guest.chat
  swapPending : p.guest.swapResPending=s.guest.swapResPending
  swapAccept : p.guest.swapResAccept=s.guest.swapResAccept
  noStart : p.report≠.start
  noEnd : p.report≠.gone

/-- A datagram that is obeyed whoever sent it: START, KICK or CLOSE, or a CAPS with values
other than the room's. -/
def Unguarded (withRoom : Bool) (room : LanLobby) (bytes : List UInt8) : Prop :=
  match header bytes with
  | some (.start,_) => True
  | some (.kick,_) => True
  | some (.close,_) => True
  | some (.caps,cursor) => withRoom=true ∧ (room.takeCaps cursor).1≠room
  | _ => False

namespace GuestSide
variable {s p : GuestSide ι} {src : ι}
theorem Untouched.refl (hs : s.report=.nothing) : s.Untouched s :=
  ⟨rfl,rfl,rfl,rfl,by simp [hs],by simp [hs]⟩

section Recv
variable [DecidableEq ι]
theorem recv_untouched_iff (withRoom withRtt : Bool) (now : ℕ) (bytes : List UInt8)
    (hs : s.report=.nothing) (hsrc : src≠s.guest.host) :
    s.Untouched (s.recv withRoom withRtt now src bytes) ↔ ¬ Unguarded withRoom s.room bytes := by
  have hself:=Untouched.refl hs
  unfold recv Unguarded
  cases header bytes with
  | none => exact iff_of_true hself id
  | some head =>
    obtain ⟨op,cursor⟩ := head
    cases op with
    | start => exact iff_of_false (fun h => h.noStart rfl) (not_not.mpr trivial)
    | kick | close => exact iff_of_false (fun h => h.noEnd rfl) (not_not.mpr trivial)
    | caps =>
      cases withRoom with
      | false => exact iff_of_true hself fun h => Bool.false_ne_true h.1
      | true =>
        constructor
        · intro h hbad
          exact hbad.2 h.room
        · intro h
          have hroom : (s.room.takeCaps cursor).1=s.room := not_not.mp fun hne => h ⟨rfl,hne⟩
          exact ⟨hroom,rfl,rfl,rfl,hself.noStart,hself.noEnd⟩
    | pong =>
      refine iff_of_true ?_ id
      simp only
      split
      · exact ⟨rfl,rfl,rfl,rfl,nofun,nofun⟩
      · exact hself
    | room | swapRes | chat =>
      simp only [if_pos hsrc]
      exact iff_of_true hself id
    | ping => exact iff_of_true ⟨rfl,rfl,rfl,rfl,hself.noStart,hself.noEnd⟩ id
    | joinReq | joinOk | joinNak | swapReq | chatReq | leave | unknown => exact iff_of_true hself id

theorem pump_untouched_iff (withRoom withRtt : Bool) (now : ℕ) (bytes : List UInt8)
    (hs : s.guest.joining=false) (hsrc : src≠s.guest.host) :
    s.Untouched (s.pump withRoom withRtt now (.datagram src bytes)) ↔
      ¬ Unguarded withRoom s.room bytes := by
  unfold pump
  simp only [hs]
  by_cases hempty : bytes=[]
  · subst hempty
    exact iff_of_true ⟨rfl,rfl,rfl,rfl,nofun,nofun⟩ id
  have hrecv:=recv_untouched_iff (s := { s with report := .nothing }) withRoom withRtt now bytes
    rfl hsrc
  simp only [Bool.false_eq_true,if_false,if_neg hempty]
  refine Iff.trans ?_ hrecv
  exact ⟨fun h => { h with },fun h => { h with }⟩

end Recv

def SeatedAt (host : ι) (s : GuestSide ι) : Prop := s.guest.joining=false ∧ s.guest.host=host

variable {host : ι}
theorem SeatedAt.writeRoom (h : SeatedAt host s) (withRoom : Bool) (room : LanLobby) :
    SeatedAt host (s.writeRoom withRoom room) := by
  unfold GuestSide.writeRoom
  split <;> exact h

theorem SeatedAt.notify (h : SeatedAt host s) (datagram : Option Line) :
    SeatedAt host (s.notify datagram) := by
  unfold GuestSide.notify
  split <;> exact h

variable [DecidableEq ι]
theorem SeatedAt.recv (h : SeatedAt host s) (withRoom withRtt : Bool) (now : ℕ)
    (src : ι) (bytes : List UInt8) : SeatedAt host (s.recv withRoom withRtt now src bytes) := by
  unfold GuestSide.recv
  split <;> first | exact h | exact h.writeRoom .. | (split <;> first | exact h | exact h.writeRoom ..)

theorem SeatedAt.call (h : SeatedAt host s) (c : Call ι) : SeatedAt host (s.call c) := by
  cases c with
  | joinPoll now inbox =>
    have hdone : s.joinPoll now inbox=s := if_pos (.inl h.1)
    change SeatedAt host (s.joinPoll now inbox)
    rw [hdone]
    exact h
  | pump withRoom withRtt now received =>
    change SeatedAt host (s.pump withRoom withRtt now received)
    unfold pump
    simp only [h.1]
    cases received with
    | wouldBlock | error => exact h
    | datagram src bytes =>
      simp only [Bool.false_eq_true,if_false]
      split
      · exact h
      · exact SeatedAt.recv (s := { s with report := .nothing }) h withRoom withRtt now src bytes
  | edit | takeChat | takeSwapResult => exact h
  | sendSwapRequest | ping | leave => exact h.notify _
  | sendChat playerId line =>
    change SeatedAt host (s.sendChat playerId line)
    unfold sendChat
    simp only
    split
    · exact h
    · exact h.notify _

theorem SeatedAt.run (cs : List (Call ι)) (h : SeatedAt host s) :
    SeatedAt host (cs.foldl GuestSide.call s) := by
  induction cs generalizing s with
  | nil => exact h
  | cons c cs ih => exact ih (h.call c)

end GuestSide

namespace HostSide
variable {s : HostSide ι} {src : ι}

/-- A JOIN_REQ for this game, version and password while the seat is empty and the room has
not started. -/
structure Admits (s : HostSide ι) (bytes : List UInt8) (cursor : Line) : Prop where
  request : header bytes=some (.joinReq,cursor)
  game : (JoinReq.read cursor).1.game=s.room.game.bytes
  version : (JoinReq.read cursor).1.version=s.room.gameVersion.bytes
  password : (JoinReq.read cursor).1.password=s.room.password.bytes
  empty : s.room.joinerName=.empty
  waiting : s.room.started=false

structure Untouched (s p : HostSide ι) : Prop where
  guest : p.host.guest=s.host.guest
  room : p.room=s.room
  chat : p.host.chat=s.host.chat
  swap : p.host.swapReqPending=s.host.swapReqPending

theorem nak_eq_none {q : JoinReq} (h : s.nak q=none) :
    q.game=s.room.game.bytes ∧ q.version=s.room.gameVersion.bytes ∧
      q.password=s.room.password.bytes ∧ s.room.started=false ∧ s.room.joinerName=.empty := by
  unfold nak at h
  split at h
  · cases h
  split at h
  · cases h
  split at h
  · cases h
  split at h
  · cases h
  next hid hpass hstart hfull =>
  rw [not_or,not_not,not_not] at hid
  exact ⟨hid.1,hid.2,not_not.mp hpass,Bool.not_eq_true _ ▸ hstart,not_not.mp hfull⟩

variable [DecidableEq ι]
theorem recv_stranger (now : ℕ) (bytes : List UInt8) (hsrc : s.host.guest≠some src) :
    s.Untouched (s.recv now src bytes) ∨ ∃ cursor,s.Admits bytes cursor ∧
        s.recv now src bytes=(s.seat src (JoinReq.read cursor).1.player).send src
          (s.seat src (JoinReq.read cursor).1.player).room.buildJoinOk := by
  have hself : s.Untouched s := ⟨rfl,rfl,rfl,rfl⟩
  unfold recv
  cases hhead : header bytes with
  | none => exact .inl hself
  | some head =>
    obtain ⟨op,cursor⟩ := head
    cases op with
    | ping => exact .inl ⟨rfl,rfl,rfl,rfl⟩
    | pong =>
      left
      simp only
      split
      · exact ⟨rfl,rfl,rfl,rfl⟩
      · exact hself
    | joinReq =>
      simp only
      unfold onJoinReq
      rw [if_neg fun h => hsrc h.1]
      cases hnak : s.nak (JoinReq.read cursor).1 with
      | some code => exact .inl ⟨rfl,rfl,rfl,rfl⟩
      | none =>
        obtain ⟨hgame,hversion,hpass,hwait,hempty⟩ := nak_eq_none hnak
        exact .inr ⟨cursor,⟨hhead,hgame,hversion,hpass,hempty,hwait⟩,rfl⟩
    | swapReq =>
      simp only [if_pos hsrc]
      exact .inl hself
    | chatReq =>
      simp only
      unfold onChatReq
      simp only [if_pos hsrc,ite_self]
      exact .inl hself
    | leave =>
      simp only
      unfold onLeave
      rw [if_pos hsrc]
      exact .inl hself
    | joinOk | joinNak | swapRes | chat | room | start | caps | kick | close | unknown =>
      exact .inl hself

theorem pump_concat (now : ℕ) (pre : List (ι × List UInt8)) (src : ι) {bytes : List UInt8}
    (h : bytes≠[]) : s.pump now (pre++[(src,bytes)])=(s.pump now pre).recv now src bytes := by
  unfold pump
  simp [List.filter_append,h]

end HostSide

/-- A stranger changes a seat's state only by the messages without a sender check. -/
theorem room_authority_iff [DecidableEq ι] :
    (∀ (s : GuestSide ι) (cs : List (GuestSide.Call ι)),s.guest.joining=false →
      let t:=cs.foldl call s
      t.guest.joining=false ∧ t.guest.host=s.guest.host ∧
        ∀ (withRoom withRtt : Bool) (now : ℕ) (src : ι) (bytes : List UInt8),src≠s.guest.host →
          (t.Untouched (t.pump withRoom withRtt now (.datagram src bytes)) ↔
            ¬ Unguarded withRoom t.room bytes)) ∧
    (∀ (s : HostSide ι) (cs : List (HostSide.Call ι)) (now : ℕ) (pre : List (ι × List UInt8))
      (src : ι) (bytes : List UInt8),
      let t:=(cs.foldl HostSide.call s).pump now pre
      let p:=t.recv now src bytes
      (bytes≠[] → (cs.foldl HostSide.call s).pump now (pre++[(src,bytes)])=p) ∧
      (t.host.guest≠some src →
        p.host.chat=t.host.chat ∧ p.host.swapReqPending=t.host.swapReqPending ∧
        (t.room.joinerName≠.empty → p.room.joinerName=t.room.joinerName) ∧
        (p.host.guest=t.host.guest ∧ p.room=t.room ∨
          (∃ cursor,t.Admits bytes cursor) ∧ p.host.guest=some src))) := by
  constructor
  · intro s cs hs
    obtain ⟨hseated,hhost⟩ := SeatedAt.run (s := s) cs ⟨hs,rfl⟩
    refine ⟨hseated,hhost,fun withRoom withRtt now src bytes hsrc => ?_⟩
    exact pump_untouched_iff withRoom withRtt now bytes hseated (hhost ▸ hsrc)
  · intro s cs now pre src bytes t p
    refine ⟨HostSide.pump_concat now pre src,fun hsrc => ?_⟩
    rcases HostSide.recv_stranger now bytes hsrc with h | ⟨cursor,hadmits,heq⟩
    · exact ⟨h.chat,h.swap,fun _ => congrArg LanLobby.joinerName h.room,.inl ⟨h.guest,h.room⟩⟩
    change p=_ at heq
    rw [heq]
    exact ⟨rfl,rfl,fun hfull => absurd hadmits.empty hfull,.inr ⟨⟨cursor,hadmits⟩,rfl⟩⟩

def seatedGuest : GuestSide ℕ where
  guest := {
    host := 1
    hostHostport := .empty
    chat := []
    swapResPending := false
    swapResAccept := false
    joining := false
    joinFailed := none
    joinSentMs := 0
    joinReq := []
    expectedGame := .empty
    expectedVersion := .empty
    playerName := .empty
    out := [] }
  room := .zero
  report := .nothing

theorem room_authority_chat :
    seatedGuest.Untouched (seatedGuest.pump true true 0
      (.datagram 2 (ascii "RNETDJ1\nCHAT\nid\nname\nhello\n"))) := by
  refine ((room_authority_iff.1 seatedGuest [] rfl).2.2 true true 0 2 _ (by decide)).mpr ?_
  have hhead : header (ascii "RNETDJ1\nCHAT\nid\nname\nhello\n") =
      some (.chat,ascii "id\nname\nhello\n") := by decide +kernel
  unfold Unguarded
  rw [hhead]
  exact id

theorem stranger_commands_guest :
    (seatedGuest.pump true true 0 (.datagram 2 (ascii "RNETDJ1\nSTART\n"))).report=.start ∧
      (seatedGuest.pump true true 0 (.datagram 2 (ascii "RNETDJ1\nCAPS\n9\n"))).room.inputDelay=9 ∧
      (seatedGuest.pump true true 0 (.datagram 2 (ascii "RNETDJ1\nKICK\n"))).report=.gone ∧
      seatedGuest.guest.joining=false ∧ seatedGuest.guest.host=1 ∧
      seatedGuest.room.inputDelay=0 := by
  decide +kernel

end RecompNet.Direct
