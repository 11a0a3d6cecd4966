import RecompNet.Lobby.Client

/-!
# Automatch tickets (`rnet_lobby_client.c`)

One state, written by the player's calls and by the server's messages.
-/
namespace RecompNet.Lobby

/-- `RNET_LOBBY_AUTOMATCH_*`. -/
inductive AutomatchState where
  | idle | queued | found | accepted | failed
  deriving DecidableEq

/-- `RNetLobbyAutomatchFound`. -/
structure AutomatchFound where
  opponent : List UInt8
  opponentCountry : List UInt8
  rulesetId : List UInt8
  rulesetLabel : List UInt8
  estRttMs : ℤ
  acceptSecs : ℤ

/-- The ticket's part of `LobbyAutomatch`. -/
structure Automatch where
  state : AutomatchState := .idle
  ticketId : PlayerId := .empty
  queuedSecs : ℤ := 0
  pool : ℤ := 0
  error : String := ""
  found : Option AutomatchFound := none
  queueInFlight : Bool := false

/-- The messages that `handle_server_json` acts on, with what it reads from them. -/
inductive AutomatchMsg where
  | queued (ticketId : PlayerId) (pool : ℤ)
  | status (queuedSecs : Option ℤ) (pool : ℤ)
  | found (ticketId : PlayerId) (offer : AutomatchFound)
  | acceptOk (accept : Bool)
  | requeue (pool : ℤ)
  | cancelled
  | joined
  | left
  | error (code : String) (retrySecs : ℤ)

/-- What `rnet_lobby_automatch_queue` finds before it sends. -/
structure QueueEnv where
  connected : Bool
  ruleset : Bool
  fingerprint : Bool
  exemptFits : Bool

inductive AutomatchCall where
  | queue (env : QueueEnv)
  | accept (connected accept : Bool)
  | cancel (connected : Bool)
  | refuseLocal (why : String)
  | receive (msg : AutomatchMsg)

def automatchRefusal (code : String) (retrySecs : ℤ) : Option String :=
  if code="need_account" then some "Sign in to use automatch"
  else if code="automatch_off" then some "This server has no automatch queues"
  else if code="already_queued" then some "This account is already in a queue"
  else if code="already_in_lobby" then some "Leave the room first"
  else if code="unknown_ruleset" then some "That queue type is gone -- refresh"
  else if code="need_disc_fp" then
    some "The server needs a ROM fingerprint this build did not send"
  else if code="version_not_pooled" then some "This release is not the one this queue pools"
  else if code="mods_not_pooled" then some "Turn off sim-affecting mods to queue"
  else if code="slots_not_pooled" then some "Automatch is two-player only"
  else if code="queue_full" then some "The queue is full -- try again shortly"
  else if code="cooldown" then
    some (if 0 < retrySecs then toString retrySecs++" Second Cooldown For Declining"
      else "Cooldown For Declining")
  else none

namespace Automatch
variable (s : Automatch)

/-- The ticket is in a queue or in an offer. -/
def Live : Prop := s.state=.queued ∨ s.state=.found ∨ s.state=.accepted
instance : Decidable s.Live := inferInstanceAs (Decidable (_ ∨ _ ∨ _))

/-- `automatch_reset_queue_state`. -/
def resetQueueState : Automatch :=
  { s with
    state := .idle,queueInFlight := false,ticketId := .empty,queuedSecs := 0,pool := 0
    found := none }

/-- `automatch_fail`. -/
def fail (why : String) : Automatch := { s with state := .failed,error := why }

/-- `rnet_lobby_automatch_queue`. -/
def queue (env : QueueEnv) : Automatch :=
  if !env.connected ∨ !env.ruleset ∨ s.state=.queued ∨ s.state=.found then s
  else if !env.fingerprint then s.fail "this build cannot fingerprint its ROM, so it cannot queue"
  else if !env.exemptFits then s.fail "too many mod exemptions to declare"
  else { s with error := "",queueInFlight := true }

/-- `rnet_lobby_automatch_accept`. -/
def accept (connected accept : Bool) : Automatch :=
  if !connected ∨ s.state≠.found then s
  else if accept then { s with state := .accepted }
  else s.resetQueueState

/-- the automatch branches of handle_server_json. -/
def handle : AutomatchMsg → Automatch
  | .queued ticketId pool =>
    { s with state := .queued,error := "",queueInFlight := false,ticketId,queuedSecs := 0,pool }
  | .status queuedSecs pool =>
    if s.state≠.queued then s
    else { s with queuedSecs := queuedSecs.getD s.queuedSecs,pool }
  | .found ticketId offer => { s with found := some offer,ticketId,state := .found }
  | .acceptOk accept => if accept then { s with state := .accepted } else s.resetQueueState
  | .requeue pool => { s with state := .queued,found := none,pool }
  | .cancelled | .joined | .left => s.resetQueueState
  | .error code retrySecs =>
    if s.queueInFlight ∨ s.Live then
      match automatchRefusal code retrySecs with
      | some why => { s with queueInFlight := false }.fail why
      | none => s
    else s

def call : AutomatchCall → Automatch
  | .queue env => s.queue env
  | .accept connected yes => s.accept connected yes
  | .cancel _ => s
  | .refuseLocal why => s.fail why
  | .receive msg => s.handle msg

def run (cs : List AutomatchCall) : Automatch := cs.foldl call s

/-- The player declines the offer, or the client handles `automatch_cancelled`. -/
def GivesUp : AutomatchCall → Prop
  | .accept connected yes => connected=true ∧ s.state=.found ∧ yes=false
  | .receive .cancelled => True
  | _ => False

end Automatch

/-- The messages that make a ticket live whatever the state was. -/
def AutomatchMsg.revives : AutomatchMsg → Bool
  | .queued .. | .found .. | .acceptOk true | .requeue _ => true
  | _ => false

namespace AutomatchCall
def revives : AutomatchCall → Bool
  | .receive msg => msg.revives
  | _ => false

def isQueue : AutomatchCall → Bool
  | .queue _ => true
  | _ => false

end AutomatchCall

namespace Automatch
variable {s : Automatch} {c : AutomatchCall}
theorem live_call_iff (h : ¬ s.Live) (hc : c.isQueue=false) : (s.call c).Live ↔ c.revives := by
  have hstate : s.state≠.queued ∧ s.state≠.found :=
    ⟨fun hs => h (.inl hs),fun hs => h (.inr (.inl hs))⟩
  cases c with
  | queue env => cases hc
  | accept connected yes =>
    rw [call,accept,if_pos (.inr hstate.2)]
    simp [h,AutomatchCall.revives]
  | cancel => simp [call,h,AutomatchCall.revives]
  | refuseLocal why => simp [call,fail,Live,AutomatchCall.revives]
  | receive msg =>
    cases msg with
    | acceptOk yes => cases yes <;> simp [call,handle,resetQueueState,Live,AutomatchCall.revives,
        AutomatchMsg.revives]
    | status => simp [call,handle,hstate.1,h,AutomatchCall.revives,AutomatchMsg.revives]
    | error code retrySecs =>
      simp only [call,handle,AutomatchCall.revives,AutomatchMsg.revives]
      split_ifs
      · split
        · simp [fail,Live]
        · simp [h]
      · simp [h]
    | _ => simp [call,handle,resetQueueState,Live,AutomatchCall.revives,AutomatchMsg.revives]

theorem not_live_of_givesUp (h : s.GivesUp c) : ¬ (s.call c).Live := by
  unfold GivesUp at h
  split at h
  · obtain ⟨hconn,hstate,rfl⟩ := h
    simp [call,accept,hconn,hstate,resetQueueState,Live]
  · simp [call,handle,resetQueueState,Live]
  · cases h

theorem run_stays_iff {cs : List AutomatchCall} (h : ¬ s.Live) (hq : ∀ d∈cs,d.isQueue=false) :
    (∀ pre,pre <+: cs → ¬ (s.run pre).Live) ↔ ∀ d∈cs,d.revives=false := by
  induction cs generalizing s with
  | nil => simpa [run] using h
  | cons c cs ih =>
    have hlive:=live_call_iff h (hq c List.mem_cons_self)
    have hrest : ∀ d∈cs,d.isQueue=false := fun d hd => hq d (List.mem_cons_of_mem c hd)
    rw [List.forall_mem_cons]
    constructor
    · intro hpre
      have hc : ¬ (s.call c).Live := hpre [c] (List.prefix_append [c] cs)
      refine ⟨Bool.eq_false_iff.mpr (mt hlive.mpr hc),(ih hc hrest).mp fun pre hp => ?_⟩
      exact hpre (c::pre) ((List.prefix_cons_inj c).mpr hp)
    · rintro ⟨hc,htail⟩ pre hp
      cases pre with
      | nil => exact h
      | cons d pre =>
        obtain ⟨rfl,htl⟩ := List.cons_prefix_cons.mp hp
        exact (ih (mt hlive.mp (Bool.eq_false_iff.mp hc)) hrest).mpr htail pre htl

/-- **A given-up automatch ticket stays given up** exactly if no late message names a queue or an
offer. -/
theorem given_up_stays_iff (s : Automatch) (c : AutomatchCall) (hc : s.GivesUp c)
    (cs : List AutomatchCall) (hq : ∀ d∈cs,d.isQueue=false) :
    (∀ pre,pre <+: cs → ¬ ((s.call c).run pre).Live) ↔ ∀ d∈cs,d.revives=false :=
  run_stays_iff (not_live_of_givesUp hc) hq

def offered : Automatch := run {} [.queue ⟨true,true,true,true⟩,.receive (.queued .empty 1),
  .receive (.found .empty ⟨[],[],[],[],40,15⟩)]

theorem declined_stays : offered.GivesUp (.accept true false) ∧
    ∀ pre,pre <+: [.receive (.status none 1),.receive .cancelled] →
      ¬ ((offered.call (.accept true false)).run pre).Live :=
  ⟨⟨rfl,rfl,rfl⟩,(given_up_stays_iff offered (.accept true false) ⟨rfl,rfl,rfl⟩
    [.receive (.status none 1),.receive .cancelled] (by simp [AutomatchCall.isQueue])).mpr
    (by simp [AutomatchCall.revives,AutomatchMsg.revives])⟩

theorem requeue_revives_declined : offered.GivesUp (.accept true false) ∧
    ((offered.call (.accept true false)).run [.receive (.requeue 1)]).Live :=
  ⟨⟨rfl,rfl,rfl⟩,.inl rfl⟩

end Automatch
end RecompNet.Lobby
