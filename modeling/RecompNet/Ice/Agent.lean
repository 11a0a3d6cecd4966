import RecompNet.Ice.Sdp

/-!
# The ICE agent (`rnet_ice_agent.c`)

An agent sits between the signals of its peer and libjuice.
-/
namespace RecompNet.Ice
open List
open Xfer (ascii)

/-- `RNET_ICE_CAND_QUEUE`. -/
def candQueue : ℕ := 32

inductive SignalType
  | localSdp
  | remoteSdp
  | localCandidate
  | remoteCandidate
  | gatheringDone
  | setControlling
  deriving DecidableEq

structure Signal where
  type : SignalType
  flag : UInt8
  text : CText 2047
  deriving DecidableEq

/-- `RNetIceState`. -/
inductive AgentState
  | idle
  | gathering
  | connecting
  | connected
  | completed
  | failed
  deriving DecidableEq

/-- What libjuice answers within one call. -/
structure Lib where
  creates : Bool
  gathers : Bool
  localDescription : Option (CText 4095)
  setsRemote : Bool

inductive Output
  | signal (type : SignalType) (text : CText 2047)
  | remoteDescription (sdp : List UInt8)
  | remoteCandidate (sdp : List UInt8)
  | remoteGatheringDone
  deriving DecidableEq

def Output.text : Output → List UInt8
  | .signal _ text => text.bytes
  | .remoteDescription sdp => sdp
  | .remoteCandidate sdp => sdp
  | .remoteGatheringDone => []

/-- `struct RNetIceAgent`; `juice` says whether there is a library agent. -/
structure Agent where
  juice : Bool
  state : AgentState
  emits : Bool
  gatheringDonePosted : Bool
  frozen : Bool
  remoteDescSet : Bool
  candQ : List (CText 279)
  controlling : Bool
  gatherStarted : Bool
  gatherPending : Bool
  hasTurn : Bool
  forceRelay : Bool
  relayFallbackDone : Bool
  log : List (Bool × Output)
  deriving DecidableEq

/-- `RNetIceConfig`. -/
structure Config where
  emits : Bool
  controlling : Bool
  hasTurn : Bool
  forceRelay : Bool

namespace Agent
variable (a : Agent)
def put (o : Output) : Agent := { a with log := a.log++[(a.forceRelay,o)] }

/-- `emit_signal`. -/
def emit (type : SignalType) (text : List UInt8) : Agent :=
  if a.emits then a.put (.signal type (.print 2047 text)) else a

def resetRuntime : Agent :=
  { a with
    juice := false
    candQ := []
    gatheringDonePosted := false
    remoteDescSet := false
    gatherStarted := false
    gatherPending := false
    state := .idle }

variable (lib : Lib)
def createJuice : Agent := { a with juice := lib.creates }

/-- `rnet_ice_agent_create`. -/
def create (cfg : Config) (lib : Lib) : Option Agent :=
  if lib.creates then
    some
      { juice := true
        state := .idle
        emits := cfg.emits
        gatheringDonePosted := false
        frozen := false
        remoteDescSet := false
        candQ := []
        controlling := cfg.controlling
        gatherStarted := false
        gatherPending := false
        hasTurn := cfg.hasTurn
        forceRelay := cfg.forceRelay
        relayFallbackDone := false
        log := [] }
  else none

variable (sdp : List UInt8)
def filtered : List UInt8 :=
  if a.forceRelay then (sdpStripNonRelay sdp maxSdp).getD sdp else sdp

def gatherNow : Agent :=
  if a.gatherStarted then a
  else if !lib.gathers then a
  else
    let a:={ a with gatherStarted := true,gatherPending := false }
    match lib.localDescription with
    | none => a
    | some sdp => a.emit .localSdp (a.filtered sdp.bytes)

def startGathering : Agent :=
  if !a.juice then a
  else if !a.controlling && !a.remoteDescSet then { a with gatherPending := true }
  else a.gatherNow lib

def onCandidate : Agent :=
  let sdp:=cString sdp
  if a.forceRelay && !candidateIsRelay sdp then a
  else if sdp=[] then a
  else
    let q:=if candQueue≤a.candQ.length then a.candQ.tail else a.candQ
    { a with candQ := q++[.print 279 sdp] }

/-- `rnet_ice_agent_poll`. -/
def poll : Agent :=
  let a':={ a with candQ := [],gatheringDonePosted := false }
  let a':=a.candQ.foldl (fun a c => a.emit .localCandidate c.bytes) a'
  if a.gatheringDonePosted then a'.emit .gatheringDone [] else a'

def restartForceRelay : Agent :=
  if !a.hasTurn || a.relayFallbackDone then a
  else
    let a:={ a with forceRelay := true,relayFallbackDone := true }
    let a:={ a.resetRuntime with frozen := false }
    let a:=a.createJuice lib
    if !a.juice then a else a.startGathering lib

def applyRemoteSdp : Agent :=
  if !a.juice then a
  else
    let a:=a.put (.remoteDescription (a.filtered sdp))
    if !lib.setsRemote then a
    else
      let a:={ a with remoteDescSet := true }
      if a.gatherPending || !a.controlling then a.gatherNow lib else a

/-- The REMOTE_SDP case of `rnet_ice_agent_push_signal`: a second description is a restart of
the peer, answered by a new library agent and, with a relay at hand, only through it. -/
def onRemoteSdp : Agent :=
  if a.frozen || sdp=[] then a
  else if a.remoteDescSet then
    let a :=
      if a.hasTurn && !a.forceRelay then { a with forceRelay := true,relayFallbackDone := true }
      else a
    (a.resetRuntime.createJuice lib).applyRemoteSdp lib sdp
  else a.applyRemoteSdp lib sdp

def pushSignal (msg : Signal) : Agent :=
  match msg.type with
  | .remoteSdp => a.onRemoteSdp lib msg.text.bytes
  | .remoteCandidate =>
    if a.frozen || !a.juice || msg.text=.empty then a
    else if a.forceRelay && !candidateIsRelay msg.text.bytes then a
    else a.put (.remoteCandidate msg.text.bytes)
  | .gatheringDone => if a.juice then a.put .remoteGatheringDone else a
  | .setControlling =>
    let a:={ a with controlling := decide (msg.flag≠0) }
    if a.controlling && a.gatherPending && a.juice then a.gatherNow lib else a
  | _ => a

end Agent

/-- What happens to an agent: the calls of its owner and the callbacks of the library. -/
inductive Input
  | stateChanged (state : AgentState)
  | candidate (sdp : List UInt8)
  | gatheringDone
  | startGathering (lib : Lib)
  | poll
  | push (lib : Lib) (msg : Signal)
  | restartForceRelay (lib : Lib)
  | markRelayFallbackDone
  | freeze
  | setEmit (emits : Bool)

def Agent.step (a : Agent) : Input → Agent
  | .stateChanged state => { a with state }
  | .candidate sdp => a.onCandidate sdp
  | .gatheringDone => { a with gatheringDonePosted := true }
  | .startGathering lib => a.startGathering lib
  | .poll => a.poll
  | .push lib msg => a.pushSignal lib msg
  | .restartForceRelay lib => a.restartForceRelay lib
  | .markRelayFallbackDone => { a with relayFallbackDone := true }
  | .freeze => { a with frozen := true }
  | .setEmit emits => { a with emits }

def Lib.Harmless (lib : Lib) : Prop :=
  ∀ sdp∈lib.localDescription,sdp.bytes.length≤2046 ∧ NoRelayBehind sdp.bytes

def Input.Harmless : Input → Prop
  | .candidate sdp => candidateIsRelay (cString sdp)=true →
    NoDirect (cString sdp) ∧ (cString sdp).length≤279
  | .startGathering lib => lib.Harmless
  | .push lib msg =>
    lib.Harmless ∧ (msg.type=.remoteSdp → NoRelayBehind msg.text.bytes) ∧
      (msg.type=.remoteCandidate → candidateIsRelay msg.text.bytes → NoDirect msg.text.bytes)
  | .restartForceRelay lib => lib.Harmless
  | _ => True

/-- A run in which every step with `force_relay` set is given harmless texts. -/
def HarmlessRun : List Input → Agent → Prop
  | [],_ => True
  | i::is,a => ((a.step i).forceRelay=true → i.Harmless) ∧ HarmlessRun is (a.step i)

structure RelayClean (a : Agent) : Prop where
  queue : a.forceRelay → ∀ c∈a.candQ,NoDirect c.bytes
  log : ∀ e∈a.log,e.1 → NoDirect e.2.text

theorem noDirect_nil : NoDirect [] := forall_mem_nil _

namespace Agent
variable {a : Agent} {lib : Lib}
theorem put_clean (h : RelayClean a) {o : Output} (ho : a.forceRelay → NoDirect o.text) :
    RelayClean (a.put o) := by
  refine ⟨h.queue,fun e he hforce => ?_⟩
  rcases mem_append.mp he with hold | hnew
  · exact h.log e hold hforce
  · rw [mem_singleton.mp hnew] at hforce ⊢
    exact ho hforce

theorem emit_clean (h : RelayClean a) (type : SignalType) {text : List UInt8}
    (ht : a.forceRelay → NoDirect (CText.print 2047 text).bytes) :
    RelayClean (a.emit type text) := by
  unfold emit
  split
  · exact put_clean h ht
  · exact h

theorem emit_forceRelay (type : SignalType) (text : List UInt8) :
    (a.emit type text).forceRelay=a.forceRelay := by
  unfold emit
  split <;> rfl

variable {sdp : List UInt8}
theorem noDirect_filtered (hf : a.forceRelay)
    (hlen : sdp.length+2 < maxSdp) (hs : NoRelayBehind sdp) :
    NoDirect (a.filtered sdp) ∧ (a.filtered sdp).length ≤ sdp.length+1 ∧
      ∀ c∈a.filtered sdp,c∈sdp ∨ c=10 := by
  have hsome : (sdpStripNonRelay sdp maxSdp).isSome := stripLoop_isSome (.inr (by simpa using hlen))
  obtain ⟨res,hres⟩ := Option.isSome_iff_exists.mp hsome
  have heq : a.filtered sdp=res := by
    unfold filtered
    rw [if_pos hf,hres]
    rfl
  have hlong:=stripLoop_length hres
  rw [heq]
  refine ⟨(noDirect_strip_iff hres).mpr hs,?_,fun c hc => mem_strip hres hc⟩
  rw [length_nil] at hlong
  split at hlong <;> omega

theorem gatherNow_forceRelay (a : Agent) (lib : Lib) :
    (a.gatherNow lib).forceRelay=a.forceRelay := by
  unfold gatherNow
  split
  · rfl
  split
  · rfl
  simp only
  split
  · rfl
  · exact emit_forceRelay _ _

theorem gatherNow_clean (h : RelayClean a) (hlib : a.forceRelay → lib.Harmless) :
    RelayClean (a.gatherNow lib) := by
  unfold gatherNow
  split
  · exact h
  split
  · exact h
  have h' : RelayClean { a with gatherStarted := true,gatherPending := false } := ⟨h.queue,h.log⟩
  simp only
  split
  · exact h'
  next sdp hsdp =>
  refine emit_clean h' _ fun hf => ?_
  obtain ⟨hlen,hs⟩ := hlib hf sdp hsdp
  have hmax : maxSdp=4096 := rfl
  obtain ⟨hclean,hshort,hmem⟩ := noDirect_filtered
    (a := { a with gatherStarted := true,gatherPending := false }) hf (by omega) hs
  rw [CText.bytes_print_of_le (by omega) fun h0 => ?_]
  · exact hclean
  · rcases hmem 0 h0 with h0 | h0
    · exact sdp.clean h0
    · exact absurd h0 (by decide)

theorem startGathering_forceRelay (a : Agent) (lib : Lib) :
    (a.startGathering lib).forceRelay=a.forceRelay := by
  unfold startGathering
  split
  · rfl
  split
  · rfl
  · exact gatherNow_forceRelay a lib

section
variable (h : RelayClean a)
include h
theorem startGathering_clean (hlib : a.forceRelay → lib.Harmless) :
    RelayClean (a.startGathering lib) := by
  unfold startGathering
  split
  · exact h
  split
  · exact ⟨h.queue,h.log⟩
  · exact gatherNow_clean h hlib

theorem onCandidate_clean (hsdp : a.forceRelay → (Input.candidate sdp).Harmless) :
    RelayClean (a.onCandidate sdp) := by
  unfold onCandidate
  simp only
  split
  · exact h
  split
  · exact h
  next hpass _ =>
  refine ⟨fun hf c hc => ?_,h.log⟩
  rcases mem_append.mp hc with hold | hnew
  · refine h.queue hf c ?_
    split at hold
    · exact mem_of_mem_tail hold
    · exact hold
  have hrelay : candidateIsRelay (cString sdp) := by
    have hf' : a.forceRelay := hf
    simpa [hf'] using hpass
  obtain ⟨hclean,hlen⟩ := hsdp hf hrelay
  rw [mem_singleton.mp hnew,CText.bytes_print_of_le hlen (cString_clean sdp)]
  exact hclean

theorem poll_clean : RelayClean a.poll := by
  have hfold : ∀ (q : List (CText 279)) (b : Agent),RelayClean b →
      (b.forceRelay → ∀ c∈q,NoDirect c.bytes) →
      RelayClean (q.foldl (fun a c => a.emit .localCandidate c.bytes) b) := by
    intro q
    induction q with
    | nil => exact fun b hb _ => hb
    | cons c q ih =>
      intro b hb hq
      refine ih _ (emit_clean hb _ fun hf => ?_) fun hf d hd => ?_
      · rw [CText.bytes_print_of_le (c.fits.trans (by decide)) c.clean]
        exact hq hf c mem_cons_self
      · rw [emit_forceRelay] at hf
        exact hq hf d (mem_cons_of_mem _ hd)
  have hall:=hfold a.candQ { a with candQ := [],gatheringDonePosted := false }
    ⟨fun _ => forall_mem_nil _,h.log⟩ h.queue
  unfold poll
  simp only
  split
  · exact emit_clean hall _ fun _ => noDirect_nil
  · exact hall

theorem reset_clean (force frozen done : Bool) (lib : Lib) :
    RelayClean (createJuice { { a with forceRelay := force,relayFallbackDone := done }.resetRuntime with
      frozen := frozen } lib) := ⟨fun _ => forall_mem_nil _,h.log⟩

theorem restartForceRelay_clean (hlib : (a.restartForceRelay lib).forceRelay → lib.Harmless) :
    RelayClean (a.restartForceRelay lib) := by
  have hreset:=reset_clean h true false true lib
  unfold restartForceRelay at hlib ⊢
  split at hlib
  · next hno =>
    rw [if_pos hno]
    exact h
  next hyes =>
  rw [if_neg hyes]
  simp only at hlib ⊢
  split at hlib
  · next hnone =>
    rw [if_pos hnone]
    exact hreset
  next hsome =>
  rw [if_neg hsome]
  rw [startGathering_forceRelay] at hlib
  exact startGathering_clean hreset hlib

end

theorem applyRemoteSdp_forceRelay (a : Agent) (lib : Lib) (sdp : List UInt8) :
    (a.applyRemoteSdp lib sdp).forceRelay=a.forceRelay := by
  unfold applyRemoteSdp
  split
  · rfl
  simp only
  split
  · rfl
  split
  · exact gatherNow_forceRelay _ lib
  · rfl

variable {sdp : CText 2047}
theorem applyRemoteSdp_clean (h : RelayClean a)
    (hin : a.forceRelay → lib.Harmless ∧ NoRelayBehind sdp.bytes) :
    RelayClean (a.applyRemoteSdp lib sdp.bytes) := by
  have hmax : maxSdp=4096 := rfl
  have hput : RelayClean (a.put (.remoteDescription (a.filtered sdp.bytes))) := by
    refine put_clean h fun hf => ?_
    have hfits:=sdp.fits
    exact (noDirect_filtered hf (by omega) (hin hf).2).1
  unfold applyRemoteSdp
  split
  · exact h
  simp only
  split
  · exact hput
  have hset : RelayClean
      { a.put (.remoteDescription (a.filtered sdp.bytes)) with remoteDescSet := true } :=
    ⟨hput.queue,hput.log⟩
  split
  · exact gatherNow_clean hset fun hf => (hin hf).1
  · exact hset

theorem onRemoteSdp_clean (h : RelayClean a) (hin : (a.onRemoteSdp lib sdp.bytes).forceRelay →
      lib.Harmless ∧ NoRelayBehind sdp.bytes) : RelayClean (a.onRemoteSdp lib sdp.bytes) := by
  unfold onRemoteSdp at hin ⊢
  split at hin
  · next hno =>
    rw [if_pos hno]
    exact h
  next hyes =>
  rw [if_neg hyes]
  split at hin
  · next hset =>
    rw [if_pos hset]
    simp only [applyRemoteSdp_forceRelay] at hin
    -- The queue is emptied as the setting changes.
    refine applyRemoteSdp_clean ?_ hin
    split <;> exact ⟨fun _ => forall_mem_nil _,h.log⟩
  · next hset =>
    rw [if_neg hset]
    rw [applyRemoteSdp_forceRelay] at hin
    exact applyRemoteSdp_clean h hin

theorem pushSignal_clean (h : RelayClean a) {msg : Signal}
    (hin : (a.pushSignal lib msg).forceRelay → (Input.push lib msg).Harmless) :
    RelayClean (a.pushSignal lib msg) := by
  unfold pushSignal at hin ⊢
  cases htype : msg.type with
  | remoteSdp =>
    simp only [htype] at hin ⊢
    exact onRemoteSdp_clean h fun hf => ⟨(hin hf).1,(hin hf).2.1 htype⟩
  | remoteCandidate =>
    simp only [htype] at hin ⊢
    split at hin
    · next hno =>
      rw [if_pos hno]
      exact h
    next hyes =>
    rw [if_neg hyes]
    split at hin
    · next hdrop =>
      rw [if_pos hdrop]
      exact h
    next hpass =>
    rw [if_neg hpass]
    refine put_clean h fun hf => ?_
    have hrelay : candidateIsRelay msg.text.bytes := by simpa [hf] using hpass
    exact (hin hf).2.2 htype hrelay
  | gatheringDone =>
    simp only
    split
    · exact put_clean h fun _ => noDirect_nil
    · exact h
  | setControlling =>
    simp only [htype] at hin ⊢
    have h' : RelayClean { a with controlling := decide (msg.flag≠0) } := ⟨h.queue,h.log⟩
    split at hin
    · next hgo =>
      rw [if_pos hgo]
      rw [gatherNow_forceRelay] at hin
      exact gatherNow_clean h' fun hf => (hin hf).1
    next hno =>
    rw [if_neg hno]
    exact h'
  | localSdp | localCandidate => exact h

theorem step_clean (h : RelayClean a) {i : Input}
    (hin : (a.step i).forceRelay → i.Harmless) : RelayClean (a.step i) := by
  cases i with
  | stateChanged | gatheringDone | markRelayFallbackDone | freeze | setEmit =>
    exact ⟨h.queue,h.log⟩
  | candidate sdp =>
    have hsame : (a.onCandidate sdp).forceRelay=a.forceRelay := by
      unfold onCandidate
      simp only
      split
      · rfl
      split <;> rfl
    exact onCandidate_clean h fun hf => hin (hsame.trans hf)
  | startGathering lib =>
    exact startGathering_clean h fun hf => hin ((startGathering_forceRelay a lib).trans hf)
  | poll => exact poll_clean h
  | push lib msg => exact pushSignal_clean h hin
  | restartForceRelay lib => exact restartForceRelay_clean h hin

theorem run_clean (is : List Input) (h : RelayClean a) (hrun : HarmlessRun is a) :
    RelayClean (is.foldl step a) := by
  induction is generalizing a with
  | nil => exact h
  | cons i is ih => exact ih (step_clean h hrun.1) hrun.2

end Agent

/-- A relay-only agent emits no direct candidate in a harmless run; what `strip` keeps is exact. -/
theorem relay_only_runs (cfg : Config) (lib : Lib) (a : Agent) (is : List Input)
    (hcreate : Agent.create cfg lib=some a) :
    (HarmlessRun is a → ∀ e∈(is.foldl Agent.step a).log,e.1=true → NoDirect e.2.text) ∧
    ∀ (sdp res : List UInt8) (outLen : ℕ),sdpStripNonRelay sdp outLen=some res →
      (NoDirect res ↔ NoRelayBehind sdp) ∧ (textLines res).Sublist (textLines sdp) ∧
        (textLines res).filter (fun line => Wanted line) =
          (textLines sdp).filter fun line => Wanted line := by
  refine ⟨fun hrun => ?_,fun sdp res outLen h => ⟨noDirect_strip_iff h,wanted_strip h⟩⟩
  have hstart : RelayClean a := by
    unfold Agent.create at hcreate
    split at hcreate
    · cases hcreate
      exact ⟨fun _ => forall_mem_nil _,forall_mem_nil _⟩
    · cases hcreate
  exact (Agent.run_clean is hstart hrun).log

def quietLib : Lib := ⟨true,true,none,true⟩

def relayAgent : Agent where
  juice := true
  state := .idle
  emits := true
  gatheringDonePosted := false
  frozen := false
  remoteDescSet := false
  candQ := []
  controlling := false
  gatherStarted := false
  gatherPending := false
  hasTurn := true
  forceRelay := true
  relayFallbackDone := false
  log := []

def relayLine : String := "a=candidate:2 1 UDP 1 9.9.9.9 6 typ relay\n"
def hostLine : String := "a=candidate:1 1 UDP 2 10.0.0.1 5 typ host\n"
def remoteSdp (sdp : String) : Input := .push quietLib ⟨.remoteSdp,0,.print 2047 (ascii sdp)⟩

theorem relay_only_relay_first :
    ([remoteSdp (relayLine++hostLine)].foldl Agent.step relayAgent).log =
      [(true,.remoteDescription (ascii relayLine))] ∧
    ∀ e∈([remoteSdp (relayLine++hostLine)].foldl Agent.step relayAgent).log,e.1=true →
      NoDirect e.2.text := by
  refine ⟨by decide +kernel,(relay_only_runs ⟨true,false,true,true⟩ quietLib relayAgent _ rfl).1
    ⟨fun _ => ⟨nofun,fun _ => by decide +kernel,nofun⟩,trivial⟩⟩

theorem direct_candidate_leaks :
    (∃ e∈([remoteSdp (hostLine++relayLine)].foldl Agent.step relayAgent).log,
      e.1=true ∧ ¬ NoDirect e.2.text) ∧
    ∃ e∈([Input.push quietLib ⟨.remoteCandidate,0,.print 2047 (ascii (hostLine++relayLine))⟩].foldl
      Agent.step relayAgent).log,e.1=true ∧ ¬ NoDirect e.2.text := by
  decide +kernel

end RecompNet.Ice
