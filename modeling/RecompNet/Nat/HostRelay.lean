import RecompNet.Lib.Trace

/-!
# The host relay and its router mappings (`rnet_host_relay.c`)

The host of an online room holds the game's UDP port and makes it reachable: UPnP, else NAT-PMP,
else what STUN reports.
-/
namespace RecompNet.HostRelay
open List

inductive Stage
  | upnpDiscover | upnpDesc | upnpAdd | upnpExtip | natpmpAddr | natpmpMap | stun | done
  deriving DecidableEq

inductive HttpPump
  | busy
  | failed
  | done (status : ℕ)
  deriving DecidableEq

/-- What `send` does in one `http_pump`: it takes bytes of the request, would block (or the socket
is not connected yet), or fails. -/
inductive HttpSend
  | takes (n : ℕ)
  | wouldBlock
  | failed
  deriving DecidableEq

/-- What a call finds outside. -/
structure Outside where
  now : ℕ := 0
  free : ℕ → Bool := fun _ => true
  /-- `RNET_HOST_RELAY_ENDPOINT` is set. -/
  endpointSet : Bool := false
  /-- `RNET_HOST_RELAY_NO_ROUTER` is set. -/
  noRouter : Bool := false
  ssdpOk : Bool := true
  /-- `rnet_hr_default_gateway` finds one. -/
  gateway : Bool := true
  gatewayOk : Bool := true
  pmpOk : Bool := true
  stunOk : Bool := true
  stunReply : Bool := false
  location : Option Bool := none
  http : HttpPump := .busy
  /-- The control URL that `rnet_hr_igd_control_url` finds in the body. -/
  controlUrl : Option (List UInt8) := none
  reachable : Bool := true
  externalIp : Bool := true
  /-- `http_begin` of the next exchange starts it. -/
  canBegin : Bool := true
  /-- The length of the DeletePortMapping request. -/
  deleteSize : ℕ := 500
  /-- The calls of `http_pump` for it and their times. -/
  deletePumps : List (ℕ × HttpSend) := [(0,.takes 500)]
  datagrams : List (List UInt8) := []
  canSend : Bool := true

/-- What is asked of the router about mappings, by local port. -/
inductive Request
  | addPortMapping (port : ℕ)
  | deletePortMapping (port : ℕ)
  | natpmpMap (port : ℕ)
  | natpmpDelete (port : ℕ)
  deriving DecidableEq

structure HostPort where
  localPort : ℕ
  tryRouter : Bool
  stage : Stage := .upnpDiscover
  stageDeadlineMs : ℕ := 0
  stunNextMs : ℕ := 0
  stunTries : ℕ := 0
  controlUrl : List UInt8 := []
  gateway : Bool := false
  mappedPort : ℕ := 0
  natpmpMapped : Bool := false
  deriving DecidableEq

variable (o : Outside)
def hpSetStage (stage : Stage) (budgetMs : ℕ) (hp : HostPort) : HostPort :=
  { hp with stage := stage,stageDeadlineMs := o.now+budgetMs }

variable (hp : HostPort)
def hpFinish : HostPort := { hp with stage := .done }

def hpBeginStun : HostPort :=
  let hp:={ hpSetStage o .stun 2000 hp with stunTries := 0,stunNextMs := 0 }
  if o.stunOk then hp else hpFinish hp

def hpBeginNatpmp : HostPort :=
  if !hp.tryRouter then hpBeginStun o hp
  else if !o.gateway then hpBeginStun o hp
  else
    let hp:={ hp with gateway := true }
    if !o.gatewayOk then hpBeginStun o hp
    else if !o.pmpOk then hpBeginStun o hp
    else hpSetStage o .natpmpAddr 800 hp

def hpBeginUpnp : HostPort :=
  if !hp.tryRouter then hpBeginStun o hp
  else if !o.ssdpOk then hpBeginNatpmp o hp
  else hpSetStage o .upnpDiscover 2500 hp

def hostPortOpen (port : ℕ) : Option HostPort :=
  let lo:=if port≠0 then port else 7777
  let hi:=if port≠0 then port else 7808
  match (List.range' lo (hi+1-lo)).find? o.free with
  | none => none
  | some p =>
    let hp : HostPort := { localPort := p,tryRouter := !o.noRouter }
    some (if o.endpointSet then hpFinish hp else hpBeginUpnp o hp)

def hpDrainGame : HostPort :=
  if hp.stage=.stun ∧ o.stunReply then hpFinish hp else hp

def hpPumpUpnpDiscover : HostPort :=
  match o.location with
  | some begun => if begun then hpSetStage o .upnpDesc 4500 hp else hpBeginNatpmp o hp
  | none => if o.now > hp.stageDeadlineMs then hpBeginNatpmp o hp else hp

def hpOnDesc : HostPort × List Request :=
  match o.controlUrl with
  | none => (hpBeginNatpmp o hp,[])
  | some url =>
    let hp:={ hp with controlUrl := url }
    if url=[] ∨ o.reachable=false then (hpBeginNatpmp o hp,[])
    else if !o.canBegin then (hpBeginNatpmp o hp,[])
    else (hpSetStage o .upnpAdd 4500 hp,[.addPortMapping hp.localPort])

def hpOnAdd : HostPort :=
  let hp:={ hp with mappedPort := hp.localPort }
  if !o.canBegin then hpBeginNatpmp o hp else hpSetStage o .upnpExtip 4500 hp

def hpPumpUpnpHttp : HostPort × List Request :=
  match o.http with
  | .busy => (if o.now > hp.stageDeadlineMs then hpBeginNatpmp o hp else hp,[])
  | .failed => (hpBeginNatpmp o hp,[])
  | .done status =>
    if status≠200 then (hpBeginNatpmp o hp,[])
    else
      match hp.stage with
      | .upnpDesc => hpOnDesc o hp
      | .upnpAdd => (hpOnAdd o hp,[])
      | .upnpExtip => (if o.externalIp then hpFinish hp else hpBeginNatpmp o hp,[])
      | _ => (hp,[])

def natpmpParseAddress (r : List UInt8) : Bool :=
  12 ≤ r.length && r.getD 0 0=0 && r.getD 1 0=128 && r.getD 2 0=0 && r.getD 3 0=0

def natpmpParseMapping (r : List UInt8) : Option ℕ :=
  if r.length<16 ∨ r.getD 0 0≠0 ∨ r.getD 1 0≠129 then none
  else if r.getD 2 0≠0 ∨ r.getD 3 0≠0 then none
  else some ((r.getD 10 0).toNat*256+(r.getD 11 0).toNat)

def hpNatpmpAddr (o : Outside) (hp : HostPort) : List (List UInt8) → HostPort × List Request
  | [] => (if o.now > hp.stageDeadlineMs then hpBeginStun o hp else hp,[])
  | r::rs =>
    if natpmpParseAddress r then (hpSetStage o .natpmpMap 800 hp,[.natpmpMap hp.localPort])
    else hpNatpmpAddr o hp rs

def hpNatpmpMap : List (List UInt8) → HostPort
  | [] => if o.now > hp.stageDeadlineMs then hpBeginStun o hp else hp
  | r::_ =>
    match natpmpParseMapping r with
    | some (ext+1) => hpFinish { hp with natpmpMapped := true,mappedPort := ext+1 }
    | _ => hpBeginStun o hp

def hpPumpStun : HostPort :=
  if o.now ≥ hp.stunNextMs then
    if hp.stunTries ≥ 3 then hpFinish hp
    else { hp with stunTries := hp.stunTries+1,stunNextMs := o.now+500 }
  else hp

def hostPortPump : HostPort × List Request :=
  let hp:=hpDrainGame o hp
  match hp.stage with
  | .upnpDiscover => (hpPumpUpnpDiscover o hp,[])
  | .upnpDesc | .upnpAdd | .upnpExtip => hpPumpUpnpHttp o hp
  | .natpmpAddr => hpNatpmpAddr o hp o.datagrams
  | .natpmpMap => (hpNatpmpMap o hp o.datagrams,[])
  | .stun => (hpPumpStun o hp,[])
  | .done => (hp,[])

/-- The loop of `rnet_host_port_unmap_release` around `http_pump`: whether the `size` bytes that are
left of the request are written before `until`, when the socket is closed. -/
def requestWritten (until_ : ℕ) : ℕ → List (ℕ × HttpSend) → Bool
  | 0,_ => true
  | _+1,[] => false
  | size+1,(t,e)::pumps =>
    if until_≤t then false
    else match e with
      | .takes 0 => false
      | .takes (n+1) => requestWritten until_ (size-n) pumps
      | .wouldBlock => requestWritten until_ (size+1) pumps
      | .failed => false

/-- What `rnet_host_port_unmap_release` asks of the router; a UPnP delete counts once it is
written. -/
def hostPortUnmap : List Request :=
  (if hp.mappedPort≠0 ∧ hp.controlUrl≠[] ∧ hp.natpmpMapped=false ∧ o.canBegin ∧
      requestWritten (o.now+600) o.deleteSize o.deletePumps then
    [.deletePortMapping hp.mappedPort] else []) ++
  if hp.natpmpMapped ∧ hp.gateway ∧ hp.mappedPort≠0 ∧ o.canSend then
    [.natpmpDelete hp.localPort] else []

/-- `RNetHostRelayView`. -/
structure View where
  active : Bool
  isHost : Bool
  bindPort : ℕ := 0
  deriving DecidableEq

/-- `RNetHostRelay`. -/
structure Relay where
  port : Option HostPort := none
  openRetryMs : ℕ := 0

def hrUpdateHost (v : View) (hr : Relay) : Relay × List Request :=
  match hr.port with
  | some hp =>
    let r:=hostPortPump o hp
    ({ hr with port := some r.1 },r.2)
  | none =>
    if o.now<hr.openRetryMs then (hr,[])
    else
      match hostPortOpen o v.bindPort with
      | none => ({ hr with openRetryMs := o.now+5000 },[])
      | some hp =>
        let r:=hostPortPump o hp
        ({ hr with port := some r.1 },r.2)

def hostRelayUpdate (v : View) (hr : Relay) : Relay × List Request :=
  if !v.active then ({ hr with port := none },[])
  else if v.isHost then hrUpdateHost o v hr
  else ({ hr with port := none },[])

def hostRelayReleasePort (hr : Relay) : Relay := { hr with port := none }

def hostRelayLeave (hr : Relay) : Relay × List Request := ({},match hr.port with
    | some hp => hostPortUnmap o hp
    | none => [])

inductive Kind
  | upnp
  | natPmp
  deriving DecidableEq

/-- A mapping at the router, by the local port it leads to. -/
structure Mapping where
  kind : Kind
  port : ℕ
  deriving DecidableEq

def Mapping.made (m : Mapping) : Request :=
  match m.kind with
  | .upnp => .addPortMapping m.port
  | .natPmp => .natpmpMap m.port

def Mapping.deleted (m : Mapping) : Request :=
  match m.kind with
  | .upnp => .deletePortMapping m.port
  | .natPmp => .natpmpDelete m.port

/-- The relay, what it asked of the router, and the mappings the router made for which no delete
has been requested since. -/
structure World where
  relay : Relay := {}
  sent : List Request := []
  inForce : List Mapping := []

inductive Op
  | update (o : Outside) (v : View)
  | releasePort
  | leave (o : Outside)
  | grant (m : Mapping)

variable (w : World)
def World.asks (r : Relay × List Request) : World where
  relay := r.1
  sent := r.2++w.sent
  inForce := w.inForce.filter fun m => m.deleted∉r.2

def step : Op → Option World
  | .update o v => some (w.asks (hostRelayUpdate o v w.relay))
  | .releasePort => some (w.asks (hostRelayReleasePort w.relay,[]))
  | .leave o => some (w.asks (hostRelayLeave o w.relay))
  | .grant m => if m.made∈w.sent then some { w with inForce := m::w.inForce } else none

def Waiting (m : Mapping) : Prop := m.port=hp.localPort ∧
    match m.kind with
    | .upnp => hp.stage=.upnpAdd
    | .natPmp => hp.stage=.natpmpMap ∧ hp.mappedPort=0

def natpmpGranted : Prop := ∃ ext,o.datagrams.head?.bind natpmpParseMapping=some (ext+1)

def Answered : Prop :=
  match hp.stage with
  | .upnpAdd => (o.http=.busy ∧ o.now≤hp.stageDeadlineMs) ∨ o.http=.done 200
  | .natpmpMap =>
    if hp.mappedPort=0 then (o.datagrams=[] ∧ o.now≤hp.stageDeadlineMs) ∨ natpmpGranted o
    else ¬ natpmpGranted o
  | _ => True

/-- Nothing is in force that the port does not know of: the router makes a mapping only while the
port waits for it. -/
def Kept : Op → Prop
  | .update o v =>
    w.inForce≠[] → v.active ∧ v.isHost ∧ ∀ hp∈w.relay.port,Answered o hp
  | .releasePort => w.inForce=[]
  | .leave o =>
    ∀ hp∈w.relay.port,∀ m∈w.inForce,¬ Waiting hp m ∧
      match m.kind with
      | .upnp => o.canBegin=true ∧ requestWritten (o.now+600) o.deleteSize o.deletePumps=true
      | .natPmp => o.canSend=true
  | .grant m => ∃ hp∈w.relay.port,Waiting hp m

structure Wf (hp : HostPort) : Prop where
  port : hp.localPort≠0
  early : hp.stage=.upnpDiscover ∨ hp.stage=.upnpDesc ∨ hp.stage=.upnpAdd → hp.mappedPort=0
  url : hp.stage=.upnpAdd ∨ hp.stage=.upnpExtip → hp.controlUrl≠[]
  router : hp.stage=.natpmpAddr ∨ hp.stage=.natpmpMap → hp.gateway
  natpmp : hp.natpmpMapped → hp.stage=.done ∧ hp.gateway ∧ hp.mappedPort≠0
  upnp : hp.natpmpMapped=false → hp.mappedPort≠0 → hp.mappedPort=hp.localPort ∧ hp.controlUrl≠[]

structure GoesOn (hp hp' : HostPort) : Prop where
  localPort : hp'.localPort=hp.localPort
  mappedPort : hp'.mappedPort=hp.mappedPort
  natpmpMapped : hp'.natpmpMapped=hp.natpmpMapped
  controlUrl : hp'.controlUrl=hp.controlUrl
  stage : hp'.stage=.natpmpAddr ∧ hp'.gateway ∨ hp'.stage=.stun ∨ hp'.stage=.done

variable {o : Outside} {hp hp' : HostPort} {m : Mapping}
theorem hpBeginStun_goesOn : GoesOn hp (hpBeginStun o hp) := by
  unfold hpBeginStun hpSetStage hpFinish
  dsimp only
  split
  · exact ⟨rfl,rfl,rfl,rfl,.inr (.inl rfl)⟩
  · exact ⟨rfl,rfl,rfl,rfl,.inr (.inr rfl)⟩

theorem hpBeginNatpmp_goesOn : GoesOn hp (hpBeginNatpmp o hp) := by
  have hstun : GoesOn hp (hpBeginStun o { hp with gateway := true }) := by
    obtain ⟨h₁,h₂,h₃,h₄,h₅⟩ := @hpBeginStun_goesOn o { hp with gateway := true }
    exact ⟨h₁,h₂,h₃,h₄,h₅⟩
  unfold hpBeginNatpmp
  split
  · exact hpBeginStun_goesOn
  split
  · exact hpBeginStun_goesOn
  dsimp only
  split
  · exact hstun
  split
  · exact hstun
  · exact ⟨rfl,rfl,rfl,rfl,.inl ⟨rfl,rfl⟩⟩

theorem Wf.goesOn (h : Wf hp) (hnot : hp.natpmpMapped=false) (hg : GoesOn hp hp') : Wf hp' := by
  have hstage:=hg.stage
  refine ⟨hg.localPort ▸ h.port,?_,?_,?_,?_,?_⟩
  · rintro (he | he | he) <;> rw [he] at hstage <;> simp at hstage
  · rintro (he | he) <;> rw [he] at hstage <;> simp at hstage
  · rintro (he | he) <;> rw [he] at hstage
    · exact (hstage.resolve_right (by simp)).2
    · simp at hstage
  · intro hm
    rw [hg.natpmpMapped,hnot] at hm
    cases hm
  · intro _ hne
    rw [hg.mappedPort] at hne ⊢
    rw [hg.localPort,hg.controlUrl]
    exact h.upnp hnot hne

theorem Wf.finish (h : Wf hp) : Wf (hpFinish hp) where
  port := h.port
  early := by rintro (he | he | he) <;> cases he
  url := by rintro (he | he) <;> cases he
  router := by rintro (he | he) <;> cases he
  natpmp hm := ⟨rfl,(h.natpmp hm).2⟩
  upnp := h.upnp

theorem Wf.notMapped (h : Wf hp) (hstage : hp.stage≠.done) : hp.natpmpMapped=false := by
  cases hm : hp.natpmpMapped with
  | false => rfl
  | true => exact absurd (h.natpmp hm).1 hstage

def Held (hp : HostPort) (m : Mapping) : Prop := m.port=hp.localPort ∧
    match m.kind with
    | .upnp => hp.natpmpMapped=false ∧ (hp.stage=.upnpAdd ∨ hp.mappedPort≠0)
    | .natPmp => hp.stage=.natpmpMap ∧ hp.mappedPort=0 ∨ hp.natpmpMapped

theorem Held.goesOn (h : Held hp m) (hg : GoesOn hp hp') (hadd : hp.stage≠.upnpAdd)
    (hmap : hp.stage≠.natpmpMap) : Held hp' m := by
  obtain ⟨hport,hkind⟩ := h
  refine ⟨hport.trans hg.localPort.symm,?_⟩
  cases hk : m.kind with
  | upnp =>
    rw [hk] at hkind
    exact ⟨hg.natpmpMapped.trans hkind.1,.inr (hg.mappedPort ▸ hkind.2.resolve_left hadd)⟩
  | natPmp =>
    rw [hk] at hkind
    exact .inr (hg.natpmpMapped.trans (hkind.resolve_left fun hc => hmap hc.1))

theorem Held.later (h : Held hp m) (hport : hp'.localPort=hp.localPort)
    (hnot : hp.natpmpMapped=false) (hnot' : hp'.natpmpMapped=false) (hmap : hp.stage≠.natpmpMap)
    (hupnp : hp.stage=.upnpAdd ∨ hp.mappedPort≠0 → hp'.mappedPort≠0) : Held hp' m := by
  obtain ⟨hm,hkind⟩ := h
  refine ⟨hm.trans hport.symm,?_⟩
  cases hk : m.kind with
  | upnp =>
    rw [hk] at hkind
    exact ⟨hnot',.inr (hupnp hkind.2)⟩
  | natPmp =>
    rw [hk] at hkind
    exact absurd (hkind.resolve_left fun hc => hmap hc.1) (Bool.eq_false_iff.mp hnot)

theorem Wf.not_held (h : Wf hp) (hstage : hp.stage=.upnpDiscover ∨ hp.stage=.upnpDesc) :
    ¬ Held hp m := by
  have hzero:=h.early (hstage.imp_right .inl)
  have hnot : hp.natpmpMapped=false := h.notMapped (by rcases hstage with he | he <;> simp [he])
  rintro ⟨-,hkind⟩
  cases hk : m.kind with
  | upnp =>
    rw [hk] at hkind
    rcases hkind.2 with he | hne
    · rcases hstage with he' | he' <;> rw [he'] at he <;> cases he
    · exact hne hzero
  | natPmp =>
    rw [hk] at hkind
    rcases hkind with ⟨he,-⟩ | hm
    · rcases hstage with he' | he' <;> rw [he'] at he <;> cases he
    · rw [hnot] at hm
      cases hm

structure Pumped (o : Outside) (hp hp' : HostPort) : Prop where
  wf : Wf hp'
  held : ∀ m,Held hp m → Answered o hp → Held hp' m

section
variable (h : Wf hp)
include h
theorem Pumped.refl : Pumped o hp hp := ⟨h,fun _ hm _ => hm⟩

theorem Pumped.goesOn (hg : GoesOn hp hp') (hdone : hp.stage≠.done)
    (hadd : hp.stage≠.upnpAdd) (hmap : hp.stage≠.natpmpMap) : Pumped o hp hp' :=
  ⟨h.goesOn (h.notMapped hdone) hg,fun _ hm _ => hm.goesOn hg hadd hmap⟩

theorem pumped_discover (hstage : hp.stage=.upnpDiscover) :
    Pumped o hp (hpPumpUpnpDiscover o hp) := by
  have hnatpmp : Pumped o hp (hpBeginNatpmp o hp) :=
    .goesOn h hpBeginNatpmp_goesOn (by simp [hstage]) (by simp [hstage]) (by simp [hstage])
  unfold hpPumpUpnpDiscover
  split
  · split
    · refine ⟨⟨h.port,fun _ => h.early (.inl hstage),?_,?_,?_,h.upnp⟩,
        fun m hm => absurd hm (h.not_held (.inl hstage))⟩
      · rintro (he | he) <;> cases he
      · rintro (he | he) <;> cases he
      · intro hm
        have hdone:=(h.natpmp hm).1
        rw [hstage] at hdone
        cases hdone
    · exact hnatpmp
  · split
    · exact hnatpmp
    · exact .refl h

theorem pumped_desc (hstage : hp.stage=.upnpDesc) : Pumped o hp (hpOnDesc o hp).1 := by
  have hnone : ∀ m,¬ Held hp m := fun m => h.not_held (.inr hstage)
  have hzero:=h.early (.inr (.inl hstage))
  have hnot : hp.natpmpMapped=false := h.notMapped (by simp [hstage])
  have hurl : ∀ url,Wf { hp with controlUrl := url } := fun url => by
    refine ⟨h.port,fun _ => hzero,?_,h.router,h.natpmp,fun _ hne => absurd hzero hne⟩
    rintro (he | he)
    · rw [show hp.stage=.upnpAdd from he] at hstage
      cases hstage
    · rw [show hp.stage=.upnpExtip from he] at hstage
      cases hstage
  unfold hpOnDesc
  split
  · exact .goesOn h hpBeginNatpmp_goesOn (by simp [hstage]) (by simp [hstage]) (by simp [hstage])
  next url _ =>
  dsimp only
  split
  · exact ⟨(hurl url).goesOn hnot hpBeginNatpmp_goesOn,fun m hm => absurd hm (hnone m)⟩
  next hopen =>
  split
  · exact ⟨(hurl url).goesOn hnot hpBeginNatpmp_goesOn,fun m hm => absurd hm (hnone m)⟩
  refine ⟨⟨h.port,fun _ => hzero,fun _ => (not_or.mp hopen).1,?_,?_,?_⟩,
    fun m hm => absurd hm (hnone m)⟩
  · rintro (he | he) <;> cases he
  · exact fun hm => absurd hm (Bool.eq_false_iff.mp hnot)
  · exact fun _ hne => absurd hzero hne

theorem pumped_mapped (hstage : hp.stage=.upnpAdd) (deadline : ℕ) : Pumped o hp { hp with
      mappedPort := hp.localPort,stage := .upnpExtip,stageDeadlineMs := deadline } := by
  have hnot : hp.natpmpMapped=false := h.notMapped (by simp [hstage])
  refine ⟨⟨h.port,?_,fun _ => h.url (.inl hstage),?_,?_,fun _ _ => ⟨rfl,h.url (.inl hstage)⟩⟩,?_⟩
  · rintro (he | he | he) <;> cases he
  · rintro (he | he) <;> cases he
  · exact fun hm => absurd hm (Bool.eq_false_iff.mp hnot)
  · exact fun m hm _ => hm.later rfl hnot hnot (by simp [hstage]) fun _ => h.port

theorem pumped_add (hstage : hp.stage=.upnpAdd) : Pumped o hp (hpOnAdd o hp) := by
  unfold hpOnAdd
  dsimp only
  split
  · have hmapped:=pumped_mapped (o := o) h hstage 0
    have hg : GoesOn _ (hpBeginNatpmp o { hp with mappedPort := hp.localPort }) :=
      @hpBeginNatpmp_goesOn o { hp with mappedPort := hp.localPort }
    have hg' : GoesOn { hp with
        mappedPort := hp.localPort,stage := .upnpExtip,stageDeadlineMs := 0 }
        (hpBeginNatpmp o { hp with mappedPort := hp.localPort }) :=
      { hg with }
    exact ⟨hmapped.wf.goesOn (h.notMapped (by simp [hstage])) hg',
      fun m hm ha => (hmapped.held m hm ha).goesOn hg' (by simp) (by simp)⟩
  · exact pumped_mapped h hstage _

theorem pumped_http (hstage : hp.stage=.upnpDesc ∨ hp.stage=.upnpAdd ∨ hp.stage=.upnpExtip) :
    Pumped o hp (hpPumpUpnpHttp o hp).1 := by
  have hdone : hp.stage≠.done := by rcases hstage with he | he | he <;> simp [he]
  have hmap : hp.stage≠.natpmpMap := by rcases hstage with he | he | he <;> simp [he]
  have hnatpmp : (hp.stage=.upnpAdd → ¬ Answered o hp) → Pumped o hp (hpBeginNatpmp o hp) := by
    intro hlost
    refine ⟨h.goesOn (h.notMapped hdone) hpBeginNatpmp_goesOn,fun m hm ha => ?_⟩
    exact hm.goesOn hpBeginNatpmp_goesOn (fun he => hlost he ha) hmap
  unfold hpPumpUpnpHttp
  split
  · next hhttp =>
    dsimp only
    split
    · next hlate =>
      refine hnatpmp fun he ha => ?_
      simp only [Answered,he,hhttp,reduceCtorEq,or_false,true_and] at ha
      omega
    · exact .refl h
  · next hhttp =>
    refine hnatpmp fun he ha => ?_
    simp [Answered,he,hhttp] at ha
  · next status hhttp =>
    split
    · next hstatus =>
      refine hnatpmp fun he ha => ?_
      simp only [Answered,he,hhttp,reduceCtorEq,false_and,false_or,HttpPump.done.injEq] at ha
      exact hstatus ha
    split
    · next he => exact pumped_desc h he
    · next he => exact pumped_add h he
    · next he =>
      dsimp only
      split
      · exact ⟨h.finish,fun m hm _ => hm.goesOn ⟨rfl,rfl,rfl,rfl,.inr (.inr rfl)⟩
          (by simp [he]) (by simp [he])⟩
      · exact hnatpmp fun he' => by rw [he] at he'; cases he'
    · exact .refl h

theorem pumped_natpmpAddr (hstage : hp.stage=.natpmpAddr) (rs : List (List UInt8)) :
    Pumped o hp (hpNatpmpAddr o hp rs).1 := by
  have hnot : hp.natpmpMapped=false := h.notMapped (by simp [hstage])
  induction rs with
  | nil =>
    dsimp only [hpNatpmpAddr]
    split
    · exact .goesOn h hpBeginStun_goesOn (by simp [hstage]) (by simp [hstage]) (by simp [hstage])
    · exact .refl h
  | cons r rs ih =>
    dsimp only [hpNatpmpAddr]
    split
    · refine ⟨⟨h.port,?_,?_,fun _ => h.router (.inl hstage),?_,h.upnp⟩,?_⟩
      · rintro (he | he | he) <;> cases he
      · rintro (he | he) <;> cases he
      · exact fun hm => absurd hm (Bool.eq_false_iff.mp hnot)
      · exact fun m hm _ => hm.later rfl hnot hnot (by simp [hstage]) fun hu =>
          hu.resolve_left (by simp [hstage])
    · exact ih

theorem pumped_natpmpMap (hstage : hp.stage=.natpmpMap) :
    Pumped o hp (hpNatpmpMap o hp o.datagrams) := by
  have hnot : hp.natpmpMapped=false := h.notMapped (by simp [hstage])
  have hstun : ¬ (hp.mappedPort=0 ∧ Answered o hp) → Pumped o hp (hpBeginStun o hp) := by
    intro hlost
    refine ⟨h.goesOn hnot hpBeginStun_goesOn,?_⟩
    rintro m ⟨hport,hkind⟩ ha
    have hg:=@hpBeginStun_goesOn o hp
    refine ⟨hport.trans hg.localPort.symm,?_⟩
    cases hk : m.kind with
    | upnp =>
      rw [hk] at hkind
      have hne:=hkind.2.resolve_left fun he => by rw [hstage] at he; cases he
      exact ⟨hg.natpmpMapped.trans hnot,.inr (hg.mappedPort ▸ hne)⟩
    | natPmp =>
      rw [hk] at hkind
      rcases hkind with ⟨-,hzero⟩ | hm
      · exact absurd ⟨hzero,ha⟩ hlost
      · rw [hnot] at hm
        cases hm
  cases hdg : o.datagrams with
  | nil =>
    dsimp only [hpNatpmpMap]
    split
    · next hlate =>
      refine hstun fun ⟨hzero,ha⟩ => ?_
      simp only [Answered,hstage,hzero,hdg,natpmpGranted,if_true] at ha
      rcases ha with ⟨-,hin⟩ | ⟨ext,hext⟩
      · omega
      · cases hext
    · exact .refl h
  | cons r rs =>
    dsimp only [hpNatpmpMap]
    split
    · next ext hext =>
      have hgranted : natpmpGranted o := ⟨ext,by rw [hdg]; exact hext⟩
      refine ⟨⟨h.port,?_,?_,?_,fun _ => ⟨rfl,h.router (.inr hstage),ext.succ_ne_zero⟩,?_⟩,?_⟩
      · rintro (he | he | he) <;> cases he
      · rintro (he | he) <;> cases he
      · rintro (he | he) <;> cases he
      · intro hm
        cases hm
      · rintro m ⟨hport,hkind⟩ ha
        refine ⟨hport,?_⟩
        cases hk : m.kind with
        | upnp =>
          -- the recorded UPnP mapping excludes a granted NAT-PMP one
          rw [hk] at hkind
          have hne:=hkind.2.resolve_left fun he => by rw [hstage] at he; cases he
          simp only [Answered,hstage,if_neg hne] at ha
          exact absurd hgranted ha
        | natPmp => exact .inr rfl
    · next hnone =>
      refine hstun fun ⟨hzero,ha⟩ => ?_
      simp only [Answered,hstage,hzero,hdg,natpmpGranted,if_true] at ha
      rcases ha with ⟨hnil,-⟩ | ⟨ext,hext⟩
      · cases hnil
      · exact hnone ext hext

theorem pumped_stun (hstage : hp.stage=.stun) : Pumped o hp (hpPumpStun o hp) := by
  have hg : GoesOn hp (hpPumpStun o hp) := by
    unfold hpPumpStun
    split
    · split
      · exact ⟨rfl,rfl,rfl,rfl,.inr (.inr rfl)⟩
      · exact ⟨rfl,rfl,rfl,rfl,.inr (.inl hstage)⟩
    · exact ⟨rfl,rfl,rfl,rfl,.inr (.inl hstage)⟩
  exact .goesOn h hg (by simp [hstage]) (by simp [hstage]) (by simp [hstage])

theorem hostPortPump_pumped : Pumped o hp (hostPortPump o hp).1 := by
  by_cases hdrain : hp.stage=.stun ∧ o.stunReply
  · -- a STUN answer ends discovery before the stages are looked at
    have hfin : hpDrainGame o hp=hpFinish hp := if_pos hdrain
    unfold hostPortPump
    rw [hfin]
    exact .goesOn h ⟨rfl,rfl,rfl,rfl,.inr (.inr rfl)⟩ (by simp [hdrain.1]) (by simp [hdrain.1])
      (by simp [hdrain.1])
  have hsame : hpDrainGame o hp=hp := if_neg hdrain
  unfold hostPortPump
  rw [hsame]
  dsimp only
  split
  · next he => exact pumped_discover h he
  · next he => exact pumped_http h (.inl he)
  · next he => exact pumped_http h (.inr (.inl he))
  · next he => exact pumped_http h (.inr (.inr he))
  · next he => exact pumped_natpmpAddr h he _
  · next he => exact pumped_natpmpMap h he
  · next he => exact pumped_stun h he
  · exact .refl h

end

theorem hostPortOpen_wf {port : ℕ} (h : hostPortOpen o port=some hp) : Wf hp := by
  unfold hostPortOpen at h
  dsimp only at h
  split at h
  · cases h
  next p hp' =>
  have hmem:=mem_of_find?_eq_some hp'
  have hpos : p≠0 := by
    have := (mem_range'_1.mp hmem).1
    split at this <;> omega
  have hnew : Wf { localPort := p,tryRouter := !o.noRouter } :=
    ⟨hpos,fun _ => rfl,by simp,by simp,by simp,by simp⟩
  cases h
  split
  · exact hnew.finish
  unfold hpBeginUpnp
  split
  · exact hnew.goesOn rfl hpBeginStun_goesOn
  split
  · exact hnew.goesOn rfl hpBeginNatpmp_goesOn
  · exact ⟨hpos,fun _ => rfl,by simp [hpSetStage],by simp [hpSetStage],
      by simp [hpSetStage],by simp [hpSetStage]⟩

structure Known (w : World) : Prop where
  wf : ∀ hp∈w.relay.port,Wf hp
  held : ∀ m∈w.inForce,∃ hp∈w.relay.port,Held hp m

variable {w w' : World} {v : View} {op : Op}
theorem known_start : Known {} where
  wf hp hmem := by cases hmem
  held m hmem := by cases hmem

theorem hrUpdateHost_port (hwf : ∀ hp∈w.relay.port,Wf hp) :
    ∀ hp'∈(hrUpdateHost o v w.relay).1.port,Wf hp' := by
  unfold hrUpdateHost
  split
  · next hp hport =>
    rintro _ ⟨⟩
    exact (hostPortPump_pumped (hwf hp hport)).wf
  next hport =>
  split
  · intro hp' hmem
    exact hwf hp' hmem
  split
  · intro hp' hmem
    exact hwf hp' hmem
  next hp hopen =>
  rintro _ ⟨⟩
  exact (hostPortPump_pumped (hostPortOpen_wf hopen)).wf

theorem hostRelayUpdate_port (hwf : ∀ hp∈w.relay.port,Wf hp) :
    ∀ hp'∈(hostRelayUpdate o v w.relay).1.port,Wf hp' := by
  unfold hostRelayUpdate
  split
  · exact fun _ hmem => by cases hmem
  split
  · exact hrUpdateHost_port hwf
  · exact fun _ hmem => by cases hmem

theorem known_update (h : Known w) (hkept : Kept w (.update o v)) :
    Known (w.asks (hostRelayUpdate o v w.relay)) := by
  refine ⟨hostRelayUpdate_port h.wf,fun m hm => ?_⟩
  have hmem : m∈w.inForce := (mem_filter.mp hm).1
  obtain ⟨hactive,hhost,hanswered⟩ := hkept (ne_nil_of_mem hmem)
  obtain ⟨hp,hport,hheld⟩ := h.held m hmem
  have hpump : (hostRelayUpdate o v w.relay).1.port=some (hostPortPump o hp).1 := by
    simp only [hostRelayUpdate,hactive,hhost,hrUpdateHost,show w.relay.port=some hp from hport,
      Bool.not_true,Bool.false_eq_true,if_false,if_true]
  exact ⟨_,hpump,(hostPortPump_pumped (h.wf hp hport)).held m hheld (hanswered hp hport)⟩

theorem Waiting.held (hwf : Wf hp) (h : Waiting hp m) : Held hp m := by
  obtain ⟨hport,hkind⟩ := h
  refine ⟨hport,?_⟩
  cases hk : m.kind with
  | upnp =>
    rw [hk] at hkind
    exact ⟨hwf.notMapped (by simp [show hp.stage=.upnpAdd from hkind]),.inl hkind⟩
  | natPmp =>
    rw [hk] at hkind
    exact .inl hkind

theorem Held.unmap (hwf : Wf hp) (h : Held hp m) (hnot : ¬ Waiting hp m) (hcan : match m.kind with
      | .upnp => o.canBegin=true ∧ requestWritten (o.now+600) o.deleteSize o.deletePumps=true
      | .natPmp => o.canSend=true) : m.deleted∈hostPortUnmap o hp := by
  obtain ⟨kind,port⟩ := m
  obtain ⟨hport,hkind⟩ := h
  cases kind with
  | upnp =>
    obtain ⟨hmapped,hstage⟩ := hkind
    have hne:=hstage.resolve_left fun he => hnot ⟨hport,he⟩
    obtain ⟨heq,hurl⟩ := hwf.upnp hmapped hne
    have hdel : Mapping.deleted ⟨.upnp,port⟩=.deletePortMapping hp.mappedPort := by
      rw [heq,← hport]
      rfl
    rw [hdel]
    obtain ⟨hbegin,hwritten⟩ : o.canBegin=true ∧
      requestWritten (o.now+600) o.deleteSize o.deletePumps=true := hcan
    exact mem_append_left _ (by simp [hne,hurl,hmapped,hbegin,hwritten])
  | natPmp =>
    have hmapped:=hkind.resolve_left fun hc => hnot ⟨hport,hc⟩
    obtain ⟨-,hgateway,hne⟩ := hwf.natpmp hmapped
    have hdel : Mapping.deleted ⟨.natPmp,port⟩=.natpmpDelete hp.localPort := by
      rw [← hport]
      rfl
    rw [hdel]
    exact mem_append_right _ (by simp [hne,hgateway,hmapped,show o.canSend=true from hcan])

theorem leave_inForce (h : Known w) (hkept : Kept w (.leave o)) :
    (w.asks (hostRelayLeave o w.relay)).inForce=[] := by
  refine filter_eq_nil_iff.mpr fun m hm => ?_
  obtain ⟨hp,hport,hheld⟩ := h.held m hm
  obtain ⟨hnot,hcan⟩ := hkept hp hport m hm
  have hdel:=hheld.unmap (h.wf hp hport) hnot hcan
  simpa [hostRelayLeave,show w.relay.port=some hp from hport] using hdel

theorem known_step (hstep : step w op=some w') (hkept : Kept w op) (h : Known w) : Known w' := by
  cases op with
  | update o v =>
    cases hstep
    exact known_update h hkept
  | releasePort =>
    cases hstep
    refine ⟨fun _ hmem => (by cases hmem),fun m hm => ?_⟩
    have hmem:=(mem_filter.mp hm).1
    rw [show w.inForce=[] from hkept] at hmem
    cases hmem
  | leave o =>
    cases hstep
    refine ⟨fun _ hmem => (by cases hmem),fun m hm => ?_⟩
    rw [leave_inForce h hkept] at hm
    cases hm
  | grant m =>
    dsimp only [step] at hstep
    split at hstep
    · cases hstep
      refine ⟨h.wf,fun m' hm' => ?_⟩
      rcases mem_cons.mp hm' with rfl | hmem
      · obtain ⟨hp,hport,hwait⟩ := hkept
        exact ⟨hp,hport,hwait.held (h.wf hp hport)⟩
      · exact h.held m' hmem
    · cases hstep

/-- A leave at the end of a run in which the port knew of every mapping: a delete has been
requested for each. -/
theorem leave_deletes_mappings (ops : List Op) (o : Outside) (w : World)
    (hrun : runCalls step (ops++[.leave o]) {}=some w)
    (hkept : ∀ pre op t,pre++[op] <+: ops++[.leave o] → runCalls step pre {}=some t → Kept t op) :
    w.inForce=[] := by
  obtain ⟨t,ht,hlast⟩ := runCalls_snoc hrun
  have hknown : Known t := runCalls_invariant (fun _ _ _ hs hc hi => known_step hs hc hi) ht
    (fun pre op u hpre hu => hkept pre op u (hpre.trans (prefix_append _ _)) hu) known_start
  cases hlast
  exact leave_inForce hknown (hkept ops (.leave o) t prefix_rfl ht)

def sampleHost : View := { active := true,isHost := true,bindPort := 7777 }

def mapsByUpnp : List Op := [.update { location := some true } sampleHost,
    .update { http := .done 200,controlUrl := some [47] } sampleHost,.grant ⟨.upnp,7777⟩,
    .update { http := .done 200 } sampleHost]

def mappingByUpnp (stage : Stage) (mapped : ℕ) (inForce : List Mapping) : World where
  relay.port := some
    { localPort := 7777,tryRouter := true,stage := stage,stageDeadlineMs := 4500,
      controlUrl := [47],mappedPort := mapped }
  sent := [.addPortMapping 7777]
  inForce := inForce

/-- The router takes the delete in two pieces. -/
def slowLeave : Outside :=
  { deletePumps := [(0,.wouldBlock),(10,.takes 300),(20,.takes 200)] }

theorem leave_deletes_mappings_upnp :
    ∃ w,runCalls step (mapsByUpnp++[.leave slowLeave]) {}=some w ∧ w.inForce=[] := by
  have hrun : runCalls step (mapsByUpnp++[.leave slowLeave]) {} =
      some { sent := [.deletePortMapping 7777,.addPortMapping 7777] } := by
    rfl
  have hasked : runCalls step (mapsByUpnp.take 2) {}=some (mappingByUpnp .upnpAdd 0 []) := by
    rfl
  have hmade : runCalls step (mapsByUpnp.take 3) {} =
      some (mappingByUpnp .upnpAdd 0 [⟨.upnp,7777⟩]) := by
    rfl
  have hknown : runCalls step mapsByUpnp {} =
      some (mappingByUpnp .upnpExtip 7777 [⟨.upnp,7777⟩]) := by
    rfl
  have hsteps : ∀ pre op,pre++[op] <+: mapsByUpnp++[.leave slowLeave] →
      ∀ t,runCalls step pre {}=some t → Kept t op := by
    refine forall_steps_cons ?_ (forall_steps_cons ?_ (forall_steps_cons ?_ (forall_steps_cons ?_
      (forall_steps_cons ?_ forall_steps_nil))))
    · intro t ht
      cases ht
      exact fun hne => absurd rfl hne
    · intro t ht
      cases ht
      exact fun hne => absurd rfl hne
    · intro t ht
      cases hasked.symm.trans ht
      exact ⟨_,rfl,rfl,rfl⟩
    · intro t ht _
      cases hmade.symm.trans ht
      refine ⟨rfl,rfl,?_⟩
      rintro _ ⟨⟩
      exact .inr rfl
    · intro t ht
      cases hknown.symm.trans ht
      rintro _ ⟨⟩ m hm
      cases mem_singleton.mp hm
      refine ⟨?_,rfl,by decide⟩
      rintro ⟨-,hstage⟩
      cases hstage
  exact ⟨_,hrun,leave_deletes_mappings mapsByUpnp slowLeave _ hrun
    fun pre op t hpre ht => hsteps pre op hpre t ht⟩

def released : List Op := mapsByUpnp++[.releasePort]
def roleChanged : List Op := mapsByUpnp++[.update {} { active := true,isHost := false }]
def inactive : List Op := mapsByUpnp++[.update {} { active := false,isHost := true }]

def mapsTwice : List Op := mapsByUpnp ++
    [.update { http := .done 200,externalIp := false } sampleHost,
      .update { datagrams := [[0,128,0,0,0,0,0,0,1,2,3,4]] } sampleHost,.grant ⟨.natPmp,7777⟩,
      .update { datagrams := [[0,129,0,0,0,0,0,0,30,97,30,97,0,0,14,16]] } sampleHost]

def Outlives (ops : List Op) : Prop :=
  ∃ w,runCalls step (ops++[.leave {}]) {}=some w ∧ ⟨.upnp,7777⟩∈w.inForce

theorem outlives_of_run {ops : List Op}
    (h : (runCalls step (ops++[.leave {}]) {}).map (·.inForce)=some [⟨.upnp,7777⟩]) :
    Outlives ops := by
  obtain ⟨w,hw,hforce⟩ := Option.map_eq_some_iff.mp h
  exact ⟨w,hw,hforce ▸ mem_singleton_self _⟩

theorem mapping_outlives_leave :
    Outlives released ∧ Outlives roleChanged ∧ Outlives inactive ∧ Outlives mapsTwice :=
  ⟨outlives_of_run (by decide),outlives_of_run (by decide),outlives_of_run (by decide),
    outlives_of_run (by decide)⟩

end RecompNet.HostRelay
