import RecompNet.Lobby.ModXfer

/-!
# Who may install a mod

The events since a transfer was opened say what it is: who opened it, and the blob taken as its
header.
-/
namespace RecompNet.Lobby
open Xfer (ascii)

def Event.marks : Event → Bool
  | .asked _ => true
  | .serves _ _ => true
  | .header _ => true
  | _ => false

def Event.ends : Event → Bool
  | .closed => true
  | _ => false

variable (past : List Event)
def transfer : List Event := (past.takeWhile (!·.ends)).filter Event.marks

variable {e : Event}
theorem transfer_mark (he : e.marks) (past : List Event) :
    transfer (e::past)=e::transfer past := by
  cases e <;> first | rfl | cases he

theorem transfer_quiet (he : e.marks=false) (hend : e.ends=false)
    (past : List Event) : transfer (e::past)=transfer past := by
  unfold transfer
  rw [List.takeWhile_cons_of_pos (by simp [hend]),List.filter_cons_of_neg (by simp [he])]

def Authorised (data : List UInt8) (len : UInt32) (sha : CText 64) (past : List Event) : Prop :=
  ∃ id blob,transfer past=[.header blob,.asked id] ∧ (readHeader blob).id=id ∧
    len=(readHeader blob).len ∧ UInt32.ofNat data.length=len ∧ sha=(readHeader blob).sha

/-- The client is not the sender of the transfer. -/
def NotSending : Prop := ∀ peer id,.serves peer id∉transfer past

/-- The header of the transfer names a package. -/
def HeaderNamed : Prop := ∃ blob,.header blob∈transfer past ∧ (readHeader blob).id≠.empty

def InstallFair : Event → List Event → Prop
  | .install data len sha,past => Authorised data len sha past ↔ NotSending past ∧ HeaderNamed past
  | _,_ => True

inductive Opening (id : ModId) : Event → Prop
  | asked : Opening id (.asked id)
  | serves (peer : PlayerId) : Opening id (.serves peer id)

inductive Stage (x : ModXfer) : List Event → Prop
  | idle : x.link=none → x.busy=false → x.sha=.empty → Stage x []
  | waiting {e : Event} : x.link.isSome → x.busy → x.sha=.empty → x.id≠.empty →
      Opening x.id e → Stage x [e]
  | described {e : Event} {id : ModId} (blob : List UInt8) : x.link.isSome → x.busy →
      id≠.empty → Opening id e → (readHeader blob).id=.empty ∨ (readHeader blob).id=id →
      x.sha=(readHeader blob).sha → x.sha≠.empty → x.expect=(readHeader blob).len →
      Stage x [.header blob,e]

variable {x : ModXfer} {t : List Event}
theorem Stage.congr {x' : ModXfer} (h : Stage x t)
    (hlink : x'.link.isSome=x.link.isSome) (hbusy : x'.busy=x.busy) (hsha : x'.sha=x.sha)
    (hid : x'.id=x.id) (hexpect : x'.expect=x.expect) : Stage x' t := by
  cases h with
  | idle hl hb hs =>
    rw [hl] at hlink
    exact .idle (Option.not_isSome_iff_eq_none.mp (by rw [hlink]; simp)) (hbusy.trans hb)
      (hsha.trans hs)
  | waiting hl hb hs hne ho =>
    exact .waiting (hlink.trans hl) (hbusy.trans hb) (hsha.trans hs) (hid ▸ hne) (hid ▸ ho)
  | described blob hl hb hne ho hdr hs hsne hx =>
    exact .described blob (hlink.trans hl) (hbusy.trans hb) hne ho hdr (hsha.trans hs)
      (hsha ▸ hsne) (hexpect.trans hx)

theorem Stage.of_idle (h : Stage x t) (hb : x.busy=false) : t=[] ∧ x.sha=.empty := by
  cases h with
  | idle _ _ hs => exact ⟨rfl,hs⟩
  | waiting _ hb' => rw [hb] at hb'; cases hb'
  | described _ _ hb' => rw [hb] at hb'; cases hb'

theorem Stage.of_waiting (h : Stage x t) (hl : x.link.isSome)
    (hs : x.sha=.empty) : x.busy ∧ x.id≠.empty ∧ ∃ e,Opening x.id e ∧ t=[e] := by
  cases h with
  | idle hl' => rw [hl'] at hl; cases hl
  | waiting _ hb _ hne ho => exact ⟨hb,hne,_,ho,rfl⟩
  | described _ _ _ _ _ _ _ hsne => exact absurd hs hsne

structure Recorded (c : Client) : Prop where
  fair : Trace.All InstallFair c.log
  stage : Stage c.xfer (transfer c.log)

namespace Client
variable {c : Client}
theorem recorded_fresh (name : DisplayName) : Recorded (fresh name) :=
  ⟨trivial,.idle rfl rfl rfl⟩

section
variable (h : Recorded c)
include h
theorem recorded_frame {c' : Client} (hx : c'.xfer=c.xfer) (hlog : c'.log=c.log) : Recorded c' :=
  ⟨hlog ▸ h.fair,by rw [hx,hlog]; exact h.stage⟩

theorem recorded_note {e : Event} (hm : e.marks=false) (hend : e.ends=false)
    (hf : InstallFair e c.log) : Recorded (c.note e) where
  fair := ⟨hf,h.fair⟩
  stage := by
    change Stage c.xfer (transfer (e::c.log))
    rw [transfer_quiet hm hend]
    exact h.stage

theorem recorded_sendSetReady (ready : Bool) : Recorded (c.sendSetReady ready) :=
  recorded_note h rfl rfl trivial

theorem recorded_sendSignalTo (dest : PlayerId) (type : SigType)
    (text : List UInt8) : Recorded (c.sendSignalTo dest type text) := by
  unfold sendSignalTo
  split
  · exact h
  · exact recorded_note h rfl rfl trivial

theorem recorded_setLaunchBlocked (blocked : Bool) : Recorded (c.setLaunchBlocked blocked) := by
  unfold setLaunchBlocked
  split
  · exact h
  have hset : Recorded { c with launchBlocked := blocked } := recorded_frame h rfl rfl
  split
  · exact hset
  · exact recorded_sendSetReady hset _

theorem recorded_setMatchCaps (caps : MatchCaps) : Recorded (c.setMatchCaps caps) := by
  unfold setMatchCaps
  split
  · exact h
  · exact recorded_frame h rfl rfl

theorem recorded_requestStart (caps : Option MatchCaps) (serialises : Bool) :
    Recorded (c.requestStart caps serialises).1 := by
  have hhold : ∀ why,Recorded (c.hold why).1 := fun why => recorded_frame h rfl rfl
  unfold requestStart
  split
  · exact h
  split
  · exact hhold _
  split
  · exact hhold _
  split
  · exact hhold _
  split
  · exact hhold _
  have hcaps : Recorded { c with caps := (caps.filter (·.valid)).getD c.caps } :=
    recorded_frame h rfl rfl
  exact recorded_note hcaps rfl rfl trivial

variable (m : RoomMsg)
theorem recorded_onCreated : Recorded (c.onCreated m) := by
  unfold onCreated
  refine recorded_sendSetReady ?_ _
  refine recorded_frame h ?_ ?_ <;> split <;> split <;> rfl

theorem recorded_onJoined : Recorded (c.onJoined m) := by
  unfold onJoined
  refine recorded_sendSetReady ?_ _
  exact recorded_frame h rfl rfl

theorem recorded_onLobbyUpdate : Recorded (c.onLobbyUpdate m) := by
  have hroom : Recorded (c.ingestRoom m) := recorded_frame h rfl rfl
  unfold onLobbyUpdate
  simp only
  split
  · exact recorded_sendSetReady hroom _
  · exact hroom

end

theorem recorded_modXferReset (h : Trace.All InstallFair c.log) : Recorded c.modXferReset :=
  ⟨⟨trivial,h⟩,.idle rfl rfl rfl⟩

theorem recorded_modXferFail (h : Trace.All InstallFair c.log) (why : List UInt8) :
    Recorded (c.modXferFail why) := recorded_modXferReset h

theorem recorded_modCancel (h : Recorded c) : Recorded c.modCancel := by
  unfold modCancel
  split
  · exact h
  · exact recorded_modXferReset h.fair

theorem recorded_disconnect (h : Recorded c) : Recorded c.disconnect :=
  ⟨⟨trivial,h.fair⟩,.idle rfl rfl rfl⟩

theorem modXferOpen_cases (c : Client) (inp : OpenInput) (peer : List UInt8) :
    (∃ (c₀ : Client) (why : List UInt8),
      c.modXferOpen inp peer=(c₀.modXferFail why,false) ∧ c₀.log=c.log) ∨
      ∃ c',c.modXferOpen inp peer=(c',true) ∧ c'.log=c.log ∧ c'.xfer.link.isSome ∧
        c'.xfer.busy ∧ c'.xfer.sha=c.xfer.sha := by
  unfold modXferOpen
  split
  · exact .inl ⟨_,_,rfl,rfl⟩
  · exact .inr ⟨_,rfl,rfl,rfl,rfl,rfl⟩

theorem recorded_holdPacked (h : Recorded c) (hb : c.xfer.busy=false) (inp : OpenInput)
    (sender : List UInt8) (row : ModPkg) (hrow : row.id≠.empty) (blob : Xfer.Blob)
    (sha : CText 64) : Recorded (c.holdPacked inp sender row blob sha) := by
  obtain ⟨ht,hsha⟩ := h.stage.of_idle hb
  unfold holdPacked
  rcases modXferOpen_cases c inp sender with ⟨c₀,why,heq,hlog⟩ | ⟨c',heq,hlog,hl,hb',hs⟩
  · rw [heq]
    exact recorded_modXferFail (hlog ▸ h.fair) why
  rw [heq]
  refine ⟨⟨trivial,hlog ▸ h.fair⟩,?_⟩
  change Stage _ (transfer (.serves (.print _ sender) row.id::c'.log))
  rw [transfer_mark rfl,hlog,ht]
  exact .waiting hl hb' (hs.trans hsha) hrow (.serves _)

theorem recorded_modXferOnRequest (h : Recorded c) (inp : OpenInput)
    (pack : ModId → ModVer → Packed) (sender text : List UInt8) :
    Recorded (c.modXferOnRequest inp pack sender text) := by
  have hnak : ∀ why,Recorded (c.nak sender why) := fun why => recorded_sendSignalTo h _ _ _
  unfold modXferOnRequest
  split
  · exact h
  split
  · exact hnak _
  next hb =>
  split
  · exact h
  next id _ _ =>
  split
  · exact h
  next hid =>
  split
  · exact hnak _
  next row hrow =>
  split
  · exact hnak _
  split
  · exact hnak _
  have hrowid : row.id.bytes=id := by simpa using List.find?_some hrow
  have hne : row.id≠.empty := by
    intro he
    rw [he] at hrowid
    exact hid (.inl hrowid.symm)
  exact recorded_holdPacked h (by simpa using hb) inp sender row hne _ _

theorem recorded_modRequest (h : Recorded c) (inp : OpenInput) (delivers : Bool)
    (packageId version : List UInt8) : Recorded (c.modRequest inp delivers packageId version) := by
  unfold modRequest
  split
  · exact h
  split
  · exact h
  next hb =>
  split
  · exact h
  next hid =>
  obtain ⟨ht,-⟩ := h.stage.of_idle (by simpa using hb)
  simp only
  rcases modXferOpen_cases c inp c.hostPlayerId.bytes with
    ⟨c₀,why,heq,hlog⟩ | ⟨c',heq,hlog,hl,hb',-⟩
  · rw [heq]
    exact recorded_modXferFail (hlog ▸ h.fair) why
  rw [heq]
  have hne : CText.print 95 packageId≠.empty := fun he =>
    hid ((CText.print_eq_empty (by decide)).mp he)
  have hasked : Recorded { c' with
      xfer := { c'.xfer with
        sending := false
        sha := .empty
        expect := 0
        id := .print _ packageId
        ver := .print _ version }
      log := .asked (.print _ packageId)::c'.log } := by
    refine ⟨⟨trivial,hlog ▸ h.fair⟩,?_⟩
    change Stage _ (transfer (.asked (.print _ packageId)::c'.log))
    rw [transfer_mark rfl,hlog,ht]
    exact .waiting hl hb' rfl hne .asked
  simp only
  split
  · exact recorded_modXferFail hasked.fair _
  · exact recorded_sendSignalTo hasked _ _ _

theorem recorded_takeHeader (h : Recorded c) (hl : c.xfer.link.isSome) (hs : c.xfer.sha=.empty)
    (env : PumpEnv) (blob : List UInt8) : Recorded (c.takeHeader env blob) := by
  obtain ⟨hb,hne,e,ho,ht⟩ := h.stage.of_waiting hl hs
  have hfair : Trace.All InstallFair (.header blob::c.log) := ⟨trivial,h.fair⟩
  unfold takeHeader
  simp only
  split
  · exact recorded_modXferFail hfair _
  next hmatch =>
  split
  · exact recorded_modXferFail hfair _
  next hread =>
  split
  · exact recorded_modXferFail hfair _
  refine ⟨hfair,?_⟩
  change Stage _ (transfer (.header blob::c.log))
  rw [transfer_mark rfl,ht]
  have hid : (readHeader blob).id=.empty ∨ (readHeader blob).id=c.xfer.id := by
    by_contra hno
    rw [not_or] at hno
    exact hmatch ⟨hne,hno.1,hno.2⟩
  exact .described blob hl hb hne ho hid rfl (fun he => hread (.inl he)) rfl

theorem installFair_of_stage {x : ModXfer} {past : List Event} {data : List UInt8}
    (h : Stage x (transfer past)) (hl : x.link.isSome) (hs : x.sha≠.empty)
    (hlen : UInt32.ofNat data.length=x.expect) :
    InstallFair (.install data (UInt32.ofNat data.length) x.sha) past := by
  generalize ht : transfer past=t at h
  cases h with
  | idle hl' => rw [hl'] at hl; cases hl
  | waiting _ _ hs' => exact absurd hs' hs
  | @described e id blob _ _ hne ho hdr hsha _ hx =>
    constructor
    · rintro ⟨id',blob',hrec,hid',-,-,-⟩
      rw [ht] at hrec
      obtain ⟨rfl,rfl⟩ : blob=blob' ∧ e=.asked id' := by simpa using hrec
      cases ho
      refine ⟨fun peer id hm => ?_,blob,?_,?_⟩
      · rw [ht] at hm
        simp at hm
      · rw [ht]
        exact List.mem_cons_self
      · rw [hid']
        exact hne
    · rintro ⟨hnot,blob',hm,hnamed⟩
      rw [ht] at hm
      obtain rfl : blob'=blob := by
        rcases List.mem_cons.mp hm with heq | hm
        · exact Event.header.inj heq
        · cases List.mem_singleton.mp hm
          cases ho
      cases ho with
      | serves peer =>
        refine absurd ?_ (hnot peer id)
        rw [ht]
        simp
      | asked =>
        exact ⟨id,blob',ht,hdr.resolve_left hnamed,hlen.trans hx,rfl,hsha⟩

theorem recorded_takePayload (h : Recorded c) (hl : c.xfer.link.isSome) (hs : c.xfer.sha≠.empty)
    (env : PumpEnv) (blob : List UInt8) : Recorded (c.takePayload env blob) := by
  unfold takePayload
  simp only
  split
  · exact recorded_modXferFail h.fair _
  next hlen =>
  split
  · exact recorded_modXferFail h.fair _
  have hfair : InstallFair (.install blob (UInt32.ofNat blob.length) c.xfer.sha) c.log :=
    installFair_of_stage h.stage hl hs (not_not.mp hlen)
  have hnote:=recorded_note h rfl rfl hfair
  split
  · exact recorded_modXferFail hnote.fair _
  · refine recorded_sendSetReady (recorded_modXferReset ?_) _
    exact hnote.fair

theorem recorded_takeBlobs (env : PumpEnv) (blobs : List (List UInt8)) (h : Recorded c)
    (hl : c.xfer.link.isSome) : Recorded (takeBlobs env blobs c) := by
  induction blobs generalizing c with
  | nil => exact h
  | cons blob rest ih =>
    have htaken : Recorded { c with xfer := { c.xfer with
        link := c.xfer.link.map Xfer.IceXfer.takeBlob } } :=
      ⟨h.fair,h.stage.congr (by simp) rfl rfl rfl rfl⟩
    have hl' : ({ c with xfer := { c.xfer with
        link := c.xfer.link.map Xfer.IceXfer.takeBlob } } : Client).xfer.link.isSome := by
      simpa using hl
    unfold takeBlobs
    simp only
    generalize ({ c with xfer := { c.xfer with
        link := c.xfer.link.map Xfer.IceXfer.takeBlob } } : Client)=d at htaken hl'
    have hblob : Recorded (d.modXferOnBlob env blob) := by
      unfold modXferOnBlob
      split
      · next hs => exact recorded_takeHeader htaken hl' hs env blob
      · next hs => exact recorded_takePayload htaken hl' hs env blob
    split
    · exact hblob
    · next hsome => exact ih hblob (by simpa [Option.isSome_iff_ne_none] using hsome)

theorem recorded_modXferReleaseHeld (h : Recorded c) (env : PumpEnv) :
    Recorded (c.modXferReleaseHeld env) := by
  unfold modXferReleaseHeld
  split
  · next x blob hlink _ =>
    split
    · exact h
    split
    · exact h
    split
    · exact recorded_modXferReset (recorded_sendSignalTo h _ _ _).fair
    split
    · exact recorded_modXferFail h.fair _
    unfold queueHeld
    simp only
    split
    · exact recorded_modXferFail h.fair _
    split
    · exact recorded_modXferFail h.fair _
    · exact ⟨h.fair,h.stage.congr (by rw [hlink]; rfl) rfl rfl rfl rfl⟩
  · exact h

theorem recorded_finishSending (h : Recorded c) : Recorded c.finishSending := by
  unfold finishSending
  split
  · split
    · exact recorded_modXferReset h.fair
    · exact h
  · exact h

theorem recorded_pumpBlobs (h : Recorded c) (env : PumpEnv) : Recorded (c.pumpBlobs env) := by
  unfold pumpBlobs
  simp only
  have hheld : Recorded (if c.xfer.hold.isSome ∧ c.xfer.connectedMs≠0
      then c.modXferReleaseHeld env else c) := by
    split
    · exact recorded_modXferReleaseHeld h env
    · exact h
  generalize (if c.xfer.hold.isSome ∧ c.xfer.connectedMs≠0
      then c.modXferReleaseHeld env else c)=d at hheld
  split
  · exact hheld
  next x hx =>
  have hshown : Recorded (d.showProgress x) ∧ (d.showProgress x).xfer.link.isSome := by
    unfold showProgress
    split
    · exact ⟨⟨hheld.fair,hheld.stage.congr rfl rfl rfl rfl rfl⟩,by simp [hx]⟩
    · exact ⟨hheld,by simp [hx]⟩
  exact recorded_finishSending (recorded_takeBlobs env _ hshown.1 hshown.2)

theorem recorded_modXferPump (h : Recorded c) (env : PumpEnv) : Recorded (c.modXferPump env) := by
  unfold modXferPump
  split
  · exact h
  next x hx =>
  simp only
  have hnoted : Recorded (noteState { c with xfer := { c.xfer with
      link := some (x.pump env.link) } } env) := by
    unfold noteState
    split
    · exact ⟨h.fair,h.stage.congr (by rw [hx]; rfl) rfl rfl rfl rfl⟩
    · exact ⟨h.fair,h.stage.congr (by rw [hx]; rfl) rfl rfl rfl rfl⟩
  generalize noteState { c with xfer := { c.xfer with
      link := some (x.pump env.link) } } env=d at hnoted
  split
  · exact recorded_modXferFail hnoted.fair _
  split
  · exact recorded_modXferFail hnoted.fair _
  split
  · exact recorded_modXferFail hnoted.fair _
  · exact recorded_pumpBlobs hnoted env

theorem recorded_call (c : Client) (a : Call) (h : Recorded c) : Recorded (c.call a) := by
  cases a with
  | connect => exact recorded_frame (recorded_disconnect h) rfl rfl
  | disconnect => exact recorded_disconnect h
  | welcome | launch | left | leave | setHooks => exact recorded_frame h rfl rfl
  | created m => exact recorded_onCreated h m
  | joined m => exact recorded_onJoined h m
  | lobbyUpdate m => exact recorded_onLobbyUpdate h m
  | setLaunchBlocked blocked => exact recorded_setLaunchBlocked h blocked
  | setMatchCaps caps => exact recorded_setMatchCaps h caps
  | requestStart caps serialises => exact recorded_requestStart h caps serialises
  | modReq inp pack sender text => exact recorded_modXferOnRequest h inp pack sender text
  | modNak text => exact recorded_modXferFail h.fair _
  | modRequest inp delivers packageId version =>
    exact recorded_modRequest h inp delivers packageId version
  | modCancel => exact recorded_modCancel h
  | pump env => exact recorded_modXferPump h env

end Client

/-- An install is authorised exactly where nothing was being sent and its header named it. -/
theorem install_authorised_iff (name : DisplayName) (calls : List Call) (later past : List Event)
    (data : List UInt8) (len : UInt32) (sha : CText 64)
    (hlog : ((Client.fresh name).run calls).log=later++.install data len sha::past) :
    Authorised data len sha past ↔ NotSending past ∧ HeaderNamed past := by
  have hrec : Recorded ((Client.fresh name).run calls) :=
    Client.run_invariant Client.recorded_call (Client.recorded_fresh name) calls
  have hfair:=hrec.fair
  rw [hlog] at hfair
  exact hfair.at

def twoBytes : List UInt8 :=
  ascii "\x7b\"id\":\"pack\",\"ver\":\"1\",\"len\":2,\"sha256\":\"digest\"\x7d"
def twoBytesUnnamed : List UInt8 := ascii "\x7b\"len\":2,\"sha256\":\"digest\"\x7d"

variable (header : List UInt8)
def delivers : PumpEnv where
  link := ⟨1,.connected,[(Xfer.Pkt.data 1 header.length 0 header).encode,
    (Xfer.Pkt.data 2 2 0 [7,8]).encode],fun _ => true⟩
  path := text "host"
  alloc := true
  install := fun _ _ _ => none

def guestCalls : List Call :=
  [.connect,.welcome (text "guest"),.joined ⟨text "host",none,[]⟩,.setHooks true true,
    .modRequest ⟨1,true⟩ true (ascii "pack") (ascii "1"),.pump (delivers header)]

def hostCalls : List Call :=
  [.connect,.welcome (text "host"),.created ⟨text "host",none,[]⟩,.setHooks true true,
    .setMatchCaps ⟨true,[⟨text "pack",text "1",.empty,.empty⟩],by decide⟩,
    .modReq ⟨1,true⟩ (fun _ _ => .packed ⟨[1,2,3],by decide⟩ (text "other")) (ascii "guest")
      (ascii "pack@1"),.pump (delivers header)]

def asking : List Event := [.signal (text "host") .modReq (ascii "pack@1"),.asked (text "pack")]
def serving : List Event := [.serves (text "guest") (text "pack")]

variable (opening : List Event)
def beforeInstall : List Event := .header header::(opening++[.setReady true,.closed])

def installLog : List Event := [.setReady false,.closed] ++
    .install [7,8] 2 (text "digest")::beforeInstall header opening

theorem install_authorised_guest :
    ((Client.fresh .empty).run (guestCalls twoBytes)).log=installLog twoBytes asking ∧
      Authorised [7,8] 2 (text "digest") (beforeInstall twoBytes asking) := by
  have hlog : ((Client.fresh .empty).run (guestCalls twoBytes)).log =
      installLog twoBytes asking := by decide +kernel
  have hrec : transfer (beforeInstall twoBytes asking) =
      [.header twoBytes,.asked (text "pack")] := by decide +kernel
  refine ⟨hlog,(install_authorised_iff .empty _ _ _ _ _ _ hlog).mpr ⟨?_,twoBytes,?_,?_⟩⟩
  · intro peer id hm
    rw [hrec] at hm
    simp at hm
  · rw [hrec]
    exact List.mem_cons_self
  · decide +kernel

theorem installs_unasked :
    (((Client.fresh .empty).run (hostCalls twoBytes)).log=installLog twoBytes serving ∧
      ¬ Authorised [7,8] 2 (text "digest") (beforeInstall twoBytes serving)) ∧
    ((Client.fresh .empty).run (guestCalls twoBytesUnnamed)).log =
        installLog twoBytesUnnamed asking ∧
      ¬ Authorised [7,8] 2 (text "digest") (beforeInstall twoBytesUnnamed asking) := by
  refine ⟨⟨by decide +kernel,?_⟩,by decide +kernel,?_⟩
  · rintro ⟨id,blob,hrec,-⟩
    have hserves : transfer (beforeInstall twoBytes serving) =
        [.header twoBytes,.serves (text "guest") (text "pack")] := by decide +kernel
    rw [hserves] at hrec
    simp at hrec
  · rintro ⟨id,blob,hrec,hid,-⟩
    have hasked : transfer (beforeInstall twoBytesUnnamed asking) =
        [.header twoBytesUnnamed,.asked (text "pack")] := by decide +kernel
    rw [hasked] at hrec
    obtain ⟨rfl,rfl⟩ : twoBytesUnnamed=blob ∧ text "pack" = id := by simpa using hrec
    have hunnamed : (readHeader twoBytesUnnamed).id≠text "pack" := by decide +kernel
    exact hunnamed hid

end RecompNet.Lobby
