import Mathlib.Algebra.Order.BigOperators.Group.List
import Mathlib.Algebra.Order.Group.Nat
import RecompNet.Lobby.ModXfer

/-!
# What a start op promises

The gate of a start compares the members with the plan the host holds when it is called.
-/
namespace RecompNet.Lobby
open List
open Xfer (ascii)
variable (miss : Member → ℕ) (what : Member → List UInt8)
theorem count_foldl_add (ms : List Member)
    (b : Blocked) : (ms.foldl (fun b m => b.add (miss m) m (what m)) b).count =
      b.count+(ms.map miss).sum := by
  induction ms generalizing b with
  | nil => rfl
  | cons m ms ih =>
    have hadd : (b.add (miss m) m (what m)).count=b.count+miss m := by
      unfold Blocked.add
      split
      · next h => rw [h,Nat.add_zero]
      · rfl
    rw [foldl_cons,ih,hadd,map_cons,List.sum_cons,Nat.add_assoc]

theorem count_foldl_eq_zero (ms : List Member) :
    (ms.foldl (fun (b : Blocked) m => b.add (miss m) m (what m)) .none).count=0 ↔
      ∀ m∈ms,miss m=0 := by
  have hnone : Blocked.none.count=0 := rfl
  rw [count_foldl_add,hnone,Nat.zero_add,List.sum_eq_zero_iff]
  constructor
  · intro h m hm
    exact h _ (mem_map_of_mem hm)
  · rintro h n hn
    obtain ⟨m,hm,rfl⟩ := mem_map.mp hn
    exact h m hm

variable {m : Member} {p : ModPkg}
theorem lacks_eq_false : m.lacks p=false ↔ ∃ o∈m.offer,o.id=p.id := by
  simp [Member.lacks]

variable {caps : MatchCaps}
theorem memberMissingCount_eq_zero :
    memberMissingCount caps m=0 ↔ ∀ p∈caps.mods,∃ o∈m.offer,o.id=p.id := by
  unfold memberMissingCount
  rw [countP_eq_zero]
  exact forall₂_congr fun p _ => by rw [Bool.not_eq_true,lacks_eq_false]

def Member.lacksFile (m : Member) (p : ModPkg) (feat : List UInt8) : Prop :=
  ∃ o,m.offer.find? (·.id=p.id)=some o ∧ csvHas o.nf.bytes feat

theorem missingFeats_eq_nil :
    missingFeats m p=[] ↔ ∀ f∈csvItems p.feats.bytes,¬ m.lacksFile p f := by
  unfold missingFeats Member.lacksFile
  cases hfind : m.offer.find? (·.id=p.id) with
  | none => simp
  | some o =>
    simp only
    by_cases hnf : o.nf=.empty
    · -- An empty list has no entry that could match.
      have hno : ∀ f,csvHas o.nf.bytes f=false := fun f => by
        rw [hnf]
        simp [csvHas,CText.empty,csvItems]
      rw [if_pos hnf]
      simp [hno]
    · rw [if_neg hnf]
      simp [filter_eq_nil_iff]

theorem memberFilesMissingCount_eq_zero : memberFilesMissingCount caps m=0 ↔
      ∀ p∈caps.mods,∀ f∈csvItems p.feats.bytes,¬ m.lacksFile p f := by
  unfold memberFilesMissingCount
  rw [List.sum_eq_zero_iff]
  constructor
  · intro h p hp
    have hlen:=h _ (mem_map_of_mem (f := fun p => (missingFeats m p).length) hp)
    exact missingFeats_eq_nil.mp (eq_nil_of_length_eq_zero hlen)
  · rintro h n hn
    obtain ⟨p,hp,rfl⟩ := mem_map.mp hn
    rw [missingFeats_eq_nil.mpr (h p hp)]
    rfl

namespace Start
variable (s : Start)
def others : List Member := s.members.filter (·.playerId≠s.self)
def Offered (p : ModPkg) : Prop := ∀ m∈s.others,∃ o∈m.offer,o.id=p.id
def HaveFiles (ms : List Member) (p : ModPkg) : Prop :=
  ∀ m∈ms,m.isSpectator=false → ∀ f∈csvItems p.feats.bytes,¬ m.lacksFile p f
def Ready : Prop := ∀ m∈s.others,m.isSpectator=false → m.ready

/-- What a start is to promise of the plan that goes out with it. -/
def Kept : Prop := (∀ p∈s.held,s.Offered p) ∧ (∀ p∈s.held,HaveFiles s.members p) ∧ s.Ready

/-- The rows the gate did not look at, and the host's own files, are in order. -/
def Unchecked : Prop := (∀ p∈s.held,p∉s.checked → s.Offered p ∧ HaveFiles s.others p) ∧
    ∀ p∈s.held,HaveFiles (s.members.filter (·.playerId=s.self)) p

structure Gated : Prop where
  offered : ∀ p∈s.checked,s.Offered p
  files : ∀ p∈s.checked,HaveFiles s.others p
  ready : s.Ready
  published : ∀ rows,s.published=some rows → rows ⊆ s.held

variable {s} {p : ModPkg} {ms : List Member}
theorem HaveFiles.of_split (self : PlayerId) (h : HaveFiles (ms.filter (·.playerId≠self)) p)
    (h' : HaveFiles (ms.filter (·.playerId=self)) p) : HaveFiles ms p := by
  intro m hm
  by_cases hself : m.playerId=self
  · exact h' m (mem_filter.mpr ⟨hm,by simpa using hself⟩)
  · exact h m (mem_filter.mpr ⟨hm,by simpa using hself⟩)

theorem HaveFiles.filter (h : HaveFiles ms p) (q : Member → Bool) :
    HaveFiles (ms.filter q) p := fun m hm => h m (mem_of_mem_filter hm)

theorem Gated.kept_iff (h : s.Gated) : s.Kept ↔ s.Unchecked := by
  constructor
  · rintro ⟨hoff,hfiles,-⟩
    exact ⟨fun p hp _ => ⟨hoff p hp,(hfiles p hp).filter _⟩,fun p hp => (hfiles p hp).filter _⟩
  · rintro ⟨hnew,hown⟩
    have hrow : ∀ p∈s.held,s.Offered p ∧ HaveFiles s.others p := by
      intro p hp
      by_cases hin : p∈s.checked
      · exact ⟨h.offered p hin,h.files p hin⟩
      · exact hnew p hp hin
    exact ⟨fun p hp => (hrow p hp).1,fun p hp => (hrow p hp).2.of_split s.self (hown p hp),h.ready⟩

end Start

def starts (log : List Event) : List Start := log.filterMap fun | .start s => some s | _ => none

namespace Client
variable (c : Client)
theorem capsJsonBuild_subset {caps : Option MatchCaps} {dflt : MatchCaps} {serialises : Bool}
    {rows : List ModPkg} (h : capsJsonBuild caps serialises=some rows) :
    rows ⊆ ((caps.filter (·.valid)).getD dflt).mods := by
  unfold capsJsonBuild at h
  obtain ⟨held,hheld,hrows⟩ := Option.bind_eq_some_iff.mp h
  rw [hheld,Option.getD_some]
  split at hrows
  · obtain rfl := Option.some.inj hrows
    exact fun p hp => mem_of_mem_filter hp
  · cases hrows

theorem offered_of_unblocked (hin : c.inLobby) (h : c.matchBlockedByMods.count=0) :
    ∀ p∈c.caps.mods,∀ m∈c.others,∃ o∈m.offer,o.id=p.id := by
  intro p hp m hm
  unfold matchBlockedByMods at h
  have hopen : ¬ (c.inLobby=false ∨ c.caps.mods=[]) := by
    rw [hin]
    simpa using ne_nil_of_mem hp
  rw [if_neg hopen,count_foldl_eq_zero] at h
  exact memberMissingCount_eq_zero.mp (h m hm) p hp

theorem files_of_unblocked (hin : c.inLobby) (h : c.matchBlockedByFiles.count=0) :
    ∀ p∈c.caps.mods,Start.HaveFiles c.others p := by
  intro p hp m hm hspec
  unfold matchBlockedByFiles at h
  have hopen : ¬ (c.inLobby=false ∨ c.caps.mods=[]) := by
    rw [hin]
    simpa using ne_nil_of_mem hp
  rw [if_neg hopen,count_foldl_eq_zero] at h
  have hplays : m∈c.others.filter (·.isSpectator=false) :=
    mem_filter.mpr ⟨hm,by simpa using hspec⟩
  exact memberFilesMissingCount_eq_zero.mp (h m hplays) p hp

theorem ready_of_unblocked (hin : c.inLobby) (h : c.matchBlockedByUnready.count=0) :
    ∀ m∈c.others,m.isSpectator=false → m.ready := by
  intro m hm hspec
  unfold matchBlockedByUnready at h
  rw [if_neg (by rw [hin]; decide),count_foldl_eq_zero (fun _ => 1) fun _ => []] at h
  by_contra hno
  refine absurd (h m (mem_filter.mpr ⟨hm,?_⟩)) (by decide)
  simpa [hspec] using hno

theorem starts_requestStart (caps : Option MatchCaps) (serialises : Bool) :
    starts (c.requestStart caps serialises).1.log=starts c.log ∨
      ∃ s : Start,starts (c.requestStart caps serialises).1.log=s::starts c.log ∧ s.Gated := by
  unfold requestStart
  split
  · exact .inl rfl
  next hroom =>
  split
  · exact .inl rfl
  next hmods =>
  split
  · exact .inl rfl
  next hfiles =>
  split
  · exact .inl rfl
  split
  · exact .inl rfl
  next hready =>
  have hin : c.inLobby := by
    by_contra hno
    exact hroom (.inr (.inl (by simpa using hno)))
  refine .inr ⟨_,rfl,?_⟩
  exact ⟨c.offered_of_unblocked hin (by omega),c.files_of_unblocked hin (by omega),
    c.ready_of_unblocked hin (by omega),fun rows h => capsJsonBuild_subset h⟩

theorem starts_sendSetReady (ready : Bool) : starts (c.sendSetReady ready).log=starts c.log := rfl

theorem starts_sendSignalTo (dest : PlayerId) (type : SigType) (text : List UInt8) :
    starts (c.sendSignalTo dest type text).log=starts c.log := by
  unfold sendSignalTo
  split <;> rfl

variable (inp : OpenInput)
theorem starts_modXferOpen (peer : List UInt8) :
    starts (c.modXferOpen inp peer).1.log=starts c.log := by
  unfold modXferOpen
  split <;> rfl

theorem starts_setLaunchBlocked (blocked : Bool) :
    starts (c.setLaunchBlocked blocked).log=starts c.log := by
  unfold setLaunchBlocked
  split
  · rfl
  · split <;> rfl

theorem starts_onCreated (m : RoomMsg) : starts (c.onCreated m).log=starts c.log := by
  unfold onCreated
  rw [starts_sendSetReady]
  split <;> split <;> rfl

theorem starts_onLobbyUpdate (m : RoomMsg) : starts (c.onLobbyUpdate m).log=starts c.log := by
  unfold onLobbyUpdate
  simp only
  split <;> rfl

theorem starts_holdPacked (sender : List UInt8) (row : ModPkg) (blob : Xfer.Blob)
    (sha : CText 64) : starts (c.holdPacked inp sender row blob sha).log=starts c.log := by
  have hopen:=c.starts_modXferOpen inp sender
  unfold holdPacked
  split
  · next heq => rw [heq] at hopen; exact hopen
  · next heq => rw [heq] at hopen; exact hopen

theorem starts_modXferOnRequest (pack : ModId → ModVer → Packed) (sender text : List UInt8) :
    starts (c.modXferOnRequest inp pack sender text).log=starts c.log := by
  have hnak : ∀ why,starts (c.nak sender why).log=starts c.log := fun why =>
    c.starts_sendSignalTo _ _ _
  unfold modXferOnRequest
  repeat' split
  all_goals first | rfl | exact hnak _ | exact c.starts_holdPacked ..

theorem starts_modRequest (delivers : Bool) (packageId version : List UInt8) :
    starts (c.modRequest inp delivers packageId version).log=starts c.log := by
  have hopen:=c.starts_modXferOpen inp c.hostPlayerId.bytes
  unfold modRequest
  split
  · rfl
  split
  · rfl
  split
  · rfl
  simp only
  split
  · next heq => rw [heq] at hopen; exact hopen
  next heq =>
  rw [heq] at hopen
  split
  · exact hopen
  · rw [starts_sendSignalTo]
    exact hopen

variable (env : PumpEnv)
theorem starts_takeHeader (blob : List UInt8) :
    starts (c.takeHeader env blob).log=starts c.log := by
  unfold takeHeader
  simp only
  repeat' split
  all_goals rfl

theorem starts_takePayload (blob : List UInt8) :
    starts (c.takePayload env blob).log=starts c.log := by
  unfold takePayload
  simp only
  repeat' split
  all_goals rfl

theorem starts_takeBlobs (blobs : List (List UInt8)) :
    starts (takeBlobs env blobs c).log=starts c.log := by
  induction blobs generalizing c with
  | nil => rfl
  | cons blob rest ih =>
    have hblob : ∀ d : Client,starts (d.modXferOnBlob env blob).log=starts d.log := by
      intro d
      unfold modXferOnBlob
      split
      · exact d.starts_takeHeader env blob
      · exact d.starts_takePayload env blob
    unfold takeBlobs
    simp only
    split
    · exact hblob _
    · rw [ih]
      exact hblob _

theorem starts_modXferReleaseHeld : starts (c.modXferReleaseHeld env).log=starts c.log := by
  unfold modXferReleaseHeld queueHeld
  simp only
  repeat' split
  all_goals first | rfl | exact c.starts_sendSignalTo ..

theorem starts_pumpBlobs : starts (c.pumpBlobs env).log=starts c.log := by
  have hheld : starts (if c.xfer.hold.isSome ∧ c.xfer.connectedMs≠0
      then c.modXferReleaseHeld env else c).log=starts c.log := by
    split
    · exact c.starts_modXferReleaseHeld env
    · rfl
  have hfinish : ∀ d : Client,starts d.finishSending.log=starts d.log := by
    intro d
    unfold finishSending
    repeat' split
    all_goals rfl
  have hshow : ∀ (d : Client) (x : Xfer.IceXfer),starts (d.showProgress x).log=starts d.log := by
    intro d x
    unfold showProgress
    split <;> rfl
  unfold pumpBlobs
  simp only
  split
  · exact hheld
  · rw [hfinish,starts_takeBlobs,hshow]
    exact hheld

theorem starts_modXferPump : starts (c.modXferPump env).log=starts c.log := by
  have hnote : ∀ d : Client,starts (d.noteState env).log=starts d.log := by
    intro d
    unfold noteState
    split <;> rfl
  unfold modXferPump
  split
  · rfl
  simp only
  repeat' split
  all_goals first | exact hnote _ | (rw [starts_pumpBlobs]; exact hnote _)

theorem starts_call (a : Call) : starts (c.call a).log=starts c.log ∨
    ∃ s : Start,starts (c.call a).log=s::starts c.log ∧ s.Gated := by
  cases a with
  | requestStart caps serialises => exact c.starts_requestStart caps serialises
  | created m => exact .inl (c.starts_onCreated m)
  | lobbyUpdate m => exact .inl (c.starts_onLobbyUpdate m)
  | setLaunchBlocked blocked => exact .inl (c.starts_setLaunchBlocked blocked)
  | setMatchCaps caps =>
    left
    change starts (c.setMatchCaps caps).log=_
    unfold setMatchCaps
    split <;> rfl
  | modReq inp pack sender text => exact .inl (c.starts_modXferOnRequest inp pack sender text)
  | modRequest inp delivers packageId version =>
    exact .inl (c.starts_modRequest inp delivers packageId version)
  | modCancel =>
    left
    change starts c.modCancel.log=_
    unfold modCancel
    split <;> rfl
  | pump env => exact .inl (c.starts_modXferPump env)
  | _ => exact .inl rfl

theorem gated_of_run (name : DisplayName) (calls : List Call) :
    ∀ s∈starts ((fresh name).run calls).log,s.Gated := by
  refine run_invariant (P := fun c => ∀ s∈starts c.log,s.Gated) ?_ ?_ calls
  · intro c a h
    rcases c.starts_call a with heq | ⟨s,heq,hs⟩
    · rw [heq]
      exact h
    · rw [heq]
      exact forall_mem_cons.mpr ⟨hs,h⟩
  · intro s hs
    cases hs

end Client

/-- The rows a start published are held, and the plan is kept exactly where it went unchecked. -/
theorem start_keeps_plan_iff (name : DisplayName) (calls : List Call) (s : Start)
    (h : .start s∈((Client.fresh name).run calls).log) :
    (∀ rows,s.published=some rows → rows ⊆ s.held) ∧ (s.Kept ↔ s.Unchecked) := by
  have hs : s∈starts ((Client.fresh name).run calls).log := mem_filterMap.mpr ⟨_,h,rfl⟩
  have hgated:=Client.gated_of_run name calls s hs
  exact ⟨hgated.published,hgated.kept_iff⟩

def row (id feats : String) : ModPkg := ⟨text id,text "1",text feats,.empty⟩
def plan (id : String) : MatchCaps := ⟨true,[row id "hud"],Nat.le_of_ble_eq_true rfl⟩

def seats : List Member := [⟨text "host",.empty,true,false,[],MatchCaps.clear.fits⟩,
    ⟨text "guest",.empty,true,false,[row "pack" ""],by decide⟩]

def startCalls (caps : Option MatchCaps) : List Call :=
  [.connect,.welcome (text "host"),.created ⟨text "host",none,seats⟩,
    .setMatchCaps (plan "pack"),.requestStart caps true]

def startOf (held : MatchCaps) (published : Option (List ModPkg)) : Start :=
  ⟨text "host",seats,(plan "pack").mods,held.mods,published⟩

theorem start_keeps_plan_held :
    .start (startOf (plan "pack") none)∈((Client.fresh .empty).run (startCalls none)).log ∧
      (startOf (plan "pack") none).Kept := by
  have hlog : .start (startOf (plan "pack") none) ∈
      ((Client.fresh .empty).run (startCalls none)).log := by decide +kernel
  refine ⟨hlog,(start_keeps_plan_iff .empty _ _ hlog).2.mpr ⟨?_,?_⟩⟩
  · intro p hp hnew
    exact absurd hp hnew
  · rintro p-m hm-f - ⟨o,ho,-⟩
    -- The host announces nothing to itself.
    have hown : (startOf (plan "pack") none).members.filter (·.playerId=text "host") =
        [⟨text "host",.empty,true,false,[],by decide⟩] := by decide +kernel
    have hm : m∈(startOf (plan "pack") none).members.filter (·.playerId=text "host") := hm
    rw [hown,mem_singleton] at hm
    subst hm
    cases ho

theorem start_replaces_checked_plan :
    ∃ s,.start s∈((Client.fresh .empty).run (startCalls (some (plan "extra")))).log ∧
      s.published=some s.held ∧ ¬ s.Kept := by
  refine ⟨startOf (plan "extra") (some (plan "extra").mods),by decide +kernel,rfl,?_⟩
  rintro ⟨hoffered,-⟩
  obtain ⟨o,ho,hid⟩ := hoffered (row "extra" "hud") (by decide +kernel)
    ⟨text "guest",.empty,true,false,[row "pack" ""],by decide⟩ (by decide +kernel)
  obtain rfl := mem_singleton.mp ho
  exact absurd hid (by decide +kernel)

end RecompNet.Lobby
