import Mathlib.Data.Finset.Filter
import Mathlib.Data.Finset.Range
import RecompNet.Lib.TickRing

/-!
# The frame-commit hash chain

`rnet_hash_confirm.c`: a ring of local digests, a ring of peer digests and the watermark up to
which both agree without a gap.
-/
namespace RecompNet
open Function

def hcRing : ℕ := 128
def hcMaxPeers : ℕ := 8

structure HashConfirm where
  loc : TickRing hcRing ℕ
  peer : TickRing hcRing ℕ
  resolved : Option ℕ
  peerMask : Finset ℕ
  quorum : TickRing hcRing (ℕ → Option ℕ)
  quorumConflict : ℕ → Bool
  quorumDigest : ℕ → ℕ → ℕ

namespace HashConfirm
def empty (mask : Finset ℕ) : HashConfirm :=
  ⟨TickRing.empty,TickRing.empty,none,mask,TickRing.empty,fun _ => false,fun _ _ => 0⟩

variable (hc : HashConfirm)
/-- `rnet_hc_reset`. -/
def reset : HashConfirm := empty hc.peerMask
def primeAfter (lastOk : ℕ) : HashConfirm :=
  { hc.reset with resolved := some lastOk }

def next : ℕ :=
  match hc.resolved with
  | none => 0
  | some r => r+1

/-- One pass of the loop in `try_advance`. -/
def advance? : Option HashConfirm :=
  match hc.loc.get? hc.next,hc.peer.get? hc.next with
  | some ld,some pd =>
    if ld≠pd ∨ hc.quorumConflict (hc.next%hcRing) then none
    else some { hc with resolved := some hc.next }
  | _,_ => none

def tryAdvance (hc : HashConfirm) : ℕ → HashConfirm
  | 0 => hc
  | n+1 =>
    match hc.advance? with
    | some hc' => hc'.tryAdvance n
    | none => hc

def noteLocal (tick digest : ℕ) : HashConfirm :=
  { hc with loc := hc.loc.store tick digest }.tryAdvance hcRing

/-- `rnet_hc_note_peer`. -/
def notePeer (tick digest : ℕ) : HashConfirm :=
  { hc with
    peer := hc.peer.store tick digest
    quorumConflict := update hc.quorumConflict (tick%hcRing) false }.tryAdvance hcRing

def setPeerMask (mask : Finset ℕ) : HashConfirm :=
  { hc with peerMask := mask.filter (· < hcMaxPeers) }
def quorumFirst (mask : Finset ℕ) (q : ℕ → Option ℕ) : ℕ :=
  (((List.range hcMaxPeers).filter (·∈mask)).findSome? q).getD 0

def notePeerFrom (seat tick digest : ℕ) : HashConfirm :=
  if hc.peerMask=∅ then hc.notePeer tick digest
  else if hcMaxPeers ≤ seat ∨ seat∉hc.peerMask then hc
  else
    let q:=update ((hc.quorum.get? tick).getD fun _ => none) seat (some digest)
    let hc:={ hc with
      quorum := hc.quorum.store tick q
      quorumDigest := update hc.quorumDigest (tick%hcRing)
        (update (hc.quorumDigest (tick%hcRing)) seat digest)
      peer := if hc.quorum.has tick ∨ hc.peer.has tick then hc.peer else hc.peer.clear tick }
    if ∃ s∈hc.peerMask,q s=none then hc
    else
      let first:=quorumFirst hc.peerMask q
      { hc with
        peer := hc.peer.store tick first
        quorumConflict := update hc.quorumConflict (tick%hcRing)
          (decide (∃ s∈hc.peerMask,q s≠some first)) }.tryAdvance hcRing

def resolvedThrough : ℕ := hc.resolved.getD 0

variable (tick : ℕ)
def confirmThrough : Bool :=
  match hc.resolved with
  | none => false
  | some r => tick ≤ r

def localDigest : Option ℕ := hc.loc.get? tick
def peerDigest : Option ℕ := hc.peer.get? tick

def reportedPeer (tick pd ld : ℕ) : ℕ :=
  if hc.quorumConflict (tick%hcRing) then
    ((((List.range hcMaxPeers).filter (·∈hc.peerMask)).map
      (hc.quorumDigest (tick%hcRing))).find? (· ≠ ld)).getD pd
  else pd

def peekMismatch : Option (ℕ × ℕ × ℕ) :=
  match hc.loc.get? hc.next,hc.peer.get? hc.next with
  | some ld,some pd =>
    if ld=pd ∧ hc.quorumConflict (hc.next%hcRing)=false then none
    else some (hc.next,ld,hc.reportedPeer hc.next pd ld)
  | _,_ => none

def healCandidate (r i : ℕ) : Option (ℕ × Bool) :=
  match hc.loc.cell i,hc.peer.cell i with
  | some (t,ld),some (t',pd) =>
    if t=t' ∧ r<t then some (t,ld=pd && !hc.quorumConflict i) else none
  | _,_ => none

def healStaleGap : HashConfirm :=
  match hc.resolved with
  | none => hc
  | some r =>
    if hc.loc.has (r+1) ∨ hc.peer.has (r+1) then hc
    else
      let cands:=(List.range hcRing).filterMap (hc.healCandidate r)
      if cands.any (fun c => !c.2) ∨ cands=[] then hc
      else { hc with resolved := some ((cands.map Prod.fst).foldl max 0) }

theorem advance?_rings {hc hc' : HashConfirm} (h : hc.advance? = some hc') :
    hc'.loc=hc.loc ∧ hc'.peer=hc.peer := by
  unfold advance? at h
  split at h
  · split at h
    · cases h
    · cases h
      exact ⟨rfl,rfl⟩
  · cases h

variable (hc : HashConfirm)
theorem tryAdvance_rings (n : ℕ) :
    (hc.tryAdvance n).loc=hc.loc ∧ (hc.tryAdvance n).peer=hc.peer := by
  induction n generalizing hc with
  | zero => exact ⟨rfl,rfl⟩
  | succ n ih =>
    unfold tryAdvance
    split
    · next hc' h =>
      have hr:=advance?_rings h
      exact ⟨(ih hc').1.trans hr.1,(ih hc').2.trans hr.2⟩
    · exact ⟨rfl,rfl⟩

@[simp] theorem noteLocal_loc (t d : ℕ) :
    (hc.noteLocal t d).loc=hc.loc.store t d := (tryAdvance_rings _ _).1
@[simp] theorem noteLocal_peer (t d : ℕ) :
    (hc.noteLocal t d).peer=hc.peer := (tryAdvance_rings _ _).2
@[simp] theorem notePeer_loc (t d : ℕ) : (hc.notePeer t d).loc=hc.loc := (tryAdvance_rings _ _).1
@[simp] theorem notePeer_peer (t d : ℕ) :
    (hc.notePeer t d).peer=hc.peer.store t d := (tryAdvance_rings _ _).2
@[simp] theorem primeAfter_loc (t : ℕ) : (hc.primeAfter t).loc=TickRing.empty := rfl
@[simp] theorem primeAfter_peer (t : ℕ) : (hc.primeAfter t).peer=TickRing.empty := rfl

theorem healStaleGap_rings : hc.healStaleGap.loc=hc.loc ∧ hc.healStaleGap.peer=hc.peer := by
  unfold healStaleGap
  split
  · exact ⟨rfl,rfl⟩
  split
  · exact ⟨rfl,rfl⟩
  · dsimp only
    split <;> exact ⟨rfl,rfl⟩

end HashConfirm
end RecompNet
