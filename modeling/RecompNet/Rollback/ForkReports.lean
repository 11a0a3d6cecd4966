import RecompNet.Rollback.Watermark

/-!
# Fork reports and healing

Every call on a chain: what a report of `rnet_hc_peek_mismatch` says, and how far
`rnet_hc_heal_stale_gap` lifts the watermark.
-/
namespace TickRing
open List
variable {n : ℕ} {α : Type*}
def Placed (r : TickRing n α) : Prop := ∀ i t v,r.cell i=some (t,v) → t%n=i

variable {r : TickRing n α}
theorem Placed.store (h : r.Placed) (t : ℕ) (v : α) : (r.store t v).Placed := by
  intro i t' v' hc
  unfold TickRing.store at hc
  dsimp only at hc
  split at hc
  · next hi =>
    cases hc
    exact hi.symm
  · exact h i t' v' hc

variable {t : ℕ} {v : α}
theorem Placed.get?_eq (h : r.Placed) {i : ℕ} (hc : r.cell i=some (t,v)) : r.get? t=some v := by
  unfold get?
  rw [h i t v hc,hc]
  exact if_pos rfl

theorem cell_of_get? (h : r.get? t=some v) : r.cell (t%n)=some (t,v) := by
  unfold get? at h
  split at h
  · next t' v' hc =>
    split at h
    · next ht =>
      cases h
      rw [hc,ht]
    · cases h
  · cases h

theorem foldl_max_mem {l : List ℕ} {a : ℕ} : l.foldl max a=a ∨ l.foldl max a∈l := by
  induction l generalizing a with
  | nil => exact .inl rfl
  | cons x l ih =>
    rw [foldl_cons]
    rcases ih (a := max a x) with heq | hmem
    · rw [heq]
      rcases Nat.le_total a x with hle | hle
      · exact .inr (by rw [Nat.max_eq_right hle]; exact mem_cons_self)
      · exact .inl (Nat.max_eq_left hle)
    · exact .inr (mem_cons_of_mem _ hmem)

end TickRing

namespace RecompNet
open Function List

/-- The calls on a chain. -/
inductive ChainCall
  | note (n : Note)
  | reset
  | primeAfter (lastOk : ℕ)
  | setPeerMask (mask : Finset ℕ)
  | healStaleGap

namespace HashConfirm
def call (hc : HashConfirm) : ChainCall → HashConfirm
  | .note n => hc.note n
  | .reset => hc.reset
  | .primeAfter p => hc.primeAfter p
  | .setPeerMask m => hc.setPeerMask m
  | .healStaleGap => hc.healStaleGap

variable (cs : List ChainCall)
def afterCalls : HashConfirm := cs.foldl call (empty ∅)

def liveNotes : List Note := cs.foldl (fun notes c => match c with
    | .note n => notes++[n]
    | .reset | .primeAfter _ => []
    | .setPeerMask _ | .healStaleGap => notes) []

/-- A peer's digest was noted for the tick. -/
def PeerNoted (notes : List Note) (t d : ℕ) : Prop :=
  .peer t d∈notes ∨ ∃ s,.peerFrom s t d∈notes

structure Sourced (notes : List Note) (hc : HashConfirm) : Prop where
  placed : hc.loc.Placed
  loc : hc.loc.Holds fun t d => .loc t d∈notes
  peer : hc.peer.Holds fun t d => PeerNoted notes t d
  quorum : hc.quorum.Holds fun t q => ∀ s d,q s=some d →
    .peerFrom s t d∈notes ∧ hc.quorumDigest (t%hcRing) s=d
  seats : ∀ s∈hc.peerMask,s<hcMaxPeers

def Divided (hc : HashConfirm) : Prop :=
  ∀ t pd,hc.peer.get? t=some pd → hc.quorumConflict (t%hcRing) →
    ∃ q,hc.quorum.get? t=some q ∧ (∀ s∈hc.peerMask,q s≠none) ∧
      (∃ s∈hc.peerMask,q s=some pd) ∧ ∃ s∈hc.peerMask,q s≠some pd

section Steps
variable {notes : List Note} {hc : HashConfirm}
theorem Sourced.tryAdvance (h : Sourced notes hc) (n : ℕ) : Sourced notes (hc.tryAdvance n) := by
  rw [tryAdvance_eq]
  exact { h with }

theorem Divided.tryAdvance (h : Divided hc) (n : ℕ) : Divided (hc.tryAdvance n) := by
  rw [tryAdvance_eq]
  exact h

variable {mask : Finset ℕ}
theorem sourced_empty (h : ∀ s∈mask,s<hcMaxPeers) : Sourced [] (empty mask) :=
  ⟨fun _ _ _ h => (by cases h),.empty _,.empty _,.empty _,h⟩

theorem Sourced.snoc (h : Sourced notes hc) (n : Note) : Sourced (notes++[n]) hc where
  placed := h.placed
  loc := h.loc.mono fun _ _ hm => mem_append_left _ hm
  peer := h.peer.mono fun _ _ hm => hm.imp (mem_append_left _)
    (Exists.imp fun _ => mem_append_left _)
  quorum := h.quorum.mono fun _ _ hq s d hd => ⟨mem_append_left _ (hq s d hd).1,(hq s d hd).2⟩
  seats := h.seats

variable {t d : ℕ}
theorem Sourced.notePeer (h : Sourced notes hc) (hn : PeerNoted notes t d) :
    Sourced notes (hc.notePeer t d) := by
  unfold HashConfirm.notePeer
  refine Sourced.tryAdvance ?_ _
  exact { h with peer := h.peer.store hn }

theorem Divided.notePeer (h : Divided hc) (t d : ℕ) : Divided (hc.notePeer t d) := by
  unfold HashConfirm.notePeer
  refine Divided.tryAdvance (fun t' pd hp hcf => ?_) _
  dsimp only at hp hcf ⊢
  rcases TickRing.get?_store_cases hp with ⟨rfl,-⟩ | ⟨hne,hold⟩
  · rw [update_self] at hcf
    cases hcf
  · rw [update_of_ne hne] at hcf
    exact h t' pd hold hcf

def withCommit (hc : HashConfirm) (s t d : ℕ) : HashConfirm :=
  { hc with
    quorum := hc.quorum.store t
      (update ((hc.quorum.get? t).getD fun _ => none) s (some d))
    quorumDigest := update hc.quorumDigest (t%hcRing)
      (update (hc.quorumDigest (t%hcRing)) s d)
    peer := hc.dropStale t }

theorem notePeerFrom_cases (hc : HashConfirm) (s t d : ℕ) :
    let q:=update ((hc.quorum.get? t).getD fun _ => none) s (some d)
    hc.notePeerFrom s t d=hc.notePeer t d ∨ hc.notePeerFrom s t d=hc ∨ s∈hc.peerMask ∧
      ((∃ r∈hc.peerMask,q r=none) ∧ hc.notePeerFrom s t d=hc.withCommit s t d ∨
        (∀ r∈hc.peerMask,q r≠none) ∧ hc.notePeerFrom s t d=({ hc.withCommit s t d with
            peer := (hc.dropStale t).store t (quorumFirst hc.peerMask q)
            quorumConflict := update hc.quorumConflict (t%hcRing) (decide
              (∃ r∈hc.peerMask,q r≠some (quorumFirst hc.peerMask q))) } :
              HashConfirm).tryAdvance hcRing) := by
  intro q
  unfold notePeerFrom
  split
  · exact .inl rfl
  split
  · exact .inr (.inl rfl)
  next hin =>
  refine .inr (.inr ⟨by_contra fun hno => hin (.inr hno),?_⟩)
  dsimp only
  by_cases hopen : ∃ r∈hc.peerMask,q r=none
  · rw [if_pos hopen]
    exact .inl ⟨hopen,rfl⟩
  · rw [if_neg hopen]
    exact .inr ⟨fun r hr hnone => hopen ⟨r,hr,hnone⟩,rfl⟩

theorem dropStale_sub {t' : ℕ} (h : (hc.dropStale t).get? t'=some d) :
    hc.peer.get? t'=some d := by
  unfold dropStale at h
  split at h
  · exact h
  · exact (TickRing.get?_clear_eq_some h).1

variable {s : ℕ}
theorem Sourced.withCommit (h : Sourced notes hc) (hn : .peerFrom s t d∈notes) :
    Sourced notes (hc.withCommit s t d) := by
  refine ⟨h.placed,h.loc,fun t' d' hd => h.peer t' d' (dropStale_sub hd),?_,h.seats⟩
  intro t' q hq s' d' hd'
  unfold HashConfirm.withCommit at hq ⊢
  dsimp only at hq ⊢
  rcases TickRing.get?_store_cases hq with ⟨rfl,rfl⟩ | ⟨hne,hold⟩
  · rw [update_self]
    by_cases hs : s'=s
    · subst hs
      rw [update_self] at hd' ⊢
      cases hd'
      exact ⟨hn,rfl⟩
    · rw [update_of_ne hs] at hd' ⊢
      cases hget : hc.quorum.get? t' with
      | none => simp [hget] at hd'
      | some q₀ =>
        rw [hget] at hd'
        exact h.quorum t' q₀ hget s' d' hd'
  · rw [update_of_ne hne]
    exact h.quorum t' q hold s' d' hd'

theorem quorumFirst_mem {q : ℕ → Option ℕ} (hs : s∈mask)
    (hseats : ∀ s∈mask,s<hcMaxPeers) (hfull : ∀ r∈mask,q r≠none) :
    ∃ r∈mask,q r=some (quorumFirst mask q) := by
  have hsome : (((List.range hcMaxPeers).filter (·∈mask)).findSome? q).isSome := by
    rw [List.findSome?_isSome_iff]
    exact ⟨s,by simp [hs,hseats s hs],Option.isSome_iff_ne_none.mpr (hfull s hs)⟩
  obtain ⟨d,hd⟩ := Option.isSome_iff_exists.mp hsome
  obtain ⟨r,hr,hrd⟩ := exists_of_findSome?_eq_some hd
  refine ⟨r,by simpa using (mem_filter.mp hr).2,?_⟩
  rw [quorumFirst,hd,Option.getD_some,hrd]

theorem Sourced.notePeerFrom (h : Sourced notes hc) (hn : .peerFrom s t d∈notes) :
    Sourced notes (hc.notePeerFrom s t d) := by
  rcases notePeerFrom_cases hc s t d with heq | heq | ⟨hs,⟨-,heq⟩ | ⟨hfull,heq⟩⟩
  · rw [heq]
    exact h.notePeer (.inr ⟨s,hn⟩)
  · rw [heq]
    exact h
  · rw [heq]
    exact h.withCommit hn
  rw [heq]
  have hw:=h.withCommit hn
  obtain ⟨r,-,hr⟩ := quorumFirst_mem hs h.seats hfull
  have hfirst:=(hw.quorum t _ (TickRing.get?_store_self ..) r _ hr).1
  refine Sourced.tryAdvance ?_ _
  exact { hw with peer := hw.peer.store (.inr ⟨r,hfirst⟩) }

theorem Divided.notePeerFrom (h : Divided hc) (hseats : ∀ s∈hc.peerMask,s<hcMaxPeers)
    (s t d : ℕ) : Divided (hc.notePeerFrom s t d) := by
  rcases notePeerFrom_cases hc s t d with heq | heq | ⟨hs,⟨⟨r,hr,hnone⟩,heq⟩ | ⟨hfull,heq⟩⟩
  · rw [heq]
    exact h.notePeer t d
  · rw [heq]
    exact h
  · rw [heq]
    intro t' pd hp hcf
    obtain ⟨q,hq,hall,hdiff⟩ := h t' pd (dropStale_sub hp) hcf
    by_cases ht : t'=t
    · -- a tick with a conflict has a full quorum, and one more commit does not open it
      subst ht
      rw [hq,Option.getD_some] at hnone
      by_cases hrs : r=s
      · rw [hrs,update_self] at hnone
        cases hnone
      · rw [update_of_ne hrs] at hnone
        exact absurd hnone (hall r hr)
    · have hm : t'%hcRing≠t%hcRing := by
        intro hm
        have hhas : hc.quorum.has t' := by rw [TickRing.has,hq]; rfl
        change (hc.dropStale t).get? t'=some pd at hp
        unfold dropStale at hp
        split at hp
        · next hin =>
          rcases hin with hin | hin
          · exact ht (TickRing.eq_of_has_of_mod_eq hhas hin hm)
          · exact ht (TickRing.eq_of_has_of_mod_eq (by rw [TickRing.has,hp]; rfl) hin hm)
        · exact (TickRing.get?_clear_eq_some hp).2 hm
      exact ⟨q,(TickRing.get?_store_of_mod_ne _ _ hm).trans hq,hall,hdiff⟩
  · rw [heq]
    refine Divided.tryAdvance (fun t' pd hp hcf => ?_) _
    dsimp only at hp hcf
    rcases TickRing.get?_store_cases hp with ⟨rfl,rfl⟩ | ⟨hne,hold⟩
    · rw [update_self,decide_eq_true_eq] at hcf
      exact ⟨_,TickRing.get?_store_self ..,hfull,quorumFirst_mem hs hseats hfull,hcf⟩
    rw [update_of_ne hne] at hcf
    obtain ⟨q,hq,hrest⟩ := h t' pd (dropStale_sub hold) hcf
    exact ⟨q,(TickRing.get?_store_of_mod_ne _ _ hne).trans hq,hrest⟩

theorem healStaleGap_eq (hc : HashConfirm) :
    hc.healStaleGap={ hc with resolved := hc.healStaleGap.resolved } := by
  unfold healStaleGap
  split
  · rfl
  split
  · rfl
  · dsimp only
    split <;> rfl

end Steps

variable (cs : List ChainCall)
theorem afterCalls_snoc (c : ChainCall) : afterCalls (cs++[c])=(afterCalls cs).call c := by
  simp only [afterCalls,foldl_append,foldl_cons,foldl_nil]

theorem liveNotes_snoc (c : ChainCall) : liveNotes (cs++[c])=match c with
    | .note n => liveNotes cs++[n] | .reset | .primeAfter _ => []
    | .setPeerMask _ | .healStaleGap => liveNotes cs := by
  simp only [liveNotes,foldl_append,foldl_cons,foldl_nil]

theorem sourced_afterCalls : Sourced (liveNotes cs) (afterCalls cs) := by
  induction cs using List.reverseRecOn with
  | nil => exact sourced_empty fun s hs => absurd hs (Finset.notMem_empty s)
  | append_singleton cs c ih =>
    rw [afterCalls_snoc,liveNotes_snoc]
    cases c with
    | note n =>
      have hs:=ih.snoc n
      have hin : n∈liveNotes cs++[n] := mem_append_right _ (mem_singleton_self n)
      cases n with
      | loc t d =>
        change Sourced _ ((afterCalls cs).noteLocal t d)
        unfold noteLocal
        refine Sourced.tryAdvance ?_ _
        exact ⟨hs.placed.store t d,hs.loc.store hin,hs.peer,hs.quorum,hs.seats⟩
      | peer t d => exact hs.notePeer (.inl hin)
      | peerFrom s t d => exact hs.notePeerFrom hin
    | reset => exact sourced_empty ih.seats
    | primeAfter p =>
      have he:=sourced_empty ih.seats
      exact { he with }
    | setPeerMask m =>
      refine { ih with seats := fun s hs => ?_ }
      exact (Finset.mem_filter.mp hs).2
    | healStaleGap =>
      change Sourced _ (afterCalls cs).healStaleGap
      rw [healStaleGap_eq]
      exact { ih with }

/-- No slot is in conflict when the peer mask is set. -/
def MaskedEarly : Prop :=
  ∀ pre m post,cs=pre++.setPeerMask m::post → ∀ i,(afterCalls pre).quorumConflict i=false

theorem divided_afterCalls {cs : List ChainCall} (h : MaskedEarly cs) : Divided (afterCalls cs) := by
  induction cs using List.reverseRecOn with
  | nil => exact fun t pd hp => by cases hp
  | append_singleton cs c ih =>
    have hd:=ih fun pre m post heq => h pre m (post++[c]) (by rw [heq]; simp)
    rw [afterCalls_snoc]
    cases c with
    | note n =>
      cases n with
      | loc t d =>
        change Divided ((afterCalls cs).noteLocal t d)
        unfold noteLocal
        refine Divided.tryAdvance ?_ _
        exact hd
      | peer t d => exact hd.notePeer t d
      | peerFrom s t d => exact hd.notePeerFrom (sourced_afterCalls cs).seats s t d
    | reset | primeAfter => exact fun t pd hp => by cases hp
    | setPeerMask m =>
      intro t pd hp hcf
      have hno:=h cs m [] rfl (t%hcRing)
      cases hno.symm.trans hcf
    | healStaleGap =>
      change Divided (afterCalls cs).healStaleGap
      rw [healStaleGap_eq]
      exact hd

variable {hc : HashConfirm}
theorem peekMismatch_spec {notes : List Note} (hs : Sourced notes hc)
    (hd : Divided hc) {t ld pd : ℕ} (h : hc.peekMismatch=some (t,ld,pd)) :
    t=hc.next ∧ ld≠pd ∧ .loc t ld∈notes ∧ PeerNoted notes t pd := by
  unfold peekMismatch at h
  split at h
  · next l p hl hp =>
    split at h
    · cases h
    next hdiff =>
    simp only [Option.some.injEq,Prod.mk.injEq] at h
    obtain ⟨rfl,rfl,rfl⟩ := h
    refine ⟨rfl,?_⟩
    unfold reportedPeer
    split
    · next hcf =>
      -- of two digests that differ one is not the local one
      obtain ⟨q,hq,hall,⟨r,hr,hrp⟩,r',hr',hrp'⟩ := hd _ _ hp hcf
      have hread : ∀ s∈hc.peerMask,∃ d,q s=some d ∧
          .peerFrom s hc.next d∈notes ∧ hc.quorumDigest (hc.next%hcRing) s=d := by
        intro s hs'
        obtain ⟨d,hd'⟩ := Option.ne_none_iff_exists'.mp (hall s hs')
        exact ⟨d,hd',hs.quorum _ q hq s d hd'⟩
      have hfound : ((((List.range hcMaxPeers).filter (·∈hc.peerMask)).map
          (hc.quorumDigest (hc.next%hcRing))).find? (· ≠ l)).isSome := by
        rw [List.find?_isSome]
        by_cases hpl : p=l
        · obtain ⟨d,hqd,-,hmem⟩ := hread r' hr'
          refine ⟨d,mem_map.mpr ⟨r',by simp [hr',hs.seats r' hr'],hmem⟩,?_⟩
          simpa using fun hdl : d=l => hrp' (by rw [hqd,hdl,hpl])
        obtain ⟨d,hqd,-,hmem⟩ := hread r hr
        refine ⟨d,mem_map.mpr ⟨r,by simp [hr,hs.seats r hr],hmem⟩,?_⟩
        simpa using fun hdl : d=l => hpl (Option.some.inj ((hrp.symm.trans hqd).trans (hdl ▸ rfl)))
      obtain ⟨d,hfind⟩ := Option.isSome_iff_exists.mp hfound
      rw [hfind,Option.getD_some]
      obtain ⟨s,hsm,hsd⟩ := mem_map.mp (mem_of_find?_eq_some hfind)
      obtain ⟨d',-,hnoted,hmem⟩ := hread s (by simpa using (mem_filter.mp hsm).2)
      have hdd : d=d' := hsd.symm.trans hmem
      refine ⟨fun hld => ?_,hs.loc _ _ hl,.inr ⟨s,hdd ▸ hnoted⟩⟩
      have hne:=List.find?_some hfind
      simp [hld] at hne
    · next hcf =>
      exact ⟨fun hlp => hdiff ⟨hlp,by simpa using hcf⟩,hs.loc _ _ hl,hs.peer _ _ hp⟩
  · cases h

theorem healStaleGap_spec (hl : hc.loc.Placed) {w : ℕ}
    (h : hc.healStaleGap.resolved=some w) (hne : hc.resolved≠some w) :
    ∃ r,hc.resolved=some r ∧ r<w ∧ hc.quorumConflict (w%hcRing)=false ∧
      (∃ d,hc.localDigest w=some d ∧ hc.peerDigest w=some d) ∧
      ∀ t ld pd,r<t → hc.localDigest t=some ld → hc.peerDigest t=some pd → ld=pd := by
  unfold healStaleGap at h
  split at h
  · next hnone => exact absurd h hne
  next r hr =>
  split at h
  · exact absurd h hne
  dsimp only at h
  split at h
  · exact absurd h hne
  next hok =>
  rw [not_or] at hok
  obtain ⟨hagree,hsome⟩ := hok
  have hcand : ∀ i c,hc.healCandidate r i=some c → i<hcRing → c.2 := by
    intro i c hi hlt
    by_contra hno
    refine hagree (any_eq_true.mpr ⟨c,?_,by simpa using hno⟩)
    exact mem_filterMap.mpr ⟨i,mem_range.mpr hlt,hi⟩
  have hin : ∀ {i t b},hc.healCandidate r i=some (t,b) → ∃ ld pd,
      hc.loc.cell i=some (t,ld) ∧ hc.peer.cell i=some (t,pd) ∧ r<t ∧
        b=(decide (ld=pd) && !hc.quorumConflict i) := by
    intro i t b hi
    unfold healCandidate at hi
    split at hi
    · next hlc hpc =>
      split at hi
      · next hcond =>
        cases hi
        exact ⟨_,_,hlc,hcond.1 ▸ hpc,hcond.2,rfl⟩
      · cases hi
    · cases hi
  have hw : w∈((List.range hcRing).filterMap (hc.healCandidate r)).map Prod.fst := by
    cases h
    refine TickRing.foldl_max_mem.resolve_left fun hzero => ?_
    obtain ⟨⟨t,b⟩,ht⟩ := exists_mem_of_ne_nil _ hsome
    obtain ⟨i,-,hi⟩ := mem_filterMap.mp ht
    obtain ⟨-,-,-,-,hlt,-⟩ := hin hi
    have hle:=TickRing.le_foldl_max (a := 0) (.inl (mem_map_of_mem (f := Prod.fst) ht))
    rw [hzero] at hle
    exact absurd (hlt.trans_le hle) (Nat.not_lt_zero r)
  obtain ⟨⟨t,b⟩,ht,rfl⟩ := mem_map.mp hw
  obtain ⟨i,hi,hic⟩ := mem_filterMap.mp ht
  obtain ⟨ld,pd,hlc,hpc,hlt,hb⟩ := hin hic
  have htrue:=hcand i _ hic (mem_range.mp hi)
  dsimp only at htrue ⊢
  rw [hb,Bool.and_eq_true,decide_eq_true_eq] at htrue
  have hmod:=hl i t ld hlc
  have hpeer : hc.peer.get? t=some pd := by
    unfold TickRing.get?
    rw [hmod,hpc]
    exact if_pos rfl
  refine ⟨r,hr,hlt,by rw [hmod]; simpa using htrue.2,⟨ld,hl.get?_eq hlc,htrue.1 ▸ hpeer⟩,?_⟩
  intro u lu pu hu hlu hpu
  have hcu : hc.healCandidate r (u%hcRing) =
      some (u,decide (lu=pu) && !hc.quorumConflict (u%hcRing)) := by
    unfold healCandidate
    rw [TickRing.cell_of_get? hlu,TickRing.cell_of_get? hpu]
    exact if_pos ⟨rfl,hu⟩
  have hgood:=hcand _ _ hcu (Nat.mod_lt u (by decide))
  rw [Bool.and_eq_true,decide_eq_true_eq] at hgood
  exact hgood.1

/-- **A report names a fork that is there**, just after the watermark, where no conflict was on
record when the mask was last set. -/
theorem fork_reports_real (cs : List ChainCall) :
    let hc:=afterCalls cs
    (MaskedEarly cs → ∀ t ld pd,hc.peekMismatch=some (t,ld,pd) →
      t=(hc.resolved.elim 0 (· + 1)) ∧ ld≠pd ∧ .loc t ld∈liveNotes cs ∧
        PeerNoted (liveNotes cs) t pd) ∧ ∀ w,hc.healStaleGap.resolved=some w → hc.resolved≠some w →
      ∃ r,hc.resolved=some r ∧ r<w ∧ hc.quorumConflict (w%hcRing)=false ∧
        (∃ d,hc.localDigest w=some d ∧ hc.peerDigest w=some d) ∧
        ∀ t ld pd,r<t → hc.localDigest t=some ld → hc.peerDigest t=some pd → ld=pd := by
  intro hc
  have hs : Sourced (liveNotes cs) hc := sourced_afterCalls cs
  refine ⟨fun hm t ld pd h => ?_,fun w h hne => healStaleGap_spec hs.placed h hne⟩
  obtain ⟨ht,hrest⟩ := peekMismatch_spec hs (divided_afterCalls hm) h
  refine ⟨ht.trans ?_,hrest⟩
  unfold next
  cases hc.resolved <;> rfl

def narrowed : List ChainCall :=
  [.primeAfter 0,.setPeerMask {0,1},.note (.loc 1 5),.note (.peerFrom 0 1 5),
    .note (.peerFrom 1 1 6),.setPeerMask {0}]

def replaced : List ChainCall :=
  [.primeAfter 0,.setPeerMask {0,1},.note (.loc 1 5),.note (.peerFrom 0 1 5),
    .note (.peerFrom 1 1 6),.setPeerMask {2}]

theorem report_after_mask_change :
    (afterCalls narrowed).peekMismatch=some (1,5,5) ∧
      (afterCalls replaced).peekMismatch=some (1,5,0) := by
  decide +kernel

end HashConfirm
end RecompNet
