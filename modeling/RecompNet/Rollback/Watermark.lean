import RecompNet.Rollback.HashConfirm

/-!
# What the watermark of a hash chain means

A chain is driven by notes.
-/
namespace RecompNet
open Function List TickRing

/-- The calls on a chain. -/
inductive Note
  | loc (tick digest : ℕ)
  | peer (tick digest : ℕ)
  | peerFrom (seat tick digest : ℕ)
  deriving DecidableEq

namespace HashConfirm
variable (hc : HashConfirm)
def note : Note → HashConfirm
  | .loc t d => hc.noteLocal t d
  | .peer t d => hc.notePeer t d
  | .peerFrom s t d => hc.notePeerFrom s t d

def run (notes : List Note) : HashConfirm := notes.foldl note hc

/-- How a run begins: `rnet_hc_reset`, or `rnet_hc_prime_after`. -/
inductive Start
  | reset
  | primeAfter (lastOk : ℕ)

def start : Start → HashConfirm
  | .reset => hc.reset
  | .primeAfter p => hc.primeAfter p

/-- The ticks a run of this start has to confirm. -/
def Start.Owes : Start → ℕ → Prop
  | .reset,_ => True
  | .primeAfter p,t => p<t

variable (notes : List Note)
def lastLocal (t : ℕ) : Option ℕ := notes.foldl (fun last n => match n with
    | .loc t' d => if t'=t then some d else last
    | _ => last) none

def lastFrom (s t : ℕ) : Option ℕ := notes.foldl (fun last n => match n with
    | .peerFrom s' t' d => if s'=s ∧ t'=t then some d else last
    | _ => last) none

def lastPeer (t : ℕ) : Option ℕ := notes.foldl (fun last n => match n with
    | .peer t' d => if t'=t then some d else last
    | .peerFrom _ t' d => if t'=t then some d else last
    | .loc .. => last) none

def PeersSay (mask : Finset ℕ) (notes : List Note) (t d : ℕ) : Prop :=
  if mask=∅ then lastPeer notes t=some d else ∀ s∈mask,lastFrom notes s t=some d

/-- The local digest and all peers agree on a tick. -/
def Agreed (mask : Finset ℕ) (notes : List Note) (t : ℕ) : Prop :=
  ∃ d,lastLocal notes t=some d ∧ PeersSay mask notes t d

section Snoc
variable (notes : List Note)
theorem run_snoc (hc : HashConfirm) (n : Note) : hc.run (notes++[n])=(hc.run notes).note n := by
  simp only [run,foldl_append,foldl_cons,foldl_nil]

theorem lastLocal_loc (t d t' : ℕ) : lastLocal (notes++[.loc t d]) t' =
    if t=t' then some d else lastLocal notes t' := by
  simp only [lastLocal,foldl_append,foldl_cons,foldl_nil]

theorem lastLocal_peer (t d t' : ℕ) : lastLocal (notes++[.peer t d]) t'=lastLocal notes t' := by
  simp only [lastLocal,foldl_append,foldl_cons,foldl_nil]

theorem lastLocal_peerFrom (s t d t' : ℕ) :
    lastLocal (notes++[.peerFrom s t d]) t'=lastLocal notes t' := by
  simp only [lastLocal,foldl_append,foldl_cons,foldl_nil]

theorem lastFrom_loc (t d s' t' : ℕ) :
    lastFrom (notes++[.loc t d]) s' t'=lastFrom notes s' t' := by
  simp only [lastFrom,foldl_append,foldl_cons,foldl_nil]

theorem lastFrom_peerFrom (s t d s' t' : ℕ) : lastFrom (notes++[.peerFrom s t d]) s' t' =
    if s=s' ∧ t=t' then some d else lastFrom notes s' t' := by
  simp only [lastFrom,foldl_append,foldl_cons,foldl_nil]

theorem lastPeer_loc (t d t' : ℕ) : lastPeer (notes++[.loc t d]) t'=lastPeer notes t' := by
  simp only [lastPeer,foldl_append,foldl_cons,foldl_nil]

theorem lastPeer_peer (t d t' : ℕ) : lastPeer (notes++[.peer t d]) t' =
    if t=t' then some d else lastPeer notes t' := by
  simp only [lastPeer,foldl_append,foldl_cons,foldl_nil]

theorem lastPeer_peerFrom (s t d t' : ℕ) : lastPeer (notes++[.peerFrom s t d]) t' =
    if t=t' then some d else lastPeer notes t' := by
  simp only [lastPeer,foldl_append,foldl_cons,foldl_nil]

end Snoc

section Advance
variable {hc hc' : HashConfirm}
theorem advance?_eq_some : hc.advance? = some hc' ↔
    (∃ d,hc.loc.get? hc.next=some d ∧ hc.peer.get? hc.next=some d ∧
      hc.quorumConflict (hc.next%hcRing)=false) ∧ hc'={ hc with resolved := some hc.next } := by
  unfold advance?
  cases hl : hc.loc.get? hc.next with
  | none => simp
  | some ld =>
    cases hp : hc.peer.get? hc.next with
    | none => simp
    | some pd =>
      by_cases hd : ld=pd
      · subst hd
        cases hc.quorumConflict (hc.next%hcRing) <;> simp [eq_comm]
      · simp [hd,Ne.symm hd]

theorem next_advance (h : hc.advance? = some hc') : hc'.next=hc.next+1 := by
  rw [(advance?_eq_some.mp h).2]
  rfl

theorem tryAdvance_eq (hc : HashConfirm) (n : ℕ) :
    hc.tryAdvance n={ hc with resolved := (hc.tryAdvance n).resolved } := by
  induction n generalizing hc with
  | zero => rfl
  | succ n ih =>
    rw [tryAdvance]
    split
    · next hc' h =>
      rw [ih hc',(advance?_eq_some.mp h).2]
    · rfl

theorem tryAdvance_induct {P : HashConfirm → Prop}
    (hstep : ∀ {hc hc'},P hc → hc.advance? = some hc' → P hc') (n : ℕ) (h : P hc) :
    P (hc.tryAdvance n) := by
  induction n generalizing hc with
  | zero => exact h
  | succ n ih =>
    rw [tryAdvance]
    split
    · next hc' hadv => exact ih (hstep h hadv)
    · exact h

variable (hc)
theorem next_le_tryAdvance (n : ℕ) : hc.next≤(hc.tryAdvance n).next :=
  tryAdvance_induct (P := fun hc' => hc.next≤hc'.next)
    (fun h hadv => by rw [next_advance hadv]; omega) n (Nat.le_refl _)

theorem tryAdvance_stops (n : ℕ) : (hc.tryAdvance n).advance? = none ∨
      (hc.tryAdvance n).next=hc.next+n ∧ ∀ i<n,hc.loc.has (hc.next+i) := by
  induction n generalizing hc with
  | zero => exact Or.inr ⟨rfl,fun i hi => by omega⟩
  | succ n ih =>
    rw [tryAdvance]
    split
    · next hc' hadv =>
      obtain ⟨⟨d,hd,-⟩,heq⟩ := advance?_eq_some.mp hadv
      have hnext:=next_advance hadv
      rcases ih hc' with hnone | ⟨hpass,hheld⟩
      · exact Or.inl hnone
      refine Or.inr ⟨by omega,fun i hi => ?_⟩
      cases i with
      | zero => rw [Nat.add_zero,has,hd]; rfl
      | succ i =>
        have hi:=hheld i (by omega)
        rw [hnext,heq] at hi
        rw [show hc.next+(i+1)=hc.next+1+i by omega]
        exact hi
    · next hnone => exact Or.inl hnone

theorem tryAdvance_settled : (hc.tryAdvance hcRing).advance? = none := by
  refine (tryAdvance_stops hc hcRing).elim id fun ⟨hpass,hheld⟩ => ?_
  by_contra hne
  obtain ⟨hc',hadv⟩ := Option.ne_none_iff_exists'.mp hne
  obtain ⟨⟨d,hd,-⟩,-⟩ := advance?_eq_some.mp hadv
  rw [hpass,(tryAdvance_rings hc hcRing).1] at hd
  have hlast : hc.loc.has (hc.next+hcRing) := by rw [has,hd]; rfl
  have hfirst : hc.loc.has hc.next := hheld 0 (by decide)
  have heq:=eq_of_has_of_mod_eq hfirst hlast (by simp)
  have : 0<hcRing := by decide
  omega

variable {hc}

end Advance

structure Tracks (mask : Finset ℕ) (notes : List Note) (hc : HashConfirm) : Prop where
  same_mask : hc.peerMask=mask
  loc : hc.loc.Holds fun t d => lastLocal notes t=some d
  peer : mask=∅ → hc.peer.Holds fun t d => lastPeer notes t=some d
  quorum : mask≠∅ → hc.quorum.Holds fun t q => ∀ s d,q s=some d →
    (s<hcMaxPeers ∧ s∈mask) ∧ lastFrom notes s t=some d
  full : mask≠∅ → hc.peer.Holds fun t d => ∃ q,hc.quorum.get? t=some q ∧
    (∀ s∈mask,(q s).isSome) ∧ (hc.quorumConflict (t%hcRing)=false → ∀ s∈mask,q s=some d)

/-- No note without a seat on a masked chain. -/
def Seated (mask : Finset ℕ) (notes : List Note) : Prop := mask≠∅ → ∀ t d,Note.peer t d∉notes

section Tracking
variable {mask : Finset ℕ} {notes : List Note} {hc hc' : HashConfirm}
theorem Tracks.resolved (h : Tracks mask notes hc) (r : Option ℕ) :
    Tracks mask notes { hc with resolved := r } :=
  { h with }

theorem Tracks.tryAdvance (h : Tracks mask notes hc) (n : ℕ) :
    Tracks mask notes (hc.tryAdvance n) := by
  rw [tryAdvance_eq]
  exact h.resolved _

theorem Tracks.start (hc : HashConfirm) (st : Start) : Tracks hc.peerMask [] (hc.start st) := by
  cases st <;> exact ⟨rfl,.empty _,fun _ => .empty _,fun _ => .empty _,fun _ => .empty _⟩

theorem Tracks.noteLocal (h : Tracks mask notes hc) (t d : ℕ) :
    Tracks mask (notes++[.loc t d]) (hc.noteLocal t d) := by
  unfold HashConfirm.noteLocal
  refine Tracks.tryAdvance ?_ _
  refine ⟨h.same_mask,fun t' d' hd' => ?_,fun hm => ?_,fun hm => ?_,h.full⟩
  · dsimp only
    rw [lastLocal_loc]
    rcases get?_store_cases hd' with ⟨rfl,rfl⟩ | ⟨hne,hold⟩
    · exact if_pos rfl
    · rw [if_neg fun (he : t=t') => hne (he ▸ rfl)]
      exact h.loc t' d' hold
  · exact (h.peer hm).mono fun t' d' hd' => by rwa [lastPeer_loc]
  · refine (h.quorum hm).mono fun t' q hq s' d' hd' => ?_
    rw [lastFrom_loc]
    exact hq s' d' hd'

variable {t d : ℕ} {n : Note}
theorem Tracks.notePeer (h : Tracks ∅ notes hc)
    (hloc : ∀ t',lastLocal (notes++[n]) t'=lastLocal notes t')
    (hpeer : ∀ t',lastPeer (notes++[n]) t'=if t=t' then some d else lastPeer notes t') :
    Tracks ∅ (notes++[n]) (hc.notePeer t d) := by
  unfold HashConfirm.notePeer
  refine Tracks.tryAdvance ?_ _
  refine ⟨h.same_mask,?_,fun _ t' d' hd' => ?_,fun hm => absurd rfl hm,fun hm => absurd rfl hm⟩
  · exact h.loc.mono fun t' d' hd' => by rwa [hloc]
  · dsimp only
    rw [hpeer]
    rcases get?_store_cases hd' with ⟨rfl,rfl⟩ | ⟨hne,hold⟩
    · exact if_pos rfl
    · rw [if_neg fun (he : t=t') => hne (he ▸ rfl)]
      exact h.peer rfl t' d' hold

theorem Tracks.quorum_step (h : Tracks mask notes hc) (hm : mask≠∅) {s : ℕ}
    (hs : s<hcMaxPeers ∧ s∈mask) :
    (hc.quorum.store t (update ((hc.quorum.get? t).getD fun _ => none) s (some d))).Holds
      fun t' q => ∀ s' d',q s'=some d' → (s'<hcMaxPeers ∧ s'∈mask) ∧
        lastFrom (notes++[.peerFrom s t d]) s' t'=some d' := by
  intro t' q hq' s' d' hd'
  rw [lastFrom_peerFrom]
  rcases get?_store_cases hq' with ⟨rfl,rfl⟩ | ⟨hne,hold⟩
  · by_cases he : s'=s
    · subst he
      rw [update_self] at hd'
      rw [if_pos ⟨rfl,rfl⟩,hd']
      exact ⟨hs,rfl⟩
    rw [update_of_ne he] at hd'
    rw [if_neg fun h => he h.1.symm]
    cases hget : hc.quorum.get? t' with
    | none => simp [hget] at hd'
    | some q₀ =>
      rw [hget] at hd'
      exact h.quorum hm t' q₀ hget s' d' hd'
  · rw [if_neg fun (h : s=s' ∧ t=t') => hne (h.2 ▸ rfl)]
    exact h.quorum hm t' q hold s' d' hd'

def dropStale (hc : HashConfirm) (t : ℕ) : TickRing hcRing ℕ :=
  if hc.quorum.has t ∨ hc.peer.has t then hc.peer else hc.peer.clear t

section
variable (h : Tracks mask notes hc)
include h
theorem Tracks.dropStale (hm : mask≠∅) {t' : ℕ} (hd : (hc.dropStale t).get? t'=some d) :
    hc.peer.get? t'=some d ∧ (t'≠t → t'%hcRing≠t%hcRing) := by
  unfold HashConfirm.dropStale at hd
  split at hd
  · next hhas =>
    refine ⟨hd,fun hne heq => hne ?_⟩
    obtain ⟨q,hq,-⟩ := h.full hm t' d hd
    rcases hhas with hhas | hhas
    · exact eq_of_has_of_mod_eq (by rw [has,hq]; rfl) hhas heq
    · exact eq_of_has_of_mod_eq (by rw [has,hd]; rfl) hhas heq
  · obtain ⟨hold,hne⟩ := get?_clear_eq_some hd
    exact ⟨hold,fun _ => hne⟩

theorem Tracks.notePeerFrom (hm : mask≠∅) (s t d : ℕ) :
    Tracks mask (notes++[.peerFrom s t d]) (hc.notePeerFrom s t d) := by
  have hloc : hc.loc.Holds fun t' d' => lastLocal (notes++[.peerFrom s t d]) t'=some d' :=
    h.loc.mono fun t' d' hd' => by rwa [lastLocal_peerFrom]
  unfold HashConfirm.notePeerFrom
  rw [if_neg (by rwa [h.same_mask])]
  split
  · -- A seat outside the mask has no quorum entry.
    next hout =>
    rw [h.same_mask] at hout
    refine ⟨h.same_mask,hloc,fun he => absurd he hm,fun _ t' q hq s' d' hd' => ?_,h.full⟩
    have hold:=h.quorum hm t' q hq s' d' hd'
    refine ⟨hold.1,?_⟩
    rw [lastFrom_peerFrom,if_neg,hold.2]
    rintro ⟨rfl,-⟩
    exact hout.elim (fun h8 => by omega) fun hn => hn hold.1.2
  · next hin =>
    have hs : s<hcMaxPeers ∧ s∈mask := by
      rw [h.same_mask,not_or,not_le,not_not] at hin
      exact hin
    have hquorum:=h.quorum_step hm (t := t) (d := d) hs
    have hq : ∀ q₀,hc.quorum.get? t=some q₀ → (∀ r∈mask,(q₀ r).isSome) →
        ∀ r∈mask,(update ((hc.quorum.get? t).getD fun _ => none) s (some d) r).isSome=true := by
      intro q₀ hq₀ hfull r hr
      rw [hq₀,Option.getD_some]
      by_cases he : r=s
      · rw [he,update_self]
        rfl
      · rw [update_of_ne he]
        exact hfull r hr
    generalize update ((hc.quorum.get? t).getD fun _ => none) s (some d)=q at hquorum hq ⊢
    dsimp only
    rw [← HashConfirm.dropStale,h.same_mask]
    split
    · -- The quorum is not full, so it was not before and this tick has no peer digest.
      next hopen =>
      refine ⟨rfl,hloc,fun he => absurd he hm,fun _ => hquorum,fun _ t' d' hd' => ?_⟩
      obtain ⟨hold,hcell⟩ := h.dropStale hm hd'
      obtain ⟨q₀,hq₀,hfull,hsame⟩ := h.full hm t' d' hold
      by_cases he : t'=t
      · subst he
        obtain ⟨r,hr,hnone⟩ := hopen
        have hsome:=hq q₀ hq₀ hfull r hr
        rw [hnone] at hsome
        cases hsome
      · exact ⟨q₀,by rw [get?_store_of_mod_ne _ _ (hcell he),hq₀],hfull,hsame⟩
    · next hfull =>
      refine Tracks.tryAdvance ?_ _
      refine ⟨rfl,hloc,fun he => absurd he hm,fun _ => hquorum,fun _ t' d' hd' => ?_⟩
      dsimp only at hd' ⊢
      rcases get?_store_cases hd' with ⟨rfl,rfl⟩ | ⟨hne,hold⟩
      · refine ⟨q,get?_store_self ..,fun r hr => ?_,fun hno r hr => ?_⟩
        · by_contra hnone
          exact hfull ⟨r,hr,by simpa using hnone⟩
        · rw [update_self,decide_eq_false_iff_not] at hno
          by_contra hdiff
          exact hno ⟨r,hr,hdiff⟩
      obtain ⟨q₀,hq₀,hall,hsame⟩ := h.full hm t' d' (h.dropStale hm hold).1
      refine ⟨q₀,by rw [get?_store_of_mod_ne _ _ hne,hq₀],hall,fun hno => ?_⟩
      rw [update_of_ne hne] at hno
      exact hsame hno

theorem Tracks.note (hn : mask≠∅ → ∀ t d,n≠.peer t d) :
    Tracks mask (notes++[n]) (hc.note n) := by
  cases n with
  | loc t d => exact h.noteLocal t d
  | peer t d =>
    by_cases hm : mask=∅
    · subst hm
      exact h.notePeer (lastLocal_peer notes t d) (lastPeer_peer notes t d)
    · exact absurd rfl (hn hm t d)
  | peerFrom s t d =>
    by_cases hm : mask=∅
    · subst hm
      show Tracks ∅ _ (hc.notePeerFrom s t d)
      rw [HashConfirm.notePeerFrom,if_pos h.same_mask]
      exact h.notePeer (lastLocal_peerFrom notes s t d) (lastPeer_peerFrom notes s t d)
    · exact h.notePeerFrom hm s t d

theorem Tracks.agreed (hl : hc.loc.get? t=some d)
    (hp : hc.peer.get? t=some d) (hno : hc.quorumConflict (t%hcRing)=false) :
    Agreed mask notes t := by
  refine ⟨d,h.loc t d hl,?_⟩
  unfold PeersSay
  split
  · next hm => exact h.peer hm t d hp
  next hm =>
  obtain ⟨q,hq,-,hsame⟩ := h.full hm t d hp
  exact fun s hs => (h.quorum hm t q hq s d (hsame hno s hs)).2

end
end Tracking

def Confirmed (mask : Finset ℕ) (st : Start) (notes : List Note) (hc : HashConfirm) : Prop :=
  ∀ t<hc.next,st.Owes t → ∃ pre,pre <+: notes ∧ Agreed mask pre t

section Watermark
variable {mask : Finset ℕ} {st : Start} {notes : List Note} {hc : HashConfirm}
theorem Confirmed.grow (h : Confirmed mask st notes hc) (n : Note) :
    Confirmed mask st (notes++[n]) hc := by
  intro t ht ho
  obtain ⟨pre,hpre,ha⟩ := h t ht ho
  exact ⟨pre,hpre.trans (prefix_append ..),ha⟩

theorem Confirmed.tryAdvance (h : Confirmed mask st notes hc) (htr : Tracks mask notes hc) (n : ℕ) :
    Confirmed mask st notes (hc.tryAdvance n) := by
  refine (tryAdvance_induct (P := fun hc => Tracks mask notes hc ∧ Confirmed mask st notes hc)
    (fun {hc hc'} hP hadv => ?_) n ⟨htr,h⟩).2
  obtain ⟨⟨d,hl,hp,hno⟩,heq⟩ := advance?_eq_some.mp hadv
  refine ⟨heq ▸ hP.1.resolved _,fun t ht ho => ?_⟩
  rw [next_advance hadv] at ht
  by_cases hlt : t<hc.next
  · exact hP.2 t hlt ho
  · obtain rfl : t=hc.next := by omega
    exact ⟨notes,prefix_rfl,hP.1.agreed hl hp hno⟩

theorem get?_dropStale {t t' d : ℕ} (h : (hc.dropStale t).get? t'=some d) :
    hc.peer.get? t'=some d := by
  unfold dropStale at h
  split at h
  · exact h
  · exact (get?_clear_eq_some h).1

theorem note_cases (hc : HashConfirm) (n : Note) :
    ∃ hc₁ : HashConfirm,(hc.note n=hc₁.tryAdvance hcRing ∨
      hc.note n=hc₁ ∧ (hc.advance? = none → hc₁.advance? = none)) ∧ hc₁.resolved=hc.resolved := by
  cases n with
  | loc | peer => exact ⟨_,Or.inl rfl,rfl⟩
  | peerFrom s t d =>
    unfold note notePeerFrom
    dsimp only
    split
    · exact ⟨_,Or.inl rfl,rfl⟩
    split
    · exact ⟨hc,Or.inr ⟨rfl,id⟩,rfl⟩
    rw [← dropStale]
    split
    · refine ⟨_,Or.inr ⟨rfl,fun hnone => ?_⟩,rfl⟩
      by_contra hsome
      obtain ⟨hc',hadv⟩ := Option.ne_none_iff_exists'.mp hsome
      obtain ⟨⟨d',hl,hp,hno⟩,-⟩ := advance?_eq_some.mp hadv
      have hold : hc.advance? = some { hc with resolved := some hc.next } :=
        advance?_eq_some.mpr ⟨⟨d',hl,get?_dropStale hp,hno⟩,rfl⟩
      rw [hnone] at hold
      cases hold
    · exact ⟨_,Or.inl rfl,rfl⟩

theorem next_le_note (hc : HashConfirm) (n : Note) : hc.next≤(hc.note n).next := by
  obtain ⟨hc₁,hnote | ⟨hnote,-⟩,hres⟩ := note_cases hc n
  · have hnext : hc₁.next=hc.next := by unfold next; rw [hres]
    rw [hnote,← hnext]
    exact next_le_tryAdvance hc₁ hcRing
  rw [hnote]
  unfold next
  rw [hres]

theorem settled_note (h : hc.advance? = none) (n : Note) : (hc.note n).advance? = none := by
  obtain ⟨hc₁,hnote | ⟨hnote,hkeep⟩,-⟩ := note_cases hc n
  · rw [hnote]
    exact tryAdvance_settled hc₁
  · rw [hnote]
    exact hkeep h

theorem Confirmed.note (h : Confirmed mask st notes hc) (n : Note)
    (htr : Tracks mask (notes++[n]) (hc.note n)) : Confirmed mask st (notes++[n]) (hc.note n) := by
  obtain ⟨hc₁,hnote,hres⟩ := note_cases hc n
  have h₁ : Confirmed mask st (notes++[n]) hc₁ := by
    intro t ht ho
    refine h.grow n t ?_ ho
    unfold next at ht ⊢
    rwa [hres] at ht
  rcases hnote with hnote | ⟨hnote,-⟩
  · -- The loop changes the watermark only, so the state before it tracks the notes too.
    have htr₁ : Tracks mask (notes++[n]) hc₁ := by
      rw [hnote,tryAdvance_eq] at htr
      exact htr.resolved hc₁.resolved
    rw [hnote]
    exact h₁.tryAdvance htr₁ hcRing
  · rwa [hnote]

variable (hc)
theorem run_tracks (st : Start) (notes : List Note)
    (hnotes : Seated hc.peerMask notes) : Tracks hc.peerMask notes ((hc.start st).run notes) ∧
      Confirmed hc.peerMask st notes ((hc.start st).run notes) := by
  induction notes using List.reverseRecOn with
  | nil =>
    refine ⟨.start hc st,fun t ht ho => ?_⟩
    cases st with
    | reset => exact absurd ht (Nat.not_lt_zero t)
    | primeAfter p =>
      have ht : t<p+1 := ht
      have ho : p<t := ho
      omega
  | append_singleton notes n ih =>
    obtain ⟨htr,hconf⟩ := ih fun hm t d hmem => hnotes hm t d (mem_append_left _ hmem)
    have htr':=htr.note (n := n) fun hm t d he => hnotes hm t d (by simp [he])
    rw [run_snoc]
    exact ⟨htr',hconf.note n htr'⟩

theorem next_le_run (notes : List Note) : hc.next≤(hc.run notes).next := by
  induction notes using List.reverseRecOn with
  | nil => exact Nat.le_refl _
  | append_singleton notes n ih =>
    rw [run_snoc]
    exact ih.trans (next_le_note _ n)

theorem settled_run (st : Start) (notes : List Note) :
    ((hc.start st).run notes).advance? = none := by
  induction notes using List.reverseRecOn with
  | nil => cases st <;> rfl
  | append_singleton notes n ih =>
    rw [run_snoc]
    exact settled_note ih n

theorem resolvedThrough_eq : hc.resolvedThrough=hc.next-1 := by
  unfold resolvedThrough next
  cases hc.resolved <;> rfl

variable {hc}

/-- **The watermark of a hash chain.** Along every run from a reset or primed chain it never
decreases. -/
theorem watermark_correct (hc : HashConfirm) (st : Start) (notes : List Note) :
    (∀ pre post,notes=pre++post →
      ((hc.start st).run pre).resolvedThrough≤((hc.start st).run notes).resolvedThrough ∧
      (((hc.start st).run pre).resolved.isSome=true →
        ((hc.start st).run notes).resolved.isSome=true)) ∧
    (Seated hc.peerMask notes → ∀ r,((hc.start st).run notes).resolved=some r →
      ∀ t ≤ r,st.Owes t → ∃ pre,pre <+: notes ∧ Agreed hc.peerMask pre t) ∧
    ¬ ∃ d,((hc.start st).run notes).localDigest ((hc.start st).run notes).next=some d ∧
      ((hc.start st).run notes).peerDigest ((hc.start st).run notes).next=some d ∧
      ((hc.start st).run notes).quorumConflict (((hc.start st).run notes).next%hcRing)=false := by
  refine ⟨?_,fun hnotes r hr t ht ho => ?_,?_⟩
  · rintro pre post rfl
    have hnext : ((hc.start st).run pre).next≤((hc.start st).run (pre++post)).next := by
      have h:=next_le_run ((hc.start st).run pre) post
      rwa [run,run,← foldl_append] at h
    rw [resolvedThrough_eq,resolvedThrough_eq]
    refine ⟨by omega,fun hsome => ?_⟩
    obtain ⟨r,hr⟩ := Option.isSome_iff_exists.mp hsome
    by_contra hnone
    rw [Option.not_isSome_iff_eq_none] at hnone
    unfold next at hnext
    rw [hr,hnone] at hnext
    dsimp only at hnext
    omega
  · refine (run_tracks hc st notes hnotes).2 t ?_ ho
    unfold next
    rw [hr]
    dsimp only
    omega
  · rintro ⟨d,hl,hp,hno⟩
    have h:=advance?_eq_some.mpr ⟨⟨d,hl,hp,hno⟩,rfl⟩
    rw [settled_run] at h
    cases h

theorem watermark_correct_quorum :
    (((empty {0,2}).start .reset).run
        [.peerFrom 0 128 9,.peerFrom 2 0 5,.loc 0 5,.peerFrom 0 0 5]).resolved=some 0 ∧
      ∃ pre,pre <+: [.peerFrom 0 128 9,.peerFrom 2 0 5,.loc 0 5,.peerFrom 0 0 5] ∧
        Agreed {0,2} pre 0 := by
  have hr : (((empty {0,2}).start .reset).run
      [.peerFrom 0 128 9,.peerFrom 2 0 5,.loc 0 5,.peerFrom 0 0 5]).resolved=some 0 := by
    decide +kernel
  exact ⟨hr,(watermark_correct (empty {0,2}) .reset _).2.1 (fun _ t d h => by simp at h) 0 hr 0
    (Nat.le_refl 0) trivial⟩

theorem peer_note_bypasses_mask :
    ((((empty {0}).start .reset).run [.loc 0 5,.peer 0 5]).resolved=some 0 ∧
      ∀ pre,pre <+: [.loc 0 5,.peer 0 5] → ¬ Agreed {0} pre 0) ∧
    (((empty ∅).start .reset).run [.loc 1 5,.peer 1 5]).resolvedThrough=0 ∧
      (((empty ∅).start .reset).run [.loc 1 5,.peer 1 5]).localDigest 1=some 5 ∧
      (((empty ∅).start .reset).run [.loc 1 5,.peer 1 5]).peerDigest 1=some 5 := by
  refine ⟨⟨by decide +kernel,fun pre hpre hagreed => ?_⟩,by decide +kernel⟩
  obtain ⟨d,-,hsay⟩ := hagreed
  have hfrom : lastFrom pre 0 0=some d := by
    unfold PeersSay at hsay
    rw [if_neg (by simp)] at hsay
    exact hsay 0 (by simp)
  have hnone : ∀ p∈[Note.loc 0 5,Note.peer 0 5].inits,lastFrom p 0 0=none := by decide
  rw [hnone pre ((mem_inits _ _).mpr hpre)] at hfrom
  cases hfrom

end Watermark
end HashConfirm
end RecompNet
