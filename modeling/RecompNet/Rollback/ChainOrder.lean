import Mathlib.Order.Bounds.Basic
import RecompNet.Rollback.Watermark

/-!
# Late notes and the order of notes

A ring of 128 slots holds every tick of a window of 128, so within such a window a chain forgets
nothing and its watermark is a function of the set of notes.
-/
namespace RecompNet
open Function TickRing List HashConfirm

def Note.tick : Note → ℕ
  | .loc t _ => t
  | .peer t _ => t
  | .peerFrom _ t _ => t

namespace HashConfirm
variable (hc : HashConfirm)
def known (t : ℕ) : Option ℕ × Option ℕ × Option (ℕ → Option ℕ) :=
  (hc.localDigest t,hc.peerDigest t,hc.quorum.get? t)
def SlotFree {α : Type} (ring : TickRing hcRing α) (t : ℕ) : Prop :=
  ∀ u,hc.resolvedThrough<u → u%hcRing=t%hcRing → ring.get? u=none
def commits (seat tick digest : ℕ) : ℕ → Option ℕ :=
  update ((hc.quorum.get? tick).getD fun _ => none) seat (some digest)

def WritesFree : Note → Prop
  | .loc t _ => hc.SlotFree hc.loc t
  | .peer t _ => hc.SlotFree hc.peer t
  | .peerFrom s t d =>
    if hc.peerMask=∅ then hc.SlotFree hc.peer t
    else s<hcMaxPeers ∧ s∈hc.peerMask → hc.SlotFree hc.quorum t ∧
      (hc.quorum.has t=false ∨ (∀ r∈hc.peerMask,hc.commits s t d r≠none) → hc.SlotFree hc.peer t)

section Late
variable {hc : HashConfirm} {α : Type} {ring : TickRing hcRing α} {t : ℕ}
theorem known_tryAdvance (n u : ℕ) : (hc.tryAdvance n).known u=hc.known u := by
  rw [tryAdvance_eq]
  rfl

theorem get?_store_late (ht : t≤hc.resolvedThrough) (v : α) :
    (∀ u,hc.resolvedThrough<u → (ring.store t v).get? u=ring.get? u) ↔ hc.SlotFree ring t := by
  constructor
  · intro h u hu hm
    have hne : u≠t := by omega
    have hu':=h u hu
    rw [get?_store,if_neg hne,if_pos hm] at hu'
    exact hu'.symm
  · intro h u hu
    have hne : u≠t := by omega
    rw [get?_store,if_neg hne]
    split
    · next hm => exact (h u hu hm).symm
    · rfl

theorem get?_clear_late : (∀ u,hc.resolvedThrough<u → (ring.clear t).get? u=ring.get? u) ↔
      hc.SlotFree ring t := by
  constructor
  · intro h u hu hm
    have hu':=h u hu
    rw [get?_clear,if_pos hm] at hu'
    exact hu'.symm
  · intro h u hu
    rw [get?_clear]
    split
    · next hm => exact (h u hu hm).symm
    · rfl

theorem slotFree_of_has (ht : t≤hc.resolvedThrough) (h : ring.has t) : hc.SlotFree ring t := by
  intro u hu hm
  by_contra hne
  have hsome : ring.has u := Option.isSome_iff_ne_none.mpr hne
  have := eq_of_has_of_mod_eq hsome h hm
  omega

theorem get?_dropStale_late (ht : t≤hc.resolvedThrough) :
    (∀ u,hc.resolvedThrough<u → (hc.dropStale t).get? u=hc.peer.get? u) ↔
      (hc.quorum.has t=false → hc.SlotFree hc.peer t) := by
  unfold dropStale
  cases hq : hc.quorum.has t with
  | true => simp
  | false =>
    cases hp : hc.peer.has t with
    | true => simpa using slotFree_of_has ht hp
    | false => simpa using get?_clear_late

theorem store_dropStale (v : ℕ) : (hc.dropStale t).store t v=hc.peer.store t v := by
  unfold dropStale
  split
  · rfl
  · exact store_clear ..

end Late

/-- **Late notes.** -/
theorem late_note_harmless_iff (hc : HashConfirm) (n : Note) (hlate : n.tick≤hc.resolvedThrough) :
    (∀ u,hc.resolvedThrough<u → (hc.note n).known u=hc.known u) ↔ hc.WritesFree n := by
  cases n with
  | loc t d =>
    unfold note noteLocal
    simp only [known_tryAdvance]
    simp only [known,localDigest,peerDigest,Prod.mk.injEq,and_true]
    exact get?_store_late hlate d
  | peer t d =>
    unfold note notePeer
    simp only [known_tryAdvance]
    simp only [known,localDigest,peerDigest,Prod.mk.injEq,and_true,true_and]
    exact get?_store_late hlate d
  | peerFrom s t d =>
    have ht : t≤hc.resolvedThrough := hlate
    unfold note WritesFree notePeerFrom
    dsimp only
    by_cases hm : hc.peerMask=∅
    · rw [if_pos hm,if_pos hm]
      unfold notePeer
      simp only [known_tryAdvance]
      simp only [known,localDigest,peerDigest,Prod.mk.injEq,and_true,true_and]
      exact get?_store_late ht d
    rw [if_neg hm,if_neg hm,← commits,← dropStale]
    by_cases hseat : s<hcMaxPeers ∧ s∈hc.peerMask
    · rw [if_neg (by simpa [not_or] using hseat)]
      simp only [hseat,and_self,forall_const]
      by_cases hopen : ∃ r∈hc.peerMask,hc.commits s t d r=none
      · have hfull : ¬∀ r∈hc.peerMask,hc.commits s t d r≠none := by simpa using hopen
        rw [if_pos hopen]
        simp only [known,localDigest,peerDigest,Prod.mk.injEq,true_and,forall_and,hfull,or_false]
        rw [get?_dropStale_late ht,get?_store_late ht,and_comm]
      have hfull : ∀ r∈hc.peerMask,hc.commits s t d r≠none := by simpa using hopen
      rw [if_neg hopen]
      simp only [known_tryAdvance,store_dropStale]
      simp only [known,localDigest,peerDigest,Prod.mk.injEq,true_and,forall_and]
      rw [get?_store_late ht,get?_store_late ht,and_comm]
      exact and_congr_right' ⟨fun h _ => h,fun h => h (.inr hfull)⟩
    · have hout : hcMaxPeers ≤ s ∨ s∉hc.peerMask := by
        by_contra hnot
        exact hseat (by simpa [not_or] using hnot)
      rw [if_pos hout]
      simp only [implies_true,true_iff]
      exact fun h => absurd h hseat

def lapped : HashConfirm := ((empty ∅).start (.primeAfter 3)).run [.loc 130 9]

theorem late_note_harmless_iff_near : lapped.WritesFree (.loc 1 7) ∧
    ∀ u,3<u → (lapped.note (.loc 1 7)).known u=lapped.known u := by
  have hfree : lapped.WritesFree (.loc 1 7) := by
    intro u _ hm
    have hne : u≠130 := by
      rintro rfl
      exact absurd hm (by decide)
    have hmod : u%hcRing≠130%hcRing := by
      rw [hm]
      decide
    show ((TickRing.empty : TickRing hcRing ℕ).store 130 9).get? u=none
    rw [TickRing.get?_store_of_mod_ne _ _ hmod,TickRing.get?_empty]
  exact ⟨hfree,(late_note_harmless_iff lapped (.loc 1 7) (by decide +kernel)).mpr hfree⟩

theorem late_note_evicts : (Note.loc 2 7).tick≤lapped.resolvedThrough ∧
    lapped.resolvedThrough<130 ∧ lapped.localDigest 130=some 9 ∧
    (lapped.note (.loc 2 7)).localDigest 130=none := by
  decide +kernel

def AllNoted (mask : Finset ℕ) (notes : List Note) (t : ℕ) : Prop := ∃ d,.loc t d∈notes ∧
    if mask=∅ then ∃ s,.peerFrom s t d∈notes else ∀ s∈mask,.peerFrom s t d∈notes

/-- Notes of the window of 128 ticks from `base`, each with its seat, with one digest for each
seat and tick; without a mask the seats count as one. -/
structure OneEach (mask : Finset ℕ) (base : ℕ) (notes : List Note) : Prop where
  seated : ∀ t d,.peer t d∉notes
  window : ∀ n∈notes,base≤n.tick ∧ n.tick<base+hcRing
  loc : ∀ t d d',.loc t d∈notes → .loc t d'∈notes → d=d'
  seat : ∀ s t d d',.peerFrom s t d∈notes → .peerFrom s t d'∈notes → d=d'
  alike : mask=∅ → ∀ s s' t d d',.peerFrom s t d∈notes → .peerFrom s' t d'∈notes → d=d'

structure Keeps (notes : List Note) (base : ℕ) (hc : HashConfirm) : Prop where
  loc : ∀ t d,.loc t d∈notes → hc.loc.get? t=some d
  peer : hc.peerMask=∅ → ∀ s t d,.peerFrom s t d∈notes →
    hc.peer.get? t=some d ∧ hc.quorumConflict (t%hcRing)=false
  quorum : hc.peerMask≠∅ → ∀ s∈hc.peerMask,∀ t d,.peerFrom s t d∈notes →
    ∃ q,hc.quorum.get? t=some q ∧ q s=some d
  full : hc.peerMask≠∅ → ∀ t q,base≤t → t<base+hcRing → hc.quorum.get? t=some q →
    (∀ s∈hc.peerMask,q s≠none) → hc.peer.get? t=some (quorumFirst hc.peerMask q) ∧
      hc.quorumConflict (t%hcRing)=decide (∃ s∈hc.peerMask,q s≠some (quorumFirst hc.peerMask q))

section Order
variable {mask : Finset ℕ} {base : ℕ} {notes : List Note} {n : Note} {hc : HashConfirm} {t t' d : ℕ}
theorem OneEach.init (h : OneEach mask base (notes++[n])) : OneEach mask base notes where
  seated t d hmem := h.seated t d (mem_append_left _ hmem)
  window n hmem := h.window n (mem_append_left _ hmem)
  loc t d d' hd hd' := h.loc t d d' (mem_append_left _ hd) (mem_append_left _ hd')
  seat s t d d' hd hd' := h.seat s t d d' (mem_append_left _ hd) (mem_append_left _ hd')
  alike hm s s' t d d' hd hd' :=
    h.alike hm s s' t d d' (mem_append_left _ hd) (mem_append_left _ hd')

theorem mod_ne_of_window (ht : base≤t ∧ t<base+hcRing) (ht' : base≤t' ∧ t'<base+hcRing)
    (hne : t'≠t) : t'%hcRing≠t%hcRing := by
  rcases Nat.lt_or_gt_of_ne hne with hlt | hgt
  · exact (mod_ne_of_lt_add hlt (by omega)).symm
  · exact mod_ne_of_lt_add hgt (by omega)

theorem Keeps.tryAdvance (h : Keeps notes base hc) (k : ℕ) : Keeps notes base (hc.tryAdvance k) := by
  rw [tryAdvance_eq]
  exact { h with }

theorem get?_dropStale_of_mod_ne (hne : t'%hcRing≠t%hcRing) :
    (hc.dropStale t).get? t'=hc.peer.get? t' := by
  unfold dropStale
  split
  · rfl
  · rw [get?_clear,if_neg hne]

theorem Keeps.noteLocal (h : Keeps notes base hc)
    (hn : OneEach hc.peerMask base (notes++[.loc t d])) :
    Keeps (notes++[.loc t d]) base (hc.noteLocal t d) := by
  unfold HashConfirm.noteLocal
  refine Keeps.tryAdvance ?_ _
  refine ⟨fun t' d' hmem => ?_,fun hm s t' d' hmem => ?_,fun hm s hs t' d' hmem => ?_,h.full⟩
  · by_cases he : t'=t
    · subst he
      rw [hn.loc t' d' d hmem (by simp)]
      exact get?_store_self ..
    have hold : Note.loc t' d'∈notes := by simpa [he] using hmem
    have hmod : t'%hcRing≠t%hcRing :=
      mod_ne_of_window (hn.window (.loc t d) (by simp)) (hn.window (.loc t' d') hmem) he
    rw [get?_store_of_mod_ne _ _ hmod]
    exact h.loc t' d' hold
  · exact h.peer hm s t' d' (by simpa using hmem)
  · exact h.quorum hm s hs t' d' (by simpa using hmem)

variable {s : ℕ}
theorem Keeps.noteUnmasked (h : Keeps notes base hc) (hm : hc.peerMask=∅)
    (hn : OneEach hc.peerMask base (notes++[.peerFrom s t d])) :
    Keeps (notes++[.peerFrom s t d]) base (hc.notePeer t d) := by
  unfold notePeer
  refine Keeps.tryAdvance ?_ _
  refine ⟨fun t' d' hmem => h.loc t' d' (by simpa using hmem),fun _ s' t' d' hmem => ?_,
    fun hne => absurd hm hne,fun hne => absurd hm hne⟩
  dsimp only
  by_cases he : t'=t
  · subst he
    rw [hn.alike hm s' s t' d' d hmem (by simp),update_self]
    exact ⟨get?_store_self ..,rfl⟩
  have hold : Note.peerFrom s' t' d'∈notes := by simpa [he] using hmem
  have hmod : t'%hcRing≠t%hcRing := mod_ne_of_window (hn.window (.peerFrom s t d) (by simp))
    (hn.window (.peerFrom s' t' d') hmem) he
  rw [get?_store_of_mod_ne _ _ hmod,update_of_ne hmod]
  exact h.peer hm s' t' d' hold

theorem Keeps.commits (h : Keeps notes base hc) (hm : hc.peerMask≠∅)
    (hn : OneEach hc.peerMask base (notes++[.peerFrom s t d])) (s' : ℕ) (hs' : s'∈hc.peerMask)
    (t' d' : ℕ) (hmem : .peerFrom s' t' d'∈notes++[.peerFrom s t d]) :
    ∃ q,(hc.quorum.store t (hc.commits s t d)).get? t'=some q ∧ q s'=some d' := by
  by_cases he : t'=t
  · subst he
    refine ⟨_,get?_store_self ..,?_⟩
    unfold commits
    by_cases hs : s'=s
    · subst hs
      rw [update_self,hn.seat s' t' d' d hmem (by simp)]
    have hold : Note.peerFrom s' t' d'∈notes := by simpa [hs] using hmem
    obtain ⟨q,hq,hd⟩ := h.quorum hm s' hs' t' d' hold
    rw [update_of_ne hs,hq]
    exact hd
  · have hold : Note.peerFrom s' t' d'∈notes := by simpa [he] using hmem
    have hmod : t'%hcRing≠t%hcRing := mod_ne_of_window (hn.window (.peerFrom s t d) (by simp))
      (hn.window (.peerFrom s' t' d') hmem) he
    rw [get?_store_of_mod_ne _ _ hmod]
    exact h.quorum hm s' hs' t' d' hold

theorem Keeps.notePeerFrom (h : Keeps notes base hc) (hseats : ∀ s∈hc.peerMask,s<hcMaxPeers)
    (hn : OneEach hc.peerMask base (notes++[.peerFrom s t d])) :
    Keeps (notes++[.peerFrom s t d]) base (hc.notePeerFrom s t d) := by
  have hloc : ∀ t' d',.loc t' d'∈notes++[.peerFrom s t d] → hc.loc.get? t'=some d' :=
    fun t' d' hmem => h.loc t' d' (by simpa using hmem)
  unfold HashConfirm.notePeerFrom
  by_cases hm : hc.peerMask=∅
  · rw [if_pos hm]
    exact h.noteUnmasked hm hn
  rw [if_neg hm]
  split
  · next hout =>
    refine ⟨hloc,fun he => absurd he hm,fun _ s' hs' t' d' hmem => ?_,h.full⟩
    have hne : s'≠s := by
      rintro rfl
      exact hout.elim (fun h8 => absurd (hseats s' hs') (by omega)) fun hno => hno hs'
    exact h.quorum hm s' hs' t' d' (by simpa [hne] using hmem)
  have hquorum:=h.commits hm hn
  have ht : base≤t ∧ t<base+hcRing := hn.window (.peerFrom s t d) (by simp)
  rw [← HashConfirm.commits,← dropStale]
  dsimp only
  split
  · next hopen =>
    refine ⟨hloc,fun he => absurd he hm,fun _ => hquorum,fun _ t' q hlow hhigh hq hall => ?_⟩
    by_cases he : t'=t
    · subst he
      obtain ⟨r,hr,hnone⟩ := hopen
      rw [get?_store_self,Option.some.injEq] at hq
      exact absurd (hq ▸ hnone) (hall r hr)
    have hmod : t'%hcRing≠t%hcRing := mod_ne_of_window ht ⟨hlow,hhigh⟩ he
    rw [get?_store_of_mod_ne _ _ hmod] at hq
    rw [get?_dropStale_of_mod_ne hmod]
    exact h.full hm t' q hlow hhigh hq hall
  · refine Keeps.tryAdvance ?_ _
    refine ⟨hloc,fun he => absurd he hm,fun _ => hquorum,fun _ t' q hlow hhigh hq hall => ?_⟩
    dsimp only at hq ⊢
    by_cases he : t'=t
    · subst he
      rw [get?_store_self,Option.some.injEq] at hq
      subst hq
      rw [update_self]
      exact ⟨get?_store_self ..,rfl⟩
    have hmod : t'%hcRing≠t%hcRing := mod_ne_of_window ht ⟨hlow,hhigh⟩ he
    rw [get?_store_of_mod_ne _ _ hmod] at hq
    rw [get?_store_of_mod_ne _ _ hmod,get?_dropStale_of_mod_ne hmod,update_of_ne hmod]
    exact h.full hm t' q hlow hhigh hq hall

variable (hc)
theorem tryAdvance_peerMask (k : ℕ) : (hc.tryAdvance k).peerMask=hc.peerMask := by
  rw [tryAdvance_eq]

theorem note_peerMask (n : Note) : (hc.note n).peerMask=hc.peerMask := by
  cases n with
  | loc | peer => exact tryAdvance_peerMask ..
  | peerFrom s t d =>
    unfold note notePeerFrom notePeer
    dsimp only
    split
    · exact tryAdvance_peerMask ..
    split
    · rfl
    split
    · rfl
    · exact tryAdvance_peerMask ..

theorem run_peerMask (notes : List Note) : (hc.run notes).peerMask=hc.peerMask := by
  induction notes using reverseRecOn with
  | nil => rfl
  | append_singleton notes n ih => rw [run_snoc,note_peerMask,ih]

theorem start_peerMask (st : Start) : (hc.start st).peerMask=hc.peerMask := by
  cases st <;> rfl

variable {hc}
theorem run_keeps (hseats : ∀ s∈hc.peerMask,s<hcMaxPeers) (st : Start)
    (hn : OneEach hc.peerMask base notes) : Keeps notes base ((hc.start st).run notes) := by
  have hmask : ∀ notes,((hc.start st).run notes).peerMask=hc.peerMask := fun notes => by
    rw [run_peerMask,start_peerMask]
  induction notes using reverseRecOn with
  | nil =>
    refine ⟨by simp,by simp,by simp,fun _ t q _ _ hq => ?_⟩
    cases st <;> cases hq
  | append_singleton notes n ih =>
    have hkeep:=ih hn.init
    rw [← hmask notes] at hn hseats
    rw [run_snoc]
    cases n with
    | loc t d => exact hkeep.noteLocal hn
    | peer t d => exact absurd (by simp) (hn.seated t d)
    | peerFrom s t d => exact hkeep.notePeerFrom hseats hn

theorem mem_of_foldl_last {β : Type} {f : Option β → Note → Option β} {P : Note → β → Prop}
    (hf : ∀ o n b,f o n=some b → P n b ∨ o=some b) {b : β}
    (h : notes.foldl f none=some b) : ∃ n∈notes,P n b := by
  induction notes using reverseRecOn with
  | nil => cases h
  | append_singleton notes n ih =>
    rw [foldl_append,foldl_cons,foldl_nil] at h
    rcases hf _ n b h with hP | hold
    · exact ⟨n,by simp,hP⟩
    · obtain ⟨n',hmem,hP⟩ := ih hold
      exact ⟨n',mem_append_left _ hmem,hP⟩

theorem mem_of_lastLocal (h : lastLocal notes t=some d) : .loc t d∈notes := by
  obtain ⟨n,hmem,rfl⟩ := mem_of_foldl_last (P := fun n b => n=.loc t b)
    (fun o n b hb => by cases n <;> grind) h
  exact hmem

theorem mem_of_lastFrom (h : lastFrom notes s t=some d) : .peerFrom s t d∈notes := by
  obtain ⟨n,hmem,rfl⟩ := mem_of_foldl_last (P := fun n b => n=.peerFrom s t b)
    (fun o n b hb => by cases n <;> grind) h
  exact hmem

theorem mem_of_lastPeer (h : lastPeer notes t=some d) :
    .peer t d∈notes ∨ ∃ s,.peerFrom s t d∈notes := by
  obtain ⟨n,hmem,rfl | ⟨s,rfl⟩⟩ := mem_of_foldl_last
    (P := fun n b => n=.peer t b ∨ ∃ s,n=.peerFrom s t b)
    (fun o n b hb => by
      cases n with
      | loc t' d' => exact .inr hb
      | peer t' d' => dsimp only at hb; split at hb <;> simp_all
      | peerFrom s t' d' => dsimp only at hb; split at hb <;> simp_all) h
  · exact .inl hmem
  · exact .inr ⟨s,hmem⟩

theorem AllNoted.of_agreed {pre : List Note} (hn : OneEach mask base notes) (hpre : pre <+: notes)
    (h : Agreed mask pre t) : AllNoted mask notes t := by
  obtain ⟨d,hloc,hpeers⟩ := h
  refine ⟨d,hpre.subset (mem_of_lastLocal hloc),?_⟩
  unfold PeersSay at hpeers
  split
  · next hm =>
    rw [if_pos hm] at hpeers
    rcases mem_of_lastPeer hpeers with hp | ⟨s,hs⟩
    · exact absurd (hpre.subset hp) (hn.seated t d)
    · exact ⟨s,hpre.subset hs⟩
  next hm =>
  rw [if_neg hm] at hpeers
  exact fun s hs => hpre.subset (mem_of_lastFrom (hpeers s hs))

theorem quorumFirst_eq {q : ℕ → Option ℕ} (hm : mask≠∅) (hseats : ∀ s∈mask,s<hcMaxPeers)
    (hq : ∀ s∈mask,q s=some d) : quorumFirst mask q=d := by
  obtain ⟨s,hs⟩ := Finset.nonempty_iff_ne_empty.mpr hm
  have hmem : s∈(range hcMaxPeers).filter (·∈mask) := by
    simpa using ⟨hseats s hs,hs⟩
  unfold quorumFirst
  cases hl : (range hcMaxPeers).filter (·∈mask) with
  | nil => simp [hl] at hmem
  | cons r rest =>
    have hr : r∈mask := by
      have : r∈(range hcMaxPeers).filter (·∈mask) := by rw [hl]; exact mem_cons_self
      simpa using (mem_filter.mp this).2
    rw [findSome?_cons,hq r hr]
    rfl

theorem Keeps.waits (h : Keeps notes base hc) (hseats : ∀ s∈hc.peerMask,s<hcMaxPeers)
    (hn : OneEach hc.peerMask base notes) (hsettled : hc.advance? = none) :
    ¬AllNoted hc.peerMask notes hc.next := by
  rintro ⟨d,hloc,hpeers⟩
  suffices hp : hc.peer.get? hc.next=some d ∧ hc.quorumConflict (hc.next%hcRing)=false by
    rw [advance?_eq_some.mpr ⟨⟨d,h.loc _ d hloc,hp.1,hp.2⟩,rfl⟩] at hsettled
    cases hsettled
  by_cases hm : hc.peerMask=∅
  · rw [if_pos hm] at hpeers
    obtain ⟨s,hs⟩ := hpeers
    exact h.peer hm s _ d hs
  rw [if_neg hm] at hpeers
  obtain ⟨s,hs⟩ := Finset.nonempty_iff_ne_empty.mpr hm
  obtain ⟨q,hq,-⟩ := h.quorum hm s hs _ d (hpeers s hs)
  have hall : ∀ r∈hc.peerMask,q r=some d := fun r hr => by
    obtain ⟨q',hq',hd⟩ := h.quorum hm r hr _ d (hpeers r hr)
    rw [hq,Option.some.injEq] at hq'
    rw [hq',hd]
  have hwin:=hn.window _ hloc
  have hfull:=h.full hm _ q hwin.1 hwin.2 hq fun r hr => by rw [hall r hr]; simp
  rw [quorumFirst_eq hm hseats hall] at hfull
  refine ⟨hfull.1,hfull.2.trans (decide_eq_false ?_)⟩
  rintro ⟨r,hr,hne⟩
  exact hne (hall r hr)

theorem run_next_isGreatest (hseats : ∀ s∈hc.peerMask,s<hcMaxPeers) (st : Start)
    (hn : OneEach hc.peerMask (hc.start st).next notes) : IsGreatest {w | (hc.start st).next≤w ∧
      ∀ t,(hc.start st).next≤t → t<w → AllNoted hc.peerMask notes t}
      ((hc.start st).run notes).next := by
  have hmask : ((hc.start st).run notes).peerMask=hc.peerMask := by
    rw [run_peerMask,start_peerMask]
  have howes : ∀ t,(hc.start st).next≤t → st.Owes t := by
    cases st with
    | reset => exact fun _ _ => trivial
    | primeAfter p => exact fun _ ht => ht
  constructor
  · refine ⟨next_le_run _ notes,fun t hlow ht => ?_⟩
    obtain ⟨pre,hpre,hagreed⟩ := (run_tracks hc st notes fun _ => hn.seated).2 t ht (howes t hlow)
    exact .of_agreed hn hpre hagreed
  · rintro w ⟨-,hw⟩
    by_contra hlt
    have hwait:=(run_keeps hseats st hn).waits (by rwa [hmask]) (by rwa [hmask])
      (settled_run hc st notes)
    rw [hmask] at hwait
    exact hwait (hw _ (next_le_run _ notes) (not_le.mp hlt))

theorem resolved_eq_of_next {hc' : HashConfirm} (h : hc.next=hc'.next) :
    hc.resolved=hc'.resolved := by
  unfold next at h
  cases hr : hc.resolved <;> cases hr' : hc'.resolved <;> simp_all

end Order

/-- **Order independence.** -/
theorem watermark_order_free (hc : HashConfirm) (m : Finset ℕ) (st : Start) (notes notes' : List Note)
    (hn : OneEach (hc.setPeerMask m).peerMask ((hc.setPeerMask m).start st).next notes)
    (hsame : ∀ n,n∈notes' ↔ n∈notes) : (((hc.setPeerMask m).start st).run notes').resolved =
        (((hc.setPeerMask m).start st).run notes).resolved ∧
      IsGreatest {w | ((hc.setPeerMask m).start st).next≤w ∧
        ∀ t,((hc.setPeerMask m).start st).next≤t → t<w →
          AllNoted (hc.setPeerMask m).peerMask notes t}
        (((hc.setPeerMask m).start st).run notes).next := by
  have hseats : ∀ s∈(hc.setPeerMask m).peerMask,s<hcMaxPeers := by
    simp [setPeerMask]
  generalize hc.setPeerMask m=hc at *
  have hn' : OneEach hc.peerMask (hc.start st).next notes' := by
    constructor <;> simp only [hsame]
    exacts [hn.seated,hn.window,hn.loc,hn.seat,hn.alike]
  have hgreatest:=run_next_isGreatest hseats st hn
  have hgreatest':=run_next_isGreatest hseats st hn'
  simp only [AllNoted,hsame] at hgreatest'
  exact ⟨resolved_eq_of_next (hgreatest'.unique hgreatest),hgreatest⟩

def fourNotes : List Note := [.loc 4 5,.peerFrom 0 4 5,.peerFrom 2 4 5]

theorem watermark_order_free_quorum :
    ((((empty ∅).setPeerMask {0,2}).start (.primeAfter 3)).run
        ([.peerFrom 2 4 5]++fourNotes)).resolved =
      ((((empty ∅).setPeerMask {0,2}).start (.primeAfter 3)).run fourNotes).resolved := by
  refine (watermark_order_free (empty ∅) {0,2} (.primeAfter 3) fourNotes _ ⟨?_,?_,?_,?_,?_⟩
    ?_).1
  · simp [fourNotes]
  · decide +kernel
  · simp +contextual [fourNotes]
  · intro s t d d' hd hd'
    simp [fourNotes] at hd hd'
    omega
  · intro _ s s' t d d' hd hd'
    simp [fourNotes] at hd hd'
    omega
  · simp [fourNotes]

theorem unmasked_order_matters :
    (((empty ∅).start (.primeAfter 3)).run
        [.peerFrom 0 4 6,.peerFrom 1 4 5,.loc 4 5]).resolved=some 4 ∧
      (((empty ∅).start (.primeAfter 3)).run
        [.peerFrom 1 4 5,.peerFrom 0 4 6,.loc 4 5]).resolved=some 3 := by
  decide +kernel

end HashConfirm
end RecompNet
