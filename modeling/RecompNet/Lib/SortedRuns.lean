import Mathlib.Data.List.Destutter
import Mathlib.Order.Lattice

/-!
# Sorting by a comparison and dropping repeated neighbours
-/
open List

/-- What `qsort` promises: an arrangement of the rows that the comparison accepts. -/
structure Qsort {α : Type*} (cmp : α → α → ℤ) where
  sort : List α → List α
  perm : ∀ l,(sort l).Perm l
  sorted : ∀ l,(sort l).Pairwise fun a b => cmp a b≤0

variable {α β κ : Type*} [LinearOrder κ]
def Qsort.ofKey {cmp : α → α → ℤ} (key : α → κ) (h : ∀ a b,cmp a b≤0 ↔ key a≤key b) :
    Qsort cmp where
  sort l := l.mergeSort fun a b => cmp a b≤0
  perm l := mergeSort_perm l _
  sorted l := by
    refine (pairwise_mergeSort (fun a b c hab hbc => ?_) (fun a b => ?_) l).imp of_decide_eq_true
    · simp only [decide_eq_true_eq,h] at hab hbc ⊢
      exact hab.trans hbc
    · simp only [Bool.or_eq_true,decide_eq_true_eq,h]
      exact le_total ..

/-- A list of one row needs no call. -/
theorem Qsort.arranged {cmp : α → α → ℤ} (q : Qsort cmp) {l s : List α}
    (hs : s=if 1<l.length then q.sort l else l) : s.Perm l ∧ s.Pairwise fun a b => cmp a b≤0 := by
  subst hs
  rcases l with _ | ⟨a,_ | ⟨b,l⟩⟩
  · exact ⟨.refl _,.nil⟩
  · exact ⟨.refl _,pairwise_singleton _ a⟩
  · rw [if_pos (by simp)]
    exact ⟨q.perm _,q.sorted _⟩

variable [DecidableEq β] {f : α → β} {l : List α}

/-- The rows that open a run of rows with one value of `f`. -/
def runHeads (f : α → β) (l : List α) : List α := l.destutter fun a b => f a≠f b

theorem runHeads_lt {place : β → κ}
    (h : l.Pairwise fun a b => f a≠f b → place (f a)<place (f b)) :
    ((runHeads f l).map f).Pairwise fun a b => place a<place b := by
  have hkept : (runHeads f l).IsChain _ := (h.sublist (destutter_sublist _ l)).isChain
  have hapart:=isChain_destutter (fun a b => f a≠f b) l
  have hchain : (((runHeads f l).map f).map place).IsChain (· < ·) := by
    rw [isChain_map,isChain_map]
    refine isChain_iff_getElem.mpr fun i hi => ?_
    exact isChain_iff_getElem.mp hkept i hi (isChain_iff_getElem.mp hapart i hi)
  exact pairwise_map.mp hchain.pairwise

/-- In a sorted list a run's head comes first of all the rows with its value. -/
theorem exists_runHead (f : α → β) {le : α → α → Prop} (h : l.Pairwise le) {b : α} (hb : b∈l) :
    ∃ a∈runHeads f l,f a=f b ∧ (a=b ∨ le a b) := by
  cases l with
  | nil => cases hb
  | cons a l =>
    change ∃ c∈l.destutter' _ a,_
    induction l generalizing a with
    | nil =>
      cases mem_singleton.mp hb
      exact ⟨_,mem_destutter' ..,rfl,.inl rfl⟩
    | cons c l ih =>
      obtain ⟨ha,hl⟩ := pairwise_cons.mp h
      unfold destutter'
      split
      · rcases mem_cons.mp hb with rfl | hb
        · exact ⟨b,mem_cons_self,rfl,.inl rfl⟩
        · obtain ⟨d,hd,heq⟩ := ih c hl hb
          exact ⟨d,mem_cons_of_mem _ hd,heq⟩
      · next hac =>
        rcases mem_cons.mp hb with rfl | hb
        · exact ⟨b,mem_destutter' ..,rfl,.inl rfl⟩
        rcases mem_cons.mp hb with rfl | hb
        · exact ⟨a,mem_destutter' ..,not_not.mp hac,.inr (ha _ mem_cons_self)⟩
        · exact ih a (h.sublist ((sublist_cons_self c l).cons_cons a)) (mem_cons_of_mem _ hb)
