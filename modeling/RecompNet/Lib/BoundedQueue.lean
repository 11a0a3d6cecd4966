import Mathlib.Data.List.Basic

/-!
# Bounded queues

First-in-first-out queues of at most `cap` entries, oldest first, with the ways a full queue or a
repeated entry is dealt with: the new entry is refused, the oldest one is overwritten, entries that
have become old are shed first, or the new entry is merged into one that waits already.
-/
universe u

namespace BoundedQueue
open List
variable {α : Type u} {cap : ℕ} {q : List α} {x y : α}
def offer (cap : ℕ) (q : List α) (x : α) : List α := if q.length<cap then q++[x] else q
def push (cap : ℕ) (q : List α) (x : α) : List α :=
  if q.length<cap then q++[x] else q.tail++[x]

def shed (cap : ℕ) (old : α → Bool) : List α → List α
  | [] => []
  | y::q => if cap≤(y::q).length ∧ old y then shed cap old q else y::q

def merge (same : α → Bool) (f : α → α) : List α → Option (List α)
  | [] => none
  | y::q => if same y then some (f y::q) else (merge same f q).map (y::·)

theorem mem_offer (h : y∈offer cap q x) : y∈q ∨ y=x := by
  unfold offer at h
  split at h
  · rcases mem_append.mp h with hq | hx
    · exact .inl hq
    · exact .inr (mem_singleton.mp hx)
  · exact .inl h

theorem mem_push (h : y∈push cap q x) : y∈q ∨ y=x := by
  unfold push at h
  split at h <;> rcases mem_append.mp h with hq | hx
  · exact .inl hq
  · exact .inr (mem_singleton.mp hx)
  · exact .inl (mem_of_mem_tail hq)
  · exact .inr (mem_singleton.mp hx)

variable {old : α → Bool}
theorem mem_shed (h : y∈shed cap old q) : y∈q := by
  induction q with
  | nil => exact h
  | cons z q ih =>
    unfold shed at h
    split at h
    · exact mem_cons_of_mem z (ih h)
    · exact h

variable {same : α → Bool} {f : α → α} {q' : List α}
theorem mem_merge (hm : merge same f q=some q')
    (h : y∈q') : y∈q ∨ ∃ z∈q,same z ∧ y=f z := by
  induction q generalizing q' with
  | nil => cases hm
  | cons z q ih =>
    unfold merge at hm
    split at hm
    · next hz =>
      cases hm
      rcases mem_cons.mp h with rfl | hq
      · exact .inr ⟨z,mem_cons_self,hz,rfl⟩
      · exact .inl (mem_cons_of_mem z hq)
    obtain ⟨r,hr,rfl⟩ := Option.map_eq_some_iff.mp hm
    rcases mem_cons.mp h with rfl | hq
    · exact .inl mem_cons_self
    rcases ih hr hq with hold | ⟨w,hw,hsame,hy⟩
    · exact .inl (mem_cons_of_mem z hold)
    · exact .inr ⟨w,mem_cons_of_mem z hw,hsame,hy⟩

variable {p : α → Bool}
theorem filter_offer (hx : p x=false) : (offer cap q x).filter p=q.filter p := by
  unfold offer
  split
  · simp [hx]
  · rfl

theorem filter_push (hlt : q.length<cap) (hx : p x=false) :
    (push cap q x).filter p=q.filter p := by
  unfold push
  rw [if_pos hlt]
  simp [hx]

theorem shed_of_lt (hlt : q.length<cap) : shed cap old q=q := by
  cases q with
  | nil => rfl
  | cons y q =>
    unfold shed
    rw [if_neg fun h => absurd h.1 (Nat.not_le.mpr hlt)]

theorem filter_merge (hm : merge same f q=some q')
    (hsame : ∀ y,same y → p y=false ∧ p (f y)=false) : q'.filter p=q.filter p := by
  induction q generalizing q' with
  | nil => cases hm
  | cons z q ih =>
    unfold merge at hm
    split at hm
    · next hz =>
      cases hm
      simp [(hsame z hz).1,(hsame z hz).2]
    · obtain ⟨r,hr,rfl⟩ := Option.map_eq_some_iff.mp hm
      simp only [filter_cons,ih hr]

end BoundedQueue
