import Mathlib.Data.List.Nodup
import RecompNet.Lib.BoundedQueue

/-!
# Runs of a bounded queue whose entries are coalesced by key

`Arrives` is one arrival as a sender may expect it: the entry of the same key takes over what the
new one says, or the new one goes to the end, or a full queue refuses it.
-/
universe u v w

namespace BoundedQueue
open List
variable {α : Type u} {κ : Type v} {β : Type w}

inductive Arrives (cap : ℕ) (key : α → κ) (body : α → β) (older : α → α → Prop) (x : α) :
    List α → List α → Prop
  | merged (front back : List α) (e e' : α) (hkey : key e=key x) (hkey' : key e'=key x)
      (hbody : body e'=body x) : Arrives cap key body older x (front++e::back) (front++e'::back)
  | appended (gone rest : List α) (hnew : ∀ e∈gone++rest,key e≠key x)
      (hgone : ∀ e∈gone,gone=[e] ∧ older e x ∧ cap≤(gone++rest).length) (hroom : rest.length<cap) :
      Arrives cap key body older x (gone++rest) (rest++[x])
  | refused (q : List α) (hnew : ∀ e∈q,key e≠key x) (hfull : cap≤q.length) :
      Arrives cap key body older x q q

inductive Op (α : Type u)
  | arrive (x : α)
  | take

inductive Run (cap : ℕ) (key : α → κ) (body : α → β) (older : α → α → Prop) :
    List α → List (Op α) → List α → List α → Prop
  | nil (q : List α) : Run cap key body older q [] [] q
  | arrive {x : α} {q q' q'' out : List α} {ops : List (Op α)}
      (hx : Arrives cap key body older x q q') (hrest : Run cap key body older q' ops out q'') :
      Run cap key body older q (.arrive x::ops) out q''
  | take {q q'' out : List α} {ops : List (Op α)} (hrest : Run cap key body older q.tail ops out q'') :
      Run cap key body older q (.take::ops) (q.head?.toList++out) q''

def arrivals : List (Op α) → List α
  | [] => []
  | .arrive x::ops => x::arrivals ops
  | .take::ops => arrivals ops

section Runs
variable {cap : ℕ} {key : α → κ} {body : α → β} {older : α → α → Prop} {x : α}
  {q q' out : List α} {ops : List (Op α)}

theorem arrives_offer (hnew : ∀ e∈q,key e≠key x) :
    Arrives cap key body older x q (offer cap q x) := by
  unfold offer
  split
  · next h => exact .appended [] q hnew (fun e he => by cases he) h
  · next h => exact .refused q hnew (Nat.not_lt.mp h)

theorem arrives_shed {old : α → Bool} (hnew : ∀ e∈q,key e≠key x) (hlen : q.length ≤ cap)
    (hold : ∀ e,q.head? = some e → q.length=cap → old e → older e x) :
    Arrives cap key body older x q (offer cap (shed cap old q) x) := by
  cases q with
  | nil => exact arrives_offer hnew
  | cons y q =>
    unfold shed
    split
    · next h =>
      have hroom : q.length<cap := hlen
      rw [shed_of_lt hroom,offer,if_pos hroom]
      refine .appended [y] q hnew (fun e he => ?_) hroom
      rw [mem_singleton.mp he]
      exact ⟨rfl,hold y rfl (Nat.le_antisymm hlen h.1) h.2,h.1⟩
    · exact arrives_offer hnew

variable {same : α → Bool}
theorem arrives_merge (hsame : ∀ e,same e ↔ key e=key x)
    (hm : merge same (fun _ => x) q=some q') : Arrives cap key body older x q q' := by
  suffices h : ∃ front e back,q=front++e::back ∧ q'=front++x::back ∧ same e=true by
    obtain ⟨front,e,back,rfl,rfl,he⟩ := h
    exact .merged front back e x ((hsame e).mp he) rfl rfl
  induction q generalizing q' with
  | nil => cases hm
  | cons y q ih =>
    unfold merge at hm
    split at hm
    · next hy =>
      cases hm
      exact ⟨[],y,q,rfl,rfl,hy⟩
    obtain ⟨r,hr,rfl⟩ := Option.map_eq_some_iff.mp hm
    obtain ⟨front,e,back,hq,hq',he⟩ := ih hr
    exact ⟨y::front,e,back,by rw [hq]; rfl,by rw [hq']; rfl,he⟩

theorem merge_eq_none {f : α → α} (hm : merge same f q=none) : ∀ e∈q,same e=false := by
  induction q with
  | nil => exact forall_mem_nil _
  | cons y q ih =>
    unfold merge at hm
    split at hm
    · cases hm
    · next hy => exact forall_mem_cons.mpr ⟨Bool.not_eq_true _ ▸ hy,
        ih (Option.map_eq_none_iff.mp hm)⟩

/-- Within the bound, one entry per key. -/
def Good (cap : ℕ) (key : α → κ) (q : List α) : Prop := q.length ≤ cap ∧ (q.map key).Nodup

theorem Good.tail (hq : Good cap key q) : Good cap key q.tail := by
  refine ⟨Nat.le_trans q.tail_sublist.length_le hq.1,?_⟩
  rw [map_tail]
  exact hq.2.sublist (tail_sublist _)

theorem Arrives.good (h : Arrives cap key body older x q q') (hq : Good cap key q) :
    Good cap key q' := by
  cases h with
  | merged front back e e' hkey hkey' hbody =>
    have hmap : (front++e'::back).map key=(front++e::back).map key := by
      simp only [map_append,map_cons,hkey,hkey']
    exact ⟨by simpa using hq.1,by rw [hmap]; exact hq.2⟩
  | appended gone rest hnew hgone hroom =>
    have hrest : (rest.map key).Nodup := hq.2.sublist ((sublist_append_right gone rest).map key)
    refine ⟨by rw [length_append]; exact hroom,?_⟩
    rw [map_append,map_cons,map_nil,nodup_append]
    refine ⟨hrest,nodup_singleton _,fun a ha b hb => ?_⟩
    obtain ⟨e,he,rfl⟩ := mem_map.mp ha
    rw [mem_singleton.mp hb]
    exact hnew e (mem_append_right gone he)
  | refused q hnew hfull => exact hq

theorem Arrives.keys (h : Arrives cap key body older x q q') :
    (q'.map key).Sublist ((q++[x]).map key) := by
  cases h with
  | merged front back e e' hkey hkey' hbody =>
    simp only [map_append,map_cons,hkey,hkey']
    exact sublist_append_left _ _
  | appended gone rest hnew hgone hroom =>
    exact ((sublist_append_right gone rest).append_right [x]).map key
  | refused q hnew hfull => exact (sublist_append_left q [x]).map key

variable {y : α}
theorem Arrives.entry (h : Arrives cap key body older x q q') (hy : y∈q) :
    y∈q' ∨ (key y=key x ∧ ∃ e∈q',key e=key x ∧ body e=body x) ∨
      older y x ∧ cap≤q.length ∧ q.head? = some y := by
  cases h with
  | merged front back e e' hkey hkey' hbody =>
    rcases mem_append.mp hy with hf | hb
    · exact .inl (mem_append_left _ hf)
    rcases mem_cons.mp hb with rfl | hb
    · exact .inr (.inl ⟨hkey,e',by simp,hkey',hbody⟩)
    · exact .inl (mem_append_right _ (mem_cons_of_mem e' hb))
  | appended gone rest hnew hgone hroom =>
    rcases mem_append.mp hy with hg | hr
    · obtain ⟨hone,hold,hfull⟩ := hgone y hg
      exact .inr (.inr ⟨hold,hfull,by rw [hone]; rfl⟩)
    · exact .inl (mem_append_left [x] hr)
  | refused q hnew hfull => exact .inl hy

theorem Arrives.self (h : Arrives cap key body older x q q') :
    (∃ e∈q',key e=key x ∧ body e=body x) ∨ cap≤q.length := by
  cases h with
  | merged front back e e' hkey hkey' hbody => exact .inl ⟨e',by simp,hkey',hbody⟩
  | appended gone rest hnew hgone hroom => exact .inl ⟨x,by simp,rfl,rfl⟩
  | refused q hnew hfull => exact .inr hfull

theorem Run.good (h : Run cap key body older q ops out q') (hq : Good cap key q) :
    Good cap key q' := by
  induction h with
  | nil => exact hq
  | arrive hx _ ih => exact ih (hx.good hq)
  | take _ ih => exact ih hq.tail

theorem Run.fifo (h : Run cap key body older q ops out q') :
    ((out++q').map key).Sublist ((q++arrivals ops).map key) := by
  induction h with
  | nil q => rw [arrivals,append_nil]; exact .refl _
  | @arrive x q q' q'' out ops hx _ ih =>
    refine ih.trans ?_
    rw [arrivals,append_cons,map_append,map_append]
    exact hx.keys.append_right _
  | @take q q'' out ops _ ih =>
    cases q with
    | nil => exact ih
    | cons y q => exact ih.cons_cons (key y)

end Runs
end BoundedQueue
