import Mathlib.Data.List.MinMax
import Mathlib.Data.List.Perm.Basic

/-!
# Contests by a key

A holder keeps one item and meets others one after the other; an item with a key that is no larger
than the held one's takes its place.
-/
universe u v

namespace Contest
open List
variable {α : Type u} {β : Type v} [LinearOrder β] (key : α → β)
def contend (held : Option α) (a : α) : Option α :=
  match held with
  | none => some a
  | some h => if key a≤key h then some a else some h

variable {key} {a : α} {b : α}
theorem contend_contend_of_le (h : key b≤key a) (held : Option α) :
    contend key (contend key held a) b=contend key held b := by
  cases held with
  | none => exact if_pos h
  | some c =>
    unfold contend
    dsimp only
    by_cases hac : key a≤key c
    · rw [if_pos hac,if_pos (h.trans hac)]
      exact if_pos h
    · rw [if_neg hac]

theorem contend_contend_of_lt (h : key a<key b) (held : Option α) :
    contend key (contend key held a) b=contend key held a := by
  cases held with
  | none => exact if_neg h.not_ge
  | some c =>
    unfold contend
    dsimp only
    by_cases hac : key a≤key c
    · rw [if_pos hac]
      exact if_neg h.not_ge
    · rw [if_neg hac]
      exact if_neg ((not_le.mp hac).trans h).not_ge

variable {l : List α}
theorem argmin_cons_eq_concat (h : key a∉l.map key) :
    (a::l).argmin key=(l++[a]).argmin key := by
  rw [argmin_cons,argmin_concat]
  cases hc : l.argmin key with
  | none => rfl
  | some c =>
    have hne : key a≠key c := fun he =>
      h (he ▸ mem_map_of_mem (argmin_mem hc))
    dsimp only
    rcases lt_or_gt_of_ne hne with hlt | hgt
    · rw [if_neg hlt.le.not_gt,if_pos hlt]
    · rw [if_pos hgt,if_neg hgt.le.not_gt]

theorem argmin_contend (h : key a∉l.map key) (held : Option α) :
    (l++(contend key held a).toList).argmin key=(a::l++held.toList).argmin key := by
  cases held with
  | none =>
    rw [Option.toList_none,append_nil,argmin_cons_eq_concat h]
    rfl
  | some b =>
    have hboth : (a::l++[b]).argmin key=_ := argmin_concat key b (a::l)
    rw [Option.toList_some,hboth]
    unfold contend
    dsimp only
    by_cases hle : key a≤key b
    · rw [if_pos hle,Option.toList_some,← argmin_cons_eq_concat h]
      cases hc : (a::l).argmin key with
      | none => exact absurd (argmin_eq_none.mp hc) (cons_ne_nil a l)
      | some c =>
        have hca : key c≤key a := List.le_of_mem_argmin mem_cons_self hc
        dsimp only
        rw [if_neg (hca.trans hle).not_gt]
    · have hlt:=not_le.mp hle
      rw [if_neg hle,Option.toList_some,argmin_concat,argmin_cons]
      cases l.argmin key with
      | none =>
        dsimp only
        rw [if_pos hlt]
      | some c =>
        dsimp only
        by_cases hca : key c<key a
        · rw [if_pos hca]
        rw [if_neg hca]
        dsimp only
        rw [if_pos hlt,if_pos (hlt.trans_le (not_lt.mp hca))]

theorem foldl_contend (h : (l.map key).Nodup) (held : Option α) :
    l.foldl (contend key) held=(l++held.toList).argmin key := by
  induction l generalizing held with
  | nil => cases held <;> rfl
  | cons a l ih =>
    obtain ⟨ha,hl⟩ := nodup_cons.mp h
    rw [foldl_cons,ih hl,argmin_contend ha]

variable {l' : List α}
theorem argmin_perm (hperm : l.Perm l') (h : (l.map key).Nodup) : l.argmin key=l'.argmin key := by
  induction hperm with
  | nil => rfl
  | cons a _ ih =>
    rw [argmin_cons,argmin_cons,ih (nodup_cons.mp h).2]
  | swap a b l =>
    have hb:=(nodup_cons.mp h).1
    rw [argmin_cons_eq_concat hb,cons_append,argmin_cons,
      ← argmin_cons_eq_concat fun hin => hb (mem_cons_of_mem _ hin),← argmin_cons]
  | trans h₁ _ ih₁ ih₂ => exact (ih₁ h).trans (ih₂ ((h₁.map key).nodup_iff.mp h))

theorem foldl_contend_perm (hperm : l'.Perm l) (h : (l.map key).Nodup)
    (held : Option α) : l'.foldl (contend key) held=(l++held.toList).argmin key := by
  have h' : (l'.map key).Nodup := (hperm.map key).nodup_iff.mpr h
  rw [foldl_contend h']
  cases held with
  | none =>
    rw [Option.toList_none,append_nil,append_nil]
    exact argmin_perm hperm h'
  | some b => rw [Option.toList_some,argmin_concat,argmin_concat,argmin_perm hperm h']

end Contest
