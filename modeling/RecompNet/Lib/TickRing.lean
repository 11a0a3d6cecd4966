import Mathlib.Data.List.Range

/-!
# Rings keyed by a tick modulo their length

A ring of `n` cells keeps, for each residue modulo `n`, the last tick stored there together with
its value.
-/
universe u

structure TickRing (n : ℕ) (α : Type u) where
  cell : ℕ → Option (ℕ × α)

namespace TickRing
variable {n : ℕ} {α : Type u}
def empty : TickRing n α := ⟨fun _ => none⟩
instance : Inhabited (TickRing n α) := ⟨empty⟩

variable (r : TickRing n α) (t : ℕ)
def store (v : α) : TickRing n α := ⟨fun i => if i=t%n then some (t,v) else r.cell i⟩
/-- `rnet_ring_clear`. -/
def clear : TickRing n α := ⟨fun i => if i=t%n then none else r.cell i⟩

def get? : Option α :=
  match r.cell (t%n) with
  | some (t',v) => if t'=t then some v else none
  | none => none

def has : Bool := (r.get? t).isSome
def highest : ℕ := ((List.range n).filterMap fun i => (r.cell i).map Prod.fst).foldl max 0
@[simp] theorem get?_empty : (empty : TickRing n α).get? t=none := rfl

variable (r : TickRing n α)
theorem get?_store (t t' : ℕ) (v : α) : (r.store t v).get? t' =
      if t'=t then some v else if t'%n=t%n then none else r.get? t' := by
  unfold get? store
  by_cases hm : t'%n=t%n
  · by_cases ht : t'=t
    · simp [ht]
    · have ht' : ¬ t=t' := fun h => ht h.symm
      simp [hm,ht,ht']
  · have ht : t'≠t := fun h => hm (by rw [h])
    simp [hm,ht]

@[simp] theorem get?_store_self (v : α) : (r.store t v).get? t=some v := by
  simp [get?_store]

variable {t t' : ℕ}
theorem get?_store_of_mod_ne (v : α) (h : t'%n≠t%n) : (r.store t v).get? t'=r.get? t' := by
  have ht : t'≠t := fun e => h (by rw [e])
  simp [get?_store,h,ht]

variable {r : TickRing n α} {v w : α}
theorem get?_store_cases (h : (r.store t v).get? t'=some w) :
    (t'=t ∧ w=v) ∨ t'%n≠t%n ∧ r.get? t'=some w := by
  rw [get?_store] at h
  split at h
  · next ht => exact Or.inl ⟨ht,(Option.some.inj h).symm⟩
  split at h
  · cases h
  · next hm => exact Or.inr ⟨hm,h⟩

theorem get?_store_eq_some
    (h : (r.store t v).get? t'=some w) : (t'=t ∧ w=v) ∨ r.get? t'=some w :=
  (get?_store_cases h).imp_right And.right

theorem get?_clear (t t' : ℕ) :
    (r.clear t).get? t'=if t'%n=t%n then none else r.get? t' := by
  unfold get? clear
  by_cases hm : t'%n=t%n <;> simp [hm]

theorem store_clear (t : ℕ) (v : α) : (r.clear t).store t v=r.store t v := by
  unfold store clear
  congr 1
  funext i
  by_cases hi : i=t%n <;> simp [hi]

theorem get?_clear_eq_some
    (h : (r.clear t).get? t'=some w) : r.get? t'=some w ∧ t'%n≠t%n := by
  rw [get?_clear] at h
  split at h
  · cases h
  · next hm => exact ⟨h,hm⟩

theorem eq_of_has_of_mod_eq (h : r.has t) (h' : r.has t') (hm : t%n=t'%n) : t=t' := by
  unfold has get? at h h'
  rw [hm] at h
  cases hc : r.cell (t'%n) with
  | none => simp [hc] at h
  | some e =>
    rw [hc] at h h'
    have ht : e.1=t := by
      by_contra hne
      simp [hne] at h
    have ht' : e.1=t' := by
      by_contra hne
      simp [hne] at h'
    rw [← ht,ht']

theorem has_clear_of_ne (ht : r.has t) (h : r.has t') (hne : t'≠t) : (r.clear t).has t' := by
  have hm : t'%n≠t%n := fun hm => hne (eq_of_has_of_mod_eq h ht hm)
  unfold has
  rw [get?_clear,if_neg hm]
  exact h

def Holds (r : TickRing n α) (P : ℕ → α → Prop) : Prop := ∀ t v,r.get? t=some v → P t v

theorem Holds.empty (P : ℕ → α → Prop) : (empty : TickRing n α).Holds P := by
  intro t v h
  simp at h

theorem Holds.store {P : ℕ → α → Prop} (h : r.Holds P) (hv : P t v) : (r.store t v).Holds P := by
  intro t' w hw
  rcases get?_store_eq_some hw with ⟨rfl,rfl⟩ | hw
  · exact hv
  · exact h t' w hw

theorem Holds.mono {P Q : ℕ → α → Prop} (h : r.Holds P) (hpq : ∀ t v,P t v → Q t v) : r.Holds Q :=
  fun t v hv => hpq t v (h t v hv)

variable {a : ℕ}
theorem mod_ne_of_lt_add {n b : ℕ} (hab : a<b) (hb : b<a+n) : b%n≠a%n := by
  intro h
  have hd : n ∣ b-a := Nat.dvd_of_mod_eq_zero (Nat.sub_mod_eq_zero_of_mod_eq h)
  have hle:=Nat.le_of_dvd (by omega) hd
  omega

theorem has_store_of_near (v : α) (h : r.has t' ∨ t'=t)
    (hlow : t<t'+n) (hhigh : t'<t+n) : (r.store t v).has t' := by
  by_cases heq : t'=t
  · simp [has,heq]
  have hm : t'%n≠t%n := by
    rcases Nat.lt_or_gt_of_ne heq with hlt | hgt
    · exact (mod_ne_of_lt_add hlt hlow).symm
    · exact mod_ne_of_lt_add hgt hhigh
  unfold has
  rw [get?_store_of_mod_ne _ _ hm]
  exact h.resolve_right heq

theorem le_foldl_max {l : List ℕ} {x : ℕ} (h : x∈l ∨ x≤a) : x≤l.foldl max a := by
  induction l generalizing a with
  | nil => simpa using h
  | cons y l ih =>
    rw [List.foldl_cons]
    refine ih ?_
    rcases h with h | h
    · rcases List.mem_cons.mp h with rfl | h
      · exact .inr (Nat.le_max_right ..)
      · exact .inl h
    · exact .inr (le_trans h (Nat.le_max_left ..))

theorem le_highest (hn : 0<n) (h : r.has t) : t ≤ r.highest := by
  unfold has get? at h
  cases hc : r.cell (t%n) with
  | none => simp [hc] at h
  | some e =>
    rw [hc] at h
    have ht : e.1=t := by
      by_contra hne
      simp [hne] at h
    refine le_foldl_max (.inl (List.mem_filterMap.mpr ⟨t%n,?_,?_⟩))
    · exact List.mem_range.mpr (Nat.mod_lt t hn)
    · rw [hc,Option.map_some,ht]

theorem foldl_max_le {l : List ℕ} {b : ℕ} (ha : a≤b) (h : ∀ x∈l,x≤b) : l.foldl max a≤b := by
  induction l generalizing a with
  | nil => exact ha
  | cons y l ih =>
    rw [List.foldl_cons]
    exact ih (Nat.max_le.mpr ⟨ha,h y List.mem_cons_self⟩) fun x hx => h x (List.mem_cons_of_mem _ hx)

theorem highest_store_le (t : ℕ) (v : α) : (r.store t v).highest ≤ max r.highest t := by
  refine foldl_max_le (Nat.zero_le _) ?_
  intro x hx
  obtain ⟨i,hi,hcell⟩ := List.mem_filterMap.mp hx
  by_cases him : i=t%n
  · simp only [store,him,if_true,Option.map_some,Option.some.injEq] at hcell
    omega
  · simp only [store,him,if_false] at hcell
    exact le_trans (le_foldl_max (.inl (List.mem_filterMap.mpr ⟨i,hi,hcell⟩))) (Nat.le_max_left ..)

def FilledTo (r : TickRing n α) (p : ℕ) : Prop := ∀ t,r.has t ↔ t<p ∧ p≤t+n

theorem FilledTo.empty : (empty : TickRing n α).FilledTo 0 := by
  intro t
  simp [has]

theorem FilledTo.store {p : ℕ} (h : r.FilledTo p) (hn : 0<n) (v : α) :
    (r.store p v).FilledTo (p+1) := by
  intro t
  have ht:=h t
  unfold has at ht ⊢
  rw [get?_store]
  split
  · next heq =>
    subst heq
    simp only [Option.isSome_some,true_iff]
    omega
  next hne =>
  split
  · next hm =>
    simp only [Option.isSome_none,Bool.false_eq_true,false_iff]
    rintro ⟨hlt,hle⟩
    exact mod_ne_of_lt_add (a := t) (b := p) (by omega) (by omega) hm.symm
  next hm =>
  rw [ht]
  constructor
  · rintro ⟨hlt,hle⟩
    have : p≠t+n := by
      rintro rfl
      exact hm (Nat.add_mod_right t n).symm
    omega
  · rintro ⟨hlt,hle⟩
    omega

end TickRing
