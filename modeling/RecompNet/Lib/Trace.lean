import Mathlib.Logic.Relation
import Mathlib.Data.List.Basic

/-!
# Runs, traces and conditional invariants

A component is a partial step function over its calls; what it did is a trace, newest event first,
that only grows.
-/
universe u

section Runs
variable {S A T : Type u} {step : S → A → Option S}
def runCalls (step : S → A → Option S) : List A → S → Option S
  | [],s => some s
  | a::as,s =>
    match step s a with
    | some s' => runCalls step as s'
    | none => none

variable {as : List A} {s s' : S}
theorem runCalls_refines (abs : S → T) {R : T → T → Prop}
    (hstep : ∀ s a s',step s a=some s' → Relation.ReflTransGen R (abs s) (abs s'))
    (h : runCalls step as s=some s') : Relation.ReflTransGen R (abs s) (abs s') := by
  induction as generalizing s with
  | nil =>
    cases h
    exact .refl
  | cons a as ih =>
    unfold runCalls at h
    split at h
    · next t ht => exact (hstep s a t ht).trans (ih h)
    · cases h

theorem runCalls_invariant {I : S → Prop} {C : S → A → Prop}
    (hstep : ∀ s a s',step s a=some s' → C s a → I s → I s') (h : runCalls step as s=some s')
    (hC : ∀ pre a t,pre++[a] <+: as → runCalls step pre s=some t → C t a) (hI : I s) : I s' := by
  induction as generalizing s with
  | nil =>
    cases h
    exact hI
  | cons a as ih =>
    unfold runCalls at h
    split at h
    · next t ht =>
      refine ih h ?_ (hstep s a t ht (hC [] a s (by simp) rfl) hI)
      intro pre b u hpre hrun
      refine hC (a::pre) b u (List.cons_prefix_cons.mpr ⟨rfl,hpre⟩) ?_
      unfold runCalls
      rw [ht]
      exact hrun
    · cases h

theorem runCalls_snoc {a : A} (h : runCalls step (as++[a]) s=some s') :
    ∃ t,runCalls step as s=some t ∧ step t a=some s' := by
  induction as generalizing s with
  | nil =>
    dsimp only [List.nil_append,runCalls] at h
    split at h
    · next t ht =>
      cases h
      exact ⟨s,rfl,ht⟩
    · cases h
  | cons b as ih =>
    dsimp only [List.cons_append,runCalls] at h ⊢
    split at h
    · exact ih h
    · cases h

end Runs

section Steps
variable {A : Type u} {P : List A → A → Prop}
theorem forall_steps_nil : ∀ pre a,pre++[a] <+: [] → P pre a :=
  fun pre _ h => absurd (List.prefix_nil.mp h) (List.append_ne_nil_of_right_ne_nil pre (by simp))

theorem forall_steps_cons {a : A} {l : List A} (hhead : P [] a)
    (htail : ∀ pre b,pre++[b] <+: l → P (a::pre) b) : ∀ pre b,pre++[b] <+: a::l → P pre b := by
  intro pre b h
  cases pre with
  | nil =>
    obtain ⟨rfl,-⟩ := List.cons_prefix_cons.mp h
    exact hhead
  | cons c pre =>
    obtain ⟨rfl,hrest⟩ := List.cons_prefix_cons.mp h
    exact htail pre b hrest

end Steps

namespace Trace
variable {E T : Type u}

/-- `P` of every event and its past. -/
def All (P : E → List E → Prop) : List E → Prop
  | [] => True
  | e::past => P e past ∧ All P past

instance decidableAll (P : E → List E → Prop) [∀ e past,Decidable (P e past)] :
    ∀ l,Decidable (All P l)
  | [] => inferInstanceAs (Decidable True)
  | e::past =>
    have := decidableAll P past
    inferInstanceAs (Decidable (P e past ∧ All P past))

variable {P Q : E → List E → Prop} {l l' : List E} {e : E}
theorem All.head (h : All P (e::l)) : P e l := h.1
theorem All.tail (h : All P (e::l)) : All P l := h.2
theorem All.cons (he : P e l) (h : All P l) : All P (e::l) := ⟨he,h⟩

theorem All.of_forall (h : ∀ e past,P e past) : ∀ l,All P l
  | [] => trivial
  | e::past => ⟨h e past,of_forall h past⟩

theorem All.append_right : ∀ {pre : List E},All P (pre++l) → All P l
  | [],h => h
  | _::_,h => append_right h.2

theorem All.suffix (h : All P l') (hs : l <:+ l') : All P l := by
  obtain ⟨pre,rfl⟩ := hs
  exact h.append_right

variable {pre : List E}
theorem All.at (h : All P (pre++e::l)) : P e l := h.append_right.head

theorem All.append (h : All P l) (hpre : ∀ e∈pre,∀ past,P e past) : All P (pre++l) := by
  induction pre with
  | nil => exact h
  | cons e pre ih =>
    exact ⟨hpre e (by simp) _,ih fun e' he' => hpre e' (List.mem_cons_of_mem _ he')⟩

theorem invariant (log : T → List E) {R : T → T → Prop} {I : T → Prop}
    (hgrow : ∀ {s s'},R s s' → log s <:+ log s')
    (hstep : ∀ {s s'},R s s' → All P (log s') → I s → I s')
    {s s' : T} (h : Relation.ReflTransGen R s s') (hI : I s) (hP : All P (log s')) : I s' := by
  induction h with
  | refl => exact hI
  | tail _ hstep' ih => exact hstep hstep' hP (ih (hP.suffix (hgrow hstep')))

end Trace
