import Mathlib.Data.List.Range

/-!
# Words as sets of bits

Tests and updates of single bits in a word, in the forms C code uses: `x & (1 << r)`,
`x |= 1 << r`, `x & ~y`, and loops that collect bits.
-/
namespace BitVec
variable {w : ℕ} {x y : BitVec w} {q r : ℕ}
theorem and_twoPow_eq_zero (hr : r<w) : x &&& twoPow w r=0 ↔ x.getLsbD r=false := by
  rw [and_twoPow]
  cases hx : x.getLsbD r
  · simp
  · simp only [if_true,Bool.true_eq_false,iff_false]
    intro h
    have hbit:=congrArg (fun v => v.getLsbD r) h
    simp [hr] at hbit

theorem getLsbD_or_twoPow (hr : r<w) :
    (x ||| twoPow w r).getLsbD q=(x.getLsbD q || decide (r=q)) := by
  simp [getLsbD_or,getLsbD_twoPow,hr]

theorem getLsbD_twoPow_of_lt (hr : r<w) : (twoPow w r).getLsbD q=decide (r=q) := by
  simp [getLsbD_twoPow,hr]

theorem and_not_eq_zero : x &&& ~~~y=0 ↔ ∀ r,x.getLsbD r → y.getLsbD r := by
  constructor
  · intro h r hx
    have hbit:=congrArg (fun v => v.getLsbD r) h
    have hr : r<w := lt_of_getLsbD hx
    simpa [hx,hr] using hbit
  · intro h
    refine eq_of_getLsbD_eq fun r hr => ?_
    have hr':=h r
    cases hx : x.getLsbD r <;> simp_all

theorem ne_zero_of_getLsbD (h : x.getLsbD r) : x≠0 := by
  rintro rfl
  simp at h

theorem getLsbD_foldl_or (p : ℕ → Bool) (l : List ℕ) (hl : ∀ i∈l,i<w) (x : BitVec w) :
    (l.foldl (fun mask i => if p i then mask ||| twoPow w i else mask) x).getLsbD q =
      (x.getLsbD q || (decide (q∈l) && p q)) := by
  induction l generalizing x with
  | nil => simp
  | cons i l ih =>
    rw [List.foldl_cons,ih fun j hj => hl j (List.mem_cons_of_mem _ hj)]
    have hi : i<w := hl i List.mem_cons_self
    by_cases hp : p i
    · rw [if_pos hp,getLsbD_or_twoPow hi]
      by_cases hq : i=q
      · subst hq
        simp [hp]
      · simp [hq,Ne.symm hq]
    rw [if_neg hp]
    by_cases hq : q=i
    · subst hq
      simp [hp]
    · simp [hq]

end BitVec
