import Mathlib.Data.List.Nodup

/-!
# A map written over

A store is a partial function from keys to values.
-/
namespace RecompNet.Rekey
open Function
variable {κ β : Type*} [DecidableEq κ] {keep : κ → Bool}
def rekey (keep : κ → Bool) (ws : List (κ × β)) (m : κ → Option β) : κ → Option β :=
  ws.foldl (fun m w => if keep w.1 then update m w.1 (some w.2) else m) m
@[simp] theorem rekey_nil (m : κ → Option β) : rekey keep [] m=m := rfl

theorem rekey_concat (ws : List (κ × β)) (w : κ × β) (m : κ → Option β) : rekey keep (ws++[w]) m =
      if keep w.1 then update (rekey keep ws m) w.1 (some w.2) else rekey keep ws m := by
  unfold rekey
  rw [List.foldl_append]
  rfl

theorem rekey_cons (w : κ × β) (ws : List (κ × β)) (m : κ → Option β) :
    rekey keep (w::ws) m=rekey keep ws (if keep w.1 then update m w.1 (some w.2) else m) := rfl

theorem rekey_of_unwritten {k : κ} (ws : List (κ × β)) (m : κ → Option β)
    (h : ∀ b,(k,b)∈ws → keep k=false) : rekey keep ws m k=m k := by
  induction ws generalizing m with
  | nil => rfl
  | cons w ws ih =>
    rw [rekey_cons,ih _ fun b hb => h b (List.mem_cons_of_mem _ hb)]
    by_cases hk : k=w.1
    · subst hk
      rw [h w.2 List.mem_cons_self]
      rfl
    split
    · exact update_of_ne hk _ _
    · rfl

theorem rekey_of_written {k : κ} {b : β} {ws : List (κ × β)} (m : κ → Option β)
    (hnodup : (ws.map Prod.fst).Nodup) (hmem : (k,b)∈ws) (hk : keep k) :
    rekey keep ws m k=some b := by
  induction ws generalizing m with
  | nil => cases hmem
  | cons w ws ih =>
    obtain ⟨hfresh,hrest⟩ := List.nodup_cons.mp hnodup
    rw [rekey_cons]
    rcases List.mem_cons.mp hmem with rfl | hlater
    · -- the head writes the key, and nothing after it does
      rw [if_pos hk,rekey_of_unwritten,update_self]
      intro b' hb'
      exact absurd (List.mem_map_of_mem hb') hfresh
    · exact ih _ hrest hlater

end RecompNet.Rekey
