import Mathlib.Data.List.Basic

/-!
# Nodes over a lossy, duplicating, reordering network

The network never forgets a datagram: `sent` only grows, and a node may be handed any datagrams
that were ever sent, in any order, any number of times.
-/
universe u

/-- A network of nodes with everything ever sent and every event observed. -/
structure Net (ι σ μ ε : Type u) where
  node : ι → σ
  sent : List μ
  log : List (ι × ε)

structure NodeSpec (ι σ μ ε κ : Type u) where
  inputs : κ → List μ
  act : ι → κ → σ → σ × List μ × List ε

namespace Net
variable {ι σ μ ε κ : Type u} [DecidableEq ι] (spec : NodeSpec ι σ μ ε κ)
def next (w : Net ι σ μ ε) (i : ι) (c : κ) : Net ι σ μ ε :=
  let r:=spec.act i c (w.node i)
  { node := Function.update w.node i r.1
    sent := w.sent++r.2.1
    log := w.log++r.2.2.map fun e => (i,e) }

theorem next_node_self (w : Net ι σ μ ε) (i : ι) (c : κ) :
    (next spec w i c).node i=(spec.act i c (w.node i)).1 := Function.update_self ..

def Enabled (w : Net ι σ μ ε) (c : κ) : Prop := ∀ m∈spec.inputs c,m∈w.sent

instance [DecidableEq μ] (spec : NodeSpec ι σ μ ε κ) (w : Net ι σ μ ε) (c : κ) :
    Decidable (Enabled spec w c) := inferInstanceAs (Decidable (∀ m∈spec.inputs c,m∈w.sent))

/-- States reachable from `init` by calls that satisfy `ok`. -/
inductive Reach (spec : NodeSpec ι σ μ ε κ) (ok : Net ι σ μ ε → ι → κ → Prop)
    (init : Net ι σ μ ε → Prop) : Net ι σ μ ε → Prop
  | start {w} : init w → Reach spec ok init w
  | call {w} (i : ι) (c : κ) : Reach spec ok init w → Enabled spec w c → ok w i c →
      Reach spec ok init (next spec w i c)

def run (spec : NodeSpec ι σ μ ε κ) (w : Net ι σ μ ε) : List (ι × κ) → Net ι σ μ ε
  | [] => w
  | c::cs => run spec (next spec w c.1 c.2) cs

/-- Each call of the list is enabled and allowed when its turn comes. -/
def RunOk (spec : NodeSpec ι σ μ ε κ) (ok : Net ι σ μ ε → ι → κ → Prop) :
    Net ι σ μ ε → List (ι × κ) → Prop
  | _,[] => True
  | w,c::cs => Enabled spec w c.2 ∧ ok w c.1 c.2 ∧ RunOk spec ok (next spec w c.1 c.2) cs

instance decidableRunOk [DecidableEq μ] (spec : NodeSpec ι σ μ ε κ)
    (ok : Net ι σ μ ε → ι → κ → Prop) [∀ w i c,Decidable (ok w i c)] :
    ∀ (w : Net ι σ μ ε) (cs : List (ι × κ)),Decidable (RunOk spec ok w cs)
  | _,[] => inferInstanceAs (Decidable True)
  | w,c::cs =>
    have := decidableRunOk spec ok (next spec w c.1 c.2) cs
    inferInstanceAs (Decidable (_ ∧ _ ∧ _))

variable {spec : NodeSpec ι σ μ ε κ} {ok : Net ι σ μ ε → ι → κ → Prop} {init : Net ι σ μ ε → Prop}
  {w : Net ι σ μ ε}

theorem Reach.run (cs : List (ι × κ))
    (hw : Reach spec ok init w) (hc : RunOk spec ok w cs) : Reach spec ok init (run spec w cs) := by
  induction cs generalizing w with
  | nil => exact hw
  | cons c cs ih => exact ih (.call c.1 c.2 hw hc.1 hc.2.1) hc.2.2

def anyCall (_ : Net ι σ μ ε) (_ : ι) (_ : κ) : Prop := True
instance (w : Net ι σ μ ε) (i : ι) (c : κ) : Decidable (anyCall w i c) :=
  inferInstanceAs (Decidable True)

structure Facts (ι σ μ ε K : Type u) where
  grow : ι → K → K → Prop
  node : K → ι → σ → Prop
  msg : K → μ → Prop
  log : K → List (ι × ε) → Prop

structure Facts.Stable {K : Type u} (F : Facts ι σ μ ε K) : Prop where
  node : ∀ {i j k k' s},j≠i → F.grow i k k' → F.node k j s → F.node k' j s
  msg : ∀ {i k k' m},F.grow i k k' → F.msg k m → F.msg k' m

structure Facts.Describe {K : Type u} (F : Facts ι σ μ ε K) (k : K) (w : Net ι σ μ ε) : Prop where
  node : ∀ i,F.node k i (w.node i)
  msg : ∀ m∈w.sent,F.msg k m
  log : F.log k w.log

structure Facts.Matches {K : Type u} (F : Facts ι σ μ ε K) (i : ι) (k k' : K)
    (r : σ × List μ × List ε) (log : List (ι × ε)) : Prop where
  grow : F.grow i k k'
  node : F.node k' i r.1
  msg : ∀ m∈r.2.1,F.msg k' m
  log : F.log k' (log++r.2.2.map fun e => (i,e))

variable {K : Type u} {F : Facts ι σ μ ε K}
theorem Facts.Describe.call (hF : F.Stable) {k k' : K} {i : ι} {c : κ}
    (h : F.Describe k w) (hm : F.Matches i k k' (spec.act i c (w.node i)) w.log) :
    F.Describe k' (next spec w i c) where
  node := by
    intro j
    by_cases hj : j=i
    · subst hj
      rw [next_node_self]
      exact hm.node
    · simpa only [next,Function.update_of_ne hj] using hF.node hj hm.grow (h.node j)
  msg := by
    intro m hmem
    rcases List.mem_append.mp hmem with hold | hnew
    · exact hF.msg hm.grow (h.msg m hold)
    · exact hm.msg m hnew
  log := hm.log

theorem invariant (hF : F.Stable) (h0 : ∀ w,init w → ∃ k,F.Describe k w)
    (hstep : ∀ w i c k,F.Describe k w → ok w i c → (∀ m∈spec.inputs c,F.msg k m) →
      ∃ k',F.Matches i k k' (spec.act i c (w.node i)) w.log)
    (hw : Reach spec ok init w) : ∃ k,F.Describe k w := by
  induction hw with
  | start hi => exact h0 _ hi
  | call i c _ hen hok ih =>
    obtain ⟨k,hk⟩ := ih
    obtain ⟨k',hm⟩ := hstep _ i c k hk hok fun m hmem => hk.msg m (hen m hmem)
    exact ⟨k',hk.call hF hm⟩

/-! ### Facts about the log

Often the events observed so far are all the knowledge there is. -/
structure LogFacts (ι σ μ ε : Type u) where
  node : List (ι × ε) → ι → σ → Prop
  msg : List (ι × ε) → μ → Prop

structure LogFacts.Stable (F : LogFacts ι σ μ ε) : Prop where
  node : ∀ {i j log s} (evs : List ε),j≠i → F.node log j s →
    F.node (log++evs.map fun e => (i,e)) j s
  msg : ∀ {i log m} (evs : List ε),F.msg log m → F.msg (log++evs.map fun e => (i,e)) m

structure LogFacts.Holds (F : LogFacts ι σ μ ε) (w : Net ι σ μ ε) : Prop where
  node : ∀ i,F.node w.log i (w.node i)
  msg : ∀ m∈w.sent,F.msg w.log m

def LogFacts.toFacts (F : LogFacts ι σ μ ε) : Facts ι σ μ ε (List (ι × ε)) where
  grow i k k' := ∃ evs : List ε,k'=k++evs.map fun e => (i,e)
  node := F.node
  msg := F.msg
  log k log := k=log

theorem log_invariant {F : LogFacts ι σ μ ε} (hF : F.Stable) (h0 : ∀ w,init w → F.Holds w)
    (hstep : ∀ w i c,F.Holds w → ok w i c → (∀ m∈spec.inputs c,F.msg w.log m) →
      let r:=spec.act i c (w.node i)
      let log:=w.log++r.2.2.map fun e => (i,e)
      F.node log i r.1 ∧ ∀ m∈r.2.1,F.msg log m) (hw : Reach spec ok init w) : F.Holds w := by
  have hstable : F.toFacts.Stable := by
    refine ⟨?_,?_⟩
    · rintro i j k k' s hj ⟨evs,rfl⟩ h
      exact hF.node evs hj h
    · rintro i k k' m ⟨evs,rfl⟩ h
      exact hF.msg evs h
  have hdescr : ∃ k,F.toFacts.Describe k w := by
    refine invariant hstable (fun w hi => ?_) ?_ hw
    · exact ⟨w.log,(h0 w hi).node,(h0 w hi).msg,rfl⟩
    · rintro w i c k ⟨hnode,hmsg,rfl⟩ hok hin
      obtain ⟨hn,hm⟩ := hstep w i c ⟨hnode,hmsg⟩ hok hin
      exact ⟨_,⟨_,rfl⟩,hn,hm,rfl⟩
  obtain ⟨k,hnode,hmsg,rfl⟩ := hdescr
  exact ⟨hnode,hmsg⟩

end Net
