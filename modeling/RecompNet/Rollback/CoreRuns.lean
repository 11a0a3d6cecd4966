import RecompNet.Rollback.SealTable

/-!
# Runs of the rollback core

Which calls move the frontier, and which episode the sealed rows belong to.
-/
namespace RecompNet

namespace RbSession
variable {τ : Type}
def Call.promotes : Call τ → Prop
  | .enterTipHold | .onPostMatch | .commitPromoteSealed | .setPhase .commit => True
  | _ => False

/-- Another episode begins, or the core is reset. -/
def Call.restarts : Call τ → Prop
  | .beginEpisode _ | .sessionReset => True
  | _ => False

/-- If the frontier rises, then by a promotion up to the target or by a peer's advert. -/
def RiseAgreed (s : RbSession) (a : Call τ) (s' : RbSession) : Prop :=
  s.resolvedThrough<s'.resolvedThrough → a.promotes ∧ s'.resolvedThrough ≤ s.corr.targetTick ∨
      ∃ p,a=.setPeerConvergence p ∧ s'.resolvedThrough≤p

def frontierAfter (s : RbSession) : Call τ → ℕ
  | .enterTipHold => if s.phase=.verify ∧ s.inputsSealed then
      max s.resolvedThrough s.corr.targetTick else s.resolvedThrough
  | .onPostMatch | .commitPromoteSealed | .setPhase .commit | .setPhase .abort =>
    max s.resolvedThrough s.corr.targetTick
  | .setPeerConvergence p => max s.resolvedThrough p
  | .demoteResolvedThrough t => min s.resolvedThrough t
  | _ => s.resolvedThrough

/-- The call would move the frontier of `s`. -/
def Moves (s : RbSession) : Call τ → Prop
  | .enterTipHold => s.phase=.verify ∧ s.inputsSealed ∧ s.resolvedThrough<s.corr.targetTick
  | .onPostMatch | .commitPromoteSealed | .setPhase .commit | .setPhase .abort =>
    s.resolvedThrough<s.corr.targetTick
  | .setPeerConvergence p => s.resolvedThrough<p
  | .demoteResolvedThrough t => t<s.resolvedThrough
  | _ => False

variable (get : GetInputRow τ)
theorem resignRow_same (slot fromTick toTick : ℕ) (sc : RbSession × τ)
    (offset : ℕ) : SameTuple sc.1 (resignRow get slot fromTick toTick sc offset).1 := by
  rcases resignRow_cases get slot fromTick toTick sc offset with (h | h) | ⟨row,credited,-,h,-⟩
  · rw [h]
    exact .refl _
  · rw [h]
    exact .refl _
  · rw [h]
    exact put_same ..

section
variable (w : RbSession × τ × List Origin)
theorem resolvedThrough_call (a : Call τ) :
    (call get w a).1.resolvedThrough=w.1.frontierAfter a := by
  obtain ⟨s,host,log⟩ := w
  cases a with
  | sealInputs beginTick target => exact (sealInputs_spec (logged get) s beginTick target _).1
  | extendTarget newTarget =>
    show ((s.extendTarget (logged get) newTarget (host,log)).getD (s,host,log)).1.resolvedThrough =
      s.resolvedThrough
    cases he : s.extendTarget (logged get) newTarget (host,log) with
    | none => rfl
    | some sc => exact (extendTarget_grown he).resolved
  | resignSlotRange slot fromTick toTick =>
    show ((s.resignSlotRange (logged get) slot fromTick toTick (host,log)).getD
      (s,host,log)).1.resolvedThrough=s.resolvedThrough
    unfold resignSlotRange
    split_ifs
    · rfl
    · rfl
    · exact (foldl_same (resignRow_same (logged get) slot fromTick toTick) _ (s,host,log)).resolved
  | applyPeerSealRows epoch base target slot rowBegin rows =>
    show ((s.applyPeerSealRows (logged get) epoch base target slot rowBegin rows
      (host,deliveries epoch slot (base+rowBegin) rows++log)).getD
      (s,host,log)).1.resolvedThrough=s.resolvedThrough
    cases he : s.applyPeerSealRows (logged get) epoch base target slot rowBegin rows
      (host,deliveries epoch slot (base+rowBegin) rows++log) with
    | none => rfl
    | some sc => exact (applyPeerSealRows_grown he).resolved
  | enterTipHold =>
    show (s.enterTipHold.getD s).resolvedThrough=_
    unfold enterTipHold frontierAfter
    dsimp only
    split <;> rfl
  | setPhase phase => cases phase <;> rfl
  | onPostMatch => simp [call,frontierAfter,onPostMatch,commitPromoteSealed,setPhase]
  | _ => rfl

theorem run_append (l l' : List (Call τ)) :
    run get w (l++l')=run get (run get w l) l' := List.foldl_append

theorem riseAgreed_iff (a : Call τ) : RiseAgreed w.1 a (call get w a).1 ↔
      (a=.setPhase .abort → w.1.corr.targetTick≤w.1.resolvedThrough) := by
  unfold RiseAgreed
  rw [resolvedThrough_call]
  cases a with
  | setPhase phase => cases phase <;> simp +contextual [frontierAfter,Call.promotes,le_of_lt]
  | enterTipHold =>
    unfold frontierAfter
    dsimp only
    split <;> simp +contextual [Call.promotes,le_of_lt]
  | _ => simp +contextual [frontierAfter,Call.promotes,le_of_lt]

theorem run_cons (a : Call τ) (l : List (Call τ)) :
    run get w (a::l)=run get (call get w a) l := rfl

theorem frontierAfter_eq_iff (s : RbSession) (a : Call τ) :
    s.frontierAfter a=s.resolvedThrough ↔ ¬ s.Moves a := by
  cases a with
  | setPhase phase => cases phase <;> simp [frontierAfter,Moves]
  | enterTipHold =>
    unfold frontierAfter Moves
    split <;> simp_all
  | _ => simp [frontierAfter,Moves]

theorem le_frontierAfter (s : RbSession) {a : Call τ} (ha : ∀ t,a≠.demoteResolvedThrough t) :
    s.resolvedThrough ≤ s.frontierAfter a := by
  cases a with
  | setPhase phase => cases phase <;> simp [frontierAfter]
  | enterTipHold =>
    unfold frontierAfter
    dsimp only
    split <;> omega
  | demoteResolvedThrough t => exact absurd rfl (ha t)
  | _ => simp [frontierAfter]

/-- No call of `l` moves the frontier where it is made. -/
def Unmoved (get : GetInputRow τ) (w : RbSession × τ × List Origin) (l : List (Call τ)) : Prop :=
  ∀ pre a post,l=pre++a::post → ¬ (run get w pre).1.Moves a

theorem unmoved_cons (a : Call τ) (l : List (Call τ)) :
    Unmoved get w (a::l) ↔ ¬ w.1.Moves a ∧ Unmoved get (call get w a) l := by
  constructor
  · intro h
    exact ⟨h [] a l rfl,fun pre b post heq => h (a::pre) b post (by rw [heq]; rfl)⟩
  · rintro ⟨ha,hl⟩ pre b post heq
    cases pre with
    | nil =>
      cases heq
      exact ha
    | cons c pre =>
      cases heq
      exact hl pre b post rfl

theorem resolvedThrough_of_unmoved {l : List (Call τ)} (h : Unmoved get w l) :
    (run get w l).1.resolvedThrough=w.1.resolvedThrough := by
  induction l generalizing w with
  | nil => rfl
  | cons a l ih =>
    obtain ⟨ha,hl⟩ := (unmoved_cons get w a l).mp h
    rw [run_cons,ih _ hl,resolvedThrough_call]
    exact (frontierAfter_eq_iff w.1 a).mpr ha

/-- Without a demotion the frontier only rises, so a value that is kept was never moved. -/
theorem unmoved_of_resolvedThrough {l : List (Call τ)} (hl : ∀ t,.demoteResolvedThrough t∉l) :
    w.1.resolvedThrough≤(run get w l).1.resolvedThrough ∧
      ((run get w l).1.resolvedThrough=w.1.resolvedThrough → Unmoved get w l) := by
  induction l generalizing w with
  | nil => exact ⟨le_rfl,fun _ pre a post heq => by simp at heq⟩
  | cons a l ih =>
    have hstep:=w.1.le_frontierAfter (a := a) fun t ht => hl t (ht ▸ List.mem_cons_self)
    obtain ⟨hle,hkept⟩ := ih (call get w a) fun t ht => hl t (List.mem_cons_of_mem _ ht)
    rw [resolvedThrough_call] at hle hkept
    rw [run_cons]
    refine ⟨hstep.trans hle,fun heq => (unmoved_cons get w a l).mpr ?_⟩
    have hsame : w.1.frontierAfter a=w.1.resolvedThrough := le_antisymm (heq ▸ hle) hstep
    exact ⟨(frontierAfter_eq_iff w.1 a).mp hsame,hkept (heq.trans hsame.symm)⟩

end

/-- The frontier rises by agreement alone exactly if no call sets Abort below the target; an episode
that ends in Abort gives back the value it began with if none of its calls moves the frontier, and
only then if none of them is a demotion. -/
theorem frontier_agreed (get : GetInputRow τ) (w : RbSession × τ × List Origin)
    (calls : List (Call τ)) : ((∀ pre a post,calls=pre++a::post →
        RiseAgreed (run get w pre).1 a (run get w (pre++[a])).1) ↔
      ∀ pre post,calls=pre++.setPhase .abort::post →
        ¬ (run get w pre).1.Moves (.setPhase .abort : Call τ)) ∧
    ∀ pre corr mid post,calls=pre++.beginEpisode corr::mid++.setPhase .abort::post →
      (∀ a∈mid,¬a.restarts) →
      let s:=(run get w pre).1
      let s':=(run get w (pre++.beginEpisode corr::mid++[.setPhase .abort])).1
      let still:=Unmoved get (run get w (pre++[.beginEpisode corr])) (mid++[.setPhase .abort])
      (still → s'.resolvedThrough=s.resolvedThrough) ∧
        ((∀ t,.demoteResolvedThrough t∉mid) → s'.resolvedThrough=s.resolvedThrough → still) := by
  have hstep : ∀ pre a,run get w (pre++[a])=call get (run get w pre) a := fun pre a => by
    rw [run_append]
    rfl
  constructor
  · simp only [hstep,riseAgreed_iff,Moves,not_lt]
    constructor
    · exact fun h pre post heq => h pre _ post heq rfl
    · rintro h pre a post heq rfl
      exact h pre post heq
  · intro pre corr mid post _ _
    have hbegin : (run get w (pre++[.beginEpisode corr])).1.resolvedThrough =
        (run get w pre).1.resolvedThrough := by
      rw [hstep,resolvedThrough_call]
      rfl
    have hend : run get w (pre++.beginEpisode corr::mid++[.setPhase .abort]) =
        run get (run get w (pre++[.beginEpisode corr])) (mid++[.setPhase .abort]) := by
      rw [← run_append]
      simp
    dsimp only
    rw [hend,← hbegin]
    refine ⟨fun h => resolvedThrough_of_unmoved get _ h,fun hdem hkept => ?_⟩
    exact (unmoved_of_resolvedThrough get _ fun t ht => hdem t (by simpa using ht)).2 hkept

def corrTwenty : RbCorrection := ⟨1,10,10,20,1,true,false,false⟩

theorem abort_raises_frontier :
    (run flagged (duoCore,true,[]) [.beginEpisode corrTwenty]).1.resolvedThrough=0 ∧
    (run flagged (duoCore,true,[])
      [.beginEpisode corrTwenty,.setPhase .abort]).1.resolvedThrough=20 := by
  decide +kernel

def seatRowAuthoritative (s : RbSession) (slot tick : ℕ) : Bool :=
  if s.tickInSealedSpan tick ∧ slot < maxSlots then
    let offset:=tick-s.sealBaseTick
    let row:=s.sealed offset slot
    if slot=s.cfg.localSlot then row.isValid
    else if offset<sealMaskBits ∧ s.peerSealMask slot offset then true
    else row.isValid && !row.isPredicted
  else false

/-- The row `f` is one that was delivered or reported, as the log says, for its tick. -/
def Logged (log : List Origin) (epoch slot tick : ℕ) (f : RbFrame) : Prop :=
  ∃ row : RbFrame,f={ row with tick } ∧
    (.delivered epoch slot tick row∈log ∨ .reported slot tick row∈log)

def Current (R : ℕ → ℕ → Prop) (s : RbSession) (log : List Origin) : Prop :=
  ∀ o i,R o i → i<s.cfg.slotCount → (s.sealed o i).isValid →
    Logged log s.corr.epochId i (s.sealBaseTick+o) (s.sealed o i)

def CurrentRows (s : RbSession) (log : List Origin) : Prop :=
  s.inputsSealed=true → Current (Below s.sealedSpan 0) s log

section Current
variable {get : GetInputRow τ} {R R' : ℕ → ℕ → Prop} {s s' : RbSession} {log log' : List Origin}
theorem Current.mono (h : Current R s log) (hsub : log ⊆ log') : Current R s log' := by
  intro o i hR hi hv
  obtain ⟨row,hf,horigin⟩ := h o i hR hi hv
  exact ⟨row,hf,horigin.imp (hsub ·) (hsub ·)⟩

variable {offset slot : ℕ} {f : RbFrame}
theorem Current.put (h : Current R s log) (credited : Bool)
    (hfrom : ∀ o i,R' o i → R o i ∨ o=offset ∧ i=slot) (hf : slot<s.cfg.slotCount → f.isValid →
      Logged log s.corr.epochId slot (s.sealBaseTick+offset) f) :
    Current R' (s.put offset slot f credited) log := by
  have hsame:=put_same s offset slot f credited
  intro o i hR hi hv
  rw [hsame.cfg] at hi
  rw [put_sealed] at hv ⊢
  rw [hsame.base,hsame.corr]
  split at hv
  · next hcell =>
    obtain ⟨rfl,rfl⟩ := hcell
    rw [if_pos ⟨rfl,rfl⟩]
    exact hf hi hv
  next hcell =>
  rw [if_neg hcell]
  exact h o i ((hfrom o i hR).resolve_right hcell) hi hv

theorem Current.congr (h : Current R s log) (hs : SameSeal s s') : Current R s' log := by
  unfold Current
  rw [hs.cfg,hs.rows,hs.base,hs.epoch]
  exact h

variable (get)
theorem fillLocalRow_reports (tick offset : ℕ)
    (sc : RbSession × τ × List Origin) (slot : ℕ) : ∃ f credited,
    fillLocalRow (logged get) tick offset sc slot =
        (sc.1.put offset slot f credited,(logged get slot tick sc.2).2) ∧
      (f.isValid → ∃ row : RbFrame,f={ row with tick } ∧
        .reported slot tick row∈(logged get slot tick sc.2).2.2) := by
  have hreported : ∀ row : RbFrame,(logged get slot tick sc.2).1=some row →
      .reported slot tick row∈(logged get slot tick sc.2).2.2 := fun row h => logged_reported h
  unfold fillLocalRow
  generalize logged get slot tick sc.2=r at hreported ⊢
  obtain ⟨row | row,c⟩ := r
  · exact ⟨_,false,rfl,fun h => by cases h⟩
  dsimp only
  rw [setSealed_setSealed]
  split_ifs with hlocal hrow hbits
  · exact ⟨_,false,rfl,fun _ => ⟨row,rfl,hreported row rfl⟩⟩
  · exact ⟨_,true,rfl,fun _ => ⟨row,rfl,hreported row rfl⟩⟩
  · exact ⟨_,false,rfl,fun _ => ⟨row,rfl,hreported row rfl⟩⟩
  · exact ⟨_,false,rfl,fun h => by cases h⟩

theorem Current.fillOffsets {n : ℕ} (k : ℕ) (sc : RbSession × τ × List Origin)
    (h : Current (Below n 0) sc.1 sc.2.2) : Current (Below (n+k) 0)
      (((List.range k).map (· + n)).foldl (fillOffset (logged get)) sc).1
      (((List.range k).map (· + n)).foldl (fillOffset (logged get)) sc).2.2 := by
  refine fillOffsets_induct (logged get) (P := fun R sc => Current R sc.1 sc.2.2)
    (fun n k sc h => ?_) (fun n sc h o i hR hi => h o i ((below_next hi).mp hR) hi) k sc h
  obtain ⟨f,credited,heq,hf⟩ := fillLocalRow_reports get (sc.1.sealBaseTick+n) n sc k
  rw [heq]
  refine (h.mono (logged_grows get k _ sc.2)).put credited ?_ fun _ hv => ?_
  · rintro o i (ho | ⟨rfl,hi⟩)
    · exact .inl (.inl ho)
    · rcases Nat.lt_succ_iff_lt_or_eq.mp hi with hi | hi
      · exact .inl (.inr ⟨rfl,hi⟩)
      · exact .inr ⟨rfl,hi⟩
  · obtain ⟨row,hrow,hlog⟩ := hf hv
    exact ⟨row,hrow,.inr hlog⟩

variable {get}
theorem CurrentRows.congr (h : CurrentRows s log) (hs : SameSeal s s') : CurrentRows s' log := by
  intro hsealed
  rw [hs.isSealed] at hsealed
  rw [hs.span]
  exact (h hsealed).congr hs

theorem CurrentRows.unsealed (hs : s.inputsSealed=false) : CurrentRows s log :=
  fun h => by rw [hs] at h; cases h

theorem CurrentRows.sealInputs (s : RbSession) (beginTick target : ℕ) (host : τ) (log : List Origin) :
    CurrentRows (s.sealInputs (logged get) beginTick target (host,log)).1
      (s.sealInputs (logged get) beginTick target (host,log)).2.2 := by
  unfold RbSession.sealInputs
  dsimp only
  split
  · exact .unsealed rfl
  have hrows:=Current.fillOffsets get (n := 0) (target-beginTick+1)
    ({ s with
      inputsSealed := false
      sealedSpan := 0
      peerSealMask := fun _ _ => false
      sealBaseTick := beginTick },host,log) fun o i hR => absurd hR (not_below_zero o i)
  simp only [Nat.add_zero,List.map_id',Nat.zero_add] at hrows
  exact fun _ => hrows

variable {host : τ} {sc : RbSession × τ × List Origin} {target : ℕ}
theorem CurrentRows.extendTarget (h : CurrentRows s log) (hg : SealGood s log)
    (he : s.extendTarget (logged get) target (host,log)=some sc) : CurrentRows sc.1 sc.2.2 := by
  unfold RbSession.extendTarget at he
  split at he
  · cases he
  next hcan =>
  split at he
  · cases he
    exact h.congr (verifyToReplay_seal s)
  next ht =>
  cases he
  obtain ⟨hsealed,-,-⟩ := canExtendTarget_grows hcan (not_le.mp ht)
  have hspan:=(hg.whileSealed hsealed).span
  have hrows:=(h hsealed).fillOffsets get (target-s.sealBaseTick+1-s.sealedSpan) (s,host,log)
  rw [show s.sealedSpan+(target-s.sealBaseTick+1-s.sealedSpan) =
    target-s.sealBaseTick+1 by omega] at hrows
  refine CurrentRows.congr (fun _ => ?_) (verifyToReplay_seal _)
  exact hrows

theorem CurrentRows.put (h : CurrentRows s log) (credited : Bool)
    (hf : slot<s.cfg.slotCount → f.isValid →
      Logged log s.corr.epochId slot (s.sealBaseTick+offset) f) :
    CurrentRows (s.put offset slot f credited) log := by
  intro hsealed
  rw [(put_same ..).isSealed] at hsealed
  rw [put_span]
  exact (h hsealed).put credited (fun _ _ hR => .inl hR) hf

theorem CurrentRows.resignRow (get : GetInputRow τ) (slot fromTick toTick : ℕ)
    (sc : RbSession × τ × List Origin) (offset : ℕ) (h : CurrentRows sc.1 sc.2.2) :
    CurrentRows (RbSession.resignRow (logged get) slot fromTick toTick sc offset).1
      (RbSession.resignRow (logged get) slot fromTick toTick sc offset).2.2 := by
  have hmono:=fun hs => (h hs).mono (logged_grows get slot (sc.1.sealBaseTick+offset) sc.2)
  rcases resignRow_cases (logged get) slot fromTick toTick sc offset with
    (heq | heq) | ⟨row,credited,hget,heq,-⟩
  · rw [heq]
    exact h
  · rw [heq]
    exact hmono
  · rw [heq]
    exact CurrentRows.put hmono credited fun _ _ => ⟨row,rfl,.inr (logged_reported hget)⟩

theorem CurrentRows.applyRows (rows : List RbFrame) (h : CurrentRows s log)
    (hsealed : s.inputsSealed)
    (hlog : deliveries s.corr.epochId slot (s.sealBaseTick+offset) rows ⊆ log) :
    CurrentRows (s.applyRows slot offset rows) log := by
  induction rows generalizing s offset with
  | nil => exact h
  | cons row rows ih =>
    unfold RbSession.applyRows
    split
    · exact h
    next ho =>
    have htail : deliveries s.corr.epochId slot (s.sealBaseTick+(offset+1)) rows ⊆ log :=
      fun e he => hlog (List.mem_cons_of_mem _ he)
    rcases applyRow_cases slot s offset row with heq | ⟨heq,-⟩ | ⟨heq,-⟩
    · rw [heq]
      exact ih h hsealed htail
    all_goals
      rw [heq]
      refine ih (CurrentRows.put h true fun hi hv => ?_) ((put_same ..).isSealed.trans hsealed) ?_
    · exact h hsealed offset slot (.inl (not_le.mp ho)) hi hv
    · rwa [(put_same ..).corr,(put_same ..).base]
    · exact ⟨row,rfl,.inl (hlog List.mem_cons_self)⟩
    · rwa [(put_same ..).corr,(put_same ..).base]

theorem CurrentRows.mono (h : CurrentRows s log) (hsub : log ⊆ log') : CurrentRows s log' :=
  fun hs => (h hs).mono hsub

theorem CurrentRows.applyPeerSealRows (h : CurrentRows s log) (hg : SealGood s log)
    {epoch base rowBegin : ℕ} {rows : List RbFrame}
    (he : s.applyPeerSealRows (logged get) epoch base target slot rowBegin rows
      (host,deliveries epoch slot (base+rowBegin) rows++log)=some sc) :
    CurrentRows sc.1 sc.2.2 := by
  have hsub:=List.subset_append_right (deliveries epoch slot (base+rowBegin) rows) log
  obtain ⟨s',c',rfl,hsealed,hdel,hsame | hext⟩ :=
    applyPeerSealRows_taken (List.subset_append_left _ _) he
  · cases hsame
    exact (h.mono hsub).applyRows rows hsealed hdel
  · exact ((h.mono hsub).extendTarget (hg.mono hsub) hext).applyRows rows hsealed hdel

theorem CurrentRows.resignSlotRange (h : CurrentRows s log) {fromTick toTick : ℕ}
    (he : s.resignSlotRange (logged get) slot fromTick toTick (host,log)=some sc) :
    CurrentRows sc.1 sc.2.2 := by
  unfold RbSession.resignSlotRange at he
  split_ifs at he
  cases he
  change CurrentRows (s,host,log).1 (s,host,log).2.2 at h
  generalize List.range s.sealedSpan=offsets
  generalize (s,host,log)=w at h ⊢
  induction offsets generalizing w with
  | nil => exact h
  | cons o offsets ih => exact ih _ (h.resignRow get slot fromTick toTick w o)

variable {w : RbSession × τ × List Origin}
theorem CurrentRows.call (h : CurrentRows w.1 w.2.2) (hg : SealGood w.1 w.2.2) (a : Call τ) :
    CurrentRows (RbSession.call get w a).1 (RbSession.call get w a).2.2 :=
  call_rule h (fun _ _ hs => hs.congr) (fun _ _ hs => .unsealed hs)
    (fun beginTick target => .sealInputs w.1 beginTick target w.2.1 w.2.2)
    (fun _ _ he => h.extendTarget hg he) (fun _ _ _ _ he => h.resignSlotRange he)
    (fun _ _ _ _ _ _ _ he => h.applyPeerSealRows hg he) a

theorem CurrentRows.run (h : CurrentRows w.1 w.2.2)
    (hg : SealGood w.1 w.2.2) (calls : List (Call τ)) :
    CurrentRows (RbSession.run get w calls).1 (RbSession.run get w calls).2.2 := by
  induction calls generalizing w with
  | nil => exact h
  | cons a calls ih => exact ih (h.call hg a) (hg.call a)

variable {tick : ℕ}
theorem getSealedFrame_current (h : CurrentRows s log) (hg : SealGood s log)
    (hslot : slot<s.cfg.slotCount) (hf : s.getSealedFrame slot tick=some f) :
    f.tick=tick ∧ Logged log s.corr.epochId slot tick f := by
  unfold RbSession.getSealedFrame tickInSealedSpan at hf
  dsimp only at hf
  split_ifs at hf with hin hvalid
  cases hf
  simp only [Bool.and_eq_true,decide_eq_true_eq] at hin
  obtain ⟨⟨⟨hsealed,hlow⟩,hspan⟩,-⟩ := hin
  have hrow:=h hsealed _ slot (.inl hspan) hslot hvalid
  have htick:=(hg.whileSealed hsealed).table.tick _ slot (.inl hspan) hslot
  rw [Nat.add_sub_cancel' hlow] at hrow htick
  exact ⟨htick,hrow⟩

theorem getSealedFrame_of_authoritative (hg : SealGood s log)
    (ha : s.seatRowAuthoritative slot tick) : ∃ f,s.getSealedFrame slot tick=some f := by
  unfold seatRowAuthoritative at ha
  unfold RbSession.getSealedFrame
  dsimp only at ha ⊢
  split_ifs at ha with hin hlocal hbit
  · exact ⟨_,by rw [if_pos hin,if_pos ha]⟩
  · have hsealed : s.inputsSealed := by
      have := hin.1
      simp only [tickInSealedSpan,Bool.and_eq_true] at this
      exact this.1.1
    have hvalid:=(hg.whileSealed hsealed).table.valid _ slot hbit.2 hlocal
    exact ⟨_,by rw [if_pos hin,if_pos hvalid]⟩
  · rw [Bool.and_eq_true] at ha
    exact ⟨_,by rw [if_pos hin,if_pos ha.1]⟩

end Current

/-- **Sealed frames are current.** The log is begun anew with the episode. -/
theorem sealed_frames_current (get : GetInputRow τ) (cfg : RbConfig) {s₀ : RbSession}
    (hcreate : create cfg=some s₀) (host : τ) (earlier : List (Call τ)) (corr : RbCorrection)
    (calls : List (Call τ)) :
    let w:=run get (s₀,host,[]) earlier
    let v:=run get (w.1.beginEpisode corr,w.2.1,[]) calls
    ∀ slot<v.1.cfg.slotCount,∀ tick,(∀ f,v.1.getSealedFrame slot tick=some f →
        f.tick=tick ∧ Logged v.2.2 v.1.corr.epochId slot tick f) ∧
      (v.1.seatRowAuthoritative slot tick=true → ∃ f,v.1.getSealedFrame slot tick=some f ∧
        f.tick=tick ∧ Logged v.2.2 v.1.corr.epochId slot tick f) := by
  intro w v slot hslot tick
  have hw : SealGood w.1 w.2.2 := SealGood.run (w := (s₀,host,[])) (.create hcreate) earlier
  have hbegin : SealGood (w.1.beginEpisode corr) [] := hw.unsealed rfl rfl
  have hg : SealGood v.1 v.2.2 := SealGood.run (w := (_,w.2.1,[])) hbegin calls
  have hrows : CurrentRows v.1 v.2.2 :=
    CurrentRows.run (w := (_,w.2.1,[])) (.unsealed rfl) hbegin calls
  have hread (f : RbFrame) (hf : v.1.getSealedFrame slot tick=some f) :=
    getSealedFrame_current hrows hg hslot hf
  refine ⟨hread,fun ha => ?_⟩
  obtain ⟨f,hf⟩ := getSealedFrame_of_authoritative hg ha
  exact ⟨f,hf,hread f hf⟩

theorem sealed_frames_current_second :
    ∃ f,(run flagged ((run flagged (duoCore,true,[]) [.beginEpisode RbCorrection.zero,
        .sealInputs 10 10]).1.beginEpisode RbCorrection.zero,true,[])
      [.sealInputs 20 20]).1.getSealedFrame 1 20=some f ∧ f.tick=20 := by
  obtain ⟨f,hf,htick,-⟩ := (sealed_frames_current flagged duo rfl true
    [.beginEpisode RbCorrection.zero,.sealInputs 10 10] RbCorrection.zero [.sealInputs 20 20]
    1 (by decide +kernel) 20).2 (by decide +kernel)
  exact ⟨f,hf,htick⟩

theorem outside_seat_stale :
    5 < maxSlots ∧ (run flagged (duoCore,true,[]) seatOutside).1.tickInSealedSpan 20=true ∧
    ((run flagged (duoCore,true,[]) seatOutside).1.getSealedFrame 5 20).map RbFrame.tick=some 10 ∧
    (run flagged (duoCore,true,[]) seatOutside).1.seatRowAuthoritative 5 20=true := by
  decide +kernel

end RbSession
end RecompNet
