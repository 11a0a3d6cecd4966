import RecompNet.Rollback.Core

/-!
# Integrity of the seal table

Three functions write rows of the sealed table and bits of the credit masks: the fill of a new
offset, `resign_slot_range` and `apply_peer_seal_rows`.
-/
namespace RecompNet
open List RbSession

/-- Where a row can come from: a chunk of its owner for an episode, or the host's history. -/
inductive Origin
  | delivered (epoch slot tick : ℕ) (row : RbFrame)
  | reported (slot tick : ℕ) (row : RbFrame)

namespace RbSession
variable {τ : Type} (get : GetInputRow τ)
def logged : GetInputRow (τ × List Origin) := fun slot tick c =>
  match get slot tick c.1 with
  | (none,c') => (none,c',c.2)
  | (some row,c') => (some row,c',.reported slot tick row::c.2)

def deliveries (epoch slot tick : ℕ) : List RbFrame → List Origin
  | [] => []
  | row::rows => .delivered epoch slot tick row::deliveries epoch slot (tick+1) rows

/-- The calls on a rollback core; between them the host's history may become anything. -/
inductive Call (τ : Type)
  | beginEpisode (corr : RbCorrection)
  | sealInputs (beginTick target : ℕ)
  | extendTarget (newTarget : ℕ)
  | resignSlotRange (slot fromTick toTick : ℕ)
  | applyPeerSealRows (epoch base target slot rowBegin : ℕ) (rows : List RbFrame)
  | enterTipHold
  | setPhase (phase : RbPhase)
  | onPostMatch
  | onPostDiverge
  | commitPromoteSealed
  | setPeerConvergence (peerTarget : ℕ)
  | demoteResolvedThrough (tick : ℕ)
  | sessionReset
  | history (host : τ)

variable (w : RbSession × τ × List Origin)
def call : Call τ → RbSession × τ × List Origin
  | .beginEpisode corr => (w.1.beginEpisode corr,w.2)
  | .sealInputs beginTick target => w.1.sealInputs (logged get) beginTick target w.2
  | .extendTarget newTarget => (w.1.extendTarget (logged get) newTarget w.2).getD w
  | .resignSlotRange slot fromTick toTick =>
    (w.1.resignSlotRange (logged get) slot fromTick toTick w.2).getD w
  | .applyPeerSealRows epoch base target slot rowBegin rows =>
    (w.1.applyPeerSealRows (logged get) epoch base target slot rowBegin rows
      (w.2.1,deliveries epoch slot (base+rowBegin) rows++w.2.2)).getD w
  | .enterTipHold => (w.1.enterTipHold.getD w.1,w.2)
  | .setPhase phase => (w.1.setPhase phase,w.2)
  | .onPostMatch => (w.1.onPostMatch,w.2)
  | .onPostDiverge => (w.1.onPostDiverge,w.2)
  | .commitPromoteSealed => (w.1.commitPromoteSealed,w.2)
  | .setPeerConvergence peerTarget => (w.1.setPeerConvergence peerTarget,w.2)
  | .demoteResolvedThrough tick => (w.1.demoteResolvedThrough tick,w.2)
  | .sessionReset => (w.1.sessionReset,w.2)
  | .history host => (w.1,host,w.2.2)

def run (calls : List (Call τ)) : RbSession × τ × List Origin := calls.foldl (call get) w

def Vouched (log : List Origin) (epoch slot tick : ℕ) (f : RbFrame) : Prop :=
  ∃ row : RbFrame,f={ row with tick } ∧ (.delivered epoch slot tick row∈log ∨
    .reported slot tick row∈log ∧ row.isValid ∧ row.isPredicted=false)

section Log
variable {get : GetInputRow τ} {log log' : List Origin} {epoch slot tick : ℕ} {f : RbFrame}
theorem Vouched.mono (h : Vouched log epoch slot tick f) (hsub : log ⊆ log') :
    Vouched log' epoch slot tick f := by
  obtain ⟨row,hf,hd | ⟨hr,hrow⟩⟩ := h
  · exact ⟨row,hf,.inl (hsub hd)⟩
  · exact ⟨row,hf,.inr ⟨hsub hr,hrow⟩⟩

theorem logged_grows (get : GetInputRow τ) (slot tick : ℕ) (c : τ × List Origin) :
    c.2 ⊆ (logged get slot tick c).2.2 := by
  unfold logged
  split
  · exact List.Subset.refl _
  · exact subset_cons_self _ _

theorem logged_reported {c : τ × List Origin} {row : RbFrame}
    (h : (logged get slot tick c).1=some row) :
    .reported slot tick row∈(logged get slot tick c).2.2 := by
  unfold logged at h ⊢
  split at h
  · cases h
  · cases h
    exact mem_cons_self

end Log

def put (s : RbSession) (offset slot : ℕ) (f : RbFrame) (credited : Bool) : RbSession :=
  if credited then (s.setSealed offset slot f).credit slot offset else s.setSealed offset slot f

section Put
variable (s : RbSession) (offset slot : ℕ) (f : RbFrame) (credited : Bool)
theorem put_same : SameTuple s (s.put offset slot f credited) := by
  unfold put
  split
  · exact (setSealed_same ..).trans (credit_same ..)
  · exact setSealed_same ..

theorem put_sealed (o i : ℕ) : (s.put offset slot f credited).sealed o i =
    if o=offset ∧ i=slot then f else s.sealed o i := by
  cases credited <;> rfl

theorem put_mask (i o : ℕ) : (s.put offset slot f credited).peerSealMask i o =
    (credited && decide (i=slot ∧ o=offset) || s.peerSealMask i o) := by
  cases credited <;> rfl

theorem put_span : (s.put offset slot f credited).sealedSpan=s.sealedSpan := by
  cases credited <;> rfl

theorem setSealed_setSealed (g : RbFrame) :
    (s.setSealed offset slot f).setSealed offset slot g=s.setSealed offset slot g := by
  unfold setSealed
  simp only [mk.injEq,true_and,and_true]
  funext o i
  split <;> rfl

theorem setSealed_self : s.setSealed offset slot (s.sealed offset slot)=s := by
  unfold setSealed
  have h : (fun o i => if o=offset ∧ i=slot then s.sealed offset slot else s.sealed o i) =
      s.sealed := by
    funext o i
    split
    · next h => rw [h.1,h.2]
    · rfl
  rw [h]

end Put

variable (get : GetInputRow τ)
theorem fillLocalRow_eq_put (tick offset : ℕ) (sc : RbSession × τ)
    (slot : ℕ) : ∃ f credited,fillLocalRow get tick offset sc slot =
        (sc.1.put offset slot f credited,(get slot tick sc.2).2) ∧
      f.tick=tick ∧ (credited → f.isValid) ∧
      (slot≠sc.1.cfg.localSlot → f.isValid → ∃ row,(get slot tick sc.2).1=some row ∧
        row.isValid ∧ row.isPredicted=false ∧ f={ row with tick }) := by
  unfold fillLocalRow
  rcases get slot tick sc.2 with ⟨row | row,c⟩
  · exact ⟨_,false,rfl,rfl,fun h => (by cases h),fun _ h => by cases h⟩
  dsimp only
  rw [setSealed_setSealed]
  by_cases hslot : slot=sc.1.cfg.localSlot
  · rw [if_pos hslot]
    exact ⟨_,false,rfl,rfl,fun h => (by cases h),fun h => absurd hslot h⟩
  rw [if_neg hslot]
  by_cases hrow : row.isValid ∧ row.isPredicted=false
  · rw [if_pos hrow]
    refine ⟨{ row with tick },decide (offset<sealMaskBits),?_,rfl,fun _ => hrow.1,
      fun _ _ => ⟨row,rfl,hrow.1,hrow.2,rfl⟩⟩
    unfold put
    simp only [decide_eq_true_eq]
  · rw [if_neg hrow]
    exact ⟨_,false,rfl,rfl,fun h => (by cases h),fun _ h => by cases h⟩

theorem resignRow_cases (slot fromTick toTick : ℕ) (sc : RbSession × τ)
    (offset : ℕ) : (resignRow get slot fromTick toTick sc offset=sc ∨
      resignRow get slot fromTick toTick sc offset =
        (sc.1,(get slot (sc.1.sealBaseTick+offset) sc.2).2)) ∨
    ∃ row credited,(get slot (sc.1.sealBaseTick+offset) sc.2).1=some row ∧
      resignRow get slot fromTick toTick sc offset =
        (sc.1.put offset slot { row with tick := sc.1.sealBaseTick+offset } credited,
          (get slot (sc.1.sealBaseTick+offset) sc.2).2) ∧
      (slot≠sc.1.cfg.localSlot → row.isValid ∧ row.isPredicted=false) := by
  unfold resignRow
  dsimp only
  by_cases hrange : sc.1.sealBaseTick+offset<fromTick ∨ toTick<sc.1.sealBaseTick+offset
  · exact .inl (.inl (if_pos hrange))
  rw [if_neg hrange]
  rcases get slot (sc.1.sealBaseTick+offset) sc.2 with ⟨row | row,c⟩
  · exact .inl (.inr rfl)
  dsimp only
  by_cases hskip : slot≠sc.1.cfg.localSlot ∧ (row.isValid=false ∨ row.isPredicted)
  · rw [if_pos hskip]
    exact .inl (.inr rfl)
  rw [if_neg hskip]
  refine .inr ⟨row,decide (row.isValid=true ∧
    (slot=sc.1.cfg.localSlot ∨ row.isPredicted=false)),rfl,?_,fun hslot => ?_⟩
  · unfold put
    simp only [decide_eq_true_eq]
  · have hnot : ¬(row.isValid=false ∨ row.isPredicted) := fun h => hskip ⟨hslot,h⟩
    simpa only [not_or,Bool.not_eq_false,Bool.not_eq_true] using hnot

theorem applyRow_cases (slot : ℕ) (s : RbSession) (offset : ℕ) (row : RbFrame) :
    s.applyRow slot offset row=s ∨
      s.applyRow slot offset row=s.put offset slot (s.sealed offset slot) true ∧
        (s.sealed offset slot).isValid ∨ s.applyRow slot offset row =
        s.put offset slot { row with tick := s.sealBaseTick+offset } true ∧ row.isValid := by
  unfold applyRow
  split
  · exact .inl rfl
  next hvalid =>
  split
  · next hkeep =>
    refine .inr (.inl ⟨?_,hkeep.2.1⟩)
    unfold put
    rw [if_pos rfl,setSealed_self]
  · exact .inr (.inr ⟨rfl,Bool.not_eq_false _ ▸ hvalid⟩)

structure Table (R : ℕ → ℕ → Prop) (s : RbSession) (log : List Origin) : Prop where
  bit : ∀ o i,s.peerSealMask i o → R o i
  valid : ∀ o i,s.peerSealMask i o → i≠s.cfg.localSlot → (s.sealed o i).isValid
  tick : ∀ o i,R o i → i<s.cfg.slotCount → (s.sealed o i).tick=s.sealBaseTick+o
  origin : ∀ o i,R o i → i<s.cfg.slotCount → i≠s.cfg.localSlot → (s.sealed o i).isValid →
      Vouched log s.corr.epochId i (s.sealBaseTick+o) (s.sealed o i)

section Table
variable {get : GetInputRow τ} {R R' : ℕ → ℕ → Prop} {s s' : RbSession} {log log' : List Origin}
theorem Table.mono (h : Table R s log) (hsub : log ⊆ log') : Table R s log' :=
  ⟨h.bit,h.valid,h.tick,fun o i hR hi hl hv => (h.origin o i hR hi hl hv).mono hsub⟩

theorem Table.reshape (h : Table R s log) (hto : ∀ o i,R o i → R' o i)
    (hfrom : ∀ o i,i<s.cfg.slotCount → R' o i → R o i) : Table R' s log :=
  ⟨fun o i hb => hto o i (h.bit o i hb),h.valid,fun o i hR hi => h.tick o i (hfrom o i hi hR) hi,
    fun o i hR hi => h.origin o i (hfrom o i hi hR) hi⟩

theorem Table.put (h : Table R s log) {offset slot : ℕ} {f : RbFrame} {credited : Bool}
    (hto : ∀ o i,R o i → R' o i) (hfrom : ∀ o i,R' o i → R o i ∨ o=offset ∧ i=slot)
    (hin : R' offset slot) (htick : slot<s.cfg.slotCount → f.tick=s.sealBaseTick+offset)
    (hvalid : slot≠s.cfg.localSlot → credited ∨ s.peerSealMask slot offset → f.isValid)
    (horigin : slot<s.cfg.slotCount → slot≠s.cfg.localSlot → f.isValid →
      Vouched log s.corr.epochId slot (s.sealBaseTick+offset) f) :
    Table R' (s.put offset slot f credited) log := by
  have hsame:=put_same s offset slot f credited
  refine ⟨fun o i hb => ?_,fun o i hb hl => ?_,fun o i hR hi => ?_,fun o i hR hi hl hv => ?_⟩
  · rw [put_mask,Bool.or_eq_true,Bool.and_eq_true,decide_eq_true_eq] at hb
    rcases hb with ⟨-,rfl,rfl⟩ | hb
    · exact hin
    · exact hto o i (h.bit o i hb)
  · rw [hsame.cfg] at hl
    rw [put_mask,Bool.or_eq_true,Bool.and_eq_true,decide_eq_true_eq] at hb
    rw [put_sealed]
    split
    · next hcell =>
      obtain ⟨rfl,rfl⟩ := hcell
      exact hvalid hl (hb.imp And.left id)
    next hcell =>
    rcases hb with ⟨-,hi,ho⟩ | hb
    · exact absurd ⟨ho,hi⟩ hcell
    · exact h.valid o i hb hl
  · rw [hsame.cfg] at hi
    rw [put_sealed,hsame.base]
    split
    · next hcell =>
      obtain ⟨rfl,rfl⟩ := hcell
      exact htick hi
    · next hcell => exact h.tick o i ((hfrom o i hR).resolve_right hcell) hi
  · rw [hsame.cfg] at hi hl
    rw [put_sealed] at hv ⊢
    rw [hsame.base,hsame.corr]
    split at hv
    · next hcell =>
      obtain ⟨rfl,rfl⟩ := hcell
      rw [if_pos ⟨rfl,rfl⟩]
      exact horigin hi hl hv
    next hcell =>
    rw [if_neg hcell]
    exact h.origin o i ((hfrom o i hR).resolve_right hcell) hi hl hv

def Below (n k o i : ℕ) : Prop := o<n ∨ o=n ∧ i<k

theorem not_below_zero (o i : ℕ) : ¬Below 0 0 o i := by
  rintro (ho | ⟨-,hi⟩)
  · exact Nat.not_lt_zero o ho
  · exact Nat.not_lt_zero i hi

theorem Table.empty (hmask : s.peerSealMask=fun _ _ => false) : Table (Below 0 0) s log := by
  refine ⟨fun o i hb => ?_,fun o i hb => ?_,fun o i hR => absurd hR (not_below_zero o i),
    fun o i hR => absurd hR (not_below_zero o i)⟩
  · rw [hmask] at hb
    cases hb
  · rw [hmask] at hb
    cases hb

variable {n : ℕ}
theorem Table.fillLocalRow {k tick : ℕ} {sc : RbSession × τ × List Origin}
    (h : Table (Below n k) sc.1 sc.2.2) (ht : tick=sc.1.sealBaseTick+n) :
    Table (Below n (k+1)) (RbSession.fillLocalRow (logged get) tick n sc k).1
      (RbSession.fillLocalRow (logged get) tick n sc k).2.2 := by
  obtain ⟨f,credited,heq,htick,hcredited,hrow⟩ := fillLocalRow_eq_put (logged get) tick n sc k
  rw [heq]
  refine (h.mono (logged_grows get k tick sc.2)).put ?_ ?_ ?_ (fun _ => htick.trans ht)
    (fun _ hb => ?_) fun _ hl hv => ?_
  · rintro o i (ho | ⟨ho,hi⟩)
    · exact .inl ho
    · exact .inr ⟨ho,by omega⟩
  · rintro o i (ho | ⟨ho,hi⟩)
    · exact .inl (.inl ho)
    · rcases Nat.lt_succ_iff_lt_or_eq.mp hi with hi | hi
      · exact .inl (.inr ⟨ho,hi⟩)
      · exact .inr ⟨ho,hi⟩
  · exact .inr ⟨rfl,Nat.lt_succ_self k⟩
  · -- the bit of this cell cannot be set yet, since no bit is set outside the region
    rcases hb with hb | hb
    · exact hcredited hb
    rcases h.bit n k hb with hlt | ⟨-,hlt⟩
    · exact absurd hlt (lt_irrefl n)
    · exact absurd hlt (lt_irrefl k)
  · obtain ⟨row,hget,hvalid,hpred,hf⟩ := hrow hl hv
    subst ht
    exact ⟨row,hf,.inr ⟨logged_reported hget,hvalid,hpred⟩⟩

theorem fillOffsets_induct {υ : Type} (get : GetInputRow υ) {P : (ℕ → ℕ → Prop) → RbSession × υ → Prop}
    (hrow : ∀ n k sc,P (Below n k) sc →
      P (Below n (k+1)) (RbSession.fillLocalRow get (sc.1.sealBaseTick+n) n sc k))
    (hnext : ∀ n sc,P (Below n sc.1.cfg.slotCount) sc → P (Below (n+1) 0) sc) (k : ℕ)
    (sc : RbSession × υ) (h : P (Below n 0) sc) :
    P (Below (n+k) 0) (((List.range k).map (· + n)).foldl (RbSession.fillOffset get) sc) := by
  have hslots : ∀ n k sc,P (Below n 0) sc → P (Below n k)
      ((List.range k).foldl (fillLocalRow get (sc.1.sealBaseTick+n) n) sc) := by
    intro n k sc h
    induction k with
    | zero => exact h
    | succ k ih =>
      have hsame:=foldl_same (fillLocalRow_same get (sc.1.sealBaseTick+n) n) (List.range k) sc
      have hstep:=hrow n k _ ih
      rw [hsame.base] at hstep
      rwa [range_succ,foldl_append,foldl_cons,foldl_nil]
  induction k with
  | zero => exact h
  | succ k ih =>
    rw [range_succ,map_append,foldl_append,map_cons,map_nil,foldl_cons,foldl_nil,Nat.add_comm k n]
    generalize ((List.range k).map (· + n)).foldl (fillOffset get) sc=sc' at ih ⊢
    refine hnext (n+k) _ ?_
    rw [(fillOffset_same get sc' (n+k)).cfg]
    exact hslots (n+k) sc'.1.cfg.slotCount sc' ih

theorem below_next {m : ℕ} {o i : ℕ} (hi : i < m) : Below (n+1) 0 o i ↔ Below n m o i := by
  unfold Below
  omega

theorem Table.fillOffsets (get : GetInputRow τ) (k : ℕ) (sc : RbSession × τ × List Origin)
    (h : Table (Below n 0) sc.1 sc.2.2) : Table (Below (n+k) 0)
      (((List.range k).map (· + n)).foldl (RbSession.fillOffset (logged get)) sc).1
      (((List.range k).map (· + n)).foldl (RbSession.fillOffset (logged get)) sc).2.2 := by
  refine fillOffsets_induct (logged get) (P := fun R sc => Table R sc.1 sc.2.2)
    (fun n k sc h => h.fillLocalRow rfl) (fun n sc h => ?_) k sc h
  refine h.reshape ?_ fun o i hi hR => (below_next hi).mp hR
  rintro o i (ho | ⟨ho,-⟩) <;> exact .inl (by omega)

end Table

structure Sealed (s : RbSession) (log : List Origin) : Prop where
  order : s.sealBaseTick ≤ s.corr.targetTick
  span : s.sealedSpan=s.corr.targetTick-s.sealBaseTick+1
  bound : s.sealedSpan ≤ s.cfg.sealMaxSpan
  table : Table (Below s.sealedSpan 0) s log

structure SealGood (s : RbSession) (log : List Origin) : Prop where
  slots : 0<s.cfg.slotCount ∧ s.cfg.slotCount ≤ maxSlots
  width : s.cfg.sealMaxSpan ≤ sealMaskBits
  whileSealed : s.inputsSealed → Sealed s log

structure SameSeal (s s' : RbSession) : Prop where
  cfg : s'.cfg=s.cfg
  epoch : s'.corr.epochId=s.corr.epochId
  target : s'.corr.targetTick=s.corr.targetTick
  base : s'.sealBaseTick=s.sealBaseTick
  isSealed : s'.inputsSealed=s.inputsSealed
  span : s'.sealedSpan=s.sealedSpan
  rows : s'.sealed=s.sealed
  mask : s'.peerSealMask=s.peerSealMask

section Calls
variable {get : GetInputRow τ} {s s' : RbSession} {log log' : List Origin}
theorem Table.congr {R : ℕ → ℕ → Prop} (h : Table R s log) (hs : SameSeal s s') :
    Table R s' log := by
  constructor
  · simpa only [hs.mask] using h.bit
  · simpa only [hs.mask,hs.cfg,hs.rows] using h.valid
  · simpa only [hs.cfg,hs.rows,hs.base] using h.tick
  · simpa only [hs.cfg,hs.rows,hs.base,hs.epoch] using h.origin

theorem Sealed.congr (h : Sealed s log) (hs : SameSeal s s') : Sealed s' log := by
  refine ⟨?_,?_,?_,hs.span ▸ h.table.congr hs⟩
  · rw [hs.base,hs.target]
    exact h.order
  · rw [hs.span,hs.target,hs.base]
    exact h.span
  · rw [hs.span,hs.cfg]
    exact h.bound

theorem SealGood.congr (h : SealGood s log) (hs : SameSeal s s') : SealGood s' log :=
  ⟨hs.cfg ▸ h.slots,hs.cfg ▸ h.width,
    fun hsealed => (h.whileSealed (hs.isSealed ▸ hsealed)).congr hs⟩

theorem SealGood.unsealed (h : SealGood s log) (hcfg : s'.cfg=s.cfg)
    (hsealed : s'.inputsSealed=false) : SealGood s' log' :=
  ⟨hcfg ▸ h.slots,hcfg ▸ h.width,fun hs => by rw [hsealed] at hs; cases hs⟩

theorem SealGood.create {cfg : RbConfig} (h : create cfg=some s) : SealGood s log := by
  unfold RbSession.create at h
  split at h
  · cases h
  · cases h
    refine ⟨?_,?_,fun hs => by cases hs⟩
    · unfold sessionReset RbConfig.normalise maxSlots
      dsimp only
      split <;> omega
    · unfold sessionReset RbConfig.normalise
      dsimp only
      split <;> omega

theorem verifyToReplay_seal (s : RbSession) : SameSeal s s.verifyToReplay := by
  unfold verifyToReplay
  split <;> exact ⟨rfl,rfl,rfl,rfl,rfl,rfl,rfl,rfl⟩

theorem setPhase_seal (s : RbSession) (phase : RbPhase) : SameSeal s (s.setPhase phase) := by
  unfold setPhase
  split <;> exact ⟨rfl,rfl,rfl,rfl,rfl,rfl,rfl,rfl⟩

variable {target : ℕ}
theorem SealGood.of_filled (hslots : 0<s.cfg.slotCount ∧ s.cfg.slotCount ≤ maxSlots)
    (hwidth : s.cfg.sealMaxSpan ≤ sealMaskBits) (horder : s.sealBaseTick≤target)
    (hmax : target-s.sealBaseTick<s.cfg.sealMaxSpan)
    (htable : Table (Below (target-s.sealBaseTick+1) 0) s log) (isSealed : Bool) : SealGood
      { s with
        sealedSpan := target-s.sealBaseTick+1
        inputsSealed := isSealed
        corr := { s.corr with targetTick := target } } log :=
  ⟨hslots,hwidth,fun _ => ⟨horder,rfl,hmax,htable.bit,htable.valid,htable.tick,htable.origin⟩⟩

theorem SealGood.sealInputs (h : SealGood s log) (beginTick target : ℕ) (host : τ) :
    SealGood (s.sealInputs (logged get) beginTick target (host,log)).1
      (s.sealInputs (logged get) beginTick target (host,log)).2.2 := by
  unfold RbSession.sealInputs
  dsimp only
  split
  · exact h.unsealed rfl rfl
  next hspan =>
  generalize hs₀ : ({ s with
      inputsSealed := false
      sealedSpan := 0
      peerSealMask := fun _ _ => false
      sealBaseTick := beginTick } : RbSession)=s₀
  have hcfg : s₀.cfg=s.cfg := by rw [← hs₀]
  have hbase : s₀.sealBaseTick=beginTick := by rw [← hs₀]
  have hempty : Table (Below 0 0) s₀ log := .empty (by rw [← hs₀])
  have htable:=Table.fillOffsets get (target-beginTick+1) (s₀,host,log) hempty
  have hsame:=foldl_same (fillOffset_same (logged get)) (List.range (target-beginTick+1))
    (s₀,host,log)
  simp only [Nat.add_zero,List.map_id',Nat.zero_add] at htable
  generalize (List.range (target-beginTick+1)).foldl (fillOffset (logged get))
    (s₀,host,log)=sc at htable hsame ⊢
  have hcfg':=hsame.cfg.trans hcfg
  have hbase':=hsame.base.trans hbase
  rw [← hbase'] at htable hspan ⊢
  exact .of_filled (hcfg' ▸ h.slots) (hcfg' ▸ h.width) (by omega) (by rw [hcfg']; omega) htable true

theorem SealGood.growTo (h : SealGood s log) (hsealed : s.inputsSealed)
    (ht : s.corr.targetTick<target) (hmax : target-s.sealBaseTick<s.cfg.sealMaxSpan)
    (host : τ) : SealGood (s.growTo (logged get) target (host,log)).1
      (s.growTo (logged get) target (host,log)).2.2 := by
  have hs:=h.whileSealed hsealed
  have htable:=Table.fillOffsets get (target-s.sealBaseTick+1-s.sealedSpan) (s,host,log) hs.table
  have hsame:=foldl_same (fillOffset_same (logged get))
    ((List.range (target-s.sealBaseTick+1-s.sealedSpan)).map (· + s.sealedSpan))
    (s,host,log)
  have hspan : s.sealedSpan+(target-s.sealBaseTick+1-s.sealedSpan)=target-s.sealBaseTick+1 := by
    have := hs.span
    omega
  rw [hspan] at htable
  unfold RbSession.growTo
  dsimp only
  generalize ((List.range (target-s.sealBaseTick+1-s.sealedSpan)).map
    (· + s.sealedSpan)).foldl (fillOffset (logged get)) (s,host,log)=sc at htable hsame ⊢
  have horder:=hs.order
  rw [← hsame.base] at htable horder hmax ⊢
  exact .of_filled (hsame.cfg ▸ h.slots) (hsame.cfg ▸ h.width) (by omega)
    (by rw [hsame.cfg]; exact hmax) htable _

variable {host : τ} {sc : RbSession × τ × List Origin}
theorem SealGood.extendTarget (h : SealGood s log)
    (he : s.extendTarget (logged get) target (host,log)=some sc) : SealGood sc.1 sc.2.2 := by
  unfold RbSession.extendTarget at he
  split at he
  · cases he
  next hcan =>
  split at he
  · cases he
    exact h.congr (verifyToReplay_seal s)
  next ht =>
  cases he
  obtain ⟨hsealed,-,hmax⟩ := canExtendTarget_grows hcan (not_le.mp ht)
  exact (h.growTo hsealed (not_le.mp ht) hmax host).congr (verifyToReplay_seal _)

theorem SealGood.mono (h : SealGood s log) (hsub : log ⊆ log') : SealGood s log' :=
  ⟨h.slots,h.width,fun hs =>
    have hsealed:=h.whileSealed hs
    { hsealed with table := hsealed.table.mono hsub }⟩

variable {offset slot : ℕ}
theorem SealGood.put (h : SealGood s log) (hsealed : s.inputsSealed) {f : RbFrame}
    (credited : Bool) (ho : offset<s.sealedSpan)
    (htick : slot<s.cfg.slotCount → f.tick=s.sealBaseTick+offset)
    (hvalid : slot≠s.cfg.localSlot → f.isValid)
    (horigin : slot<s.cfg.slotCount → slot≠s.cfg.localSlot →
      Vouched log s.corr.epochId slot (s.sealBaseTick+offset) f) :
    SealGood (s.put offset slot f credited) log := by
  have hs:=h.whileSealed hsealed
  have hsame:=put_same s offset slot f credited
  have htable : Table (Below s.sealedSpan 0) (s.put offset slot f credited) log :=
    hs.table.put (fun _ _ hR => hR) (fun _ _ hR => .inl hR) (.inl ho) htick
      (fun hl _ => hvalid hl) fun hi hl _ => horigin hi hl
  refine ⟨hsame.cfg ▸ h.slots,hsame.cfg ▸ h.width,fun _ => ⟨?_,?_,?_,?_⟩⟩
  · rw [hsame.base,hsame.corr]
    exact hs.order
  · rw [put_span,hsame.base,hsame.corr]
    exact hs.span
  · rw [put_span,hsame.cfg]
    exact hs.bound
  · rw [put_span]
    exact htable

theorem SealGood.resignRow (get : GetInputRow τ)
    (h : SealGood sc.1 sc.2.2) (hsealed : sc.1.inputsSealed) (slot fromTick toTick : ℕ)
    (ho : offset<sc.1.sealedSpan) : let sc':=resignRow (logged get) slot fromTick toTick sc offset
    SealGood sc'.1 sc'.2.2 ∧ sc'.1.inputsSealed ∧ sc'.1.sealedSpan=sc.1.sealedSpan := by
  have hgrows:=logged_grows get slot (sc.1.sealBaseTick+offset) sc.2
  dsimp only
  rcases resignRow_cases (logged get) slot fromTick toTick sc offset with
    (heq | heq) | ⟨row,credited,hget,heq,hrow⟩
  · rw [heq]
    exact ⟨h,hsealed,rfl⟩
  · rw [heq]
    exact ⟨h.mono hgrows,hsealed,rfl⟩
  rw [heq]
  refine ⟨(h.mono hgrows).put hsealed credited ho (fun _ => rfl) (fun hl => (hrow hl).1) fun _ hl => ?_,
    (put_same ..).isSealed.trans hsealed,put_span ..⟩
  exact ⟨row,rfl,.inr ⟨logged_reported hget,hrow hl⟩⟩

theorem SealGood.resignRows (slot fromTick toTick : ℕ) (offsets : List ℕ) (h : SealGood sc.1 sc.2.2)
    (hsealed : sc.1.inputsSealed) (ho : ∀ o∈offsets,o<sc.1.sealedSpan) :
    let sc':=offsets.foldl (RbSession.resignRow (logged get) slot fromTick toTick) sc
    SealGood sc'.1 sc'.2.2 := by
  induction offsets generalizing sc with
  | nil => exact h
  | cons o offsets ih =>
    obtain ⟨hgood,hsealed',hspan⟩ :=
      h.resignRow get hsealed slot fromTick toTick (ho o mem_cons_self)
    exact ih hgood hsealed' fun o' ho' => hspan ▸ ho o' (mem_cons_of_mem _ ho')

theorem SealGood.resignSlotRange (h : SealGood s log) {fromTick toTick : ℕ}
    (he : s.resignSlotRange (logged get) slot fromTick toTick (host,log)=some sc) :
    SealGood sc.1 sc.2.2 := by
  unfold RbSession.resignSlotRange at he
  split at he
  · cases he
  next hsealed =>
  split at he
  · cases he
  · cases he
    refine SealGood.resignRows slot fromTick toTick _ h ?_ fun o ho => mem_range.mp ho
    by_contra hns
    exact hsealed (.inl (Bool.not_eq_true _ ▸ hns))

theorem SealGood.applyRows (rows : List RbFrame) (h : SealGood s log) (hsealed : s.inputsSealed)
    (hlog : deliveries s.corr.epochId slot (s.sealBaseTick+offset) rows ⊆ log) :
    SealGood (s.applyRows slot offset rows) log := by
  induction rows generalizing s offset with
  | nil => exact h
  | cons row rows ih =>
    unfold applyRows
    split
    · exact h
    next ho =>
    rw [not_le] at ho
    have hs:=h.whileSealed hsealed
    have hhead : .delivered s.corr.epochId slot (s.sealBaseTick+offset) row∈log :=
      hlog mem_cons_self
    have htail : deliveries s.corr.epochId slot (s.sealBaseTick+(offset+1)) rows ⊆ log :=
      fun e he => hlog (mem_cons_of_mem _ he)
    rcases applyRow_cases slot s offset row with heq | ⟨heq,hvalid⟩ | ⟨heq,hvalid⟩
    · rw [heq]
      exact ih h hsealed htail
    · have hput:=h.put hsealed true ho (hs.table.tick offset slot (.inl ho))
        (fun _ => hvalid) fun hi hl => hs.table.origin offset slot (.inl ho) hi hl hvalid
      have hsame:=put_same s offset slot (s.sealed offset slot) true
      rw [heq]
      exact ih hput (hsame.isSealed.trans hsealed) (by rwa [hsame.corr,hsame.base])
    have hput:=h.put (f := { row with tick := s.sealBaseTick+offset })
      hsealed true ho (fun _ => rfl) (fun _ => hvalid) fun _ _ => ⟨row,rfl,.inl hhead⟩
    have hsame:=put_same s offset slot { row with tick := s.sealBaseTick+offset } true
    rw [heq]
    exact ih hput (hsame.isSealed.trans hsealed) (by rwa [hsame.corr,hsame.base])

variable {epoch base rowBegin : ℕ} {rows : List RbFrame}
theorem applyPeerSealRows_taken {c : τ × List Origin}
    (hlog : deliveries epoch slot (base+rowBegin) rows ⊆ c.2)
    (he : s.applyPeerSealRows (logged get) epoch base target slot rowBegin rows c=some sc) :
    ∃ s' c',sc=(s'.applyRows slot rowBegin rows,c') ∧ s'.inputsSealed ∧
      deliveries s'.corr.epochId slot (s'.sealBaseTick+rowBegin) rows ⊆ c'.2 ∧
      ((s',c')=(s,c) ∨ s.extendTarget (logged get) target c=some (s',c')) := by
  unfold applyPeerSealRows at he
  split_ifs at he with hclosed hmatch hstale hgrow
  all_goals
    obtain ⟨rfl,rfl⟩ : epoch=s.corr.epochId ∧ base=s.sealBaseTick := by
      simpa only [ne_eq,not_or,not_not] using hmatch
    have hsealed : s.inputsSealed := by simpa using (not_or.mp hclosed).1
  · obtain ⟨⟨s',c'⟩,hext,rfl⟩ := Option.map_eq_some_iff.mp he
    have hgrown:=extendTarget_grown hext
    refine ⟨s',c',rfl,hgrown.isSealed.trans hsealed,?_,.inr hext⟩
    rw [hgrown.epoch,hgrown.base]
    exact extendTarget_keeps (Q := fun c => deliveries _ slot _ rows ⊆ c.2) (W := fun _ => True)
      (fun i tick c _ hc => List.Subset.trans hc (logged_grows get i tick c)) hext
      (fun _ _ _ _ => trivial) hlog
  · cases he
    exact ⟨s,c,rfl,hsealed,hlog,.inl rfl⟩

theorem SealGood.applyPeerSealRows (h : SealGood s log)
    (he : s.applyPeerSealRows (logged get) epoch base target slot rowBegin rows
      (host,deliveries epoch slot (base+rowBegin) rows++log)=some sc) : SealGood sc.1 sc.2.2 := by
  have hlog:=h.mono (subset_append_right (deliveries epoch slot (base+rowBegin) rows) log)
  obtain ⟨s',c',rfl,hsealed,hdel,hsame | hext⟩ :=
    applyPeerSealRows_taken (subset_append_left _ _) he
  · cases hsame
    exact hlog.applyRows rows hsealed hdel
  · exact (hlog.extendTarget hext).applyRows rows hsealed hdel

end Calls

section Run
variable {get : GetInputRow τ} {w : RbSession × τ × List Origin}
theorem call_rule {P : RbSession → List Origin → Prop} (h : P w.1 w.2.2)
    (hcongr : ∀ s s',P s w.2.2 → SameSeal s s' → P s' w.2.2)
    (hunsealed : ∀ s',s'.cfg=w.1.cfg → s'.inputsSealed=false → P s' w.2.2)
    (hseal : ∀ beginTick target,P (w.1.sealInputs (logged get) beginTick target w.2).1
      (w.1.sealInputs (logged get) beginTick target w.2).2.2)
    (hextend : ∀ target sc,w.1.extendTarget (logged get) target w.2=some sc → P sc.1 sc.2.2)
    (hresign : ∀ slot fromTick toTick sc,
      w.1.resignSlotRange (logged get) slot fromTick toTick w.2=some sc → P sc.1 sc.2.2)
    (happly : ∀ epoch base target slot rowBegin rows sc,
      w.1.applyPeerSealRows (logged get) epoch base target slot rowBegin rows
        (w.2.1,deliveries epoch slot (base+rowBegin) rows++w.2.2)=some sc → P sc.1 sc.2.2)
    (a : Call τ) : P (RbSession.call get w a).1 (RbSession.call get w a).2.2 := by
  obtain ⟨s,host,log⟩ := w
  cases a with
  | beginEpisode | sessionReset => exact hunsealed _ rfl rfl
  | sealInputs beginTick target => exact hseal beginTick target
  | extendTarget newTarget =>
    unfold call
    dsimp only
    cases he : s.extendTarget (logged get) newTarget (host,log) with
    | none => exact h
    | some sc => exact hextend newTarget sc he
  | resignSlotRange slot fromTick toTick =>
    unfold call
    dsimp only
    cases he : s.resignSlotRange (logged get) slot fromTick toTick (host,log) with
    | none => exact h
    | some sc => exact hresign slot fromTick toTick sc he
  | applyPeerSealRows epoch base target slot rowBegin rows =>
    unfold call
    dsimp only
    cases he : s.applyPeerSealRows (logged get) epoch base target slot rowBegin rows
      (host,deliveries epoch slot (base+rowBegin) rows++log) with
    | none => exact h
    | some sc => exact happly epoch base target slot rowBegin rows sc he
  | enterTipHold =>
    unfold call enterTipHold
    dsimp only
    split
    · exact hcongr s _ h ⟨rfl,rfl,rfl,rfl,rfl,rfl,rfl,rfl⟩
    · exact h
  | setPhase phase => exact hcongr s _ h (setPhase_seal s phase)
  | onPostMatch =>
    have hpromoted : P s.commitPromoteSealed log := hcongr s _ h ⟨rfl,rfl,rfl,rfl,rfl,rfl,rfl,rfl⟩
    exact hcongr _ _ hpromoted (setPhase_seal s.commitPromoteSealed .commit)
  | onPostDiverge => exact hcongr s _ h (setPhase_seal s .verify)
  | history host => exact h
  | _ => exact hcongr s _ h ⟨rfl,rfl,rfl,rfl,rfl,rfl,rfl,rfl⟩

theorem SealGood.call (h : SealGood w.1 w.2.2) (a : Call τ) :
    SealGood (RbSession.call get w a).1 (RbSession.call get w a).2.2 :=
  call_rule h (fun _ _ hs => hs.congr) (fun _ hcfg hs => h.unsealed hcfg hs)
    (fun beginTick target => h.sealInputs beginTick target w.2.1)
    (fun _ _ he => h.extendTarget he) (fun _ _ _ _ he => h.resignSlotRange he)
    (fun _ _ _ _ _ _ _ he => h.applyPeerSealRows he) a

theorem SealGood.run (h : SealGood w.1 w.2.2) (calls : List (Call τ)) :
    SealGood (RbSession.run get w calls).1 (RbSession.run get w calls).2.2 := by
  induction calls generalizing w with
  | nil => exact h
  | cons a calls ih => exact ih (h.call a)

variable {s : RbSession} {log : List Origin} {slot : ℕ}
theorem mem_expectedPeerMask (h : SealGood s log)
    (hslot : slot∈s.expectedPeerMask) : slot<s.cfg.slotCount ∧ slot≠s.cfg.localSlot := by
  have hn : ¬(s.cfg.slotCount=0 ∨ maxSlots<s.cfg.slotCount) := by
    have := h.slots
    omega
  unfold expectedPeerMask expectedSeats at hslot
  rw [if_neg hn,Finset.mem_filter,Finset.mem_range] at hslot
  exact ⟨hslot.1,hslot.2.2⟩

/-- What a sealed table promises. -/
structure Integrity (s : RbSession) (log : List Origin) : Prop where
  span : s.sealBaseTick ≤ s.corr.targetTick ∧ s.sealedSpan=s.corr.targetTick-s.sealBaseTick+1 ∧
    s.sealedSpan ≤ s.cfg.sealMaxSpan ∧ s.cfg.sealMaxSpan ≤ sealMaskBits
  bits : ∀ slot offset,s.peerSealMask slot offset → offset<s.sealedSpan ∧
    (slot≠s.cfg.localSlot → (s.sealed offset slot).isValid) ∧
    (slot<s.cfg.slotCount → (s.sealed offset slot).tick=s.sealBaseTick+offset)
  complete : s.allPeerSealRowsComplete → ∀ slot∈s.expectedPeerMask,∀ tick,
    s.sealBaseTick≤tick → tick ≤ s.corr.targetTick →
    ∃ f,s.getSealedFrame slot tick=some f ∧ Vouched log s.corr.epochId slot tick f

theorem SealGood.getSealedFrame (h : SealGood s log)
    (hall : s.allPeerSealRowsComplete) (hslot : slot∈s.expectedPeerMask)
    {tick : ℕ} (hlo : s.sealBaseTick≤tick) (hhi : tick ≤ s.corr.targetTick) :
    ∃ f,s.getSealedFrame slot tick=some f ∧ Vouched log s.corr.epochId slot tick f := by
  unfold allPeerSealRowsComplete at hall
  rw [Bool.and_eq_true,decide_eq_true_eq] at hall
  obtain ⟨hsealed,hall⟩ := hall
  have hs:=h.whileSealed hsealed
  obtain ⟨hcount,hremote⟩ := mem_expectedPeerMask h hslot
  have hoff : tick-s.sealBaseTick<s.sealedSpan := by
    rw [hs.span]
    omega
  have hbit : s.peerSealMask slot (tick-s.sealBaseTick) := by
    have hrow:=hall slot hslot
    unfold peerSealRowsComplete at hrow
    rw [Bool.and_eq_true,all_eq_true] at hrow
    refine hrow.2 _ (mem_range.mpr (lt_min hoff ?_))
    have := hs.bound
    have := h.width
    omega
  have hvalid:=hs.table.valid _ slot hbit hremote
  have horigin:=hs.table.origin _ slot (.inl hoff) hcount hremote hvalid
  rw [Nat.add_sub_cancel' hlo] at horigin
  refine ⟨_,?_,horigin⟩
  unfold RbSession.getSealedFrame tickInSealedSpan
  rw [if_pos ⟨by simp [hsealed,hlo,hoff],hcount.trans_le h.slots.2⟩]
  exact if_pos hvalid

/-- **Seal-table integrity.** -/
theorem seal_table_integrity (get : GetInputRow τ) (cfg : RbConfig) {s₀ : RbSession}
    (hcreate : create cfg=some s₀) (host : τ) (calls : List (Call τ)) :
    (run get (s₀,host,[]) calls).1.inputsSealed=true →
      Integrity (run get (s₀,host,[]) calls).1 (run get (s₀,host,[]) calls).2.2 := by
  intro hsealed
  have h : SealGood (run get (s₀,host,[]) calls).1 (run get (s₀,host,[]) calls).2.2 :=
    SealGood.run (w := (s₀,host,[])) (.create hcreate) calls
  have hs:=h.whileSealed hsealed
  refine ⟨⟨hs.order,hs.span,hs.bound,h.width⟩,fun slot offset hbit => ?_,
    fun hall slot hslot tick hlo hhi => h.getSealedFrame hall hslot hlo hhi⟩
  have hregion:=hs.table.bit offset slot hbit
  refine ⟨?_,hs.table.valid offset slot hbit,hs.table.tick offset slot hregion⟩
  rcases hregion with hlt | ⟨-,h0⟩
  · exact hlt
  · exact absurd h0 (Nat.not_lt_zero slot)

end Run

def duo : RbConfig := ⟨0,0,2,0,0,0,0⟩

def duoCore : RbSession :=
  sessionReset ⟨duo.normalise,.live,RbCorrection.zero,fun _ _ => RbFrame.zero,0,0,false,
    fun _ _ => false,0⟩

def flagged : GetInputRow Bool := fun _ tick host =>
  (some { RbFrame.zero with tick,isValid := host },host)
def ownRow (buttons : ℕ) (isPredicted : Bool) : RbFrame :=
  { RbFrame.zero with buttons,isPredicted,isValid := true }

theorem seal_table_integrity_grown :
    let w:=run flagged (duoCore,false,[])
      [.beginEpisode { RbCorrection.zero with epochId := 1 },.sealInputs 10 11,
        .applyPeerSealRows 1 10 12 1 0 [ownRow 4 false,ownRow 5 true,ownRow 6 false]]
    w.1.allPeerSealRowsComplete=true ∧ Integrity w.1 w.2.2 :=
  ⟨by decide +kernel,seal_table_integrity flagged duo rfl false _ (by decide +kernel)⟩

def resignedTwice : List (Call Bool) :=
  [.beginEpisode RbCorrection.zero,.sealInputs 10 10,.resignSlotRange 0 10 10,.history false,
    .resignSlotRange 0 10 10]

def seatOutside : List (Call Bool) := [.beginEpisode RbCorrection.zero,.sealInputs 10 10,
    .applyPeerSealRows 0 10 10 5 0 [ownRow 4 false],.beginEpisode RbCorrection.zero,
    .sealInputs 20 20,.applyPeerSealRows 0 20 20 5 0 [ownRow 7 true]]

theorem bits_without_rows :
    ((run flagged (duoCore,true,[]) resignedTwice).1.inputsSealed=true ∧
      (run flagged (duoCore,true,[]) resignedTwice).1.peerSealMask 0 0=true ∧
      ((run flagged (duoCore,true,[]) resignedTwice).1.sealed 0 0).isValid=false) ∧
    ((run flagged (duoCore,true,[]) seatOutside).1.inputsSealed=true ∧
      (run flagged (duoCore,true,[]) seatOutside).1.peerSealMask 5 0=true ∧
      (run flagged (duoCore,true,[]) seatOutside).1.sealBaseTick=20 ∧
      ((run flagged (duoCore,true,[]) seatOutside).1.sealed 0 5).tick=10) := by
  decide +kernel

end RbSession
end RecompNet
