import RecompNet.Session.StateSync

/-!
# The stall flag and probes of size 0

`state_stall_sim` stops `try_admit` and INPUT.
-/
namespace RecompNet.StateSync
def StallRight (s : Session) : Prop :=
  (s.stallSim → s.anyActive ∨ ∃ p,s.probe=some p ∧ p.key.size≠0) ∧
    (s.anyActive=false → (∃ p,s.probe=some p ∧ p.key.size=0) → s.stallSim=false)

variable {s s' : Session}
theorem StallRight.of_stall
    (h : s.stallSim → s.anyActive ∨ ∃ p,s.probe=some p ∧ p.key.size≠0) : StallRight s := by
  refine ⟨h,?_⟩
  rintro hidle ⟨p,hp,hzero⟩
  cases hstall : s.stallSim with
  | false => rfl
  | true =>
    rcases h hstall with hact | ⟨q,hq,hsize⟩
    · rw [hidle] at hact
      cases hact
    rw [hp] at hq
    cases hq
    exact absurd hzero hsize

theorem StallRight.of_active (h : s.anyActive) : StallRight s :=
  .of_stall fun _ => .inl h

theorem StallRight.of_clear (h : s.stallSim=false) : StallRight s :=
  .of_stall fun hs => by
    rw [h] at hs
    cases hs

theorem anyActive_iff : s.anyActive ↔ s.tx.isSome ∨ ∃ i < maxSlots,(s.rx i).isSome := by
  simp [Session.anyActive]

structure StallKept (s s' : Session) : Prop where
  stall : s'.stallSim=s.stallSim
  key : s'.probe.map Probe.key=s.probe.map Probe.key
  tx : s.tx.isSome → s'.tx.isSome
  rx : ∀ i,(s.rx i).isSome → (s'.rx i).isSome

theorem StallKept.refl : StallKept s s := ⟨rfl,rfl,id,fun _ => id⟩

theorem StallKept.trans {s'' : Session} (h : StallKept s s') (h' : StallKept s' s'') :
    StallKept s s'' := ⟨h'.stall.trans h.stall,h'.key.trans h.key,fun ht => h'.tx (h.tx ht),
    fun i hi => h'.rx i (h.rx i hi)⟩

theorem StallKept.active (h : StallKept s s') (ha : s.anyActive) : s'.anyActive := by
  rw [anyActive_iff] at *
  rcases ha with ht | ⟨i,hi,hr⟩
  · exact .inl (h.tx ht)
  · exact .inr ⟨i,hi,h.rx i hr⟩

theorem StallKept.right (h : StallKept s s') (hr : StallRight s) : StallRight s' := by
  refine .of_stall fun hstall => ?_
  rcases hr.1 (h.stall ▸ hstall) with hact | ⟨p,hp,hsize⟩
  · exact .inl (h.active hact)
  have hkey:=h.key
  rw [hp] at hkey
  obtain ⟨q,hq,hqk⟩ := Option.map_eq_some_iff.mp hkey
  exact .inr ⟨q,hq,hqk ▸ hsize⟩

theorem stallKept_setRx {src : ℕ} (rx : Rx) : StallKept s (setRx s src rx) := by
  refine ⟨rfl,rfl,id,fun i hi => ?_⟩
  by_cases h : i=src
  · subst h
    simp [setRx]
  · change (Function.update s.rx src (some rx) i).isSome=true
    rwa [Function.update_of_ne h]

theorem stallKept_setTx (r : Pacing × Tx) : StallKept s (setTx s r) :=
  ⟨rfl,rfl,fun _ => rfl,fun _ => id⟩

theorem stallKept_setProbe {p q : Probe} (hp : s.probe=some p) (hkey : q.key=p.key) :
    StallKept s { s with probe := some q } :=
  ⟨rfl,by rw [hp]; exact congrArg some hkey,id,fun _ => id⟩

variable (now : ℕ)
theorem stallKept_driveSender : StallKept s (driveSender now s).1 := by
  unfold driveSender
  split
  · exact .refl
  · exact stallKept_setTx _

theorem stallKept_driveProbe : StallKept s (driveProbe now s).1 := by
  unfold driveProbe
  cases hp : s.probe with
  | none => exact .refl
  | some p =>
    dsimp only
    split
    · split
      · exact stallKept_setProbe hp rfl
      · exact .refl
    split
    · exact .refl
    split
    · exact .refl
    · exact stallKept_setProbe hp rfl

theorem stallKept_drive : StallKept s (drive now s).1 := by
  unfold drive
  dsimp only
  refine (stallKept_driveProbe now).trans ?_
  split
  · exact stallKept_driveSender now
  · exact .refl

theorem stallKept_onChunk (now src xferId offset : ℕ) (data : List UInt8) :
    StallKept s (onChunk now s src xferId offset data).1 := by
  have hclosed : StallKept s (onChunkClosed now s src xferId).1 := by
    unfold onChunkClosed
    split
    · split
      · exact ⟨rfl,rfl,id,fun _ => id⟩
      · exact .refl
    · exact .refl
  unfold onChunk
  dsimp only
  split
  · exact .refl
  split
  · split
    · exact stallKept_setRx _
    · exact hclosed
  · exact hclosed

theorem stallKept_onAck (now src xferId ackBytes : ℕ) :
    StallKept s (onAck now s src xferId ackBytes) := by
  unfold onAck
  split
  · exact .refl
  split
  · exact .refl
  · exact stallKept_setTx _

variable (src : ℕ) (key : ProbeKey)
theorem stallKept_onProbeReply (matched : Bool) :
    StallKept s (onProbeReply s src key matched).1 := by
  unfold onProbeReply
  split
  · split <;> exact .refl
  next p hp =>
  split
  · exact .refl
  · exact stallKept_setProbe (Option.filter_eq_some_iff.mp hp).1 rfl

theorem stallKept_dropPeer (slot : ℕ) : StallKept s (dropPeer s slot) := by
  have hdrop : StallKept s (dropReceiver s slot) := by
    unfold dropReceiver
    split
    · split
      · exact stallKept_setTx _
      · exact .refl
    · exact .refl
  unfold dropPeer
  dsimp only
  split
  · next p hp =>
    split
    · exact hdrop.trans (stallKept_setProbe hp rfl)
    · exact hdrop
  · exact hdrop

theorem stallRight_probeClear (s : Session) : StallRight (probeClear s) := by
  cases hact : s.anyActive with
  | true => exact .of_active hact
  | false =>
    refine .of_clear ?_
    unfold probeClear
    rw [hact]
    rfl

theorem stallRight_setProbe {p : Probe} (hp : s.probe=some p)
    (hstall : s.stallSim=(p.key.size != 0)) : StallRight s := by
  refine .of_stall fun h => .inr ⟨p,hp,?_⟩
  rw [hstall] at h
  exact bne_iff_ne.mp h

variable (op : StateOp)
theorem stallRight_openRx (slot xferId total crc : ℕ)
    (hsrc : src < maxSlots) : StallRight (openRx now s src op slot xferId total crc).1 := by
  refine .of_active (anyActive_iff.mpr (.inr ⟨src,hsrc,?_⟩))
  simp [openRx,rxSendAck,setRx]

theorem stallRight_onBegin (slot xferId total crc : ℕ)
    (h : StallRight s) : StallRight (onBegin now s src op slot xferId total crc).1 := by
  have hagain : ∀ r,StallKept s (onBeginAgain now s src r op slot xferId total crc).1 := by
    intro r
    unfold onBeginAgain
    split_ifs
    · exact .refl
    · exact .refl
    split
    · split
      · exact stallKept_setRx _
      · exact .refl
    · exact .refl
  unfold onBegin
  split_ifs with h₁ h₂ h₃ h₄ h₅
  · exact h
  · exact h
  · exact h
  · exact h
  · exact h
  have hsrc : src < maxSlots := not_le.mp (not_or.mp h₅).1
  split
  · split_ifs
    · exact (hagain _).right h
    · exact h
    · exact stallRight_openRx now src op slot xferId total crc hsrc
  · exact stallRight_openRx now src op slot xferId total crc hsrc

theorem stallRight_onProbe (replied : Finset ℕ) (h : StallRight s) :
    StallRight (onProbe s src key replied).1 := by
  unfold onProbe
  split
  · exact h
  split
  · exact h
  · exact stallRight_setProbe rfl rfl

theorem stallRight_handleDecoded (pkt : Packet) (h : StallRight s) :
    StallRight (handleDecoded now s pkt).1 := by
  unfold handleDecoded
  dsimp only
  split
  · exact h
  · cases pkt.body with
    | begin op slot xferId total crc => exact stallRight_onBegin now _ op slot xferId total crc h
    | chunk xferId offset data => exact (stallKept_onChunk now _ xferId offset data).right h
    | ack xferId ackBytes => exact (stallKept_onAck now _ xferId ackBytes).right h
    | probe key replied => exact stallRight_onProbe _ key replied h
    | probeReply key matched => exact (stallKept_onProbeReply _ key matched).right h
    | probeDone key =>
      change StallRight (onProbeDone s pkt.localSlot key)
      unfold onProbeDone
      split
      · split
        · exact h
        · exact stallRight_probeClear s
      · exact h

theorem stallRight_stateBegin (slot : ℕ) (blob : List UInt8)
    (h : StallRight s) : StallRight (stateBegin now s op slot blob).1 := by
  unfold stateBegin
  split_ifs
  · exact h
  · exact h
  · exact h
  · exact h
  · refine .of_active ((stallKept_driveSender now).active ?_)
    exact anyActive_iff.mpr (.inl rfl)

theorem stallRight_stateProbe (h : StallRight s) : StallRight (stateProbe now s key).1 := by
  unfold stateProbe
  dsimp only
  split_ifs
  · exact h
  · exact h
  · exact h
  · exact (stallKept_driveProbe now).right (stallRight_setProbe rfl rfl)

theorem stallRight_probeReply (matched : Bool) (h : StallRight s) :
    StallRight (probeReply now s matched).1 := by
  unfold probeReply
  cases hp : s.probe with
  | none => exact h
  | some p =>
    dsimp only
    split
    · exact h
    unfold answerProbe
    dsimp only
    split_ifs
    · exact stallRight_probeClear _
    · exact .of_clear rfl
    · exact stallRight_probeClear _
    · refine StallKept.right ?_ h
      exact stallKept_setProbe hp rfl
    · refine StallKept.right ?_ h
      exact stallKept_setProbe hp rfl

/-- `rnet_session_state_finish`, `rnet_session_state_finish_from`. -/
def Call.isFinish : Call → Bool
  | .finish | .finishFrom _ => true
  | _ => false

theorem stallRight_recomputeStall (s : Session) : StallRight (recomputeStall s) ↔
      (s.anyActive ∨ ∀ p,s.probe=some p → p.key.size≠0) := by
  constructor
  · rintro ⟨-,hclear⟩
    by_contra hno
    obtain ⟨hidle,hzero⟩ := not_or.mp hno
    push Not at hzero
    obtain ⟨p,hp,hsize⟩ := hzero
    have hstall:=hclear (Bool.eq_false_iff.mpr hidle) ⟨p,hp,hsize⟩
    simp [recomputeStall,hp] at hstall
  · rintro (hact | hsize)
    · exact .of_active hact
    · refine .of_stall fun hstall => ?_
      rcases Bool.or_eq_true_iff.mp hstall with hact | hopen
      · exact .inl hact
      · obtain ⟨p,hp⟩ := Option.isSome_iff_exists.mp hopen
        exact .inr ⟨p,hp,hsize p hp⟩

/-- The transfer a finish call closes; `none` where it closes them all. -/
def Call.closes (s : Session) : Call → Option Taken
  | .finish => finishTarget s
  | .finishFrom (.slot seat) =>
    if !s.cfg.isObserver ∧ seat=s.cfg.localSlot then some .tx else some (.rx seat)
  | _ => none

/-- A transfer other than `target` is open. -/
def OpenBeside (s : Session) : Option Taken → Prop
  | none => False
  | some .tx => ∃ i < maxSlots,(s.rx i).isSome
  | some (.rx src) => s.tx.isSome ∨ ∃ i < maxSlots,i≠src ∧ (s.rx i).isSome

theorem active_finishRx (s : Session) (src : ℕ) :
    (finishRx s src).anyActive ↔ OpenBeside s (some (.rx src)) := by
  have hrx (i : ℕ) : ((finishRx s src).rx i).isSome ↔ i≠src ∧ (s.rx i).isSome := by
    change (Function.update s.rx src none i).isSome ↔ _
    by_cases hi : i=src
    · simp [hi]
    · simp [hi]
  rw [anyActive_iff]
  simp only [hrx]
  rfl

theorem active_txClear (s : Session) : (txClear s).anyActive ↔ OpenBeside s (some .tx) := by
  rw [anyActive_iff]
  unfold txClear OpenBeside
  simp

theorem finishAll_idle (s : Session) :
    (txClear ((List.range maxSlots).foldl finishRx s)).anyActive=false := by
  have hshut (l : List ℕ) : ∀ s : Session,∀ i,i∈l ∨ (s.rx i).isSome=false →
      ((l.foldl finishRx s).rx i).isSome=false := by
    induction l with
    | nil => exact fun s i h => h.resolve_left (List.not_mem_nil (a := i))
    | cons src l ih =>
      refine fun s i h => ih (finishRx s src) i (or_iff_not_imp_left.mpr fun hl => ?_)
      change (Function.update s.rx src none i).isSome=false
      by_cases hi : i=src
      · simp [hi]
      · rw [Function.update_of_ne hi]
        exact h.resolve_left (by simp [hi,hl])
  refine Bool.eq_false_iff.mpr fun hact => ?_
  obtain ⟨i,hi,hsome⟩ := (active_txClear _).mp hact
  rw [hshut _ s i (.inl (List.mem_range.mpr hi))] at hsome
  cases hsome

theorem callAct_isFinish {c : Call} (hc : c.isFinish) :
    ∃ s₁,(callAct s c).1=recomputeStall s₁ ∧ s₁.probe=s.probe ∧
      (s₁.anyActive ↔ OpenBeside s (c.closes s)) := by
  have hfold : ∀ (l : List ℕ) (s : Session),(l.foldl finishRx s).probe=s.probe := by
    intro l
    induction l with
    | nil => exact fun s => rfl
    | cons i l ih => exact fun s => ih (finishRx s i)
  have hall : ∃ s₁,finishFrom s .all=recomputeStall s₁ ∧ s₁.probe=s.probe ∧
      (s₁.anyActive ↔ False) := ⟨_,rfl,hfold _ s,by simp [finishAll_idle]⟩
  cases c with
  | finish =>
    change ∃ s₁,stateFinish s=recomputeStall s₁ ∧ _ ∧ (_ ↔ OpenBeside s (finishTarget s))
    unfold stateFinish
    split
    next hno => rw [hno]; exact hall
    next htx => rw [htx]; exact ⟨_,rfl,rfl,active_txClear s⟩
    next src hrx => rw [hrx]; exact ⟨_,rfl,rfl,active_finishRx s src⟩
  | finishFrom which =>
    cases which with
    | all => exact hall
    | slot seat =>
      refine ⟨_,rfl,by split_ifs <;> rfl,?_⟩
      change _ ↔ OpenBeside s (if !s.cfg.isObserver ∧ seat=s.cfg.localSlot then some .tx
        else some (.rx seat))
      split_ifs with hown hseat
      · exact active_txClear s
      · exact active_finishRx s seat
      · rw [anyActive_iff]
        refine or_congr Iff.rfl (exists_congr fun i => and_congr_right fun hi => ?_)
        have hne : i≠seat := fun h => hseat (h ▸ hi)
        exact (and_iff_right hne).symm
  | _ => cases hc

/-- A finish call finds another transfer open, or no probe of size 0. -/
def FinishFair (s : Session) (c : Call) : Prop :=
  c.isFinish=true → OpenBeside s (c.closes s) ∨ ∀ p,s.probe=some p → p.key.size≠0

theorem stallRight_callAct (c : Call) (h : StallRight s) :
    StallRight (callAct s c).1 ↔ FinishFair s c := by
  cases hc : c.isFinish with
  | true =>
    obtain ⟨s₁,heq,hprobe,hactive⟩ := callAct_isFinish (s := s) hc
    rw [heq,stallRight_recomputeStall,hprobe,hactive]
    exact ⟨fun hr _ => hr,fun hr => hr hc⟩
  | false =>
    refine iff_of_true ?_ fun hfin => absurd hfin (by simp [hc])
    cases c with
    | recv now pkt => exact stallRight_handleDecoded now pkt h
    | drive now => exact (stallKept_drive now).right h
    | begin now op slot blob => exact stallRight_stateBegin now op slot blob h
    | probe now key => exact stallRight_stateProbe now key h
    | probeReply now matched => exact stallRight_probeReply now matched h
    | probeFinish => exact stallRight_probeClear _
    | takeReady =>
      change StallRight (takeReady s)
      unfold takeReady
      split <;> exact h
    | finish | finishFrom => cases hc
    | dropPeer slot => exact (stallKept_dropPeer slot).right h
    | setLink running ice rbPeerSlot => exact h

/-- The stall flag is right in every state exactly where every finish call is fair. -/
theorem zero_probe_stalls_iff (cfg : Config) (ice : Bool) (cs : List Call) :
    (∀ pre,pre <+: cs → StallRight (runCalls cfg ice pre)) ↔
      ∀ pre c,pre++[c] <+: cs → FinishFair (runCalls cfg ice pre) c := by
  constructor
  · intro h pre c hpre
    have hbefore:=h pre ((List.prefix_append pre [c]).trans hpre)
    rw [← stallRight_callAct c hbefore,← runCalls_concat]
    exact h _ hpre
  · intro h pre
    induction pre using List.reverseRecOn with
    | nil => exact fun _ => .of_clear rfl
    | append_singleton pre c ih =>
      intro hpre
      rw [runCalls_concat,stallRight_callAct c (ih ((List.prefix_append pre [c]).trans hpre))]
      exact h pre c hpre

def trioHost : Config := { pairCfg false with slotCount := 3 }

def saveThenUpload : List Call := [.setLink true false none,.probe 1 ⟨.save,0,0,7⟩,
    .recv 2 ⟨1,.begin .memcard 0 (2^30+1) 1 5⟩,.finishFrom (.slot 1)]

theorem zero_probe_stalls_host :
    let s:=runCalls trioHost false saveThenUpload
    s.stallSim=true ∧ s.anyActive=false ∧ s.probe.map (·.key.size)=some 0 ∧ ¬ StallRight s := by
  have hstall : (runCalls trioHost false saveThenUpload).stallSim=true := by decide +kernel
  have hidle : (runCalls trioHost false saveThenUpload).anyActive=false := by decide +kernel
  have hsize : (runCalls trioHost false saveThenUpload).probe.map (·.key.size)=some 0 := by
    decide +kernel
  refine ⟨hstall,hidle,hsize,fun h => ?_⟩
  obtain ⟨p,hp,hzero⟩ := Option.map_eq_some_iff.mp hsize
  rw [h.2 hidle ⟨p,hp,hzero⟩] at hstall
  cases hstall

end RecompNet.StateSync
