import Mathlib.Data.Int.ModEq
import Mathlib.Algebra.Order.Group.Abs
import RecompNet.Session.FullAck

/-!
# Transfer serials

A transfer id counts the transfers of its sender, in its low 24 bits for an upload and in its low
30 bits otherwise.
-/
namespace RecompNet.StateSync
open List

def StateOp.serialBits (op : StateOp) : ℕ := if op=.memcard then 24 else 30

section Compare
variable {new old : ℕ} {σ n : ℤ}
theorem idDistance_newer {op : StateOp}
    (hbit : (new.testBit 30 && old.testBit 30)=decide (op=.memcard)) (hold : old<2^32)
    (hnew : (new : ℤ) ≡ σ [ZMOD 2^op.serialBits]) (hnote : (old : ℤ) ≡ n [ZMOD 2^op.serialBits])
    (hnear : |σ-n| < 2^(op.serialBits-1)) :
    idDistance new old≠0 ∧ idDistance new old < idHalf new old ↔ n<σ := by
  unfold StateOp.serialBits at hnew hnote hnear
  unfold Int.ModEq at hnew hnote
  unfold idDistance idHalf
  rw [abs_lt] at hnear
  by_cases hop : op=.memcard
  · simp only [hop,if_true,decide_true] at hbit hnew hnote hnear
    simp only [hbit,if_true]
    omega
  · simp only [hop,if_false,decide_false] at hbit hnew hnote hnear
    simp only [hbit,Bool.false_eq_true,if_false]
    omega

end Compare

/-- The call is a BEGIN from `src` that reaches the comparison of serials. -/
def Heard (s : Session) (src : ℕ) (op : StateOp) (xferId : ℕ) (c : Call) : Prop :=
  ∃ now slot total crc,c=.recv now ⟨src,.begin op slot xferId total crc⟩ ∧ ¬ Filtered s src ∧
    BeginTaken s src op xferId total

variable {cfg : Config} {ice : Bool} {src : ℕ} {cs : List Call} {c : Call} {serial : ℕ → ℤ}
def HeardSerial (cfg : Config) (ice : Bool) (src : ℕ) (serial : ℕ → ℤ) (cs : List Call) (id : ℕ)
    (σ : ℤ) : Prop :=
  ∃ pre c op,pre++[c] <+: cs ∧ Heard (runCalls cfg ice pre) src op id c ∧ σ=serial pre.length

/-- The greatest serial heard, and the id of a BEGIN that has it. -/
def Newest (cfg : Config) (ice : Bool) (src : ℕ) (serial : ℕ → ℤ) (cs : List Call) (id : ℕ)
    (n : ℤ) : Prop :=
  HeardSerial cfg ice src serial cs id n ∧ ∀ id' σ,HeardSerial cfg ice src serial cs id' σ → σ≤n

/-- The BEGINs from `src` carry ids of these serials, each within half the serial space of the
newest before it. -/
structure Serials (cfg : Config) (ice : Bool) (src : ℕ) (cs : List Call) (serial : ℕ → ℤ) : Prop where
  word : ∀ pre c,pre++[c] <+: cs → ∀ op id,Heard (runCalls cfg ice pre) src op id c → id<2^32
  named : ∀ pre c,pre++[c] <+: cs → ∀ op id,Heard (runCalls cfg ice pre) src op id c →
    (id : ℤ) ≡ serial pre.length [ZMOD 2^op.serialBits]
  near : ∀ pre c,pre++[c] <+: cs → ∀ op id,Heard (runCalls cfg ice pre) src op id c →
    ∀ id' n,Newest cfg ice src serial pre id' n →
      |serial pre.length-n| < 2^(op.serialBits-1)

/-- Bit 30 of the two ids tells an upload from another transfer. -/
def WindowFits (s : Session) (src : ℕ) (c : Call) : Prop :=
  ∀ op id r,Heard s src op id c → s.received src=some r →
    (id.testBit 30 && r.id.testBit 30)=decide (op=.memcard)

variable {s : Session} {op : StateOp} {id : ℕ}
theorem Heard.opens (h : Heard s src op id c) (hnew : Newer s src id) : Opens s src c := by
  obtain ⟨now,slot,total,crc,rfl,hfilter,htaken⟩ := h
  exact ⟨rfl,hfilter,htaken,hnew⟩

variable {now slot total crc : ℕ}
theorem Opens.heard {xferId : ℕ}
    (h : Opens s src (.recv now ⟨src,.begin op slot xferId total crc⟩)) :
    Heard s src op xferId (.recv now ⟨src,.begin op slot xferId total crc⟩) ∧ Newer s src xferId :=
  ⟨⟨now,slot,total,crc,rfl,h.2.1,h.2.2.1⟩,h.2.2.2⟩

variable {pre : List Call}
theorem Heard.serialBits_eq {pre' : List Call} {c c' : Call} {op' : StateOp} {id' : ℕ}
    (h : Heard (runCalls cfg ice pre) src op id c)
    (h' : Heard (runCalls cfg ice pre') src op' id' c') : op.serialBits=op'.serialBits := by
  obtain ⟨_,_,_,_,-,-,htaken⟩ := h
  obtain ⟨_,_,_,_,-,-,htaken'⟩ := h'
  have hcfg:=runCalls_cfg cfg ice pre
  have hcfg':=runCalls_cfg cfg ice pre'
  have hiff : op=.memcard ↔ op'=.memcard := by
    constructor
    · intro hop
      by_contra hop'
      have hzero:=(htaken.upload hop).1
      exact htaken'.download hop' (by rw [hcfg',← hcfg]; exact hzero)
    · intro hop'
      by_contra hop
      have hzero:=(htaken'.upload hop').1
      exact htaken.download hop (by rw [hcfg,← hcfg']; exact hzero)
  unfold StateOp.serialBits
  simp only [hiff]

variable {σ : ℤ}
theorem HeardSerial.mono {cs' : List Call}
    (h : HeardSerial cfg ice src serial cs id σ) (hpre : cs <+: cs') :
    HeardSerial cfg ice src serial cs' id σ := by
  obtain ⟨pre,c,op,hc,hheard,hσ⟩ := h
  exact ⟨pre,c,op,hc.trans hpre,hheard,hσ⟩

theorem heardSerial_concat :
    HeardSerial cfg ice src serial (cs++[c]) id σ ↔ HeardSerial cfg ice src serial cs id σ ∨
      ∃ op,Heard (runCalls cfg ice cs) src op id c ∧ σ=serial cs.length := by
  constructor
  · rintro ⟨pre,d,op,hd,hheard,hσ⟩
    rcases prefix_concat_iff.mp hd with heq | hd
    · obtain ⟨rfl,hlast⟩ := append_inj' heq rfl
      cases hlast
      exact .inr ⟨op,hheard,hσ⟩
    · exact .inl ⟨pre,d,op,hd,hheard,hσ⟩
  · rintro (h | ⟨op,hheard,hσ⟩)
    · exact h.mono (prefix_append cs [c])
    · exact ⟨cs,c,op,prefix_rfl,hheard,hσ⟩

structure NoteNewest (cfg : Config) (ice : Bool) (src : ℕ) (serial : ℕ → ℤ) (cs : List Call) :
    Prop where
  some : ∀ r,(runCalls cfg ice cs).received src=some r → ∃ n,Newest cfg ice src serial cs r.id n
  none : (runCalls cfg ice cs).received src=none → ∀ id σ,¬ HeardSerial cfg ice src serial cs id σ

theorem newer_iff (hs : Serials cfg ice src cs serial) (hpre : pre++[c] <+: cs)
    (hn : NoteNewest cfg ice src serial pre) (hw : WindowFits (runCalls cfg ice pre) src c)
    (h : Heard (runCalls cfg ice pre) src op id c) : Newer (runCalls cfg ice pre) src id ↔
      ∀ id' σ,HeardSerial cfg ice src serial pre id' σ → σ<serial pre.length := by
  unfold Newer
  cases hr : (runCalls cfg ice pre).received src with
  | none => exact ⟨fun _ id' σ hσ => absurd hσ (hn.none hr id' σ),fun _ r hr' => by cases hr'⟩
  | some r =>
    obtain ⟨n,hnewest⟩ := hn.some r hr
    obtain ⟨p,d,op',hd,hheard,hserial⟩ := hnewest.1
    have hdcs : p++[d] <+: cs := hd.trans ((prefix_append pre [c]).trans hpre)
    have hnote : (r.id : ℤ) ≡ n [ZMOD 2^op.serialBits] := by
      rw [hserial,h.serialBits_eq hheard]
      exact hs.named p d hdcs op' r.id hheard
    have hcompare:=idDistance_newer (hw op id r h hr) (hs.word p d hdcs op' r.id hheard)
      (hs.named pre c hpre op id h) hnote (hs.near pre c hpre op id h r.id n hnewest)
    constructor
    · intro hnew id' σ hσ
      exact (hnewest.2 id' σ hσ).trans_lt (hcompare.mp (hnew r rfl))
    · intro hall r' hr'
      cases hr'
      exact hcompare.mpr (hall r.id n hnewest.1)

theorem received_id_step (hopens : ¬ Opens s src c) :
    ((callAct s c).1.received src).map Received.id=(s.received src).map Received.id := by
  obtain ⟨seat,acks,hstep,-,hnote,-⟩ := callAct_seat s src c
  rw [hnote]
  cases hstep with
  | keep | beginAgain | beginFinished | stored => rfl
  | opened _ ho => exact absurd ho hopens
  | chunkFinished _ hr => rw [hr]; rfl
  | closed => cases s.received src <;> rfl

theorem received_id_opens (hopens : Opens s src c) : ∃ op id,Heard s src op id c ∧ Newer s src id ∧
      ∃ r,(callAct s c).1.received src=some r ∧ r.id=id := by
  obtain ⟨seat,acks,hstep,-,hnote,-⟩ := callAct_seat s src c
  cases hstep with
  | opened hc ho =>
    subst hc
    exact ⟨_,_,ho.heard.1,ho.heard.2,_,hnote,rfl⟩
  | keep ho | beginAgain ho | beginFinished ho | stored ho | chunkFinished ho | closed ho =>
    exact absurd hopens ho

theorem NoteNewest.step (hs : Serials cfg ice src cs serial)
    (hpre : pre++[c] <+: cs) (h : NoteNewest cfg ice src serial pre)
    (hw : WindowFits (runCalls cfg ice pre) src c) : NoteNewest cfg ice src serial (pre++[c]) := by
  have hrun:=runCalls_concat cfg ice pre c
  by_cases hopens : Opens (runCalls cfg ice pre) src c
  · obtain ⟨op,id,hheard,hnew,r,hr,hid⟩ := received_id_opens hopens
    rw [← hrun] at hr
    have hgreatest:=(newer_iff hs hpre h hw hheard).mp hnew
    refine ⟨fun r' hr' => ⟨serial pre.length,?_,fun id' σ hσ => ?_⟩,fun hnone => ?_⟩
    · rw [hr] at hr'
      cases hr'
      exact heardSerial_concat.mpr (.inr ⟨op,hid ▸ hheard,rfl⟩)
    · rcases heardSerial_concat.mp hσ with hold | ⟨-,-,rfl⟩
      · exact (hgreatest id' σ hold).le
      · exact le_rfl
    · rw [hr] at hnone
      cases hnone
  · have hid:=received_id_step hopens
    rw [← hrun] at hid
    -- a BEGIN heard and not opened does not beat the newest
    have hbeaten : ∀ op id,Heard (runCalls cfg ice pre) src op id c →
        ∃ id' σ,HeardSerial cfg ice src serial pre id' σ ∧ serial pre.length≤σ := by
      intro op id hheard
      by_contra hnone
      push Not at hnone
      exact hopens (hheard.opens ((newer_iff hs hpre h hw hheard).mpr hnone))
    refine ⟨fun r' hr' => ?_,fun hnone => ?_⟩
    · rw [hr'] at hid
      obtain ⟨r,hr,heq⟩ := Option.map_eq_some_iff.mp hid.symm
      obtain ⟨n,hnewest⟩ := h.some r hr
      refine ⟨n,heq ▸ hnewest.1.mono (prefix_append pre [c]),fun id' σ hσ => ?_⟩
      rcases heardSerial_concat.mp hσ with hold | ⟨op,hheard,rfl⟩
      · exact hnewest.2 id' σ hold
      · obtain ⟨id'',σ',hσ',hle⟩ := hbeaten op id' hheard
        exact hle.trans (hnewest.2 id'' σ' hσ')
    · rw [hnone] at hid
      have hbefore:=Option.map_eq_none_iff.mp hid.symm
      intro id' σ hσ
      rcases heardSerial_concat.mp hσ with hold | ⟨op,hheard,-⟩
      · exact h.none hbefore id' σ hold
      · obtain ⟨id'',σ',hσ',-⟩ := hbeaten op id' hheard
        exact h.none hbefore id'' σ' hσ'

theorem noteNewest_run (hs : Serials cfg ice src cs serial)
    (hw : ∀ pre c,pre++[c] <+: cs → WindowFits (runCalls cfg ice pre) src c) :
    ∀ pre,pre <+: cs → NoteNewest cfg ice src serial pre := by
  intro pre
  induction pre using List.reverseRecOn with
  | nil =>
    intro _
    refine ⟨fun r hr => (by cases hr),fun _ id σ hσ => ?_⟩
    obtain ⟨p,d,-,hd,-,-⟩ := hσ
    exact forall_steps_nil (P := fun _ _ => False) p d hd
  | append_singleton pre c ih =>
    intro hpre
    exact (ih ((prefix_append pre [c]).trans hpre)).step hs hpre (hw pre c hpre)

theorem callAct_begin (hfilter : ¬ Filtered s src) :
    callAct s (.recv now ⟨src,.begin op slot id total crc⟩) =
      ((onBegin now s src op slot id total crc).1,(onBegin now s src op slot id total crc).2,[]) :=
  if_neg hfilter

variable {r : Received}
theorem onBegin_taken (htaken : BeginTaken s src op id total) (hr : s.received src=some r) :
    onBegin now s src op slot id total crc =
      if idDistance id r.id=0 then onBeginAgain now s src r op slot id total crc
      else if idHalf id r.id ≤ idDistance id r.id then (s,[])
      else openRx now s src op slot id total crc := by
  unfold onBegin
  rw [if_neg htaken.other,
    if_neg fun hc => hc.2.elim (absurd (htaken.upload hc.1).1) (htaken.upload hc.1).2,
    if_neg fun hc => htaken.download hc.1 hc.2,
    if_neg (not_or.mpr ⟨htaken.size.1,not_lt.mpr htaken.size.2⟩),
    if_neg (not_or.mpr ⟨not_le.mpr htaken.source,htaken.named⟩),hr]

theorem onBeginAgain_session (now : ℕ) (s : Session) (src : ℕ) (r : Received) (op : StateOp)
    (slot id total crc : ℕ) :
    (onBeginAgain now s src r op slot id total crc).1=s ∨ ∃ rx,s.rx src=some rx ∧
      (onBeginAgain now s src r op slot id total crc).1 =
        setRx s src { rx with lastAckMs := now } := by
  unfold onBeginAgain
  split
  · exact .inl rfl
  split
  · exact .inl rfl
  · cases hx : s.rx src with
    | none => exact .inl rfl
    | some rx =>
      dsimp only
      split
      · exact .inr ⟨rx,rfl,rfl⟩
      · exact .inl rfl

theorem callAct_begin_again (h : Heard s src op id c) (hopens : ¬ Opens s src c) :
    (callAct s c).1=s ∨ ∃ rx now,s.rx src=some rx ∧
      (callAct s c).1=setRx s src { rx with lastAckMs := now } := by
  have hnew : ¬ Newer s src id := fun hnew => hopens (h.opens hnew)
  obtain ⟨now,slot,total,crc,rfl,hfilter,htaken⟩ := h
  cases hr : s.received src with
  | none =>
    refine (hnew fun r hr' => ?_).elim
    rw [hr] at hr'
    cases hr'
  | some r =>
    have hold : idDistance id r.id≠0 → idHalf id r.id ≤ idDistance id r.id := by
      intro hzero
      by_contra hlt
      refine hnew fun r' hr' => ?_
      rw [hr] at hr'
      cases hr'
      exact ⟨hzero,not_le.mp hlt⟩
    rw [callAct_begin hfilter]
    change (onBegin now s src op slot id total crc).1=s ∨ ∃ rx now',s.rx src=some rx ∧
      (onBegin now s src op slot id total crc).1=setRx s src { rx with lastAckMs := now' }
    rw [onBegin_taken htaken hr]
    by_cases hzero : idDistance id r.id=0
    · rw [if_pos hzero]
      rcases onBeginAgain_session now s src r op slot id total crc with hsame | ⟨rx,hx,hset⟩
      · exact .inl hsame
      · exact .inr ⟨rx,now,hx,hset⟩
    · rw [if_neg hzero,if_pos (hold hzero)]
      exact .inl rfl

theorem callAct_begin_finished
    (hfilter : ¬ Filtered s src) (htaken : BeginTaken s src r.op r.id r.total)
    (hr : s.received src=some r) (hf : r.finished) :
    callAct s (.recv now ⟨src,.begin r.op r.slot r.id r.total r.crc⟩) =
      (s,[s.packet (.ack r.id r.total)],[]) := by
  have hself : idDistance r.id r.id=0 := by
    unfold idDistance
    dsimp only
    rw [Nat.add_sub_cancel_left]
    split <;> rfl
  have hagain : onBeginAgain now s src r r.op r.slot r.id r.total r.crc =
      (s,[s.packet (.ack r.id r.total)]) := by
    unfold onBeginAgain
    rw [if_neg (by simp),if_pos hf]
  rw [callAct_begin hfilter,onBegin_taken htaken hr,if_pos hself,hagain]

/-- The receive that is open is of the newest BEGIN heard from its peer. -/
theorem receive_is_newest (cfg : Config) (ice : Bool) (src : ℕ) (cs : List Call) (serial : ℕ → ℤ)
    (hs : Serials cfg ice src cs serial)
    (hw : ∀ pre c,pre++[c] <+: cs → WindowFits (runCalls cfg ice pre) src c) :
    (∀ pre,pre <+: cs → ∀ rx,(runCalls cfg ice pre).rx src=some rx →
      ∃ n,Newest cfg ice src serial pre rx.xferId n) ∧
    ∀ pre c,pre++[c] <+: cs → ∀ op id,Heard (runCalls cfg ice pre) src op id c →
      (∀ id' n,Newest cfg ice src serial pre id' n → serial pre.length≤n →
        runCalls cfg ice (pre++[c])=runCalls cfg ice pre ∨
          ∃ rx now,(runCalls cfg ice pre).rx src=some rx ∧ runCalls cfg ice (pre++[c]) =
              setRx (runCalls cfg ice pre) src { rx with lastAckMs := now }) ∧
      (∀ other,other≠src → (runCalls cfg ice (pre++[c])).seatState other =
        (runCalls cfg ice pre).seatState other) ∧
      ∀ r now,(runCalls cfg ice pre).received src=some r → r.finished=true → r.id=id →
        c=.recv now ⟨src,.begin r.op r.slot r.id r.total r.crc⟩ →
        runCalls cfg ice (pre++[c])=runCalls cfg ice pre ∧ (callAct (runCalls cfg ice pre) c).2.1 =
            [(runCalls cfg ice pre).packet (.ack r.id r.total)] := by
  have hnewest:=noteNewest_run hs hw
  refine ⟨fun pre hpre rx hx => ?_,fun pre c hpre op id hheard => ⟨?_,?_,?_⟩⟩
  · obtain ⟨r,hr,hid,-⟩ := (receiveMarked_run cfg ice pre src).note rx hx
    rw [← hid]
    exact (hnewest pre hpre).some r hr
  · intro id' n hn hle
    have hbefore:=hnewest pre ((prefix_append pre [c]).trans hpre)
    have hopens : ¬ Opens (runCalls cfg ice pre) src c := by
      intro ho
      obtain ⟨op',id'',hheard',hnew,-⟩ := received_id_opens ho
      have hgreatest:=(newer_iff hs hpre hbefore (hw pre c hpre) hheard').mp hnew
      exact absurd (hgreatest id' n hn.1) (not_lt.mpr hle)
    rw [runCalls_concat]
    exact callAct_begin_again hheard hopens
  · intro other hother
    obtain ⟨now,slot,total,crc,rfl,-,-⟩ := hheard
    rw [runCalls_concat]
    exact handleDecoded_seatState now _ hother
  · rintro r now hr hf rfl hc
    obtain ⟨now',slot,total,crc,hc',hfilter,htaken⟩ := hheard
    rw [hc] at hc'
    cases hc'
    rw [runCalls_concat,hc,callAct_begin_finished hfilter htaken hr hf]
    exact ⟨rfl,rfl⟩

def idSerial (cs : List Call) (j : ℕ) : ℤ :=
  match cs[j]? with
  | some (.recv _ ⟨_,.begin _ _ xferId _ _⟩) => xferId
  | _ => 0

theorem heardSerial_idSerial (hpre : pre <+: cs)
    (h : HeardSerial cfg ice src (idSerial cs) pre id σ) : σ=id := by
  obtain ⟨p,c,op,hc,⟨now,slot,total,crc,rfl,-,-⟩,rfl⟩ := h
  obtain ⟨rest,hrest⟩ := hc.trans hpre
  unfold idSerial
  rw [← hrest]
  simp

theorem serials_idSerial (low : ℕ) (hlow : ∀ now src op slot id total crc,
      Call.recv now ⟨src,.begin op slot id total crc⟩∈cs →
        op≠.memcard ∧ low ≤ id ∧ id<low+2^29) (hword : low+2^29≤2^32) :
    Serials cfg ice src cs (idSerial cs) := by
  have hrange : ∀ pre c,pre++[c] <+: cs → ∀ op id,Heard (runCalls cfg ice pre) src op id c →
      op≠.memcard ∧ low ≤ id ∧ id<low+2^29 := by
    rintro pre c hpre op id ⟨now,slot,total,crc,rfl,-,-⟩
    exact hlow now src op slot id total crc
      (hpre.subset (mem_append_right _ (mem_singleton_self _)))
  have hserial : ∀ pre c,pre++[c] <+: cs → ∀ op id,Heard (runCalls cfg ice pre) src op id c →
      idSerial cs pre.length=id := fun pre c hpre op id hheard =>
    heardSerial_idSerial hpre ⟨pre,c,op,prefix_rfl,hheard,rfl⟩
  refine ⟨fun pre c hpre op id hheard => ?_,fun pre c hpre op id hheard => ?_,
    fun pre c hpre op id hheard id' n hn => ?_⟩
  · exact (hrange pre c hpre op id hheard).2.2.trans_le hword
  · rw [hserial pre c hpre op id hheard]
  · obtain ⟨hop,hge,hlt⟩ := hrange pre c hpre op id hheard
    obtain rfl : n=id' := heardSerial_idSerial ((prefix_append pre [c]).trans hpre) hn.1
    obtain ⟨p,d,op',hd,hheard',-⟩ := hn.1
    obtain ⟨-,hge',hlt'⟩ :=
      hrange p d (hd.trans ((prefix_append pre [c]).trans hpre)) op' id' hheard'
    rw [hserial pre c hpre op id hheard,abs_lt,StateOp.serialBits,if_neg hop]
    omega

def lateCopyCalls : List Call := [.recv 1 ⟨0,.begin .load 0 5 9 7⟩,.recv 2 ⟨0,.begin .load 0 6 9 8⟩,
    .recv 3 ⟨0,.begin .load 0 5 9 7⟩]

theorem receive_is_newest_late_copy :
    Serials (pairCfg true) false 0 lateCopyCalls (idSerial lateCopyCalls) ∧
      (∀ pre c,pre++[c] <+: lateCopyCalls → WindowFits (runCalls (pairCfg true) false pre) 0 c) ∧
      ((runCalls (pairCfg true) false lateCopyCalls).rx 0).map Rx.xferId=some 6 ∧
      ∃ n,Newest (pairCfg true) false 0 (idSerial lateCopyCalls) lateCopyCalls 6 n := by
  have hserials : Serials (pairCfg true) false 0 lateCopyCalls (idSerial lateCopyCalls) := by
    refine serials_idSerial 5 (fun now src op slot id total crc hin => ?_) (by decide)
    simp only [lateCopyCalls,mem_cons,not_mem_nil,or_false] at hin
    rcases hin with h | h | h <;> cases h <;> decide
  have hwindow : ∀ pre c,pre++[c] <+: lateCopyCalls →
      WindowFits (runCalls (pairCfg true) false pre) 0 c := by
    refine forall_steps_cons ?_ (forall_steps_cons ?_ (forall_steps_cons ?_ forall_steps_nil)) <;>
      (rintro op id r ⟨now,slot,total,crc,h,-,-⟩ -; cases h; rfl)
  have hid : ((runCalls (pairCfg true) false lateCopyCalls).rx 0).map Rx.xferId=some 6 := by
    decide +kernel
  refine ⟨hserials,hwindow,hid,?_⟩
  obtain ⟨rx,hx,hsix⟩ := Option.map_eq_some_iff.mp hid
  rw [← hsix]
  exact (receive_is_newest (pairCfg true) false 0 lateCopyCalls (idSerial lateCopyCalls) hserials
    hwindow).1 lateCopyCalls prefix_rfl rx hx

def longHostCalls : List Call :=
  [.recv 1 ⟨0,.begin .load 0 (2^30) 9 7⟩,.recv 2 ⟨0,.begin .load 0 (2^30+2^23) 9 8⟩]

theorem long_host_taken_for_stale :
    Serials (pairCfg true) false 0 longHostCalls (idSerial longHostCalls) ∧
      HeardSerial (pairCfg true) false 0 (idSerial longHostCalls) longHostCalls (2^30+2^23)
        (2^30+2^23) ∧
      ((runCalls (pairCfg true) false longHostCalls).rx 0).map Rx.xferId=some (2^30) ∧
      ¬ ∃ n,Newest (pairCfg true) false 0 (idSerial longHostCalls) longHostCalls (2^30) n := by
  have hserials : Serials (pairCfg true) false 0 longHostCalls (idSerial longHostCalls) := by
    refine serials_idSerial (2^30) (fun now src op slot id total crc hin => ?_) (by decide)
    simp only [longHostCalls,mem_cons,not_mem_nil,or_false] at hin
    rcases hin with h | h <;> cases h <;> decide
  have hheard : HeardSerial (pairCfg true) false 0 (idSerial longHostCalls) longHostCalls
      (2^30+2^23) (2^30+2^23) := by
    refine ⟨longHostCalls.take 1,.recv 2 ⟨0,.begin .load 0 (2^30+2^23) 9 8⟩,.load,
      prefix_rfl,⟨2,0,9,8,rfl,?_,?_⟩,by decide +kernel⟩
    · have hpeer : (runCalls (pairCfg true) false (longHostCalls.take 1)).rbPeerSlot=none := by
        decide +kernel
      rw [Filtered,hpeer]
      exact Bool.false_ne_true
    · refine ⟨by decide +kernel,fun h => (by cases h),fun _ => ?_,by decide,by decide,by decide⟩
      decide +kernel
  refine ⟨hserials,hheard,by decide +kernel,?_⟩
  rintro ⟨n,hn⟩
  have hle:=hn.2 _ _ hheard
  rw [heardSerial_idSerial prefix_rfl hn.1] at hle
  revert hle
  decide

end RecompNet.StateSync
