import RecompNet.Ice.HostIce

/-!
# What a signal can do to a waiting-room agent

A signal of a peer reaches its agent through `apply`, at once or from the hold.
-/
namespace RecompNet.HostIce
open Ice State

structure Peer.Good (p : Peer) : Prop where
  bound : ∀ k∈p.abandoned,k≠0
  current : p.abandoned≠[] → p.gen≠0

/-- A session description at the host that is answered by a new agent. -/
structure Delivery.Rebinds (d : Delivery) : Prop where
  host : d.role=.host
  sdp : d.sig.type=.remoteSdp
  stamped : d.sig.flag.toNat≠0
  other : d.sig.flag.toNat≠d.before.gen
  bound : d.before.gen≠0

/-- A signal stamped with an id its peer has left. -/
structure Delivery.Stale (d : Delivery) : Prop where
  left : d.sig.flag.toNat∈d.before.abandoned
  other : d.sig.flag.toNat≠d.before.gen

structure Delivery.Good (d : Delivery) : Prop where
  agent : d.before.agent.isSome
  peer : d.before.Good
  rebinds : d.Rebinds → d.after.agent=none ∨
    d.after.gen=d.sig.flag.toNat ∧ ∃ a,d.after.agent=some a ∧ a.frozen=false
  frozen : ¬ d.Rebinds → ∀ a,d.before.agent=some a → a.frozen → d.after.agent=some a
  idle : ¬ d.Rebinds → d.sig.flag.toNat≠d.before.gen → d.before.gen≠0 → d.after=d.before

theorem Peer.Good.bind {p : Peer} (h : p.Good) {gen : ℕ} (hgen : gen≠0) : (p.bind gen).Good := by
  refine ⟨fun k hk => ?_,fun _ => hgen⟩
  unfold Peer.bind at hk
  simp only at hk
  split at hk
  · exact h.bound k hk
  next hne =>
  rcases List.mem_cons.mp hk with rfl | hk
  · exact hne
  · exact h.bound k hk

theorem Peer.Good.frame {p p' : Peer} (h : p.Good) (hgen : p'.gen=p.gen)
    (habandoned : p'.abandoned=p.abandoned) : p'.Good :=
  ⟨by rw [habandoned]; exact h.bound,by rw [habandoned,hgen]; exact h.current⟩

variable (a : Agent) (lib : Lib)
theorem gatherNow_frozen : (a.gatherNow lib).frozen=a.frozen := by
  unfold Agent.gatherNow
  split
  · rfl
  split
  · rfl
  simp only
  split
  · rfl
  · unfold Agent.emit
    split <;> rfl

theorem startGathering_frozen : (a.startGathering lib).frozen=a.frozen := by
  unfold Agent.startGathering
  split
  · rfl
  split
  · rfl
  · exact gatherNow_frozen a lib

theorem applyRemoteSdp_frozen (sdp : List UInt8) :
    (a.applyRemoteSdp lib sdp).frozen=a.frozen := by
  unfold Agent.applyRemoteSdp
  split
  · rfl
  simp only
  split
  · rfl
  split
  · exact gatherNow_frozen _ lib
  · rfl

theorem pushSignal_frozen (sig : Signal) : (a.pushSignal lib sig).frozen=a.frozen := by
  unfold Agent.pushSignal
  split
  · unfold Agent.onRemoteSdp
    split
    · rfl
    split
    · simp only [applyRemoteSdp_frozen]
      split <;> rfl
    · exact applyRemoteSdp_frozen a lib _
  · split
    · rfl
    split <;> rfl
  · split <;> rfl
  · simp only
    split
    · exact gatherNow_frozen _ lib
    · rfl
  · rfl

theorem create_frozen {cfg : Ice.Config} {lib : Lib} {a : Agent}
    (h : Agent.create cfg lib=some a) : a.frozen=false := by
  unfold Agent.create at h
  split at h
  · cases h
    rfl
  · cases h

namespace State
variable {h : State} {p : Peer}

structure Same (h h' : State) : Prop where
  peer : h'.peer=h.peer
  role : h'.role=h.role
  log : h'.log=h.log

theorem Same.refl (h : State) : Same h h := ⟨rfl,rfl,rfl⟩
theorem Same.trans {h h' h'' : State} (a : Same h h') (b : Same h' h'') : Same h h'' :=
  ⟨b.peer.trans a.peer,b.role.trans a.role,b.log.trans a.log⟩

variable (env : Env)
theorem buildAgent_same (h : State) (now : ℕ) (p : Peer) (controlling : Bool) :
    Same h (h.buildAgent env now p controlling).1 := by
  unfold buildAgent
  simp only
  split
  · exact ⟨rfl,rfl,rfl⟩
  · split <;> exact ⟨rfl,rfl,rfl⟩

theorem buildAgent_peer (env : Env) (h : State) (now : ℕ) (p : Peer) (controlling : Bool) :
    let r:=h.buildAgent env now p controlling
    r.2.1.gen=p.gen ∧ r.2.1.abandoned=p.abandoned ∧ (r.2.2=false → r.2.1.agent=none) ∧
      (r.2.2 → ∃ a,r.2.1.agent=some a ∧ a.frozen=false) := by
  unfold buildAgent
  simp only
  split
  · exact ⟨rfl,rfl,fun _ => rfl,nofun⟩
  next a ha =>
  split
  · exact ⟨rfl,rfl,fun _ => rfl,nofun⟩
  refine ⟨rfl,rfl,nofun,fun _ => ⟨_,rfl,?_⟩⟩
  rw [startGathering_frozen]
  exact create_frozen ha

theorem feed_same (h : State) (p : Peer) (sig : Signal) : Same h (h.feed env p sig).1 := by
  unfold feed
  split
  · exact .refl h
  · split <;> exact ⟨rfl,rfl,rfl⟩

theorem feed_peer (env : Env) (h : State) (p : Peer) (sig : Signal) : let r:=h.feed env p sig
    r.2.gen=p.gen ∧ r.2.abandoned=p.abandoned ∧ (∀ a,p.agent=some a → a.frozen → r.2.agent=some a) ∧
      (∀ a,p.agent=some a → a.frozen=false → ∃ a',r.2.agent=some a' ∧ a'.frozen=false) := by
  unfold feed
  split
  · next hnone =>
    refine ⟨rfl,rfl,fun a ha => ?_,fun a ha => ?_⟩ <;>
    · rw [hnone] at ha
      cases ha
  next a ha =>
  split
  · next hf =>
    refine ⟨rfl,rfl,fun b hb _ => hb,fun b hb hnot => ?_⟩
    rw [ha] at hb
    cases hb
    rw [hf] at hnot
    cases hnot
  next hf =>
  refine ⟨rfl,rfl,fun b hb hfb => ?_,fun b hb hnot => ⟨_,rfl,?_⟩⟩
  · rw [ha] at hb
    cases hb
    exact absurd hfb hf
  · rw [ha] at hb
    cases hb
    rw [pushSignal_frozen]
    exact hnot

theorem applyTo_same (h : State) (now : ℕ) (p : Peer) (sig : Signal) :
    Same h (h.applyTo env now p sig).1 := by
  unfold applyTo
  simp only
  split
  · split
    · exact .refl h
    split
    · exact .refl h
    split
    · have hbuild:=buildAgent_same env h now p false
      split
      · next heq =>
        rw [heq] at hbuild
        exact hbuild
      next heq =>
      rw [heq] at hbuild
      exact hbuild.trans (feed_same env _ _ sig)
    · exact feed_same env h _ sig
  · split
    · exact .refl h
    · exact feed_same env h p sig

theorem applyTo_good (now : ℕ) (sig : Signal) (hp : p.Good) (ha : p.agent.isSome) :
    Delivery.Good ⟨h.role,p,sig,(h.applyTo env now p sig).2⟩ ∧
      (h.applyTo env now p sig).2.Good := by
  unfold applyTo
  simp only
  by_cases hsdp : h.role=.host ∧ sig.type=.remoteSdp
  · rw [if_pos hsdp]
    by_cases hzero : sig.flag.toNat=0
    · rw [if_pos hzero]
      exact ⟨⟨ha,hp,fun hr => absurd hzero hr.stamped,fun _ a ha' _ => ha',fun _ _ _ => rfl⟩,hp⟩
    rw [if_neg hzero]
    by_cases hcur : sig.flag.toNat=p.gen
    · rw [if_pos hcur]
      exact ⟨⟨ha,hp,fun hr => absurd hcur hr.other,fun _ a ha' _ => ha',fun _ _ _ => rfl⟩,hp⟩
    rw [if_neg hcur]
    by_cases hbound : p.gen≠0
    · -- A new agent is built first.
      rw [if_pos hbound]
      have hrebinds : ∀ p',Delivery.Rebinds ⟨h.role,p,sig,p'⟩ :=
        fun p' => ⟨hsdp.1,hsdp.2,hzero,hcur,hbound⟩
      obtain ⟨hgen,hab,hnone,hsome⟩ := buildAgent_peer env h now p false
      generalize h.buildAgent env now p false=r at hgen hab hnone hsome
      obtain ⟨h',p',ok⟩ := r
      simp only at hgen hab hnone hsome
      have hp' : p'.Good := hp.frame hgen hab
      cases ok with
      | false =>
        exact ⟨⟨ha,hp,fun _ => .inl (hnone rfl),fun hno => absurd (hrebinds _) hno,
          fun hno => absurd (hrebinds _) hno⟩,hp'⟩
      | true =>
        obtain ⟨a,hagent,hfresh⟩ := hsome rfl
        obtain ⟨hfgen,hfab,-,hffresh⟩ := feed_peer env h' (p'.bind sig.flag.toNat) sig
        refine ⟨⟨ha,hp,fun _ => .inr ⟨hfgen,hffresh a hagent hfresh⟩,
          fun hno => absurd (hrebinds _) hno,fun hno => absurd (hrebinds _) hno⟩,?_⟩
        exact (hp'.bind hzero).frame hfgen hfab
    · -- The first description: the agent was built for it.
      rw [if_neg hbound]
      obtain ⟨hfgen,hfab,hffrozen,-⟩ := feed_peer env h (p.bind sig.flag.toNat) sig
      exact ⟨⟨ha,hp,fun hr => absurd hr.bound hbound,fun _ a ha' hf => hffrozen a ha' hf,
        fun _ _ hb => absurd hb hbound⟩,(hp.bind hzero).frame hfgen hfab⟩
  · rw [if_neg hsdp]
    have hno : ∀ p',¬ Delivery.Rebinds ⟨h.role,p,sig,p'⟩ := fun p' hr => hsdp ⟨hr.host,hr.sdp⟩
    by_cases hcur : sig.flag.toNat≠p.gen
    · rw [if_pos hcur]
      exact ⟨⟨ha,hp,fun hr => absurd hr (hno _),fun _ a ha' _ => ha',fun _ _ _ => rfl⟩,hp⟩
    rw [if_neg hcur]
    obtain ⟨hfgen,hfab,hffrozen,-⟩ := feed_peer env h p sig
    exact ⟨⟨ha,hp,fun hr => absurd hr (hno _),fun _ a ha' hf => hffrozen a ha' hf,
      fun _ hb _ => absurd hb hcur⟩,hp.frame hfgen hfab⟩

structure Good (h : State) : Prop where
  peers : ∀ i p,h.peer i=some p → p.Good
  log : ∀ d∈h.log,d.Good

theorem Good.same {h' : State} (hg : h.Good) (hs : Same h h') : h'.Good :=
  ⟨by rw [hs.peer]; exact hg.peers,by rw [hs.log]; exact hg.log⟩

theorem Good.setPeer (hg : h.Good) (i : Fin 8) {b : Option Peer} (hb : ∀ p∈b,p.Good) :
    (h.setPeer i b).Good := by
  refine ⟨fun j q hq => ?_,hg.log⟩
  change Function.update h.peer i b j=some q at hq
  by_cases hj : j=i
  · subst hj
    rw [Function.update_self] at hq
    exact hb q hq
  · rw [Function.update_of_ne hj] at hq
    exact hg.peers j q hq

theorem Good.dropPeer (hg : h.Good) (i : Fin 8) : (h.setPeer i none).Good :=
  hg.setPeer i fun q hq => by cases hq

theorem Good.of_empty (hnone : h.peer=fun _ => none) (hlog : ∀ d∈h.log,d.Good) : h.Good := by
  refine ⟨fun i p hp => ?_,hlog⟩
  rw [hnone] at hp
  cases hp

theorem Good.apply (hg : h.Good) (env : Env) (now : ℕ) (i : Fin 8) (sig : Signal) :
    (State.apply env now h i sig).Good := by
  unfold State.apply
  split
  · exact hg
  next p hp =>
  split
  · exact hg
  next ha =>
  have ha' : p.agent.isSome := by
    simpa [Option.isNone_iff_eq_none,Option.isSome_iff_ne_none] using ha
  obtain ⟨hdel,hafter⟩ := applyTo_good (h := h) env now sig (hg.peers i p hp) ha'
  have hsame:=applyTo_same env h now p sig
  generalize h.applyTo env now p sig=r at hdel hafter hsame
  have hset:=(hg.same hsame).setPeer i (b := some r.2) fun q hq => by cases hq; exact hafter
  refine ⟨hset.peers,fun d hd => ?_⟩
  rcases List.mem_append.mp hd with hold | hnew
  · exact (hg.same hsame).log d hold
  · rw [List.mem_singleton.mp hnew,hsame.role]
    exact hdel

theorem Good.foldl {β : Type} {f : State → β → State} (hf : ∀ h b,Good h → Good (f h b))
    (l : List β) (hg : h.Good) : (l.foldl f h).Good := by
  induction l generalizing h with
  | nil => exact hg
  | cons b l ih => exact ih (hf h b hg)

theorem Good.replayHold (hg : h.Good) (env : Env) (now : ℕ) (i : Fin 8) :
    (h.replayHold env now i).Good := by
  unfold State.replayHold
  split
  · exact hg
  · refine Good.same (Good.foldl (f := fun h (e : HoldEntry) => State.apply env now h i e.sig)
      (fun h e hg => hg.apply env now i e.sig) _ hg) ⟨rfl,rfl,rfl⟩

theorem sendReport_same (h : State) (path : Path) (ice : List UInt8) :
    Same h (h.sendReport path ice).1 := by
  unfold sendReport
  split <;> exact ⟨rfl,rfl,rfl⟩

theorem nextGen_ne_zero (g : ℕ) : nextGen g≠0 := by
  unfold nextGen
  split <;> omega

theorem guestReport_good (now : ℕ) (hp : p.Good) (a : Agent) :
    Same h (h.guestReport env now p a).1 ∧ (h.guestReport env now p a).2.Good := by
  have hkeep : ∀ q : Peer,q.gen=p.gen → q.abandoned=p.abandoned → q.Good :=
    fun q hgen hab => hp.frame hgen hab
  unfold guestReport
  split
  · split
    · simp only
      split <;>
      · next heq =>
        refine ⟨?_,hkeep _ rfl rfl⟩
        have hsend:=sendReport_same h .direct
          (if env.path h.calls=Xfer.ascii "host" ∨ env.path h.calls=Xfer.ascii "srflx" ∨
            env.path h.calls=Xfer.ascii "prflx" then env.path h.calls else [])
        rw [heq] at hsend
        exact hsend
    · exact ⟨.refl h,hp⟩
  split
  · split
    · simp only
      split
      · have hsend:=sendReport_same h .fail []
        split <;>
        · next heq =>
          rw [heq] at hsend
          exact ⟨hsend,hkeep _ rfl rfl⟩
      · exact ⟨.refl h,hkeep _ rfl rfl⟩
    split
    · have hbuild:=buildAgent_same env h now p true
      obtain ⟨hgen,hab,-,-⟩ := buildAgent_peer env h now p true
      split <;>
      · next heq =>
        rw [heq] at hbuild hgen hab
        refine ⟨hbuild,?_⟩
        first
          | exact (hkeep _ hgen hab).bind (nextGen_ne_zero _)
          | exact hkeep _ hgen hab
    · exact ⟨.refl h,hp⟩
  · exact ⟨.refl h,hp⟩

section

variable (env : Env)

section
variable (hg : h.Good)
include hg
theorem Good.reconcile (now : ℕ) (v : View) (peers : List ViewPeer) (i : Fin 8) :
    (State.reconcile env now v peers h i).Good := by
  unfold State.reconcile
  split
  · exact hg
  next p hp =>
  split
  · exact hg.dropPeer i
  next w _ =>
  split
  · have hseat:=hg.setPeer i
      (b := some { p with slot := w.slot,localSlot := v.localSlot }) fun q hq => by
        cases hq
        exact (hg.peers i p hp).frame rfl rfl
    have hreplay:=hseat.replayHold env now i
    refine hreplay.setPeer i fun q hq => ?_
    obtain ⟨q',hq',rfl⟩ := Option.mem_map.mp hq
    exact (hreplay.peers i q' hq').frame rfl rfl
  · exact hg

theorem Good.addPeer (now : ℕ) (v : View) (w : ViewPeer) : (State.addPeer env now v h w).Good := by
  unfold State.addPeer
  split
  · exact hg
  split
  · exact hg
  split
  · split
    · have hsend:=sendReport_same h .fail []
      split <;>
      · next heq =>
        rw [heq] at hsend
        exact (hg.same hsend).same ⟨rfl,rfl,rfl⟩
    · exact hg
  split
  · exact hg
  next pid _ _ _ _ i _ =>
  simp only
  generalize hq : newPeer pid w.slot v.localSlot (if h.role=.guest then nextGen 0 else 0)=q
  have hnew : q.Good := by
    rw [← hq]
    exact ⟨List.forall_mem_nil _,fun hne => absurd rfl hne⟩
  have hbuild:=buildAgent_same env h now q (decide (h.role=.guest))
  obtain ⟨hgen,hab,-,-⟩ := buildAgent_peer env h now q (decide (h.role=.guest))
  split
  · next heq =>
    rw [heq] at hbuild
    exact hg.same hbuild
  next heq =>
  rw [heq] at hbuild hgen hab
  refine Good.replayHold ((hg.same hbuild).setPeer i fun r hr => ?_) env now i
  cases hr
  exact hnew.frame hgen hab

theorem Good.drive (now : ℕ) (i : Fin 8) : (State.drive env now h i).Good := by
  unfold State.drive
  split
  · exact hg
  next p hp =>
  split
  · exact hg
  next a _ =>
  simp only
  generalize (if a.poll.state=.completed then { a.poll with frozen := true } else a.poll)=a'
  have hp' : Peer.Good { p with agent := some a' } := (hg.peers i p hp).frame rfl rfl
  have hforward : Same h (h.forward p a a.poll) := ⟨rfl,rfl,rfl⟩
  have hg':=hg.same hforward
  generalize h.forward p a a.poll=h' at hg'
  split
  · obtain ⟨hsame,hpeer⟩ := guestReport_good (h := h') env now hp' a'
    exact (hg'.same hsame).setPeer i fun q hq => by cases hq; exact hpeer
  · exact hg'.setPeer i fun q hq => by cases hq; exact hp'

theorem Good.update (v : Option View) (now : ℕ) : (h.update env v now).Good := by
  unfold State.update
  split
  · exact .of_empty rfl hg.log
  next v peers _ =>
  have hadopt : (h.adopt v peers).Good := by
    unfold adopt
    simp only
    generalize (if v.isHost then Role.host else Role.guest)=role
    by_cases hrole : role≠h.role
    · rw [if_pos hrole]
      exact .of_empty rfl hg.log
    · rw [if_neg hrole]
      exact hg.same ⟨rfl,rfl,rfl⟩
  have hkept:=Good.foldl (fun h i hg => hg.reconcile env now v peers i) (List.finRange 8) hadopt
  have hadded:=Good.foldl (fun h w hg => hg.addPeer env now v w) (peers.take 8) hkept
  exact (Good.foldl (fun h i hg => hg.drive env now i) (List.finRange 8) hadded).same ⟨rfl,rfl,rfl⟩

theorem Good.pushSignal (memory : Bool) (now : ℕ) (pid : List UInt8)
    (slot wireType flag : ℤ) (text : List UInt8) :
    (h.pushSignal env memory now pid slot wireType flag text).Good := by
  unfold State.pushSignal
  split
  · exact hg.same ⟨rfl,rfl,rfl⟩
  split
  · exact hg.same ⟨rfl,rfl,rfl⟩
  split
  · exact hg.same ⟨rfl,rfl,rfl⟩
  simp only
  split
  · split
    · exact hg.apply env now _ _
    · exact hg.same ⟨rfl,rfl,rfl⟩
  · exact hg.same ⟨rfl,rfl,rfl⟩

theorem Good.call (c : Call) : (h.call env c).Good := by
  cases c with
  | update v now => exact hg.update env v now
  | pushSignal memory now pid slot wireType flag text => exact hg.pushSignal ..
  | takeCompleted pid =>
    change (h.takeCompleted pid).Good
    unfold takeCompleted
    split
    · exact hg
    split
    · exact hg.dropPeer _
    · exact hg
  | callback i cb =>
    refine hg.setPeer i fun q hq => ?_
    obtain ⟨q',hq',rfl⟩ := Option.mem_map.mp hq
    exact (hg.peers i q' hq').frame rfl rfl

end

end

theorem run_good (cs : List Call) : (run env cs).Good := by
  refine Good.foldl (fun h c hg => hg.call env c) cs ?_
  exact .of_empty rfl (List.forall_mem_nil _)

theorem pushSignal_peer (env : Env) (h : State) (memory : Bool) (now : ℕ) (pid : List UInt8)
    (slot wireType flag : ℤ) (text : List UInt8) {i : Fin 8} {p : Peer} (hp : h.peer i=some p) :
    let h':=h.pushSignal env memory now pid slot wireType flag text
    h'.peer i=some p ∨ ∃ d,h'.log=h.log++[d] ∧ d.before=p ∧ h'.peer i=some d.after := by
  have happly : ∀ (j : Fin 8) (sig : Signal),(apply env now h j sig).peer i=some p ∨
      ∃ d,(apply env now h j sig).log=h.log++[d] ∧ d.before=p ∧
        (apply env now h j sig).peer i=some d.after := by
    intro j sig
    unfold apply
    split
    · exact .inl hp
    next q hq =>
    split
    · exact .inl hp
    have hsame:=applyTo_same env h now q sig
    generalize h.applyTo env now q sig=r at hsame
    by_cases hj : i=j
    · subst hj
      obtain rfl : p=q := Option.some.inj (hp.symm.trans hq)
      refine .inr ⟨⟨r.1.role,p,sig,r.2⟩,?_,rfl,?_⟩
      · change r.1.log++_=_
        rw [hsame.log]
      · exact Function.update_self ..
    left
    change Function.update r.1.peer j (some r.2) i=some p
    rw [Function.update_of_ne hj,hsame.peer]
    exact hp
  unfold pushSignal
  simp only
  split
  · exact .inl hp
  split
  · exact .inl hp
  split
  · exact .inl hp
  split
  · split
    · exact happly _ _
    · exact .inl hp
  · exact .inl hp

end State

/-- A frozen link survives a signal unless the signal rebinds it. -/
theorem link_kept_iff (env : Env) (cs : List State.Call) :
    (∀ d∈(State.run env cs).log,(∀ a,d.before.agent=some a → a.frozen=true →
        (d.after.agent=some a ↔ ¬ d.Rebinds)) ∧
      (d.Stale → (d.after.agent=d.before.agent ∧ d.after.gen=d.before.gen ↔
        ¬ (d.role=.host ∧ d.sig.type=.remoteSdp)))) ∧
    ∀ (memory : Bool) (now : ℕ) (pid : List UInt8) (slot wireType flag : ℤ) (text : List UInt8)
      (i : Fin 8) (p : Peer),(State.run env cs).peer i=some p →
      let h:=(run env cs).pushSignal env memory now pid slot wireType flag text
      h.peer i=some p ∨ ∃ d,h.log=(run env cs).log++[d] ∧ d.before=p ∧ h.peer i=some d.after := by
  refine ⟨fun d hd => ?_,fun memory now pid slot wireType flag text i p hp =>
    pushSignal_peer env _ memory now pid slot wireType flag text hp⟩
  have hgood:=(run_good env cs).log d hd
  refine ⟨fun a ha hf => ⟨fun hsame hr => ?_,fun hno => hgood.frozen hno a ha hf⟩,fun hstale => ?_⟩
  · rcases hgood.rebinds hr with hnone | ⟨-,a',ha',hfresh⟩
    · rw [hnone] at hsame
      cases hsame
    rw [ha'] at hsame
    cases hsame
    rw [hf] at hfresh
    cases hfresh
  · have hzero:=hgood.peer.bound _ hstale.left
    have hbound:=hgood.peer.current (List.ne_nil_of_mem hstale.left)
    constructor
    · rintro ⟨hagent,hgen⟩ ⟨hhost,hsdp⟩
      rcases hgood.rebinds ⟨hhost,hsdp,hzero,hstale.other,hbound⟩ with hnone | ⟨hnew,-⟩
      · have hsome:=hgood.agent
        rw [← hagent,hnone] at hsome
        cases hsome
      · exact hstale.other (hnew.symm.trans hgen)
    · intro hno
      have hsame:=hgood.idle (fun hr => hno ⟨hr.host,hr.sdp⟩) hstale.other hbound
      rw [hsame]
      exact ⟨rfl,rfl⟩

def plainEnv : Env := ⟨fun _ => ⟨true,true,none,true⟩,fun _ => [],true⟩
def oneGuest : State.View := ⟨true,true,0,some [⟨some (Xfer.ascii "g"),1⟩],true,true⟩
def fromGuest (wireType flag : ℤ) : State.Call :=
  .pushSignal true 0 (Xfer.ascii "g") 1 wireType flag (Xfer.ascii "v=0")

def linked : List State.Call :=
  [.update (some oneGuest) 0,fromGuest 131 1,.callback 0 (.stateChanged .completed),
    .update (some oneGuest) 1]

theorem link_kept_candidate :
    ((State.run plainEnv (linked++[fromGuest 133 1])).log.any fun d =>
      d.before.agent.any (·.frozen) && decide (d.sig.type=.remoteCandidate))=true ∧
    ∀ d∈(State.run plainEnv (linked++[fromGuest 133 1])).log,
      d.sig.type=.remoteCandidate → ∀ a,d.before.agent=some a → a.frozen=true →
        d.after.agent=some a := by
  refine ⟨by decide +kernel,fun d hd htype a ha hf => ?_⟩
  refine (((link_kept_iff plainEnv _).1 d hd).1 a ha hf).mpr fun hr => ?_
  rw [hr.sdp] at htype
  cases htype

theorem linked_agent_replaced :
    (∃ d∈(State.run plainEnv (linked++[fromGuest 131 2])).log,
      d.before.agent.any (·.frozen)=true ∧ d.after.agent≠d.before.agent) ∧
    ∃ d∈(State.run plainEnv (linked++[fromGuest 131 2,fromGuest 131 1])).log,
      d.sig.flag.toNat∈d.before.abandoned ∧ d.before.gen=2 ∧ d.after.gen=1 := by
  decide +kernel

end RecompNet.HostIce
