import RecompNet.Chat.FilterText

/-!
# Disguised entries

Repeated letters and separators do not hide an entry.
-/
namespace RecompNet.Chat
open List
variable {words : List Word} {before : Option ℕ} {cps pre body post : List ℕ} {pieces : List Piece}
theorem isLetter_of_isSeparator {c : ℕ} (h : isSeparator c) : isLetter c=false := by
  simp only [isSeparator,Bool.or_eq_true,decide_eq_true_eq] at h
  rcases h with (((((((h | h) | h) | h) | h) | h) | h) | h) | h <;> subst h <;> decide

/-- The line is the entry as runs, one for each of its letters, with separators between them. With
`once`, a letter that the entry doubles is written once before its double. -/
inductive Written (once : Prop) : List ℕ → List ℕ → Prop
  | last {l : ℕ} {run : List ℕ} (ne : run≠[]) (folds : ∀ c∈run,fold c=l) : Written once [l] run
  | more {l next : ℕ} {rest run gap line : List ℕ} (ne : run≠[])
      (folds : ∀ c∈run,fold c=l) (gaps : ∀ c∈gap,isSeparator (fold c))
      (single : once → next=l → run.length=1) (tail : Written once (next::rest) line) :
      Written once (l::next::rest) (run++(gap++line))

variable {l : ℕ}
theorem Written.head {once : Prop} {rest : List ℕ} (h : Written once (l::rest) body) :
    ∃ c t,body=c::t ∧ fold c=l := by
  cases h with
  | last ne folds =>
    obtain ⟨c,t,rfl⟩ := exists_cons_of_ne_nil ne
    exact ⟨c,t,rfl,folds c mem_cons_self⟩
  | more ne folds =>
    obtain ⟨c,t,rfl⟩ := exists_cons_of_ne_nil ne
    exact ⟨c,_,rfl,folds c mem_cons_self⟩

theorem dropWhile_run {α : Type} {p : α → Bool} {a b : List α} (ha : ∀ x∈a,p x)
    (hb : ∀ x∈b.head?,p x=false) : (a++b).dropWhile p=b := by
  rw [dropWhile_append_of_pos ha]
  cases b with
  | nil => rfl
  | cons x b => exact dropWhile_cons_of_neg (by rw [hb x rfl]; exact Bool.false_ne_true)

variable {first : Bool} {gap : List ℕ}

/-- One round of the loop: the separators before a run and the run are used up. -/
theorem walk_run {more run t : List ℕ} (hl : isLetter l)
    (hfirst : first → gap=[]) (hgap : ∀ c∈gap,isSeparator (fold c))
    (hne : run≠[]) (hrun : ∀ c∈run,fold c=l) (hsame : more.head? = some l → run.length=1)
    (hstop : more.head? ≠ some l → ∀ c∈t.head?,fold c≠l) :
    walk fold true first (l::more) (gap++(run++t))=walk fold true false more t := by
  obtain ⟨c,run,rfl⟩ := exists_cons_of_ne_nil hne
  have hc : fold c=l := hrun c mem_cons_self
  have hskip : (if !first && true then (gap++(c::run++t)).dropWhile
      (fun a => isSeparator (fold a)) else gap++(c::run++t))=c::(run++t) := by
    cases first with
    | true => rw [hfirst rfl]; rfl
    | false =>
      refine dropWhile_run hgap fun x hx => ?_
      cases hx
      by_contra hsep
      have hnot:=isLetter_of_isSeparator (Bool.eq_true_of_not_eq_false hsep)
      rw [hc,hl] at hnot
      cases hnot
  rw [walk,hskip]
  dsimp only
  rw [if_pos hc]
  split
  · next hmore =>
    obtain rfl : run=[] := eq_nil_of_length_eq_zero (Nat.succ.inj (hsame hmore))
    rfl
  next hmore =>
  rw [dropWhile_run (fun x hx => decide_eq_true (hrun x (mem_cons_of_mem c hx)))
    fun x hx => decide_eq_false (hstop hmore x hx)]

theorem walk_written (h : Written True cps body) (hl : ∀ l∈cps,isLetter l)
    (hpost : ∀ c∈post.head?,isLetter (fold c)=false)
    (hfirst : first → gap=[]) (hgap : ∀ c∈gap,isSeparator (fold c)) :
    walk fold true first cps (gap++(body++post))=some post := by
  induction h generalizing first gap with
  | last ne folds =>
    refine walk_run (hl _ mem_cons_self) hfirst hgap ne folds (fun h => by cases h)
      fun _ c hc heq => ?_
    have hnot:=hpost c hc
    rw [heq,hl _ mem_cons_self] at hnot
    cases hnot
  | @more l next rest run gap' line ne folds gaps single tail ih =>
    have hletter:=hl l mem_cons_self
    have hsame : (next::rest).head? = some l → run.length=1 :=
      fun hm => single trivial (Option.some.inj hm)
    rw [append_assoc,append_assoc,walk_run hletter hfirst hgap ne folds hsame ?_]
    · exact ih (fun l' hl' => hl l' (mem_cons_of_mem l hl')) (fun h => by cases h) gaps
    intro hm c hc heq
    cases gap' with
    | nil =>
      obtain ⟨d,t,rfl,hd⟩ := tail.head
      cases hc
      exact hm (by rw [List.head?_cons,← hd,heq])
    | cons d gap' =>
      cases hc
      have hnot:=isLetter_of_isSeparator (gaps c mem_cons_self)
      rw [heq,hletter] at hnot
      cases hnot

theorem Scan.length_masked {line : List ℕ} (h : Scan words before line pieces) :
    (pieces.flatMap Piece.masked).length=line.length := by
  rw [← h.cps_eq]
  simp [length_flatMap,Piece.length_masked]

/-- What no entry begins is kept. -/
theorem Scan.keeps {line : List ℕ} (h : Scan words before (pre++line) pieces)
    (hbefore : before.any isLetter=false)
    (hpre : ∀ c∈pre,isLetter c=false ∧ isLetter (fold c)=false) :
    ∃ b pieces',b.any isLetter=false ∧ Scan words b line pieces' ∧
      pieces.flatMap Piece.masked=pre++pieces'.flatMap Piece.masked := by
  induction pre generalizing before pieces with
  | nil => exact ⟨before,pieces,hbefore,h,rfl⟩
  | cons p pre ih =>
    obtain ⟨hletter,hfolded⟩ := hpre p mem_cons_self
    generalize hline : p::pre++line=whole at h
    cases h with
    | done => cases hline
    | kept none rest =>
      obtain ⟨rfl,rfl⟩ := List.cons.inj hline
      obtain ⟨b,pieces',hb,hscan,heq⟩ := ih rest hletter fun c hc => hpre c (mem_cons_of_mem p hc)
      refine ⟨b,pieces',hb,hscan,?_⟩
      rw [flatMap_cons,heq]
      rfl
    | hit here =>
      subst hline
      obtain ⟨a,t,heq,hl,-⟩ := here
      obtain ⟨rfl,-⟩ := List.cons.inj heq
      rw [hfolded] at hl
      cases hl

/-- Nothing of a match is kept. -/
theorem Scan.masks {w : Word} (h : Scan words before (body++post) pieces)
    (hm : Matches id fold words before (body++post)) (hw : w∈words)
    (hend : matchAt id fold before (body++post) w=some post) : ∃ post',post'.length=post.length ∧
      pieces.flatMap Piece.masked=List.replicate body.length star++post' := by
  generalize hline : body++post=line at h hm hend
  cases h with
  | done =>
    obtain ⟨a,t,hnil,-⟩ := hm
    cases hnil
  | kept none => exact absurd hm none
  | @hit _ _ run tail pieces here longest split rest =>
    have hle:=longest.longest w hw post hend
    have hlen:=congrArg List.length hline
    have hsplit:=congrArg List.length split
    have htail:=rest.length_masked
    rw [length_append] at hlen hsplit
    refine ⟨List.replicate (run.length-body.length) star++pieces.flatMap Piece.masked,?_,?_⟩
    · rw [length_append,length_replicate]
      omega
    · rw [← append_assoc,replicate_append_replicate,Nat.add_sub_cancel' (by omega)]
      rfl

/-- One more character of a line: how often the letter has changed so far, and the last one. -/
def turn (s : ℕ × ℕ) (c : ℕ) : ℕ × ℕ :=
  if isSeparator c then s else (if c=s.2 then s.1 else s.1+1,c)

theorem turn_letter {l : ℕ} (hl : isLetter l) (s : ℕ × ℕ) :
    turn s l=(if l=s.2 then s.1 else s.1+1,l) := by
  unfold turn
  rw [if_neg fun h => ?_]
  have hnot:=isLetter_of_isSeparator h
  rw [hl] at hnot
  cases hnot

theorem le_turns (t : List ℕ) (s : ℕ × ℕ) : s.1≤(t.foldl turn s).1 := by
  induction t generalizing s with
  | nil => exact le_rfl
  | cons c t ih =>
    refine le_trans ?_ (ih (turn s c))
    unfold turn
    split
    · exact le_rfl
    · dsimp only
      split <;> omega

theorem turns_run {run : List ℕ} (hl : isLetter l) (hne : run≠[]) (hrun : ∀ c∈run,fold c=l)
    (s : ℕ × ℕ) : (run.map fold).foldl turn s=turn s l := by
  obtain ⟨c,run,rfl⟩ := exists_cons_of_ne_nil hne
  rw [map_cons,foldl_cons,hrun c mem_cons_self,turn_letter hl]
  generalize (if l=s.2 then s.1 else s.1+1)=n
  induction run with
  | nil => rfl
  | cons d run ih =>
    rw [map_cons,foldl_cons,hrun d (by simp),turn_letter hl]
    dsimp only
    rw [if_pos rfl]
    refine ih (cons_ne_nil _ _) fun x hx => hrun x ?_
    rcases mem_cons.mp hx with rfl | hx
    · exact mem_cons_self
    · exact mem_cons_of_mem _ (mem_cons_of_mem _ hx)

theorem turns_gap (hgap : ∀ c∈gap,isSeparator (fold c)) (s : ℕ × ℕ) :
    (gap.map fold).foldl turn s=s := by
  induction gap with
  | nil => rfl
  | cons c gap ih =>
    rw [map_cons,foldl_cons,turn,if_pos (hgap c mem_cons_self)]
    exact ih fun x hx => hgap x (mem_cons_of_mem c hx)

/-- A written entry changes its letter as often as the entry. -/
theorem Written.turns {once : Prop} (h : Written once cps body) (hl : ∀ l∈cps,isLetter l)
    (s : ℕ × ℕ) : (body.map fold).foldl turn s=cps.foldl turn s := by
  induction h generalizing s with
  | last ne folds => exact turns_run (hl _ mem_cons_self) ne folds s
  | more ne folds gaps _ _ ih =>
    rw [map_append,foldl_append,turns_run (hl _ mem_cons_self) ne folds,map_append,
      foldl_append,turns_gap gaps,ih fun l' hl' => hl l' (mem_cons_of_mem _ hl')]
    rfl

/-- What follows an entry inside a longer spelling of it is a separator or its last letter. -/
theorem Written.overrun {run rest : List ℕ} {c : ℕ} (hrun : Written True cps run)
    (hbody : Written False cps (run++c::rest)) (hl : ∀ l∈cps,isLetter l) (s : ℕ × ℕ) :
    isSeparator (fold c) ∨ fold c=(cps.foldl turn s).2 := by
  have hall:=hbody.turns hl s
  rw [map_append,foldl_append,hrun.turns hl s,map_cons,foldl_cons] at hall
  by_contra hnot
  obtain ⟨hsep,hlast⟩ := not_or.mp hnot
  have hle:=le_turns (rest.map fold) (turn (cps.foldl turn s) (fold c))
  rw [hall,turn,if_neg hsep,if_neg hlast] at hle
  exact absurd hle (Nat.not_succ_le_self _)

theorem Written.mem_letter {once : Prop} (h : Written once cps body) (hl : ∀ l∈cps,isLetter l) :
    ∃ c,body.getLast? = some c ∧ isLetter (fold c) := by
  induction h with
  | @last l run ne folds =>
    refine ⟨run.getLast ne,getLast?_eq_getLast_of_ne_nil ne,?_⟩
    rw [folds _ (getLast_mem ne)]
    exact hl l mem_cons_self
  | @more l next rest run gap line _ _ _ _ _ ih =>
    obtain ⟨c,hc,hletter⟩ := ih fun l' hl' => hl l' (mem_cons_of_mem _ hl')
    refine ⟨c,?_,hletter⟩
    rw [← append_assoc,getLast?_append,hc]
    rfl

/-- What the loop of `match_at` uses up is the entry, written so that it is caught. -/
theorem written_of_walk {t rest : List ℕ} (hne : cps≠[]) (hl : ∀ l∈cps,isLetter l)
    (h : walk fold true first cps t=some rest) : ∃ gap body,t=gap++(body++rest) ∧ (first → gap=[]) ∧
      (∀ c∈gap,isSeparator (fold c)) ∧ Written True cps body ∧
      ∀ s,∀ c∈rest.head?,fold c≠(cps.foldl turn s).2 := by
  induction cps generalizing first t with
  | nil => exact absurd rfl hne
  | cons want more ih =>
    rw [walk] at h
    split at h
    · cases h
    next a t' hskip =>
    split at h
    swap
    · cases h
    next ha =>
    obtain ⟨gap,rfl,hfirst,hgap⟩ : ∃ gap,t=gap++a::t' ∧ (first → gap=[]) ∧
        ∀ c∈gap,isSeparator (fold c) := by
      cases first with
      | true => exact ⟨[],hskip,fun _ => rfl,forall_mem_nil _⟩
      | false =>
        have hdrop : t.dropWhile (fun a => isSeparator (fold a))=a::t' := hskip
        refine ⟨t.takeWhile fun a => isSeparator (fold a),?_,fun h => absurd h Bool.false_ne_true,
          fun c hc => mem_takeWhile_imp (p := fun a => isSeparator (fold a)) hc⟩
        rw [← hdrop,takeWhile_append_dropWhile]
    refine ⟨gap,?_⟩
    -- the run: one character if the entry goes on with the same letter, else all its repeats
    obtain ⟨run,t'',rfl,hrun,hsame,hstop,hrest⟩ : ∃ run t'',t'=run++t'' ∧
        (∀ c∈run,fold c=want) ∧ (more.head? = some want → run=[]) ∧
        (more.head? ≠ some want → ∀ c∈t''.head?,fold c≠want) ∧
        walk fold true false more t''=some rest := by
      split at h
      · next hm => exact ⟨[],t',rfl,forall_mem_nil _,fun _ => rfl,fun hn => absurd hm hn,h⟩
      next hm =>
      refine ⟨t'.takeWhile fun a => decide (fold a=want),_,(takeWhile_append_dropWhile ..).symm,
        fun c hc => of_decide_eq_true (mem_takeWhile_imp (p := fun a => decide (fold a=want)) hc),
        fun hn => absurd hn hm,fun _ c hc hwant => ?_,h⟩
      have hnot:=head?_dropWhile_not (fun a => decide (fold a=want)) t'
      rw [hc] at hnot
      simp [hwant] at hnot
    have hletter:=hl want mem_cons_self
    have hruns : ∀ c∈a::run,fold c=want := forall_mem_cons.mpr ⟨ha,hrun⟩
    cases more with
    | nil =>
      cases hrest
      refine ⟨a::run,rfl,hfirst,hgap,.last (cons_ne_nil _ _) hruns,fun s c hc => ?_⟩
      rw [foldl_cons,turn_letter hletter]
      exact hstop (by simp) c hc
    | cons next more =>
      obtain ⟨gap',body,rfl,-,hgap',hbody,hend⟩ :=
        ih (cons_ne_nil _ _) (fun l' hl' => hl l' (mem_cons_of_mem _ hl')) hrest
      refine ⟨(a::run)++(gap'++body),by simp,hfirst,hgap,
        .more (cons_ne_nil _ _) hruns hgap' (fun _ hn => ?_) hbody,fun s => hend (turn s want)⟩
      rw [hsame (by rw [hn]; rfl)]
      rfl

theorem encode_star_head {c : ℕ} {a b : List UInt8} (hc : c<0x110000)
    (h : Utf8.encode c++a=Utf8.encode star++b) : c=star := by
  have hread:=Utf8.decode_encode hc a
  rw [h,Utf8.decode_encode (by decide)] at hread
  exact (congrArg Prod.fst (Option.some.inj hread)).symm

/-- A scan that shows asterisks for the whole body masks a match that begins with it. -/
theorem Scan.written_of_masked {w : Word} {post' : List ℕ}
    (h : Scan [w] before (body++post) pieces) (hlong : 4≤w.cps.length)
    (hl : ∀ l∈w.cps,isLetter l) (hbody : Written False w.cps body) (hstar : star∉body)
    (hscalar : ∀ c∈body,c<0x110000) (hpost : ∀ c∈post,isLetter (fold c)=false)
    (hmasked : (pieces.flatMap Piece.masked).flatMap Utf8.encode =
      (List.replicate body.length star++post').flatMap Utf8.encode) : Written True w.cps body := by
  obtain ⟨l,ls,hcps⟩ := exists_cons_of_ne_nil w.some
  obtain ⟨c,t,hct,-⟩ := Written.head (hcps ▸ hbody)
  generalize hline : body++post=line at h
  cases h with
  | done => rw [hct] at hline; cases hline
  | kept none rest =>
    -- the first character would be shown
    rw [hct,cons_append] at hline
    obtain ⟨rfl,-⟩ := List.cons.inj hline
    rw [hct,length_cons,replicate_succ,cons_append,flatMap_cons,flatMap_append,flatMap_cons]
      at hmasked
    have hc : c∈body := hct ▸ mem_cons_self
    have hkept : (Piece.kept c).masked.flatMap Utf8.encode=Utf8.encode c := by
      simp [Piece.masked]
    rw [hkept] at hmasked
    exact absurd (encode_star_head (hscalar c hc) hmasked ▸ hc) hstar
  | @hit _ _ run tail pieces' here longest split rest =>
    obtain ⟨w',hw',r,hmatch,hlen⟩ := longest.found
    obtain rfl := mem_singleton.mp hw'
    have hwalk:=(matchAt_eq_some.mp hmatch).2.1
    rw [decide_eq_true hlong] at hwalk
    obtain ⟨gap,used,hused,hgap,-,hwritten,hend⟩ := written_of_walk w'.some hl hwalk
    rw [hgap rfl,nil_append] at hused
    obtain ⟨rfl,rfl⟩ : run=used ∧ tail=r := by
      have hboth:=split.symm.trans hused
      refine append_inj hboth ?_
      have := congrArg List.length hused
      rw [length_append] at this
      omega
    rcases Nat.lt_trichotomy run.length body.length with hlt | heq | hgt
    · -- the match ends inside the body, at a separator that is shown
      obtain ⟨m,rfl⟩ : ∃ m,body=run++m :=
        (prefix_of_prefix_length_le ⟨tail,split.symm⟩ ⟨post,hline⟩ hlt.le).imp fun _ h => h.symm
      rw [append_assoc,split] at hline
      have htail:=append_cancel_left hline
      obtain ⟨x,m,rfl⟩ : ∃ x m',m=x::m' := by
        refine exists_cons_of_ne_nil fun h => ?_
        rw [h,append_nil] at hlt
        exact lt_irrefl _ hlt
      have hx : x∈run++x::m := by simp
      rw [cons_append] at htail
      subst htail
      have hsep:=(hwritten.overrun hbody hl (0,0)).resolve_right (hend (0,0) x rfl)
      generalize hline' : x::(m++post)=line' at rest
      cases rest with
      | done => cases hline'
      | hit here' =>
        obtain ⟨y,_,hy,hly,-⟩ := here'
        obtain ⟨rfl,-⟩ := List.cons.inj (hline'.trans hy)
        rw [isLetter_of_isSeparator hsep] at hly
        cases hly
      | kept _ rest' =>
        obtain ⟨rfl,-⟩ := List.cons.inj hline'
        rw [flatMap_cons,flatMap_cons,length_append,← replicate_append_replicate,length_cons,
          replicate_succ,append_assoc] at hmasked
        simp only [Piece.masked,flatMap_append,flatMap_cons,flatMap_nil,cons_append] at hmasked
        exact absurd (encode_star_head (hscalar x hx) (append_cancel_left hmasked) ▸ hx) hstar
    · obtain ⟨rfl,-⟩ := append_inj (hline.trans split) heq.symm
      exact hwritten
    · -- the last letter of the match would stand behind the body
      obtain ⟨m,rfl⟩ : ∃ m,run=body++m :=
        (prefix_of_prefix_length_le ⟨post,hline⟩ ⟨tail,split.symm⟩ hgt.le).imp fun _ h => h.symm
      obtain ⟨x,hx,hletter⟩ := hwritten.mem_letter hl
      have hne : m≠[] := fun h => by
        rw [h,append_nil] at hgt
        exact lt_irrefl _ hgt
      rw [append_assoc] at split
      have hsplit:=append_cancel_left (hline.trans split)
      rw [getLast?_append_of_ne_nil _ hne] at hx
      rw [hpost x (hsplit ▸ mem_append_left _ (mem_of_getLast? hx))] at hletter
      cases hletter

/-- The result shows an asterisk for every character of the body. -/
def MasksBody (words : List Word) (cap : ℕ) (line : Line) (pre body post : List ℕ) : Prop :=
  ∃ post',post'.length=post.length ∧ (chatFilterApply words false cap line.text).1 =
    (pre++(List.replicate body.length star++post')).flatMap Utf8.encode

/-- **Documented disguises are caught**, if a letter that the entry doubles is written once before
its double; if no other entry is in the list and no separator is an asterisk, only then. -/
theorem disguise_masked (words : List Word) (w : Word) (hw : w∈words) (hlong : 4≤w.cps.length)
    (hletters : ∀ l∈w.cps,isLetter l=true) (line : Line) (pre body post : List ℕ)
    (hline : line.cps=pre++(body++post)) (hbody : Written False w.cps body)
    (hedges : ∀ c∈pre++post,isLetter c=false ∧ isLetter (fold c)=false) (cap : ℕ)
    (hcap : line.text.length<cap) :
    (Written True w.cps body → MasksBody words cap line pre body post) ∧
      (words=[w] → star∉body → MasksBody words cap line pre body post →
        Written True w.cps body) := by
  have hscalar (c : ℕ) (hc : c∈line.cps) : c<0x110000 := (line.scalar c hc).2.1
  obtain ⟨all,hscan,heq⟩ := filterFrom_scan words none line.cps
  have happly : (chatFilterApply words false cap line.text).1 =
      (all.flatMap Piece.masked).flatMap Utf8.encode := by
    rw [Line.text,chatFilterApply_line hscalar line.short hcap,← filterCps_fst,filterCps,heq]
  rw [hline] at hscan
  obtain ⟨b,pieces,hb,hrest,hall⟩ := hscan.keeps rfl fun c hc => hedges c (mem_append_left post hc)
  rw [hall] at happly
  have hpost (c : ℕ) (hc : c∈post) : isLetter c=false ∧ isLetter (fold c)=false :=
    hedges c (mem_append_right pre hc)
  constructor
  · intro honce
    have hmatch : matchAt id fold b (body++post) w=some post := by
      refine matchAt_eq_some.mpr ⟨fun h => ?_,?_,fun h => ?_⟩
      · rw [hb] at h
        cases h.2
      · rw [decide_eq_true hlong]
        exact walk_written honce hletters (fun c hc => (hpost c (mem_of_mem_head? hc)).2)
          (fun _ => rfl) (forall_mem_nil _)
      · obtain ⟨c,hc,hl⟩ := (Option.any_eq_true _ _).mp h.2
        rw [id,(hpost c (mem_of_mem_head? hc)).1] at hl
        cases hl
    obtain ⟨l,rest,hcps⟩ := exists_cons_of_ne_nil w.some
    obtain ⟨c,t,hct,hc⟩ := Written.head (hcps ▸ hbody)
    have hhere : Matches id fold words b (body++post) := by
      refine ⟨c,t++post,by rw [hct]; rfl,hc ▸ hletters l (hcps ▸ mem_cons_self),w,hw,?_,?_⟩
      · rw [hcps,hc]
        rfl
      · rw [hmatch]
        rfl
    obtain ⟨post',hlen,hmasked⟩ := hrest.masks hhere hw hmatch
    exact ⟨post',hlen,by rw [happly,hmasked]⟩
  · rintro rfl hstar ⟨post',-,hshown⟩
    rw [happly,flatMap_append,flatMap_append] at hshown
    refine hrest.written_of_masked hlong hletters hbody hstar (fun c hc => hscalar c ?_)
      (fun c hc => (hpost c hc).2) (append_cancel_left hshown)
    rw [hline]
    simp [hc]

def dottedLine : Line := ⟨codes "2 c.4-zZz o 2",by decide,by decide⟩

theorem Written.loosen (h : Written True cps body) : Written False cps body := by
  induction h with
  | last ne folds => exact .last ne folds
  | more ne folds gaps _ _ ih => exact .more ne folds gaps (fun h => h.elim) ih

theorem dotted_entry_masked : ∃ w∈oneWord,w.cps=codes "cazzo" ∧
    MasksBody oneWord 100 dottedLine (codes "2 ") (codes "c.4-zZz o") (codes " 2") := by
  have ho : Written True (codes "o") (codes "o") := .last (by decide) (by decide)
  have hz:=@Written.more True 122 _ _ (codes "Zz") (codes " ") _ (by decide) (by decide)
    (by decide) (by decide) ho
  have hzz:=@Written.more True 122 _ _ (codes "z") [] _ (by decide) (by decide) (by decide)
    (by decide) hz
  have ha:=@Written.more True 97 _ _ (codes "4") (codes "-") _ (by decide) (by decide)
    (by decide) (by decide) hzz
  have hc:=@Written.more True 99 _ _ (codes "c") (codes ".") _ (by decide) (by decide)
    (by decide) (by decide) ha
  refine ⟨oneWord.head (by decide),head_mem _,by decide,?_⟩
  exact (disguise_masked oneWord (oneWord.head (by decide)) (head_mem _) (by decide) (by decide)
    dottedLine (codes "2 ") (codes "c.4-zZz o") (codes " 2") (by decide) hc.loosen (by decide) 100
    (by decide)).1 hc

theorem doubled_letter_hides : ∃ w∈oneWord,w.cps=codes "cazzo" ∧
    Written False w.cps (codes "cazz-zo") ∧
    chatFilterApply oneWord false 100 (asciiText "cazz-zo")=(asciiText "cazz-zo",0) := by
  have ho : Written False (codes "o") (codes "o") := .last (by decide) (by decide)
  have hz:=@Written.more False 122 _ _ (codes "z") [] _ (by decide) (by decide) (by decide)
    (by decide) ho
  have hzz:=@Written.more False 122 _ _ (codes "zz") (codes "-") _ (by decide) (by decide)
    (by decide) (by decide) hz
  have ha:=@Written.more False 97 _ _ (codes "a") [] _ (by decide) (by decide) (by decide)
    (by decide) hzz
  have hc:=@Written.more False 99 _ _ (codes "c") [] _ (by decide) (by decide) (by decide)
    (by decide) ha
  exact ⟨oneWord.head (by decide),head_mem _,by decide,hc,by decide⟩

end RecompNet.Chat
