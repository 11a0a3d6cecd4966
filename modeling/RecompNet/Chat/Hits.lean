import RecompNet.Chat.Filter

/-!
# The hits of a line

Which characters one application of the filter masks, and the bytes it writes for them.
-/
namespace RecompNet.Chat
open List
variable {words : List Word} {w : Word}
section Walk
variable {α β : Type} {f : α → ℕ} {allowSep : Bool} {first : Bool} {t rest : List α}
theorem walk_cons_some {want : ℕ} {more : List ℕ}
    (h : walk f allowSep first (want::more) t=some rest) :
    ∃ t',t' <:+ t ∧ t'.length<t.length ∧ walk f allowSep false more t'=some rest := by
  rw [walk] at h
  split at h
  · cases h
  next a t' hskip =>
  have hsub : a::t' <:+ t := by
    rw [← hskip]
    split
    · exact dropWhile_suffix _
    · exact suffix_rfl
  have habsorb : (if more.head? = some want then t'
      else t'.dropWhile fun a => decide (f a=want)) <:+ t' := by
    split
    · exact suffix_rfl
    · exact dropWhile_suffix _
  split at h
  · refine ⟨_,habsorb.trans ((suffix_cons a t').trans hsub),?_,h⟩
    have hlen:=hsub.length_le
    rw [length_cons] at hlen
    exact habsorb.length_le.trans_lt hlen
  · cases h

variable {cps : List ℕ}
theorem walk_suffix (h : walk f allowSep first cps t=some rest) : rest <:+ t := by
  induction cps generalizing first t with
  | nil =>
    cases h
    exact suffix_rfl
  | cons want more ih =>
    obtain ⟨t',hsub,-,h'⟩ := walk_cons_some h
    exact (ih h').trans hsub

theorem length_walk_lt (hne : cps≠[])
    (h : walk f allowSep first cps t=some rest) : rest.length<t.length := by
  cases cps with
  | nil => exact absurd rfl hne
  | cons want more =>
    obtain ⟨t',-,hlt,h'⟩ := walk_cons_some h
    exact (walk_suffix h').length_le.trans_lt hlt

theorem walk_map (g : β → α) (first : Bool) (cps : List ℕ) (t : List β) :
    walk f allowSep first cps (t.map g) =
      (walk (fun b => f (g b)) allowSep first cps t).map (List.map g) := by
  induction cps generalizing first t with
  | nil => rfl
  | cons want more ih =>
    have hskip : (if (!first && allowSep) then
          (t.map g).dropWhile fun a => isSeparator (f a) else t.map g) =
        (if (!first && allowSep) then t.dropWhile fun b => isSeparator (f (g b))
          else t).map g := by
      split
      · rw [dropWhile_map]
        rfl
      · rfl
    rw [walk,walk,hskip]
    cases (if (!first && allowSep) then t.dropWhile fun b => isSeparator (f (g b)) else t) with
    | nil => rfl
    | cons b t' =>
      rw [map_cons]
      dsimp only
      by_cases hwant : f (g b)=want
      · rw [if_pos hwant,if_pos hwant,← ih]
        congr 1
        split
        · rfl
        · rw [dropWhile_map]
          rfl
      · rw [if_neg hwant,if_neg hwant]
        rfl

theorem matchAt_map (g : β → α) (orig folded : α → ℕ) (before : Option ℕ) (t : List β) (w : Word) :
    matchAt orig folded before (t.map g) w =
      (matchAt (fun b => orig (g b)) (fun b => folded (g b)) before t w).map (List.map g) := by
  unfold matchAt
  split
  · rfl
  rw [walk_map]
  cases walk (fun b => folded (g b)) (decide (4≤w.cps.length)) true w.cps t with
  | none => rfl
  | some rest =>
    dsimp only [Option.map_some]
    have hhead : ((rest.map g).head?.any fun a => isLetter (orig a)) =
        rest.head?.any fun b => isLetter (orig (g b)) := by
      cases rest <;> rfl
    rw [hhead]
    split <;> rfl

end Walk

def Matches {α : Type} (orig folded : α → ℕ) (words : List Word) (before : Option ℕ) (t : List α) :
    Prop := ∃ a t',t=a::t' ∧ isLetter (folded a) ∧
    ∃ w∈words,w.cps.head? = some (folded a) ∧ (matchAt orig folded before t w).isSome

variable {α : Type} {before : Option ℕ}
theorem matches_map {β : Type} (g : β → α) (orig folded : α → ℕ) {t : List β} :
    Matches orig folded words before (t.map g) ↔
      Matches (fun b => orig (g b)) (fun b => folded (g b)) words before t := by
  unfold Matches
  cases t with
  | nil => simp
  | cons b t =>
    constructor
    · rintro ⟨a,t',heq,hletter,w,hw,hhead,hmatch⟩
      obtain ⟨rfl,rfl⟩ := cons.inj heq
      refine ⟨b,t,rfl,hletter,w,hw,hhead,?_⟩
      rw [matchAt_map] at hmatch
      simpa using hmatch
    · rintro ⟨b',t',heq,hletter,w,hw,hhead,hmatch⟩
      obtain ⟨rfl,rfl⟩ := cons.inj heq
      refine ⟨g b,t.map g,rfl,hletter,w,hw,hhead,?_⟩
      rw [matchAt_map]
      simpa using hmatch

variable {orig folded : α → ℕ} {t rest : List α}
theorem length_matchAt_lt
    (h : matchAt orig folded before t w=some rest) : rest.length<t.length := by
  unfold matchAt at h
  split at h
  · cases h
  split at h
  · cases h
  next r hwalk =>
  split at h
  · cases h
  · cases h
    exact length_walk_lt w.some hwalk

theorem foldl_pos_iff {f : ℕ → α → ℕ} {P : α → Prop}
    (hf : ∀ best a,0<f best a ↔ 0<best ∨ P a) (l : List α) (best : ℕ) :
    0<l.foldl f best ↔ 0<best ∨ ∃ a∈l,P a := by
  induction l generalizing best with
  | nil => simp
  | cons a l ih => rw [foldl_cons,ih,hf,exists_mem_cons_iff,or_assoc]

variable {t : List Cell} {c : Cell}
theorem bestEnd_pos_iff : 0<bestEnd words before (c::t) ↔ ∃ w∈words,w.cps.head? = some c.folded ∧
      (matchAt Cell.orig Cell.folded before (c::t) w).isSome := by
  unfold bestEnd
  refine (foldl_pos_iff (fun best w => ?_) words 0).trans (or_iff_right (lt_irrefl 0))
  rw [head?_cons,Option.map_some]
  by_cases hhead : w.cps.head? = some c.folded
  · rw [if_neg (not_not.mpr hhead)]
    cases hmatch : matchAt Cell.orig Cell.folded before (c::t) w with
    | none => simp
    | some rest =>
      have hlt:=length_matchAt_lt hmatch
      dsimp only
      refine iff_of_true (lt_max_of_lt_right (by omega)) (.inr ⟨hhead,rfl⟩)
  · rw [if_pos hhead]
    simp [hhead]

theorem matches_cons_iff : Matches Cell.orig Cell.folded words before (c::t) ↔
      isLetter c.folded ∧ 0<bestEnd words before (c::t) := by
  rw [bestEnd_pos_iff]
  constructor
  · rintro ⟨a,t',heq,hletter,hmatch⟩
    obtain ⟨rfl,rfl⟩ := cons.inj heq
    exact ⟨hletter,hmatch⟩
  · rintro ⟨hletter,hmatch⟩
    exact ⟨c,t,rfl,hletter,hmatch⟩

def marksFrom (words : List Word) : Option ℕ → ℕ → List ℕ → List (ℕ × Bool)
  | _,_,[] => []
  | _,skip+1,c::t => (c,true)::marksFrom words (some star) skip t
  | before,0,c::t =>
    if isLetter (fold c) ∧ 0<bestEnd words before ((c::t).map cellOf) then
      (c,true)::marksFrom words (some star) (bestEnd words before ((c::t).map cellOf)-1) t
    else (c,false)::marksFrom words (some c) 0 t

def marks (words : List Word) (line : List ℕ) : List (ℕ × Bool) := marksFrom words none 0 line
def shown (m : ℕ × Bool) : ℕ := if m.2 then star else m.1

variable (before)
theorem filterFrom_eq (skip : ℕ) (line : List ℕ) :
    (filterFrom words before skip (line.map cellOf)).1 =
      (marksFrom words before skip line).map shown := by
  induction line generalizing before skip with
  | nil => rfl
  | cons c t ih =>
    cases skip with
    | succ skip =>
      rw [map_cons,filterFrom,marksFrom,map_cons,ih]
      rfl
    | zero =>
      rw [map_cons,filterFrom,marksFrom]
      change (if isLetter (fold c) ∧ 0<bestEnd words before ((c::t).map cellOf) then
        _ else _ : List ℕ × ℕ).1=_
      split
      · rw [map_cons,← ih]
        rfl
      · rw [map_cons,← ih]
        rfl

theorem marksFrom_fst (skip : ℕ) (line : List ℕ) :
    (marksFrom words before skip line).map Prod.fst=line := by
  induction line generalizing before skip with
  | nil => rfl
  | cons c t ih =>
    cases skip with
    | succ skip => rw [marksFrom,map_cons,ih]
    | zero =>
      rw [marksFrom]
      split <;> rw [map_cons,ih]

variable {before} {cps : List ℕ}
theorem matchAt_eq_some {orig folded : α → ℕ} {t rest : List α} :
    matchAt orig folded before t w=some rest ↔ ¬ (!w.anywhere ∧ before.any isLetter) ∧
        walk folded (4≤w.cps.length) true w.cps t=some rest ∧
        ¬ (!w.anywhere ∧ (rest.head?.any fun a => isLetter (orig a))) := by
  unfold matchAt
  constructor
  · intro h
    split at h
    · cases h
    next hbefore =>
    split at h
    · cases h
    next r hwalk =>
    split at h
    · cases h
    next hbehind =>
    cases h
    exact ⟨hbefore,hwalk,hbehind⟩
  · rintro ⟨hbefore,hwalk,hbehind⟩
    rw [if_neg hbefore,hwalk]
    dsimp only
    rw [if_neg hbehind]

/-- A line the filter looks at: Unicode scalar values, at most `CF_MAX_TEXT_CP` of them. -/
structure Line where
  cps : List ℕ
  scalar : ∀ c∈cps,0<c ∧ c<0x110000 ∧ ¬ (0xD800 ≤ c ∧ c<0xE000)
  short : cps.length ≤ maxTextCp

def Line.text (line : Line) : List UInt8 := line.cps.flatMap Utf8.encode

theorem decodeLine_encode_append {c : ℕ} (hc : c<0x110000) (room : ℕ) (rest : List UInt8) :
    decodeLine (room+1) (Utf8.encode c++rest)=(decodeLine room rest).map (c::·) := by
  have hdecode:=Utf8.decode_encode hc rest
  cases henc : Utf8.encode c with
  | nil => exact absurd henc (Utf8.encode_ne_nil c)
  | cons b bytes =>
    rw [henc] at hdecode
    have hdrop : (b::bytes++rest).drop (b::bytes).length=rest := drop_left
    rw [cons_append] at hdecode hdrop ⊢
    rw [decodeLine,hdecode]
    dsimp only
    rw [hdrop]

theorem decodeLine_encode (hc : ∀ c∈cps,c<0x110000) {room : ℕ}
    (hroom : cps.length ≤ room) : decodeLine room (cps.flatMap Utf8.encode)=some cps := by
  induction cps generalizing room with
  | nil => cases room <;> rfl
  | cons c cps ih =>
    obtain ⟨room,rfl⟩ : ∃ n,room=n+1 := ⟨room-1,by
      rw [length_cons] at hroom
      omega⟩
    rw [flatMap_cons,decodeLine_encode_append (hc c mem_cons_self),
      ih (fun d hd => hc d (mem_cons_of_mem c hd)) (Nat.le_of_succ_le_succ hroom)]
    rfl

variable {cap : ℕ}
theorem encodeInto_eq {o : ℕ} (hroom : o+(cps.flatMap Utf8.encode).length<cap) :
    encodeInto cap o cps=cps.flatMap Utf8.encode := by
  induction cps generalizing o with
  | nil => rfl
  | cons c cps ih =>
    rw [flatMap_cons,length_append] at hroom
    rw [encodeInto,if_neg (by omega),ih (by omega),flatMap_cons]

theorem length_shown_le (l : List (ℕ × Bool)) :
    ((l.map shown).flatMap Utf8.encode).length≤((l.map Prod.fst).flatMap Utf8.encode).length := by
  induction l with
  | nil => exact le_rfl
  | cons m l ih =>
    have hone : (Utf8.encode (shown m)).length≤(Utf8.encode m.1).length := by
      unfold shown
      split
      · have hstar : (Utf8.encode star).length=1 := by decide
        rw [hstar]
        exact Utf8.length_encode_pos m.1
      · exact le_rfl
    simp only [map_cons,flatMap_cons,length_append]
    omega

variable (words) (line : List ℕ)
/-- The line with its hits masked. -/
def filtered : List ℕ := (marks words line).map shown
theorem filterCps_fst :
    (filterCps words (line.map cellOf)).1=filtered words line := filterFrom_eq none 0 line

variable {words}
theorem filterFrom_quiet_fst (h : (filterFrom words before 0 t).2=0) :
    (filterFrom words before 0 t).1=t.map Cell.orig := by
  induction t generalizing before with
  | nil => rfl
  | cons c t ih =>
    rw [filterFrom] at h ⊢
    split at h
    · cases h
    · next hnone =>
      rw [if_neg hnone,map_cons,← ih h]

theorem chatFilterApply_text (hc : ∀ c∈cps,c<0x110000)
    (hshort : cps.length ≤ maxTextCp) (hcap : (cps.flatMap Utf8.encode).length<cap)
    (hwords : words≠[]) : chatFilterApply words false cap (cps.flatMap Utf8.encode) =
      ((filtered words cps).flatMap Utf8.encode,(filterCps words (cps.map cellOf)).2) := by
  unfold chatFilterApply
  rw [if_neg (by simp [hwords]),decodeLine_encode hc hshort]
  dsimp only
  by_cases hquiet : (filterCps words (cps.map cellOf)).2=0
  · have hsame : filtered words cps=cps := by
      rw [← filterCps_fst,filterCps,filterFrom_quiet_fst hquiet,map_map]
      exact map_id cps
    rw [if_pos hquiet,hsame,hquiet]
  · have hfst : (marks words cps).map Prod.fst=cps := marksFrom_fst none 0 cps
    have hlen:=length_shown_le (marks words cps)
    rw [hfst] at hlen
    rw [if_neg hquiet,filterCps_fst,encodeInto_eq]
    rw [Nat.zero_add]
    exact hlen.trans_lt hcap

end RecompNet.Chat
