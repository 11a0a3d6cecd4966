import RecompNet.Chat.Hits

/-!
# What the filter writes

One application is a scan of the line for longest matches.
-/
namespace RecompNet.Chat
open List
variable {words : List Word} {before : Option ℕ}
theorem matchAt_head {α : Type} {orig folded : α → ℕ} {a : α} {t rest : List α} {w : Word}
    (h : matchAt orig folded before (a::t) w=some rest) : w.cps.head? = some (folded a) := by
  obtain ⟨-,hwalk,-⟩ := matchAt_eq_some.mp h
  cases hcps : w.cps with
  | nil => exact absurd hcps w.some
  | cons want more =>
    rw [hcps,walk] at hwalk
    simp only [Bool.not_true,Bool.false_and,Bool.false_eq_true,if_false] at hwalk
    split at hwalk
    · next hwant => rw [List.head?_cons,hwant]
    · cases hwalk

/-- How far an entry matches from here. -/
def reach (before : Option ℕ) (line : List ℕ) (w : Word) : ℕ :=
  match matchAt id fold before line w with
  | some rest => line.length-rest.length
  | none => 0

theorem bestEnd_eq (before : Option ℕ) (c : ℕ) (line : List ℕ) :
    bestEnd words before ((c::line).map cellOf) =
      (words.map (reach before (c::line))).foldl max 0 := by
  unfold bestEnd
  rw [foldl_map]
  congr 1
  funext best w
  have hmap:=matchAt_map cellOf Cell.orig Cell.folded before (c::line) w
  change _ = (matchAt id fold before (c::line) w).map (List.map cellOf) at hmap
  unfold reach
  rw [hmap]
  cases hm : matchAt id fold before (c::line) w with
  | none => split <;> simp
  | some rest =>
    have hhead : w.cps.head? = some (fold c) := matchAt_head hm
    change (if w.cps.head? ≠ some (fold c) then best else _)=_
    rw [if_neg (not_not_intro hhead)]
    simp

theorem foldl_max_spec (l : List ℕ) (b : ℕ) :
    (∀ a∈l,a≤l.foldl max b) ∧ b≤l.foldl max b ∧ (l.foldl max b=b ∨ l.foldl max b∈l) := by
  induction l generalizing b with
  | nil => simp
  | cons x l ih =>
    obtain ⟨hall,hb,hin⟩ := ih (max b x)
    rw [foldl_cons]
    refine ⟨?_,(le_max_left b x).trans hb,?_⟩
    · intro a ha
      rcases mem_cons.mp ha with rfl | ha
      · exact (le_max_right b a).trans hb
      · exact hall a ha
    rcases hin with hin | hin
    · rw [hin]
      rcases max_choice b x with h | h
      · exact .inl h
      · exact .inr (by rw [h]; exact mem_cons_self)
    · exact .inr (mem_cons_of_mem x hin)

/-- From here on an entry matches `n` code points, and no entry matches more. -/
structure Longest (words : List Word) (before : Option ℕ) (line : List ℕ) (n : ℕ) : Prop where
  found : ∃ w∈words,∃ rest,matchAt id fold before line w=some rest ∧ line.length=n+rest.length
  longest : ∀ w∈words,∀ rest,matchAt id fold before line w=some rest → line.length≤n+rest.length

variable {line : List ℕ} {c : ℕ}
theorem bestEnd_longest (h : 0<bestEnd words before ((c::line).map cellOf)) :
    Longest words before (c::line) (bestEnd words before ((c::line).map cellOf)) := by
  rw [bestEnd_eq] at h ⊢
  obtain ⟨hall,-,hin⟩ := foldl_max_spec (words.map (reach before (c::line))) 0
  constructor
  · obtain ⟨w,hw,hreach⟩ := mem_map.mp (hin.resolve_left h.ne')
    rw [← hreach] at h ⊢
    unfold reach at h ⊢
    cases hm : matchAt id fold before (c::line) w with
    | none =>
      rw [hm] at h
      exact absurd h (lt_irrefl 0)
    | some rest =>
      have hlt:=length_matchAt_lt hm
      exact ⟨w,hw,rest,hm,by dsimp only; omega⟩
  · intro w hw rest hm
    have hle:=hall _ (mem_map_of_mem hw)
    have hreach : reach before (c::line) w=(c::line).length-rest.length := by
      unfold reach
      rw [hm]
    omega

inductive Piece where
  | kept (c : ℕ)
  | hit (run : List ℕ)

namespace Piece
def cps : Piece → List ℕ
  | kept c => [c]
  | hit run => run

def masked : Piece → List ℕ
  | kept c => [c]
  | hit run => List.replicate run.length star

def isHit : Piece → Bool
  | kept _ => false
  | hit _ => true

theorem length_masked (p : Piece) : p.masked.length=p.cps.length := by
  cases p with
  | kept c => rfl
  | hit run => exact length_replicate

end Piece

def hits (pieces : List Piece) : ℕ := pieces.countP Piece.isHit
theorem hits_kept (c : ℕ) (pieces : List Piece) : hits (.kept c::pieces)=hits pieces :=
  countP_cons_of_neg Bool.false_ne_true

theorem hits_hit (run : List ℕ) (pieces : List Piece) : hits (.hit run::pieces)=hits pieces+1 :=
  countP_cons_of_pos rfl

/-- One scan from left to right: where entries match, the longest match is a hit; any other code
point is kept. -/
inductive Scan (words : List Word) : Option ℕ → List ℕ → List Piece → Prop
  | done (before : Option ℕ) : Scan words before [] []
  | kept {before : Option ℕ} {c : ℕ} {line : List ℕ} {pieces : List Piece}
      (none : ¬ Matches id fold words before (c::line)) (rest : Scan words (some c) line pieces) :
      Scan words before (c::line) (.kept c::pieces)
  | hit {before : Option ℕ} {line run tail : List ℕ} {pieces : List Piece}
      (here : Matches id fold words before line) (longest : Longest words before line run.length)
      (split : line=run++tail) (rest : Scan words (some star) tail pieces) :
      Scan words before line (.hit run::pieces)

variable {pieces : List Piece}
theorem Scan.cps_eq (h : Scan words before line pieces) : pieces.flatMap Piece.cps=line := by
  induction h with
  | done before => rfl
  | kept _ _ ih => rw [flatMap_cons,ih]; rfl
  | hit _ _ split _ ih => rw [flatMap_cons,ih,split]; rfl

theorem filterFrom_skip {k : ℕ} {t : List Cell} (hk : k≤t.length) :
    filterFrom words (some star) k t =
      (List.replicate k star++(filterFrom words (some star) 0 (t.drop k)).1,
        (filterFrom words (some star) 0 (t.drop k)).2) := by
  induction k generalizing t with
  | zero => rfl
  | succ k ih =>
    cases t with
    | nil => exact absurd hk (Nat.not_succ_le_zero k)
    | cons c t =>
      rw [filterFrom,ih (Nat.le_of_succ_le_succ hk)]
      rfl

theorem matches_line_iff : Matches id fold words before (c::line) ↔
      isLetter (fold c) ∧ 0<bestEnd words before ((c::line).map cellOf) :=
  (matches_map cellOf Cell.orig Cell.folded).symm.trans matches_cons_iff

theorem filterFrom_scan (words : List Word) (before : Option ℕ) (line : List ℕ) :
    ∃ pieces,Scan words before line pieces ∧ filterFrom words before 0 (line.map cellOf) =
      (pieces.flatMap Piece.masked,hits pieces) := by
  induction hn : line.length using Nat.strong_induction_on generalizing before line with
  | _ n ih =>
    cases line with
    | nil => exact ⟨[],.done before,rfl⟩
    | cons c line =>
      rw [length_cons] at hn
      have hstep : Matches id fold words before (c::line) ↔ isLetter (cellOf c).folded ∧
          0<bestEnd words before (cellOf c::line.map cellOf) := matches_line_iff
      rw [map_cons,filterFrom]
      by_cases hm : Matches id fold words before (c::line)
      · have hbest:=hstep.mp hm
        have hlong:=bestEnd_longest hbest.2
        rw [map_cons] at hlong
        rw [if_pos hbest]
        generalize bestEnd words before (cellOf c::line.map cellOf)=k at hbest hlong
        obtain ⟨k,rfl⟩ := Nat.exists_eq_succ_of_ne_zero hbest.2.ne'
        have hk : k≤line.length := by
          obtain ⟨-,-,rest,-,hlen⟩ := hlong.found
          rw [length_cons] at hlen
          omega
        obtain ⟨pieces,hscan,heq⟩ := ih _ (by rw [length_drop]; omega) (some star) (line.drop k) rfl
        refine ⟨.hit (c::line.take k)::pieces,.hit hm ?_ ?_ hscan,?_⟩
        · rwa [length_cons,length_take,min_eq_left hk]
        · rw [cons_append,take_append_drop]
        · rw [Nat.succ_sub_one,filterFrom_skip (by rwa [length_map]),← map_drop,heq]
          rw [hits_hit]
          simp [Piece.masked,hk,replicate_succ]
      · rw [if_neg (mt hstep.mpr hm)]
        obtain ⟨pieces,hscan,heq⟩ := ih _ (by omega) (some c) line rfl
        refine ⟨.kept c::pieces,.kept hm hscan,?_⟩
        dsimp only [cellOf] at heq ⊢
        rw [heq,hits_kept]
        rfl

theorem Scan.quiet (h : Scan [] before line pieces) :
    pieces.flatMap Piece.masked=line ∧ hits pieces=0 := by
  induction h with
  | done before => exact ⟨rfl,rfl⟩
  | kept _ _ ih =>
    rw [flatMap_cons,ih.1,hits_kept]
    exact ⟨rfl,ih.2⟩
  | hit here _ _ _ _ =>
    obtain ⟨_,_,_,_,w,hw,_⟩ := here
    cases hw

theorem chatFilterApply_line {cps : List ℕ} (hc : ∀ c∈cps,c<0x110000)
    (hshort : cps.length ≤ maxTextCp) {cap : ℕ} (hcap : (cps.flatMap Utf8.encode).length<cap) :
    chatFilterApply words false cap (cps.flatMap Utf8.encode) =
      ((filtered words cps).flatMap Utf8.encode,(filterCps words (cps.map cellOf)).2) := by
  by_cases hwords : words=[]
  · subst hwords
    obtain ⟨pieces,hscan,heq⟩ := filterFrom_scan [] none cps
    rw [← filterCps_fst,filterCps,heq,hscan.quiet.1,hscan.quiet.2]
    rfl
  · exact chatFilterApply_text hc hshort hcap hwords

def Scalar (c : ℕ) : Prop := 0<c ∧ c<0x110000 ∧ ¬ (0xD800 ≤ c ∧ c<0xE000)

/-- The bytes are those of the code points, each written in its shortest form. -/
def Spells (text : List UInt8) (cps : List ℕ) : Prop :=
  (∀ c∈cps,Scalar c) ∧ text=cps.flatMap Utf8.encode

/-- An application leaves malformed text alone; in any other it masks the hits of one scan, counts
them and keeps the rest. -/
structure ChangesOnlyMasked (words : List Word) (cap : ℕ) (text : List UInt8) : Prop where
  malformed : (∀ cps,¬ Spells text cps) → chatFilterApply words false cap text=(text,0)
  scanned : ∀ cps,Spells text cps → ∃ pieces,Scan words none cps pieces ∧
    pieces.flatMap Piece.cps=cps ∧ chatFilterApply words false cap text =
      ((pieces.flatMap Piece.masked).flatMap Utf8.encode,hits pieces)
  shorter : (chatFilterApply words false cap text).1.length≤text.length

/-- Somewhere in the line an entry matches. -/
inductive Found (words : List Word) : Option ℕ → List ℕ → Prop
  | here {before : Option ℕ} {line : List ℕ} (match_ : Matches id fold words before line) :
      Found words before line
  | later {before : Option ℕ} {c : ℕ} {line : List ℕ} (rest : Found words (some c) line) :
      Found words before (c::line)

theorem Scan.hits_pos_iff (h : Scan words before line pieces) :
    0<hits pieces ↔ Found words before line := by
  induction h with
  | done before =>
    refine ⟨fun h => absurd h (lt_irrefl 0),fun h => ?_⟩
    cases h with
    | here h =>
      obtain ⟨a,t,hnil,-⟩ := h
      cases hnil
  | kept none rest ih =>
    rw [hits_kept,ih]
    refine ⟨.later,fun h => ?_⟩
    cases h with
    | here h => exact absurd h none
    | later h => exact h
  | hit here =>
    rw [hits_hit]
    exact ⟨fun _ => .here here,fun _ => Nat.succ_pos _⟩

theorem found_iff (words : List Word) (cps : List ℕ) :
    Found words none cps ↔ 0<(filterCps words (cps.map cellOf)).2 := by
  obtain ⟨pieces,hscan,heq⟩ := filterFrom_scan words none cps
  rw [filterCps,heq,hscan.hits_pos_iff]

variable {text : List UInt8} {cps : List ℕ}
theorem decodeLine_eq_some {room : ℕ} :
    decodeLine room text=some cps ↔ Utf8.Forms text cps ∧ cps.length ≤ room := by
  constructor
  · intro h
    induction room generalizing text cps with
    | zero =>
      cases text with
      | nil => cases h; exact ⟨.nil,le_rfl⟩
      | cons b text => cases h
    | succ room ih =>
      cases text with
      | nil => cases h; exact ⟨.nil,Nat.zero_le _⟩
      | cons b text =>
        rw [decodeLine] at h
        split at h
        · cases h
        next c n hread =>
        obtain ⟨cps',hrest,rfl⟩ := Option.map_eq_some_iff.mp h
        obtain ⟨form,rest,hsplit,rfl,hform⟩ := Utf8.form_of_decode hread
        rw [hsplit,drop_left] at hrest
        obtain ⟨hforms,hlen⟩ := ih hrest
        exact ⟨hsplit ▸ .cons hform hforms,Nat.succ_le_succ hlen⟩
  · rintro ⟨hforms,hlen⟩
    induction hforms generalizing room with
    | nil => cases room <;> rfl
    | @cons c form text cps head _ ih =>
      obtain ⟨room,rfl⟩ := Nat.exists_eq_succ_of_ne_zero (Nat.ne_of_gt (Nat.zero_lt_of_lt hlen))
      obtain ⟨b,form',rfl⟩ := exists_cons_of_ne_nil head.ne_nil
      have hread:=Utf8.decode_form head text
      rw [cons_append] at hread ⊢
      rw [decodeLine,hread]
      dsimp only
      rw [← cons_append,drop_left,ih (Nat.le_of_succ_le_succ hlen)]
      rfl

theorem forms_unique {cps' : List ℕ} (h : Utf8.Forms text cps) (h' : Utf8.Forms text cps') :
    cps=cps' := by
  have hread:=decodeLine_eq_some.mpr ⟨h,Nat.le_add_right _ cps'.length⟩
  exact Option.some.inj (hread.symm.trans (decodeLine_eq_some.mpr ⟨h',Nat.le_add_left _ _⟩))

theorem Spells.forms (h : Spells text cps) : Utf8.Forms text cps :=
  h.2 ▸ Utf8.forms_encode fun c hc => (h.1 c hc).2.1

theorem chatFilterApply_unread (cap : ℕ) (h : decodeLine maxTextCp text=none) :
    chatFilterApply words false cap text=(text,0) := by
  unfold chatFilterApply
  rw [h]
  split <;> rfl

theorem chatFilterApply_quiet (cap : ℕ) (h : ¬ Found words none cps)
    (hread : decodeLine maxTextCp text=some cps) :
    chatFilterApply words false cap text=(text,0) := by
  rw [found_iff,Nat.pos_iff_ne_zero,not_not] at h
  unfold chatFilterApply
  rw [hread]
  dsimp only
  rw [if_pos h]
  split <;> rfl

theorem chatFilterApply_found (cap : ℕ) (h : Found words none cps)
    (hread : decodeLine maxTextCp text=some cps) : 0<(chatFilterApply words false cap text).2 := by
  have hwords : words≠[] := by
    rintro rfl
    obtain ⟨pieces,hscan,-⟩ := filterFrom_scan [] none cps
    have hpos:=hscan.hits_pos_iff.mpr h
    rw [hscan.quiet.2] at hpos
    exact lt_irrefl 0 hpos
  rw [found_iff] at h
  unfold chatFilterApply
  rw [if_neg (by simp [hwords]),hread]
  dsimp only
  rwa [if_neg h.ne']

theorem Spells.unread (h : Spells text cps) (hlong : maxTextCp<cps.length) :
    decodeLine maxTextCp text=none := by
  by_contra hsome
  obtain ⟨cps',hread⟩ := Option.ne_none_iff_exists'.mp hsome
  obtain ⟨hforms,hlen⟩ := decodeLine_eq_some.mp hread
  rw [forms_unique h.forms hforms] at hlong
  omega

/-- **The filter changes only what it masks**, exactly if no entry matches in a malformed line that
the decoder takes as a chain of forms, nor in a line of more than `CF_MAX_TEXT_CP` code points. -/
theorem filter_changes_only_masked (words : List Word) (cap : ℕ) (text : List UInt8)
    (hcap : text.length<cap) : ChangesOnlyMasked words cap text ↔
      (∀ cps,Utf8.Forms text cps → cps.length ≤ maxTextCp → (∀ cps',¬ Spells text cps') →
        ¬ Found words none cps) ∧
      ∀ cps,Spells text cps → maxTextCp<cps.length → ¬ Found words none cps := by
  constructor
  · intro h
    refine ⟨fun cps hforms hshort hbad hfound => ?_,fun cps hspells hlong hfound => ?_⟩
    · have hhit:=chatFilterApply_found cap hfound (decodeLine_eq_some.mpr ⟨hforms,hshort⟩)
      rw [h.malformed hbad] at hhit
      exact lt_irrefl 0 hhit
    · obtain ⟨pieces,hscan,-,heq⟩ := h.scanned cps hspells
      rw [chatFilterApply_unread cap (hspells.unread hlong)] at heq
      have hnone : 0=hits pieces := congrArg Prod.snd heq
      have hhit:=hscan.hits_pos_iff.mpr hfound
      omega
  rintro ⟨hforms,hlong⟩
  have hbad (h : ∀ cps,¬ Spells text cps) : chatFilterApply words false cap text=(text,0) := by
    cases hread : decodeLine maxTextCp text with
    | none => exact chatFilterApply_unread cap hread
    | some cps =>
      obtain ⟨htaken,hshort⟩ := decodeLine_eq_some.mp hread
      exact chatFilterApply_quiet cap (hforms cps htaken hshort h) hread
  have hline (cps : List ℕ) (h : Spells text cps) : chatFilterApply words false cap text =
      ((filtered words cps).flatMap Utf8.encode,(filterCps words (cps.map cellOf)).2) := by
    rcases Nat.lt_or_ge maxTextCp cps.length with hmany | hfits
    · -- nothing is read and nothing matches
      have hquiet:=hlong cps h hmany
      rw [found_iff,Nat.pos_iff_ne_zero,not_not] at hquiet
      have hsame : filtered words cps=cps := by
        rw [← filterCps_fst,filterCps,filterFrom_quiet_fst hquiet,map_map]
        exact map_id cps
      rw [chatFilterApply_unread cap (h.unread hmany),hsame,hquiet,← h.2]
    obtain ⟨hscalar,rfl⟩ := h
    exact chatFilterApply_line (fun c hc => (hscalar c hc).2.1) hfits hcap
  refine ⟨hbad,?_,?_⟩
  · intro cps h
    obtain ⟨pieces,hscan,heq⟩ := filterFrom_scan words none cps
    refine ⟨pieces,hscan,hscan.cps_eq,?_⟩
    rw [hline cps h,← filterCps_fst,filterCps,heq]
  · by_cases h : ∃ cps,Spells text cps
    · obtain ⟨cps,hcps⟩ := h
      have hlen:=length_shown_le (marks words cps)
      rw [marks,marksFrom_fst,← hcps.2] at hlen
      rw [hline cps hcps]
      exact hlen
    · rw [hbad (not_exists.mp h)]

theorem length_le_encoded (cps : List ℕ) : cps.length≤(cps.flatMap Utf8.encode).length := by
  induction cps with
  | nil => exact le_rfl
  | cons c cps ih =>
    have hpos:=Utf8.length_encode_pos c
    rw [flatMap_cons,length_append,length_cons]
    omega

def codes (s : String) : List ℕ := (asciiText s).map UInt8.toNat
def oneWord : List Word := loadWords (asciiText "cazzo\n")

theorem plain_line_only_masked : ChangesOnlyMasked oneWord 100 (asciiText "ah cazzo!") ∧
    chatFilterApply oneWord false 100 (asciiText "ah cazzo!")=(asciiText "ah *****!",1) := by
  have hspells : Spells (asciiText "ah cazzo!") (codes "ah cazzo!") := by
    unfold Spells Scalar
    decide
  refine ⟨(filter_changes_only_masked oneWord 100 _ (by decide)).mpr ⟨?_,?_⟩,by decide⟩
  · exact fun _ _ _ hbad => absurd hspells (hbad _)
  · intro cps h hlong
    have hlen:=length_le_encoded cps
    rw [← h.2] at hlen
    exact absurd (hlong.trans_le hlen) (by decide)

/-- An `a` in two bytes, which is not UTF-8, before an entry. -/
def overlongLine : List UInt8 := 0xC1::0xA1::asciiText " cazzo"

theorem overlong_line_rewritten :
    (∀ cps,¬ Spells overlongLine cps) ∧
      chatFilterApply oneWord false 100 overlongLine=(asciiText "a *****",1) ∧
      ¬ ChangesOnlyMasked oneWord 100 overlongLine := by
  have hform (cps : List ℕ) : ¬ Spells overlongLine cps := by
    rintro ⟨hscalar,htext⟩
    cases cps with
    | nil => cases htext
    | cons c cps =>
      have hread:=Utf8.decode_encode (hscalar c mem_cons_self).2.1
        (cps.flatMap Utf8.encode)
      rw [← flatMap_cons,← htext] at hread
      have hpair : (0x61,2)=(c,(Utf8.encode c).length) := Option.some.inj hread
      obtain ⟨rfl,hlen⟩ := Prod.mk.inj hpair
      exact absurd hlen (by decide)
  have happly : chatFilterApply oneWord false 100 overlongLine=(asciiText "a *****",1) := by
    decide
  refine ⟨hform,happly,fun h => ?_⟩
  have heq:=h.malformed hform
  rw [happly] at heq
  exact absurd heq (by decide)

/-- rnet_chat_filter_copy; nothing is written into a buffer without room. -/
def chatFilterCopy (words : List Word) (disabled : Bool) (text : Option (List UInt8))
    (outCap : ℕ) : Option (List UInt8) × ℕ :=
  if outCap=0 then (none,0)
  else match text with
    | none => (some [],0)
    | some text =>
      let r:=chatFilterApply words disabled outCap (text.take (outCap-1))
      (some r.1,r.2)

/-- The longest run of whole leading code points that fits into `room` bytes. -/
def fitting : ℕ → List ℕ → List ℕ
  | _,[] => []
  | room,c::cps =>
    if (Utf8.encode c).length ≤ room then c::fitting (room-(Utf8.encode c).length) cps else []

theorem fitting_sub (room : ℕ) (cps : List ℕ) : fitting room cps <+: cps := by
  induction cps generalizing room with
  | nil => exact nil_prefix
  | cons c cps ih =>
    unfold fitting
    split
    · exact (prefix_cons_inj c).mpr (ih _)
    · exact nil_prefix

/-- The copy shows the filtered form of the code points that fit. -/
def ShowsFiltered (words : List Word) (line : Line) (room : ℕ) : Prop :=
  chatFilterCopy words false (some line.text) (room+1) =
    (some ((filtered words (fitting room line.cps)).flatMap Utf8.encode),
      (filterCps words ((fitting room line.cps).map cellOf)).2)

/-- The bytes kept are those of the code points that fit, and at most the first bytes of one
more. -/
theorem take_encoded (room : ℕ) (cps : List ℕ) :
    (cps.flatMap Utf8.encode).take room=(fitting room cps).flatMap Utf8.encode ∨
      ∃ c∈cps,∃ p q,p≠[] ∧ q≠[] ∧ Utf8.encode c=p++q ∧
        (cps.flatMap Utf8.encode).take room=(fitting room cps).flatMap Utf8.encode++p := by
  induction cps generalizing room with
  | nil => exact .inl take_nil
  | cons c cps ih =>
    unfold fitting
    rw [flatMap_cons]
    split
    · next hfits =>
      rw [take_append,take_of_length_le hfits,flatMap_cons]
      rcases ih (room-(Utf8.encode c).length) with h | ⟨d,hd,p,q,hp,hq,hsplit,h⟩
      · exact .inl (by rw [h])
      · exact .inr ⟨d,mem_cons_of_mem c hd,p,q,hp,hq,hsplit,by rw [h,append_assoc]⟩
    next hout =>
    rw [take_append_of_le_length (not_le.mp hout).le]
    by_cases hroom : room=0
    · exact .inl (by rw [hroom]; rfl)
    refine .inr ⟨c,mem_cons_self,_,(Utf8.encode c).drop room,?_,?_,
      (take_append_drop room _).symm,rfl⟩
    · exact fun h => (take_eq_nil_iff.mp h).elim hroom (Utf8.encode_ne_nil c)
    · exact fun h => hout (drop_eq_nil_iff.mp h)

theorem decodeLine_piece {p : List UInt8} (hc : ∀ c∈cps,c<0x110000) (hp : p≠[])
    (hnone : Utf8.decode p=none) (room : ℕ) :
    decodeLine room (cps.flatMap Utf8.encode++p)=none := by
  induction cps generalizing room with
  | nil =>
    obtain ⟨b,p,rfl⟩ := exists_cons_of_ne_nil hp
    cases room with
    | zero => rfl
    | succ room =>
      rw [flatMap_nil,nil_append,decodeLine,hnone]
  | cons c cps ih =>
    rw [flatMap_cons,append_assoc]
    cases room with
    | zero =>
      obtain ⟨b,bytes,henc⟩ := exists_cons_of_ne_nil (Utf8.encode_ne_nil c)
      rw [henc]
      rfl
    | succ room =>
      rw [decodeLine_encode_append (hc c mem_cons_self),ih fun d hd => hc d (mem_cons_of_mem c hd)]
      rfl

/-- **Cutting a line never unmasks it**, exactly if the cut falls between two code points. -/
theorem copy_filters_shown (words : List Word) (line : Line) (room : ℕ) :
    ShowsFiltered words line room ↔
      line.text.take room=(fitting room line.cps).flatMap Utf8.encode := by
  have hsub:=fitting_sub room line.cps
  have hscalar (c : ℕ) (hc : c∈fitting room line.cps) : c<0x110000 :=
    (line.scalar c (hsub.subset hc)).2.1
  have hcopy : chatFilterCopy words false (some line.text) (room+1) =
      (some (chatFilterApply words false (room+1) (line.text.take room)).1,
        (chatFilterApply words false (room+1) (line.text.take room)).2) := rfl
  unfold ShowsFiltered
  constructor
  · intro hshown
    refine (take_encoded room line.cps).resolve_right ?_
    rintro ⟨c,hc,p,q,hp,hq,hsplit,htake⟩
    -- the partial code point makes the text unreadable, and it stays in the copy
    have hform : Utf8.Form c (p++q) := hsplit ▸ Utf8.form_encode (line.scalar c hc).2.1
    have hread:=decodeLine_piece hscalar hp (Utf8.decode_piece hform hp hq) maxTextCp
    have hkept : line.text.take room=(fitting room line.cps).flatMap Utf8.encode++p := htake
    rw [hcopy,hkept,chatFilterApply_unread (room+1) hread] at hshown
    have hbytes:=congrArg length (Option.some.inj (congrArg Prod.fst hshown))
    have hlen:=length_shown_le (marks words (fitting room line.cps))
    rw [marks,marksFrom_fst] at hlen
    have hpos:=length_pos_of_ne_nil hp
    rw [length_append] at hbytes
    change _ = ((filtered words (fitting room line.cps)).flatMap Utf8.encode).length at hbytes
    unfold filtered marks at hbytes
    omega
  · intro hcut
    have hlen:=length_take_le room line.text
    rw [hcut] at hcopy hlen
    rw [hcopy,chatFilterApply_line hscalar (hsub.length_le.trans line.short)
      (Nat.lt_succ_of_le hlen)]

def accentLine : Line := ⟨codes "cazzo "++[0xE9],by decide,by decide⟩

theorem cut_between_filtered : ShowsFiltered oneWord accentLine 6 ∧
    chatFilterCopy oneWord false (some accentLine.text) 7=(some (asciiText "***** "),1) :=
  ⟨(copy_filters_shown oneWord accentLine 6).mpr (by decide),by decide⟩

theorem cut_accent_unmasks : fitting 7 accentLine.cps=codes "cazzo " ∧
    chatFilterCopy oneWord false (some accentLine.text) 8 =
      (some (asciiText "cazzo "++[0xC3]),0) ∧ ¬ ShowsFiltered oneWord accentLine 7 := by
  unfold ShowsFiltered
  decide

end RecompNet.Chat
