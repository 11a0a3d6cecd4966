import RecompNet.Lib.TextLines
import RecompNet.Lobby.IceXfer

/-!
# Candidate lines of a session description (`rnet_ice_agent.c`)

An agent that must go through a relay strips the other candidates from the descriptions it sends
and receives.
-/
namespace RecompNet.Ice
open List
open Xfer (ascii)

/-- `JUICE_MAX_SDP_STRING_LEN`. -/
def maxSdp : ℕ := 4096
def candidateIsRelay (sdp : List UInt8) : Bool := (afterFirst (ascii " typ relay") sdp).isSome
def isBlank (c : UInt8) : Bool := c=32 || c=9

variable (line : List UInt8)
def lineIsCandidate : Bool :=
  let p:=line.dropWhile isBlank
  (ascii "a=candidate:").isPrefixOf p || (ascii "candidate:").isPrefixOf p

/-- The loop of `ice_sdp_strip_non_relay`; each round takes a line, so as many rounds as there are
bytes reach the end. -/
def stripLoop (outLen : ℕ) : ℕ → List UInt8 → List UInt8 → Option (List UInt8)
  | 0,_,out => some out
  | _+1,[],out => some out
  | fuel+1,c::cs,out =>
    let p:=c::cs
    let line:=lineOf p
    let keep:=if line≠[] ∧ lineIsCandidate p then candidateIsRelay p else true
    if keep then
      if outLen≤out.length+line.length+2 then none
      else stripLoop outLen fuel (afterLine p) (out++(line++[10]))
    else stripLoop outLen fuel (afterLine p) out

def sdpStripNonRelay (sdp : List UInt8) (outLen : ℕ) : Option (List UInt8) :=
  stripLoop outLen sdp.length sdp []
def RelayLine : Prop :=
  ∃ rest,afterFirst (ascii " typ ") line=some rest ∧ rest.takeWhile (· ≠ 32)=ascii "relay"
def Direct : Prop := lineIsCandidate line=true ∧ ¬ RelayLine line

instance (line : List UInt8) : Decidable (RelayLine line) :=
  match h : afterFirst (ascii " typ ") line with
  | none => isFalse fun ⟨rest,hrest,_⟩ => by rw [h] at hrest; cases hrest
  | some rest =>
    if hr : rest.takeWhile (· ≠ 32)=ascii "relay" then isTrue ⟨rest,h,hr⟩
    else isFalse fun ⟨rest',hrest',hr'⟩ => by
      rw [h] at hrest'
      cases hrest'
      exact hr hr'

instance (line : List UInt8) : Decidable (Direct line) :=
  inferInstanceAs (Decidable (_ ∧ _))

/-- No line of a text is a direct candidate. -/
def NoDirect (text : List UInt8) : Prop := ∀ line∈textLines text,¬ Direct line
instance (text : List UInt8) : Decidable (NoDirect text) :=
  inferInstanceAs (Decidable (∀ line∈textLines text,¬ Direct line))

/-- No direct candidate line of a text has the words `typ relay` in it or behind it. -/
def NoRelayBehind (text : List UInt8) : Prop :=
  ∀ e∈lineStarts text,Direct e.1 → candidateIsRelay e.2=false
instance (text : List UInt8) : Decidable (NoRelayBehind text) :=
  inferInstanceAs (Decidable (∀ e∈lineStarts text,Direct e.1 → candidateIsRelay e.2=false))

/-- The lines a stripped description must keep. -/
def Wanted (line : List UInt8) : Prop := lineIsCandidate line=false ∨ RelayLine line
instance (line : List UInt8) : Decidable (Wanted line) :=
  inferInstanceAs (Decidable (_ ∨ _))

theorem candidateIsRelay_of_line {text : List UInt8} (h : RelayLine (lineOf text)) :
    candidateIsRelay text := by
  obtain ⟨rest,hrest,htype⟩ := h
  obtain ⟨pre,hline⟩ := afterFirst_eq_some hrest
  have hsplit : rest=ascii "relay"++rest.dropWhile (· ≠ 32) := by
    rw [← htype]
    exact takeWhile_append_dropWhile.symm
  have htext : text=lineOf text++text.dropWhile notEol := takeWhile_append_dropWhile.symm
  refine afterFirst_isSome.mpr ⟨pre,rest.dropWhile (· ≠ 32)++text.dropWhile notEol,?_⟩
  conv_rhs => rw [htext,hline,hsplit]
  simp only [append_assoc]
  rfl

variable (text : List UInt8)
theorem lineIsCandidate_lineOf : lineIsCandidate (lineOf text)=lineIsCandidate text := by
  have hblank : ∀ c,isBlank c → notEol c := by
    intro c hc
    have hc : c=32 ∨ c=9 := by simpa [isBlank] using hc
    rcases hc with rfl | rfl <;> rfl
  have hattr : (ascii "a=candidate:").all notEol := by decide
  have hbare : (ascii "candidate:").all notEol := by decide
  unfold lineIsCandidate
  simp only
  rw [lineOf_dropWhile hblank,isPrefixOf_lineOf (all_eq_true.mp hattr),
    isPrefixOf_lineOf (all_eq_true.mp hbare)]

theorem not_candidate_nil : lineIsCandidate []=false := by decide
def keeps : Bool := !lineIsCandidate text || candidateIsRelay text

theorem keep_eq :
    (if lineOf text≠[] ∧ lineIsCandidate text then candidateIsRelay text else true) =
      keeps text := by
  unfold keeps
  by_cases hcand : lineIsCandidate text
  · have hne : lineOf text≠[] := by
      intro hnil
      rw [← lineIsCandidate_lineOf,hnil,not_candidate_nil] at hcand
      cases hcand
    rw [if_pos ⟨hne,hcand⟩,hcand]
    rfl
  · rw [if_neg fun h => hcand h.2,Bool.eq_false_of_not_eq_true hcand]
    rfl

theorem stripLoop_cons (outLen fuel : ℕ) (c : UInt8) (cs out : List UInt8) :
    stripLoop outLen (fuel+1) (c::cs) out=if keeps (c::cs)=true then
        if outLen≤out.length+(lineOf (c::cs)).length+2 then none
        else stripLoop outLen fuel (afterLine (c::cs)) (out++(lineOf (c::cs)++[10]))
      else stripLoop outLen fuel (afterLine (c::cs)) out := by
  rw [stripLoop]
  simp only [keep_eq]

variable {outLen fuel : ℕ} {p out res : List UInt8}
theorem stripLoop_eq_some (h : stripLoop outLen fuel p out=some res) :
    res=out++((linesFrom fuel p).filter fun e => keeps e.2).flatMap fun e => e.1++[10] := by
  induction fuel generalizing p out with
  | zero =>
    cases h
    simp [linesFrom]
  | succ fuel ih =>
    cases p with
    | nil =>
      cases h
      simp [linesFrom]
    | cons c cs =>
      rw [stripLoop_cons] at h
      cases hkeep : keeps (c::cs) with
      | true =>
        rw [hkeep,if_pos rfl] at h
        split at h
        · cases h
        · rw [ih h,linesFrom,filter_cons_of_pos (by exact hkeep),flatMap_cons]
          simp only [append_assoc]
      | false =>
        rw [hkeep,if_neg Bool.false_ne_true] at h
        rw [ih h,linesFrom,filter_cons_of_neg (by simp [hkeep])]

theorem stripLoop_length (h : stripLoop outLen fuel p out=some res) :
    res.length≤out.length+p.length+if p=[] then 0 else 1 := by
  induction fuel generalizing p out with
  | zero =>
    cases h
    omega
  | succ fuel ih =>
    cases p with
    | nil =>
      cases h
      omega
    | cons c cs =>
      have hlen:=length_afterLine (c::cs)
      rw [stripLoop_cons] at h
      rw [if_neg (cons_ne_nil _ _)]
      generalize lineOf (c::cs)=line at h hlen
      generalize afterLine (c::cs)=rest at h hlen
      split at h
      · split at h
        · cases h
        have hres:=ih h
        simp only [length_append,length_singleton] at hres
        rcases hlen with ⟨rfl,hline⟩ | hline
        · rw [if_pos rfl,length_nil] at hres
          omega
        · split at hres <;> omega
      · have hres:=ih h
        rcases hlen with ⟨rfl,hline⟩ | hline
        · rw [if_pos rfl,length_nil] at hres
          omega
        · split at hres <;> omega

theorem stripLoop_isSome
    (h : p=[] ∨ out.length+p.length+2<outLen) : (stripLoop outLen fuel p out).isSome := by
  induction fuel generalizing p out with
  | zero => rfl
  | succ fuel ih =>
    cases p with
    | nil => rfl
    | cons c cs =>
      have h:=h.resolve_left (cons_ne_nil _ _)
      have hlen:=length_afterLine (c::cs)
      rw [stripLoop_cons]
      generalize lineOf (c::cs)=line at hlen
      generalize afterLine (c::cs)=rest at hlen
      split
      · rw [if_neg (by omega)]
        refine ih ?_
        simp only [length_append,length_singleton]
        rcases hlen with ⟨rfl,hline⟩ | hline
        · exact .inl rfl
        · exact .inr (by omega)
      refine ih ?_
      rcases hlen with ⟨rfl,hline⟩ | hline
      · exact .inl rfl
      · exact .inr (by omega)

variable {sdp : List UInt8}

section
variable (h : sdpStripNonRelay sdp outLen=some res)
include h
theorem textLines_strip :
    textLines res=((lineStarts sdp).filter fun e => keeps e.2).map Prod.fst := by
  have hres:=stripLoop_eq_some h
  rw [nil_append] at hres
  have hlines : res=(((lineStarts sdp).filter fun e => keeps e.2).map Prod.fst).flatMap
      fun line => line++[10] := by
    rw [hres,flatMap_map]
    rfl
  rw [hlines]
  refine textLines_flatMap fun line hline c hc => ?_
  obtain ⟨e,he,rfl⟩ := mem_map.mp hline
  rw [line_of_lineStarts (mem_of_mem_filter he)] at hc
  exact mem_takeWhile_imp hc

theorem mem_strip {c : UInt8} (hc : c∈res) : c∈sdp ∨ c=10 := by
  have hres:=stripLoop_eq_some h
  rw [nil_append] at hres
  rw [hres] at hc
  obtain ⟨e,he,hc⟩ := mem_flatMap.mp hc
  have hmem:=mem_of_mem_filter he
  rcases mem_append.mp hc with hc | hc
  · rw [line_of_lineStarts hmem] at hc
    exact .inl ((suffix_of_linesFrom hmem).subset (takeWhile_subset _ hc))
  · exact .inr (mem_singleton.mp hc)

theorem noDirect_strip_iff : NoDirect res ↔ NoRelayBehind sdp := by
  unfold NoDirect NoRelayBehind
  rw [textLines_strip h]
  constructor
  · intro hres e he hdirect
    by_contra hrelay
    refine hres e.1 (mem_map_of_mem (mem_filter.mpr ⟨he,?_⟩)) hdirect
    simp [keeps,Bool.eq_true_of_not_eq_false hrelay]
  · intro hsdp line hline hdirect
    obtain ⟨e,he,rfl⟩ := mem_map.mp hline
    obtain ⟨hmem,hkeep⟩ := mem_filter.mp he
    have hcand : lineIsCandidate e.2 := by
      rw [← lineIsCandidate_lineOf,← line_of_lineStarts hmem]
      exact hdirect.1
    rw [keeps,hcand,hsdp e hmem hdirect] at hkeep
    cases hkeep

theorem wanted_strip : (textLines res).Sublist (textLines sdp) ∧
      (textLines res).filter (fun line => Wanted line) =
        (textLines sdp).filter fun line => Wanted line := by
  rw [textLines_strip h]
  refine ⟨filter_sublist.map _,?_⟩
  unfold textLines
  rw [filter_map,filter_map,filter_filter]
  congr 1
  refine filter_congr fun e he => ?_
  by_cases hw : Wanted e.1
  · have hkeep : keeps e.2 := by
      have hline:=line_of_lineStarts he
      rcases hw with hplain | hrelay
      · rw [hline,lineIsCandidate_lineOf] at hplain
        simp [keeps,hplain]
      · rw [hline] at hrelay
        simp [keeps,candidateIsRelay_of_line hrelay]
    simp [hw,hkeep]
  · simp [hw]

end
end RecompNet.Ice
