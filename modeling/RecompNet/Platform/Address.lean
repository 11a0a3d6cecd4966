import Mathlib.Data.Prod.Lex
import RecompNet.Lib.Decimal
import RecompNet.Lib.SortedRuns

/-!
# Ranking the local IPv4 addresses (`rnet_address.c`)

Addresses are in host byte order; `size_t` has 64 bits.
-/
namespace RecompNet.Address
open List

/-- `RNetIpv4Candidate`, with the whole array of its label. -/
structure Candidate where
  address : UInt32
  interfaceLabel : List UInt8
  sized : interfaceLabel.length=128

structure RankedCandidate where
  candidate : Candidate
  preferred : ℤ
  addressClass : ℤ

/-- `RNetIpv4Address`. -/
structure Ipv4Address where
  address : CText 15
  interfaceLabel : CText 127

variable (address : UInt32)
def ipv4IsUsable : Bool :=
  address >>> 24 != 0 && decide (address >>> 24<224) && address != 0xffffffff

def ipv4AddressClass : ℤ :=
  if address &&& 0xff000000=0x0a000000 ∨ address &&& 0xfff00000=0xac100000 ∨
      address &&& 0xffff0000=0xc0a80000 then 0
  else if address &&& 0xffc00000=0x64400000 then 1
  else if address &&& 0xffff0000=0xa9fe0000 then 3
  else if address &&& 0xff000000=0x7f000000 then 4
  else 2

/-- Labels are compared as strings of unsigned bytes. -/
def codes (text : List UInt8) : List ℕ := text.map UInt8.toNat

def strcmp (a b : List UInt8) : ℤ :=
  if codes (cString a)<codes (cString b) then -1
  else if codes (cString b)<codes (cString a) then 1 else 0

def rankedCandidateCompare (lhs rhs : RankedCandidate) : ℤ :=
  if lhs.preferred≠rhs.preferred then rhs.preferred-lhs.preferred
  else if lhs.addressClass≠rhs.addressClass then lhs.addressClass-rhs.addressClass
  else if lhs.candidate.address < rhs.candidate.address then -1
  else if lhs.candidate.address > rhs.candidate.address then 1
  else strcmp lhs.candidate.interfaceLabel rhs.candidate.interfaceLabel

def octet (address shift : UInt32) : List UInt8 := digitBytes ((address >>> shift) &&& 0xff).toNat
def dotted : List UInt8 :=
  octet address 24++[46]++octet address 16++[46]++octet address 8++[46]++octet address 0
def ipv4Format : CText 15 := .print 15 (dotted address)
def unnamed : List UInt8 := asciiText "Unnamed interface"

variable (preferredAddress : UInt32)

/-- A row of `ranked`, its label terminated. -/
def Candidate.ranked (c : Candidate) : RankedCandidate where
  candidate := ⟨c.address,c.interfaceLabel.set 127 0,length_set.trans c.sized⟩
  preferred := if preferredAddress≠0 ∧ c.address=preferredAddress then 1 else 0
  addressClass := ipv4AddressClass c.address

def rankAll (candidates : List Candidate) : List RankedCandidate :=
  (candidates.filter fun c => ipv4IsUsable c.address).map (·.ranked preferredAddress)

def RankedCandidate.shown (r : RankedCandidate) : Ipv4Address where
  address := ipv4Format r.candidate.address
  interfaceLabel := .print 127
    (if r.candidate.interfaceLabel.getD 0 0≠0 then r.candidate.interfaceLabel else unnamed)

/-- The caller's array; `none` is NULL. -/
abbrev Out := Option (List Ipv4Address)

/-- The variables of the loop that writes; no `last` is a clear `have_last`. -/
structure Emit where
  last : Option UInt32
  uniqueCount : ℕ
  out : List Ipv4Address

namespace Emit
def write (capacity : ℕ) (e : Emit) (r : RankedCandidate) : Emit where
  last := some r.candidate.address
  uniqueCount := e.uniqueCount+1
  out := if e.uniqueCount<capacity then e.out.set e.uniqueCount r.shown else e.out

def step (capacity : ℕ) (e : Emit) (r : RankedCandidate) : Emit :=
  if e.last=some r.candidate.address then e else e.write capacity r

end Emit

def intMax : ℕ := 2^31-1

/-- `rnet_ipv4_normalize_candidates`; `malloc` is whether memory is given. -/
def normalizeCandidates (malloc : Bool) (qsort : List RankedCandidate → List RankedCandidate)
    (candidates : Option (List Candidate)) (candidateCount : ℕ) (preferredAddress : UInt32)
    (out : Out) (capacity : ℕ) : ℤ × Out :=
  if (candidateCount≠0 ∧ candidates=none) ∨ (capacity≠0 ∧ out=none) ∨
      intMax<candidateCount ∨ (2^64-1)/140<candidateCount then (-1,out)
  else if candidateCount≠0 ∧ malloc=false then (-1,out)
  else
    let ranked:=rankAll preferredAddress ((candidates.getD []).take candidateCount)
    let sorted:=if 1 < ranked.length then qsort ranked else ranked
    let e:=sorted.foldl (Emit.step capacity) ⟨none,0,out.getD []⟩
    (if e.uniqueCount ≤ intMax then (e.uniqueCount : ℤ) else -1,out.map fun _ => e.out)

/-! ### The comparison -/
def RankedCandidate.key (r : RankedCandidate) : (ℤ ×ₗ ℤ ×ₗ ℕ) ×ₗ List ℕ :=
  toLex (toLex (-r.preferred,toLex (r.addressClass,r.candidate.address.toNat)),
    codes (cString r.candidate.interfaceLabel))

theorem strcmp_le_iff (a b : List UInt8) : strcmp a b≤0 ↔ codes (cString a) ≤ codes (cString b) := by
  unfold strcmp
  split_ifs with h h'
  · simp [h.le]
  · simpa using h'
  · simpa using h'

theorem compare_le_iff (r s : RankedCandidate) : rankedCandidateCompare r s≤0 ↔ r.key ≤ s.key := by
  unfold rankedCandidateCompare RankedCandidate.key
  simp only [Prod.Lex.toLex_le_toLex,Prod.Lex.toLex_lt_toLex,toLex_inj,Prod.mk.injEq,
    gt_iff_lt,UInt32.lt_iff_toNat_lt]
  split_ifs with hp hc ha hb
  · omega
  · omega
  · omega
  · omega
  · have hn : r.candidate.address.toNat=s.candidate.address.toNat := by omega
    simp [strcmp_le_iff,not_not.mp hp,not_not.mp hc,hn]

def librarySort : Qsort rankedCandidateCompare := .ofKey RankedCandidate.key compare_le_iff

/-! ### What a ranking is -/
/-- The text of a label: what its first 127 bytes hold. -/
def Candidate.label (c : Candidate) : List UInt8 := cString (c.interfaceLabel.take 127)

/-- Preferred address first, then by class, then numerically. -/
def place (preferred a : UInt32) : ℤ ×ₗ ℤ ×ₗ ℕ :=
  toLex (if a=preferred then -1 else 0,toLex (ipv4AddressClass a,a.toNat))

/-- A row for an address, under the least label given for it. -/
def Shows (rows : List Candidate) (a : UInt32) (row : Ipv4Address) : Prop :=
  row.address.bytes=dotted a ∧ ∃ c∈rows,c.address=a ∧
    (∀ d∈rows,d.address=a → codes c.label ≤ codes d.label) ∧
    row.interfaceLabel.bytes=if c.label=[] then unnamed else c.label

/-- The count and the array after a call that ranks `rows`. -/
def IsRanking (preferred : UInt32) (rows : List Candidate) (capacity : ℕ)
    (out : Out) (answer : ℤ × Out) : Prop := ∃ (addresses : List UInt32) (shown : List Ipv4Address),
    addresses.Pairwise (fun a b => place preferred a<place preferred b) ∧
    (∀ a,a∈addresses ↔ ipv4IsUsable a ∧ ∃ c∈rows,c.address=a) ∧
    Forall₂ (Shows rows) (addresses.take capacity) shown ∧
    answer=((addresses.length : ℤ),out.map fun o => shown++o.drop shown.length)

theorem IsRanking.unique {preferred : UInt32} {rows rows' : List Candidate} {capacity : ℕ}
    {out : Out} {x y : ℤ × Out}
    (hx : IsRanking preferred rows capacity out x) (hy : IsRanking preferred rows' capacity out y)
    (hrows : ∀ c,c∈rows' ↔ c∈rows) : y=x := by
  obtain ⟨as,shown,hpair,hmem,hshown,rfl⟩ := hx
  obtain ⟨as',shown',hpair',hmem',hshown',rfl⟩ := hy
  -- Both lists are strictly sorted and have the same members.
  have has : as'=as := by
    have : Std.Irrefl fun a b => place preferred a<place preferred b := ⟨fun _ => lt_irrefl _⟩
    have : Std.Antisymm fun a b => place preferred a<place preferred b :=
      ⟨fun _ _ h h' => (lt_asymm h h').elim⟩
    refine hpair'.eq_of_mem_iff hpair fun a => ?_
    simp only [hmem,hmem',hrows]
  have hone : Relator.RightUnique (Shows rows) := by
    rintro a x y ⟨hx,c,hc,hca,hleast,hlabel⟩ ⟨hy,d,hd,hda,hleast',hlabel'⟩
    have heq : c.label=d.label := map_injective_iff.mpr (fun _ _ => UInt8.toNat.inj)
        (le_antisymm (hleast d hd hda) (hleast' c hc hca))
    cases x
    cases y
    rw [heq,← hlabel'] at hlabel
    rw [Ipv4Address.mk.injEq]
    exact ⟨CText.ext (hx.trans hy.symm),CText.ext hlabel⟩
  subst has
  have hsame : Shows rows'=Shows rows := by
    funext a row
    simp only [Shows,hrows]
  rw [hsame] at hshown'
  rw [right_unique_forall₂' hone hshown' hshown]

/-! ### The rows written -/
theorem octet_short (a shift : UInt32) : (octet a shift).length≤3 ∧ 0∉octet a shift := by
  have hbyte : ∀ n<256,(digitBytes n).length≤3 ∧ 0∉digitBytes n := by decide +kernel
  apply hbyte
  rw [UInt32.toNat_and]
  exact Nat.and_lt_two_pow _ (by decide : (0xff : UInt32).toNat<2^8)

theorem bytes_ipv4Format (a : UInt32) : (ipv4Format a).bytes=dotted a := by
  have hshort:=octet_short a
  apply CText.bytes_print_of_le
  · have h24:=hshort 24
    have h16:=hshort 16
    have h8:=hshort 8
    have h0:=hshort 0
    simp only [dotted,length_append,length_singleton]
    omega
  · simp only [dotted,mem_append,hshort,false_or,or_false]
    decide

variable {preferred : UInt32} {c d : Candidate} {rows : List Candidate}
theorem cString_ranked : cString (c.interfaceLabel.set 127 0)=c.label := by
  rw [set_eq_take_append_cons_drop,if_pos (by rw [c.sized]; decide)]
  unfold Candidate.label cString
  rw [takeWhile_append]
  split
  · next h =>
    rw [takeWhile_cons_of_neg (by simp),append_nil]
    exact (( takeWhile_prefix _).eq_of_length h).symm
  · rfl

theorem getD_ne_zero_iff (l : List UInt8) : l.getD 0 0≠0 ↔ cString l≠[] := by
  cases l with
  | nil => simp [cString]
  | cons b l => by_cases hb : b=0 <;> simp [cString,hb]

theorem bytes_shown : (c.ranked preferred).shown.interfaceLabel.bytes =
    if c.label=[] then unnamed else c.label := by
  change (CText.print 127 (if (c.interfaceLabel.set 127 0).getD 0 0≠0 then _ else _)).bytes=_
  simp only [getD_ne_zero_iff,cString_ranked,ne_eq,ite_not]
  split
  · rfl
  · change (cString (c.interfaceLabel.set 127 0)).take 127=_
    rw [cString_ranked]
    refine take_of_length_le (( takeWhile_prefix _).length_le.trans ?_)
    exact length_take_le ..

theorem key_ranked (h : ipv4IsUsable c.address) :
    (c.ranked preferred).key=toLex (place preferred c.address,codes c.label) := by
  -- No preferred address is zero, which is not usable either.
  have hne : c.address≠0 := by
    intro h0
    rw [h0] at h
    cases h
  have hflag : -(c.ranked preferred).preferred=if c.address=preferred then -1 else 0 := by
    unfold Candidate.ranked
    grind
  unfold RankedCandidate.key
  rw [hflag]
  exact congrArg (fun l => toLex (_,codes l)) cString_ranked

theorem place_of_compare (hc : ipv4IsUsable c.address) (hd : ipv4IsUsable d.address)
    (h : rankedCandidateCompare (c.ranked preferred) (d.ranked preferred)≤0) :
    place preferred c.address<place preferred d.address ∨
      c.address=d.address ∧ codes c.label ≤ codes d.label := by
  rw [compare_le_iff,key_ranked hc,key_ranked hd,Prod.Lex.toLex_le_toLex] at h
  refine h.imp_right fun h => ⟨?_,h.2⟩
  have heq:=h.1
  simp only [place,toLex_inj,Prod.mk.injEq] at heq
  exact UInt32.toNat.inj heq.2.2

/-- The rows that differ from the neighbour before them in the address. -/
def heads (rows : List RankedCandidate) : List RankedCandidate :=
  runHeads (·.candidate.address) rows

namespace Emit
variable {capacity : ℕ} {e : Emit} {rows : List RankedCandidate}

/-- The loop writes the heads of the runs of equal addresses. -/
theorem foldl_step (he : e.last=none) :
    rows.foldl (step capacity) e=(heads rows).foldl (write capacity) e := by
  cases rows with
  | nil => rfl
  | cons a rows =>
    have hfresh : e.last≠some a.candidate.address := by
      rw [he]
      exact (Option.some_ne_none _).symm
    clear he
    change rows.foldl (step capacity) (step capacity e a) =
      (rows.destutter' _ a).foldl (write capacity) e
    rw [step,if_neg hfresh]
    -- `a` is the last row written: a row with its address is passed over, another one is next.
    induction rows generalizing a e with
    | nil => rfl
    | cons b rows ih =>
      unfold destutter'
      rw [foldl_cons,step]
      split_ifs with hab hne hne
      · exact (hne (Option.some_inj.mp hab)).elim
      · exact ih a hfresh
      · exact ih b hab
      · exact (hab (congrArg some (not_not.mp hne))).elim

theorem foldl_write {out : List Ipv4Address} (hroom : capacity≤out.length) :
    (rows.foldl (write capacity) ⟨none,0,out⟩).uniqueCount=rows.length ∧
      (rows.foldl (write capacity) ⟨none,0,out⟩).out =
        (rows.map RankedCandidate.shown).take capacity++out.drop (min rows.length capacity) := by
  -- The last row written is the one at the end of the heads so far.
  induction rows using List.reverseRecOn with
  | nil => simp
  | append_singleton rows r ih =>
    obtain ⟨hcount,hout⟩ := ih
    rw [foldl_concat,write,hcount,hout]
    rw [map_append,length_append,length_singleton]
    refine ⟨rfl,?_⟩
    change (if rows.length<capacity then _ else _)=_
    have hlen : (rows.map RankedCandidate.shown).length=rows.length := length_map ..
    split_ifs with hlt
    · have hin : rows.length<out.length := by omega
      rw [take_of_length_le (by omega),take_of_length_le (by simp; omega),min_eq_left hlt.le,
        min_eq_left hlt,drop_eq_getElem_cons hin,set_append_right _ _ hlen.le,hlen,Nat.sub_self]
      exact append_cons ..
    · rw [take_append_of_le_length (by rw [length_map]; omega)]
      congr 2
      omega

end Emit

section
variable {sorted : List RankedCandidate} (hperm : sorted.Perm (rankAll preferred rows))
  (hpair : sorted.Pairwise fun r s => rankedCandidateCompare r s≤0)
include hperm
theorem mem_sorted {r : RankedCandidate} : r∈sorted ↔
    ∃ c∈rows,ipv4IsUsable c.address ∧ c.ranked preferred=r := by
  simp only [hperm.mem_iff,rankAll,mem_map,mem_filter,and_assoc]

include hpair
theorem heads_lt : ((heads sorted).map (·.candidate.address)).Pairwise
    fun a b => place preferred a<place preferred b := by
  refine runHeads_lt (hpair.imp_of_mem fun hr hs hle => ?_)
  obtain ⟨c,_,hc,rfl⟩ := (mem_sorted hperm).mp hr
  obtain ⟨d,_,hd,rfl⟩ := (mem_sorted hperm).mp hs
  exact fun hne => (place_of_compare hc hd hle).resolve_right fun h => hne h.1

theorem mem_heads (a : UInt32) : a∈(heads sorted).map (·.candidate.address) ↔
      ipv4IsUsable a ∧ ∃ c∈rows,c.address=a := by
  rw [mem_map]
  constructor
  · rintro ⟨r,hr,rfl⟩
    obtain ⟨c,hc,husable,rfl⟩ := (mem_sorted hperm).mp ((destutter_sublist _ _).subset hr)
    exact ⟨husable,c,hc,rfl⟩
  · rintro ⟨husable,c,hc,rfl⟩
    obtain ⟨r,hr,heq,_⟩ := exists_runHead (·.candidate.address) hpair
      ((mem_sorted hperm).mpr ⟨c,hc,husable,rfl⟩)
    exact ⟨r,hr,heq⟩

theorem shows_head {r : RankedCandidate} (hr : r∈heads sorted) :
    Shows rows r.candidate.address r.shown := by
  obtain ⟨c,hc,husable,rfl⟩ := (mem_sorted hperm).mp ((destutter_sublist _ _).subset hr)
  refine ⟨bytes_ipv4Format _,c,hc,rfl,fun d hd hda => ?_,bytes_shown⟩
  have husable' : ipv4IsUsable d.address := hda ▸ husable
  obtain ⟨s,hs,heq,hle⟩ := exists_runHead (·.candidate.address) hpair
    ((mem_sorted hperm).mpr ⟨d,hd,husable',rfl⟩)
  -- No two heads have one address, so the head before `d` is this one.
  have hnodup:=(heads_lt hperm hpair).imp fun h => ne_of_apply_ne _ h.ne
  have hsame : s=c.ranked preferred := inj_on_of_nodup_map hnodup hs hr (heq.trans hda)
  have hle : rankedCandidateCompare (c.ranked preferred) (d.ranked preferred)≤0 := by
    rw [hsame] at hle
    rcases hle with hle | hle
    · rw [compare_le_iff,hle]
    · exact hle
  rcases place_of_compare husable husable' hle with hlt | ⟨-,hlabel⟩
  · exact (hlt.ne (congrArg _ hda.symm)).elim
  · exact hlabel

end

/-- NULL or an array with room for `capacity` rows. -/
abbrev Room (capacity : ℕ) := { out : Out // capacity≤(out.getD []).length }

theorem normalizeCandidates_isRanking (q : Qsort rankedCandidateCompare)
    (hlen : rows.length ≤ intMax) {capacity : ℕ} (out : Room capacity) {malloc : Bool}
    (hmem : ¬(rows≠[] ∧ malloc=false)) : IsRanking preferred rows capacity out.1
      (normalizeCandidates malloc q.sort (some rows) rows.length preferred out.1 capacity) := by
  unfold normalizeCandidates
  split
  · next h =>
    rcases h with ⟨_,h⟩ | ⟨hc,h⟩ | h | h
    · cases h
    · have hroom:=out.2
      rw [h] at hroom
      exact (hc (Nat.le_zero.mp hroom)).elim
    · omega
    · unfold intMax at hlen
      omega
  split
  · next h => exact (hmem ⟨mt length_eq_zero_iff.mpr h.1,h.2⟩).elim
  rw [Option.getD_some,take_length]
  dsimp only
  generalize hs : (if 1<(rankAll preferred rows).length then _ else _)=sorted
  obtain ⟨hperm,hpair⟩ := q.arranged hs.symm
  rw [Emit.foldl_step rfl]
  have hfew : (heads sorted).length ≤ intMax := by
    refine ((destutter_sublist _ _).length_le.trans ?_).trans hlen
    rw [hperm.length_eq,rankAll,length_map]
    exact length_filter_le ..
  refine ⟨_,((heads sorted).take capacity).map RankedCandidate.shown,heads_lt hperm hpair,
    mem_heads hperm hpair,?_,?_⟩
  · rw [← map_take,forall₂_map_left_iff,forall₂_map_right_iff,forall₂_same]
    exact fun r hr => shows_head hperm hpair (mem_of_mem_take hr)
  · obtain ⟨hcount,hout⟩ := @Emit.foldl_write _ (heads sorted) _ out.2
    rw [hcount,hout,if_pos hfew,length_map,length_map,length_take,map_take,min_comm]
    rcases out with ⟨_ | o,_⟩ <;> rfl

/-- The answer is a ranking of the candidates and depends on their set alone. -/
theorem normalizeCandidates_canonical (malloc : Bool) (q : Qsort rankedCandidateCompare)
    (rows : List Candidate) (preferred : UInt32) (capacity : ℕ) (out : Room capacity) :
    let answer:=normalizeCandidates malloc q.sort (some rows) rows.length preferred out.1 capacity
    if intMax < rows.length ∨ rows≠[] ∧ malloc=false then answer=(-1,out.1)
    else IsRanking preferred rows capacity out.1 answer ∧
      ∀ (q' : Qsort rankedCandidateCompare) (rows' : List Candidate),
        (∀ c,c∈rows' ↔ c∈rows) → rows'.length ≤ intMax →
        normalizeCandidates true q'.sort (some rows') rows'.length preferred out.1 capacity =
          answer := by
  intro answer
  split_ifs with hrefused
  · rcases hrefused with h | ⟨hne,h⟩
    · exact if_pos (.inr (.inr (.inl h)))
    · have hmalloc : rows.length≠0 ∧ malloc=false := ⟨mt length_eq_zero_iff.mp hne,h⟩
      change (if _ then _ else if _ then _ else _)=_
      rw [if_pos hmalloc,ite_self]
  · obtain ⟨hlen,hmem⟩ := not_or.mp hrefused
    have hranks : IsRanking preferred rows capacity out.1 answer :=
      normalizeCandidates_isRanking q (not_lt.mp hlen) out hmem
    refine ⟨hranks,fun q' rows' hrows hlen' => hranks.unique ?_ hrows⟩
    refine normalizeCandidates_isRanking q' hlen' out ?_
    rintro ⟨_,h⟩
    cases h

def loopback : Candidate := ⟨0x7f000001,replicate 128 0,length_replicate⟩

theorem duplicated_row_refused :
    normalizeCandidates true librarySort.sort (some [loopback]) 1 0 none 0=(1,none) ∧
      normalizeCandidates true librarySort.sort (some (replicate (2^31) loopback)) (2^31) 0
        none 0=(-1,none) := ⟨rfl,if_pos (.inr (.inr (.inl (by decide))))⟩

end RecompNet.Address
