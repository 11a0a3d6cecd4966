import RecompNet.Lib.CText
import RecompNet.Lib.Utf8

/-!
# The chat filter (`rnet_chat_filter.c`)

A line is a list of code points; matching is done on their folded form.
-/
namespace RecompNet.Chat
/-- `CF_MAX_WORDS`. -/
def maxWords : ℕ := 1024
def maxWordCp : ℕ := 32
def maxTextCp : ℕ := 1024
def cp (c : Char) : ℕ := c.toNat
def star : ℕ := 42

/-- `k_map` of `fold_latin1`: U+00C0 to U+00FF. -/
def latin1Map : List Char :=
  ("aaaaaaaceeeeiiii"++"dnooooo/ouuuuyts"++"aaaaaaaceeeeiiii"++"dnooooo/ouuuuyty").toList

variable (c : ℕ)
/-- `fold_latin1`. -/
def foldLatin1 : ℕ :=
  let m:=latin1Map.getD (c-0xC0) '/'
  if m = '/' then c else if c=0xDE ∨ c=0xFE then cp 't' else cp m

/-- `k_base` of `fold`: Latin Extended-A. -/
def latinABase : List Char :=
  ("aaaaaaccccccccddddeeeeeeeeeegggggggghhhhiiiiiiiiiijjjjkkklllllllllllnnnnnnnnnoooooooo" ++
    "rrrrrrssssssssttttttuuuuuuuuuuuuwwyyyzzzzzzs").toList

def foldAscii : ℕ :=
  if cp 'A' ≤ c ∧ c ≤ cp 'Z' then c+32
  else if c=cp '0' then cp 'o'
  else if c=cp '1' then cp 'i'
  else if c=cp '3' then cp 'e'
  else if c=cp '4' then cp 'a'
  else if c=cp '5' then cp 's'
  else if c=cp '7' then cp 't'
  else if c=cp '@' then cp 'a'
  else if c=cp '$' then cp 's'
  else if c=cp '!' then cp 'i'
  else if c=cp '|' then cp 'l'
  else if c=cp '+' then cp 't'
  else c

def greekAccents : List (ℕ × ℕ) :=
  [(0x3AC,0x3B1),(0x3AD,0x3B5),(0x3AE,0x3B7),(0x3AF,0x3B9),(0x3CC,0x3BF),(0x3CD,0x3C5),
    (0x3CE,0x3C9),(0x386,0x3B1),(0x388,0x3B5),(0x389,0x3B7),(0x38A,0x3B9),(0x38C,0x3BF),
    (0x38E,0x3C5),(0x38F,0x3C9)]

/-- fold; the recursive call on full-width characters is always below 0x80. -/
def fold : ℕ :=
  if c<0x80 then foldAscii c
  else if 0xC0 ≤ c ∧ c≤0xFF then foldLatin1 c
  else if 0x100 ≤ c ∧ c≤0x17F then ((latinABase[c-0x100]?).map cp).getD c
  else if 0x410 ≤ c ∧ c≤0x42F then c+0x20
  else if c=0x401 then 0x435
  else if c=0x451 then 0x435
  else if c=0x404 then 0x454
  else if c=0x406 then 0x456
  else if c=0x407 then 0x457
  else if c=0x490 then 0x491
  else if 0x391 ≤ c ∧ c≤0x3A9 then c+0x20
  else if c=0x3C2 then 0x3C3
  else if 0x3AC ≤ c ∧ c≤0x3CE ∨ 0x386 ≤ c ∧ c≤0x38F then (greekAccents.lookup c).getD c
  else if 0xFF01 ≤ c ∧ c≤0xFF5E then foldAscii (c-0xFF01+0x21)
  else if c=0x20AC then cp 'e'
  else c

/-- `is_letter`. -/
def isLetter : Bool :=
  if c<0x80 then decide (cp 'a' ≤ c ∧ c ≤ cp 'z')
  else if 0x2000 ≤ c ∧ c≤0x206F then false
  else if 0x3000 ≤ c ∧ c≤0x303F then false
  else if 0xFF00 ≤ c ∧ c≤0xFF0F then false
  else if c=0x00A0 ∨ c=0x00B7 ∨ c=0x00BF ∨ c=0x00A1 then false
  else true

/-- `is_separator`. -/
def isSeparator : Bool := c=cp ' ' || c=cp '.' || c=cp '-' || c=cp '_' || c=cp '*' || c=cp '\'' ||
    c=cp ',' || c=0x2019 || c=0x00A0

/-- CfWord -/
structure Word where
  cps : List ℕ
  anywhere : Bool
  some : cps≠[]
  short : cps.length ≤ maxWordCp

def readWord : ℕ → List UInt8 → List ℕ × List UInt8
  | 0,text => ([],text)
  | _+1,[] => ([],[])
  | fuel+1,b::text =>
    if b=10 then ([],b::text)
    else match Utf8.decode (b::text) with
      | none => readWord fuel text
      | some (c,n) =>
        let r:=readWord fuel ((b::text).drop n)
        if c=13 ∨ c=cp ' ' then r else (fold c::r.1,r.2)

/-- The loop of `load_words`, with room for `room` more words. -/
def loadFrom : ℕ → ℕ → List UInt8 → List Word
  | _,0,_ => []
  | 0,_,_ => []
  | _,_,[] => []
  | fuel+1,room+1,b::text =>
    let anywhere:=b=126
    let line:=if anywhere then text else b::text
    let r:=readWord line.length line
    let cps:=r.1.take maxWordCp
    if h : cps≠[] then
      ⟨cps,anywhere,h,List.length_take_le ..⟩::loadFrom fuel room r.2.tail
    else loadFrom fuel (room+1) r.2.tail

/-- load_words, the list. -/
def loadWords (text : List UInt8) : List Word := loadFrom (text.length+1) maxWords text

structure Cell where
  orig : ℕ
  folded : ℕ

def cellOf : Cell := ⟨c,fold c⟩

/-- The loop of `match_at` over the letters of a word: where the word ends. -/
def walk {α : Type} (folded : α → ℕ) (allowSep : Bool) : Bool → List ℕ → List α → Option (List α)
  | _,[],t => some t
  | first,want::more,t =>
    match if !first && allowSep then t.dropWhile (fun a => isSeparator (folded a)) else t with
    | [] => none
    | a::t =>
      if folded a=want then
        walk folded allowSep false more
          (if more.head? = some want then t else t.dropWhile (fun a => folded a=want))
      else none

def matchAt {α : Type} (orig folded : α → ℕ) (before : Option ℕ) (t : List α) (w : Word) :
    Option (List α) :=
  if !w.anywhere ∧ before.any isLetter then none
  else match walk folded (4≤w.cps.length) true w.cps t with
    | none => none
    | some rest =>
      if !w.anywhere ∧ (rest.head?.any fun a => isLetter (orig a)) then none else some rest

variable (words : List Word)
def bestEnd (before : Option ℕ) (t : List Cell) : ℕ := words.foldl (fun best w =>
    if w.cps.head? ≠ t.head?.map Cell.folded then best
    else match matchAt Cell.orig Cell.folded before t w with
      | some rest => max best (t.length-rest.length)
      | none => best) 0

/-- `filter_cps` from a position on, with `skip` characters of a hit still to mask: the original
characters and the number of hits. -/
def filterFrom (words : List Word) : Option ℕ → ℕ → List Cell → List ℕ × ℕ
  | _,_,[] => ([],0)
  | _,skip+1,_::t =>
    let r:=filterFrom words (some star) skip t
    (star::r.1,r.2)
  | before,0,c::t =>
    if isLetter c.folded ∧ 0<bestEnd words before (c::t) then
      let r:=filterFrom words (some star) (bestEnd words before (c::t)-1) t
      (star::r.1,r.2+1)
    else
      let r:=filterFrom words (some c.orig) 0 t
      (c.orig::r.1,r.2)

/-- `filter_cps`. -/
def filterCps (t : List Cell) : List ℕ × ℕ := filterFrom words none 0 t

def decodeLine : ℕ → List UInt8 → Option (List ℕ)
  | _,[] => some []
  | 0,_::_ => none
  | room+1,b::text =>
    match Utf8.decode (b::text) with
    | none => none
    | some (c,n) => (decodeLine room ((b::text).drop n)).map (c::·)

def encodeInto (cap : ℕ) : ℕ → List ℕ → List UInt8
  | _,[] => []
  | o,c::t =>
    if cap<o+(Utf8.encode c).length+1 then []
    else Utf8.encode c++encodeInto cap (o+(Utf8.encode c).length) t

def chatFilterApply (disabled : Bool) (cap : ℕ) (text : List UInt8) : List UInt8 × ℕ :=
  if disabled ∨ words=[] then (text,0)
  else match decodeLine maxTextCp text with
    | none => (text,0)
    | some cps =>
      let r:=filterCps words (cps.map cellOf)
      if r.2=0 then (text,0) else (encodeInto cap 0 r.1,r.2)

end RecompNet.Chat
