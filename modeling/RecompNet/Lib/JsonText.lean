import Mathlib.Data.UInt

/-!
# Reading JSON

A reader of JSON texts without white space, over bytes: strings with their escapes, natural
numbers, arrays, objects.
-/
namespace JsonText
open List

inductive Json
  | str (bytes : List UInt8)
  | num (n : ℕ)
  | arr (items : List Json)
  | obj (fields : List (List UInt8 × Json))

variable (c : UInt8)
def hexValue : Option ℕ :=
  if 48 ≤ c ∧ c≤57 then some (c.toNat-48)
  else if 97 ≤ c ∧ c≤102 then some (c.toNat-87)
  else if 65 ≤ c ∧ c≤70 then some (c.toNat-55)
  else none

def codeUnit (a b c d : UInt8) : Option UInt8 := do
  let a ← hexValue a
  let b ← hexValue b
  let c ← hexValue c
  let d ← hexValue d
  let n:=((a*16+b)*16+c)*16+d
  if n<128 then some (UInt8.ofNat n) else none

def escaped : Option UInt8 :=
  if c=34 ∨ c=92 ∨ c=47 then some c
  else if c=98 then some 8
  else if c=102 then some 12
  else if c=110 then some 10
  else if c=114 then some 13
  else if c=116 then some 9
  else none

def push (r : List UInt8 × List UInt8) : List UInt8 × List UInt8 := (c::r.1,r.2)

def body : List UInt8 → Option (List UInt8 × List UInt8)
  | [] => none
  | c::text =>
    if c=34 then some ([],text)
    else if c=92 then
      match text with
      | 117::h₁::h₂::h₃::h₄::rest =>
        match codeUnit h₁ h₂ h₃ h₄ with
        | some u => (body rest).map (push u)
        | none => none
      | e::rest =>
        match escaped e with
        | some v => (body rest).map (push v)
        | none => none
      | [] => none
    else if c<32 then none
    else (body text).map (push c)

def Piece (p : List UInt8) (v : UInt8) : Prop := ∀ rest,body (p++rest)=(body rest).map (push v)

variable {c : UInt8}
theorem piece_plain (hq : c≠34) (hb : c≠92) (hc : ¬ c<32) : Piece [c] c := by
  intro rest
  change body (c::rest)=_
  rw [body.eq_def]
  dsimp only
  rw [if_neg hq,if_neg hb,if_neg hc]

theorem escaped_unit : escaped 117=none := by decide

theorem piece_escape {e v : UInt8} (h : escaped e=some v) : Piece [92,e] v := by
  intro rest
  have he : e≠117 := by
    rintro rfl
    rw [escaped_unit] at h
    cases h
  change body (92::e::rest)=_
  rw [body.eq_def]
  dsimp only
  rw [if_neg (by decide),if_pos rfl]
  split
  · next heq => exact absurd (List.cons.inj heq).1 he
  · next heq =>
    obtain ⟨rfl,rfl⟩ := List.cons.inj heq
    rw [h]
  · next heq => cases heq

theorem piece_unit {a b d u : UInt8} (h : codeUnit a b c d=some u) :
    Piece [92,117,a,b,c,d] u := by
  intro rest
  change body (92::117::a::b::c::d::rest)=_
  rw [body.eq_def]
  dsimp only
  rw [if_neg (by decide),if_pos rfl]
  change (match codeUnit a b c d with
    | some u => (body rest).map (push u)
    | none => none)=_
  rw [h]

theorem body_close (rest : List UInt8) : body (34::rest)=some ([],rest) := by
  rw [body.eq_def]
  dsimp only
  rw [if_pos rfl]

theorem body_pieces {piece : UInt8 → List UInt8} (h : ∀ c,Piece (piece c) c)
    (bytes rest : List UInt8) : body (bytes.flatMap piece++34::rest)=some (bytes,rest) := by
  induction bytes with
  | nil => exact body_close rest
  | cons c bytes ih =>
    rw [flatMap_cons,append_assoc,h c,ih]
    rfl

def digit (c : UInt8) : Bool := 48 ≤ c && c≤57

def number (text : List UInt8) : Option (Json × List UInt8) :=
  let digits:=text.takeWhile digit
  if digits=[] ∨ digits.head? = some 48 ∧ digits≠[48] then none
  else some (.num (digits.foldl (fun n c => n*10+(c.toNat-48)) 0),text.dropWhile digit)

mutual

def value : ℕ → List UInt8 → Option (Json × List UInt8)
  | 0,_ => none
  | _+1,[] => none
  | fuel+1,c::text =>
    if c=34 then (body text).map fun r => (.str r.1,r.2)
    else if c=91 then
      if text.head? = some 93 then some (.arr [],text.tail)
      else (elements fuel text).map fun r => (.arr r.1,r.2)
    else if c=123 then
      if text.head? = some 125 then some (.obj [],text.tail)
      else (members fuel text).map fun r => (.obj r.1,r.2)
    else number (c::text)

def elements : ℕ → List UInt8 → Option (List Json × List UInt8)
  | 0,_ => none
  | fuel+1,text =>
    match value fuel text with
    | some (v,c::rest) =>
      if c=93 then some ([v],rest)
      else if c=44 then (elements fuel rest).map fun r => (v::r.1,r.2)
      else none
    | _ => none

def members : ℕ → List UInt8 → Option (List (List UInt8 × Json) × List UInt8)
  | 0,_ => none
  | fuel+1,text =>
    if text.head? = some 34 then
      match body text.tail with
      | some (k,d::rest) =>
        if d=58 then
          match value fuel rest with
          | some (v,c::rest) =>
            if c=125 then some ([(k,v)],rest)
            else if c=44 then (members fuel rest).map fun r => ((k,v)::r.1,r.2)
            else none
          | _ => none
        else none
      | _ => none
    else none

end

def parse (text : List UInt8) : Option Json :=
  match value text.length text with
  | some (v,[]) => some v
  | _ => none

section Pieces
variable {piece : UInt8 → List UInt8}
def literal (piece : UInt8 → List UInt8) (bytes : List UInt8) : List UInt8 :=
  34::(bytes.flatMap piece++[34])

def literals (piece : UInt8 → List UInt8) : List (List UInt8) → List UInt8
  | [] => []
  | [bytes] => literal piece bytes
  | bytes::more => literal piece bytes++44::literals piece more

theorem value_literal (h : ∀ c,Piece (piece c) c) (fuel : ℕ) (bytes rest : List UInt8) :
    value (fuel+1) (literal piece bytes++rest)=some (.str bytes,rest) := by
  have hbody:=body_pieces h bytes rest
  unfold literal
  rw [cons_append,value,if_pos rfl,append_assoc,singleton_append,hbody]
  rfl

variable {items : List (List UInt8)}
theorem elements_literals (h : ∀ c,Piece (piece c) c)
    (hne : items≠[]) (rest : List UInt8) (fuel : ℕ) (hfuel : items.length<fuel) :
    elements fuel (literals piece items++93::rest)=some (items.map .str,rest) := by
  induction items generalizing fuel with
  | nil => exact absurd rfl hne
  | cons bytes more ih =>
    obtain ⟨fuel,rfl⟩ : ∃ f,fuel=f+2 := ⟨fuel-2,by simp only [length_cons] at hfuel; omega⟩
    cases more with
    | nil =>
      rw [literals,elements,value_literal h]
      rfl
    | cons next more =>
      have hrest:=ih (cons_ne_nil next more) (fuel+1) (by simp only [length_cons] at hfuel ⊢; omega)
      rw [literals,append_assoc,elements,value_literal h]
      · dsimp only [cons_append]
        rw [if_neg (by decide),if_pos rfl,hrest]
        rfl
      · exact cons_ne_nil next more

theorem head_literals (hne : items≠[]) (rest : List UInt8) :
    (literals piece items++rest).head? = some 34 := by
  cases items with
  | nil => exact absurd rfl hne
  | cons bytes more =>
    cases more with
    | nil | cons => rfl

theorem value_literals (h : ∀ c,Piece (piece c) c) (hne : items≠[])
    (rest : List UInt8) (fuel : ℕ) (hfuel : items.length+1<fuel) :
    value fuel (91::(literals piece items++93::rest))=some (.arr (items.map .str),rest) := by
  obtain ⟨fuel,rfl⟩ : ∃ n,fuel=n+1 := ⟨fuel-1,by omega⟩
  rw [value,if_neg (by decide),if_pos rfl,head_literals hne,if_neg (by decide),
    elements_literals h hne rest fuel (by omega)]
  rfl

variable {text rest : List UInt8} {v : Json} {fuel : ℕ}
theorem members_cons (h : ∀ c,Piece (piece c) c) (key : List UInt8)
    {more : List (List UInt8 × Json)} {behind : List UInt8}
    (hv : value fuel text=some (v,44::rest)) (hmore : members fuel rest=some (more,behind)) :
    members (fuel+1) (literal piece key++58::text)=some ((key,v)::more,behind) := by
  have hkey:=body_pieces h key (58::text)
  unfold literal
  rw [members,cons_append,List.head?_cons,if_pos rfl,tail_cons,append_assoc,singleton_append,hkey]
  dsimp only
  rw [if_pos rfl,hv]
  dsimp only
  rw [if_neg (by decide),if_pos rfl,hmore]
  rfl

theorem members_last (h : ∀ c,Piece (piece c) c) (key : List UInt8)
    (hv : value fuel text=some (v,125::rest)) :
    members (fuel+1) (literal piece key++58::text)=some ([(key,v)],rest) := by
  have hkey:=body_pieces h key (58::text)
  unfold literal
  rw [members,cons_append,List.head?_cons,if_pos rfl,tail_cons,append_assoc,singleton_append,hkey]
  dsimp only
  rw [if_pos rfl,hv]
  rfl

end Pieces
end JsonText
