import Mathlib.Data.UInt

/-!
# UTF-8 by arithmetic

Code points to bytes and back.
-/
namespace Utf8
def encode (c : ℕ) : List UInt8 :=
  if c<0x80 then [.ofNat c]
  else if c<0x800 then [.ofNat (0xC0+c/64),.ofNat (0x80+c%64)]
  else if c<0x10000 then
    [.ofNat (0xE0+c/4096),.ofNat (0x80+c/64%64),.ofNat (0x80+c%64)]
  else
    [.ofNat (0xF0+c/262144),.ofNat (0x80+c/4096%64),.ofNat (0x80+c/64%64),.ofNat (0x80+c%64)]

def decode (text : List UInt8) : Option (ℕ × ℕ) :=
  let b (i : ℕ) := (text.getD i 0).toNat
  if text=[] then none
  else if b 0<0x80 then some (b 0,1)
  else if b 0/32=6 ∧ b 1/64=2 then some (b 0%32*64+b 1%64,2)
  else if b 0/16=14 ∧ b 1/64=2 ∧ b 2/64=2 then
    some (b 0%16*4096+b 1%64*64+b 2%64,3)
  else if b 0/8=30 ∧ b 1/64=2 ∧ b 2/64=2 ∧ b 3/64=2 then
    some (b 0%8*262144+b 1%64*4096+b 2%64*64+b 3%64,4)
  else none

theorem encode_ne_nil (c : ℕ) : encode c≠[] := by
  unfold encode
  split_ifs <;> exact List.cons_ne_nil _ _

theorem length_encode_pos (c : ℕ) : 0<(encode c).length :=
  List.length_pos_of_ne_nil (encode_ne_nil c)

theorem toNat_ofNat_of_lt {n : ℕ} (h : n<256) : (UInt8.ofNat n).toNat=n := by
  rw [UInt8.toNat_ofNat']
  exact Nat.mod_eq_of_lt h

theorem decode_encode {c : ℕ} (hc : c<0x110000) (rest : List UInt8) :
    decode (encode c++rest)=some (c,(encode c).length) := by
  unfold encode
  split_ifs with h₁ h₂ h₃
  all_goals
    simp (disch := omega) only [decode,List.cons_append,List.nil_append,List.getD_cons_zero,
      List.getD_cons_succ,toNat_ofNat_of_lt,List.cons_ne_nil,if_false,List.length_cons,
      List.length_nil]
  · rw [if_pos h₁]
  · rw [if_neg (by omega),if_pos (by omega)]
    congr 2
    omega
  · rw [if_neg (by omega),if_neg (by omega),if_pos (by omega)]
    congr 2
    omega
  · rw [if_neg (by omega),if_neg (by omega),if_neg (by omega),if_pos (by omega)]
    congr 2
    omega

open List

/-- A value in the bytes of one of the four forms; it need not be the shortest for the value. -/
inductive Form : ℕ → List UInt8 → Prop
  | one {a : UInt8} (lead : a.toNat<0x80) : Form a.toNat [a]
  | two {a b : UInt8} (lead : a.toNat/32=6) (more : b.toNat/64=2) :
      Form (a.toNat%32*64+b.toNat%64) [a,b]
  | three {a b c : UInt8} (lead : a.toNat/16=14) (more : b.toNat/64=2 ∧ c.toNat/64=2) :
      Form (a.toNat%16*4096+b.toNat%64*64+c.toNat%64) [a,b,c]
  | four {a b c d : UInt8} (lead : a.toNat/8=30)
      (more : b.toNat/64=2 ∧ c.toNat/64=2 ∧ d.toNat/64=2) :
      Form (a.toNat%8*262144+b.toNat%64*4096+c.toNat%64*64+d.toNat%64)
        [a,b,c,d]

variable {c : ℕ} {form : List UInt8}
theorem Form.ne_nil (h : Form c form) : form≠[] := by
  cases h <;> exact cons_ne_nil _ _

theorem decode_form (h : Form c form) (rest : List UInt8) :
    decode (form++rest)=some (c,form.length) := by
  cases h with
  | one lead => simp [decode,lead]
  | two lead more =>
    simp only [decode,cons_append,nil_append,getD_cons_zero,getD_cons_succ,cons_ne_nil,if_false,
      length_cons,length_nil]
    rw [if_neg (by omega),if_pos ⟨lead,more⟩]
  | three lead more =>
    simp only [decode,cons_append,nil_append,getD_cons_zero,getD_cons_succ,cons_ne_nil,if_false,
      length_cons,length_nil]
    rw [if_neg (by omega),if_neg (by omega),if_pos ⟨lead,more⟩]
  | four lead more =>
    simp only [decode,cons_append,nil_append,getD_cons_zero,getD_cons_succ,cons_ne_nil,if_false,
      length_cons,length_nil]
    rw [if_neg (by omega),if_neg (by omega),if_neg (by omega),if_pos ⟨lead,more⟩]

theorem form_of_decode {text : List UInt8} {n : ℕ} (h : decode text=some (c,n)) :
    ∃ form rest,text=form++rest ∧ form.length=n ∧ Form c form := by
  -- a byte past the end counts as 0, which continues no form
  have hin {l : List UInt8} {i : ℕ} (hi : (l.getD i 0).toNat/64=2) : i<l.length := by
    by_contra hout
    rw [getD_eq_getElem?_getD,getElem?_eq_none (not_lt.mp hout)] at hi
    exact absurd hi (by decide)
  unfold decode at h
  dsimp only at h
  split at h
  · cases h
  next hne =>
  obtain ⟨a,text,rfl⟩ := exists_cons_of_ne_nil hne
  split at h
  · next h₁ =>
    cases h
    exact ⟨[a],text,rfl,rfl,.one h₁⟩
  split at h
  · next h₂ =>
    cases h
    rcases text with _ | ⟨b,text⟩
    · exact absurd (hin (l := [a]) h₂.2) (lt_irrefl 1)
    exact ⟨[a,b],text,rfl,rfl,.two h₂.1 h₂.2⟩
  split at h
  · next h₃ =>
    cases h
    rcases text with _ | ⟨b,_ | ⟨e,text⟩⟩
    · exact absurd (hin (l := [a]) h₃.2.1) (lt_irrefl 1)
    · exact absurd (hin (l := [a,b]) h₃.2.2) (lt_irrefl 2)
    exact ⟨[a,b,e],text,rfl,rfl,.three h₃.1 h₃.2⟩
  split at h
  · next h₄ =>
    cases h
    rcases text with _ | ⟨b,_ | ⟨e,_ | ⟨f,text⟩⟩⟩
    · exact absurd (hin (l := [a]) h₄.2.1) (lt_irrefl 1)
    · exact absurd (hin (l := [a,b]) h₄.2.2.1) (lt_irrefl 2)
    · exact absurd (hin (l := [a,b,e]) h₄.2.2.2) (lt_irrefl 3)
    exact ⟨[a,b,e,f],text,rfl,rfl,.four h₄.1 h₄.2⟩
  · cases h

/-- A form that lacks its last bytes is not read. -/
theorem decode_piece {p q : List UInt8} (h : Form c (p++q)) (hp : p≠[]) (hq : q≠[]) :
    decode p=none := by
  by_contra hsome
  obtain ⟨⟨x,n⟩,hx⟩ := Option.ne_none_iff_exists'.mp hsome
  obtain ⟨form,rest,rfl,-,hform⟩ := form_of_decode hx
  -- both are read off the same first byte, so they are of one length
  have hread:=decode_form h []
  rw [append_nil,append_assoc,decode_form hform] at hread
  have hlen:=congrArg Prod.snd (Option.some.inj hread)
  have hpos:=length_pos_of_ne_nil hq
  simp only [length_append] at hlen
  omega

theorem form_encode (hc : c<0x110000) : Form c (encode c) := by
  have hread:=decode_encode hc []
  rw [append_nil] at hread
  obtain ⟨form,rest,hsplit,hlen,hform⟩ := form_of_decode hread
  have hnil : rest=[] := by
    have hboth:=congrArg length hsplit
    rw [length_append] at hboth
    exact length_eq_zero_iff.mp (by omega)
  rwa [hsplit,hnil,append_nil]

/-- A text as a chain of forms. -/
inductive Forms : List UInt8 → List ℕ → Prop
  | nil : Forms [] []
  | cons {c : ℕ} {form text : List UInt8} {cs : List ℕ} (head : Form c form)
      (rest : Forms text cs) : Forms (form++text) (c::cs)

theorem forms_encode {cs : List ℕ} (hc : ∀ c∈cs,c<0x110000) :
    Forms (cs.flatMap encode) cs := by
  induction cs with
  | nil => exact .nil
  | cons c cs ih =>
    exact .cons (form_encode (hc c mem_cons_self)) (ih fun d hd => hc d (mem_cons_of_mem c hd))

end Utf8
