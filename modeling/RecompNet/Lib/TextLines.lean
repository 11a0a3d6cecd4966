import RecompNet.Lib.CText

/-!
# Lines of a text

Lines end in LF, CR or CRLF, or with the text.
-/
variable (c : UInt8)
def notEol : Bool := c≠10 && c≠13

variable (text : List UInt8)
def skipEol : List UInt8 :=
  let text:=if text.head? = some 13 then text.tail else text
  if text.head? = some 10 then text.tail else text

def lineOf : List UInt8 := text.takeWhile notEol
def afterLine : List UInt8 := skipEol (text.dropWhile notEol)

def linesFrom : ℕ → List UInt8 → List (List UInt8 × List UInt8)
  | 0,_ => []
  | _+1,[] => []
  | fuel+1,c::cs => (lineOf (c::cs),c::cs)::linesFrom fuel (afterLine (c::cs))

def lineStarts : List (List UInt8 × List UInt8) := linesFrom text.length text
def textLines : List (List UInt8) := (lineStarts text).map Prod.fst

theorem length_skipEol_lt {c : UInt8} (h : notEol c=false) (cs : List UInt8) :
    (skipEol (c::cs)).length<(c::cs).length := by
  have hc : c=10 ∨ c=13 := by
    unfold notEol at h
    by_cases h10 : c=10
    · exact .inl h10
    · exact .inr (by simpa [h10] using h)
  unfold skipEol
  rcases hc with rfl | rfl
  · simp
  · simp only [List.head?_cons,List.tail_cons,if_true]
    split <;> simp only [List.length_tail,List.length_cons] <;> omega

theorem length_afterLine : afterLine text=[] ∧ (lineOf text).length≤text.length ∨
      (lineOf text).length+(afterLine text).length+1≤text.length := by
  have hsplit : (lineOf text).length+(text.dropWhile notEol).length=text.length := by
    rw [← List.length_append]
    exact congrArg List.length (List.takeWhile_append_dropWhile)
  unfold afterLine
  cases hrest : text.dropWhile notEol with
  | nil =>
    left
    exact ⟨rfl,by omega⟩
  | cons c cs =>
    right
    have hc : notEol c=false := by
      have := List.head?_dropWhile_not notEol text
      rw [hrest] at this
      simpa using this
    have hlt:=length_skipEol_lt hc cs
    rw [hrest] at hsplit
    omega

theorem length_afterLine_lt (cs : List UInt8) : (afterLine (c::cs)).length<(c::cs).length := by
  rcases length_afterLine (c::cs) with ⟨hnil,-⟩ | hlt
  · rw [hnil]
    exact Nat.succ_pos _
  · omega

variable {fuel : ℕ} {text : List UInt8}
theorem linesFrom_fuel {fuel' : ℕ} (h : text.length≤fuel)
    (h' : text.length≤fuel') : linesFrom fuel text=linesFrom fuel' text := by
  induction fuel generalizing fuel' text with
  | zero =>
    obtain rfl : text=[] := List.length_eq_zero_iff.mp (Nat.le_zero.mp h)
    cases fuel' <;> rfl
  | succ fuel ih =>
    cases text with
    | nil => cases fuel' <;> rfl
    | cons c cs =>
      have hlt:=length_afterLine_lt c cs
      cases fuel' with
      | zero => exact absurd h' (by simp)
      | succ fuel' =>
        unfold linesFrom
        rw [ih (show (afterLine (c::cs)).length≤fuel by omega)
          (show (afterLine (c::cs)).length≤fuel' by omega)]

theorem lineStarts_cons (cs : List UInt8) :
    lineStarts (c::cs)=(lineOf (c::cs),c::cs)::lineStarts (afterLine (c::cs)) := by
  have hlt:=length_afterLine_lt c cs
  have hfuel : (afterLine (c::cs)).length ≤ cs.length := Nat.lt_succ_iff.mp hlt
  unfold lineStarts
  rw [List.length_cons,linesFrom,linesFrom_fuel hfuel le_rfl]

variable {e : List UInt8 × List UInt8}
theorem line_of_lineStarts (h : e∈linesFrom fuel text) : e.1=lineOf e.2 := by
  induction fuel generalizing text with
  | zero => cases h
  | succ fuel ih =>
    cases text with
    | nil => cases h
    | cons c cs =>
      rcases List.mem_cons.mp h with rfl | h
      · rfl
      · exact ih h

theorem textLines_line {line : List UInt8} (h : ∀ c∈line,notEol c) (rest : List UInt8) :
    textLines (line++10::rest)=line::textLines rest := by
  have hline : lineOf (line++10::rest)=line := by
    unfold lineOf
    rw [List.takeWhile_append_of_pos h]
    simp [notEol]
  have hnext : afterLine (line++10::rest)=rest := by
    unfold afterLine
    rw [List.dropWhile_append_of_pos h]
    simp [notEol,skipEol]
  cases hl : line++10::rest with
  | nil => simp at hl
  | cons c cs =>
    rw [hl] at hline hnext
    unfold textLines
    rw [lineStarts_cons,hline,hnext]
    rfl

theorem textLines_flatMap {lines : List (List UInt8)} (h : ∀ line∈lines,∀ c∈line,notEol c) :
    textLines (lines.flatMap fun line => line++[10])=lines := by
  induction lines with
  | nil => rfl
  | cons line lines ih =>
    rw [List.flatMap_cons,List.append_assoc,List.singleton_append,
      textLines_line (h line List.mem_cons_self),ih fun l hl => h l (List.mem_cons_of_mem _ hl)]

theorem lineOf_dropWhile {blank : UInt8 → Bool} (h : ∀ c,blank c → notEol c)
    (text : List UInt8) : (lineOf text).dropWhile blank=lineOf (text.dropWhile blank) := by
  unfold lineOf
  induction text with
  | nil => rfl
  | cons c cs ih =>
    by_cases hb : blank c
    · rw [List.takeWhile_cons_of_pos (h c hb),List.dropWhile_cons_of_pos hb,
        List.dropWhile_cons_of_pos hb,ih]
    rw [List.dropWhile_cons_of_neg hb]
    by_cases hc : notEol c
    · rw [List.takeWhile_cons_of_pos hc,List.dropWhile_cons_of_neg hb]
    · rw [List.takeWhile_cons_of_neg hc]
      rfl

theorem isPrefixOf_lineOf {pat : List UInt8} (h : ∀ c∈pat,notEol c) (text : List UInt8) :
    pat.isPrefixOf (lineOf text)=pat.isPrefixOf text := by
  unfold lineOf
  induction pat generalizing text with
  | nil => simp
  | cons p pat ih =>
    cases text with
    | nil => rfl
    | cons c cs =>
      by_cases hc : notEol c
      · rw [List.takeWhile_cons_of_pos hc]
        simp only [List.isPrefixOf]
        rw [ih fun d hd => h d (List.mem_cons_of_mem _ hd)]
      have hp : p≠c := fun heq => hc (heq ▸ h p List.mem_cons_self)
      rw [List.takeWhile_cons_of_neg hc]
      simp [List.isPrefixOf,hp]

theorem afterLine_suffix (text : List UInt8) : afterLine text <:+ text := by
  have hskip : ∀ t : List UInt8,skipEol t <:+ t := by
    intro t
    unfold skipEol
    simp only
    split <;> split <;>
      first
        | exact (List.tail_suffix _).trans (List.tail_suffix _)
        | exact List.tail_suffix _
        | exact List.suffix_rfl
  exact (hskip _).trans (List.dropWhile_suffix _)

theorem suffix_of_linesFrom (h : e∈linesFrom fuel text) : e.2 <:+ text := by
  induction fuel generalizing text with
  | zero => cases h
  | succ fuel ih =>
    cases text with
    | nil => cases h
    | cons c cs =>
      rcases List.mem_cons.mp h with rfl | h
      · exact List.suffix_rfl
      · exact (ih h).trans (afterLine_suffix _)
