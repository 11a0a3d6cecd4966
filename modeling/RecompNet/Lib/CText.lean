import Mathlib.Data.List.TakeWhile
import Mathlib.Data.UInt

/-!
# C strings and their buffers

A C string is the list of its bytes before the terminator.
-/
def cString (bytes : List UInt8) : List UInt8 := bytes.takeWhile (· ≠ 0)

theorem cString_clean (bytes : List UInt8) : (0 : UInt8)∉cString bytes := by
  intro hin
  simpa using List.mem_takeWhile_imp hin

theorem cString_eq_self {bytes : List UInt8} (h : (0 : UInt8)∉bytes) : cString bytes=bytes := by
  refine List.takeWhile_eq_self_iff.mpr fun b hb => ?_
  have hne : b≠0 := fun h0 => h (h0 ▸ hb)
  simpa using hne

def asciiText (s : String) : List UInt8 := s.toList.map fun c => UInt8.ofNat c.toNat

/-- A `char[n + 1]` that holds a string. -/
structure CText (n : ℕ) where
  bytes : List UInt8
  fits : bytes.length≤n
  clean : (0 : UInt8)∉bytes
  deriving DecidableEq

namespace CText
variable {n : ℕ}
def empty : CText n := ⟨[],Nat.zero_le n,List.not_mem_nil⟩
instance : Inhabited (CText n) := ⟨empty⟩

def print (n : ℕ) (text : List UInt8) : CText n where
  bytes := (cString text).take n
  fits := List.length_take_le ..
  clean := fun hin => cString_clean text (List.mem_of_mem_take hin)

@[ext] theorem ext {a b : CText n} (h : a.bytes=b.bytes) : a=b := by
  cases a
  cases b
  cases h
  rfl

variable {text : List UInt8}
theorem bytes_print_of_le (h : text.length≤n) (hc : (0 : UInt8)∉text) :
    (print n text).bytes=text := by
  change (cString text).take n=text
  rw [cString_eq_self hc,List.take_of_length_le h]

theorem print_eq_empty (hn : 0<n) : print n text=empty ↔ cString text=[] := by
  constructor
  · intro h
    have h : (cString text).take n=[] := congrArg bytes h
    rcases List.take_eq_nil_iff.mp h with h | h
    · omega
    · exact h
  · intro h
    apply ext
    change (cString text).take n=[]
    rw [h,List.take_nil]

end CText

def afterFirst (pat : List UInt8) : List UInt8 → Option (List UInt8)
  | [] => if pat=[] then some [] else none
  | c::cs => if pat.isPrefixOf (c::cs) then some ((c::cs).drop pat.length)
    else afterFirst pat cs

variable {pat text : List UInt8}
theorem afterFirst_eq_some {rest : List UInt8} (h : afterFirst pat text=some rest) :
    ∃ pre,text=pre++pat++rest := by
  induction text with
  | nil =>
    unfold afterFirst at h
    split at h
    · next hpat =>
      cases h
      exact ⟨[],by rw [hpat]; rfl⟩
    · cases h
  | cons c cs ih =>
    unfold afterFirst at h
    split at h
    · next hpre =>
      obtain ⟨tail,htail⟩ := List.isPrefixOf_iff_prefix.mp hpre
      cases h
      refine ⟨[],?_⟩
      rw [← htail,List.drop_left]
      rfl
    · obtain ⟨pre,hcs⟩ := ih h
      exact ⟨c::pre,by rw [hcs]; rfl⟩

theorem afterFirst_isSome : (afterFirst pat text).isSome ↔ pat <:+: text := by
  constructor
  · intro h
    obtain ⟨rest,hrest⟩ := Option.isSome_iff_exists.mp h
    obtain ⟨pre,rfl⟩ := afterFirst_eq_some hrest
    exact ⟨pre,rest,rfl⟩
  · rintro ⟨pre,post,rfl⟩
    induction pre with
    | nil =>
      cases hp : pat with
      | nil => cases post <;> rfl
      | cons c cs =>
        have hpre : (c::cs).isPrefixOf (c::(cs++post)) := List.isPrefixOf_iff_prefix.mpr ⟨post,rfl⟩
        change (afterFirst (c::cs) (c::(cs++post))).isSome=true
        unfold afterFirst
        rw [if_pos hpre]
        rfl
    | cons d pre ih =>
      change (afterFirst pat (d::(pre++pat++post))).isSome=true
      unfold afterFirst
      split
      · rfl
      · exact ih

def cutAt (c : UInt8) : List UInt8 → Option (List UInt8 × List UInt8)
  | [] => none
  | b::bs => if b=c then some ([],bs) else (cutAt c bs).map fun (pre,post) => (b::pre,post)

def isSpace (c : UInt8) : Bool := c=32 || (9 ≤ c && c≤13)
def isDigit (c : UInt8) : Bool := 48 ≤ c && c≤57

variable (text)
def digitsValue : ℕ := (text.takeWhile isDigit).foldl (fun acc c => 10*acc+(c.toNat-48)) 0

def strtol : ℤ :=
  let body:=text.dropWhile isSpace
  let value : ℤ :=
    match body with
    | 45::rest => -(digitsValue rest : ℤ)
    | 43::rest => digitsValue rest
    | rest => digitsValue rest
  max (-(2 : ℤ)^63) (min (2^63-1) value)

def wholeNumber : Option ℤ :=
  let body:=text.dropWhile isSpace
  let digits:=if body.head? = some 45 ∨ body.head? = some 43 then body.tail else body
  if digits.takeWhile isDigit≠[] ∧ digits.dropWhile isDigit=[] then some (strtol text) else none

def strtoull : ℕ :=
  let body:=text.dropWhile isSpace
  match body with
  | 45::rest =>
    if digitsValue rest<2^64 then (2^64-digitsValue rest)%2^64 else 2^64-1
  | 43::rest => min (digitsValue rest) (2^64-1)
  | rest => min (digitsValue rest) (2^64-1)

def scanUnsigned : Option ℕ :=
  let body:=text.dropWhile isSpace
  let digits:=if body.head? = some 45 ∨ body.head? = some 43 then body.tail else body
  if digits.takeWhile isDigit=[] then none else some (strtoull text)

variable {text}
def csvItems : List UInt8 → List (List UInt8)
  | [] => []
  | c::cs =>
    if c=44 then []::csvItems cs
    else
      match csvItems cs with
      | [] => [[c]]
      | item::items => (c::item)::items

