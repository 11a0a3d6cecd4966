import RecompNet.Lib.CText

/-!
# Decimal numbers as text

What `%d` and `%u` print, `strtol` and `strtoul` read back.
-/
def digitBytes (n : ℕ) : List UInt8 := (Nat.toDigits 10 n).map fun c => UInt8.ofNat c.toNat

theorem toNat_digit {c : Char} (h : c.isDigit) :
    (UInt8.ofNat c.toNat).toNat=c.toNat ∧ 48 ≤ c.toNat ∧ c.toNat≤57 := by
  have hc : 48 ≤ c.toNat ∧ c.toNat≤57 := by
    have h:=Bool.and_eq_true_iff.mp h
    have hlo:=of_decide_eq_true h.1
    have hhi:=of_decide_eq_true h.2
    exact ⟨UInt32.le_iff_toNat_le.mp hlo,UInt32.le_iff_toNat_le.mp hhi⟩
  refine ⟨?_,hc⟩
  rw [UInt8.toNat_ofNat']
  omega

theorem isDigit_of_toNat {b : UInt8} (h : 48≤b.toNat ∧ b.toNat≤57) : isDigit b := by
  unfold isDigit
  rw [Bool.and_eq_true_iff,decide_eq_true_eq,decide_eq_true_eq,UInt8.le_iff_toNat_le,
    UInt8.le_iff_toNat_le]
  exact h

theorem isDigit_of_mem_digitBytes {n : ℕ} {b : UInt8} (h : b∈digitBytes n) : isDigit b := by
  obtain ⟨c,hc,rfl⟩ := List.mem_map.mp h
  obtain ⟨heq,hrange⟩ := toNat_digit (Nat.isDigit_of_mem_toDigits (by omega) le_rfl hc)
  apply isDigit_of_toNat
  rw [heq]
  exact hrange

variable (n : ℕ)
theorem digitBytes_ne_nil : digitBytes n≠[] := by
  unfold digitBytes
  simp [Nat.toDigits_ne_nil]

theorem takeWhile_digitBytes : (digitBytes n).takeWhile isDigit=digitBytes n :=
  List.takeWhile_eq_self_iff.mpr fun _ => isDigit_of_mem_digitBytes
theorem dropWhile_digitBytes : (digitBytes n).dropWhile isDigit=[] :=
  List.dropWhile_eq_nil_iff.mpr fun _ => isDigit_of_mem_digitBytes

theorem digitsValue_digitBytes : digitsValue (digitBytes n)=n := by
  unfold digitsValue
  rw [takeWhile_digitBytes]
  have hval : ∀ (cs : List Char) (acc : ℕ),(∀ c∈cs,c.isDigit) →
      (cs.map fun c => UInt8.ofNat c.toNat).foldl (fun acc c => 10*acc+(c.toNat-48)) acc =
        Nat.ofDigitChars 10 cs acc := by
    intro cs
    induction cs with
    | nil => intros; rfl
    | cons c cs ih =>
      intro acc h
      have hc:=(toNat_digit (h c List.mem_cons_self)).1
      have hrest:=ih (10*acc+(c.toNat-48)) fun d hd => h d (List.mem_cons_of_mem c hd)
      simp only [List.map_cons,List.foldl_cons,hc]
      exact hrest
  have hdigits : ∀ c∈Nat.toDigits 10 n,c.isDigit := fun c =>
    Nat.isDigit_of_mem_toDigits (by omega) le_rfl
  exact (hval _ 0 hdigits).trans (Nat.ofDigitChars_toDigits (by omega) le_rfl)

theorem asciiText_toString (n : ℤ) : asciiText (toString n) =
      if n<0 then 45::digitBytes n.natAbs else digitBytes n.natAbs := by
  rw [Int.toString_eq_repr]
  cases n with
  | ofNat m =>
    rw [if_neg (by simp)]
    unfold asciiText digitBytes
    rw [← Nat.toList_repr]
    rfl
  | negSucc m =>
    rw [if_pos (Int.negSucc_lt_zero m)]
    unfold asciiText digitBytes
    rw [← Nat.toList_repr]
    simp [Int.repr]

theorem digit_not_sign {b : UInt8} (h : isDigit b) :
    isSpace b=false ∧ b≠45 ∧ b≠43 ∧ b≠0 ∧ b≠10 ∧ b≠13 := by
  have hne : ∀ c : UInt8,isDigit c=false → b≠c := by
    rintro c hc rfl
    rw [h] at hc
    cases hc
  have hlo : 48≤b.toNat := by
    unfold isDigit at h
    rw [Bool.and_eq_true_iff,decide_eq_true_eq,UInt8.le_iff_toNat_le] at h
    exact h.1
  have hspace : ¬ b≤13 := by
    rw [UInt8.le_iff_toNat_le]
    exact fun hle => absurd (hlo.trans hle) (by decide)
  refine ⟨?_,hne _ rfl,hne _ rfl,hne _ rfl,hne _ rfl,hne _ rfl⟩
  unfold isSpace
  rw [decide_eq_false (hne 32 rfl),decide_eq_false hspace,Bool.and_false,Bool.or_false]

theorem digitBytes_body : ∃ b rest,digitBytes n=b::rest ∧ (b::rest).dropWhile isSpace=b::rest ∧
      b≠45 ∧ b≠43 ∧ digitsValue (b::rest)=n := by
  cases h : digitBytes n with
  | nil => exact absurd h (digitBytes_ne_nil n)
  | cons b rest =>
    have hdigit : isDigit b := by
      apply @isDigit_of_mem_digitBytes n
      rw [h]
      exact List.mem_cons_self
    obtain ⟨hspace,hminus,hplus,-⟩ := digit_not_sign hdigit
    refine ⟨b,rest,rfl,?_,hminus,hplus,?_⟩
    · rw [List.dropWhile_cons,hspace]
      rfl
    · rw [← h]
      exact digitsValue_digitBytes n

theorem strtol_toString {n : ℤ} (hlo : -(2 : ℤ)^63≤n) (hhi : n<2^63) :
    strtol (asciiText (toString n))=n := by
  rw [asciiText_toString]
  unfold strtol
  split
  · have hbody : (45::digitBytes n.natAbs).dropWhile isSpace=45::digitBytes n.natAbs := rfl
    simp only [hbody,digitsValue_digitBytes]
    omega
  obtain ⟨b,rest,hb,hbody,hminus,hplus,hval⟩ := digitBytes_body n.natAbs
  simp only [hb,hbody]
  split
  · next heq => exact absurd (List.cons.inj heq).1 hminus
  · next heq => exact absurd (List.cons.inj heq).1 hplus
  · omega

theorem wholeNumber_toString {n : ℤ} (hlo : -(2 : ℤ)^63≤n) (hhi : n<2^63) :
    wholeNumber (asciiText (toString n))=some n := by
  have hval:=strtol_toString hlo hhi
  unfold wholeNumber
  rw [hval]
  refine if_pos ?_
  rw [asciiText_toString]
  split
  · have hbody : (45::digitBytes n.natAbs).dropWhile isSpace=45::digitBytes n.natAbs := rfl
    rw [hbody,List.head?_cons,if_pos (.inl rfl),List.tail_cons,takeWhile_digitBytes,
      dropWhile_digitBytes]
    exact ⟨digitBytes_ne_nil _,rfl⟩
  · obtain ⟨b,rest,hb,hbody,hminus,hplus,-⟩ := digitBytes_body n.natAbs
    rw [hb,hbody,if_neg (by simp [hminus,hplus]),← hb,takeWhile_digitBytes,dropWhile_digitBytes]
    exact ⟨digitBytes_ne_nil _,rfl⟩

theorem strtoull_toString {n : ℕ} (h : n<2^64) : strtoull (asciiText (toString (n : ℤ)))=n := by
  obtain ⟨b,rest,hb,hbody,hminus,hplus,hval⟩ := digitBytes_body n
  rw [asciiText_toString,if_neg (by omega),Int.natAbs_natCast,hb]
  unfold strtoull
  simp only [hbody]
  split
  · next heq => exact absurd (List.cons.inj heq).1 hminus
  · next heq => exact absurd (List.cons.inj heq).1 hplus
  · omega

theorem not_mem_asciiText_toString (n : ℤ) :
    ∀ b∈asciiText (toString n),b≠0 ∧ b≠10 ∧ b≠13 := by
  intro b hb
  rw [asciiText_toString] at hb
  have hdigit : b∈digitBytes n.natAbs → b≠0 ∧ b≠10 ∧ b≠13 := fun h =>
    (digit_not_sign (isDigit_of_mem_digitBytes h)).2.2.2
  split at hb
  · rcases List.mem_cons.mp hb with rfl | hb
    · decide
    · exact hdigit hb
  · exact hdigit hb
