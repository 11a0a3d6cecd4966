import Mathlib.Algebra.GroupWithZero.Nat
import Mathlib.Data.List.Range

/-!
# Readers over a byte buffer

A reader moves a cursor over memory towards an end, as C decoders do with two pointers.
-/
structure Span where
  mem : ℕ → UInt8
  stop : ℕ

namespace Span
def left (sp : Span) (c : ℕ) : ℕ :=
  if c ≤ sp.stop then sp.stop-c else 2^64-(c-sp.stop)

variable (mem : ℕ → UInt8)
def slice (c n : ℕ) : List UInt8 := (List.range n).map fun i => mem (c+i)
def Window (sp : Span) (c : ℕ) (bs : List UInt8) : Prop :=
  sp.stop=c+bs.length ∧ slice sp.mem c bs.length=bs

variable {sp : Span} {c n : ℕ} {bs xs : List UInt8}
@[simp] theorem length_slice (c n : ℕ) : (slice mem c n).length=n := by
  simp [slice]
theorem slice_add (c m n : ℕ) : slice mem c (m+n)=slice mem c m++slice mem (c+m) n := by
  simp [slice,List.range_add,Nat.add_assoc,Function.comp_def]

theorem slice_congr {mem mem' : ℕ → UInt8} (h : ∀ i<n,mem (c+i)=mem' (c+i)) :
    slice mem c n=slice mem' c n := List.map_congr_left fun i hi => h i (List.mem_range.mp hi)

theorem Window.left_eq (h : Window sp c bs) : sp.left c=bs.length := by
  unfold left
  rw [if_pos (by rw [h.1]; exact Nat.le_add_right ..),h.1]
  omega

theorem Window.split (h : Window sp c (xs++bs)) :
    slice sp.mem c xs.length=xs ∧ Window sp (c+xs.length) bs := by
  obtain ⟨hstop,hslice⟩ := h
  rw [List.length_append,slice_add] at hslice
  obtain ⟨hxs,hbs⟩ := List.append_inj hslice (by simp)
  refine ⟨hxs,?_,hbs⟩
  rw [hstop,List.length_append]
  omega

theorem slice_middle {mem : ℕ → UInt8} (xs ys zs : List UInt8) {m : ℕ}
    (h : slice mem 0 (xs++(ys++zs)).length=xs++(ys++zs)) (hn : xs.length=n)
    (hm : ys.length=m) : slice mem n m=ys := by
  have hwin : Window ⟨mem,(xs++(ys++zs)).length⟩ 0 (xs++(ys++zs)) := ⟨(Nat.zero_add _).symm,h⟩
  have hys:=hwin.split.2.split.1
  rwa [Nat.zero_add,hn,hm] at hys

theorem slice_getD (bs : List UInt8) (x : UInt8) : slice (bs.getD · x) 0 bs.length=bs := by
  refine List.ext_getElem (length_slice ..) fun i _ hi => ?_
  simp [slice,hi]

end Span

def leWord (bs : List UInt8) : ℕ := bs.foldr (fun b acc => b.toNat+256*acc) 0
def Reader (α : Type) : Type := Span → ℕ → Option (α × ℕ)

namespace Reader
open Span
variable {α β : Type}
instance : Monad Reader where
  pure a := fun _ c => some (a,c)
  bind r f := fun sp c => match r sp c with
    | some (a,c') => f a sp c'
    | none => none

theorem pure_apply (a : α) (sp : Span) (c : ℕ) : (pure a : Reader α) sp c=some (a,c) := rfl

theorem bind_apply (r : Reader α) (f : α → Reader β) (sp : Span) (c : ℕ) :
    (r >>= f) sp c=match r sp c with
      | some (a,c') => f a sp c'
      | none => none := rfl

def fail : Reader α := fun _ _ => none

variable (n : ℕ)
def need : Reader Unit := fun sp c => if sp.left c<n then none else some ((),c)
def needExactly : Reader Unit := fun sp c => if sp.left c≠n then none else some ((),c)
def atEnd : Reader Bool := fun sp c => some (decide (c=sp.stop),c)
def u8 : Reader UInt8 := fun sp c => some (sp.mem c,c+1)
def bytes : Reader (List UInt8) := fun sp c => some (slice sp.mem c n,c+n)
def skip : Reader Unit := fun _ c => some ((),c+n)
/-- `read_u16`. -/
def u16 : Reader UInt16 := fun sp c => some (UInt16.ofNat (leWord (slice sp.mem c 2)),c+2)
/-- `read_u32`. -/
def u32 : Reader UInt32 := fun sp c => some (UInt32.ofNat (leWord (slice sp.mem c 4)),c+4)

def times (r : Reader α) : ℕ → Reader (List α)
  | 0 => pure []
  | n+1 => do
    let a ← r
    let as ← times r n
    pure (a::as)

structure Takes (n : ℕ) (r : Reader α) : Prop where
  moves : ∀ sp c,∃ a,r sp c=some (a,c+n)
  same : ∀ {sp sp' : Span} {c : ℕ},(∀ i<n,sp'.mem (c+i)=sp.mem (c+i)) → r sp' c=r sp c

namespace Takes
variable {m n : ℕ} {r : Reader α} {f : α → Reader β}
theorem pure (a : α) : Takes 0 (Pure.pure a : Reader α) := ⟨fun _ _ => ⟨a,rfl⟩,fun _ => rfl⟩
theorem bytes (n : ℕ) : Takes n (Reader.bytes n) :=
  ⟨fun _ _ => ⟨_,rfl⟩,fun h => congrArg (fun bs => some (bs,_)) (slice_congr h)⟩
theorem skip (n : ℕ) : Takes n (Reader.skip n) := ⟨fun _ _ => ⟨_,rfl⟩,fun _ => rfl⟩
theorem u8 : Takes 1 Reader.u8 :=
  ⟨fun _ _ => ⟨_,rfl⟩,fun h => congrArg (fun b => some (b,_)) (h 0 Nat.zero_lt_one)⟩

theorem u16 : Takes 2 Reader.u16 :=
  ⟨fun _ _ => ⟨_,rfl⟩,fun h =>
    congrArg (fun bs => some (UInt16.ofNat (leWord bs),_)) (slice_congr h)⟩

theorem u32 : Takes 4 Reader.u32 :=
  ⟨fun _ _ => ⟨_,rfl⟩,fun h =>
    congrArg (fun bs => some (UInt32.ofNat (leWord bs),_)) (slice_congr h)⟩

theorem bind (hr : Takes n r) (hf : ∀ a,Takes m (f a)) : Takes (m+n) (r >>= f) where
  moves sp c := by
    obtain ⟨a,ha⟩ := hr.moves sp c
    obtain ⟨b,hb⟩ := (hf a).moves sp (c+n)
    exact ⟨b,by rw [bind_apply,ha]; dsimp only; rw [hb,Nat.add_comm m n,Nat.add_assoc]⟩
  same {sp sp' c} h := by
    obtain ⟨a,ha⟩ := hr.moves sp c
    rw [bind_apply,bind_apply,hr.same fun i hi => h i (by omega),ha]
    dsimp only
    refine (hf a).same fun i hi => ?_
    rw [Nat.add_assoc]
    exact h (n+i) (by omega)

theorem times (hr : Takes n r) : ∀ k,Takes (k*n) (Reader.times r k)
  | 0 => by
    rw [Nat.zero_mul]
    exact pure []
  | k+1 => by
    rw [Nat.succ_mul]
    refine bind hr fun a => ?_
    rw [← Nat.zero_add (k*n)]
    exact bind (times hr k) fun as => pure (a::as)

end Takes

structure Local (k : ℕ) (r : Reader α) : Prop where
  same : ∀ {sp sp' : Span} {c : ℕ},sp'.stop=sp.stop → (∀ i<sp.stop,sp'.mem i=sp.mem i) →
    c+k ≤ sp.stop → r sp' c=r sp c
  inside : ∀ {sp : Span} {c c' : ℕ} {a : α},c+k ≤ sp.stop → r sp c=some (a,c') → c' ≤ sp.stop

theorem Takes.local {n : ℕ} {r : Reader α} (h : Takes n r) : Local n r where
  same {sp sp' c} _ hm hc := h.same fun i hi => hm _ (by omega)
  inside {sp c c' a} hc hr := by
    obtain ⟨b,hb⟩ := h.moves sp c
    rw [hb] at hr
    cases hr
    exact hc

namespace Local
variable {k n : ℕ} {r : Reader α} {f : α → Reader β}
theorem pure (a : α) : Local 0 (Pure.pure a : Reader α) := (Takes.pure a).local
theorem fail : Local k (Reader.fail : Reader α) := ⟨fun _ _ _ => rfl,fun _ hr => by cases hr⟩

theorem take (hr : Takes n r) (hf : ∀ a,Local k (f a)) : Local (k+n) (r >>= f) where
  same {sp sp' c} hs hm hc := by
    obtain ⟨a,ha⟩ := hr.moves sp c
    rw [bind_apply,bind_apply,hr.same fun i hi => hm _ (by omega),ha]
    exact (hf a).same hs hm (by omega)
  inside {sp c c' b} hc h := by
    obtain ⟨a,ha⟩ := hr.moves sp c
    rw [bind_apply,ha] at h
    exact (hf a).inside (by omega) h

theorem u8 {f : UInt8 → Reader β} (hf : ∀ b,Local k (f b)) : Local (k+1) (Reader.u8 >>= f) :=
  take .u8 hf

theorem skip (n : ℕ) {f : Unit → Reader β} (hf : Local k (f ())) :
    Local (k+n) (Reader.skip n >>= f) := take (.skip n) fun _ => hf

theorem u16 {f : UInt16 → Reader β} (hf : ∀ v,Local k (f v)) : Local (k+2) (Reader.u16 >>= f) :=
  take .u16 hf
theorem u32 {f : UInt32 → Reader β} (hf : ∀ v,Local k (f v)) : Local (k+4) (Reader.u32 >>= f) :=
  take .u32 hf

theorem need {f : Unit → Reader β} (hf : Local n (f ())) : Local 0 (Reader.need n >>= f) where
  same {sp sp' c} hs hm hc := by
    have hl : sp'.left c=sp.left c := by rw [left,left,hs]
    simp only [bind_apply,Reader.need,hl]
    by_cases hn : sp.left c<n
    · simp [hn]
    simp only [hn,if_false]
    rw [left,if_pos (by omega)] at hn
    exact hf.same hs hm (by omega)
  inside {sp c c' b} hc h := by
    simp only [bind_apply,Reader.need] at h
    by_cases hn : sp.left c<n
    · simp [hn] at h
    simp only [hn,if_false] at h
    rw [left,if_pos (by omega)] at hn
    exact hf.inside (by omega) h

theorem needExactly {f : Unit → Reader β} (hf : Local n (f ())) :
    Local 0 (Reader.needExactly n >>= f) where
  same {sp sp' c} hs hm hc := by
    have hl : sp'.left c=sp.left c := by rw [left,left,hs]
    simp only [bind_apply,Reader.needExactly,hl]
    by_cases hn : sp.left c=n
    · simp only [hn,ne_eq,not_true_eq_false,if_false]
      rw [left,if_pos (by omega)] at hn
      exact hf.same hs hm (by omega)
    · simp [hn]
  inside {sp c c' b} hc h := by
    simp only [bind_apply,Reader.needExactly] at h
    by_cases hn : sp.left c=n
    · simp only [hn,ne_eq,not_true_eq_false,if_false] at h
      rw [left,if_pos (by omega)] at hn
      exact hf.inside (by omega) h
    · simp [hn] at h

theorem needTake (hr : Takes n r) (hf : ∀ a,Local 0 (f a)) :
    Local 0 (Reader.need n >>= fun _ => r >>= f) := by
  refine need ?_
  rw [← Nat.zero_add n]
  exact take hr hf

theorem atEnd {f : Bool → Reader β} (hend : Local 0 (f true)) (hmore : Local 1 (f false)) :
    Local 0 (Reader.atEnd >>= f) where
  same {sp sp' c} hs hm hc := by
    simp only [bind_apply,Reader.atEnd,hs]
    by_cases he : c=sp.stop
    · simp only [he,decide_true]
      exact hend.same hs hm (by omega)
    · simp only [he,decide_false]
      exact hmore.same hs hm (by omega)
  inside {sp c c' b} hc h := by
    simp only [bind_apply,Reader.atEnd] at h
    by_cases he : c=sp.stop
    · simp only [he,decide_true] at h
      exact hend.inside (by omega) h
    · simp only [he,decide_false] at h
      exact hmore.inside (by omega) h

theorem bind (hr : Local k r) (hf : ∀ a,Local 0 (f a)) : Local k (r >>= f) where
  same {sp sp' c} hs hm hc := by
    simp only [bind_apply,hr.same hs hm hc]
    cases hrc : r sp c with
    | none => rfl
    | some p => exact (hf p.1).same hs hm (hr.inside hc hrc)
  inside {sp c c' b} hc h := by
    simp only [bind_apply] at h
    cases hrc : r sp c with
    | none => simp [hrc] at h
    | some p =>
      rw [hrc] at h
      exact (hf p.1).inside (hr.inside hc hrc) h

theorem ite {P : Prop} [Decidable P] {r r' : Reader α} (h : Local k r) (h' : Local k r') :
    Local k (if P then r else r') := by
  split
  · exact h
  · exact h'

theorem times (h : Local 0 r) : ∀ n,Local 0 (Reader.times r n)
  | 0 => .pure _
  | n+1 => .bind h fun _ => .bind (times h n) fun _ => .pure _

end Local

def Runs (r : Reader α) (bs rest : List UInt8) (res : Option α) : Prop :=
  ∀ (sp : Span) (c : ℕ),Window sp c (bs++rest) → r sp c=res.map fun a => (a,c+bs.length)

namespace Runs
variable {n : ℕ} {bs rest xs : List UInt8} {res : Option β} {r : Reader α} {f : α → Reader β}
theorem pure (a : α) : Runs (Pure.pure a) [] rest (some a) := fun _ _ _ => rfl
theorem fail : Runs (Reader.fail : Reader α) bs rest none := fun _ _ _ => rfl

theorem bind {a : α} (hr : Runs r xs (bs++rest) (some a)) (hf : Runs (f a) bs rest res) :
    Runs (r >>= f) (xs++bs) rest res := by
  intro sp c h
  rw [List.append_assoc] at h
  rw [bind_apply,hr sp c h,Option.map_some]
  dsimp only
  rw [hf _ _ h.split.2,List.length_append,Nat.add_assoc]

theorem bind_last {a : α} (hr : Runs r xs rest (some a)) (hf : Runs (f a) [] rest res) :
    Runs (r >>= f) xs rest res := by
  have h:=bind hr hf
  rwa [List.append_nil] at h

theorem bind_none (hr : Runs r bs rest none) : Runs (r >>= f) bs rest (none : Option β) := by
  intro sp c h
  rw [bind_apply,hr sp c h]
  rfl

theorem u8 {f : UInt8 → Reader β} {b : UInt8} (hf : Runs (f b) bs rest res) :
    Runs (Reader.u8 >>= f) (b::bs) rest res := by
  show Runs (Reader.u8 >>= f) ([b]++bs) rest res
  refine bind ?_ hf
  intro sp c h
  have hb : [sp.mem c]=[b] := h.split.1
  simp only [Reader.u8,List.cons.inj hb |>.1]
  rfl

theorem just_bytes (hn : xs.length=n) : Runs (Reader.bytes n) xs rest (some xs) := by
  intro sp c h
  subst hn
  simp only [Reader.bytes,h.split.1]
  rfl

theorem bytes_last {f : List UInt8 → Reader β} (hn : xs.length=n)
    (hf : Runs (f xs) [] rest res) : Runs (Reader.bytes n >>= f) xs rest res :=
  bind_last (just_bytes hn) hf

theorem skip_zero {f : Unit → Reader β} (hf : Runs (f ()) bs rest res) :
    Runs (Reader.skip 0 >>= f) bs rest res := hf

theorem skip_succ {f : Unit → Reader β} {b : UInt8} (hf : Runs (Reader.skip n >>= f) bs rest res) :
    Runs (Reader.skip (n+1) >>= f) (b::bs) rest res := by
  intro sp c h
  have htail : Window sp (c+1) (bs++rest) := (show Window sp c ([b]++(bs++rest)) from h).split.2
  have hrun:=hf sp (c+1) htail
  simp only [bind_apply,Reader.skip,List.length_cons,Nat.add_assoc,Nat.add_comm 1] at hrun ⊢
  exact hrun

theorem just_u16 {v : UInt16} (hn : xs.length=2) (hv : leWord xs=v.toNat) :
    Runs Reader.u16 xs rest (some v) := by
  intro sp c h
  have hs : slice sp.mem c 2=xs := hn ▸ h.split.1
  simp only [Reader.u16,hs,hv,UInt16.ofNat_toNat,hn]
  rfl

theorem u16 {f : UInt16 → Reader β} {v : UInt16} (hn : xs.length=2) (hv : leWord xs=v.toNat)
    (hf : Runs (f v) bs rest res) : Runs (Reader.u16 >>= f) (xs++bs) rest res :=
  bind (just_u16 hn hv) hf

theorem just_u32 {v : UInt32} (hn : xs.length=4) (hv : leWord xs=v.toNat) :
    Runs Reader.u32 xs rest (some v) := by
  intro sp c h
  have hs : slice sp.mem c 4=xs := hn ▸ h.split.1
  simp only [Reader.u32,hs,hv,UInt32.ofNat_toNat,hn]
  rfl

theorem u32 {f : UInt32 → Reader β} {v : UInt32} (hn : xs.length=4) (hv : leWord xs=v.toNat)
    (hf : Runs (f v) bs rest res) : Runs (Reader.u32 >>= f) (xs++bs) rest res :=
  bind (just_u32 hn hv) hf

theorem need {f : Unit → Reader β} (hn : n≤bs.length) (hf : Runs (f ()) bs rest res) :
    Runs (Reader.need n >>= f) bs rest res := by
  intro sp c h
  have hleft : ¬ sp.left c<n := by
    rw [h.left_eq,List.length_append]
    omega
  simp only [bind_apply,Reader.need,hleft,if_false]
  exact hf sp c h

theorem needExactly {f : Unit → Reader β} (hn : (bs++rest).length=n)
    (hf : Runs (f ()) bs rest res) : Runs (Reader.needExactly n >>= f) bs rest res := by
  intro sp c h
  simp only [bind_apply,Reader.needExactly,h.left_eq,hn,ne_eq,not_true_eq_false,if_false]
  exact hf sp c h

theorem atEnd {f : Bool → Reader β} (hf : Runs (f (bs++rest).isEmpty) bs rest res) :
    Runs (Reader.atEnd >>= f) bs rest res := by
  intro sp c h
  have he : decide (c=sp.stop)=(bs++rest).isEmpty := by
    rw [h.1]
    cases bs++rest <;> simp
  simp only [bind_apply,Reader.atEnd,he]
  exact hf sp c h

theorem times {enc : α → List UInt8} {l : List α}
    (h : ∀ a∈l,∀ rest,Runs r (enc a) rest (some a)) (rest : List UInt8) :
    Runs (Reader.times r l.length) (l.flatMap enc) rest (some l) := by
  induction l with
  | nil => exact pure []
  | cons a l ih =>
    refine bind (h a List.mem_cons_self _) (bind_last (ih fun x hx => ?_) (pure (a::l)))
    exact h x (List.mem_cons_of_mem _ hx)

end Runs
end Reader
