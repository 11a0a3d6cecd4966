import RecompNet.Protocol.DecodeScope
import Mathlib.Data.Nat.ModEq

/-!
# Corrupted datagrams

A step of the checksum is one to one in the running sum and in the byte, since the FNV prime is odd.
-/
namespace RecompNet.Proto
open Span
variable {s s' : ℕ} {b b' : UInt8}
def checksumStep (sum : ℕ) (b : UInt8) : ℕ := ((sum ^^^ b.toNat)*0x01000193)%2^32

theorem checksumStep_lt (s : ℕ) (b : UInt8) : checksumStep s b<2^32 :=
  Nat.mod_lt _ (Nat.two_pow_pos 32)

theorem xor_eq_of_checksumStep (hs : s<2^32) (hs' : s'<2^32)
    (h : checksumStep s b=checksumStep s' b') : s ^^^ b.toNat=s' ^^^ b'.toNat := by
  have hlt : ∀ {n : ℕ} (c : UInt8),n<2^32 → n ^^^ c.toNat<2^32 := fun c hn =>
    Nat.xor_lt_two_pow hn (c.toNat_lt.trans (by decide))
  have hmod : s ^^^ b.toNat ≡ s' ^^^ b'.toNat [MOD 2^32] :=
    Nat.ModEq.cancel_right_of_coprime (by decide) h
  exact hmod.eq_of_lt_of_lt (hlt b hs) (hlt b' hs')

theorem sum_eq_of_foldl {bs : List UInt8} (hs : s<2^32) (hs' : s'<2^32)
    (h : bs.foldl checksumStep s=bs.foldl checksumStep s') : s=s' := by
  induction bs generalizing s s' with
  | nil => exact h
  | cons b bs ih =>
    have hstep:=ih (checksumStep_lt s b) (checksumStep_lt s' b) h
    have hxor:=congrArg (· ^^^ b.toNat) (xor_eq_of_checksumStep hs hs' hstep)
    simpa only [Nat.xor_assoc,Nat.xor_self,Nat.xor_zero] using hxor

theorem byte_eq_of_protoChecksum {pre post : List UInt8}
    (h : protoChecksum (pre++b::post)=protoChecksum (pre++b'::post)) : b=b' := by
  have hfold : ∀ c : UInt8,protoChecksum (pre++c::post) =
      post.foldl checksumStep (checksumStep (protoChecksum pre) c) := fun c => List.foldl_append
  rw [hfold,hfold] at h
  have hlt:=protoChecksum_lt pre
  have hxor:=congrArg (protoChecksum pre ^^^ ·) (xor_eq_of_checksumStep hlt hlt
    (sum_eq_of_foldl (checksumStep_lt ..) (checksumStep_lt ..) h))
  simpa only [← Nat.xor_assoc,Nat.xor_self,Nat.zero_xor,UInt8.toNat_inj] using hxor

theorem leWord_injective {bs bs' : List UInt8} (hlen : bs.length=bs'.length)
    (h : leWord bs=leWord bs') : bs=bs' := by
  induction bs generalizing bs' with
  | nil => exact (List.length_eq_zero_iff.mp hlen.symm).symm
  | cons b bs ih =>
    obtain _ | ⟨b',bs'⟩ := bs'
    · cases hlen
    have hsum : b.toNat+256*leWord bs=b'.toNat+256*leWord bs' := h
    have hb:=b.toNat_lt
    have hb':=b'.toNat_lt
    rw [UInt8.toNat_inj.mp (show b.toNat=b'.toNat by omega),ih (Nat.succ.inj hlen) (by omega)]

variable {data data' : ℕ → UInt8} {len : ℕ} {magic : UInt32}
theorem checksum_of_decode (h : (decode data len magic).isSome) : 10≤len ∧
    leWord (slice data (len-4) 4)=protoChecksum (slice data 0 (len-4)) := by
  unfold decode at h
  split_ifs at h with hlen hmagic hsum <;> first | cases h | skip
  exact ⟨by omega,not_not.mp hsum⟩

/-- **One changed byte is always refused**, wherever it stands in the datagram. -/
theorem changed_byte_refused (data data' : ℕ → UInt8) (len i : ℕ) (magic : UInt32)
    (h : (decode data len magic).isSome) (hi : i<len) (hne : data' i≠data i)
    (hsame : ∀ j≠i,data' j=data j) : decode data' len magic=none := by
  obtain ⟨hlen,hsum⟩ := checksum_of_decode h
  by_contra hsome
  obtain ⟨-,hsum'⟩ := checksum_of_decode (Option.isSome_iff_ne_none.mpr hsome)
  have hcut : ∀ {c n : ℕ},i<c ∨ c+n ≤ i → slice data' c n=slice data c n := fun hout =>
    slice_congr fun k hk => hsame _ (by omega)
  by_cases hbody : i<len-4
  · obtain ⟨n,hn⟩ : ∃ n,len-4=i+(1+n) := ⟨len-5-i,by omega⟩
    have hsplit : ∀ mem,slice mem 0 (len-4)=slice mem 0 i++mem i::slice mem (i+1) n := by
      intro mem
      rw [hn,slice_add,slice_add]
      simp [slice]
    rw [hcut (.inl hbody),hsum,hsplit,hsplit,hcut (.inr (Nat.zero_add i).le),
      hcut (.inl i.lt_succ_self)] at hsum'
    exact hne (byte_eq_of_protoChecksum hsum').symm
  · rw [hcut (c := 0) (.inr (by omega)),← hsum] at hsum'
    have hat:=congrArg (·[i-(len-4)]?) (leWord_injective (by simp) hsum')
    have hplace : len-4+(i-(len-4))=i := by omega
    have hin : i-(len-4)<4 := by omega
    simp [slice,hin,hplace] at hat
    exact hne hat

def sampleHello : ℕ → UInt8 := (((encodeHello 64 7 1 0 2 4).getD []).getD · 0)

theorem changed_hello_refused : (decode sampleHello 18 7).isSome ∧
    decode (Function.update sampleHello 12 9) 18 7=none :=
  ⟨by decide +kernel,changed_byte_refused sampleHello _ 18 12 7 (by decide +kernel) (by decide)
    (by decide +kernel) fun _ hj => Function.update_of_ne hj ..⟩

end RecompNet.Proto
