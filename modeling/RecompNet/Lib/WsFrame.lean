import Mathlib.Data.UInt

/-!
# Frames of the WebSocket base protocol

`decode` reads one frame off a byte stream as the base framing of RFC 6455 does: the first byte,
the mask bit with the length in its shortest form, the masking key, the masked data.
-/
/-- A frame: FIN, reserved bits and opcode as they stand in the first byte, the masking key
if it is masked, and the data, unmasked. -/
structure WsFrame where
  first : UInt8
  key : Option (UInt8 × UInt8 × UInt8 × UInt8)
  payload : List UInt8
  deriving DecidableEq

namespace WsFrame
open List

def keyByte : Option (UInt8 × UInt8 × UInt8 × UInt8) → ℕ → UInt8
  | none,_ => 0
  | some (a,b,c,d),i => [a,b,c,d].getD (i%4) 0

def mask (key : Option (UInt8 × UInt8 × UInt8 × UInt8)) (data : List UInt8) : List UInt8 :=
  data.mapIdx fun i b => b ^^^ keyByte key i

def keyBytes : Option (UInt8 × UInt8 × UInt8 × UInt8) → List UInt8
  | none => []
  | some (a,b,c,d) => [a,b,c,d]

@[simp] theorem length_mask (key : Option (UInt8 × UInt8 × UInt8 × UInt8)) (data : List UInt8) :
    (mask key data).length=data.length := by
  simp [mask]

@[simp] theorem mask_mask (key : Option (UInt8 × UInt8 × UInt8 × UInt8)) (data : List UInt8) :
    mask key (mask key data)=data := by
  apply ext_getElem (by simp)
  intro i h h'
  simp only [mask,getElem_mapIdx,UInt8.xor_assoc,UInt8.xor_self,UInt8.xor_zero]

def bigEndian (bytes : List UInt8) : ℕ := bytes.foldl (fun acc b => 256*acc+b.toNat) 0

def readLen (code : ℕ) (rest : List UInt8) : Option (ℕ × List UInt8) :=
  if code<126 then some (code,rest)
  else if code=126 then
    if rest.length<2 ∨ bigEndian (rest.take 2)<126 then none
    else some (bigEndian (rest.take 2),rest.drop 2)
  else
    if rest.length<8 ∨ bigEndian (rest.take 8)<2^16 ∨ 2^63≤bigEndian (rest.take 8) then
      none
    else some (bigEndian (rest.take 8),rest.drop 8)

variable (masked : Bool)
def readKey (rest : List UInt8) : Option (Option (UInt8 × UInt8 × UInt8 × UInt8) × List UInt8) :=
  if masked=false then some (none,rest)
  else
    match rest with
    | a::b::c::d::rest => some (some (a,b,c,d),rest)
    | _ => none

def decode : List UInt8 → Option (WsFrame × List UInt8)
  | first::second::rest =>
    (readLen (second &&& 0x7f).toNat rest).bind fun (n,rest) =>
      (readKey (second &&& 0x80 != 0) rest).bind fun (key,rest) =>
        if rest.length<n then none
        else some (⟨first,key,mask key (rest.take n)⟩,rest.drop n)
  | _ => none

def lenBytes (n : ℕ) : List UInt8 :=
  let bit : UInt8 := if masked then 0x80 else 0
  if n<126 then [bit ||| UInt8.ofNat n]
  else [bit ||| 126,UInt8.ofNat (n/256),UInt8.ofNat (n%256)]

def encode (f : WsFrame) : List UInt8 :=
  f.first::(lenBytes f.key.isSome f.payload.length++(keyBytes f.key++mask f.key f.payload))

variable {f : WsFrame}
theorem length_encode (f : WsFrame) : f.encode.length =
    (if f.payload.length<126 then 2 else 4)+(if f.key.isSome then 4 else 0)+f.payload.length := by
  have hlen : (lenBytes f.key.isSome f.payload.length).length =
      if f.payload.length<126 then 1 else 3 := by
    unfold lenBytes
    simp only
    by_cases hn : f.payload.length<126
    · rw [if_pos hn,if_pos hn]
      rfl
    · rw [if_neg hn,if_neg hn]
      rfl
  have hkey : (keyBytes f.key).length=if f.key.isSome then 4 else 0 := by
    cases f.key with
    | none | some => rfl
  rw [encode,length_cons,length_append,length_append,hlen,hkey,length_mask]
  split <;> omega

theorem encode_ne_nil (f : WsFrame) : f.encode≠[] := cons_ne_nil _ _

theorem second_byte : ∀ masked : Bool,∀ n<128,
    ((if masked then (0x80 : UInt8) else 0) ||| UInt8.ofNat n) &&& 0x7f=UInt8.ofNat n ∧
      ((((if masked then (0x80 : UInt8) else 0) ||| UInt8.ofNat n) &&& 0x80) != 0)=masked := by
  decide

theorem bigEndian_pair {n : ℕ} (h : n<65536) :
    bigEndian [UInt8.ofNat (n/256),UInt8.ofNat (n%256)]=n := by
  simp only [bigEndian,foldl_cons,foldl_nil,UInt8.toNat_ofNat']
  omega

theorem readLen_lenBytes {n : ℕ} (h : n<65536) (rest : List UInt8) :
    ∃ second tail,lenBytes masked n++rest=second::tail ∧
      readLen (second &&& 0x7f).toNat tail=some (n,rest) ∧ (second &&& 0x80 != 0)=masked := by
  unfold lenBytes
  by_cases hn : n<126
  · obtain ⟨hlow,hhigh⟩ := second_byte masked n (by omega)
    refine ⟨_,rest,by rw [if_pos hn]; rfl,?_,hhigh⟩
    have hcode : (UInt8.ofNat n).toNat=n := by
      rw [UInt8.toNat_ofNat']
      omega
    rw [hlow,hcode,readLen,if_pos hn]
  obtain ⟨hlow,hhigh⟩ := second_byte masked 126 (by omega)
  refine ⟨_,UInt8.ofNat (n/256)::UInt8.ofNat (n%256)::rest,by rw [if_neg hn]; rfl,?_,hhigh⟩
  have hcode : (UInt8.ofNat 126).toNat=126 := rfl
  have hpair : bigEndian ((UInt8.ofNat (n/256)::UInt8.ofNat (n%256)::rest).take 2)=n :=
    bigEndian_pair h
  have hfits : ¬ ((UInt8.ofNat (n/256)::UInt8.ofNat (n%256)::rest).length<2 ∨ n<126) := by
    simp only [length_cons]
    omega
  change readLen (((if masked then (0x80 : UInt8) else 0) ||| UInt8.ofNat 126) &&& 0x7f).toNat
    _ = _
  rw [hlow,hcode,readLen,if_neg (by omega),if_pos rfl,hpair,if_neg hfits]
  rfl

theorem readKey_keyBytes (key : Option (UInt8 × UInt8 × UInt8 × UInt8)) (rest : List UInt8) :
    readKey key.isSome (keyBytes key++rest)=some (key,rest) := by
  cases key with
  | none | some => rfl

theorem decode_encode (h : f.payload.length<65536) (rest : List UInt8) :
    decode (f.encode++rest)=some (f,rest) := by
  obtain ⟨second,tail,hbytes,hlen,hbit⟩ := readLen_lenBytes f.key.isSome h
    (keyBytes f.key++(mask f.key f.payload++rest))
  have hstream : f.encode++rest=f.first::second::tail := by
    rw [← hbytes]
    simp [encode]
  have hfits : ¬ (mask f.key f.payload++rest).length<f.payload.length := by
    rw [length_append,length_mask]
    omega
  rw [hstream]
  simp only [decode,hlen,Option.bind_some,hbit,readKey_keyBytes]
  rw [if_neg hfits,take_left' (length_mask ..),drop_left' (length_mask ..),mask_mask]

end WsFrame
