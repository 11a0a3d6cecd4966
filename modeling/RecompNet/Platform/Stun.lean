import Mathlib.Data.List.GetD
import Mathlib.Data.UInt

/-!
# Reading a STUN binding response (`rnet_stun.c`)

Addresses and ports are the source's 32 and 16 bit words in host order.
-/
namespace RecompNet.Stun
open List

def headerSize : ℕ := 20
def magicCookie : ℕ := 0x2112a442
def bindingSuccess : ℕ := 0x0101
def attrMappedAddress : ℕ := 0x0001
def attrXorMappedAddress : ℕ := 0x0020
abbrev TransactionId := { id : List UInt8 // id.length=12 }
def readBe16 (data : List UInt8) : ℕ := 256*(data.getD 0 0).toNat+(data.getD 1 0).toNat
def readBe32 (data : List UInt8) : ℕ := 65536*readBe16 data+readBe16 (data.drop 2)
def mappedIpv4IsValid (address : ℕ) : Bool :=
  address >>> 24 != 0 && decide (address >>> 24<224) && address != 0xffffffff

structure Mapped where
  address : ℕ
  port : ℕ

inductive ParseResult
  | ok
  | transactionMismatch
  | error

/-- `address_out` and `port_out`; no port is a NULL `port_out`. -/
structure Outputs where
  address : ℕ
  port : Option ℕ

def Outputs.write (out : Outputs) (m : Mapped) : Outputs := ⟨m.address,out.port.map fun _ => m.port⟩

/-- The `have_mapped` and `have_xor_mapped` pairs of the attribute loop. -/
structure Have where
  mapped : Option Mapped := none
  xorMapped : Option Mapped := none

/-- The value of an address attribute, masked with `key` (zero for MAPPED-ADDRESS). -/
def readMapped (key : ℕ) (value : List UInt8) : Option Mapped :=
  if value.length≠8 ∨ value.getD 0 0≠0 ∨ value.getD 1 0≠1 then none
  else
    let port:=readBe16 (value.drop 2) ^^^ (key >>> 16)
    let address:=readBe32 (value.drop 4) ^^^ key
    if mappedIpv4IsValid address=false ∨ port=0 then none else some ⟨address,port⟩

def Have.take (h : Have) (type : ℕ) (value : List UInt8) : Option Have :=
  if type=attrMappedAddress then (readMapped 0 value).map fun m => { h with mapped := some m }
  else if type=attrXorMappedAddress then
    (readMapped magicCookie value).map fun m => { h with xorMapped := some m }
  else some h

/-- The loop over the attributes, on the bytes from `offset` on. -/
def parseAttributes (h : Have) (rest : List UInt8) : Option Have :=
  if rest=[] then some h
  else if rest.length<4 then none
  else
    let valueLen:=readBe16 (rest.drop 2)
    let paddedLen:=(valueLen+3)/4*4
    if (rest.drop 4).length<valueLen then none
    else if (rest.drop 4).length<paddedLen then none
    else (h.take (readBe16 rest) ((rest.drop 4).take valueLen)).bind fun h =>
      parseAttributes h ((rest.drop 4).drop paddedLen)
termination_by rest.length
decreasing_by simp only [List.length_drop]; omega

def Have.answer (h : Have) : Option Mapped := h.xorMapped.or h.mapped

def Outputs.finish (out : Outputs) : Option Mapped → ParseResult × Outputs
  | some m => (.ok,out.write m)
  | none => (.error,out)

def parseBindingResponseEx (packet : List UInt8) (id : TransactionId) (out : Outputs) :
    ParseResult × Outputs :=
  if packet.length<headerSize then (.error,out)
  else if readBe16 packet≠bindingSuccess ∨ readBe32 (packet.drop 4)≠magicCookie then
    (.error,out)
  else if (packet.drop 8).take 12≠id.1 then (.transactionMismatch,out)
  else if readBe16 (packet.drop 2)%4≠0 ∨
      readBe16 (packet.drop 2)≠packet.length-headerSize then (.error,out)
  else out.finish ((parseAttributes {} (packet.drop headerSize)).bind Have.answer)

/-! ### The grammar of an answer -/
/-- The bytes of one attribute: type, length, and the value padded to a multiple of four. -/
structure Attribute where
  bytes : List UInt8
  header : 4≤bytes.length
  padded : bytes.length=4+(readBe16 (bytes.drop 2)+3)/4*4

namespace Attribute
variable (a : Attribute)
def type : ℕ := readBe16 a.bytes
def value : List UInt8 := (a.bytes.drop 4).take (readBe16 (a.bytes.drop 2))
def IsAddress : Prop := a.type=attrMappedAddress ∨ a.type=attrXorMappedAddress

/-- The port and the address that eight bytes of value spell, with the cookie taken off those of an
XOR-MAPPED-ADDRESS. -/
def spelled (p₁ p₂ b₁ b₂ b₃ b₄ : UInt8) : Mapped :=
  let key:=if a.type=attrXorMappedAddress then 0x2112a442 else 0
  ⟨(2^24*b₁.toNat+2^16*b₂.toNat+2^8*b₃.toNat+b₄.toNat) ^^^ key,
    (2^8*p₁.toNat+p₂.toNat) ^^^ (key/2^16)⟩

/-- What an address attribute names, if it is a valid IPv4 one with a nonzero port: the bytes 0 and
1 (the family), the port and an address whose first octet is 1..223. -/
def names : Option Mapped :=
  match a.value with
  | [0,1,p₁,p₂,b₁,b₂,b₃,b₄] =>
    let m:=a.spelled p₁ p₂ b₁ b₂ b₃ b₄
    if m.port≠0 ∧ 1 ≤ m.address/2^24 ∧ m.address/2^24<224 then some m else none
  | _ => none

end Attribute

variable (attrs : List Attribute)
def tiled : List UInt8 := attrs.flatMap Attribute.bytes
def WellMapped : Prop := ∀ a∈attrs,a.IsAddress → a.names.isSome

/-- What the last attribute of a type names. -/
def lastNamed (type : ℕ) (attrs : List Attribute) : Option Mapped :=
  (attrs.reverse.find? fun a => a.type=type).bind Attribute.names

/-- What the last XOR-MAPPED attribute names, or the last MAPPED one if there is none. -/
def answerOf : Option Mapped :=
  (lastNamed attrXorMappedAddress attrs).or (lastNamed attrMappedAddress attrs)

structure IsAnswer (packet : List UInt8) (id : TransactionId) : Prop where
  long : headerSize≤packet.length
  success : readBe16 packet=bindingSuccess
  cookie : readBe32 (packet.drop 4)=magicCookie
  transaction : (packet.drop 8).take 12=id.1
  words : readBe16 (packet.drop 2)%4=0
  length : readBe16 (packet.drop 2)=packet.length-headerSize

variable {h g : Have} {attrs : List Attribute} {rest packet : List UInt8} {id : TransactionId}
  {out : Outputs}

/-! ### The loop over the attributes -/
variable {data : List UInt8}
theorem readBe16_append (h : 2≤data.length) (rest : List UInt8) :
    readBe16 (data++rest)=readBe16 data := by
  unfold readBe16
  rw [getD_append _ _ _ _ (by omega),getD_append _ _ _ _ (by omega)]

theorem readBe16_drop_append (h : 4≤data.length) (rest : List UInt8) :
    readBe16 ((data++rest).drop 2)=readBe16 (data.drop 2) := by
  rw [drop_append_of_le_length (by omega),readBe16_append (by rw [length_drop]; omega)]

theorem parseAttributes_bytes (h : Have) (a : Attribute) (rest : List UInt8) :
    parseAttributes h (a.bytes++rest) =
      (h.take a.type a.value).bind fun h => parseAttributes h rest := by
  have hhead:=a.header
  have hpad:=a.padded
  have hbody : (a.bytes++rest).drop 4=a.bytes.drop 4++rest := drop_append_of_le_length hhead
  rw [parseAttributes,if_neg (ne_nil_of_length_pos (by rw [length_append]; omega)),
    if_neg (by rw [length_append]; omega)]
  simp only [readBe16_drop_append hhead,hbody,readBe16_append (by omega : 2≤a.bytes.length)]
  have hlen : (a.bytes.drop 4).length=(readBe16 (a.bytes.drop 2)+3)/4*4 := by
    rw [length_drop]
    omega
  rw [if_neg (by rw [length_append]; omega),if_neg (by rw [length_append]; omega),
    take_append_of_le_length (by omega),← hlen,drop_left]
  rfl

/-- The attributes taken one after the other. -/
def Have.takeAll (h : Have) (attrs : List Attribute) : Option Have :=
  attrs.foldlM (fun h a => h.take a.type a.value) h

theorem parseAttributes_tiled (attrs : List Attribute) (h : Have) :
    parseAttributes h (tiled attrs)=h.takeAll attrs := by
  induction attrs generalizing h with
  | nil => rw [parseAttributes]; rfl
  | cons a attrs ih =>
    rw [tiled,flatMap_cons,parseAttributes_bytes,Have.takeAll,foldlM_cons]
    exact congrArg _ (funext ih)

theorem tiled_of_parse (hp : parseAttributes h rest=some g) : ∃ attrs,rest=tiled attrs := by
  induction hn : rest.length using Nat.strong_induction_on generalizing h rest with
  | _ n ih =>
  rw [parseAttributes] at hp
  split at hp
  · next hnil => exact ⟨[],hnil⟩
  split at hp
  · cases hp
  next hfour =>
  dsimp only at hp
  split at hp
  · cases hp
  split at hp
  · cases hp
  next hpadded =>
  obtain ⟨h',-,hrest⟩ := Option.bind_eq_some_iff.mp hp
  rw [drop_drop] at hrest
  obtain ⟨attrs,hattrs⟩ := ih _ (by rw [length_drop]; omega) hrest rfl
  rw [length_drop] at hpadded
  generalize hk : 4+(readBe16 (rest.drop 2)+3)/4*4=k at hattrs
  have hlen : (rest.take k).length=k := length_take_of_le (by omega)
  have hsplit:=take_append_drop k rest
  refine ⟨⟨rest.take k,by omega,?_⟩::attrs,?_⟩
  · rw [← readBe16_drop_append (by omega) (rest.drop k),hsplit]
    omega
  · rw [tiled,flatMap_cons,← tiled,← hattrs,hsplit]

/-! ### What was taken -/
theorem lastNamed_append (type : ℕ) (attrs : List Attribute) (a : Attribute) :
    lastNamed type (attrs++[a])=if a.type=type then a.names else lastNamed type attrs := by
  rw [lastNamed,reverse_append,reverse_singleton,singleton_append,List.find?_cons]
  split <;> simp_all [lastNamed]

theorem mappedIpv4IsValid_iff (address : ℕ) : mappedIpv4IsValid address=true ↔
    1≤address/2^24 ∧ address/2^24<224 := by
  simp only [mappedIpv4IsValid,Nat.shiftRight_eq_div_pow,Bool.and_eq_true,bne_iff_ne,ne_eq,
    decide_eq_true_eq]
  omega

theorem readBe32_quad (b₁ b₂ b₃ b₄ : UInt8) : readBe32 [b₁,b₂,b₃,b₄] =
    2^24*b₁.toNat+2^16*b₂.toNat+2^8*b₃.toNat+b₄.toNat := by
  simp only [readBe32,readBe16,drop_succ_cons,drop_zero,getD_cons_zero,getD_cons_succ]
  omega

theorem readMapped_value (a : Attribute) :
    readMapped (if a.type=attrXorMappedAddress then magicCookie else 0) a.value=a.names := by
  by_cases hshape : ∃ p₁ p₂ b₁ b₂ b₃ b₄,a.value=[0,1,p₁,p₂,b₁,b₂,b₃,b₄]
  · obtain ⟨p₁,p₂,b₁,b₂,b₃,b₄,hvalue⟩ := hshape
    generalize hkey : (if a.type=attrXorMappedAddress then magicCookie else 0)=key
    have hport : readBe16 [p₁,p₂,b₁,b₂,b₃,b₄] ^^^ (key >>> 16) =
        (a.spelled p₁ p₂ b₁ b₂ b₃ b₄).port := by
      rw [← hkey,Nat.shiftRight_eq_div_pow]
      rfl
    have haddr : readBe32 [b₁,b₂,b₃,b₄] ^^^ key=(a.spelled p₁ p₂ b₁ b₂ b₃ b₄).address := by
      rw [← hkey,readBe32_quad]
      rfl
    unfold Attribute.names
    rw [hvalue]
    simp only [readMapped,drop_succ_cons,drop_zero,hport,haddr]
    generalize a.spelled p₁ p₂ b₁ b₂ b₃ b₄=m
    rw [if_neg (by simp)]
    simp only [← Bool.not_eq_true,mappedIpv4IsValid_iff]
    by_cases hok : m.port≠0 ∧ 1 ≤ m.address/2^24 ∧ m.address/2^24<224
    · rw [if_neg (by tauto),if_pos hok]
    · rw [if_pos (by tauto),if_neg hok]
  · have hnames : a.names=none := by
      unfold Attribute.names
      split
      · next hvalue => exact absurd ⟨_,_,_,_,_,_,hvalue⟩ hshape
      · rfl
    rw [hnames,readMapped,if_pos]
    by_contra hread
    simp only [not_or,not_not] at hread
    obtain ⟨hlen,hzero,hone⟩ := hread
    match hv : a.value with
    | [z,f,p₁,p₂,b₁,b₂,b₃,b₄] =>
      rw [hv] at hzero hone
      obtain rfl : z=0 := hzero
      obtain rfl : f=1 := hone
      exact hshape ⟨_,_,_,_,_,_,hv⟩
    | [] | [_] | [_,_] | [_,_,_] | [_,_,_,_] | [_,_,_,_,_] | [_,_,_,_,_,_]
    | [_,_,_,_,_,_,_] | _::_::_::_::_::_::_::_::_::_ => simp [hv] at hlen

theorem take_names (h : Have) (a : Attribute) : h.take a.type a.value =
    if a.type=attrMappedAddress then a.names.map fun m => { h with mapped := some m }
    else if a.type=attrXorMappedAddress then a.names.map fun m => { h with xorMapped := some m }
    else some h := by
  unfold Have.take
  rw [← readMapped_value]
  split
  · next hm => rw [hm,if_neg (by decide)]
  split <;> rfl

theorem takeAll_spec (attrs : List Attribute) : (WellMapped attrs → Have.takeAll {} attrs =
      some ⟨lastNamed attrMappedAddress attrs,lastNamed attrXorMappedAddress attrs⟩) ∧
    (¬ WellMapped attrs → Have.takeAll {} attrs=none) := by
  induction attrs using List.reverseRecOn with
  | nil => exact ⟨fun _ => rfl,fun h => absurd (forall_mem_nil _) h⟩
  | append_singleton attrs a ih =>
    have hstep : Have.takeAll {} (attrs++[a]) =
        (Have.takeAll {} attrs).bind fun h => h.take a.type a.value := by
      simp [Have.takeAll,foldlM_append]
    have hwell : WellMapped (attrs++[a]) ↔ WellMapped attrs ∧ (a.IsAddress → a.names.isSome) := by
      rw [WellMapped,forall_mem_append,forall_mem_singleton,WellMapped]
    by_cases hattrs : WellMapped attrs
    · have hne : attrMappedAddress≠attrXorMappedAddress := by decide
      rw [hstep,hwell,ih.1 hattrs,Option.bind_some,take_names,lastNamed_append,
        lastNamed_append,Attribute.IsAddress]
      by_cases hm : a.type=attrMappedAddress
      · cases hn : a.names <;> simp [hm,hne,hattrs]
      by_cases hx : a.type=attrXorMappedAddress
      · cases hn : a.names <;> simp [hx,hne.symm,hattrs]
      · simp [hm,hx,hattrs]
    · rw [hstep,hwell,ih.2 hattrs]
      exact ⟨fun h => absurd h.1 hattrs,fun _ => rfl⟩

theorem takeAll_insert {before others after : List Attribute} (ho : ∀ a∈others,¬ a.IsAddress)
    (h : Have) : h.takeAll (before++others++after)=h.takeAll (before++after) := by
  have hothers : ∀ h : Have,h.takeAll others=some h := by
    intro h
    induction others with
    | nil => rfl
    | cons a others ih =>
      obtain ⟨ha,ho⟩ := forall_mem_cons.mp ho
      rw [Have.takeAll,foldlM_cons,take_names,if_neg (not_or.mp ha).1,if_neg (not_or.mp ha).2]
      exact ih ho
  simp only [Have.takeAll,foldlM_append] at hothers ⊢
  simp [hothers]

theorem lastNamed_isSome (hwell : WellMapped attrs) {type : ℕ}
    (ht : type=attrMappedAddress ∨ type=attrXorMappedAddress) :
    (lastNamed type attrs).isSome ↔ ∃ a∈attrs,a.type=type := by
  unfold lastNamed
  cases hf : attrs.reverse.find? fun a => a.type=type with
  | none => simpa using hf
  | some a =>
    have hmem:=mem_reverse.mp (mem_of_find?_eq_some hf)
    have htype : a.type=type := by simpa using List.find?_some hf
    exact ⟨fun _ => ⟨a,hmem,htype⟩,fun _ => hwell a hmem (by rwa [← htype] at ht)⟩

/-! ### The whole packet -/
theorem IsAnswer.parse (h : IsAnswer packet id) : parseBindingResponseEx packet id out =
    out.finish ((parseAttributes {} (packet.drop headerSize)).bind Have.answer) := by
  rw [parseBindingResponseEx,if_neg h.long.not_gt,
    if_neg (not_or.mpr ⟨not_not.mpr h.success,not_not.mpr h.cookie⟩),
    if_neg (not_not.mpr h.transaction),
    if_neg (not_or.mpr ⟨not_not.mpr h.words,not_not.mpr h.length⟩)]

theorem parse_of_not (h : ¬ IsAnswer packet id) : (parseBindingResponseEx packet id out).1≠.ok ∧
      (parseBindingResponseEx packet id out).2=out := by
  unfold parseBindingResponseEx
  split
  · exact ⟨ParseResult.noConfusion,rfl⟩
  split
  · exact ⟨ParseResult.noConfusion,rfl⟩
  split
  · exact ⟨ParseResult.noConfusion,rfl⟩
  split
  · exact ⟨ParseResult.noConfusion,rfl⟩
  next hlong hhead hid hlen =>
  simp only [not_or,not_not] at hhead hid hlen
  exact absurd ⟨not_lt.mp hlong,hhead.1,hhead.2,hid,hlen.1,hlen.2⟩ h

theorem parse_tiled (h : IsAnswer packet id) (ht : packet.drop headerSize=tiled attrs) :
    parseBindingResponseEx packet id out =
      out.finish ((Have.takeAll {} attrs).bind Have.answer) := by
  rw [h.parse,ht,parseAttributes_tiled]

theorem ok_tiled (h : IsAnswer packet id) (ht : packet.drop headerSize=tiled attrs) :
    ((parseBindingResponseEx packet id out).1=.ok ↔ WellMapped attrs ∧ ∃ a∈attrs,a.IsAddress) ∧
    ((parseBindingResponseEx packet id out).1=.ok → ∃ m,answerOf attrs=some m ∧
      (parseBindingResponseEx packet id out).2=out.write m) := by
  rw [parse_tiled h ht]
  by_cases hwell : WellMapped attrs
  · have hsome : (answerOf attrs).isSome ↔ ∃ a∈attrs,a.IsAddress := by
      rw [answerOf,Option.isSome_or,Bool.or_eq_true,lastNamed_isSome hwell (.inr rfl),
        lastNamed_isSome hwell (.inl rfl)]
      grind [Attribute.IsAddress]
    rw [(takeAll_spec attrs).1 hwell,Option.bind_some,Have.answer,← answerOf]
    cases ho : answerOf attrs with
    | none =>
      rw [ho] at hsome
      refine ⟨⟨fun h => (by cases h),fun h => ?_⟩,fun h => (by cases h)⟩
      cases hsome.mpr h.2
    | some m =>
      exact ⟨⟨fun _ => ⟨hwell,hsome.mp (by rw [ho]; rfl)⟩,fun _ => rfl⟩,fun _ => ⟨m,rfl,rfl⟩⟩
  · rw [(takeAll_spec attrs).2 hwell]
    exact ⟨⟨fun h => (by cases h),fun h => absurd h.1 hwell⟩,fun h => (by cases h)⟩

/-- **STUN answers are read exactly.** -/
theorem binding_answer_exact (packet : List UInt8) (id : TransactionId) (out : Outputs) :
    let r:=parseBindingResponseEx packet id out
    (r.1=.ok ↔ IsAnswer packet id ∧ ∃ attrs,packet.drop headerSize=tiled attrs ∧
      WellMapped attrs ∧ ∃ a∈attrs,a.IsAddress) ∧
    (r.1=.ok → ∀ attrs,packet.drop headerSize=tiled attrs →
      ∃ m,answerOf attrs=some m ∧ r.2=out.write m) ∧ (r.1≠.ok → r.2=out) ∧
    ∀ packet' before others after,IsAnswer packet id → IsAnswer packet' id →
      packet.drop headerSize=tiled (before++after) → (∀ a∈others,¬ a.IsAddress) →
      packet'.drop headerSize=tiled (before++others++after) →
      parseBindingResponseEx packet' id out=r := by
  dsimp only
  have hans : (parseBindingResponseEx packet id out).1=.ok → IsAnswer packet id :=
    fun hok => by_contra fun h => (parse_of_not h).1 hok
  refine ⟨⟨fun hok => ?_,fun ⟨h,attrs,ht,hwell⟩ => (ok_tiled h ht).1.mpr hwell⟩,
    fun hok attrs ht => (ok_tiled (hans hok) ht).2 hok,fun hbad => ?_,
    fun packet' before others after h h' ht ho ht' => ?_⟩
  · have h:=hans hok
    have hp : parseBindingResponseEx packet id out=_ := h.parse
    cases hparse : parseAttributes {} (packet.drop headerSize) with
    | none =>
      rw [hp,hparse] at hok
      cases hok
    | some g =>
      obtain ⟨attrs,ht⟩ := tiled_of_parse hparse
      exact ⟨h,attrs,ht,(ok_tiled h ht).1.mp hok⟩
  · by_cases h : IsAnswer packet id
    · rw [h.parse] at hbad ⊢
      cases ho : (parseAttributes {} (packet.drop headerSize)).bind Have.answer with
      | none => rfl
      | some m => exact absurd (by rw [ho]; rfl) hbad
    · exact (parse_of_not h).2
  · rw [parse_tiled h ht,parse_tiled h' ht',takeAll_insert ho]

/-! The answer 192.0.2.1, port 32853, in an XOR-MAPPED-ADDRESS after an attribute of another type. -/
def sampleId : TransactionId := ⟨[1,2,3,4,5,6,7,8,9,10,11,12],rfl⟩
def sampleSoftware : Attribute := ⟨[0x80,0x22,0,3,65,66,67,0],by decide,by decide⟩
def sampleXor : Attribute := ⟨[0,0x20,0,8,0,1,0xa1,0x47,0xe1,0x12,0xa6,0x43],by decide,by decide⟩
def sampleAnswer : List UInt8 :=
  [1,1,0,20,0x21,0x12,0xa4,0x42]++sampleId.1++tiled [sampleSoftware,sampleXor]

theorem binding_answer_sample :
    (parseBindingResponseEx sampleAnswer sampleId ⟨0,some 0⟩).1=.ok ∧
      answerOf [sampleSoftware,sampleXor]=some ⟨0xc0000201,32853⟩ ∧
      (parseBindingResponseEx sampleAnswer sampleId ⟨0,some 0⟩).2=⟨0xc0000201,some 32853⟩ := by
  have hans : answerOf [sampleSoftware,sampleXor]=some ⟨0xc0000201,32853⟩ := by rfl
  have hexact:=binding_answer_exact sampleAnswer sampleId ⟨0,some 0⟩
  have hok : (parseBindingResponseEx sampleAnswer sampleId ⟨0,some 0⟩).1=.ok := by
    refine hexact.1.mpr ⟨by constructor <;> decide,[sampleSoftware,sampleXor],by decide,?_,
      sampleXor,by simp,.inr (by decide)⟩
    unfold WellMapped
    simp only [forall_mem_cons]
    exact ⟨fun h => absurd h (by unfold Attribute.IsAddress; decide),fun _ => rfl,forall_mem_nil _⟩
  obtain ⟨m,hm,hout⟩ := hexact.2.1 hok [sampleSoftware,sampleXor] (by decide)
  obtain rfl := Option.some.inj (hans.symm.trans hm)
  exact ⟨hok,hans,hout⟩

end RecompNet.Stun
