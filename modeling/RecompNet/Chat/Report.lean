import RecompNet.Lib.CText
import RecompNet.Lib.JsonText

/-!
# Chat reports (`rnet_chat_report.c`)

A report is a JSON object: a reason, a note, where it happened, and the ids of the messages.
-/
namespace RecompNet.Chat
open JsonText List

def reportMaxMessages : ℕ := 16
def reportNoteMax : ℕ := 500
def reportOther : List UInt8 := asciiText "other"

structure ReportMeta where
  game : Option (List UInt8)
  gameVersion : Option (List UInt8)
  platform : Option (List UInt8)
  server : Option (List UInt8)
  lobby : Option (List UInt8)
  scope : Option (List UInt8)

def ReportMeta.empty : ReportMeta := ⟨none,none,none,none,none,none⟩

/-- The arguments of `rnet_chat_report_build` besides the buffer. -/
structure Report where
  mids : List (Option (List UInt8))
  reason : Option (List UInt8)
  note : Option (List UInt8)
  metadata : Option ReportMeta

def hexDigit (n : UInt8) : UInt8 := if n<10 then 48+n else 87+n

/-- What `json_escape` writes for one byte. -/
def escapePiece (c : UInt8) : List UInt8 :=
  if c=34 ∨ c=92 then [92,c]
  else if c=10 then [92,110]
  else if c=13 then [92,114]
  else if c=9 then [92,116]
  else if c<32 then [92,117,48,48,hexDigit (c/16),hexDigit (c%16)]
  else [c]

/-- The loop of `json_escape` with `o` bytes written. -/
def escapeFrom (cap : ℕ) : ℕ → List UInt8 → List UInt8
  | _,[] => []
  | o,c::text =>
    if cap<o+(escapePiece c).length+1 then []
    else escapePiece c++escapeFrom cap (o+(escapePiece c).length) text

/-- `json_escape`. -/
def jsonEscape (text : List UInt8) (cap : ℕ) : List UInt8 := escapeFrom cap 0 text

variable (cap : ℕ)
def put (out text : List UInt8) : Option (List UInt8) :=
  if cap-out.length≤text.length then none else some (out++text)

/-- `append_str`. -/
def appendStr (key : String) (val : Option (List UInt8)) (out : List UInt8) : Option (List UInt8) :=
  put cap out (34::(asciiText key++[34,58,34]++jsonEscape (val.getD []) 1024++[34,44]))

def appendIds (cap : ℕ) : List (Option (List UInt8)) → ℕ → List UInt8 → Option (List UInt8 × ℕ)
  | [],written,out => some (out,written)
  | mid::mids,written,out =>
    if mid.getD []=[] then appendIds cap mids written out
    else do
      let comma:=if written=0 then [] else [44]
      let out ← put cap out (comma++34::(jsonEscape (mid.getD []) 96++[34]))
      appendIds cap mids (written+1) out

def opening : List UInt8 := asciiText "\x7b\"op\":\"chat_report\",\"v\":1,"

variable (r : Report)
/-- reason, or "other". -/
def Report.reasonText : List UInt8 :=
  if r.reason.getD []=[] then reportOther else r.reason.getD []

/-- `note_cut`. -/
def Report.noteCut : List UInt8 := (r.note.getD []).take reportNoteMax

def chatReportBuild (r : Report) : Option (List UInt8) := do
  let data:=r.metadata.getD .empty
  if cap<64 ∨ r.mids=[] then none
  else
    let out ← put cap [] opening
    let out ← appendStr cap "reason" (some r.reasonText) out
    let out ← appendStr cap "note" (some r.noteCut) out
    let out ← appendStr cap "game" data.game out
    let out ← appendStr cap "game_version" data.gameVersion out
    let out ← appendStr cap "platform" data.platform out
    let out ← appendStr cap "server" data.server out
    let out ← appendStr cap "lobby" data.lobby out
    let out ← appendStr cap "scope" data.scope out
    let out ← put cap out (asciiText "\"mids\":[")
    let ids ← appendIds cap (r.mids.take reportMaxMessages) 0 out
    if ids.2=0 then none else put cap ids.1 (asciiText "]\x7d")

def Report.fields : List (String × List UInt8) :=
  let data:=r.metadata.getD .empty
  [("reason",r.reasonText),("note",r.noteCut),("game",data.game.getD []),
    ("game_version",data.gameVersion.getD []),("platform",data.platform.getD []),
    ("server",data.server.getD []),("lobby",data.lobby.getD []),("scope",data.scope.getD [])]

def usable (mids : List (Option (List UInt8))) : List (List UInt8) :=
  (mids.map (·.getD [])).filter (· ≠ [])
def Report.ids : List (List UInt8) := usable (r.mids.take reportMaxMessages)

def reportJson (fields : List (String × List UInt8)) (ids : List (List UInt8)) : Json :=
  .obj ((asciiText "op",.str (asciiText "chat_report"))::(asciiText "v",.num 1) ::
    (fields.map (fun f => (asciiText f.1,.str f.2))++[(asciiText "mids",.arr (ids.map .str))]))

/-- The text is the whole report. -/
def Report.Says (text : List UInt8) : Prop := parse text=some (reportJson r.fields r.ids)

theorem escapePiece_unit {c : UInt8} (hc : c<32) :
    codeUnit 48 48 (hexDigit (c/16)) (hexDigit (c%16))=some c := by
  have hall : ∀ n<32,codeUnit 48 48 (hexDigit (UInt8.ofNat n/16)) (hexDigit (UInt8.ofNat n%16)) =
      some (UInt8.ofNat n) := by decide +kernel
  have hn:=hall c.toNat (UInt8.lt_iff_toNat_lt.mp hc)
  rwa [UInt8.ofNat_toNat] at hn

theorem escapePiece_reads (c : UInt8) : Piece (escapePiece c) c := by
  unfold escapePiece
  split_ifs with hquote hnl hcr htab hlow
  · refine piece_escape ?_
    rcases hquote with rfl | rfl <;> decide
  · exact hnl ▸ piece_escape (by decide)
  · exact hcr ▸ piece_escape (by decide)
  · exact htab ▸ piece_escape (by decide)
  · exact piece_unit (escapePiece_unit hlow)
  · exact piece_plain (fun h => hquote (.inl h)) (fun h => hquote (.inr h)) hlow

def cutText (cap : ℕ) : ℕ → List UInt8 → List UInt8
  | _,[] => []
  | o,c::text =>
    if cap<o+(escapePiece c).length+1 then []
    else c::cutText cap (o+(escapePiece c).length) text

theorem escapeFrom_eq (cap o : ℕ) (text : List UInt8) :
    escapeFrom cap o text=(cutText cap o text).flatMap escapePiece := by
  induction text generalizing o with
  | nil => rfl
  | cons c text ih =>
    rw [escapeFrom,cutText]
    split
    · rfl
    · rw [flatMap_cons,ih]

variable {cap : ℕ}
theorem cutText_eq_self_iff {o : ℕ} (ho : o<cap) (text : List UInt8) :
    cutText cap o text=text ↔ o+(text.flatMap escapePiece).length<cap := by
  induction text generalizing o with
  | nil => exact iff_of_true rfl (by simpa using ho)
  | cons c text ih =>
    rw [cutText,flatMap_cons,length_append]
    by_cases hfull : cap<o+(escapePiece c).length+1
    · rw [if_pos hfull]
      exact iff_of_false (cons_ne_nil c text).symm (by omega)
    rw [if_neg hfull,cons_eq_cons,ih (by omega)]
    simp only [true_and]
    omega

def cutValue (val : List UInt8) : List UInt8 := cutText 1024 0 val
def cutId (id : List UInt8) : List UInt8 := cutText 96 0 id

theorem put_put (cap : ℕ) (out a b : List UInt8) :
    ((put cap out a).bind fun out => put cap out b)=put cap out (a++b) := by
  unfold put
  by_cases ha : cap-out.length≤a.length
  · rw [if_pos ha,if_pos (by rw [length_append]; omega)]
    rfl
  rw [if_neg ha,Option.bind_some]
  simp only [length_append,append_assoc]
  by_cases hb : cap-(out.length+a.length)≤b.length
  · rw [if_pos hb,if_pos (by omega)]
  · rw [if_neg hb,if_neg (by omega)]

theorem put_bind_put {β : Type} (cap : ℕ) (out a b : List UInt8) (f : List UInt8 → Option β) :
    ((put cap out a).bind fun out => (put cap out b).bind f)=(put cap out (a++b)).bind f := by
  rw [← put_put,Option.bind_assoc]

theorem put_length {out text out' : List UInt8} (h : put cap out text=some out') :
    out'=out++text ∧ out'.length<cap := by
  unfold put at h
  split at h
  · cases h
  next hfit =>
  cases h
  exact ⟨rfl,by rw [length_append]; omega⟩

def idsText : ℕ → List (List UInt8) → List UInt8
  | _,[] => []
  | written,id::ids =>
    (if written=0 then [] else [44])++literal escapePiece (cutId id)++idsText (written+1) ids

theorem idsText_zero (ids : List (List UInt8)) :
    idsText 0 ids=literals escapePiece (ids.map cutId) := by
  have hmore : ∀ written ids,ids≠[] →
      idsText (written+1) ids=44::literals escapePiece (ids.map cutId) := by
    intro written ids
    induction ids generalizing written with
    | nil => exact fun h => absurd rfl h
    | cons id ids ih =>
      intro _
      cases ids with
      | nil => simp [idsText,literals]
      | cons next ids =>
        rw [idsText,ih (written+1) (cons_ne_nil next ids)]
        simp [literals]
  cases ids with
  | nil => rfl
  | cons id ids =>
    cases ids with
    | nil => simp [idsText,literals]
    | cons next ids =>
      rw [idsText,hmore 0 _ (cons_ne_nil next ids)]
      simp [literals]

theorem appendIds_eq (mids : List (Option (List UInt8))) (written : ℕ)
    {out : List UInt8} (hout : out.length<cap) :
    appendIds cap mids written out=(put cap out (idsText written (usable mids))).map
      fun out => (out,written+(usable mids).length) := by
  induction mids generalizing written out with
  | nil =>
    have hput : put cap out []=some out := by
      unfold put
      rw [if_neg (by simp only [length_nil]; omega),append_nil]
    change some (out,written)=(put cap out []).map _
    rw [hput]
    rfl
  | cons mid mids ih =>
    rw [appendIds]
    by_cases hempty : mid.getD []=[]
    · have husable : usable (mid::mids)=usable mids := by simp [usable,hempty]
      rw [if_pos hempty,husable]
      exact ih written hout
    have husable : usable (mid::mids)=mid.getD []::usable mids := by simp [usable,hempty]
    rw [if_neg hempty,husable,idsText,← put_put]
    have htext : literal escapePiece (cutId (mid.getD [])) =
        34::(jsonEscape (mid.getD []) 96++[34]) := by
      rw [jsonEscape,escapeFrom_eq]
      rfl
    rw [htext]
    dsimp only
    cases hput : put cap out ((if written=0 then [] else [44]) ++
        34::(jsonEscape (mid.getD []) 96++[34])) with
    | none => rfl
    | some out' =>
      rw [Option.bind_eq_bind,Option.bind_some,Option.bind_some,
        ih (written+1) (put_length hput).2,length_cons]
      congr 1
      funext o
      congr 1
      omega

def fieldText (f : String × List UInt8) : List UInt8 :=
  34::(asciiText f.1++[34,58])++literal escapePiece (cutValue f.2)++[44]

def Report.frame : List UInt8 :=
  opening++r.fields.flatMap fieldText++asciiText "\"mids\":["++idsText 0 r.ids ++asciiText "]\x7d"

theorem appendStr_eq (cap : ℕ) (key : String) (val : Option (List UInt8)) (out : List UInt8) :
    appendStr cap key val out=put cap out (fieldText (key,val.getD [])) := by
  unfold appendStr fieldText literal cutValue
  rw [jsonEscape,escapeFrom_eq]
  simp

def Report.beforeIds : List UInt8 := opening++r.fields.flatMap fieldText++asciiText "\"mids\":["

theorem chatReportBuild_beforeIds (cap : ℕ) (r : Report) :
    chatReportBuild cap r=if cap<64 ∨ r.mids=[] then none
      else (put cap [] r.beforeIds).bind fun out =>
        (appendIds cap (r.mids.take reportMaxMessages) 0 out).bind fun ids =>
          if ids.2=0 then none else put cap ids.1 (asciiText "]\x7d") := by
  unfold chatReportBuild
  split
  · rfl
  simp only [Option.bind_eq_bind,appendStr_eq,put_bind_put]
  simp only [Report.beforeIds,Report.fields,flatMap_cons,flatMap_nil,
    append_assoc,append_nil,Option.getD_some]

theorem chatReportBuild_eq (cap : ℕ) (r : Report) : chatReportBuild cap r =
      if cap<64 ∨ r.ids=[] ∨ cap ≤ r.frame.length then none else some r.frame := by
  have hframe : r.frame=r.beforeIds++idsText 0 r.ids++asciiText "]\x7d" := rfl
  rw [chatReportBuild_beforeIds]
  by_cases hstop : cap<64 ∨ r.mids=[]
  · rw [if_pos hstop,if_pos]
    rcases hstop with hcap | hmids
    · exact .inl hcap
    refine .inr (.inl ?_)
    unfold Report.ids
    rw [hmids]
    rfl
  · rw [if_neg hstop]
    obtain ⟨hcap,-⟩ := not_or.mp hstop
    cases hput : put cap [] r.beforeIds with
    | none =>
      -- no room for what stands before the ids
      have hroom : cap ≤ r.beforeIds.length := by
        unfold put at hput
        split at hput
        · next h => simpa using h
        · cases hput
      have hfull : cap ≤ r.frame.length := by
        rw [hframe,length_append,length_append]
        omega
      rw [if_pos (.inr (.inr hfull)),Option.bind_none]
    | some out =>
      obtain ⟨hout,hlen⟩ := put_length hput
      rw [nil_append] at hout
      rw [Option.bind_some,appendIds_eq _ 0 hlen]
      change ((put cap out (idsText 0 r.ids)).map fun out => (out,0+r.ids.length)).bind _ = _
      rw [Option.bind_map]
      by_cases hids : r.ids=[]
      · rw [if_pos (.inr (.inl hids)),hids]
        cases put cap out (idsText 0 []) <;> rfl
      have hwritten : 0+r.ids.length≠0 := by
        rw [Nat.zero_add]
        exact fun h => hids (length_eq_zero_iff.mp h)
      have hbind : ((put cap out (idsText 0 r.ids)).bind
          ((fun ids : List UInt8 × ℕ => if ids.2=0 then none
            else put cap ids.1 (asciiText "]\x7d")) ∘ fun out => (out,0+r.ids.length))) =
          put cap out (idsText 0 r.ids++asciiText "]\x7d") := by
        rw [← put_put]
        refine congrArg _ (funext fun o => ?_)
        exact if_neg hwritten
      rw [hbind,hframe,hout,put]
      simp only [length_append,append_assoc] at hlen ⊢
      by_cases hfull : cap ≤ r.beforeIds.length+((idsText 0 r.ids).length +
          (asciiText "]\x7d").length)
      · rw [if_pos (by omega),if_pos (.inr (.inr hfull))]
      rw [if_neg (by omega),if_neg]
      rintro (h | h | h)
      · exact hcap h
      · exact hids h
      · exact hfull h

theorem value_one (fuel : ℕ) (rest : List UInt8) :
    value (fuel+1) (49::44::rest)=some (.num 1,44::rest) := by
  rw [value,if_neg (by decide),if_neg (by decide),if_neg (by decide)]
  have hdigit : digit 49 := by decide
  have hcomma : digit 44=false := by decide
  simp [number,takeWhile,dropWhile,hdigit,hcomma]

theorem key_literal {key : String} (h : ∀ c∈asciiText key,escapePiece c=[c]) :
    34::(asciiText key++[34])=literal escapePiece (asciiText key) := by
  have hflat : ∀ l : List UInt8,(∀ c∈l,escapePiece c=[c]) → l.flatMap escapePiece=l := by
    intro l
    induction l with
    | nil => exact fun _ => rfl
    | cons c l ih =>
      intro hl
      rw [flatMap_cons,hl c mem_cons_self,ih fun d hd => hl d (mem_cons_of_mem c hd)]
      rfl
  rw [literal,hflat _ h]

def PlainKey (key : String) : Prop := ∀ c∈asciiText key,escapePiece c=[c]

theorem members_fields {fields : List (String × List UInt8)} (hkeys : ∀ f∈fields,PlainKey f.1)
    {rest : List UInt8} {more : List (List UInt8 × Json)} {behind : List UInt8} {low : ℕ}
    (hlow : 1≤low) (hrest : ∀ fuel,low≤fuel → members fuel rest=some (more,behind))
    (fuel : ℕ) (hfuel : low+fields.length≤fuel) : members fuel (fields.flatMap fieldText++rest) =
      some (fields.map (fun f => (asciiText f.1,.str (cutValue f.2)))++more,behind) := by
  induction fields generalizing fuel with
  | nil => exact hrest fuel hfuel
  | cons f fields ih =>
    rw [length_cons] at hfuel
    obtain ⟨fuel,rfl⟩ : ∃ n,fuel=n+2 := ⟨fuel-2,by omega⟩
    have hnext:=ih (fun g hg => hkeys g (mem_cons_of_mem f hg)) (fuel+1) (by omega)
    have hval:=value_literal escapePiece_reads fuel (cutValue f.2)
      (44::(fields.flatMap fieldText++rest))
    have htext : (f::fields).flatMap fieldText++rest=literal escapePiece (asciiText f.1)++58 ::
          (literal escapePiece (cutValue f.2)++44::(fields.flatMap fieldText++rest)) := by
      rw [← key_literal (hkeys f mem_cons_self)]
      simp [fieldText]
    rw [htext,members_cons escapePiece_reads _ hval hnext]
    rfl

theorem plainKey_fields : ∀ f∈r.fields,PlainKey f.1 := by
  have hkeys : ∀ key∈r.fields.map Prod.fst,PlainKey key := by
    change ∀ key∈["reason","note","game","game_version","platform","server","lobby","scope"],
      ∀ c∈asciiText key,escapePiece c=[c]
    decide +kernel
  exact fun f hf => hkeys f.1 (mem_map_of_mem hf)

theorem opening_eq (rest : List UInt8) :
    opening++rest=123::(literal escapePiece (asciiText "op")++58 ::
      (literal escapePiece (asciiText "chat_report")++44 ::
        (literal escapePiece (asciiText "v")++58::(49::44::rest)))) := by
  have hopening : opening=123::(literal escapePiece (asciiText "op")++58 ::
      (literal escapePiece (asciiText "chat_report")++44 ::
        (literal escapePiece (asciiText "v")++[58,49,44]))) := by decide +kernel
  rw [hopening]
  simp only [cons_append,append_assoc,nil_append]

theorem length_idsText (written : ℕ) (ids : List (List UInt8)) :
    ids.length≤(idsText written ids).length := by
  induction ids generalizing written with
  | nil => exact le_rfl
  | cons id ids ih =>
    have hrest:=ih (written+1)
    rw [idsText]
    simp only [literal,length_append,length_cons]
    omega

theorem parse_frame (hids : r.ids≠[]) :
    parse r.frame=some (reportJson (r.fields.map fun f => (f.1,cutValue f.2))
      (r.ids.map cutId)) := by
  set tail:=literal escapePiece (asciiText "mids")++58 ::
    (91::(literals escapePiece (r.ids.map cutId)++93::[125])) with htail
  have hframe : r.frame=opening++(r.fields.flatMap fieldText++tail) := by
    have hmids : asciiText "\"mids\":[" = literal escapePiece (asciiText "mids")++[58,91] := by
      decide +kernel
    have hend : asciiText "]\x7d" = [93,125] := by decide +kernel
    rw [Report.frame,idsText_zero,hmids,hend,htail]
    simp only [append_assoc,cons_append,nil_append]
  have hlen : r.ids.length+26 ≤ r.frame.length := by
    have hopening : opening.length=26 := by decide +kernel
    have hwritten:=length_idsText 0 r.ids
    simp only [Report.frame,length_append]
    omega
  -- the members from the last to the first, each with a round less
  have hmids : ∀ fuel,r.ids.length+4≤fuel → members fuel tail =
      some ([(asciiText "mids",.arr ((r.ids.map cutId).map .str))],[]) := by
    intro fuel hfuel
    obtain ⟨fuel,rfl⟩ : ∃ n,fuel=n+1 := ⟨fuel-1,by omega⟩
    refine members_last escapePiece_reads _ (value_literals escapePiece_reads ?_ [125] fuel ?_)
    · exact fun h => hids (map_eq_nil_iff.mp h)
    · rw [length_map]
      omega
  obtain ⟨n,hn⟩ : ∃ n,r.frame.length=n+5 := ⟨r.frame.length-5,by omega⟩
  have hfields:=members_fields (plainKey_fields r) (by omega) hmids (n+2) (by
    change r.ids.length+4+8≤n+2
    omega)
  have hv:=members_cons escapePiece_reads (asciiText "v") (value_one (n+1) _) hfields
  have hop:=members_cons escapePiece_reads (asciiText "op")
    (value_literal escapePiece_reads (n+2) (asciiText "chat_report") _) hv
  rw [parse,hn,hframe,opening_eq,value,if_neg (by decide),if_neg (by decide),if_pos rfl,if_neg,hop]
  · simp [reportJson,map_map,Function.comp_def]
  · change ¬ some (34 : UInt8)=some 125
    decide

/-- Every value and every id comes through its escape buffer whole. -/
def Report.Fits : Prop := (∀ f∈r.fields,(f.2.flatMap escapePiece).length<1024) ∧
    ∀ id∈r.ids,(id.flatMap escapePiece).length<96

theorem cutValue_eq_self_iff (val : List UInt8) :
    cutValue val=val ↔ (val.flatMap escapePiece).length<1024 := by
  have h:=cutText_eq_self_iff (show 0<1024 by decide) val
  rwa [Nat.zero_add] at h

theorem cutId_eq_self_iff (id : List UInt8) :
    cutId id=id ↔ (id.flatMap escapePiece).length<96 := by
  have h:=cutText_eq_self_iff (show 0<96 by decide) id
  rwa [Nat.zero_add] at h

theorem reportJson_cut_iff (fields : List (String × List UInt8)) (ids : List (List UInt8)) :
    reportJson (fields.map fun f => (f.1,cutValue f.2)) (ids.map cutId)=reportJson fields ids ↔
      (∀ f∈fields,cutValue f.2=f.2) ∧ ∀ id∈ids,cutId id=id := by
  constructor
  · intro h
    have hlists:=(cons.inj (cons.inj (Json.obj.inj h)).2).2
    obtain ⟨hfields,hlast⟩ := append_inj' hlists rfl
    have hids : (ids.map cutId).map Json.str=ids.map Json.str := by
      have hpair:=(cons.inj hlast).1
      exact Json.arr.inj (congrArg Prod.snd hpair)
    refine ⟨fun f hf => ?_,fun id hid => ?_⟩
    · rw [map_map] at hfields
      have hpair:=map_inj_left.mp hfields f hf
      exact Json.str.inj (congrArg Prod.snd hpair)
    · rw [map_map] at hids
      exact Json.str.inj (map_inj_left.mp hids id hid)
  · rintro ⟨hfields,hids⟩
    have hsame : (fields.map fun f => (f.1,cutValue f.2))=fields.map id :=
      map_inj_left.mpr fun f hf => Prod.ext rfl (hfields f hf)
    have hsame' : ids.map cutId=ids.map id := map_inj_left.mpr hids
    rw [hsame,hsame',map_id,map_id]

theorem says_frame_iff (hids : r.ids≠[]) : r.Says r.frame ↔ r.Fits := by
  rw [Report.Says,parse_frame r hids,Option.some.injEq,reportJson_cut_iff]
  exact and_congr (forall₂_congr fun f _ => cutValue_eq_self_iff f.2)
    (forall₂_congr fun id _ => cutId_eq_self_iff id)

/-- A report that is built says all it should, at every capacity, exactly under this condition. -/
theorem report_all_or_nothing_iff (r : Report) :
    (∀ cap text,chatReportBuild cap r=some text → text.length<cap ∧ r.Says text) ↔
      r.ids=[] ∨ r.Fits := by
  constructor
  · intro h
    by_cases hids : r.ids=[]
    · exact .inl hids
    have hbuild : chatReportBuild (r.frame.length+64) r=some r.frame := by
      rw [chatReportBuild_eq,if_neg]
      rintro (hcap | hnone | hfull)
      · omega
      · exact hids hnone
      · omega
    exact .inr ((says_frame_iff r hids).mp (h _ _ hbuild).2)
  · intro h cap text hbuild
    rw [chatReportBuild_eq] at hbuild
    split at hbuild
    · cases hbuild
    next hgo =>
    cases hbuild
    push Not at hgo
    obtain ⟨-,hids,hroom⟩ := hgo
    exact ⟨hroom,(says_frame_iff r hids).mpr (h.resolve_left hids)⟩

def longIdReport : Report := ⟨[some (List.replicate 96 97)],none,none,none⟩

theorem long_id_filed_short :
    (chatReportBuild 4096 longIdReport).isSome=true ∧ longIdReport.ids=[List.replicate 96 97] ∧
      ∀ text,chatReportBuild 4096 longIdReport=some text →
        parse text=some (reportJson longIdReport.fields [List.replicate 95 97]) ∧
          ¬ longIdReport.Says text := by
  have hids : longIdReport.ids=[replicate 96 97] := by decide +kernel
  have hsome : (chatReportBuild 4096 longIdReport).isSome=true := by decide +kernel
  refine ⟨hsome,hids,fun text htext => ?_⟩
  have hframe : longIdReport.frame=text := by
    rw [chatReportBuild_eq] at htext
    split at htext
    · cases htext
    · exact Option.some.inj htext
  have hne : longIdReport.ids≠[] := by
    rw [hids]
    exact cons_ne_nil _ _
  subst hframe
  have hparse:=parse_frame longIdReport hne
  have hfields : (longIdReport.fields.map fun f => (f.1,cutValue f.2))=longIdReport.fields := by
    decide +kernel
  have hcut : longIdReport.ids.map cutId=[replicate 95 97] := by decide +kernel
  rw [hfields,hcut] at hparse
  refine ⟨hparse,fun hsays => ?_⟩
  have hfits:=((says_frame_iff longIdReport hne).mp hsays).2 (replicate 96 97)
    (hids ▸ mem_singleton_self _)
  revert hfits
  decide +kernel

end RecompNet.Chat
