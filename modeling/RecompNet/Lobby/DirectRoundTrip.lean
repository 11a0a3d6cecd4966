import RecompNet.Lib.Decimal
import RecompNet.Lobby.LanDirect

/-!
# What a guest reads of the room a direct-IP host sends

The fields go one a line and are not escaped.
-/
namespace RecompNet.Direct
open List GuestSide LanLobby Option
open Xfer (ascii)

/-- A field that is one line of a datagram, and stays as it is when its line is trimmed. -/
structure Plain (l : Line) : Prop where
  clean : (0 : UInt8)∉l
  oneLine : (10 : UInt8)∉l
  untrimmed : l.getLast? ≠ some 13

instance (l : Line) : Decidable (Plain l) :=
  decidable_of_iff ((0 : UInt8)∉l ∧ (10 : UInt8)∉l ∧ l.getLast? ≠ some 13)
    ⟨fun h => ⟨h.1,h.2.1,h.2.2⟩,fun h => ⟨h.clean,h.oneLine,h.untrimmed⟩⟩

def wire (lines : List Line) : Line := (lines.map (·++[10])).flatten

variable {l : Line}
theorem cutAt_append (h : (10 : UInt8)∉l) (rest : Line) :
    cutAt 10 (l++10::rest)=some (l,rest) := by
  induction l with
  | nil => rfl
  | cons b bs ih =>
    have hb : b≠10 := fun hb => h (hb ▸ mem_cons_self)
    have hbs : (10 : UInt8)∉bs := fun hin => h (mem_cons_of_mem b hin)
    rw [cons_append]
    unfold cutAt
    rw [if_neg hb,ih hbs]
    rfl

theorem Plain.trimCrlf_eq (h : Plain l) : trimCrlf l=l := by
  apply rdropWhile_eq_self_iff.mpr
  intro hne hend
  have hlast:=getLast_mem hne
  have h13 : l.getLast hne≠13 := fun heq =>
    h.untrimmed (by rw [List.getLast?_eq_some_getLast hne,heq])
  have h10 : l.getLast hne≠10 := fun heq => h.oneLine (heq ▸ hlast)
  simp [h13,h10] at hend

theorem Plain.nextLine_wire (h : Plain l) (lines : List Line) :
    nextLine (wire (l::lines))=(some l,wire lines) := by
  have hwire : wire (l::lines)=l++10::wire lines := by
    unfold wire
    simp
  rw [hwire]
  unfold nextLine
  rw [if_neg (by simp),cutAt_append h.oneLine]
  simp only [h.trimCrlf_eq]

theorem Plain.bind_nextLine {α : Type} (h : Plain l) (lines : List Line)
    (f : Option Line → StateM Line α) :
    (nextLine >>= f) (wire (l::lines))=f (some l) (wire lines) :=
  congrArg (fun p : Option Line × Line => f p.1 p.2) (h.nextLine_wire lines)

/-- What `next_line` gives for a field: up to its first line feed, trimmed. -/
def firstLine (l : Line) : Line := trimCrlf (l.takeWhile (· ≠ 10))

theorem nextLine_wire_fst (l : Line) (lines : List Line) :
    (nextLine (wire (l::lines))).1=some (firstLine l) := by
  have hcut (l rest : Line) : ∃ tail,cutAt 10 (l++10::rest)=some (l.takeWhile (· ≠ 10),tail) := by
    induction l with
    | nil => exact ⟨rest,rfl⟩
    | cons b bs ih =>
      rw [cons_append]
      unfold cutAt
      by_cases hb : b=10
      · exact ⟨bs++10::rest,by simp [hb]⟩
      · obtain ⟨tail,htail⟩ := ih
        exact ⟨tail,by simp [hb,htail]⟩
  have hwire : wire (l::lines)=l++10::wire lines := by
    unfold wire
    simp
  obtain ⟨tail,htail⟩ := hcut l (wire lines)
  unfold nextLine firstLine
  rw [hwire,if_neg (by simp),htail]

theorem bind_nextLine_last {α : Type} (l : Line) (f : Option Line → α) :
    ((nextLine >>= fun x => pure (f x) : StateM Line α) (wire [l])).1=f (some (firstLine l)) :=
  congrArg f (nextLine_wire_fst l [])

/-- The line a reader finds after `k` others. -/
def lineAt (cursor : Line) : ℕ → Option Line
  | 0 => (nextLine cursor).1
  | k+1 => lineAt (nextLine cursor).2 k

theorem lineAt_wire {lines : List Line} {k : ℕ} (h : ∀ x∈lines.take k,Plain x)
    (hl : lines[k]? = some l) : lineAt (wire lines) k=some (firstLine l) := by
  induction k generalizing lines with
  | zero =>
    obtain ⟨after,rfl⟩ : ∃ after,lines=l::after := by
      cases lines with
      | nil => cases hl
      | cons x after =>
        cases hl
        exact ⟨after,rfl⟩
    exact nextLine_wire_fst l after
  | succ k ih =>
    cases lines with
    | nil => cases hl
    | cons x lines =>
      unfold lineAt
      rw [(h x mem_cons_self).nextLine_wire lines]
      exact ih (fun y hy => h y (mem_cons_of_mem x hy)) hl

theorem plain_firstLine (h : (0 : UInt8)∉l) : Plain (firstLine l) := by
  have hsub : firstLine l <+: l.takeWhile (· ≠ 10) := rdropWhile_prefix _ _
  have hline : ∀ b∈firstLine l,b≠10 := fun b hb => by
    simpa using mem_takeWhile_imp (hsub.subset hb)
  refine ⟨fun h0 => h ?_,fun h10 => hline 10 h10 rfl,fun h13 => ?_⟩
  · exact ( takeWhile_prefix _).subset (hsub.subset h0)
  · have hne : firstLine l≠[] := by
      intro hnil
      rw [hnil] at h13
      cases h13
    have hlast : (firstLine l).getLast hne=13 := by
      rw [getLast?_eq_some_getLast hne] at h13
      exact Option.some.inj h13
    have hstop:=rdropWhile_last_not (fun c : UInt8 => c=10 || c=13) _ hne
    unfold firstLine trimCrlf at hlast
    rw [hlast] at hstop
    exact hstop rfl

theorem pure_fst {α : Type} (a : α) (cursor : Line) : ((pure a : StateM Line α) cursor).1=a := rfl

variable {lines : List Line}
theorem foldlM_appendLine {buf d : Line} (h : lines.foldlM appendLine buf=some d) :
    d=buf++wire lines ∧ (buf.length ≤ maxPkt → d.length ≤ maxPkt) := by
  induction lines generalizing buf with
  | nil =>
    cases h
    exact ⟨(append_nil _).symm,id⟩
  | cons l lines ih =>
    rw [foldlM_cons] at h
    unfold appendLine at h
    split at h
    · cases h
    next hfits =>
    obtain ⟨hd,hlen⟩ := ih h
    refine ⟨?_,fun _ => hlen ?_⟩
    · rw [hd]
      unfold wire
      simp
    · simp only [length_append,length_singleton]
      omega

theorem wire_clean (h : ∀ l∈lines,(0 : UInt8)∉l) : (0 : UInt8)∉wire lines := by
  unfold wire
  intro hin
  obtain ⟨l,hl,hin⟩ := mem_flatten.mp hin
  obtain ⟨line,hline,rfl⟩ := mem_map.mp hl
  rcases mem_append.mp hin with hin | hin
  · exact h line hline hin
  · exact absurd (mem_singleton.mp hin) (by decide)

theorem header_build (op : Op) {d : Line} (hop : op∈Op.known)
    (h : build (ascii op.word::lines)=some d) (hlines : ∀ l∈lines,(0 : UInt8)∉l) :
    d≠[] ∧ header d=some (op,wire lines) := by
  have hword : Plain (ascii "RNETDJ1") ∧ ∀ op∈Op.known,Plain (ascii op.word) := by decide
  obtain ⟨hd,hlen⟩ := foldlM_appendLine h
  have hall : ∀ l∈ascii "RNETDJ1"::ascii op.word::lines,(0 : UInt8)∉l := by
    intro l hl
    rcases mem_cons.mp hl with rfl | hl
    · exact hword.1.clean
    rcases mem_cons.mp hl with rfl | hl
    · exact (hword.2 op hop).clean
    · exact hlines l hl
  have hread : cString (d.take maxPkt)=wire (ascii "RNETDJ1"::ascii op.word::lines) := by
    rw [take_of_length_le (hlen (Nat.zero_le _)),hd,nil_append]
    exact cString_eq_self (wire_clean hall)
  have hofLine : ∀ op∈Op.known,Op.ofLine (ascii op.word)=op := by decide
  constructor
  · rintro rfl
    unfold wire at hd
    simp at hd
  · unfold header
    simp only [hread,hword.1.nextLine_wire,(hword.2 op hop).nextLine_wire,if_true,
      map_some,hofLine op hop]

/-- A value an `int` can have. -/
def IsInt (n : ℤ) : Prop := -(2 : ℤ)^31≤n ∧ n<2^31

variable {n : ℤ}
theorem IsInt.toInt_eq (h : IsInt n) : toInt n=n := by
  unfold toInt
  apply Int.bmod_eq_of_le
  · have := h.1
    omega
  · have := h.2
    omega

theorem plain_number (n : ℤ) : Plain (number n) := by
  have h:=not_mem_asciiText_toString n
  refine ⟨fun h0 => (h 0 h0).1 rfl,fun h10 => (h 10 h10).2.1 rfl,fun h13 => ?_⟩
  exact (h 13 (mem_of_getLast? h13)).2.2 rfl

variable (b : Bool)
theorem plain_flag : Plain (flag b) := by
  cases b <;> decide

theorem IsInt.wholeNumber_number (h : IsInt n) : wholeNumber (number n)=some n := by
  obtain ⟨hlo,hhi⟩ := h
  exact wholeNumber_toString (by omega) (by omega)

theorem IsInt.parseVariant_number (h : IsInt n) : parseVariant (some (number n))=n := by
  have hval : strtol (number n)=n := by
    obtain ⟨hlo,hhi⟩ := h
    exact strtol_toString (by omega) (by omega)
  unfold parseVariant
  simp only [hval]
  exact h.toInt_eq

theorem clampInputDelay_range (n : ℤ) : 2 ≤ clampInputDelay n ∧ clampInputDelay n≤20 := by
  unfold clampInputDelay
  split <;> [skip; split] <;> omega

theorem clampPrediction_range (n : ℤ) : 2 ≤ clampPrediction n ∧ clampPrediction n≤16 := by
  unfold clampPrediction
  split <;> [skip; split] <;> omega

theorem parseInputDelay_number (n dflt : ℤ) :
    parseInputDelay (some (number (clampInputDelay n))) dflt=clampInputDelay n := by
  have hrange:=clampInputDelay_range n
  have hint : IsInt (clampInputDelay n) := ⟨by omega,by omega⟩
  unfold parseInputDelay
  simp only [bind_some,hint.wholeNumber_number,hint.toInt_eq]
  unfold clampInputDelay at hrange ⊢
  omega

theorem parsePrediction_number (n dflt : ℤ) :
    parsePrediction (some (number (clampPrediction n))) dflt=clampPrediction n := by
  have hrange:=clampPrediction_range n
  have hint : IsInt (clampPrediction n) := ⟨by omega,by omega⟩
  unfold parsePrediction
  simp only [bind_some,hint.wholeNumber_number,hint.toInt_eq]
  unfold clampPrediction at hrange ⊢
  omega

theorem parseBool_flag (b dflt : Bool) : parseBool (some (flag b)) dflt=b := by
  cases b <;> rfl
theorem isOne_flag : isOne (some (flag b))=b := by
  cases b <;> rfl
theorem flag_eq_one : some (flag b)=some (ascii "1") ↔ b := by
  cases b <;> decide
theorem print_bytes {n : ℕ} (text : CText n) : CText.print n text.bytes=text :=
  CText.ext (CText.bytes_print_of_le text.fits text.clean)

theorem sessionId_number (id : UInt32) : UInt32.ofNat (strtoull (number (id.toNat : ℤ)))=id := by
  have hval : strtoull (number (id.toNat : ℤ))=id.toNat :=
    strtoull_toString (by have := id.toNat_lt; omega)
  rw [hval,UInt32.ofNat_toNat]

theorem Plain.firstLine_eq (h : Plain l) : firstLine l=l := by
  have hall : l.takeWhile (· ≠ 10)=l := takeWhile_eq_self_iff.mpr fun b hb => by
    have hne : b≠10 := fun h10 => h.oneLine (h10 ▸ hb)
    simpa using hne
  unfold firstLine
  rw [hall,h.trimCrlf_eq]

section Fields
variable {n : ℕ} {text dflt : CText n}
theorem plain_of_print (h : CText.print n (firstLine text.bytes)=text) : Plain text.bytes := by
  have hplain:=plain_firstLine text.clean
  have hsub : (firstLine text.bytes).length≤text.bytes.length :=
    ( rdropWhile_prefix _ _).length_le.trans ( takeWhile_prefix _).length_le
  have hbytes:=CText.bytes_print_of_le (hsub.trans text.fits) hplain.clean
  rw [h] at hbytes
  rw [hbytes]
  exact hplain

theorem print_firstLine_iff : CText.print n (firstLine text.bytes)=text ↔ Plain text.bytes :=
  ⟨plain_of_print,fun h => by rw [h.firstLine_eq,print_bytes]⟩

/-- A field arrives as it was sent, where the reader puts `dflt` for an empty line. -/
structure Kept (text dflt : CText n) : Prop where
  plain : Plain text.bytes
  filled : text=.empty → dflt=.empty

theorem Kept.print_eq (h : Kept text dflt) :
    CText.print n (if text.bytes=[] then dflt.bytes else text.bytes)=text := by
  split
  next hnil =>
    have hempty : text=.empty := CText.ext hnil
    rw [print_bytes,h.filled hempty,hempty]
  next => exact print_bytes text

theorem kept_of_print (hd : Plain dflt.bytes)
    (h : CText.print n (if firstLine text.bytes=[] then dflt.bytes else firstLine text.bytes) =
      text) : Kept text dflt := by
  split at h
  next =>
    rw [print_bytes] at h
    subst h
    exact ⟨hd,id⟩
  next hne =>
    refine ⟨plain_of_print h,?_⟩
    rintro rfl
    exact absurd rfl hne

variable (lines : List Line) (k : ℕ)
theorem plain_at (hb : ∀ x∈lines.take k,Plain x) (hl : lines[k]?=some text.bytes) {dflt : Line}
    (h : CText.print n ((lineAt (wire lines) k).getD dflt)=text) : Plain text.bytes := by
  rw [lineAt_wire hb hl] at h
  exact plain_of_print h

theorem kept_at (hd : Plain dflt.bytes) (hb : ∀ x∈lines.take k,Plain x)
    (hl : lines[k]?=some text.bytes)
    (h : CText.print n (if (lineAt (wire lines) k).getD []=[] then dflt.bytes
      else (lineAt (wire lines) k).getD [])=text) : Kept text dflt := by
  rw [lineAt_wire hb hl] at h
  exact kept_of_print hd h

end Fields

namespace LanLobby
variable (r : LanLobby)
def sentDelay : ℤ := clampInputDelay r.inputDelay
def sentPrediction : ℤ :=
  if 2 ≤ r.inputPrediction then clampPrediction r.inputPrediction else 4

variable (r old : LanLobby)
theorem delayLine_eq : r.delayLine=number r.sentDelay := by
  unfold delayLine sentDelay clampInputDelay
  congr 1
  omega

theorem predictionLine_eq : r.predictionLine=number (clampPrediction r.sentPrediction) := by
  unfold predictionLine sentPrediction clampPrediction
  congr 1
  omega

theorem clampPrediction_sentPrediction : clampPrediction r.sentPrediction=r.sentPrediction := by
  unfold sentPrediction clampPrediction
  omega

theorem sentPrediction_eq_iff :
    r.sentPrediction=clampPrediction r.inputPrediction ↔ 2 ≤ r.inputPrediction := by
  unfold sentPrediction clampPrediction
  omega

/-- `old` with what CAPS carries, as the host holds it. -/
def withCaps : LanLobby :=
  { old with
    inputDelay := clampInputDelay r.inputDelay
    rollback := r.rollback
    inputPrediction := clampPrediction r.inputPrediction
    sessionVariant := r.sessionVariant
    modSet := r.modSet }

def withStart : LanLobby :=
  { r.withCaps old with
    started := true
    sessionId := r.sessionId }

def withSeats : LanLobby :=
  { old with
    hostSlot := r.hostSlot
    hostName := r.hostName
    joinerName := r.joinerName
    started := r.started }

/-- What JOIN_OK carries, as the host holds it. -/
def shown : LanLobby :=
  { r.withCaps .zero with
    endpoint := r.endpoint
    hostName := r.hostName
    joinerName := r.joinerName
    hostSlot := r.hostSlot
    name := r.name
    game := r.game
    gameVersion := r.gameVersion }

/-- The settings arrive as the host holds them. -/
structure CapsKept : Prop where
  prediction : 2 ≤ r.inputPrediction
  modSet : Plain r.modSet.bytes

structure SeatsKept : Prop where
  slot : r.hostSlot=0 ∨ r.hostSlot=1
  hostName : Plain r.hostName.bytes
  joinerName : Plain r.joinerName.bytes

variable {r old}
theorem takeCaps_wire (hint : IsInt r.sessionVariant) :
    (old.takeCaps (wire [r.delayLine,flag r.rollback,r.predictionLine,number r.sessionVariant,
      r.modSet.bytes])).1={ r.withCaps old with
        inputPrediction := r.sentPrediction
        modSet := .print 511 (firstLine r.modSet.bytes) } := by
  rw [delayLine_eq,predictionLine_eq]
  unfold takeCaps
  simp only [(plain_number _).bind_nextLine,(plain_flag _).bind_nextLine,bind_nextLine_last]
  unfold withCaps sentDelay
  rw [hint.parseVariant_number,parseInputDelay_number,parseBool_flag,parsePrediction_number,
    clampPrediction_sentPrediction,getD_some]

theorem takeStart_wire (hint : IsInt r.sessionVariant) :
    (old.takeStart (wire [r.delayLine,flag r.rollback,r.predictionLine,
      number r.sessionId.toNat,number r.sessionVariant,r.modSet.bytes])).1 =
        { r.withStart old with
          inputPrediction := r.sentPrediction
          modSet := .print 511 (firstLine r.modSet.bytes) } := by
  rw [delayLine_eq,predictionLine_eq]
  unfold takeStart
  simp only [(plain_number _).bind_nextLine,(plain_flag _).bind_nextLine,bind_nextLine_last]
  unfold withStart withCaps sentDelay
  rw [hint.parseVariant_number,parseInputDelay_number,parseBool_flag,parsePrediction_number,
    clampPrediction_sentPrediction,getD_some,elim_some,sessionId_number]

theorem capsKept_iff :
    r.CapsKept ↔ r.sentPrediction=clampPrediction r.inputPrediction ∧
      CText.print 511 (firstLine r.modSet.bytes)=r.modSet := by
  rw [sentPrediction_eq_iff,print_firstLine_iff]
  exact ⟨fun h => ⟨h.1,h.2⟩,fun h => ⟨h.1,h.2⟩⟩

theorem takeCaps_exact (old : LanLobby) (hint : IsInt r.sessionVariant) :
    (old.takeCaps (wire [r.delayLine,flag r.rollback,r.predictionLine,number r.sessionVariant,
      r.modSet.bytes])).1=r.withCaps old ↔ r.CapsKept := by
  rw [takeCaps_wire hint,capsKept_iff]
  constructor
  · intro h
    exact ⟨congrArg inputPrediction h,congrArg modSet h⟩
  · rintro ⟨hpred,hmods⟩
    rw [hpred,hmods]
    rfl

theorem takeStart_exact (old : LanLobby) (hint : IsInt r.sessionVariant) :
    (old.takeStart (wire [r.delayLine,flag r.rollback,r.predictionLine,
      number r.sessionId.toNat,number r.sessionVariant,r.modSet.bytes])).1=r.withStart old ↔
        r.CapsKept := by
  rw [takeStart_wire hint,capsKept_iff]
  constructor
  · intro h
    exact ⟨congrArg inputPrediction h,congrArg modSet h⟩
  · rintro ⟨hpred,hmods⟩
    rw [hpred,hmods]
    rfl

theorem takeRoom_exact (old : LanLobby) :
    (old.takeRoom (wire [flag (decide (r.hostSlot=1)),r.hostName.bytes,r.joinerName.bytes,
      flag r.started])).1=r.withSeats old ↔ r.SeatsKept := by
  constructor
  · intro h
    have hflag:=plain_flag (decide (r.hostSlot=1))
    have hslot : (if isOne (lineAt _ 0) then (1 : ℤ) else 0)=r.hostSlot := congrArg hostSlot h
    have hname : (lineAt _ 1).elim old.hostName (.print 63)=r.hostName := congrArg hostName h
    have hjoin : (lineAt _ 2).elim old.joinerName (.print 63)=r.joinerName := congrArg joinerName h
    rw [lineAt_wire (by simp) rfl,hflag.firstLine_eq,isOne_flag] at hslot
    rw [lineAt_wire (by simpa using hflag) rfl] at hname
    have hhost:=plain_of_print hname
    rw [lineAt_wire (by simp [hflag,hhost]) rfl] at hjoin
    refine ⟨?_,hhost,plain_of_print hjoin⟩
    simp only [decide_eq_true_eq] at hslot
    omega
  · rintro ⟨hslot,hhost,hjoiner⟩
    unfold takeRoom
    simp only [pure_fst,(plain_flag _).bind_nextLine,hhost.bind_nextLine,hjoiner.bind_nextLine]
    unfold withSeats
    rw [isOne_flag,isOne_flag,elim_some,elim_some,print_bytes,print_bytes]
    rcases hslot with hslot | hslot <;> simp [hslot]

end LanLobby

namespace Guest
variable {ι : Type} (g : Guest ι) (r : LanLobby)

/-- The name a guest takes where JOIN_OK gives none. -/
def ownName : CText 63 := if g.playerName=.empty then .print 63 (ascii "Player") else g.playerName

/-- JOIN_OK arrives as the host holds the room. -/
structure Keeps : Prop extends r.CapsKept,r.SeatsKept where
  endpoint : Kept r.endpoint g.hostHostport
  joiner : Kept r.joinerName g.ownName
  name : Kept r.name (.print 95 (ascii "LAN Lobby"))
  game : Kept r.game g.expectedGame
  gameVersion : Kept r.gameVersion g.expectedVersion

/-- What the guest itself puts for an empty line is plain. -/
structure OwnPlain : Prop where
  endpoint : Plain g.hostHostport.bytes
  name : Plain g.ownName.bytes
  game : Plain g.expectedGame.bytes
  gameVersion : Plain g.expectedVersion.bytes

/-- The lines of JOIN_OK. -/
def joinLines : List Line :=
  [r.endpoint.bytes,r.hostName.bytes,r.joinerName.bytes,flag (decide (r.hostSlot=1)),
    r.name.bytes,r.game.bytes,r.gameVersion.bytes,r.delayLine,flag r.rollback,r.predictionLine,
    number r.sessionVariant,r.modSet.bytes]

variable {g r}
theorem ownName_bytes :
    (if g.playerName=.empty then ascii "Player" else g.playerName.bytes)=g.ownName.bytes := by
  unfold ownName
  split <;> rfl

theorem fillRoom_kept (hint : IsInt r.sessionVariant) (h : g.Keeps r) :
    (g.fillRoom (wire (joinLines r))).1=r.shown := by
  have hlobby : ascii "LAN Lobby" = (CText.print 95 (ascii "LAN Lobby")).bytes := rfl
  have hslot : (if r.hostSlot=1 then (1 : ℤ) else 0)=r.hostSlot := by
    rcases h.slot with h | h <;> simp [h]
  unfold joinLines
  rw [delayLine_eq,predictionLine_eq]
  unfold fillRoom
  simp only [pure_fst,(plain_number _).bind_nextLine,
    (plain_flag _).bind_nextLine,h.modSet.bind_nextLine,h.endpoint.plain.bind_nextLine,
    h.hostName.bind_nextLine,h.joiner.plain.bind_nextLine,h.name.plain.bind_nextLine,
    h.game.plain.bind_nextLine,h.gameVersion.plain.bind_nextLine,getD_some]
  unfold shown withCaps sentDelay
  rw [hint.parseVariant_number,parseInputDelay_number,parseBool_flag,parsePrediction_number,
    clampPrediction_sentPrediction,(sentPrediction_eq_iff r).mpr h.prediction,ownName_bytes,hlobby]
  simp only [h.endpoint.print_eq,h.joiner.print_eq,h.name.print_eq,h.game.print_eq,
    h.gameVersion.print_eq,print_bytes,flag_eq_one,decide_eq_true_eq,hslot]

/-- Line by line: a field that arrives as it was sent is one line, so the next is read at its place. -/
theorem keeps_of_fillRoom (hg : g.OwnPlain)
    (h : (g.fillRoom (wire (joinLines r))).1=r.shown) : g.Keeps r := by
  have hflag:=plain_flag (decide (r.hostSlot=1))
  have hlobby : Plain (CText.print 95 (ascii "LAN Lobby")).bytes := by decide
  have hendpoint : Kept r.endpoint g.hostHostport :=
    kept_at (joinLines r) 0 hg.endpoint (by simp) rfl (congrArg LanLobby.endpoint h)
  have e₀:=hendpoint.plain
  have e₁ : Plain r.hostName.bytes :=
    plain_at (joinLines r) 1 (by simp [joinLines,e₀]) rfl (congrArg LanLobby.hostName h)
  have hjoiner : Kept r.joinerName g.ownName := by
    refine kept_at (joinLines r) 2 hg.name (by simp [joinLines,e₀,e₁]) rfl ?_
    rw [← ownName_bytes]
    exact congrArg LanLobby.joinerName h
  have e₂:=hjoiner.plain
  have hslot : (if lineAt _ 3=some (ascii "1") then (1 : ℤ) else 0)=r.hostSlot :=
    congrArg LanLobby.hostSlot h
  rw [lineAt_wire (by simp [joinLines,e₀,e₁,e₂]) rfl,hflag.firstLine_eq] at hslot
  simp only [flag_eq_one,decide_eq_true_eq] at hslot
  have hname : Kept r.name (.print 95 (ascii "LAN Lobby")) :=
    kept_at (joinLines r) 4 hlobby (by simp [joinLines,e₀,e₁,e₂,hflag]) rfl
      (congrArg LanLobby.name h)
  have e₄:=hname.plain
  have hgame : Kept r.game g.expectedGame :=
    kept_at (joinLines r) 5 hg.game (by simp [joinLines,e₀,e₁,e₂,hflag,e₄]) rfl
      (congrArg LanLobby.game h)
  have e₅:=hgame.plain
  have hversion : Kept r.gameVersion g.expectedVersion :=
    kept_at (joinLines r) 6 hg.gameVersion (by simp [joinLines,e₀,e₁,e₂,hflag,e₄,e₅]) rfl
      (congrArg LanLobby.gameVersion h)
  have hall : ∀ x∈(joinLines r).take 11,Plain x := by
    simp [joinLines,delayLine,predictionLine,plain_number,plain_flag,e₀,e₁,e₂,e₄,e₅,
      hversion.plain]
  have hpred : parsePrediction (lineAt _ 9) 4=clampPrediction r.inputPrediction :=
    congrArg LanLobby.inputPrediction h
  have hsent : r.predictionLine=number (clampPrediction r.sentPrediction) := predictionLine_eq r
  rw [lineAt_wire (fun x hx => hall x (take_subset_take_left _ (by decide) hx)) rfl,hsent,
    (plain_number _).firstLine_eq,parsePrediction_number,clampPrediction_sentPrediction,
    sentPrediction_eq_iff] at hpred
  have hmods : Plain r.modSet.bytes :=
    plain_at (joinLines r) 11 hall rfl (congrArg LanLobby.modSet h)
  exact ⟨⟨hpred,hmods⟩,⟨by omega,e₁,e₂⟩,hendpoint,hjoiner,hname,hgame,hversion⟩

end Guest

def roomOf (hostName : String) : LanLobby :=
  { LanLobby.zero with
    name := .print 95 (ascii "Room")
    game := .print 63 (ascii "g")
    gameVersion := .print 31 (ascii "1")
    endpoint := .print 63 (ascii "h:1")
    hostName := .print 63 (ascii hostName)
    joinerName := .print 63 (ascii "Eve")
    inputDelay := 3
    inputPrediction := 5 }

def guestOf (joining : Bool) : GuestSide ℕ where
  guest :=
    { host := 1
      hostHostport := .print 63 (ascii "h:1")
      chat := []
      swapResPending := false
      swapResAccept := false
      joining
      joinFailed := none
      joinSentMs := 0
      joinReq := []
      expectedGame := .print 63 (ascii "g")
      expectedVersion := .print 31 (ascii "1")
      playerName := .print 63 (ascii "Eve")
      out := [] }
  room := .zero
  report := .nothing

/-- A datagram gives the guest what it carries, as the host holds it, exactly where every field is
one line, the prediction is legal and the seat is 0 or 1. -/
theorem room_round_trip {ι : Type} [DecidableEq ι] (s : GuestSide ι) (r : LanLobby)
    (hint : IsInt r.sessionVariant) (src : ι) (d : Line) :
    (r.buildJoinOk=some d → s.guest.joining=true → s.guest.joinFailed=none → ∀ now,
      (s.guest.Keeps r → s.joinPoll now [(src,d)]={ s with
          guest.host := src
          guest.joining := false
          room := r.shown }) ∧
      (s.guest.OwnPlain → (s.joinPoll now [(src,d)]).room=r.shown → s.guest.Keeps r)) ∧
    (s.guest.joining=false → ∀ rtt now,
      (r.buildCaps=some d → (s.pump true rtt now (.datagram src d) =
        { s with room := r.withCaps s.room,report := .nothing } ↔ r.CapsKept)) ∧
      (r.buildStart=some d → (s.pump true rtt now (.datagram src d) =
        { s with room := r.withStart s.room,report := .start } ↔ r.CapsKept)) ∧
      (r.buildRoom=some d → (src=s.guest.host → (s.pump true rtt now (.datagram src d) =
          { s with room := r.withSeats s.room,report := .nothing } ↔ r.SeatsKept)) ∧
        (src≠s.guest.host → s.pump true rtt now (.datagram src d)={ s with report := .nothing }))) ∧
    (s.guest.joining=true → ∀ withRoom rtt now received,
      s.pump withRoom rtt now received={ s with report := .nothing }) ∧
    (s.guest.joining=false → (∀ now inbox,s.joinPoll now inbox=s) ∧
      (r.buildJoinOk=some d → ∀ withRoom rtt now,
        s.pump withRoom rtt now (.datagram src d)={ s with report := .nothing })) := by
  have hjoin (hd : build (ascii Op.joinOk.word::Guest.joinLines r)=some d) :=
    header_build .joinOk (by decide) hd (by
      simp [Guest.joinLines,CText.clean,(plain_flag _).clean,(plain_number _).clean,delayLine,
        predictionLine])
  refine ⟨?_,?_,?_,?_⟩
  · intro hd hjoining hfailed now
    obtain ⟨hne,hhead⟩ := hjoin hd
    have hpoll : s.joinPoll now [(src,d)]={ s with
        guest.host := src
        guest.joining := false
        room := (s.guest.fillRoom (wire (Guest.joinLines r))).1 } := by
      unfold joinPoll joinLoop
      simp [hjoining,hfailed,hne,hhead]
    rw [hpoll]
    exact ⟨fun hkept => by rw [Guest.fillRoom_kept hint hkept],Guest.keeps_of_fillRoom⟩
  · intro hjoining rtt now
    refine ⟨?_,?_,?_⟩
    · intro hd
      obtain ⟨hne,hhead⟩ := header_build .caps (by decide) hd (by
        simp [CText.clean,(plain_flag _).clean,(plain_number _).clean,delayLine,predictionLine])
      rw [← takeCaps_exact s.room hint]
      unfold pump recv writeRoom
      simp [hjoining,hne,hhead]
    · intro hd
      obtain ⟨hne,hhead⟩ := header_build .start (by decide) hd (by
        simp [CText.clean,(plain_flag _).clean,(plain_number _).clean,delayLine,predictionLine])
      rw [← takeStart_exact s.room hint]
      unfold pump recv writeRoom
      simp [hjoining,hne,hhead]
    · intro hd
      obtain ⟨hne,hhead⟩ := header_build .room (by decide) hd (by
        simp [CText.clean,(plain_flag _).clean])
      constructor
      · intro hsrc
        rw [← takeRoom_exact s.room]
        unfold pump recv writeRoom
        simp [hjoining,hne,hhead,hsrc]
      · intro hsrc
        unfold pump recv
        simp [hjoining,hne,hhead,hsrc]
  · intro hjoining withRoom rtt now received
    unfold pump
    simp [hjoining]
  · intro hjoining
    constructor
    · intro now inbox
      unfold joinPoll
      simp [hjoining]
    · intro hd withRoom rtt now
      obtain ⟨hne,hhead⟩ := hjoin hd
      unfold pump recv
      simp [hjoining,hne,hhead]

theorem room_round_trip_plain :
    ∃ d,(roomOf "Ann").buildJoinOk=some d ∧
      ((guestOf true).joinPoll 0 [(1,d)]).room={ roomOf "Ann" with started := false } := by
  have hint : IsInt (roomOf "Ann").sessionVariant := ⟨by decide,by decide⟩
  have hkept : (guestOf true).guest.Keeps (roomOf "Ann") :=
    ⟨⟨by decide,by decide⟩,⟨by decide,by decide,by decide⟩,⟨by decide,by decide⟩,
      ⟨by decide,by decide⟩,⟨by decide,by decide⟩,⟨by decide,by decide⟩,⟨by decide,by decide⟩⟩
  refine ⟨_,rfl,?_⟩
  rw [((room_round_trip (guestOf true) (roomOf "Ann") hint 1 _).1 rfl rfl rfl 0).1 hkept]
  decide

theorem room_shifted_by_line_break :
    ∃ d,(roomOf "A\nB").buildJoinOk=some d ∧
      ((guestOf true).joinPoll 0 [(1,d)]).room.joinerName=.print 63 (ascii "B") ∧
      ((guestOf true).joinPoll 0 [(1,d)]).room.game.bytes=(roomOf "A\nB").name.bytes ∧
      ((guestOf true).joinPoll 0 [(1,d)]).room.inputDelay=2 ∧
      (roomOf "A\nB").joinerName=.print 63 (ascii "Eve") ∧ (roomOf "A\nB").sentDelay=3 :=
  ⟨_,rfl,by decide,by decide,by decide,by decide,by decide⟩

end RecompNet.Direct
