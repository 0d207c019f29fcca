import Irods.PackShape

/-! The native protocol read back: leaves, then items, then structs. -/
namespace Irods.PackMessage
open CText StringOpr PackStruct List Bool Int

theorem networkOrderLength (size v) : (networkOrder size v).length = size := by
  induction size generalizing v with
  | zero => rfl
  | succ _ ih => rw [networkOrder,length_append,ih]; rfl

theorem byteValue (v) : (Char.ofNat (v%256)).toNat = v%256 := by
  have valid : (v%256).isValidChar := .inl (by omega)
  unfold Char.ofNat
  rw [dif_pos valid]
  rfl

theorem bigEndianLast (bytes c) : bigEndian (bytes ++ [c]) = 256*bigEndian bytes+c.toNat := by
  rw [bigEndian,foldl_append]; rfl

theorem networkOrderValue {size v} (small : v < 256^size) : bigEndian (networkOrder size v) = v := by
  induction size generalizing v with
  | zero =>
    have : v = 0 := by simpa using small
    subst this
    rfl
  | succ _ ih =>
    have high := Nat.div_lt_of_lt_mul (by rw [Nat.mul_comm]; exact small)
    rw [networkOrder,bigEndianLast,ih high,byteValue]
    exact Nat.div_add_mod v 256

theorem numberBack {typeInx} {z} (fits : inRange typeInx z = true) :
    ((bigEndian (networkOrder (numberSize typeInx) (z % ((256^numberSize typeInx : Nat) : Int)).toNat) : Nat) :
      Int).bmod
      (256^numberSize typeInx) = z := by
  have positive : 0 < 256^numberSize typeInx := Nat.pow_pos (by decide)
  generalize width : 256^numberSize typeInx = w at positive
  have low : 0 ≤ z % w := emod_nonneg z (by omega)
  have high : z % w < w := emod_lt_of_pos z (by omega)
  rw [networkOrderValue (by rw [width]; omega),toNat_of_nonneg low,emod_bmod]
  simp only [inRange,decide_eq_true_eq] at fits
  exact bmod_eq_of_le (by omega) (by omega)

def natNumber (typeInx : PackType) (z : Int) : Text :=
  networkOrder (numberSize typeInx) (z % ((256^numberSize typeInx : Nat) : Int)).toNat

theorem natNumbersBack {typeInx} {zs} (fits : zs.all (inRange typeInx) = true) (rest) :
    unpackNatNumbers (numberSize typeInx) zs.length (zs.flatMap (natNumber typeInx) ++ rest) = some (zs,rest) := by
  induction zs with
  | nil => rfl
  | cons z zs ih =>
    rw [all_cons,and_eq_true] at fits
    have wide : (natNumber typeInx z).length = numberSize typeInx := networkOrderLength _ _
    rw [length_cons,flatMap_cons,append_assoc,unpackNatNumbers,
      if_neg (by rw [length_append]; omega),drop_left' wide,ih fits.2,take_left' wide]
    show some (_::zs,rest) = some (z::zs,rest)
    rw [natNumber,numberBack fits.1]

theorem untilNul {s} (free : nul ∉ s) (rest) : (s ++ [nul] ++ rest).takeWhile (· != nul) = s := by
  rw [append_assoc,takeWhile_append_of_pos]
  · simp
  intro c mem
  have other : c ≠ nul := fun same => free (same ▸ mem)
  simpa using other

theorem natStringBack {maxStrLen s} (fits : StringFits maxStrLen s) (rest) :
    unpackNatString maxStrLen (s ++ [nul] ++ rest) = .ok (s,rest) := by
  have read := untilNul fits.1 rest
  have there : nul ∈ s ++ [nul] ++ rest := by simp
  unfold unpackNatString
  rw [if_neg (not_not_intro there)]
  simp only [read]
  rw [if_neg (by rw [fits.2]; exact false_ne_true),drop_left' (by simp)]

section
variable {ctx : Context} (native : ctx.prot = .NATIVE_PROT)
include native

theorem packStringNative {maxStrLen s} (fits : StringFits maxStrLen s) (name) :
    packString ctx maxStrLen name s = .ok (s ++ [nul]) := by
  unfold packString
  rw [if_neg fits.1,if_neg (by rw [fits.2]; exact false_ne_true),native]

theorem stringsBack {maxStrLen ss} (fits : ∀ s ∈ ss, StringFits maxStrLen s) (name inline) :
    packStrings ctx maxStrLen name ss = .ok (ss.flatMap (· ++ [nul])) ∧ ∀ rest,
      unpackStrings ctx inline maxStrLen name ss.length (ss.flatMap (· ++ [nul]) ++ rest) = .ok (ss,rest) := by
  induction ss with
  | nil => exact ⟨rfl,fun _ => rfl⟩
  | cons s _ ih =>
    obtain ⟨packed,back⟩ := ih (forall_mem_cons.mp fits).2
    have head := fits s mem_cons_self
    refine ⟨?_,fun rest => ?_⟩
    · rw [packStrings,packStringNative native head name]
      simp only [packed]
      rfl
    · rw [length_cons,flatMap_cons,append_assoc,unpackStrings,unpackString,native]
      simp only [natStringBack head,back]

theorem numbersBack {typeInx} {zs} (fits : zs.all (inRange typeInx) = true) (name rest) :
    unpackNumbers ctx typeInx name zs.length (packNumbers ctx typeInx name zs ++ rest) = .ok (rest,zs,none) := by
  have text : packNumbers ctx typeInx name zs = zs.flatMap (natNumber typeInx) := by
    unfold packNumbers
    rw [native]
    rfl
  unfold unpackNumbers
  rw [native,text]
  simp [natNumbersBack fits]

theorem packCharNative (typeInx name bs) : packChar ctx typeInx name bs = bs := by
  unfold packChar
  split
  · rename_i none
    exact none.symm
  · rw [native]

theorem charBack (typeInx name bs rest) :
    unpackCharToOutPtr ctx typeInx name bs.length (packChar ctx typeInx name bs ++ rest) = .ok (bs,rest,0) := by
  unfold unpackCharToOutPtr
  rw [native,packCharNative native]
  simp

end

/-! A run reads a value back from its text, whatever stands behind it, exactly when no
marker is met where a pointer begins. -/
structure Reads {α : Type} (run : Cursor → Except Fault (α × Cursor)) (p : Packed) (a : α) : Prop where
  back : ∀ rest visited, Clear p rest → ∃ visited', run ⟨p.text ++ rest,visited⟩ = .ok (a,⟨rest,visited'⟩)
  clear : ∀ {rest visited cur}, run ⟨p.text ++ rest,visited⟩ = .ok (a,cur) → Clear p rest

structure ReadsItem (run : Cursor → Unpacked) (p : Packed) (v : Value) (done : PackItem) : Prop where
  back : ∀ rest visited, Clear p rest → ∃ visited', run ⟨p.text ++ rest,visited⟩ = .ok (v,done,⟨rest,visited'⟩)
  clear : ∀ {rest visited other cur}, run ⟨p.text ++ rest,visited⟩ = .ok (v,other,cur) → Clear p rest

theorem Reads.leaf {α} {run t} {a : α}
    (back : ∀ rest visited, ∃ visited', run ⟨t ++ rest,visited⟩ = .ok (a,⟨rest,visited'⟩)) : Reads run (.of t) a :=
  ⟨fun rest visited _ => back rest visited,fun _ => clearOf _ _⟩

theorem ReadsItem.leaf {run t v done}
    (back : ∀ rest visited, ∃ visited', run ⟨t ++ rest,visited⟩ = .ok (v,done,⟨rest,visited'⟩)) :
    ReadsItem run (.of t) v done :=
  ⟨fun rest visited _ => back rest visited,fun _ => clearOf _ _⟩

theorem Reads.cons {α} {f g run p q a} {as : List α} (head : Reads f p a) (tail : Reads g q as)
    (step : ∀ cur, run cur = match f cur with
      | .error e => .error e
      | .ok (v,cur) => match g cur with
        | .error e => .error e
        | .ok (vs,cur) => .ok (v::vs,cur)) : Reads run (p.append q) (a::as) := by
  have text : ∀ rest, (p.append q).text ++ rest = p.text ++ (q.text ++ rest) := fun rest => append_assoc ..
  refine ⟨fun rest visited clear => ?_,fun {rest visited _} read => ?_⟩
  · obtain ⟨front,behind⟩ := clearAppend.mp clear
    obtain ⟨middle,first⟩ := head.back (q.text ++ rest) visited front
    obtain ⟨last,second⟩ := tail.back rest middle behind
    exact ⟨last,by simp only [text,step,first,second]⟩
  · simp only [text,step] at read
    split at read
    · cases read
    rename_i first
    split at read
    · cases read
    rename_i second
    cases read
    have front := head.clear first
    obtain ⟨_,known⟩ := head.back (q.text ++ rest) visited front
    cases first.symm.trans known
    exact clearAppend.mpr ⟨front,tail.clear second⟩

def Agrees (pack : PackChild) (unpack : Child) (shape : ChildShape) : Prop :=
  ∀ item c n es, shape item c n es → ∃ p, (∀ nopack, pack item c n es ⟨nopack,0⟩ = .ok (p,⟨nopack,0⟩)) ∧
    Reads (unpack item c n) p es

def Unset (r : PackItem) : Prop := r.intValue = 0 ∧ (r.typeInx = .PACK_PI_STR_TYPE → r.strValue = [])

attribute [simp] finished

theorem finishedNone {r} (unset : r.intValue = 0) : finished r (.ints []) = r := by
  obtain ⟨_,_,_,_,_⟩ := r
  cases unset
  simp

theorem lastHintPositive {hints : List Nat} (some : hints.prod ≠ 0) : hints.getLast? ≠ .some 0 := by
  intro last
  exact some (prod_eq_zero (mem_of_getLast? last))

def InlineBack (ctx : Context) (pack : PackChild) (unpack : Child) (c : Chain) (r : PackItem) (d : Dims) (v : Value) :
    Prop :=
  ∃ p, (∀ nopack, packNonpointerItem ctx pack c r d v ⟨nopack,0⟩ = .ok (p,finished r v,⟨nopack,0⟩)) ∧
    ReadsItem (unpackNonpointerItem ctx unpack c r d) p v (finished r v)

section
variable {ctx : Context} (native : ctx.prot = .NATIVE_PROT)
  {pack : PackChild} {unpack : Child} {shape : ChildShape} (agrees : Agrees pack unpack shape)
include native

theorem inlineBytesBack {r d bs} (kind : r.typeInx = .PACK_CHAR_TYPE ∨ r.typeInx = .PACK_BIN_TYPE)
    (fits : bs.length = d.numElement) (c) :
    InlineBack ctx pack unpack c r d (.bytes bs) := by
  refine ⟨.of (packChar ctx r.typeInx r.name bs),fun nopack => ?_,.leaf fun rest visited => ?_⟩
  · unfold packNonpointerItem
    rcases kind with kind | kind <;> simp [kind,fits]
  have read : unpackNonpointerItem ctx unpack c r d = unpackChar ctx r d.numElement := by
    unfold unpackNonpointerItem
    rcases kind with kind | kind <;> rw [kind]
  rw [read,← fits,unpackChar]
  by_cases none : bs = []
  · subst none
    exact ⟨visited,rfl⟩
  · rw [if_neg (by simpa using none)]
    simp only [charBack native]
    exact ⟨_,rfl⟩

theorem inlineNumbersBack {r d zs} (unset : Unset r)
    (kind : r.typeInx = .PACK_INT_TYPE ∨ r.typeInx = .PACK_INT16_TYPE ∨ r.typeInx = .PACK_DOUBLE_TYPE)
    (fits : NumbersFit r.typeInx d.numElement zs) (c) :
    InlineBack ctx pack unpack c r d (.ints zs) := by
  obtain ⟨count,range⟩ := fits
  refine ⟨.of (packNumbers ctx r.typeInx r.name zs),fun nopack => ?_,.leaf fun rest visited => ?_⟩
  · unfold packNonpointerItem
    rcases kind with kind | kind | kind <;> rw [kind] at range <;> simp [kind,count,range]
  have read : unpackNonpointerItem ctx unpack c r d = unpackInlineNumbers ctx r d.numElement := by
    unfold unpackNonpointerItem
    rcases kind with kind | kind | kind <;> rw [kind]
  have status : intStatus r.typeInx zs none = max 0 (zs.headD 0) := by
    unfold intStatus
    split
    · rename_i short
      cases zs with
      | nil => rfl
      | cons z zs =>
        have fit := all_eq_true.mp range z mem_cons_self
        rw [short] at fit
        have bounds : -65536 ≤ 2*z ∧ 2*z < 65536 := of_decide_eq_true fit
        have same : z.bmod (2^16) = z := bmod_eq_of_le (by omega) (by omega)
        show max 0 (z.bmod (2^16)) = max 0 z
        rw [same]
    · rfl
  rw [read,← count,unpackInlineNumbers]
  by_cases none : zs = []
  · subst none
    refine ⟨visited,?_⟩
    have text : packNumbers ctx r.typeInx r.name [] = [] := by
      unfold packNumbers
      rw [native]
      rfl
    rw [text,finishedNone unset.1]
    rfl
  · rw [if_neg (by simpa using none)]
    simp only [numbersBack native range,status]
    exact ⟨_,rfl⟩

theorem inlineStringsBack {r d ss maxStrLen}
    (kind : r.typeInx = .PACK_STR_TYPE) (dims : strShape d.dimSize = some (maxStrLen,ss.length))
    (fits : ∀ s ∈ ss, StringFits maxStrLen s) (c) :
    InlineBack ctx pack unpack c r d (.strs ss) := by
  obtain ⟨packed,back⟩ := stringsBack native fits r.name true
  refine ⟨.of (ss.flatMap (· ++ [nul])),fun nopack => ?_,.leaf fun rest visited => ?_⟩
  · simp [packNonpointerItem,packInlineStrings,kind,dims,packed,pastString,native]
  · simp [unpackNonpointerItem,unpackInlineStrings,kind,dims,back,noted]

theorem inlineTypeNameBack {r d s maxStrLen} (unset : Unset r)
    (kind : r.typeInx = .PACK_PI_STR_TYPE) (dims : strShape d.dimSize = some (maxStrLen,1))
    (fits : StringFits maxStrLen s) (short : s.length < NAME_LEN) (c) :
    InlineBack ctx pack unpack c r d (.strs [s]) := by
  have each : ∀ t ∈ [s], StringFits maxStrLen t := fun t mem => mem_singleton.mp mem ▸ fits
  obtain ⟨packed,back⟩ := stringsBack native each r.name true
  have cut := take_of_length_le (Nat.le_of_lt short)
  generalize [s].flatMap (· ++ [nul]) = t at packed back
  refine ⟨.of t,fun nopack => ?_,.leaf fun rest visited => ?_⟩
  · simp [packNonpointerItem,packInlineStrings,kind,dims,packed,pastString,native,boundedCopyFits short]
  have read := back rest
  rw [length_singleton] at read
  by_cases none : s = []
  · subst none
    simp [unpackNonpointerItem,unpackInlineStrings,kind,dims,read,noted,unset.2 kind]
  · simp [unpackNonpointerItem,unpackInlineStrings,kind,dims,read,noted,none,cut]

theorem bytesTargetBack {r d} {bs} (packs : r.pointerType ≠ .NO_PACK_POINTER)
    (kind : r.typeInx = .PACK_CHAR_TYPE ∨ r.typeInx = .PACK_BIN_TYPE) (fits : bs.length = d.numHintElement) (c) : ∃ p,
      (∀ nopack, packTarget ctx pack c r d nopack (.bytes bs) = .ok (p,nopack)) ∧
      Reads (unpackTarget ctx unpack c r d) p (.bytes bs) := by
  refine ⟨.of (packChar ctx r.typeInx r.name bs),fun nopack => ?_,.leaf fun rest visited => ⟨visited,?_⟩⟩
  · unfold packTarget
    rcases kind with kind | kind <;> simp [kind,packCharTarget,packs,fits]
  have read : unpackTarget ctx unpack c r d = unpackCharTarget ctx r d := by
    unfold unpackTarget
    rcases kind with kind | kind <;> rw [kind]
  rw [read,unpackCharTarget,if_neg packs,← fits]
  simp only [charBack native]
  rfl

theorem stringsTargetBack {r} {d} {ss} (counted : d.numHintElement ≠ 0)
    (kind : r.typeInx = .PACK_STR_TYPE ∨ r.typeInx = .PACK_PI_STR_TYPE)
    (count : ss.length = (hintShape d.hintDimSize).2)
    (fits : ∀ s ∈ ss, StringFits (hintShape d.hintDimSize).1 s) (c) :
    (∀ nopack, packTarget ctx pack c r d nopack (.strs ss) = .ok (.of (ss.flatMap (· ++ [nul])),nopack)) ∧
    Reads (unpackTarget ctx unpack c r d) (.of (ss.flatMap (· ++ [nul]))) (.strs ss) := by
  obtain ⟨packed,back⟩ := stringsBack native fits r.name false
  refine ⟨fun nopack => ?_,.leaf fun rest visited => ⟨visited,?_⟩⟩
  · have filled : ¬ (d.hintDimSize ≠ [] ∧ (d.numHintElement = 0 ∨ d.hintDimSize.getLast? = some 0)) := by
      rintro ⟨-,none | last⟩
      · exact counted none
      · exact lastHintPositive counted last
    have text : packStringTarget ctx r d (.strs ss) = .ok (.of (ss.flatMap (· ++ [nul]))) := by
      simp only [packStringTarget,if_neg (not_not_intro count),packed]
      rfl
    unfold packTarget
    rcases kind with kind | kind <;> rw [kind] <;> simp only [if_neg filled,text] <;> rfl
  · have read : unpackTarget ctx unpack c r d = unpackStringTarget ctx r d := by
      unfold unpackTarget
      rcases kind with kind | kind <;> rw [kind]
    rw [read,unpackStringTarget,← count]
    simp [back]

theorem numbersTargetBack {r d} {zs}
    (kind : r.typeInx = .PACK_INT_TYPE ∨ r.typeInx = .PACK_INT16_TYPE ∨ r.typeInx = .PACK_DOUBLE_TYPE)
    (single : d.dimSize = []) (fits : NumbersFit r.typeInx d.numHintElement zs) (c) : ∃ p,
      (∀ nopack, packTarget ctx pack c r d nopack (.ints zs) = .ok (p,nopack)) ∧
      Reads (unpackTarget ctx unpack c r d) p (.ints zs) := by
  obtain ⟨count,range⟩ := fits
  refine ⟨.of (packNumbers ctx r.typeInx r.name zs),fun nopack => ?_,.leaf fun rest visited => ⟨visited,?_⟩⟩
  · have text : packNumberTarget ctx r d (.ints zs) = .ok (.of (packNumbers ctx r.typeInx r.name zs)) := by
      simp [packNumberTarget,count,range]
    have same : packTarget ctx pack c r d nopack (.ints zs) = (packNumberTarget ctx r d (.ints zs)).map (·,nopack) := by
      unfold packTarget
      rcases kind with kind | kind | kind <;> rw [kind]
    rw [same,text]
    rfl
  · have read : unpackTarget ctx unpack c r d = unpackNumberTarget ctx r d := by
      unfold unpackTarget
      rcases kind with kind | kind | kind <;> rw [kind]
    rw [read,unpackNumberTarget,if_pos single,← count]
    simp [numbersBack native range]

include agrees in
theorem targetBack {r d t c} (packs : r.pointerType ≠ .NO_PACK_POINTER)
    (counted : d.numHintElement ≠ 0) (shaped : TargetShaped shape c r d t) : ∃ p,
      (∀ nopack, packTarget ctx pack c r d nopack t = .ok (p,nopack)) ∧ Reads (unpackTarget ctx unpack c r d) p t := by
  unfold TargetShaped at shaped
  split at shaped
  · exact bytesTargetBack native packs (.inl ‹_›) shaped c
  · exact bytesTargetBack native packs (.inr ‹_›) shaped c
  · exact ⟨_,stringsTargetBack native counted (.inl ‹_›) shaped.1 shaped.2 c⟩
  · exact ⟨_,stringsTargetBack native counted (.inr ‹_›) shaped.1 shaped.2 c⟩
  · exact numbersTargetBack native (.inl ‹_›) shaped.1 shaped.2 c
  · exact numbersTargetBack native (.inr (.inl ‹_›)) shaped.1 shaped.2 c
  · exact numbersTargetBack native (.inr (.inr ‹_›)) shaped.1 shaped.2 c
  · rename_i kind
    obtain ⟨p,packed,reads⟩ := agrees _ _ _ _ shaped
    refine ⟨p,fun nopack => ?_,fun rest visited clear => ?_,fun read => ?_⟩
    · simp [packTarget,kind,packed]
    · obtain ⟨visited',back⟩ := reads.back rest visited clear
      exact ⟨visited',by simp only [unpackTarget,kind,back]⟩
    simp only [unpackTarget,kind] at read
    split at read
    · cases read
    rename_i below
    cases read
    exact reads.clear below
  · exact shaped.elim

include agrees in
theorem targetsBack {r d ts c} (packs : r.pointerType ≠ .NO_PACK_POINTER)
    (counted : d.numHintElement ≠ 0) (shaped : ∀ t ∈ ts, TargetShaped shape c r d t) : ∃ p,
      (∀ nopack, packTargets ctx pack c r d nopack ts = .ok (p,nopack)) ∧
      Reads (unpackTargets ctx unpack c r d ts.length) p ts := by
  induction ts with
  | nil => exact ⟨.nil,fun _ => rfl,fun rest visited _ => ⟨visited,rfl⟩,fun _ => clearNil _⟩
  | cons t ts ih =>
    obtain ⟨p,packed,head⟩ := targetBack native agrees packs counted (shaped t mem_cons_self)
    obtain ⟨q,packedTail,tail⟩ := ih (forall_mem_cons.mp shaped).2
    refine ⟨p.append q,fun nopack => by simp only [packTargets,packed,packedTail],head.cons tail fun cur => ?_⟩
    rw [length_cons,unpackTargets]
    cases unpackTarget ctx unpack c r d cur with
    | error e => rfl
    | ok read =>
      obtain ⟨v,cur⟩ := read
      dsimp only
      cases unpackTargets ctx unpack c r d ts.length cur <;> rfl

theorem markerEaten (r d rest) : unpackNullString ctx r d (marker ++ rest) = some rest := by
  unfold unpackNullString
  rw [native]
  show (if marker.isPrefixOf (marker ++ rest) = true then some ((marker ++ rest).drop marker.length) else _) = _
  rw [if_pos ( isPrefixOf_iff_prefix.mpr (prefix_append _ _)),drop_left]

theorem notNull {d} (hinted : d.numHintElement ≠ 0) (filled : d.dimSize ≠ [] → d.numElement ≠ 0) (r rest) :
    unpackNullString ctx r d rest = none ↔ ¬ marker <+: rest := by
  have counted : ¬ (d.numHintElement = 0 ∨ (d.dimSize ≠ [] ∧ d.numElement = 0)) := by
    rintro (none | ⟨some,none⟩)
    · exact hinted none
    · exact filled some none
  unfold unpackNullString
  rw [native]
  simp only [if_neg counted]
  rw [← isPrefixOf_iff_prefix]
  split
  · rename_i found
    exact ⟨fun bad => absurd bad (by simp),fun other => absurd found other⟩
  · rename_i other
    exact ⟨fun _ => other,fun _ => rfl⟩

include agrees in
theorem pointerBack {r d v c} (packs : r.pointerType ≠ .NO_PACK_POINTER)
    (shaped : PointerShaped shape c r d v) : ∃ p,
      (∀ nopack, packPointerItem ctx pack c r d v nopack = .ok (p,finished r v,⟨nopack,0⟩)) ∧
      ReadsItem (unpackPointerItem ctx unpack c r d) p v (finished r v) := by
  cases v with
  | null =>
    refine ⟨.of marker,fun nopack => ?_,.leaf fun rest visited => ⟨visited,?_⟩⟩
    · unfold packPointerItem
      rw [native]
      rfl
    · simp only [unpackPointerItem,markerEaten native]
      rfl
  | pointer t =>
    obtain ⟨single,hinted,target,short⟩ := shaped
    obtain ⟨p,packed,reads⟩ := targetBack native agrees packs hinted target
    have null := notNull native hinted (fun dims => absurd single dims) r
    have pushed :
      {r with strValue := if r.typeInx = .PACK_PI_STR_TYPE then (firstString t).take NAME_LEN else r.strValue} =
        finished r (.pointer t) := by
      unfold finished
      split
      · rename_i kind
        rw [take_of_length_le (Nat.le_of_lt (short kind))]
      · rfl
    have saved :
        {r with strValue := if r.typeInx = .PACK_PI_STR_TYPE then boundedCopy NAME_LEN (firstString t) else r.strValue} =
        finished r (.pointer t) := by
      unfold finished
      split
      · rename_i kind
        rw [boundedCopyFits (short kind)]
      · rfl
    refine ⟨p.started,fun nopack => ?_,fun rest visited clear => ?_,fun {rest _ _ _} read => ?_⟩
    · simp [packPointerItem,if_neg (not_not_intro single),packed,saved]
    · obtain ⟨first,clear⟩ := clearStarted.mp clear
      obtain ⟨visited',back⟩ := reads.back rest visited clear
      have none := (null (p.text ++ rest)).mpr first
      exact ⟨visited',by simp only [Packed.started,unpackPointerItem,none,if_pos single,back,pushed]⟩
    · simp only [unpackPointerItem] at read
      split at read
      · cases read
      rename_i none
      rw [if_pos single] at read
      split at read
      · cases read
      rename_i below
      cases read
      exact clearStarted.mpr ⟨(null _).mp none,reads.clear below⟩
  | array ts =>
    obtain ⟨dims,hinted,filled,count,targets⟩ := shaped
    obtain ⟨p,packed,reads⟩ := targetsBack native agrees packs hinted targets
    have null := notNull native hinted (fun _ => filled) r
    rw [count] at reads
    refine ⟨p.started,fun nopack => ?_,fun rest visited clear => ?_,fun {rest _ _ _} read => ?_⟩
    · have fits : ¬ (d.dimSize = [] ∨ ts.length ≠ d.numElement) := by
        rintro (none | other)
        · exact dims none
        · exact other count
      simp [packPointerItem,if_neg fits,packed]
    · obtain ⟨first,clear⟩ := clearStarted.mp clear
      obtain ⟨visited',back⟩ := reads.back rest visited clear
      have none := (null (p.text ++ rest)).mpr first
      exact ⟨visited',by simp only [Packed.started,unpackPointerItem,none,if_neg dims,back,finished]⟩
    · simp only [unpackPointerItem] at read
      split at read
      · cases read
      rename_i none
      rw [if_neg dims] at read
      split at read
      · cases read
      rename_i below
      cases read
      exact clearStarted.mpr ⟨(null _).mp none,reads.clear below⟩
  | _ => exact shaped.elim

include agrees in
theorem inlineBack {r d v c} (unset : Unset r) (shaped : InlineShaped shape c r d v) :
    InlineBack ctx pack unpack c r d v := by
  unfold InlineShaped at shaped
  split at shaped
  · exact inlineBytesBack native (.inl ‹_›) shaped c
  · exact inlineBytesBack native (.inr ‹_›) shaped c
  · obtain ⟨maxStrLen,dims,fits⟩ := shaped
    exact inlineStringsBack native ‹_› dims fits c
  · rename_i kind
    obtain ⟨_,s,rfl,dims,fits,short⟩ := shaped
    exact inlineTypeNameBack native unset kind dims fits (short kind) c
  · exact inlineNumbersBack native unset (.inl ‹_›) shaped c
  · exact inlineNumbersBack native unset (.inr (.inl ‹_›)) shaped c
  · exact inlineNumbersBack native unset (.inr (.inr ‹_›)) shaped c
  · rename_i kind
    obtain ⟨p,packed,reads⟩ := agrees _ _ _ _ shaped
    refine ⟨p,fun nopack => ?_,fun rest visited clear => ?_,fun read => ?_⟩
    · simp [packNonpointerItem,kind,packed]
    · obtain ⟨visited',back⟩ := reads.back rest visited clear
      exact ⟨visited',by simp only [unpackNonpointerItem,kind,back,finished]⟩
    simp only [unpackNonpointerItem,kind] at read
    split at read
    · cases read
    rename_i below
    cases read
    exact reads.clear below
  · exact shaped.elim

include agrees in
theorem itemBack {item r d v c} (plain : Plain item) (fresh : Fresh item)
    (resolved : resolvePackedItem item c (isNull v) = .ok (r,d)) (shaped : ItemShaped shape c r d v) : ∃ p,
      (∀ nopack, packItem ctx pack c item v ⟨nopack,0⟩ = .ok (p,finished r v,⟨nopack,0⟩)) ∧
      ReadsItem (unpackItem ctx unpack c item) p v (finished r v) := by
  obtain ⟨pointer,unset⟩ := resolvedKind plain fresh resolved
  have kept : c.kept item = c := if_neg fun first => plain.1 first.2
  have unread := resolvedUnread resolved
  unfold ItemShaped at shaped
  by_cases inline : r.pointerType = .NON_POINTER
  · rw [if_pos inline] at shaped
    obtain ⟨p,packed,reads⟩ := inlineBack native agrees unset shaped
    have read : unpackItem ctx unpack c item = unpackNonpointerItem ctx unpack c r d := by
      funext cur
      simp [unpackItem,unread,kept,if_pos inline]
    refine ⟨p,fun nopack => ?_,read ▸ reads⟩
    simp [packItem,resolved,kept,if_pos inline,packed]
  · rw [if_neg inline] at shaped
    obtain ⟨p,packed,reads⟩ := pointerBack native agrees (pointer ▸ plain.2) shaped
    have read : unpackItem ctx unpack c item = unpackPointerItem ctx unpack c r d := by
      funext cur
      simp [unpackItem,unread,kept,if_neg inline]
    refine ⟨p,fun nopack => ?_,read ▸ reads⟩
    simp [packItem,resolved,kept,if_neg inline,packed]

include agrees in
theorem itemsBack {items vs c} (plain : ∀ item ∈ items, Plain item)
    (fresh : ∀ item ∈ items, Fresh item) (shaped : ItemsShaped shape items c vs) : ∃ p,
      (∀ nopack, packItems ctx pack items c vs ⟨nopack,0⟩ = .ok (p,⟨nopack,0⟩)) ∧
      Reads (unpackItems ctx unpack items c) p vs := by
  induction items generalizing vs c with
  | nil =>
    cases vs with
    | nil => exact ⟨.nil,fun _ => rfl,fun rest visited _ => ⟨visited,rfl⟩,fun _ => clearNil _⟩
    | cons v vs => exact shaped.elim
  | cons item _ ih =>
    cases vs with
    | nil => exact shaped.elim
    | cons v _ =>
      obtain ⟨r,d,resolved,here,behind⟩ := shaped
      have itemPlain := plain item mem_cons_self
      have kept : c.kept item = c := if_neg fun first => itemPlain.1 first.2
      obtain ⟨p,packed,head⟩ := itemBack native agrees itemPlain (fresh item mem_cons_self) resolved here
      obtain ⟨q,packedTail,tail⟩ := ih (forall_mem_cons.mp plain).2
        (forall_mem_cons.mp fresh).2 behind
      have text : ∀ rest, (p.append q).text ++ rest = p.text ++ (q.text ++ rest) := fun rest => append_assoc ..
      refine ⟨p.append q,fun nopack => by simp only [packItems,packed,kept,packedTail],
        fun rest visited clear => ?_,fun {rest visited _} read => ?_⟩
      · obtain ⟨front,clear⟩ := clearAppend.mp clear
        obtain ⟨middle,first⟩ := head.back (q.text ++ rest) visited front
        obtain ⟨last,second⟩ := tail.back rest middle clear
        exact ⟨last,by simp only [text,unpackItems,first,kept,second]⟩
      · simp only [text,unpackItems,kept] at read
        split at read
        · cases read
        rename_i first
        split at read
        · cases read
        rename_i second
        cases read
        have front := head.clear first
        obtain ⟨_,known⟩ := head.back (q.text ++ rest) visited front
        cases first.symm.trans known
        exact clearAppend.mpr ⟨front,tail.clear second⟩

include agrees in
theorem elementsBack {items es c} (plain : ∀ item ∈ items, Plain item)
    (fresh : ∀ item ∈ items, Fresh item) (shaped : ∀ vs ∈ es, ItemsShaped shape items c vs) (myPackedItem) : ∃ p,
      (∀ nopack, packElements ctx pack myPackedItem.name c items es ⟨nopack,0⟩ = .ok (p,⟨nopack,0⟩)) ∧
      Reads (unpackElements ctx unpack myPackedItem c items es.length) p es := by
  induction es with
  | nil => exact ⟨.nil,fun _ => rfl,fun rest visited _ => ⟨visited,rfl⟩,fun _ => clearNil _⟩
  | cons vs es ih =>
    obtain ⟨p,packed,head⟩ := itemsBack native agrees plain fresh (shaped vs mem_cons_self)
    obtain ⟨q,packedTail,tail⟩ := ih (forall_mem_cons.mp shaped).2
    have element : unpackElement ctx unpack myPackedItem c items = unpackItems ctx unpack items c := by
      unfold unpackElement
      rw [native]
    rw [← element] at head
    refine ⟨p.append q,fun nopack => ?_,head.cons tail fun cur => ?_⟩
    · have other : ctx.prot ≠ .XML_PROT := by rw [native]; exact fun bad => nomatch bad
      simp [packElements,packed,packedTail,if_neg other]
    rw [length_cons,unpackElements]
    cases unpackElement ctx unpack myPackedItem c items cur with
    | error e => rfl
    | ok read =>
      obtain ⟨v,cur⟩ := read
      dsimp only
      cases unpackElements ctx unpack myPackedItem c items es.length cur <;> rfl

end

theorem structBack {ctx} (native : ctx.prot = .NATIVE_PROT) (fuel) :
    Agrees (packChildStruct ctx fuel) (unpackChildStruct ctx fuel) (StructShaped ctx fuel) := by
  induction fuel with
  | zero => exact fun _ _ _ _ shaped => shaped.elim
  | succ fuel ih =>
    rintro item c n _ ⟨count,shaped⟩
    by_cases none : n = 0
    · subst none
      cases eq_nil_of_length_eq_zero count
      exact ⟨.nil,fun _ => rfl,fun rest visited _ => ⟨visited,rfl⟩,fun _ => clearNil _⟩
    obtain ⟨_,items,found,parsed,plain,elements⟩ := shaped none
    obtain ⟨p,packed,reads⟩ := elementsBack native ih plain (parsedFresh parsed) elements item
    have read : unpackChildStruct ctx (fuel+1) item c n =
        unpackElements ctx (unpackChildStruct ctx fuel) item (c.inside item) items n := by
      simp [unpackChildStruct,if_neg none,found,parsed]
    refine ⟨p,fun nopack => ?_,?_⟩
    · simp [packChildStruct,if_neg (not_not_intro count),if_neg none,found,parsed,packed]
    · rw [read,← count]
      exact reads

end Irods.PackMessage
