import Irods.UnpackStruct

/-! Elements that are not in the message. Every routine that unpacks XML moves
forward, and of the elements it looks for in vain only strings end the run. -/
namespace Irods.PackMessage
open CText StringOpr PackStruct List Prod Nat

def isString (t : PackType) : Bool := t == .PACK_STR_TYPE || t == .PACK_PI_STR_TYPE

-- Whether one of n elements of this name is not found, its start tag or its end tag;
-- after a string the search goes on one character behind the value.
def missingElement (string : Bool) (name : Text) : Nat → Text → Bool
  | 0,_ => false
  | n+1,rest => match parseXmlValue rest name with
    | (_,.error _) => true
    | (rest,.ok (len,endTagLen)) => missingElement string name n (rest.drop (len+if string then 1 else endTagLen))

def Visit.missing (v : Visit) : Bool := missingElement (isString v.typeInx) v.name v.numElement v.place

abbrev Run := Except Fault (List Value × Cursor)

/- The run ends, an error is a negative code, and a success has found every element of this type it looked for. -/
structure Reported (t : PackType) (r : Run) : Prop where
  ends : r ≠ .error .deep
  negative : ∀ status, r = .error (.code status) → status < 0
  found : ∀ vs cur, r = .ok (vs,cur) → ∀ v ∈ cur.visited, v.typeInx = t → v.missing = false

def Steps (cur : Cursor) : Except Fault Cursor → Prop
  | .ok cur' => cur'.rest.length ≤ cur.rest.length ∧
      ∀ v ∈ cur'.visited, v ∈ cur.visited ∨ (isString v.typeInx = true → v.missing = false)
  | .error (.code status) => status < 0
  | .error .wild => True
  | .error .deep => False

theorem stepsTrans {cur mid r} (first : Steps cur (.ok mid)) (second : Steps mid r) :
    Steps cur r := by
  match r with
  | .error (.code _) => exact second
  | .error .wild => trivial
  | .error .deep => exact second
  | .ok _ =>
    refine ⟨le_trans second.1 first.1,fun v mem => ?_⟩
    rcases second.2 v mem with old | fine
    · exact first.2 v old
    · exact .inr fine

variable {rest : Text}

theorem stepsDrop {cur} (shorter : rest.length ≤ cur.rest.length) : Steps cur (.ok ⟨rest,cur.visited⟩) :=
  ⟨shorter,fun _ mem => .inl mem⟩

variable {item : PackItem} {n : Nat}

theorem stepsNoted {cur} (shorter : rest.length ≤ cur.rest.length)
    (fine : isString item.typeInx = true → missingElement true item.name n cur.rest = false) :
    Steps cur (.ok (noted item n cur rest)) := by
  refine ⟨shorter,fun v mem => ?_⟩
  rcases mem_append.mp mem with old | new
  · exact .inl old
  rw [mem_singleton.mp new]
  refine .inr fun string => ?_
  rw [Visit.missing]
  rw [string]
  exact fine string

variable {name : Text} {tagLen skip : Nat}

theorem tagFound {flag} (found : parseXmlTag rest name flag = .ok (tagLen,skip)) :
    rest ≠ [] ∧ 2 ≤ tagLen := by
  have full : ∀ {needle : Text} {i : Nat}, needle ≠ [] → strstr rest needle = some i → rest ≠ [] := by
    rintro _ i nonempty here rfl
    rw [strstr,if_neg (by simpa using nonempty)] at here
    contradiction
  unfold parseXmlTag at found
  split at found
  · split at found
    · contradiction
    rename_i here
    cases found
    refine ⟨full ?_ here,by omega⟩
    simp [boundedCopy,endTag,MAX_NAME_LEN]
  · split at found
    · contradiction
    rename_i here
    split at found
    · cases found
      exact ⟨full (by simp) here,by omega⟩
    · contradiction

theorem valueShorter (rest name) : (parseXmlValue rest name).1.length ≤ rest.length := by
  unfold parseXmlValue
  split
  · exact le_refl _
  · simp

theorem numbersShorter (number name n rest) :
    (unpackXmlNumbers number name n rest).1.length ≤ rest.length := by
  induction n generalizing rest with
  | zero => exact le_refl _
  | succ n ih =>
    have shorter := valueShorter rest name
    rw [unpackXmlNumbers]
    split
    · rename_i value
      rwa [value] at shorter
    rename_i value
    rw [value] at shorter
    split
    · exact shorter
    · refine le_trans (ih _) (le_trans ?_ shorter)
      simp

theorem charShorter (typeInx name len rest) :
    (unpackXmlChar typeInx name len rest).2.1.length ≤ rest.length := by
  have shorter := valueShorter rest name
  unfold unpackXmlChar
  split
  · rename_i value
    rwa [value] at shorter
  rename_i rest' inLen endTagLen value
  rw [value] at shorter
  have dropped : (rest'.drop (inLen+endTagLen)).length ≤ rest.length := by
    refine le_trans ?_ shorter
    simp
  split
  · split
    split
    · exact shorter
    · exact dropped
  · split
    · exact shorter
    · exact dropped

variable {inline : Bool} {maxStrLen : Option Nat} {s rest' : Text}

theorem xmlStringFound {peer}
    (found : unpackXmlString peer inline maxStrLen name rest = .ok (s,rest')) :
    ∃ behind len endTagLen, parseXmlValue rest name = (behind,.ok (len,endTagLen)) ∧
      rest' = behind.drop (len+if inline then 1 else endTagLen) := by
  unfold unpackXmlString at found
  split at found
  · contradiction
  rename_i behind len endTagLen value
  dsimp only at found
  split at found
  · contradiction
  · cases found
    exact ⟨behind,len,endTagLen,value,rfl⟩

theorem xmlStringError {peer f}
    (failed : unpackXmlString peer inline maxStrLen name rest = .error f) : ∃ e < 0, f = .code e := by
  unfold unpackXmlString at failed
  split at failed
  · rename_i value
    cases failed
    exact ⟨_,valueError value,rfl⟩
  dsimp only at failed
  split at failed
  · cases failed
    exact ⟨USER_PACKSTRUCT_INPUT_ERR,by decide,rfl⟩
  · contradiction

variable {d : Dims}
section Xml
variable {ctx : Context} (xml : ctx.prot = .XML_PROT)
include xml

theorem stringsFound {ss}
    (found : unpackStrings ctx inline maxStrLen name n rest = .ok (ss,rest')) :
    rest'.length ≤ rest.length ∧ (inline = true → missingElement true name n rest = false) := by
  induction n generalizing rest ss with
  | zero =>
    cases found
    exact ⟨le_refl _,fun _ => rfl⟩
  | succ n ih =>
    rw [unpackStrings,unpackString,xml] at found
    split at found
    · contradiction
    rename_i _ one
    split at found
    · contradiction
    rename_i _ more
    cases found
    obtain ⟨_,_,_,value,rfl⟩ := xmlStringFound one
    obtain ⟨shorter,there⟩ := ih more
    have first := valueShorter rest name
    rw [value] at first
    refine ⟨?_,fun same => ?_⟩
    · refine le_trans shorter (le_trans ?_ first)
      simp
    · subst same
      rw [missingElement,value]
      exact there rfl

theorem stringsError {f}
    (failed : unpackStrings ctx inline maxStrLen name n rest = .error f) : ∃ e < 0, f = .code e := by
  induction n generalizing rest with
  | zero => contradiction
  | succ n ih =>
    rw [unpackStrings,unpackString,xml] at failed
    split at failed
    · rename_i one
      cases failed
      exact xmlStringError one
    split at failed
    · rename_i more
      cases failed
      exact ih more
    · contradiction

theorem charSteps {cur} (kind : isString item.typeInx = false) :
    Steps cur ((unpackChar ctx item n cur).map (·.2.2)) := by
  have shorter := charShorter item.typeInx item.name n cur.rest
  rw [unpackChar,unpackCharToOutPtr,xml]
  split
  · exact stepsDrop (le_refl _)
  refine stepsNoted shorter ?_
  rw [kind]
  nofun

theorem inlineStringSteps {cur} :
    Steps cur ((unpackInlineStrings ctx item d cur).map (·.2.2)) := by
  unfold unpackInlineStrings
  split
  · trivial
  split
  · rename_i failed
    obtain ⟨e,negative,rfl⟩ := stringsError xml failed
    exact negative
  · rename_i found
    obtain ⟨shorter,there⟩ := stringsFound xml found
    exact stepsNoted shorter fun _ => there rfl

theorem inlineNumberSteps {cur} (kind : isString item.typeInx = false) :
    Steps cur ((unpackInlineNumbers ctx item n cur).map (·.2.2)) := by
  have shorter := numbersShorter (xmlNumber item.typeInx) item.name n cur.rest
  rw [unpackInlineNumbers,unpackNumbers,xml]
  split
  · exact stepsDrop (le_refl _)
  refine stepsNoted shorter ?_
  rw [kind]
  nofun

theorem charTargetSteps {cur} :
    Steps cur ((unpackCharTarget ctx item d cur).map snd) := by
  have shorter := charShorter item.typeInx item.name d.numHintElement cur.rest
  rw [unpackCharTarget,unpackCharToOutPtr,xml]
  split
  · exact stepsDrop (le_refl _)
  dsimp only
  split
  · rename_i negative
    exact negative
  · exact stepsDrop shorter

theorem stringTargetSteps {cur} :
    Steps cur ((unpackStringTarget ctx item d cur).map snd) := by
  unfold unpackStringTarget
  split
  · rename_i failed
    obtain ⟨e,negative,rfl⟩ := stringsError xml failed
    exact negative
  · rename_i found
    exact stepsDrop (stringsFound xml found).1

theorem numberTargetSteps {cur} :
    Steps cur ((unpackNumberTarget ctx item d cur).map snd) := by
  rw [unpackNumberTarget,unpackNumbers,unpackNumbers,xml]
  split
  · exact stepsDrop (numbersShorter _ _ _ _)
  dsimp only
  split
  · trivial
  split
  · rename_i negative
    exact negative
  · exact stepsDrop (numbersShorter _ _ _ _)

theorem nullShorter (null : unpackNullString ctx item d rest = some rest') :
    rest'.length ≤ rest.length := by
  rw [unpackNullString,xml] at null
  dsimp only at null
  split at null
  · cases null
    exact le_refl _
  split at null
  · split at null
    · cases null
      simp only [length_drop]
      omega
    · cases null
      exact le_refl _
  · contradiction

end Xml

theorem tokenNegative {p buf e} (failed : parseToken p buf rest = .error e) : e < 0 := by
  have pointer : ∀ {item pointerType}, (setPointer p item pointerType).map (·,rest) = .error e → e < 0 := by
    intro _ _ failed
    unfold setPointer at failed
    split at failed
    · cases failed
      decide
    · contradiction
  unfold parseToken at failed
  split at failed
  · split at failed
    · contradiction
    split at failed
    · cases failed
      decide
    · contradiction
  · split at failed
    · split at failed
      · cases failed
        decide
      split at failed
      · cases failed
        decide
      · contradiction
    · split at failed
      · split at failed
        · cases failed
          decide
        split at failed
        · cases failed
          decide
        · contradiction
      · split at failed
        · exact pointer failed
        split at failed
        · exact pointer failed
        split at failed
        · exact pointer failed
        split at failed
        · split at failed
          · cases failed
            decide
          · contradiction
        · split at failed
          · contradiction
          · cases failed
            decide

theorem tokensNegative {fuel p inptr e} (failed : parseTokens fuel p inptr = .error e) : e < 0 := by
  induction fuel generalizing p inptr with
  | zero =>
    cases failed
    decide
  | succ _ ih =>
    rw [parseTokens] at failed
    split at failed
    · split at failed
      · cases failed
        decide
      · contradiction
    · split at failed
      · rename_i token
        cases failed
        exact tokenNegative token
      · exact ih failed

theorem parseNegative {packInstruct e} (failed : parsePackInstruct packInstruct = .error e) : e < 0 :=
  tokensNegative failed

theorem settingNegative {keyVal e} (t) :
    (∀ buf, intDepSetting keyVal buf t = .error e → e < 0) ∧
    (intDepSetting.intDepSkip keyVal t = .error e → e < 0) := by
  induction t with
  | nil => exact ⟨fun buf failed => by rw [intDepSetting] at failed; contradiction,
      fun failed => by rw [intDepSetting.intDepSkip] at failed; contradiction⟩
  | cons _ _ ih =>
    refine ⟨fun buf failed => ?_,fun failed => ?_⟩
    · rw [intDepSetting] at failed
      split at failed
      · split at failed
        · split at failed
          · cases failed
            decide
          · contradiction
        · split at failed
          · split at failed
            · cases failed
              decide
            · exact ih.2 failed
          · exact ih.1 [] failed
      · exact ih.1 _ failed
    · rw [intDepSetting.intDepSkip] at failed
      split at failed
      · exact ih.1 [] failed
      · exact ih.2 failed

theorem dependentNegative {c e} (failed : iparseDependent item c = .error e) : e < 0 := by
  unfold iparseDependent at failed
  split at failed
  · unfold resolveStrInItem at failed
    split at failed
    · cases failed
      decide
    · contradiction
  · unfold resolveIntDepItem at failed
    dsimp only at failed
    split at failed
    · cases failed
      decide
    split at failed
    · rename_i setting
      cases failed
      exact (settingNegative _).1 _ setting
    split at failed
    · rename_i parsed
      cases failed
      exact parseNegative parsed
    · contradiction
  · contradiction

theorem dimsNegative {c openSymbol buffer e}
    (failed : dimLoop c d openSymbol buffer name = .error e) : e < 0 := by
  have one : ∀ {buffer : Text}, resolveDim c buffer = .error e → e < 0 := by
    intro buffer failed
    unfold resolveDim at failed
    split at failed
    · cases failed
      decide
    · contradiction
  induction name generalizing d openSymbol buffer with
  | nil => contradiction
  | cons _ _ ih =>
    rw [dimLoop] at failed
    split at failed
    · split at failed
      · cases failed
        decide
      · exact ih failed
    · split at failed
      · split at failed
        · cases failed
          decide
        split at failed
        · rename_i dim
          cases failed
          exact one dim
        · exact ih failed
      · split at failed
        · split at failed
          · cases failed
            decide
          split at failed
          · rename_i dim
            cases failed
            exact one dim
          · exact ih failed
        · exact ih failed

theorem resolveNegative {c nullPointer e}
    (failed : resolvePackedItem item c nullPointer = .error e) : e < 0 := by
  unfold resolvePackedItem at failed
  split at failed
  · rename_i dependent
    cases failed
    exact dependentNegative dependent
  split at failed
  · rename_i array
    cases failed
    unfold resolveDepInArray at array
    split at array
    · rename_i dims
      cases array
      exact dimsNegative dims
    · contradiction
  · split at failed
    · split at failed
      · cases failed
        decide
      · contradiction
    · contradiction

/-! Items. A level of structs below is given by what it does to the message. -/
def Good (child : Child) (bound : Nat) : Prop :=
  ∀ item c n cur, cur.rest.length < bound → Steps cur ((child item c n cur).map Prod.snd)

section Items
variable {ctx : Context} (xml : ctx.prot = .XML_PROT) {child : Child} {bound : Nat} (good : Good child bound)
include xml good

theorem nonpointerSteps {c cur} (short : cur.rest.length < bound) :
    Steps cur ((unpackNonpointerItem ctx child c item d cur).map (·.2.2)) := by
  have below := good item c d.numElement cur short
  unfold unpackNonpointerItem
  cases kind : item.typeInx with
  | PACK_CHAR_TYPE => exact charSteps xml (by rw [kind]; rfl)
  | PACK_BIN_TYPE => exact charSteps xml (by rw [kind]; rfl)
  | PACK_STR_TYPE => exact inlineStringSteps xml
  | PACK_PI_STR_TYPE => exact inlineStringSteps xml
  | PACK_INT_TYPE => exact inlineNumberSteps xml (by rw [kind]; rfl)
  | PACK_INT16_TYPE => exact inlineNumberSteps xml (by rw [kind]; rfl)
  | PACK_DOUBLE_TYPE => exact inlineNumberSteps xml (by rw [kind]; rfl)
  | PACK_STRUCT_TYPE =>
    dsimp only
    split
    all_goals
      rename_i failed
      rwa [failed] at below
  | PACK_DEPENDENT_TYPE => exact (by decide : SYS_PACK_INSTRUCT_FORMAT_ERR < 0)
  | PACK_INT_DEPENDENT_TYPE => exact (by decide : SYS_PACK_INSTRUCT_FORMAT_ERR < 0)

theorem targetSteps (c item d) {cur} (short : cur.rest.length < bound) :
    Steps cur ((unpackTarget ctx child c item d cur).map snd) := by
  have below := good item c d.numHintElement cur short
  unfold unpackTarget
  cases item.typeInx with
  | PACK_CHAR_TYPE => exact charTargetSteps xml
  | PACK_BIN_TYPE => exact charTargetSteps xml
  | PACK_STR_TYPE => exact stringTargetSteps xml
  | PACK_PI_STR_TYPE => exact stringTargetSteps xml
  | PACK_INT_TYPE => exact numberTargetSteps xml
  | PACK_INT16_TYPE => exact numberTargetSteps xml
  | PACK_DOUBLE_TYPE => exact numberTargetSteps xml
  | PACK_STRUCT_TYPE =>
    dsimp only
    split
    all_goals
      rename_i failed
      rwa [failed] at below
  | PACK_DEPENDENT_TYPE => exact (by decide : SYS_PACK_INSTRUCT_FORMAT_ERR < 0)
  | PACK_INT_DEPENDENT_TYPE => exact (by decide : SYS_PACK_INSTRUCT_FORMAT_ERR < 0)

theorem targetsSteps (c item d n) {cur} (short : cur.rest.length < bound) :
    Steps cur ((unpackTargets ctx child c item d n cur).map snd) := by
  induction n generalizing cur with
  | zero => exact stepsDrop (le_refl _)
  | succ n ih =>
    have first := targetSteps xml good c item d short
    rw [unpackTargets]
    split
    · rename_i failed
      rwa [failed] at first
    rename_i _ found
    rw [found] at first
    have later := ih (lt_of_le_of_lt first.1 short)
    split
    all_goals
      rename_i failed
      rw [failed] at later
      exact stepsTrans first later

theorem pointerSteps {c cur} (short : cur.rest.length < bound) :
    Steps cur ((unpackPointerItem ctx child c item d cur).map (·.2.2)) := by
  have single := targetSteps xml good c item d short
  have many := targetsSteps xml good c item d d.numElement short
  unfold unpackPointerItem
  split
  · rename_i null
    exact stepsDrop (nullShorter xml null)
  split
  · split
    all_goals
      rename_i failed
      rwa [failed] at single
  · split
    all_goals
      rename_i failed
      rwa [failed] at many

theorem itemSteps (c item) {cur} (short : cur.rest.length < bound) :
    Steps cur ((unpackItem ctx child c item cur).map (·.2.2)) := by
  unfold unpackItem
  split
  · rename_i failed
    exact resolveNegative failed
  · split
    · exact nonpointerSteps xml good short
    · exact pointerSteps xml good short

theorem itemsSteps (items c) {cur} (short : cur.rest.length < bound) :
    Steps cur ((unpackItems ctx child items c cur).map snd) := by
  induction items generalizing c cur with
  | nil => exact stepsDrop (le_refl _)
  | cons item _ ih =>
    have first := itemSteps xml good c item short
    rw [unpackItems]
    split
    · rename_i failed
      rwa [failed] at first
    rename_i done _ found
    rw [found] at first
    have later := ih ((c.kept item).push done) (lt_of_le_of_lt first.1 short)
    split
    all_goals
      rename_i failed
      rw [failed] at later
      exact stepsTrans first later

theorem elementSteps (outer inner items) {cur} (short : cur.rest.length < bound+1) :
    Steps cur ((unpackElement ctx child outer inner items cur).map snd) := by
  rw [unpackElement,xml]
  dsimp only
  split
  · rename_i failed
    split
    · exact tagError failed
    · exact stepsDrop (le_refl _)
  · rename_i tagLen skipLen found
    obtain ⟨full,_⟩ := tagFound found
    have long := length_pos_iff.mpr full
    have opened : Steps cur (.ok ⟨cur.rest.drop (tagLen+skipLen),cur.visited⟩) := stepsDrop (by simp)
    have lower : (cur.rest.drop (tagLen+skipLen)).length < bound := by
      rw [length_drop]
      omega
    have inside := @itemsSteps _ xml _ _ good items inner ⟨cur.rest.drop (tagLen+skipLen),cur.visited⟩ lower
    split
    · rename_i failed
      rw [failed] at inside
      exact stepsTrans opened inside
    rename_i _ done
    rw [done] at inside
    have through := stepsTrans opened inside
    split
    · rename_i failed
      exact tagError failed
    · exact stepsTrans through (stepsDrop (by simp))

theorem elementsSteps {outer inner items cur}
    (short : cur.rest.length < bound+1) : Steps cur ((unpackElements ctx child outer inner items n cur).map snd) := by
  induction n generalizing cur with
  | zero => exact stepsDrop (le_refl _)
  | succ n ih =>
    have first := elementSteps xml good outer inner items short
    rw [unpackElements]
    split
    · rename_i failed
      rwa [failed] at first
    rename_i _ found
    rw [found] at first
    have later := ih (lt_of_le_of_lt first.1 short)
    split
    all_goals
      rename_i failed
      rw [failed] at later
      exact stepsTrans first later

end Items

theorem childGood {ctx} (xml : ctx.prot = .XML_PROT) (fuel) : Good (unpackChildStruct ctx fuel) fuel := by
  induction fuel with
  | zero => exact fun _ _ _ _ short => absurd short (not_lt_zero _)
  | succ _ ih =>
    intro _ c n _ short
    rw [unpackChildStruct]
    split
    · exact stepsDrop (le_refl _)
    split
    · exact (by decide : SYS_UNMATCH_PACK_INSTRUCTI_NAME < 0)
    split
    · rename_i failed
      exact parseNegative failed
    · exact elementsSteps xml ih short

theorem runSteps (peer matchPackInstruct packInstName text) :
    Steps ⟨text,[]⟩ ((unpackStruct ⟨.XML_PROT,peer,matchPackInstruct⟩ (text.length+1) packInstName text).map snd) := by
  have root := @childGood ⟨.XML_PROT,peer,matchPackInstruct⟩ rfl (text.length+1) (rootItem packInstName) ⟨[],
      []⟩ 1 ⟨text,[]⟩
    (lt_succ_self _)
  unfold unpackStruct
  split
  · rename_i failed
    rwa [failed] at root
  · rename_i found
    rwa [found] at root

theorem stringsReported {t} (string : isString t = true) (peer matchPackInstruct packInstName text) :
    Reported t (unpackStruct ⟨.XML_PROT,peer,matchPackInstruct⟩ (text.length+1) packInstName text) := by
  have steps := runSteps peer matchPackInstruct packInstName text
  generalize unpackStruct ⟨.XML_PROT,peer,matchPackInstruct⟩ (text.length+1) packInstName text = r at steps
  refine ⟨?_,?_,?_⟩
  · rintro rfl
    exact steps
  · rintro _ rfl
    exact steps
  · rintro vs cur rfl v mem same
    rcases steps.2 v mem with old | fine
    · exact absurd old not_mem_nil
    · exact fine (same ▸ string)

def bareInstruct (name : Text) : Option Text :=
  if name = lit "Bare_PI" then some (lit "int a; int16 b[2]; double c; char d; bin e[3];") else none

def bareText : Text := lit "<Bare_PI>\n</Bare_PI>\n"

def numbersAndBytes : List PackType :=
  [.PACK_INT_TYPE,.PACK_INT16_TYPE,.PACK_DOUBLE_TYPE,.PACK_CHAR_TYPE,.PACK_BIN_TYPE]

theorem bareUnset :
    (unpackStruct ⟨.XML_PROT,none,bareInstruct⟩ (bareText.length+1) (lit "Bare_PI") bareText).toOption.any
    (fun r => numbersAndBytes.all fun t => r.2.visited.any fun v => v.typeInx == t && v.missing) = true := by
      decide +kernel

theorem bareUnreported {t} (number : t ∈ numbersAndBytes) :
    ¬Reported t (unpackStruct ⟨.XML_PROT,none,bareInstruct⟩ (bareText.length+1) (lit "Bare_PI") bareText) := by
  intro reported
  have run := bareUnset
  cases result : unpackStruct ⟨.XML_PROT,none,bareInstruct⟩ (bareText.length+1) (lit "Bare_PI") bareText with
  | error e =>
    rw [result] at run
    cases run
  | ok r =>
    rw [result] at run
    obtain ⟨v,mem,unset⟩ := any_eq_true.mp (all_eq_true.mp run t number)
    obtain ⟨same,missing⟩ := Bool.and_eq_true_iff.mp unset
    rw [reported.found r.1 r.2 result v mem (beq_iff_eq.mp same)] at missing
    cases missing

def namedInstruct (name : Text) : Option Text :=
  if name = lit "Named_PI" then some (lit "int n; str s[8];") else none

def namedText : Text := lit "<Named_PI>\n<n>7</n>\n</Named_PI>\n"

end Irods.PackMessage
