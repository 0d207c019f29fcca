import Irods.CText

/-! Lists, metadata and access lists as texts (irods_serialization.cpp). A set of special characters
is the class its regular expression matches; every failure is SYS_BAD_INPUT with a message. -/
namespace Irods.Serialization
open CText EscapedText List

def noEscape : Char := Char.ofNat 0

def join (separator : Text) : List Text → Text
  | [] => []
  | [s] => s
  | s::rest => s ++ (separator ++ join separator rest)

def escapeStrings (strs : List Text) (special : Text) (escape : Char) : Except Text (List Text) :=
  if escape = noEscape then .ok strs
  else if escape ∉ special then
    .error (lit "Regular expression passed to escape_string must match against the escape character.")
  else .ok (strs.map (escaped (special.contains ·) escape))

def serializeList (list : List Text) (special : Text) (delimiter escape : Char) : Except Text Text :=
  if escape ≠ noEscape ∧ delimiter ∉ special then
    .error (lit "Regular expression passed to serialize_list must match against the delimiter character.")
  else (escapeStrings list special escape).map (join [delimiter])

/- An escape character is kept before what the next level of delimiters needs. -/
def unescaped (remaining : Text) (escape c : Char) : Text :=
  if !remaining.isEmpty && (c == escape || remaining.contains c) then [escape,c] else [c]

def deserializeFrom (delimiter : Char) (remaining : Text) (escape : Char) : Text → Text → List Text
  | current,[] => if current.isEmpty then [] else [current]
  | current,c::rest =>
    if c = escape then
      match rest with
      | [] => if current.isEmpty then [] else [current]
      | c::rest => deserializeFrom delimiter remaining escape (current ++ unescaped remaining escape c) rest
    else if c = delimiter then current::deserializeFrom delimiter remaining escape [] rest
    else deserializeFrom delimiter remaining escape (current ++ [c]) rest

def deserializeList (list delimiters : Text) (escape : Char) : List Text :=
  deserializeFrom (delimiters.headD noEscape) delimiters.tail escape [] list

def serializeMetadata (metadata : List Text) : Except Text Text :=
  if metadata.length%3 ≠ 0 then .error (lit "Metadata must exist in triplets")
  else serializeList metadata (lit "\\;") ';' '\\'

def deserializeMetadata (metadata : Text) : Except Text (List Text) :=
  let list := deserializeList metadata (lit ";") '\\'
  if list.length%3 = 2 then .ok (list ++ [[]])
  else if list.length%3 ≠ 0 then .error (lit "Metadata strings must consist of triplets of semicolon-separated tokens")
  else .ok list

def serializeAcl (acl : List (List Text)) : Except Text Text :=
  (acl.mapM fun entry =>
    if entry.length ≠ 2 then .error (lit "ACLs must be a tuple of user and permission")
    else serializeList entry (lit "\\ ;") ' ' '\\').map (join (lit ";"))

def deserializeAcl (acl : Text) : Except Text (List (List Text)) :=
  (deserializeList acl (lit "; ") '\\').mapM fun entry =>
    let list := deserializeList entry (lit " ") '\\'
    if list.length ≠ 2 then .error (lit "ACLs must be a space-separated tuple of \"user permission\"") else .ok list

/-! What a list comes back as: an empty string at its end is lost. -/
def trimmed (list : List Text) : List Text := if list.getLast? = some [] then list.dropLast else list

section Level
variable {delimiter escape : Char} {remaining : Text}

def lowered (special : Char → Bool) (remaining : Text) (escape : Char) (t : Text) : Text :=
  t.flatMap fun c => if special c then unescaped remaining escape c else [c]

theorem fromPlain {c} (other : c ≠ escape) (inside : c ≠ delimiter) (current rest) :
    deserializeFrom delimiter remaining escape current (c::rest) = deserializeFrom delimiter remaining escape
      (current ++ [c]) rest := by
  rw [deserializeFrom.eq_def]
  simp [if_neg other,if_neg inside]

theorem fromDelimiter (apart : delimiter ≠ escape) (current rest) :
    deserializeFrom delimiter remaining escape current
      (delimiter::rest) = current::deserializeFrom delimiter remaining escape [] rest := by
  rw [deserializeFrom.eq_def]
  simp [if_neg apart]

theorem fromEscape (c current rest) : deserializeFrom delimiter remaining escape current (escape::c::rest) =
    deserializeFrom delimiter remaining escape (current ++ unescaped remaining escape c) rest := by
  rw [deserializeFrom.eq_def]
  simp

theorem escapedRead {special} (escapes : special escape = true) (delimits : special delimiter = true) (t current rest) :
    deserializeFrom delimiter remaining escape current (escaped special escape t ++ rest) =
      deserializeFrom delimiter remaining escape (current ++ lowered special remaining escape t) rest := by
  refine (@scanEscaped Text _ (deserializeFrom delimiter remaining escape) special escape
      (fun s c => s ++ unescaped remaining escape c)
    (fun s c => s ++ [c]) (fun s c rest _ => fromEscape c s rest) ?_ current t rest).trans ?_
  · intro s c rest plain
    refine fromPlain ?_ ?_ s rest
    · rintro rfl
      exact absurd plain (by simp [escapes])
    · rintro rfl
      exact absurd plain (by simp [delimits])
  · congr 1
    induction t generalizing current with
    | nil => exact (append_nil _).symm
    | cons c t ih =>
      rw [foldl_cons,ih,lowered,lowered,flatMap_cons,← append_assoc]
      split <;> rfl

theorem listBack (apart : delimiter ≠ escape) {α : Type} {item out}
    (reads : ∀ x current rest, deserializeFrom delimiter remaining escape current (item x ++ rest) =
      deserializeFrom delimiter remaining escape (current ++ out x) rest) (xs : List α) :
    deserializeFrom delimiter remaining escape [] (join [delimiter] (xs.map item)) = trimmed (xs.map out) := by
  induction xs with
  | nil => rfl
  | cons x xs ih =>
    cases xs with
    | nil =>
      have last := reads x [] []
      rw [append_nil] at last
      rw [map_singleton,join,last,map_singleton]
      cases out x <;> rfl
    | cons y _ =>
      rw [map_cons,map_cons,join,reads,singleton_append,fromDelimiter apart,← map_cons,ih]
      · unfold trimmed
        rw [map_cons,map_cons,map_cons,List.getLast?_cons_cons]
        split <;> rfl
      · simp

end Level

def triple (avu : Text × Text × Text) : List Text := [avu.1,avu.2.1,avu.2.2]

theorem triplesLength (l : List (Text × Text × Text)) : (l.flatMap triple).length%3 = 0 := by
  induction l with
  | nil => rfl
  | cons _ l _ =>
    rw [flatMap_cons,length_append]
    simp only [triple,length_cons,length_nil]
    omega

theorem loweredFully (special escape t) : lowered special [] escape t = t := by
  induction t with
  | nil => rfl
  | cons c t ih =>
    rw [lowered,flatMap_cons,← lowered,ih]
    split <;> rfl

theorem readFully {special delimiter escape} (escapes : special escape = true) (delimits : special delimiter = true)
    (t current rest) : deserializeFrom delimiter [] escape current (escaped special escape t ++ rest) =
      deserializeFrom delimiter [] escape (current ++ t) rest := by
  rw [escapedRead escapes delimits,loweredFully]

theorem metadataBack (l : List (Text × Text × Text)) :
    (serializeMetadata (l.flatMap triple)).bind deserializeMetadata = .ok (l.flatMap triple) := by
  have size := triplesLength l
  have list : deserializeList (join (lit ";") ((l.flatMap triple).map (escaped ((lit "\\;").contains ·) '\\')))
    (lit ";") '\\' =
      trimmed (l.flatMap triple) := by
    have reads := @readFully ((lit "\\;").contains ·) ';' '\\' rfl rfl
    have back := listBack (by decide) reads (l.flatMap triple)
    rwa [map_id'] at back
  have written : serializeMetadata (l.flatMap triple) =
      .ok (join (lit ";") ((l.flatMap triple).map (escaped ((lit "\\;").contains ·) '\\'))) := by
    rw [serializeMetadata,if_neg (not_not.mpr size)]
    rfl
  rw [written]
  show deserializeMetadata _ = _
  unfold deserializeMetadata
  rw [list,trimmed]
  generalize l.flatMap triple = fields at size
  split
  · rename_i last
    have whole := dropLast_append_getLast? _ last
    have short : fields.dropLast.length%3 = 2 := by
      have count := congrArg List.length whole
      rw [length_append,length_singleton] at count
      omega
    rw [if_pos short,whole]
  · rw [if_neg (by omega),if_neg (not_not.mpr size)]

/-! Access lists. The outer level takes the escapes of ';' away and keeps the others. -/
def pair (p : Text × Text) : List Text := [p.1,p.2]
def aclSpecial (c : Char) : Bool := (lit "\\ ;").contains c
def innerSpecial (c : Char) : Bool := (lit "\\ ").contains c

theorem loweredOuter (t) : lowered aclSpecial (lit " ") '\\' t = escaped innerSpecial '\\' t := by
  refine flatMap_congr fun c _ => ?_
  unfold aclSpecial innerSpecial unescaped
  simp only [lit,contains_cons]
  cases c == '\\' <;> cases c == ' ' <;> cases c == ';' <;> rfl

def entryText (special : Char → Bool) (p : Text × Text) : Text := join (lit " ") ((pair p).map (escaped special '\\'))

theorem entryOuter (p current rest) : deserializeFrom ';' (lit " ") '\\' current (entryText aclSpecial p ++ rest) =
    deserializeFrom ';' (lit " ") '\\' (current ++ entryText innerSpecial p) rest := by
  have one : ∀ t current rest, deserializeFrom ';' (lit " ") '\\' current (escaped aclSpecial '\\' t ++ rest) =
      deserializeFrom ';' (lit " ") '\\' (current ++ escaped innerSpecial '\\' t) rest := fun t current rest => by
    rw [escapedRead rfl rfl,loweredOuter]
  have shape : ∀ special, entryText special p = escaped special '\\' p.1 ++ ' '::escaped special '\\' p.2 :=
    fun _ => rfl
  rw [shape,shape,append_assoc,one,cons_append,fromPlain (by decide) (by decide),one,append_assoc,append_assoc,
    singleton_append]

theorem entryInner {p : Text × Text} (given : p.2 ≠ []) :
    deserializeList (entryText innerSpecial p) (lit " ") '\\' = pair p := by
  have back := listBack (by decide) (@readFully innerSpecial ' ' '\\' rfl rfl) (pair p)
  refine back.trans (if_neg ?_)
  simpa [pair] using given

theorem mapMOk {α β : Type} {f : α → Except Text β} {g} {l : List α} (ok : ∀ x ∈ l, f x = .ok (g x)) :
    l.mapM f = .ok (l.map g) := by
  induction l with
  | nil => rfl
  | cons x l ih =>
    obtain ⟨here,rest⟩ := forall_mem_cons.mp ok
    rw [mapM_cons,here,ih rest]
    rfl

theorem aclBack (l : List (Text × Text)) (given : ∀ p ∈ l, p.2 ≠ []) :
    (serializeAcl (l.map pair)).bind deserializeAcl = .ok (l.map pair) := by
  have written : serializeAcl (l.map pair) = .ok (join (lit ";") (l.map (entryText aclSpecial))) := by
    unfold serializeAcl
    rw [mapM_map]
    exact congrArg (Except.map _) (mapMOk fun p _ => rfl)
  have outer : deserializeList (join (lit ";") (l.map (entryText aclSpecial))) (lit "; ") '\\' =
    l.map (entryText innerSpecial) := by
    refine (listBack (by decide) entryOuter l).trans (if_neg fun last => ?_)
    obtain ⟨p,-,empty⟩ := mem_map.mp (mem_of_getLast? last)
    simp [entryText,pair,join,lit] at empty
  rw [written]
  show deserializeAcl _ = _
  unfold deserializeAcl
  rw [outer,mapM_map]
  refine mapMOk fun p mem => ?_
  simp only [Function.comp,entryInner (given p mem)]
  rfl

theorem aclBackMixed : (serializeAcl ([(lit "a; b\\",lit "own"),([],lit " ")].map pair)).bind deserializeAcl =
    .ok ([(lit "a; b\\",lit "own"),([],lit " ")].map pair) := aclBack _ (by decide)

end Irods.Serialization
