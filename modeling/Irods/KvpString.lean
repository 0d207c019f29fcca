import Irods.CText

/-! Maps as escaped key-value strings (irods_kvp_string_parser.cpp). Every failure is SYS_BAD_INPUT with a message. -/
namespace Irods.KvpString
open CText EscapedText List Prod

/- A map keeps its keys in order. -/
@[ext] structure KvpMap where
  entries : List (Text × Text)
  ordered : (entries.map Prod.fst).Pairwise (· < ·)

def assignEntry (k v : Text) : List (Text × Text) → List (Text × Text)
  | [] => [(k,v)]
  | e::es => if k < e.1 then (k,v)::e::es else if e.1 = k then (k,v)::es else e::assignEntry k v es

theorem assignKeys {k v es k'} (mem : k' ∈ (assignEntry k v es).map fst) :
    k' = k ∨ k' ∈ es.map fst := by
  induction es with
  | nil => exact .inl (by simpa [assignEntry] using mem)
  | cons e _ ih =>
    unfold assignEntry at mem
    split at mem
    · simpa using mem
    split at mem
    · rcases mem_cons.mp mem with rfl | later
      · exact .inl rfl
      · exact .inr (mem_cons_of_mem _ later)
    · rcases mem_cons.mp mem with rfl | later
      · exact .inr mem_cons_self
      · exact (ih later).imp_right (mem_cons_of_mem _)

theorem assignOrdered (k v) {es} (ordered : (es.map fst).Pairwise (· < ·)) :
    ((assignEntry k v es).map fst).Pairwise (· < ·) := by
  induction es with
  | nil => simp [assignEntry]
  | cons e _ ih =>
    obtain ⟨first,rest⟩ := pairwise_cons.mp ordered
    unfold assignEntry
    split
    · rename_i before
      refine pairwise_cons.mpr ⟨fun k' mem => ?_,ordered⟩
      rcases mem_cons.mp mem with rfl | later
      · exact before
      · exact before.trans (first k' later)
    · rename_i after
      split
      · rename_i same
        exact pairwise_cons.mpr ⟨fun k' mem => same ▸ first k' mem,rest⟩
      rename_i other
      refine pairwise_cons.mpr ⟨fun k' mem => ?_,ih rest⟩
      rcases assignKeys mem with rfl | old
      · exact lt_of_le_of_ne (not_lt.mp after) other
      · exact first k' old

def KvpMap.assign (m : KvpMap) (k v : Text) : KvpMap := ⟨assignEntry k v m.entries,assignOrdered k v m.ordered⟩
def emptyMap : KvpMap := ⟨[],.nil⟩

def kvpDelimiter : Text := lit ";"
def kvpAssociation : Text := lit "="
def kvpEscape : Text := lit "\\"

structure State where
  kvp : KvpMap
  key : Text
  value : Text
  assocEncountered : Bool

def State.put (st : State) (c : Char) : State :=
  if st.assocEncountered then { st with value := st.value ++ [c] } else { st with key := st.key ++ [c] }

def State.store (st : State) : State := ⟨st.kvp.assign st.key st.value,[],[],false⟩

/- The count is of the characters of the token found that are still to be passed; after an escape the
next character is taken as it is. -/
def parseLoop (assoc delim escape : Text) : Nat → Bool → State → Text → Except Text State
  | _,true,_,[] => .error (lit "kvp ended in an unescaped _escape token")
  | _,false,st,[] => .ok st
  | passed+1,raw,st,_::rest => parseLoop assoc delim escape passed raw st rest
  | 0,true,st,c::rest => parseLoop assoc delim escape 0 false (st.put c) rest
  | 0,false,st,c::rest =>
    if escape.isPrefixOf (c::rest) then parseLoop assoc delim escape (escape.length-1) true st rest
    else if assoc.isPrefixOf (c::rest) then
      if st.assocEncountered then .error (lit "unescaped _assoc token encountered in key or value")
      else parseLoop assoc delim escape (assoc.length-1) false { st with assocEncountered := true } rest
    else if delim.isPrefixOf (c::rest) then
      if !st.assocEncountered then
        .error (lit "no unescaped _assoc token encountered before unescaped delimiter when parsing kvp")
      else parseLoop assoc delim escape (delim.length-1) false st.store rest
    else parseLoop assoc delim escape 0 false (st.put c) rest

def finish (st : State) : Except Text KvpMap :=
  if !st.key.isEmpty && !st.assocEncountered then
    .error (lit "no unescaped _assoc token encountered before end of string when parsing kvp")
  else if st.assocEncountered then .ok (st.kvp.assign st.key st.value)
  else .ok st.kvp

def parseEscapedKvpString (s : Text) (kvp : KvpMap) (assoc delim escape : Text) : Except Text KvpMap :=
  let holds (a b : Text) : Bool := (strstr a b).isSome
  if delim.isEmpty || assoc.isEmpty || escape.isEmpty then .error (lit "_delim, _assoc, and _escape may not be empty")
  else if delim == escape || delim == assoc || assoc == escape || delim.isPrefixOf assoc || assoc.isPrefixOf delim then
    .error (lit "_delim, _assoc, and _escape must all be distinct in calls to parse_kvp_string")
  else if holds assoc delim || holds assoc escape || holds delim assoc || holds delim escape || holds escape assoc ||
    holds escape delim then
    .error (lit "_delim, _assoc, and _escape may not contain each other in calls to parse_kvp_string")
  else (parseLoop assoc delim escape 0 false ⟨kvp,[],[],false⟩ s).bind finish

def escapeFrom (escape : Text) (special : List Text) : Nat → Text → Text
  | _,[] => []
  | passed+1,_::rest => escapeFrom escape special passed rest
  | 0,c::rest =>
    match special.find? (·.isPrefixOf (c::rest)) with
    | some token => escape ++ (token ++ escapeFrom escape special (token.length-1) rest)
    | none =>
      if escape ∉ special ∧
      escape.isPrefixOf (c::rest) then escape ++ (escape ++ escapeFrom escape special (escape.length-1) rest)
      else c::escapeFrom escape special 0 rest

def escapeString (s escape : Text) (special : List Text) : Text := escapeFrom escape special 0 s
def escapeToken (s : Text) : Text := escapeString s kvpEscape [kvpDelimiter,kvpAssociation]

def escapedEntries : List (Text × Text) → Text
  | [] => []
  | [e] => escapeToken e.1 ++ (kvpAssociation ++ escapeToken e.2)
  | e::es => escapeToken e.1 ++ (kvpAssociation ++ (escapeToken e.2 ++ (kvpDelimiter ++ escapedEntries es)))

def escapedKvpString (kvp : KvpMap) : Text := escapedEntries kvp.entries

def tokenChar (c : Char) : Bool := (lit "\\;=").contains c

theorem escapeTokenChars (s) : escapeToken s = escaped tokenChar '\\' s := by
  unfold escapeToken escapeString
  induction s with
  | nil => rfl
  | cons c s ih =>
    unfold escaped at ih ⊢
    rw [flatMap_cons,← ih]
    simp only [escapeFrom,kvpDelimiter,kvpAssociation,kvpEscape,lit,find?,isPrefixOf,tokenChar,contains_cons]
    by_cases delimiter : c = ';'
    · simp [delimiter]
    by_cases association : c = '='
    · simp [association]
    by_cases escape : c = '\\'
    · simp [escape]
    have not : ∀ {d : Char}, ¬c = d → (d == c) = false ∧ (c == d) = false := fun other =>
      ⟨beq_eq_false_iff_ne.mpr (Ne.symm other),beq_eq_false_iff_ne.mpr other⟩
    simp [not delimiter,not association,not escape]

def parse (st : State) (s : Text) : Except Text State := parseLoop kvpAssociation kvpDelimiter kvpEscape 0 false st s

theorem putAll (st) (t : Text) : t.foldl State.put st =
    if st.assocEncountered then { st with value := st.value ++ t } else { st with key := st.key ++ t } := by
  induction t generalizing st with
  | nil => simp
  | cons c t ih =>
    rw [foldl_cons,ih,State.put]
    cases st.assocEncountered <;> simp

theorem parseToken (st t rest) : parse st (escapeToken t ++ rest) = parse (t.foldl State.put st) rest := by
  rw [escapeTokenChars]
  refine (@scanEscaped State _ parse tokenChar '\\' State.put State.put (fun _ _ _ _ => rfl) ?_ st t rest).trans ?_
  · intro s c _ plain
    simp only [tokenChar,lit,contains_cons,contains_nil,Bool.or_false,Bool.or_eq_false_iff,beq_eq_false_iff_ne] at plain
    simp [parse,parseLoop,kvpEscape,kvpAssociation,kvpDelimiter,lit,Ne.symm plain.1,Ne.symm plain.2.1,Ne.symm plain.2.2]
  · simp

theorem parsePair (kvp) (e : Text × Text) (rest) :
    parse ⟨kvp,[],[],false⟩
      (escapeToken e.1 ++ (kvpAssociation ++ (escapeToken e.2 ++ rest))) = parse ⟨kvp,e.1,e.2,true⟩ rest := by
  rw [parseToken,putAll]
  show parse ⟨kvp,e.1,[],true⟩ (escapeToken e.2 ++ rest) = _
  rw [parseToken,putAll]
  rfl

theorem assignLast {k} (v) {es} (last : ∀ k' ∈ es.map fst, k' < k) :
    assignEntry k v es = es ++ [(k,v)] := by
  induction es with
  | nil => rfl
  | cons e _ ih =>
    obtain ⟨here,rest⟩ := forall_mem_cons.mp last
    rw [assignEntry,if_neg (not_lt.mpr here.le),if_neg here.ne,ih rest]
    rfl

theorem entriesBack (es) (kvp) (all) (whole : all.entries = kvp.entries ++ es) :
    (parse ⟨kvp,[],[],false⟩ (escapedEntries es)).bind finish = .ok all := by
  induction es generalizing kvp with
  | nil =>
    have same := KvpMap.ext (by simpa using whole)
    rw [same]
    rfl
  | cons e es ih =>
    have keys := all.ordered
    rw [whole,map_append,pairwise_append] at keys
    have stored : (kvp.assign e.1 e.2).entries = kvp.entries ++ [e] :=
      assignLast e.2 fun k mem => keys.2.2 k mem e.1 mem_cons_self
    have next : all.entries = (kvp.assign e.1 e.2).entries ++ es := by rw [stored,whole,append_assoc,singleton_append]
    cases es with
    | nil =>
      have pair := parsePair kvp e []
      rw [append_nil] at pair
      have same := KvpMap.ext (by simpa using next)
      rw [escapedEntries,pair,same]
      show finish _ = _
      simp [finish]
    | cons f _ =>
      rw [escapedEntries,parsePair]
      · exact ih (kvp.assign e.1 e.2) next
      · simp

theorem kvpBack (m : KvpMap) :
    parseEscapedKvpString (escapedKvpString m) emptyMap kvpAssociation kvpDelimiter kvpEscape = .ok m :=
  entriesBack m.entries emptyMap m rfl

end Irods.KvpString
