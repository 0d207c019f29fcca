import Irods.StringOpr

/-! The quoting of command arguments by execCmdArg, and the splitting of a
command line into an argument vector by initCmdArg. -/
namespace Irods.ExecCmdArg
open CText StringOpr List Nat

def LONG_NAME_LEN : Nat := 256
def HUGE_NAME_LEN : Nat := 100000
def isQuote (c : Char) : Bool := c == '\'' || c == '"'

def escaped : Text → Text
  | [] => []
  | c::cs => if isQuote c then '\\'::c::escaped cs else c::escaped cs

def smsiExecCmdArg (arg : Text) : Text := ' ' :: '"'::(escaped arg ++ ['"'])

/- The byte in front of curPtr, the text from startPtr to it, the two counters, the vector so far. -/
structure Scan where
  prev : Char
  arg : Text
  quoteCnt : Nat
  curLen : Nat
  av : List Text
  deriving DecidableEq, Repr

def ended (s : Scan) : Scan := ⟨'\x00',[],0,0,s.av ++ [s.arg]⟩
def taken (s : Scan) (c : Char) : Scan := ⟨c,s.arg ++ [c],s.quoteCnt,s.curLen+1,s.av⟩

def scan (s : Scan) : Text → Scan
  | [] => s
  | c::rest =>
    if (c = ' ' ∧ s.quoteCnt = 0 ∧ 0 < s.curLen) ∨ s.quoteCnt = 2 then scan (ended s) rest
    else if c = ' ' ∧ s.quoteCnt ≤ 1 ∧ s.curLen = 0 then scan {s with prev := c, arg := []} rest
    else if isQuote c ∧ s.prev = '\\' then scan (taken s c) rest
    else if isQuote c then
      -- curPtr stays on a second quote, and the next turn of the loop ends the argument there.
      if s.quoteCnt+1 = 1 then scan {s with prev := c, arg := [], quoteCnt := 1} rest
      else scan (ended {s with quoteCnt := s.quoteCnt+1}) rest
    else scan (taken s c) rest

def lastOne (s : Scan) : List Text := if 0 < s.curLen then s.av ++ [s.arg] else s.av

def unescaped : Text → Text
  | [] => []
  | ['\\'] => ['\\']
  | '\\'::q::rest => if isQuote q then q::unescaped rest else '\\'::unescaped (q::rest)
  | c::rest => c::unescaped rest

/- The vector has slots entries and is not checked; none is a write behind its end. -/
def initCmdArg (slots : Nat) (before : Char) (cmdArgv cmdPath : Text) : Option (List Text) :=
  let tmpCmdArgv := (rstrcpy cmdArgv HUGE_NAME_LEN).1
  let av := if 0 < cmdArgv.length then lastOne (scan ⟨before,[],0,0,[cmdPath]⟩ tmpCmdArgv) else [cmdPath]
  if av.length < slots then some (av.map unescaped) else none

def cmdLine (args : List Text) : Text := [' '].intercalate (args.map smsiExecCmdArg)

theorem unescapedPlain {c rest} (plain : c ≠ '\\') : unescaped (c::rest) = c::unescaped rest := by
  rw [unescaped.eq_4]
  · intro same
    contradiction
  · intro q _ same
    contradiction

theorem unescapedQuote {q rest} (quote : isQuote q) :
    unescaped ('\\'::q::rest) = q::unescaped rest := by
  simp [unescaped,quote]

theorem unescapedBackslash {t} (other : ∀ q ∈ t.head?, ¬isQuote q) :
    unescaped ('\\'::t) = '\\'::unescaped t := by
  cases t with
  | nil => rfl
  | cons q t => simp [unescaped,if_neg (other q rfl)]

theorem escapedHead {a} : ∀ q ∈ (escaped a).head?, ¬isQuote q := by
  cases a with
  | nil => simp [escaped]
  | cons c a =>
    unfold escaped
    split
    · simp [isQuote]
    · rename_i plain
      simpa using plain

theorem unescapedEscaped (a) {t} (other : ∀ q ∈ t.head?, ¬isQuote q) :
    unescaped (escaped a ++ t) = a ++ unescaped t := by
  induction a with
  | nil => rfl
  | cons c a ih =>
    unfold escaped
    split
    · rename_i quote
      rw [cons_append,cons_append,unescapedQuote quote,ih,cons_append]
    by_cases backslash : c = '\\'
    · subst c
      have next : ∀ q ∈ (escaped a ++ t).head?, ¬isQuote q := by
        cases found : escaped a with
        | nil => exact other
        | cons d _ =>
          have first := @escapedHead a
          rw [found] at first
          exact first
      rw [cons_append,unescapedBackslash next,ih,cons_append]
    · rw [cons_append,unescapedPlain backslash,ih,cons_append]

def Escape (t : Text) : Prop := ∃ a q b, isQuote q ∧ t = a ++ '\\'::q::b

theorem unescapedLength (t) : (unescaped t).length ≤ t.length := by
  fun_induction unescaped t with
  | case1 => simp
  | case2 => simp
  | case3 q rest _ ih => simp only [length_cons]; omega
  | case4 q rest _ ih => simp only [length_cons] at ih ⊢; omega
  | case5 c _ _ _ _ => simp only [length_cons]; omega

theorem unescapedSame (t) : unescaped t = t ↔ ¬Escape t := by
  fun_induction unescaped t with
  | case1 => simp [Escape]
  | case2 =>
    refine iff_of_true rfl ?_
    rintro ⟨a,q,b,-,same⟩
    have size := congrArg length same
    simp at size
    omega
  | case3 q rest quote ih =>
    have size := unescapedLength rest
    refine iff_of_false ?_ (not_not_intro ⟨[],q,rest,quote,rfl⟩)
    intro same
    have lengths := congrArg length same
    simp at lengths
    omega
  | case4 q rest plain ih =>
    rw [cons.injEq,eq_self,true_and,ih,not_iff_not]
    constructor
    · rintro ⟨a,p,b,quote,same⟩
      exact ⟨'\\'::a,p,b,quote,by rw [same,cons_append]⟩
    rintro ⟨a,p,b,quote,same⟩
    cases a with
    | nil =>
      simp only [nil_append,cons.injEq,true_and] at same
      exact absurd (same.1 ▸ quote) plain
    | cons d a => exact ⟨a,p,b,quote,(cons.inj same).2⟩
  | case5 c _ _ inner ih =>
    rw [cons.injEq,eq_self,true_and,ih,not_iff_not]
    constructor
    · rintro ⟨a,p,b,quote,same⟩
      exact ⟨c::a,p,b,quote,by rw [same,cons_append]⟩
    rintro ⟨a,p,b,quote,same⟩
    cases a with
    | nil =>
      obtain ⟨rfl,rfl⟩ := cons.inj same
      exact absurd rfl (inner p b rfl)
    | cons d a => exact ⟨a,p,b,quote,(cons.inj same).2⟩

theorem takenAll (s) (t : Text) : t.foldl taken s =
    ⟨(s.prev::t).getLast (by simp),s.arg ++ t,s.quoteCnt,s.curLen+t.length,s.av⟩ := by
  induction t generalizing s with
  | nil => simp
  | cons c t ih =>
    rw [foldl_cons,ih]
    simp [taken]
    omega

section Inside
variable {s : Scan} {c : Char} {rest : Text}

theorem scanPlain (inside : s.quoteCnt = 1) (started : 0 < s.curLen ∨ c ≠ ' ') (plain : ¬isQuote c) :
    scan s (c::rest) = scan (taken s c) rest := by
  have first : ¬((c = ' ' ∧ s.quoteCnt = 0 ∧ 0 < s.curLen) ∨ s.quoteCnt = 2) := by omega
  have second : ¬(c = ' ' ∧ s.quoteCnt ≤ 1 ∧ s.curLen = 0) := by
    rintro ⟨blank,-,_⟩
    rcases started with _ | other
    · omega
    · exact other blank
  rw [scan,if_neg first,if_neg second,if_neg (by simp [plain]),if_neg plain]

theorem quoteNotBlank (quote : isQuote c) : c ≠ ' ' := by
  rintro rfl
  contradiction

theorem scanEscapedQuote (inside : s.quoteCnt = 1) (quote : isQuote c) (behind : s.prev = '\\') :
    scan s (c::rest) = scan (taken s c) rest := by
  have first : ¬((c = ' ' ∧ s.quoteCnt = 0 ∧ 0 < s.curLen) ∨ s.quoteCnt = 2) := by omega
  rw [scan,if_neg first,if_neg fun blank => quoteNotBlank quote blank.1,if_pos ⟨quote,behind⟩]

theorem scanClosing (inside : s.quoteCnt = 1) (quote : isQuote c) (plain : s.prev ≠ '\\') :
    scan s (c::rest) = scan (ended s) rest := by
  have first : ¬((c = ' ' ∧ s.quoteCnt = 0 ∧ 0 < s.curLen) ∨ s.quoteCnt = 2) := by omega
  rw [scan,if_neg first,if_neg fun blank => quoteNotBlank quote blank.1,if_neg fun both => plain both.2,
    if_pos quote,if_neg (by omega)]
  rfl

theorem scanLeading (inside : s.quoteCnt ≤ 1) (fresh : s.curLen = 0) :
    scan s (' '::rest) = scan {s with prev := ' ', arg := []} rest := by
  rw [scan,if_neg (by omega),if_pos ⟨rfl,inside,fresh⟩]

theorem scanOpening (outside : s.quoteCnt = 0) (quote : isQuote c) (plain : s.prev ≠ '\\') :
    scan s (c::rest) = scan {s with prev := c, arg := [], quoteCnt := 1} rest := by
  have first : ¬((c = ' ' ∧ s.quoteCnt = 0 ∧ 0 < s.curLen) ∨ s.quoteCnt = 2) := by
    rintro (⟨blank,-⟩ | _)
    · exact quoteNotBlank quote blank
    · omega
  rw [scan,if_neg first,if_neg fun blank => quoteNotBlank quote blank.1,if_neg fun both => plain both.2,
    if_pos quote,if_pos (by omega)]

end Inside

theorem scanEscaped {s a rest} (inside : s.quoteCnt = 1)
    (started : 0 < s.curLen ∨ a.head? ≠ some ' ') :
    scan s (escaped a ++ rest) = scan ((escaped a).foldl taken s) rest := by
  induction a generalizing s with
  | nil => rfl
  | cons c a ih =>
    have head : 0 < s.curLen ∨ c ≠ ' ' := by simpa using started
    unfold escaped
    split
    · rename_i quote
      have backslash : ¬isQuote '\\' := by decide
      rw [cons_append,cons_append,scanPlain inside (.inr (by decide)) backslash,
        scanEscapedQuote (s := taken s '\\') inside quote rfl,
        ih (s := taken (taken s '\\') c) inside (.inl (succ_pos _))]
      rfl
    · rename_i plain
      rw [cons_append,scanPlain inside head plain,ih (s := taken s c) inside (.inl (succ_pos _))]
      rfl

def trimmed (a : Text) : Text := a.dropWhile (· = ' ')

theorem scanTrimmed {s} (a rest) (inside : s.quoteCnt = 1) (fresh : s.curLen = 0) (empty : s.arg = []) :
    ∃ p, (p = s.prev ∨ p = ' ') ∧
      scan s (escaped a ++ rest) = scan ((escaped (trimmed a)).foldl taken {s with prev := p}) rest := by
  induction a generalizing s with
  | nil => exact ⟨s.prev,.inl rfl,rfl⟩
  | cons c a ih =>
    by_cases blank : c = ' '
    · subst c
      obtain ⟨p,known,same⟩ := ih (s := {s with prev := ' ', arg := []}) inside fresh rfl
      have skip : escaped (' '::a) ++ rest = ' '::(escaped a ++ rest) := rfl
      refine ⟨p,.inr (by simpa using known),?_⟩
      rw [skip,scanLeading (by omega) fresh,same]
      simp [trimmed,empty]
    · have whole : trimmed (c::a) = c::a := by simp [trimmed,blank]
      refine ⟨s.prev,.inl rfl,?_⟩
      rw [whole,scanEscaped inside (.inr (by simpa using blank))]

theorem escapedAppend (a b) : escaped (a ++ b) = escaped a ++ escaped b := by
  induction a with
  | nil => rfl
  | cons c a ih =>
    rw [cons_append,escaped,escaped,ih]
    split <;> rfl

theorem trimmedLast {a c} (solid : c ≠ ' ') : (trimmed a).getLast? = some c ↔ a.getLast? = some c := by
  induction a with
  | nil => rfl
  | cons d a ih =>
    by_cases blank : d = ' '
    · subst d
      have skip : trimmed (' '::a) = trimmed a := rfl
      rw [skip,ih]
      cases a with
      | nil => simp [solid.symm]
      | cons e a => simp
    · have whole : trimmed (d::a) = d::a := by simp [trimmed,blank]
      rw [whole]

theorem closingByte {p b} (plain : p ≠ '\\') :
    (p::escaped b).getLast (by simp) = '\\' ↔ b.getLast? = some '\\' := by
  rcases eq_nil_or_concat b with rfl | ⟨front,c,rfl⟩
  · simpa [escaped] using plain
  have last : (p::escaped (front ++ [c])).getLast (by simp) = c := by
    have single : escaped [c] = ['\\',c] ∨ escaped [c] = [c] := by
      unfold escaped
      split
      · exact .inl rfl
      · exact .inr rfl
    rw [escapedAppend]
    rcases single with same | same <;> simp [same]
  rw [concat_eq_append,last]
  simp

def Ready (s : Scan) : Prop := s.quoteCnt = 0 ∧ s.curLen = 0

attribute [simp] smsiExecCmdArg

theorem scanOpened {s} (ready : Ready s) (a rest) :
    scan s (smsiExecCmdArg a ++ rest) = scan ⟨'"',[],1,0,s.av⟩ (escaped a ++ '"'::rest) := by
  have line : smsiExecCmdArg a ++ rest = ' ' :: '"'::(escaped a ++ '"'::rest) := by simp
  have outside : s.quoteCnt ≤ 1 := by rw [ready.1]; omega
  rw [line,scanLeading outside ready.2,scanOpening (s := {s with prev := ' ', arg := []}) ready.1 rfl (by simp),ready.2]

theorem scanClosed {s} (ready : Ready s) {a} (rest) (closes : a.getLast? ≠ some '\\') :
    scan s (smsiExecCmdArg a ++ rest) = scan ⟨'\x00',[],0,0,s.av ++ [escaped (trimmed a)]⟩ rest := by
  obtain ⟨p,known,same⟩ := scanTrimmed (s := ⟨'"',[],1,0,s.av⟩) a ('"'::rest) rfl rfl rfl
  have plain : p ≠ '\\' := by rcases known with rfl | rfl <;> simp
  rw [scanOpened ready,same,takenAll,scanClosing rfl rfl]
  · rfl
  · exact fun backslash => closes ((trimmedLast (by decide)).mp ((closingByte plain).mp backslash))

theorem scanRunsOn {s} (ready : Ready s) {a} (rest) (unclosed : a.getLast? = some '\\') :
    ∃ k, scan s (smsiExecCmdArg a ++ rest) = scan ⟨'"',escaped (trimmed a) ++ ['"'],1,k+1,s.av⟩ rest := by
  obtain ⟨p,known,same⟩ := scanTrimmed (s := ⟨'"',[],1,0,s.av⟩) a ('"'::rest) rfl rfl rfl
  have plain : p ≠ '\\' := by rcases known with rfl | rfl <;> simp
  refine ⟨0+(escaped (trimmed a)).length,?_⟩
  rw [scanOpened ready,same,takenAll,scanEscapedQuote rfl rfl]
  · rfl
  · exact (closingByte plain).mpr ((trimmedLast (by decide)).mpr unclosed)

def following (args : List Text) : Text := args.flatMap (fun a => ' '::smsiExecCmdArg a)

theorem cmdLineCons (a args) : cmdLine (a::args) = smsiExecCmdArg a ++ following args := by
  induction args generalizing a with
  | nil => simp [cmdLine,following]
  | cons b _ ih =>
    have rest := ih b
    simp only [cmdLine,map_cons,following] at rest ⊢
    rw [intercalate_cons_cons,rest]
    simp

theorem scanFollowing {s} (ready : Ready s) {args} (rest)
    (close : ∀ a ∈ args, a.getLast? ≠ some '\\') :
    ∃ t, Ready t ∧ t.av = s.av ++ args.map (fun a => escaped (trimmed a)) ∧
      scan s (following args ++ rest) = scan t rest := by
  induction args generalizing s with
  | nil => exact ⟨s,ready,by simp,rfl⟩
  | cons a args ih =>
    have first := scanClosed (s := {s with prev := ' ', arg := []}) ready (following args ++ rest)
      (close a mem_cons_self)
    obtain ⟨t,done,av,run⟩ := ih (s := ⟨'\x00',[],0,0,s.av ++ [escaped (trimmed a)]⟩) ⟨rfl,rfl⟩
      fun b member => close b (mem_cons_of_mem a member)
    refine ⟨t,done,by rw [av]; simp,?_⟩
    have line : following (a::args) ++ rest = ' '::(smsiExecCmdArg a ++ (following args ++ rest)) := by
      simp [following]
    rw [line,scanLeading (by rw [ready.1]; omega) ready.2,first,run]

theorem avGrows (s t) : s.av <+: (scan s t).av := by
  induction t generalizing s with
  | nil => exact prefix_rfl
  | cons c t ih =>
    have grown : s.av <+: (ended s).av := prefix_append _ _
    unfold scan
    split
    · exact grown.trans (ih _)
    split
    · exact ih {s with prev := c, arg := []}
    split
    · exact ih (taken s c)
    split
    · split
      · exact ih {s with prev := c, arg := [], quoteCnt := 1}
      · exact grown.trans (ih (ended {s with quoteCnt := s.quoteCnt+1}))
    · exact ih (taken s c)

theorem lastOneGrows (s) : s.av <+: lastOne s := by
  unfold lastOne
  split
  · exact prefix_append _ _
  · exact prefix_rfl

theorem runOnDiffers {a} (unclosed : a.getLast? = some '\\') {tail} (blank : ∀ c ∈ tail, c = ' ') :
    unescaped (escaped (trimmed a) ++ '"'::tail) ≠ a := by
  obtain ⟨front,whole⟩ := getLast?_eq_some_iff.mp ((trimmedLast (by decide)).mpr unclosed)
  have text : escaped (trimmed a) ++ '"'::tail = escaped front ++ '\\' :: '"'::tail := by
    rw [whole,escapedAppend]
    simp [escaped,isQuote]
  have kept := (unescapedSame tail).mpr (by
    rintro ⟨x,q,y,-,rfl⟩
    exact absurd (blank '\\' (by simp)) (by decide))
  intro same
  rw [text,unescapedEscaped front (by simp [isQuote]),unescapedQuote rfl,kept] at same
  rw [← same] at unclosed
  rcases eq_nil_or_concat tail with rfl | ⟨start,c,rfl⟩
  · simp at unclosed
  have last := blank c (by simp)
  have ending : front ++ '"'::start.concat c = (front ++ '"'::start) ++ [c] := by simp
  rw [ending,getLast?_concat,last] at unclosed
  simp at unclosed

theorem scanRunOnVector {s} (ready : Ready s) {a} (args) (unclosed : a.getLast? = some '\\') :
    ∃ tail : Text, (∀ c ∈ tail, c = ' ') ∧
      s.av ++ [escaped (trimmed a) ++ '"'::tail] <+: lastOne (scan s (smsiExecCmdArg a ++ following args)) := by
  obtain ⟨k,run⟩ := scanRunsOn ready (following args) unclosed
  rw [run]
  cases args with
  | nil =>
    simp [following,scan,lastOne]
  | cons b args =>
    refine ⟨[' ',' '],by simp,?_⟩
    have line : following (b::args) = ' ':: ' ' :: '"'::(escaped b ++ '"'::following args) := by
      simp [following]
    rw [line,scanPlain rfl (.inl (succ_pos k)) (by decide),scanPlain rfl (.inl (succ_pos _)) (by decide),
      scanClosing rfl rfl (by simp [taken])]
    refine List.IsPrefix.trans ?_ ((avGrows _ _).trans (lastOneGrows _))
    simp [ended,taken]

theorem vectorTrimmed {before cmdPath args} (close : ∀ a ∈ args, a.getLast? ≠ some '\\') :
    (if 0 < (cmdLine args).length then lastOne (scan ⟨before,[],0,0,[cmdPath]⟩ (cmdLine args)) else [cmdPath]) =
      cmdPath::args.map fun a => escaped (trimmed a) := by
  cases args with
  | nil => rfl
  | cons a args =>
    have full : 0 < (cmdLine (a::args)).length := by rw [cmdLineCons]; simp
    have first := scanClosed (s := ⟨before,[],0,0,[cmdPath]⟩) ⟨rfl,rfl⟩ (following args) (close a mem_cons_self)
    obtain ⟨t,ready,av,run⟩ := scanFollowing (s := ⟨'\x00',[],0,0,[cmdPath] ++ [escaped (trimmed a)]⟩) ⟨rfl,rfl⟩ []
      fun b member => close b (mem_cons_of_mem a member)
    rw [append_nil] at run
    rw [if_pos full,cmdLineCons,first,run,scan,lastOne,if_neg (by rw [ready.2]; omega),av]
    rfl

theorem vectorRunOn (before cmdPath) {a front} (args)
    (close : ∀ b ∈ front, b.getLast? ≠ some '\\') (unclosed : a.getLast? = some '\\') :
    ∃ tail : Text, (∀ c ∈ tail, c = ' ') ∧
      cmdPath::front.map (fun b => escaped (trimmed b)) ++ [escaped (trimmed a) ++ '"'::tail] <+:
        lastOne (scan ⟨before,[],0,0,[cmdPath]⟩ (cmdLine (front ++ a::args))) := by
  cases front with
  | nil =>
    rw [nil_append,cmdLineCons]
    exact scanRunOnVector (s := ⟨before,[],0,0,[cmdPath]⟩) ⟨rfl,rfl⟩ args unclosed
  | cons b front =>
    have first := scanClosed (s := ⟨before,[],0,0,[cmdPath]⟩) ⟨rfl,rfl⟩ (following (front ++ a::args))
      (close b mem_cons_self)
    have line : following (front ++ a::args) = following front ++ ' '::(smsiExecCmdArg a ++ following args) := by
      simp [following]
    obtain ⟨t,ready,av,run⟩ := scanFollowing (s := ⟨'\x00',[],0,0,[cmdPath] ++ [escaped (trimmed b)]⟩) ⟨rfl,rfl⟩
      (' '::(smsiExecCmdArg a ++ following args)) fun d member => close d (mem_cons_of_mem b member)
    have skip : scan t (' '::(smsiExecCmdArg a ++ following args)) = _ := scanLeading (by rw [ready.1]; omega) ready.2
    obtain ⟨tail,blank,grown⟩ := scanRunOnVector (s := {t with prev := ' ', arg := []}) ready args unclosed
    refine ⟨tail,blank,?_⟩
    have whole : cmdLine (b::front ++ a::args) = smsiExecCmdArg b ++ following (front ++ a::args) := cmdLineCons _ _
    rw [whole,first,line,run,skip]
    simpa [av] using grown

def Protects (before : Char) (cmdPath : Text) (args : List Text) : Prop :=
  initCmdArg LONG_NAME_LEN before (cmdLine args) cmdPath = some (cmdPath::args)

instance (before cmdPath args) : Decidable (Protects before cmdPath args) := by unfold Protects; infer_instance

def Quotable (a : Text) : Prop := a.head? ≠ some ' ' ∧ a.getLast? ≠ some '\\'

theorem trimmedSame (a) : trimmed a = a ↔ a.head? ≠ some ' ' := by
  cases a with
  | nil => simp [trimmed]
  | cons c a =>
    by_cases blank : c = ' '
    · subst c
      refine iff_of_false ?_ (by simp)
      intro same
      have size := congrArg length same
      have short := (dropWhile_suffix (l := a) (· = ' ')).length_le
      simp [trimmed] at size
      omega
    · simp [trimmed]

theorem protectsTrimmed {before cmdPath args}
    (short : (cmdLine args).length < HUGE_NAME_LEN) (close : ∀ a ∈ args, a.getLast? ≠ some '\\') :
    Protects before cmdPath args ↔
      args.length+1 < LONG_NAME_LEN ∧ unescaped cmdPath = cmdPath ∧ args.map trimmed = args := by
  have plain : unescaped ∘ (fun a => escaped (trimmed a)) = trimmed := by
    funext a
    have all := unescapedEscaped (trimmed a) (t := []) (by simp)
    simpa [unescaped] using all
  unfold Protects initCmdArg
  rw [rstrcpyFits short]
  simp only [vectorTrimmed close]
  split
  · rename_i room
    simp only [length_cons,length_map] at room
    simp [plain,room]
  · rename_i full
    simp only [length_cons,length_map] at full
    simp [full]

theorem notProtected {before cmdPath args}
    (short : (cmdLine args).length < HUGE_NAME_LEN) {a} (member : a ∈ args) (unclosed : a.getLast? = some '\\') :
    ¬Protects before cmdPath args := by
  -- The first argument that ends in a backslash decides.
  obtain ⟨front,first,rest,rfl,found,earlier⟩ : ∃ front b rest, args = front ++ b::rest ∧
      b.getLast? = some '\\' ∧ ∀ d ∈ front, d.getLast? ≠ some '\\' := by
    have nonempty : (args.find? fun b => b.getLast? = some '\\').isSome := by
      rw [find?_isSome]
      exact ⟨a,member,by simpa using unclosed⟩
    obtain ⟨b,found⟩ := Option.isSome_iff_exists.mp nonempty
    obtain ⟨holds,front,rest,parts,preceding⟩ := find?_eq_some_iff_append.mp found
    exact ⟨front,b,rest,parts,by simpa using holds,fun d inside => by simpa using preceding d inside⟩
  obtain ⟨_,blank,grown⟩ := vectorRunOn before cmdPath rest earlier found
  have full : 0 < (cmdLine (front ++ first::rest)).length := by
    cases front <;> simp [cmdLineCons]
  intro guarded
  unfold Protects initCmdArg at guarded
  rw [rstrcpyFits short] at guarded
  simp only [full,if_true] at guarded
  split at guarded
  · obtain ⟨_,vector⟩ := grown
    rw [← vector,Option.some_inj] at guarded
    simp only [cons_append,map_cons,map_append,append_assoc,cons.injEq] at guarded
    have remainder := (append_inj guarded.2 (by simp)).2
    exact runOnDiffers found blank (cons.inj remainder).1
  · contradiction

theorem argumentsProtectedExactly {before : Char} {cmdPath : Text} {args : List Text}
    (short : (cmdLine args).length < HUGE_NAME_LEN) (few : args.length < LONG_NAME_LEN) :
    Protects before cmdPath args ↔
      (∀ a ∈ args, Quotable a) ∧ ¬Escape cmdPath ∧ args.length ≠ LONG_NAME_LEN-1 := by
  by_cases close : ∀ a ∈ args, a.getLast? ≠ some '\\'
  · have each : args.map trimmed = args ↔ ∀ a ∈ args, trimmed a = a := by
      simpa using map_eq_map_iff (g := id)
    rw [protectsTrimmed short close,unescapedSame,each]
    have room : args.length+1 < LONG_NAME_LEN ↔ args.length ≠ LONG_NAME_LEN-1 := by omega
    rw [room]
    constructor
    · rintro ⟨size,path,all⟩
      exact ⟨fun a member => ⟨(trimmedSame a).mp (all a member),close a member⟩,path,size⟩
    · rintro ⟨all,path,size⟩
      exact ⟨size,path,fun a member => (trimmedSame a).mpr (all a member).1⟩
  · simp only [not_forall,not_not] at close
    obtain ⟨a,member,unclosed⟩ := close
    refine iff_of_false (notProtected short member unclosed) ?_
    rintro ⟨all,-⟩
    exact (all a member).2 unclosed

theorem plainArgumentsProtected :
    (cmdLine [lit "a b",lit "it's"]).length < HUGE_NAME_LEN ∧ Protects ' ' (lit "ls") [lit "a b",lit "it's"] := by
  refine ⟨by decide,(argumentsProtectedExactly (by decide) (by decide)).mpr ⟨?_,?_,by decide⟩⟩
  · simp [Quotable,lit]
  · exact (unescapedSame (lit "ls")).mp rfl

theorem backslashOpensArgument :
    initCmdArg LONG_NAME_LEN ' ' (cmdLine [lit "x\\",lit "a -rf b"]) (lit "ls") =
      some [lit "ls",lit "x\"  ",lit "a",lit "-rf",[]] ∧
    ¬Protects ' ' (lit "ls") [lit "x\\",lit "a -rf b"] := by
  decide

end Irods.ExecCmdArg
