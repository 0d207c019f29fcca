import Irods.GenQuery1Limits
import Irods.GenQuery1Binds

/-! Conditions that differ in their quoted strings only. Compound operators are looked for with
the quoted strings masked; the keywords IN and BETWEEN are looked for in the whole text, lower
case first, so a quoted string can hide an upper case keyword. -/
namespace Irods.GenQuery1Shape
open CText StringOpr StaticMemory GenQuery1Setup GenQuery1Tables GenQuery1Conditions GenQuery1Generate GenQuery1Forms
    List Option Prod Nat
  GenQuery1Tracks GenQuery1Assembly GenQuery1Binds GenQuery1Twins GenQuery1Limits

inductive Variant : Text → Text → Prop where
  | nil : Variant [] []
  | outside {c : Char} {t t' : Text} : c ≠ quote → Variant t t' → Variant (c::t) (c::t')
  | quoted {v v' t t' : Text} : quote ∉ v → quote ∉ v' → Variant t t' →
      Variant (quote::(v ++ quote::t)) (quote::(v' ++ quote::t'))
  | unclosed {t : Text} : quote ∉ t → Variant (quote::t) (quote::t)

theorem variantSymm {t t'} (variant : Variant t t') : Variant t' t := by
  induction variant with
  | nil => exact .nil
  | outside other _ ih => exact .outside other ih
  | quoted free free' _ ih => exact .quoted free' free ih
  | unclosed free => exact .unclosed free

theorem variantPlain {t} (free : quote ∉ t) : Variant t t := by
  induction t with
  | nil => exact .nil
  | cons c t ih =>
    rw [mem_cons,not_or] at free
    exact .outside (fun same => free.1 same.symm) (ih free.2)

theorem variantUnquoted {t t'} (variant : Variant t t') (free : quote ∉ t) : t = t' := by
  induction variant with
  | nil => rfl
  | outside _ _ ih =>
    rw [mem_cons,not_or] at free
    rw [ih free.2]
  | quoted => exact absurd mem_cons_self free
  | unclosed => rfl

theorem variantIff {t t' k} (variant : Variant t t') (free : quote ∉ k) : t = k ↔ t' = k := by
  constructor
  · rintro rfl
    exact (variantUnquoted variant free).symm
  · rintro rfl
    exact (variantUnquoted (variantSymm variant) free).symm

theorem variantTail {c t u} (variant : Variant (c::t) u) (other : c ≠ quote) : ∃ t', u = c::t' ∧ Variant t t' := by
  cases variant with
  | outside _ rest => exact ⟨_,rfl,rest⟩
  | quoted => contradiction
  | unclosed => contradiction

theorem variantPrefix {t t' k} (variant : Variant t t') (free : quote ∉ k) (start : k <+: t) : k <+: t' := by
  induction k generalizing t t' with
  | nil => exact nil_prefix
  | cons c k ih =>
    rw [mem_cons,not_or] at free
    obtain ⟨_,rfl⟩ := start
    obtain ⟨u,rfl,tail⟩ := variantTail variant fun same => free.1 same.symm
    exact cons_prefix_cons.mpr ⟨rfl,ih tail free.2 (prefix_append _ _)⟩

theorem variantPrefixIff {t t' k} (variant : Variant t t') (free : quote ∉ k) : k <+: t ↔ k <+: t' :=
  ⟨variantPrefix variant free,variantPrefix (variantSymm variant) free⟩

def blankChar (c : Char) : Bool := c == ' '

theorem variantBody {t t'} (variant : Variant t t') : t.takeWhile blankChar = t'.takeWhile blankChar ∧
    Variant (t.dropWhile blankChar) (t'.dropWhile blankChar) := by
  induction variant with
  | nil => exact ⟨rfl,.nil⟩
  | @outside c t _ other rest ih =>
    by_cases blank : blankChar c = true
    · rw [takeWhile_cons_of_pos blank,takeWhile_cons_of_pos blank,dropWhile_cons_of_pos blank,
        dropWhile_cons_of_pos blank]
      exact ⟨by rw [ih.1],ih.2⟩
    · rw [takeWhile_cons_of_neg blank,takeWhile_cons_of_neg blank,dropWhile_cons_of_neg blank,
        dropWhile_cons_of_neg blank]
      exact ⟨rfl,.outside other rest⟩
  | quoted free free' rest =>
    exact ⟨rfl,.quoted free free' rest⟩
  | unclosed free =>
    exact ⟨rfl,.unclosed free⟩

theorem variantFront {k t t'} (free : quote ∉ k) (variant : Variant t t') : Variant (k ++ t) (k ++ t') := by
  induction k with
  | nil => exact variant
  | cons c k ih =>
    rw [mem_cons,not_or] at free
    exact .outside (fun same => free.1 same.symm) (ih free.2)

theorem castVariant {t t'} (variant : Variant t t') : castSpecified t = castSpecified t' := by
  have body := (variantBody variant).2
  have known : ∀ {u u' : Text}, Variant (u.dropWhile blankChar) (u'.dropWhile blankChar) →
      castSpecified u = true → castSpecified u' = true := by
    intro u u' variant yes
    unfold castSpecified at yes ⊢
    split at yes
    · rename_i c _ shape
      obtain ⟨v,same,tail⟩ := variantTail (shape ▸ variant) (by decide)
      have other : c ≠ quote := by
        rintro rfl
        exact absurd yes (by decide)
      obtain ⟨w,rfl,-⟩ := variantTail tail other
      rw [show u'.dropWhile (fun c => c == ' ') = _ from same]
      exact yes
    · cases yes
  rw [Bool.eq_iff_iff]
  exact ⟨known body,known (variantSymm body)⟩

theorem effectiveVariant {t t'} (variant : Variant t t') : Variant (effectiveCondition t) (effectiveCondition t') := by
  unfold effectiveCondition
  rw [← castVariant variant]
  split
  · rename_i yes
    obtain ⟨front,body⟩ := variantBody variant
    have blanks : quote ∉ t.takeWhile blankChar := by
      intro mem
      exact absurd (mem_takeWhile_imp mem) (by decide)
    show Variant (t.takeWhile blankChar ++ ' '::(t.dropWhile blankChar).tail)
      (t'.takeWhile blankChar ++ ' '::(t'.dropWhile blankChar).tail)
    rw [← front]
    refine variantFront blanks (.outside (by decide) ?_)
    unfold castSpecified at yes
    split at yes
    · rename_i c rest found
      have found : t.dropWhile blankChar = 'n'::c::rest := found
      rw [found] at body ⊢
      obtain ⟨u,same,tail⟩ := variantTail body (by decide)
      rw [same]
      exact tail
    · cases yes
  · exact variant

theorem twiceInfix {c d} {t : Text} : [c,c] <:+: d::t ↔ (d = c ∧ t.head? = some c) ∨ [c,c] <:+: t := by
  rw [infix_cons_iff]
  cases t with
  | nil => simp
  | cons e t => simp [eq_comm]

theorem blanksInfix {c} {n} {t} (other : c ≠ ' ') :
    [c,c] <:+: replicate n ' ' ++ t ↔ [c,c] <:+: t := by
  induction n with
  | zero => rfl
  | succ n ih =>
    rw [replicate_succ,cons_append,twiceInfix,ih]
    exact or_iff_right fun here => other here.1.symm

theorem eraseInside {v t} (free : quote ∉ v) :
    eraseQuoted true (v ++ t) = replicate v.length ' ' ++ eraseQuoted true t := by
  induction v with
  | nil => rfl
  | cons c v ih =>
    rw [mem_cons,not_or] at free
    rw [cons_append,eraseQuoted,if_neg fun same => free.1 same.symm,ih free.2]
    rfl

theorem eraseString {v t} (free : quote ∉ v) :
    eraseQuoted false (quote::(v ++ quote::t)) = ' '::(replicate v.length ' ' ++ ' '::eraseQuoted false t) := by
  rw [eraseQuoted,if_pos rfl,Bool.not_false,eraseInside free,eraseQuoted,if_pos rfl,Bool.not_true]

theorem eraseVariant {c} {t t'} (other : c ≠ ' ') (variant : Variant t t') :
    (eraseQuoted false t).head? = (eraseQuoted false t').head? ∧
      ([c,c] <:+: eraseQuoted false t ↔ [c,c] <:+: eraseQuoted false t') := by
  induction variant with
  | nil => exact ⟨rfl,.rfl⟩
  | @outside d t t' plain _ ih =>
    rw [eraseQuoted,eraseQuoted,if_neg plain,if_neg plain]
    refine ⟨rfl,?_⟩
    rw [twiceInfix,twiceInfix,ih.1,ih.2]
  | @quoted v _ t _ free free' _ ih =>
    have skip : ∀ n u, [c,c] <:+: ' '::(replicate n ' ' ++ ' '::u) ↔ [c,c] <:+: u := by
      intro n u
      rw [twiceInfix,blanksInfix other,twiceInfix]
      rw [or_iff_right fun here => other here.1.symm,or_iff_right fun here => other here.1.symm]
    rw [eraseString free,eraseString free',skip,skip]
    exact ⟨rfl,ih.2⟩
  | unclosed => exact ⟨rfl,.rfl⟩

theorem mentionsIff {t} : mentionsOperator t = true ↔ ['|','|'] <:+: t ∨ ['&','&'] <:+: t := by
  rw [mentionsOperator,Bool.or_eq_true,strstrSome,strstrSome]
  rfl

theorem mentionsVariant {t t'} (variant : Variant t t') :
    mentionsOperator (eraseQuoted false t) = mentionsOperator (eraseQuoted false t') := by
  rw [Bool.eq_iff_iff,mentionsIff,mentionsIff,(eraseVariant (by decide) variant).2,(eraseVariant (by decide) variant).2]

theorem eraseHead {c inside t} (other : c ≠ ' ') (head : (eraseQuoted inside t).head? = some c) :
    t.head? = some c := by
  cases t with
  | nil => cases head
  | cons d t =>
    unfold eraseQuoted at head
    split at head
    · cases head
      contradiction
    cases inside
    · exact head
    · cases head
      contradiction

theorem eraseInfix {c} {inside} {t} (other : c ≠ ' ') (found : [c,c] <:+: eraseQuoted inside t) : [c,c] <:+: t := by
  induction t generalizing inside with
  | nil => exact found
  | cons d t ih =>
    unfold eraseQuoted at found
    split at found
    · rw [twiceInfix,or_iff_right fun here => other here.1.symm] at found
      exact twiceInfix.mpr (.inr (ih found))
    rcases twiceInfix.mp found with ⟨here,next⟩ | later
    · cases inside
      · exact twiceInfix.mpr (.inl ⟨here,eraseHead other next⟩)
      · exact absurd here.symm other
    · exact twiceInfix.mpr (.inr (ih later))

theorem compoundErased {t} (fits : CopyFits t) :
    compoundConditionSpecified t = mentionsOperator (eraseQuoted false t) := by
  unfold compoundConditionSpecified
  cases mentioned : mentionsOperator t with
  | true =>
    rw [boundedCopyFits (fits mentioned)]
    exact Bool.true_and _
  | false =>
    rw [Bool.false_and,eq_comm,Bool.eq_false_iff]
    intro found
    rw [Bool.eq_false_iff] at mentioned
    refine mentioned (mentionsIff.mpr ?_)
    exact (mentionsIff.mp found).imp (eraseInfix (by decide)) (eraseInfix (by decide))

theorem compoundVariant {t t'} (variant : Variant t t') (fits : CopyFits t) (fits' : CopyFits t') :
    compoundConditionSpecified t = compoundConditionSpecified t' := by
  rw [compoundErased fits,compoundErased fits',mentionsVariant variant]

def firstOperator : Text → Option (Nat × Connective)
  | [] => none
  | c::t =>
    if (lit "||").isPrefixOf (c::t) then some (0,.or)
    else if (lit "&&").isPrefixOf (c::t) then some (0,.and)
    else (firstOperator t).map (fun r => (r.1+1,r.2))

theorem nextOperatorFirst (t) : nextOperator t = firstOperator (maskQueryArguments t) := by
  unfold nextOperator
  generalize maskQueryArguments t = m
  induction m with
  | nil => rfl
  | cons c m ih =>
    unfold firstOperator strstr
    by_cases here : (lit "||").isPrefixOf (c::m) = true
    · have other : ¬(lit "&&").isPrefixOf (c::m) = true := by
        intro there
        obtain ⟨r,one⟩ := isPrefixOf_iff_prefix.mp here
        obtain ⟨u,two⟩ := isPrefixOf_iff_prefix.mp there
        rw [← one] at two
        cases two
      rw [if_pos here,if_pos here,if_neg other]
      cases strstr m (lit "&&") <;> simp
    · rw [if_neg here,if_neg here]
      by_cases there : (lit "&&").isPrefixOf (c::m) = true
      · rw [if_pos there,if_pos there]
        cases strstr m (lit "||") <;> simp
      rw [if_neg there,if_neg there,← ih]
      cases strstr m (lit "||") with
      | none => cases strstr m (lit "&&") <;> rfl
      | some i =>
        cases strstr m (lit "&&") with
        | none => rfl
        | some j =>
          dsimp only [map_some]
          by_cases first : i < j
          · rw [if_pos first,if_pos (Nat.add_lt_add_right first 1)]
            rfl
          · rw [if_neg first,if_neg fun less => first (Nat.lt_of_add_lt_add_right less)]
            rfl

theorem maskOutside {c t} (other : c ≠ quote) : maskQueryArguments (c::t) = c::maskQueryArguments t := by
  rw [maskQueryArguments,if_neg fun both => other both.1,if_neg other]

theorem maskInside {v t} (free : quote ∉ v) :
    maskQuoted (v ++ quote::t) = replicate v.length ' ' ++ quote::maskQueryArguments t := by
  induction v with
  | nil => rw [nil_append]; rfl
  | cons c v ih =>
    rw [mem_cons,not_or] at free
    rw [cons_append,maskQuoted,if_neg fun same => free.1 same.symm,ih free.2]
    rfl

theorem maskString {v t} (free : quote ∉ v) :
    maskQueryArguments (quote::(v ++ quote::t)) = quote::(replicate v.length ' ' ++ quote::maskQueryArguments t) := by
  rw [maskQueryArguments,if_pos ⟨rfl,by simp⟩,maskInside free]

theorem maskUnclosed {t} (free : quote ∉ t) : maskQueryArguments (quote::t) = quote::t := by
  rw [maskQueryArguments,if_neg fun both => free both.2,if_pos rfl]

def operatorChar (c : Char) : Bool := c == '|' || c == '&'

theorem firstSkip {c t} (other : operatorChar c = false) :
    firstOperator (c::t) = (firstOperator t).map fun r => (r.1+1,r.2) := by
  rw [operatorChar,Bool.or_eq_false_iff,beq_eq_false_iff_ne,beq_eq_false_iff_ne] at other
  have disjunction : (lit "||").isPrefixOf (c::t) = false := by
    rw [Bool.eq_false_iff,ne_eq, isPrefixOf_iff_prefix]
    intro start
    exact other.1 (cons_prefix_cons.mp start).1.symm
  have conjunction : (lit "&&").isPrefixOf (c::t) = false := by
    rw [Bool.eq_false_iff,ne_eq, isPrefixOf_iff_prefix]
    intro start
    exact other.2 (cons_prefix_cons.mp start).1.symm
  rw [firstOperator,disjunction,conjunction]
  rfl

theorem firstBlanks {n t} :
    firstOperator (replicate n ' ' ++ t) = (firstOperator t).map fun r => (r.1+n,r.2) := by
  induction n with
  | zero =>
    rw [replicate_zero,nil_append]
    cases firstOperator t <;> rfl
  | succ n ih =>
    rw [replicate_succ,cons_append,firstSkip rfl,ih]
    cases firstOperator t <;> simp [add_assoc]

theorem firstString {n t} :
    firstOperator (quote::(replicate n ' ' ++ quote::t)) = (firstOperator t).map fun r => (r.1+(n+2),r.2) := by
  rw [firstSkip rfl,firstBlanks,firstSkip rfl]
  cases firstOperator t with
  | none => rfl
  | some r => simp; omega

inductive CutAlike (t t' : Text) : Option (Nat × Connective) → Option (Nat × Connective) → Prop where
  | whole : CutAlike t t' none none
  | cut {i j : Nat} {k : Connective} : i+2 ≤ t.length → j+2 ≤ t'.length → Variant (t.take i) (t'.take j) →
      Variant (t.drop (i+2)) (t'.drop (j+2)) → CutAlike t t' (some (i,k)) (some (j,k))

theorem cutShift {front front' t t' x y n m} (size : front.length = n)
    (size' : front'.length = m) (extend : ∀ {u u' : Text}, Variant u u' → Variant (front ++ u) (front' ++ u'))
    (alike : CutAlike t t' x y) :
    CutAlike (front ++ t) (front' ++ t') (x.map fun r => (r.1+n,r.2)) (y.map fun r => (r.1+m,r.2)) := by
  subst size size'
  cases alike with
  | whole => exact .whole
  | @cut i j k _ _ before after =>
    refine .cut (by rw [length_append]; omega) (by rw [length_append]; omega) ?_ ?_
    · rw [add_comm i,add_comm j,take_length_add_append,take_length_add_append]
      exact extend before
    · rw [show i+front.length+2 = front.length+(i+2) by omega,show j+front'.length+2 = front'.length+(j+2) by omega,
        drop_length_add_append,drop_length_add_append]
      exact after

theorem operatorHere {c t t'} (op : operatorChar c = true) (variant : Variant t t')
    (here : [c,c].isPrefixOf (c::maskQueryArguments t) = true) :
    [c,c].isPrefixOf (c::maskQueryArguments t') = true ∧ ∃ u u', t = c::u ∧ t' = c::u' ∧ Variant u u' := by
  have other : c ≠ quote := by
    rintro rfl
    exact absurd op (by decide)
  have next : (maskQueryArguments t).head? = some c := by
    rw [ isPrefixOf_iff_prefix,cons_prefix_cons] at here
    obtain ⟨r,same⟩ := here.2
    rw [← same]
    rfl
  have found : ∃ u, t = c::u := by
    cases variant with
    | nil => cases next
    | outside plain _ =>
      rw [maskOutside plain] at next
      cases next
      exact ⟨_,rfl⟩
    | quoted free _ _ =>
      rw [maskString free] at next
      cases next
      contradiction
    | unclosed free =>
      rw [maskUnclosed free] at next
      cases next
      contradiction
  obtain ⟨u,rfl⟩ := found
  obtain ⟨u',rfl,rest⟩ := variantTail variant other
  refine ⟨?_,u,u',rfl,rfl,rest⟩
  rw [maskOutside other, isPrefixOf_iff_prefix]
  exact ⟨maskQueryArguments u',rfl⟩

theorem firstTwice {c} (op : operatorChar c = true) : ∃ k, ∀ t, firstOperator (c::t) =
    if [c,c].isPrefixOf (c::t) then some (0,k) else (firstOperator t).map fun r => (r.1+1,r.2) := by
  rw [operatorChar,Bool.or_eq_true,beq_iff_eq,beq_iff_eq] at op
  rcases op with rfl | rfl
  · refine ⟨.or,fun t => ?_⟩
    rfl
  · refine ⟨.and,fun t => ?_⟩
    rfl

theorem firstBound {t r} (found : firstOperator t = some r) : r.1+2 ≤ t.length := by
  induction t generalizing r with
  | nil => cases found
  | cons c t ih =>
    have start : ∀ k : Text, k.length = 2 → k.isPrefixOf (c::t) = true → 2 ≤ (c::t).length := by
      intro k two here
      rw [← two]
      exact ( isPrefixOf_iff_prefix.mp here).length_le
    unfold firstOperator at found
    split at found
    · rename_i here
      cases found
      exact start _ rfl here
    split at found
    · rename_i here
      cases found
      exact start _ rfl here
    · obtain ⟨x,later,rfl⟩ := map_eq_some_iff.mp found
      have := ih later
      rw [length_cons]
      omega

section
variable {t t'} (variant : Variant t t')
include variant

theorem cutVariant : CutAlike t t' (nextOperator t) (nextOperator t') := by
  rw [nextOperatorFirst,nextOperatorFirst]
  induction variant with
  | nil => exact .whole
  | @outside c t t' other rest ih =>
    rw [maskOutside other,maskOutside other]
    have later : CutAlike ([c] ++ t) ([c] ++ t') ((firstOperator (maskQueryArguments t)).map fun r => (r.1+1,r.2))
        ((firstOperator (maskQueryArguments t')).map fun r => (r.1+1,r.2)) :=
      cutShift rfl rfl (fun variant => .outside other variant) ih
    cases op : operatorChar c with
    | false =>
      rw [firstSkip op,firstSkip op]
      exact later
    | true =>
      obtain ⟨k,twice⟩ := firstTwice op
      rw [twice,twice]
      by_cases here : [c,c].isPrefixOf (c::maskQueryArguments t) = true
      · obtain ⟨here',u,u',rfl,rfl,tail⟩ := operatorHere op rest here
        rw [if_pos here,if_pos here']
        exact .cut (by simp) (by simp) .nil tail
      · rw [if_neg here,if_neg fun yes => here (operatorHere op (variantSymm rest) yes).1]
        exact later
  | @quoted v v' t t' free free' _ ih =>
    have string : ∀ v t, quote::(v ++ quote::t) = (quote::(v ++ [quote])) ++ t := by simp
    have size : ∀ v, (quote::(v ++ [quote])).length = v.length+2 := by simp
    rw [maskString free,maskString free',firstString,firstString,string v t,string v' t']
    refine cutShift (size v) (size v') ?_ ih
    intro u u' variant
    rw [← string v u,← string v' u']
    exact .quoted free free' variant
  | @unclosed t free =>
    rw [maskUnclosed free,firstSkip rfl]
    cases found : firstOperator t with
    | none => exact .whole
    | some r =>
      have bound := firstBound found
      refine .cut (by rw [length_cons]; omega) (by rw [length_cons]; omega) ?_ ?_
      · exact .unclosed fun mem => free (mem_of_mem_take mem)
      · exact variantPlain fun mem => free (mem_of_mem_drop mem)

theorem partsVariant {n m} (fuel : t.length ≤ n) (fuel' : t'.length ≤ m) :
    List.Forall₂ (fun p q => Variant p.1 q.1 ∧ p.2 = q.2) (compoundParts n t).1 (compoundParts m t').1 ∧
      Variant (compoundParts n t).2 (compoundParts m t').2 := by
  have empty : ∀ m, compoundParts m [] = ([],[]) := by
    intro m
    cases m <;> rfl
  induction n generalizing m t t' with
  | zero =>
    cases length_eq_zero_iff.mp (le_zero.mp fuel)
    cases variant
    rw [empty,empty]
    exact ⟨.nil,.nil⟩
  | succ n ih =>
    cases m with
    | zero =>
      cases length_eq_zero_iff.mp (le_zero.mp fuel')
      cases variant
      exact ⟨.nil,.nil⟩
    | succ m =>
      unfold compoundParts
      have cut := cutVariant variant
      generalize nextOperator t = x at cut
      generalize nextOperator t' = y at cut
      cases cut with
      | whole => exact ⟨.nil,variant⟩
      | @cut i j k _ _ before after =>
        obtain ⟨parts,last⟩ := ih (m := m) after (by rw [length_drop]; omega) (by rw [length_drop]; omega)
        exact ⟨.cons ⟨before,rfl⟩ parts,last⟩

theorem quotedVariant : (quoted t).length = (quoted t').length := by
  have inside : ∀ (v w t : Text), quote ∉ v → quotedFrom (some w) (v ++ quote::t) = (w ++ v)::quotedFrom none t := by
    intro v
    induction v with
    | nil =>
      intro w t _
      rw [nil_append,quotedFrom,if_pos rfl,append_nil]
    | cons c v ih =>
      intro w t free
      rw [mem_cons,not_or] at free
      rw [cons_append,quotedFrom,if_neg fun same => free.1 same.symm,ih _ _ free.2,append_assoc]
      rfl
  unfold quoted
  induction variant with
  | nil => rfl
  | outside other _ ih =>
    rw [quotedFrom,quotedFrom,if_neg other,if_neg other]
    exact ih
  | quoted free free' _ ih =>
    rw [quotedFrom,quotedFrom,if_pos rfl,if_pos rfl,inside _ _ _ free,inside _ _ _ free',length_cons,length_cons,ih]
  | unclosed => rfl

theorem headVariant : t.takeWhile fun c => c != quote = t'.takeWhile fun c => c != quote := by
  induction variant with
  | nil => rfl
  | outside other _ ih => simp [other,ih]
  | quoted => simp
  | unclosed => rfl

theorem innerVariant :
    quote ∈ (t.dropWhile fun c => c != quote).tail ↔ quote ∈ (t'.dropWhile fun c => c != quote).tail := by
  induction variant with
  | nil => exact .rfl
  | outside other _ ih => simpa [other] using ih
  | quoted => simp
  | unclosed => exact .rfl

theorem firstToLastVariant : (firstToLast t).map fst = (firstToLast t').map fst := by
  have inner := innerVariant variant
  unfold firstToLast
  by_cases closed : quote ∈ (t.dropWhile fun c => c != quote).tail
  · rw [if_pos closed,if_pos (inner.mp closed)]
    exact congrArg some (headVariant variant)
  · rw [if_neg closed,if_neg fun yes => closed (inner.mpr yes)]

end

theorem strstrStart {p k c} (solid : k.head? = some c) (other : blankChar c = false) :
    strstr p k = some (p.takeWhile blankChar).length ↔ k <+: p.dropWhile blankChar := by
  have parts : p.takeWhile blankChar ++ p.dropWhile blankChar = p := takeWhile_append_dropWhile
  have body : p.drop (p.takeWhile blankChar).length = p.dropWhile blankChar := by
    conv => lhs; arg 2; rw [← parts]
    exact drop_left
  rw [strstrFirst,body]
  constructor
  · exact fun found => found.2.1
  intro start
  refine ⟨( takeWhile_prefix _).length_le,start,?_⟩
  rintro j before ⟨_,here⟩
  have blank : (p.drop j).head? = some ((p.takeWhile blankChar).get ⟨j,before⟩) := by
    have position : (p.takeWhile blankChar ++ p.dropWhile blankChar)[j]? = _ := getElem?_append_left before
    rw [parts] at position
    rw [head?_drop,position]
    exact getElem?_eq_getElem before
  have first : (p.drop j).head? = some c := by
    rw [← here]
    cases k with
    | nil => cases solid
    | cons d k => exact solid
  rw [first] at blank
  have yes := mem_takeWhile_imp (get_mem (p.takeWhile blankChar) ⟨j,before⟩)
  rw [← some.inj blank,other] at yes
  cases yes

/- An upper case keyword is overlooked when the lower case one occurs anywhere behind it. -/
def Hidden (lower upper p : Text) : Prop := upper <+: p.dropWhile blankChar ∧ lower <:+: p

instance {lower upper p} : Decidable (Hidden lower upper p) := inferInstanceAs (Decidable (_ ∧ _))

structure Clear (p : Text) : Prop where
  inList : ¬Hidden (lit "in") (lit "IN") p
  between : ¬Hidden (lit "between") (lit "BETWEEN") p

instance {p : Text} : Decidable (Clear p) :=
  decidable_of_iff (¬Hidden (lit "in") (lit "IN") p ∧ ¬Hidden (lit "between") (lit "BETWEEN") p)
  ⟨fun both => ⟨both.1,both.2⟩,fun clear => ⟨clear.inList,clear.between⟩⟩

theorem leadsClear {lower upper p c d} (solid : lower.head? = some c) (other : blankChar c = false)
    (solid' : upper.head? = some d) (other' : blankChar d = false) (clear : ¬Hidden lower upper p) :
    leads lower upper p = true ↔ lower <+: p.dropWhile blankChar ∨ upper <+: p.dropWhile blankChar := by
  have small := strstrStart (p := p) solid other
  have big := strstrStart (p := p) solid' other'
  have occurs : (strstr p lower).isSome = true ↔ lower <:+: p := strstrSome
  unfold leads
  dsimp only
  cases low : strstr p lower with
  | some i =>
    rw [low] at small occurs
    rw [some.injEq] at small
    have hidden : ¬upper <+: p.dropWhile blankChar := fun start => clear ⟨start,occurs.mp rfl⟩
    rw [or_iff_left hidden,← small]
    exact beq_iff_eq
  | none =>
    rw [low] at small
    have never : ¬lower <+: p.dropWhile blankChar := fun start => absurd (small.mpr start) (by simp)
    rw [or_iff_right never,← big]
    cases strstr p upper with
    | none => simp
    | some i =>
      rw [beq_iff_eq,some.injEq]
      rfl

theorem leadsVariant {lower upper p p' c d} (variant : Variant p p') (solid : lower.head? = some c)
    (other : blankChar c = false) (solid' : upper.head? = some d) (other' : blankChar d = false) (free : quote ∉ lower)
    (free' : quote ∉ upper) (clear : ¬Hidden lower upper p) (clear' : ¬Hidden lower upper p') :
    leads lower upper p = leads lower upper p' := by
  have body := (variantBody variant).2
  rw [Bool.eq_iff_iff,leadsClear solid other solid' other' clear,leadsClear solid other solid' other' clear',
    variantPrefixIff body free,variantPrefixIff body free']

structure SameKeyword (p p' : Text) : Prop where
  isIn : leads (lit "in") (lit "IN") p = leads (lit "in") (lit "IN") p'
  isBetween : leads (lit "between") (lit "BETWEEN") p = leads (lit "between") (lit "BETWEEN") p'

theorem clearKeyword {p p'} (variant : Variant p p') (clear : Clear p) (clear' : Clear p') : SameKeyword p p' where
  isIn := leadsVariant variant rfl rfl rfl rfl (by decide) (by decide) clear.inList clear'.inList
  isBetween := leadsVariant variant rfl rfl rfl rfl (by decide) (by decide) clear.between clear'.between

def NoParent (p : Text) : Prop := ∀ r, firstToLast p = some r → (strstr (' '::r.1) (lit "parent_of")).isSome = false

instance {p : Text} : Decidable (NoParent p) := decidableFound (firstToLast p)

theorem alikeVariant {s p p'} (variant : Variant p p') (keyword : SameKeyword p p') (noParent : NoParent p) :
    Alike s p p' where
  isIn := keyword.isIn
  isBetween := keyword.isBetween
  isNull := variantIff variant (by decide)
  isNotNull := variantIff variant (by decide)
  strings := quotedVariant variant
  head := firstToLastVariant variant
  paths := by
    intro _ v _ found _ parents
    rw [noParent _ found] at parents
    cases parents

theorem allStoredSame {size i j vs ws} (same : vs.length = ws.length) (left : AllStored size i vs)
    (right : AllStored size j ws) : SameStores size i vs j ws := by
  induction vs generalizing i j ws with
  | nil =>
    cases ws with
    | nil => trivial
    | cons w ws => cases same
  | cons v _ ih =>
    cases ws with
    | nil => cases same
    | cons w _ => exact ⟨left.1.trans right.1.symm,ih (succ.inj same) left.2 right.2⟩

theorem checksVariant {s x y p p'} (alike : Alike s p p') (fits : FitsPart x p) (fits' : FitsPart y p') :
    Checks s x y p p' where
  alike := alike
  listed := fun yes => allStoredSame alike.strings (fits.listed yes) (fits'.listed (alike.isIn ▸ yes))
  bounded := fun yes => allStoredSame alike.strings (fits.bounded yes) (fits'.bounded (alike.isBetween ▸ yes))
  plain := iff_of_false fits.plain fits'.plain

theorem checksPartsVariant {s x y ps qs}
    (variants : List.Forall₂ (fun p q => Variant p.1 q.1 ∧ p.2 = q.2) ps qs)
    (keywords : List.Forall₂ SameKeyword (ps.map fst) (qs.map fst)) (noParent : ∀ p ∈ ps.map fst, NoParent p)
    (fits : FitsParts x ps) (fits' : FitsParts y qs) : ChecksParts s x y ps qs := by
  induction variants generalizing x y with
  | nil => trivial
  | cons first _ ih =>
    cases keywords with
    | cons keyword keywords =>
      have alike := alikeVariant (s := s) first.1 keyword (noParent _ mem_cons_self)
      refine ⟨first.2,iff_of_false fits.1 fits'.1,checksVariant alike fits.2.1 fits'.2.1,?_⟩
      exact ih keywords (forall_mem_cons.mp noParent).2 fits.2.2 fits'.2.2

theorem compoundMentions {c} (yes : compoundConditionSpecified c = true) : mentionsOperator c = true := by
  exact (Bool.and_eq_true_iff.mp yes).1

theorem splitLast {α : Type} {R xs ys} {x y : α} (same : xs.length = ys.length)
    (all : List.Forall₂ R (xs ++ [x]) (ys ++ [y])) : List.Forall₂ R xs ys ∧ R x y := by
  induction xs generalizing ys with
  | nil =>
    cases ys with
    | nil =>
      cases all with
      | cons last _ => exact ⟨.nil,last⟩
    | cons z ys => cases same
  | cons w _ ih =>
    cases ys with
    | nil => cases same
    | cons z _ =>
      cases all with
      | cons first rest =>
        obtain ⟨early,last⟩ := ih (succ.inj same) rest
        exact ⟨.cons first early,last⟩

theorem checksConditionVariant {s x y} {c c'} (variant : Variant c c')
    (keywords : List.Forall₂ SameKeyword (partsOf c) (partsOf c')) (noParent : ∀ p ∈ partsOf c, NoParent p)
    (fits : FitsCondition x c) (fits' : FitsCondition y c') : ChecksCondition s x y c c' := by
  have same := compoundVariant variant fits.copy fits'.copy
  obtain ⟨early,late⟩ := partsVariant variant (le_refl _) (le_refl _)
  unfold partsOf at keywords noParent
  rw [← same] at keywords
  cases compound : compoundConditionSpecified c with
  | true =>
    have compound' := same ▸ compound
    rw [if_pos compound] at noParent
    rw [if_pos compound,if_pos compound] at keywords
    obtain ⟨keywords,keyword⟩ := splitLast (by rw [length_map,length_map,early.length_eq]) keywords
    have last := alikeVariant (s := s) late keyword (noParent _ (mem_append_right _ (mem_singleton_self _)))
    refine ⟨same,?_,?_,?_,?_⟩
    · exact fun yes => iff_of_true (fits.copy (compoundMentions yes)) (fits'.copy (compoundMentions compound'))
    · exact fun yes =>
        checksPartsVariant early keywords (fun p mem => noParent p (mem_append_left _ mem)) (fits.parts yes)
        (fits'.parts compound')
    · exact fun yes => checksVariant last (fits.last yes) (fits'.last compound')
    · exact fun no => absurd (compound.symm.trans no) (by decide)
  | false =>
    have compound' := same ▸ compound
    have single : ¬compoundConditionSpecified c = true := by rw [compound]; decide
    rw [if_neg single] at noParent
    rw [if_neg single,if_neg single] at keywords
    cases keywords with
    | cons keyword _ =>
      have whole := alikeVariant (s := s) variant keyword (noParent c (mem_singleton_self _))
      refine ⟨same,?_,?_,?_,?_⟩
      · exact fun yes => absurd yes single
      · exact fun yes => absurd yes single
      · exact fun yes => absurd yes single
      · exact fun _ => checksVariant whole (fits.single compound) (fits'.single compound')

def SameKeywords : List (Nat × Text) → List (Nat × Text) → Prop :=
  List.Forall₂ (fun c d =>
    List.Forall₂ SameKeyword (partsOf (effectiveCondition c.2)) (partsOf (effectiveCondition d.2)))

def Variants : List (Nat × Text) → List (Nat × Text) → Prop := List.Forall₂ (fun c d => c.1 = d.1 ∧ Variant c.2 d.2)

theorem checksConditionsVariant {s x y cs ds} (variants : Variants cs ds)
    (keywords : SameKeywords cs ds) (noParent : ∀ p ∈ partsOfAll cs, NoParent p) (fits : FitsConditions x cs)
    (fits' : FitsConditions y ds) : ChecksConditions s x y cs ds := by
  induction variants generalizing x y with
  | nil => trivial
  | cons first _ ih =>
    cases keywords with
    | cons keyword keywords =>
      refine ⟨first.1,castVariant first.2,?_,?_⟩
      · exact checksConditionVariant (effectiveVariant first.2) keyword
          (fun p mem => noParent p (mem_append_left _ mem))
          fits.1 fits'.1
      · exact ih keywords (fun p mem => noParent p (mem_append_right _ mem)) fits.2 fits'.2

theorem clearParts {c c'} (variant : Variant c c') (fits : CopyFits c) (fits' : CopyFits c')
    (clear : ∀ p ∈ partsOf c, Clear p) (clear' : ∀ p ∈ partsOf c', Clear p) :
    List.Forall₂ SameKeyword (partsOf c) (partsOf c') := by
  have same := compoundVariant variant fits fits'
  obtain ⟨early,late⟩ := partsVariant variant (le_refl _) (le_refl _)
  unfold partsOf at clear clear' ⊢
  rw [← same] at clear' ⊢
  by_cases compound : compoundConditionSpecified c = true
  · rw [if_pos compound] at clear clear'
    rw [if_pos compound,if_pos compound]
    revert clear clear'
    generalize (compoundParts c.length c).1 = ps at early ⊢
    generalize (compoundParts c'.length c').1 = qs at early ⊢
    intro clear clear'
    induction early with
    | nil => exact .cons (clearKeyword late (clear _ mem_cons_self) (clear' _ mem_cons_self)) .nil
    | cons first _ ih =>
      refine .cons (clearKeyword first.1 (clear _ mem_cons_self) (clear' _ mem_cons_self)) ?_
      exact ih (forall_mem_cons.mp clear).2 (forall_mem_cons.mp clear').2
  · rw [if_neg compound] at clear clear'
    rw [if_neg compound,if_neg compound]
    exact .cons (clearKeyword variant (clear _ mem_cons_self) (clear' _ mem_cons_self)) .nil

theorem clearKeywords {x y cs ds} (variants : Variants cs ds) (fits : FitsConditions x cs)
    (fits' : FitsConditions y ds) (clear : ∀ p ∈ partsOfAll cs, Clear p) (clear' : ∀ p ∈ partsOfAll ds, Clear p) :
    SameKeywords cs ds := by
  induction variants generalizing x y with
  | nil => exact .nil
  | cons first _ ih =>
    refine .cons ?_ (ih fits.2 fits'.2 (fun p mem => clear p (mem_append_right _ mem))
      fun p mem => clear' p (mem_append_right _ mem))
    exact clearParts (effectiveVariant first.2) fits.1.copy fits'.1.copy (fun p mem => clear p (mem_append_left _ mem))
      fun p mem => clear' p (mem_append_left _ mem)

structure SameOutside (inp inp' : GenQueryInp) : Prop where
  selects : inp.selects = inp'.selects
  options : inp.options = inp'.options
  rowOffset : inp.rowOffset = inp'.rowOffset
  conditions : Variants inp.conditions inp'.conditions

structure Admissible (inp : GenQueryInp) : Prop where
  fits : FitsConditions ⟨0,0,0⟩ inp.conditions
  noParent : ∀ p ∈ partsOfAll inp.conditions, NoParent p

inductive SameAnswer : Outcome (Text × State) → Outcome (Text × State) → Prop where
  | text {sql st st'} : SameAnswer (.done (sql,st)) (.done (sql,st'))
  | code {code b b'} : SameAnswer (.failed code b) (.failed code b')

theorem sameShapeOutside {inp inp'} (same : SameOutside inp inp') : SameShape inp inp' where
  selects := same.selects
  options := same.options
  rowOffset := same.rowOffset
  numbers := by
    have all := same.conditions
    revert all
    generalize inp.conditions = cs
    generalize inp'.conditions = ds
    intro all
    induction all with
    | nil => rfl
    | cons first _ ih => rw [map_cons,map_cons,first.1,ih]

theorem agreeAnswer {x y} (agree : Agree TwinSql x y) (returned : Returns (fun _ => True) x) :
    SameAnswer x y := by
  cases agree with
  | done related =>
    rename_i r _
    obtain ⟨_,_⟩ := r
    cases related.sql
    exact .text
  | failed => exact .code
  | undefined => cases returned

theorem contentsIgnored {s : Setup} {sess : Session} {b : Binds} {inp inp' : GenQueryInp} (same : SameOutside inp inp')
    (admissible : Admissible inp) (admissible' : Admissible inp')
    (keywords : SameKeywords inp.conditions inp'.conditions)
    (opened : ∀ p ∈ partsOfAll inp.conditions, Opened p) :
    SameAnswer (generateSQL s sess b inp) (generateSQL s sess b inp') := by
  have checks :=
    checksConditionsVariant (s := s) same.conditions keywords admissible.noParent admissible.fits admissible'.fits
  have agree : Agree TwinSql (generateSQL s sess b inp) (generateSQL s sess b inp') :=
    generateSQLAgree (sameShapeOutside same) rfl checks
  exact agreeAnswer agree (generateSQLReturns admissible.fits opened)

def mixedVariant : GenQueryInp where
  selects := [(403,1)]
  conditions := [(403,lit "like 'b||%' || = ''"),(419,lit "BETWEEN '01' ' && '"),(407,lit "IN ('IN (','x')")]
  options := 0
  rowOffset := 5
  nulFree := by decide

theorem mixedOutside : SameOutside mixedQuery mixedVariant := by
  have name : Variant (lit "like " ++ quote::(lit "a%" ++ quote::(lit " || = " ++ quote::(lit "b" ++ quote::[]))))
      (lit "like " ++ quote::(lit "b||%" ++ quote::(lit " || = " ++ quote::([] ++ quote::[])))) :=
    variantFront (by decide)
      (.quoted (by decide) (by decide) (variantFront (by decide) (.quoted (by decide) (by decide) .nil)))
  have bounds : Variant (lit "BETWEEN " ++ quote::(lit "1" ++ quote::(lit " " ++ quote::(lit "2" ++ quote::[]))))
      (lit "BETWEEN " ++ quote::(lit "01" ++ quote::(lit " " ++ quote::(lit " && " ++ quote::[])))) :=
    variantFront (by decide)
      (.quoted (by decide) (by decide) (variantFront (by decide) (.quoted (by decide) (by decide) .nil)))
  have list : Variant (lit "IN (" ++ quote::(lit "3" ++ quote::(lit "," ++ quote::(lit "4" ++ quote::lit ")"))))
      (lit "IN (" ++ quote::(lit "IN (" ++ quote::(lit "," ++ quote::(lit "x" ++ quote::lit ")")))) :=
    variantFront (by decide) (.quoted (by decide) (by decide) (variantFront (by decide) (.quoted (by decide) (by decide)
      (variantPlain (by decide)))))
  exact ⟨rfl,rfl,rfl,.cons ⟨rfl,name⟩ (.cons ⟨rfl,bounds⟩ (.cons ⟨rfl,list⟩ .nil))⟩

theorem mixedAdmissible : Admissible mixedQuery ∧ Admissible mixedVariant :=
  ⟨⟨by decide +kernel,by decide +kernel⟩,⟨by decide +kernel,by decide +kernel⟩⟩

theorem operandsIgnored : SameAnswer (generateSQL icatGeneralQuerySetup anonymousSession freshBinds mixedQuery)
    (generateSQL icatGeneralQuerySetup anonymousSession freshBinds mixedVariant) := by
  have keywords :=
    clearKeywords mixedOutside.conditions mixedAdmissible.1.fits mixedAdmissible.2.fits (by decide +kernel)
    (by decide +kernel)
  exact contentsIgnored mixedOutside mixedAdmissible.1 mixedAdmissible.2 keywords (by decide +kernel)

end Irods.GenQuery1Shape
