import Irods.GenQuery1Conditions

/-! The result pages of chl_gen_query_impl. A column of a page is one array, a row every len characters; a
value too long for len moves the rows so far to an array with a longer step. -/
namespace Irods.ResultPages
open CText StaticMemory List

def MAX_NUM_OF_SELECT_ITEMS : Nat := 30
def MINIMUM_COL_SIZE : Nat := 50
def CAT_NO_ROWS_FOUND : Int := -808000
abbrev Row := List Text

def strncpy (m : Memory) (offset : Nat) (src : Text) (n : Nat) : Memory :=
  write m offset ((src ++ replicate n NUL).take n)

-- The first rows of a column with step len, in a new array with step maxColSize.
def copyRows (m : Memory) (len maxColSize : Nat) : Nat → Memory
  | 0 => zeros
  | k+1 => strncpy (copyRows m len maxColSize k) (k*maxColSize) (fetch m len (k*len)) len

structure Page where
  rowCnt : Nat
  len : Nat
  value : Nat → Memory

def emptyPage : Page := ⟨0,0,fun _ => zeros⟩

def longest : Row → Nat
  | [] => 0
  | t::row => max t.length (longest row)

def colSize (row : Row) : Nat := max (longest row+1) MINIMUM_COL_SIZE

-- The total length is an int.
def overflows (numOfCols maxColSize maxRows : Nat) : Bool := decide (numOfCols*maxColSize*maxRows ≥ 2^31)

def storeRow (row : Row) (page : Page) : Page where
  rowCnt := page.rowCnt+1
  len := page.len
  value := fun j => strncpy (page.value j) (page.rowCnt*page.len) (row.getD j []) page.len

/- rowCnt already counts the new row when the rows are moved, so that one row too many is copied. -/
def addRow (numOfCols maxRows : Nat) (row : Row) (page : Page) : Option Page :=
  if page.rowCnt = 0 then
    if overflows numOfCols (colSize row) maxRows then none else some (storeRow row ⟨0,colSize row,fun _ => zeros⟩)
  else if colSize row > page.len then
    let maxColSize := colSize row+MINIMUM_COL_SIZE
    if overflows numOfCols maxColSize maxRows then none
    else some (storeRow row { page with
      len := maxColSize, value := fun j => copyRows (page.value j) page.len maxColSize (page.rowCnt+1) })
  else some (storeRow row page)

/- A fetch that finds no row frees the statement; otherwise it stays with the rows that are left. -/
def fillPage (numOfCols maxRows : Nat) : Nat → List Row → Page → Option (Page × Option (List Row))
  | 0,rows,page => some (page,some rows)
  | _+1,[],page => some (page,none)
  | n+1,row::rows,page => (addRow numOfCols maxRows row page).bind (fillPage numOfCols maxRows n rows)

/- The statement has room for the values of MAX_NUM_OF_SELECT_ITEMS columns; the pointers of further columns
are written behind it. -/
def chlGenQuery (numOfCols : Nat) (maxRows : ℕ+) (rows : List Row) : Option (Int × Page × Option (List Row)) :=
  if numOfCols > MAX_NUM_OF_SELECT_ITEMS then none
  else (fillPage numOfCols maxRows maxRows rows emptyPage).map fun r =>
    (if r.1.rowCnt = 0 then CAT_NO_ROWS_FOUND else 0,r)

-- A first call and its continuations, each with its maxRows, up to the one that frees the statement.
def continued (numOfCols : Nat) : List ℕ+ → List Row → Option (List (Int × Page))
  | [],_ => some []
  | maxRows::calls,rows => (chlGenQuery numOfCols maxRows rows).bind fun r =>
    match r.2.2 with
    | none => some [(r.1,r.2.1)]
    | some rest => (continued numOfCols calls rest).map ((r.1,r.2.1)::·)

-- The strings at value + i*len.
def Page.read (numOfCols : Nat) (page : Page) : List Row :=
  (range page.rowCnt).map fun i => (range numOfCols).map fun j => fetch (page.value j) page.len (i*page.len)

def slices : List ℕ+ → List Row → List (List Row)
  | [],_ => []
  | maxRows::calls,rows => rows.take maxRows::(if rows.length < maxRows then [] else slices calls (rows.drop maxRows))

def answered (slice : List Row) : Int := if slice.length = 0 then CAT_NO_ROWS_FOUND else 0

abbrev NulFree (rows : List Row) : Prop := ∀ row ∈ rows, ∀ t ∈ row, NUL ∉ t

structure ResultSet (numOfCols : Nat) where
  rows : List Row
  columns : 0 < numOfCols
  shape : ∀ row ∈ rows, row.length = numOfCols
  free : NulFree rows

-- The step of a page with these rows.
def grow (len : Nat) (row : Row) : Nat :=
  if len = 0 then colSize row else if colSize row > len then colSize row+MINIMUM_COL_SIZE else len

def stepOf (rows : List Row) : Nat := rows.foldl grow 0

def Fits (numOfCols maxRows : Nat) (rows : List Row) : Prop := numOfCols*stepOf rows*maxRows < 2^31

-- Every page fits in an int.
def AllFit (numOfCols : Nat) : List ℕ+ → List Row → Prop
  | [],_ => True
  | maxRows::calls,rows => Fits numOfCols maxRows (rows.take maxRows) ∧
      (rows.length < maxRows ∨ AllFit numOfCols calls (rows.drop maxRows))

theorem strncpyOutside {m offset src n i} (out : i < offset ∨ offset+n ≤ i) : strncpy m offset src n i = m i :=
  writeOutside (by simpa using out)

theorem strncpyHolds {src n} (m offset) (short : src.length < n) : Holds (strncpy m offset src n) offset src := by
  intro i inside
  rw [strncpy,writeInside _ (by simp; omega),getD_eq_getElem?_getD,getD_eq_getElem?_getD,
    getElem?_take_of_lt (by omega)]
  obtain before | ended := Nat.lt_or_eq_of_le inside
  · rw [getElem?_append_left before,getElem?_append_left before]
  · simp [ended,show 0 < n by omega]

/- The texts of a column stand at the multiples of the step. -/
def Laid (m : Memory) (len : Nat) (texts : List Text) : Prop :=
  ∀ i t, texts[i]? = some t → t.length < len ∧ Holds m (i*len) t

theorem laidKept {m len texts} (laid : Laid m len texts) (src n) :
    Laid (strncpy m (texts.length*len) src n) len texts := by
  intro i t found
  obtain ⟨short,held⟩ := laid i t found
  have before := Nat.mul_le_mul_right len (List.getElem?_eq_some_iff.mp found).1
  rw [Nat.succ_mul] at before
  exact ⟨short,holdsKept held fun k _ high => strncpyOutside (.inl (by omega))⟩

theorem laidAdded {m len texts n} (laid : Laid m len texts) {t : Text} (short : t.length < n) (narrow : n ≤ len) :
    Laid (strncpy m (texts.length*len) t n) len (texts ++ [t]) := by
  intro i u found
  obtain before | behind := Nat.lt_or_ge i texts.length
  · exact laidKept laid t n i u (by rwa [getElem?_append_left before] at found)
  · have last : i = texts.length ∧ t = u := by
      rw [getElem?_append_right behind,getElem?_singleton] at found
      split at found
      · exact ⟨by omega,Option.some.inj found⟩
      · contradiction
    rw [last.1,← last.2]
    exact ⟨by omega,strncpyHolds _ _ short⟩

theorem laidFetch {m len texts i t} (laid : Laid m len texts) (free : ∀ t ∈ texts, NUL ∉ t)
    (found : texts[i]? = some t) : fetch m len (i*len) = t :=
  fetchHolds (laid i t found).2 (free t (mem_of_getElem? found)) (laid i t found).1

theorem laidCopied {m len texts maxColSize} (laid : Laid m len texts) (free : ∀ t ∈ texts, NUL ∉ t)
    (wider : len ≤ maxColSize) (k) (inside : k ≤ texts.length) :
    Laid (copyRows m len maxColSize k) maxColSize (texts.take k) := by
  induction k with
  | zero => simp [Laid]
  | succ k ih =>
    have found := getElem?_eq_getElem inside
    have moved := laidAdded (ih (Nat.le_of_succ_le inside)) (laid k _ found).1 wider
    rw [length_take_of_le (Nat.le_of_succ_le inside),take_append_getElem] at moved
    rw [copyRows,laidFetch laid free found]
    exact moved

theorem laidMoved {m len texts maxColSize} (laid : Laid m len texts) (free : ∀ t ∈ texts, NUL ∉ t)
    (wider : len ≤ maxColSize) : Laid (copyRows m len maxColSize (texts.length+1)) maxColSize texts := by
  have copied := laidCopied laid free wider _ (Nat.le_refl _)
  rw [take_length] at copied
  exact laidKept copied _ _

/- A page shows the rows it was filled with. -/
structure Shows (page : Page) (rows : List Row) : Prop where
  count : page.rowCnt = rows.length
  step : page.len = stepOf rows
  laid : ∀ j, Laid (page.value j) page.len (rows.map (·.getD j []))

theorem emptyShows : Shows emptyPage [] := ⟨rfl,rfl,by simp [Laid]⟩

theorem fitsColumn (row : Row) (j) : (row.getD j []).length < colSize row := by
  have below : (row.getD j []).length ≤ longest row := by
    induction row generalizing j with
    | nil => exact Nat.le_refl 0
    | cons t row ih =>
      cases j with
      | zero => exact Nat.le_max_left _ _
      | succ j => exact Nat.le_trans (ih j) (Nat.le_max_right _ _)
  exact Nat.lt_of_lt_of_le (Nat.lt_succ_of_le below) (Nat.le_max_left _ _)

theorem growMore (len row) : len ≤ grow len row ∧ colSize row ≤ grow len row ∧ 0 < grow len row := by
  have positive : MINIMUM_COL_SIZE ≤ colSize row := Nat.le_max_right _ _
  unfold MINIMUM_COL_SIZE at positive
  unfold grow
  split_ifs <;> omega

theorem stepAdded (rows row) : stepOf (rows ++ [row]) = grow (stepOf rows) row := by
  simp [stepOf]

theorem stepZero (rows) : stepOf rows = 0 ↔ rows = [] := by
  induction rows using reverseRecOn with
  | nil => simp [stepOf]
  | append_singleton rows row =>
    rw [stepAdded]
    simpa using (growMore (stepOf rows) row).2.2.ne'

theorem fitsBefore {numOfCols maxRows rows} (more) (fits : Fits numOfCols maxRows (rows ++ more)) :
    Fits numOfCols maxRows rows := by
  induction more using reverseRecOn with
  | nil => simpa using fits
  | append_singleton more row ih =>
    refine ih ?_
    rw [← append_assoc,Fits,stepAdded] at fits
    have less := Nat.mul_le_mul_right maxRows (Nat.mul_le_mul_left numOfCols (growMore (stepOf (rows ++ more)) row).1)
    exact less.trans_lt fits

theorem stored {page : Page} {rows row} (count : page.rowCnt = rows.length) (step : page.len = stepOf (rows ++ [row]))
    (laid : ∀ j, Laid (page.value j) page.len (rows.map (·.getD j []))) :
    Shows (storeRow row page) (rows ++ [row]) where
  count := by simp [storeRow,count]
  step := step
  laid j := by
    have wide : colSize row ≤ page.len := by
      rw [step,stepAdded]
      exact (growMore ..).2.1
    have added := laidAdded (laid j) ((fitsColumn row j).trans_le wide) (Nat.le_refl _)
    rw [length_map,← count] at added
    simpa [storeRow] using added

theorem columnFree {rows} (free : NulFree rows) (j) : ∀ t ∈ rows.map (·.getD j []), NUL ∉ t := by
  intro t mem
  obtain ⟨row,found,rfl⟩ := mem_map.mp mem
  obtain inside | outside := Nat.lt_or_ge j row.length
  · rw [getD_eq_getElem _ _ inside]
    exact free row found _ (getElem_mem inside)
  · rw [getD_eq_default _ _ outside]
    exact not_mem_nil

theorem overflowsFits {numOfCols maxRows rows} :
    overflows numOfCols (stepOf rows) maxRows = false ↔ Fits numOfCols maxRows rows := by
  simp [overflows,Fits]

section Filling
variable {numOfCols maxRows : Nat}

/- The rows so far stand in an array that the new one fits in, unless that array is too large. -/
theorem addRowMoves {page rows} (shown : Shows page rows) (free : NulFree rows)
    (before : Fits numOfCols maxRows rows) (row) : ∃ moved : Page, moved.rowCnt = rows.length ∧
      moved.len = stepOf (rows ++ [row]) ∧ (∀ j, Laid (moved.value j) moved.len (rows.map (·.getD j []))) ∧
      addRow numOfCols maxRows row page =
        if overflows numOfCols (stepOf (rows ++ [row])) maxRows then none else some (storeRow row moved) := by
  rw [stepAdded,grow,← shown.step]
  by_cases first : page.rowCnt = 0
  · have none : rows = [] := eq_nil_of_length_eq_zero (shown.count ▸ first)
    have zero : page.len = 0 := shown.step.trans ((stepZero rows).mpr none)
    exact ⟨⟨0,colSize row,fun _ => zeros⟩,by simp [none],by simp [zero],by simp [none,Laid],by simp [addRow,first,zero]⟩
  have filled : page.len ≠ 0 := by
    rw [shown.step,Ne,stepZero]
    rintro rfl
    exact first shown.count
  rw [if_neg filled]
  by_cases longer : colSize row > page.len
  · have wider : page.len ≤ colSize row+MINIMUM_COL_SIZE := Nat.le_add_right_of_le (Nat.le_of_lt longer)
    refine ⟨{ page with
      len := colSize row+MINIMUM_COL_SIZE
      value := fun j => copyRows (page.value j) page.len (colSize row+MINIMUM_COL_SIZE) (page.rowCnt+1) },
      shown.count,(if_pos longer).symm,fun j => ?_,by simp [addRow,first,longer]⟩
    have kept := laidMoved (shown.laid j) (columnFree free j) wider
    rw [length_map,← shown.count] at kept
    exact kept
  · have small := overflowsFits.mpr before
    rw [← shown.step] at small
    exact ⟨page,shown.count,(if_neg longer).symm,shown.laid,by simp [addRow,first,longer,small]⟩

/- By induction on the rows that are left: the page shows those of shown and the first n of them. -/
theorem fillPageShows (n rows) {page shown} (filled : Shows page shown)
    (free : NulFree (shown ++ rows)) (before : Fits numOfCols maxRows shown) :
    (Fits numOfCols maxRows (shown ++ rows.take n) → ∃ last, Shows last (shown ++ rows.take n) ∧
      fillPage numOfCols maxRows n rows page = some (last,if rows.length < n then none else some (rows.drop n))) ∧
    (¬Fits numOfCols maxRows (shown ++ rows.take n) → fillPage numOfCols maxRows n rows page = none) := by
  induction rows generalizing n page shown with
  | nil =>
    rw [take_nil,append_nil]
    refine ⟨fun _ => ⟨page,filled,?_⟩,absurd before⟩
    cases n <;> simp [fillPage]
  | cons row rows ih =>
    cases n with
    | zero =>
      rw [take_zero,append_nil]
      exact ⟨fun _ => ⟨page,filled,rfl⟩,absurd before⟩
    | succ n =>
      obtain ⟨moved,count,step,laid,added⟩ :=
        addRowMoves filled (fun r mem => free r (mem_append_left _ mem)) before row
      rw [take_succ_cons,append_cons,fillPage,added]
      by_cases here : Fits numOfCols maxRows (shown ++ [row])
      · obtain ⟨ok,bad⟩ := ih n (stored count step laid) (append_cons .. ▸ free) here
        rw [if_neg (by simp [overflowsFits.mpr here]),Option.bind_some]
        refine ⟨fun fits => ?_,bad⟩
        obtain ⟨last,full,done⟩ := ok fits
        exact ⟨last,full,by simp [done]⟩
      · refine ⟨fun fits => absurd (fitsBefore _ fits) here,fun _ => ?_⟩
        rw [if_pos (by simpa using mt overflowsFits.mp here),Option.bind_none]

end Filling

theorem showsRead {numOfCols page rows} (shown : Shows page rows) (shape : ∀ row ∈ rows, row.length = numOfCols)
    (free : NulFree rows) : page.read numOfCols = rows := by
  refine ext_getElem (by simp [Page.read,shown.count]) fun i inside within => ?_
  have width := shape _ (getElem_mem within)
  refine ext_getElem (by simp [Page.read,width]) fun j low high => ?_
  have found : (rows.map (·.getD j []))[i]? = some rows[i][j] := by simp [within,high]
  simp [Page.read,laidFetch (shown.laid j) (columnFree free j) found]

section Continuing
variable {numOfCols : Nat} (few : numOfCols ≤ MAX_NUM_OF_SELECT_ITEMS) (set : ResultSet numOfCols)
include few

theorem pageRead (maxRows : ℕ+) :
    (Fits numOfCols maxRows (set.rows.take maxRows) → ∃ page, page.read numOfCols = set.rows.take maxRows ∧
      chlGenQuery numOfCols maxRows set.rows = some (answered (set.rows.take maxRows),page,
        if set.rows.length < maxRows then none else some (set.rows.drop maxRows))) ∧
    (¬Fits numOfCols maxRows (set.rows.take maxRows) → chlGenQuery numOfCols maxRows set.rows = none) := by
  have filled := @fillPageShows numOfCols maxRows maxRows set.rows _ _ emptyShows set.free (by simp [Fits,stepOf])
  rw [nil_append] at filled
  rw [chlGenQuery,if_neg (Nat.not_lt.mpr few)]
  refine ⟨fun fits => ?_,fun large => by rw [filled.2 large,Option.map_none]⟩
  obtain ⟨page,shown,ran⟩ := filled.1 fits
  refine ⟨page,showsRead shown ?_ ?_,by rw [ran,Option.map_some,shown.count,answered]⟩
  · exact fun row mem => set.shape row (mem_of_mem_take mem)
  · exact fun row mem => set.free row (mem_of_mem_take mem)

def ResultSet.drop (n : Nat) : ResultSet numOfCols where
  rows := set.rows.drop n
  columns := set.columns
  shape := fun row mem => set.shape row (mem_of_mem_drop mem)
  free := fun row mem => set.free row (mem_of_mem_drop mem)

theorem continuedReads {calls} (fits : AllFit numOfCols calls set.rows) :
    ∃ pages, continued numOfCols calls set.rows = some pages ∧
      pages.map (fun p => (p.1,p.2.read numOfCols)) = (slices calls set.rows).map fun slice =>
        (answered slice,slice) := by
  induction calls generalizing set with
  | nil => exact ⟨[],rfl,rfl⟩
  | cons maxRows calls ih =>
    obtain ⟨page,read,called⟩ := (pageRead few set maxRows).1 fits.1
    by_cases short : set.rows.length < maxRows
    · exact ⟨[(answered (set.rows.take maxRows),page)],by simp [continued,called,short],by simp [slices,short,read]⟩
    · obtain ⟨pages,went,reads⟩ := ih (set.drop maxRows) (fits.2.resolve_left short)
      simp only [ResultSet.drop] at went reads
      exact ⟨(answered (set.rows.take maxRows),page)::pages,by simp [continued,called,short,went],
        by simpa [slices,short,read] using reads⟩

theorem continuedFits {calls pages} (went : continued numOfCols calls set.rows = some pages) :
    AllFit numOfCols calls set.rows := by
  induction calls generalizing set pages with
  | nil => trivial
  | cons maxRows calls ih =>
    obtain ⟨ok,bad⟩ := pageRead few set maxRows
    have fits : Fits numOfCols maxRows (set.rows.take maxRows) := by
      by_contra large
      simp [continued,bad large] at went
    refine ⟨fits,or_iff_not_imp_left.mpr fun long => ?_⟩
    obtain ⟨page,_,called⟩ := ok fits
    simp only [continued,called,Option.bind_some,if_neg long,Option.map_eq_some_iff] at went
    obtain ⟨rest,later,_⟩ := went
    exact ih (set.drop maxRows) later

end Continuing

theorem slicesFlatten (calls : List ℕ+) (rows) :
    (slices calls rows).flatten = rows.take (calls.map PNat.val).sum := by
  induction calls generalizing rows with
  | nil => simp [slices]
  | cons maxRows calls ih =>
    rw [slices,flatten_cons,map_cons,sum_cons,take_add]
    split
    · next short => simp [drop_eq_nil_of_le (Nat.le_of_lt short)]
    · rw [ih]

theorem pagesExactly {numOfCols} (set : ResultSet numOfCols) (maxRows : ℕ+) (calls : List ℕ+) :
    (∃ pages, continued numOfCols (maxRows::calls) set.rows = some pages ∧
      pages.map (fun p => (p.1,p.2.read numOfCols)) =
        (slices (maxRows::calls) set.rows).map (fun slice => (answered slice,slice)) ∧
      pages.flatMap (fun p => p.2.read numOfCols) = set.rows.take ((maxRows::calls).map PNat.val).sum) ↔
    numOfCols ≤ MAX_NUM_OF_SELECT_ITEMS ∧ AllFit numOfCols (maxRows::calls) set.rows := by
  constructor
  · rintro ⟨pages,went,_⟩
    have few : numOfCols ≤ MAX_NUM_OF_SELECT_ITEMS := by
      by_contra many
      simp [continued,chlGenQuery,Nat.not_le.mp many] at went
    exact ⟨few,continuedFits few set went⟩
  · rintro ⟨few,fits⟩
    obtain ⟨pages,went,reads⟩ := continuedReads few set fits
    refine ⟨pages,went,reads,?_⟩
    have rows := congrArg (map Prod.snd) reads
    simp only [map_map,Function.comp_def,map_id'] at rows
    rw [flatMap_def,rows,slicesFlatten]

def wideRow : ResultSet 31 := ⟨[replicate 31 (lit "x")],by decide,by decide,by decide⟩

theorem columnsOverrun : AllFit 31 [1] wideRow.rows ∧ continued 31 [1] wideRow.rows = none :=
  ⟨⟨show 31*stepOf wideRow.rows*1 < 2^31 by decide,.inr trivial⟩,rfl⟩

end Irods.ResultPages
