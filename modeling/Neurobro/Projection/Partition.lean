import Neurobro.Data.Paging
import Neurobro.Projection.Exactness
import Neurobro.Projection.Largest

/-! Reading a page fragment by fragment: whatever the budgets, the fragments are the page cut in
pieces, and no position leads into another page. -/
namespace Neurobro.Projection

open Telegram History Json Paging

/-- What one reading may take: bytes and rows. -/
structure Budget where
  maxBytes : Option Int
  maxRows : Option Int

def Budget.Valid (b : Budget) : Prop :=
  (∀ n ∈ b.maxBytes, 1024 ≤ n ∧ n ≤ (materialBytes : Int)) ∧ ∀ n ∈ b.maxRows, 1 ≤ n ∧ n ≤ 100

def Request.at (r : Request) (position : Option String) (b : Budget) : Request where
  intent := r.intent
  referenceKey := r.referenceKey
  storedPage := r.storedPage
  position := position
  maxBytes := b.maxBytes
  maxRows := b.maxRows

/-- One reading of the page. -/
def readFragment (h : Host) (r : Request) (position : Option String) (b : Budget) : Except Failure Fragment :=
  projectStandingHistorySource h (r.at position b)

section
variable {h : Host} {r : Request}

/-- Where a position stands: no position at the start, any other at a later row. -/
def Stands (h : Host) (r : Request) (rows : List SourceRow) (supplied : Option String) (start : Nat) : Prop :=
  supplied = none ∧ start = 0 ∨ supplied = some (position h r start) ∧ 1 ≤ start ∧ start < rows.length

/-- The fragment between two rows. -/
def Cuts (h : Host) (r : Request) (rows : List SourceRow) (start : Nat) (f : Fragment) (stop : Nat) : Prop :=
  f = fragment h r rows start stop ∧ start ≤ stop ∧ stop ≤ rows.length ∧ (rows ≠ [] → start < stop)

theorem position_read {start : Nat} (small : start < 100) : readToken "hpos_" [3] (position h r start) = some [start] :=
  readToken_write (mac_hex h _ _) (.cons ⟨by omega,Nat.lt_of_lt_of_le small (by decide)⟩ .nil)

theorem stands_position {start : Nat} (ok : Rows rows)
    (length : rows.length = r.storedPage.result.sources.length) (b : Budget) (stands : Stands h r rows supplied start) :
    supplied.all (fun text => (readToken "hpos_" [3] text).isSome) = true ∧ startOf h (r.at supplied b) = .ok start := by
  have few := ok.few
  rcases stands with ⟨rfl,rfl⟩ | ⟨rfl,first,inside⟩
  · exact ⟨rfl,rfl⟩
  · have read := position_read (h := h) (r := r) (show start < 100 by omega)
    refine ⟨by rw [Option.all_some,read]; rfl,?_⟩
    have same : position h (r.at (some (position h r start)) b) start = position h r start := rfl
    have page : (r.at (some (position h r start)) b).storedPage = r.storedPage := rfl
    have given : (r.at (some (position h r start)) b).position = some (position h r start) := rfl
    simp only [startOf,given,read,Option.bind_some,List.head?_cons,Option.getD_some,page,same]
    rw [if_neg (by simp only [ne_eq,not_true_eq_false,or_false]; omega)]

/-- A page that was admitted once is admitted with any position and budget of the right form. -/
theorem admission_at (admitted : admission h r = .ok ()) (valid : b.Valid)
    (formed : supplied.all (fun text => (readToken "hpos_" [3] text).isSome) = true) : admission h (r.at supplied b) = .ok () := by
  unfold admission at admitted ⊢
  obtain ⟨intent,admitted⟩ := guard_eq_ok.mp admitted
  have intent_ : ¬¬ValidIntent h (r.at supplied b).intent := intent
  have page : snapshotPage (r.at supplied b).intent (r.at supplied b).storedPage.result =
    snapshotPage r.intent r.storedPage.result := rfl
  rw [if_neg intent_,page]
  cases taken : snapshotPage r.intent r.storedPage.result with
  | error e => simp [taken] at admitted
  | ok t =>
    simp only [taken] at admitted ⊢
    obtain ⟨form,admitted⟩ := guard_eq_ok.mp admitted
    obtain ⟨bound,_⟩ := guard_eq_ok.mp admitted
    obtain ⟨low,high,hash,key,_⟩ := not_not.mp form
    have form_ : (r.at supplied b).WellFormed := ⟨low,high,hash,key,valid.1,valid.2,formed⟩
    have bound_ : (r.at supplied b).Bound := not_not.mp bound
    rw [if_neg (not_not.mpr form_),if_neg (not_not.mpr bound_)]

/-- What one reading does. -/
theorem fragment_steps (admitted : admission h r = .ok ()) (made : projected h r = some rows)
    (ok : Rows rows) (length : rows.length = r.storedPage.result.sources.length) :
    Steps (readFragment h r) Fragment.nextPosition (Stands h r rows) (Cuts h r rows) (fun start => rows.length - start)
      Budget.Valid Failure.limit := by
  have cases_ {supplied : Option String} {start : Nat} {b : Budget} (stands : Stands h r rows supplied start) (valid : b.Valid) :
      (readFragment h r supplied b = .error .limit) ∨ ∃ stop, readFragment h r supplied b = .ok (fragment h r rows start stop) ∧
        Candidate (r.at supplied b) rows start stop := by
    obtain ⟨formed,started⟩ := stands_position ok length b stands
    rcases project_cases (admission_at admitted valid formed) started made ok length with ⟨refused,_⟩ | ⟨stop,done,largest⟩
    · exact .inl refused
    · exact .inr ⟨stop,done,largest.1⟩
  constructor
  · intro supplied start b f stands valid read
    rcases cases_ stands valid with refused | ⟨stop,done,candidate⟩
    · rw [refused] at read
      cases read
    · rw [done] at read
      obtain rfl := Except.ok.inj read
      have next : (fragment h r rows start stop).nextPosition = if stop = rows.length then none else some (position h r stop) := rfl
      rcases candidate with ⟨rfl,rfl⟩ | ⟨some_,forward,upTo⟩
      · have zero : start = 0 := by
          rcases stands with ⟨_,zero⟩ | ⟨_,_,no⟩
          · exact zero
          · exact absurd no (by simp)
        subst zero
        exact ⟨0,⟨rfl,Nat.le_refl _,Nat.le_refl _,fun no => absurd rfl no⟩,.inl ⟨rfl,rfl⟩⟩
      · have within : stop ≤ rows.length := Nat.le_trans upTo endLimit_le
        refine ⟨stop,⟨rfl,Nat.le_of_lt forward,within,fun _ => forward⟩,?_⟩
        by_cases last : stop = rows.length
        · exact .inl ⟨by rw [next,if_pos last],by omega⟩
        · exact .inr ⟨position h r stop,by rw [next,if_neg last],.inr ⟨rfl,by omega,by omega⟩,by omega⟩
  · intro supplied start b e stands valid read
    rcases cases_ stands valid with refused | ⟨stop,done,_⟩
    · rw [refused] at read
      exact (Except.error.inj read).symm
    · rw [done] at read
      cases read

/-! What the fragments hold together. -/

theorem mark_mark (refs refs' : List String) (row : SourceRow) : (row.mark refs).mark refs' = row.mark refs' := by
  cases row <;> rfl

/-- The rows of a fragment, but for the marks of their replies. -/
def bareRows (f : Fragment) : List SourceRow := f.rows.map (SourceRow.mark [])

theorem bareRows_fragment (ok : Rows rows) (start stop : Nat) :
    bareRows (fragment h r rows start stop) = slice rows start stop := by
  have each : ∀ row ∈ slice rows start stop, (SourceRow.mark [] ∘ SourceRow.mark (includedRefs (slice rows start stop))) row = row := by
    intro row member
    rw [Function.comp_apply,mark_mark]
    exact slice_fresh start stop ok row member
  have shown_ : (fragment h r rows start stop).rows = markedRows (slice rows start stop) := rfl
  rw [bareRows,shown_,markedRows,List.map_map,List.map_congr_left each,List.map_id']

/-- The fragments of a page are its rows in order, none twice and none left out. -/
theorem chain_rows (ok : Rows rows) {start stop : Nat}
    (chain : Chain (Cuts h r rows) start fragments stop) :
    fragments.flatMap bareRows = slice rows start stop ∧ start ≤ stop := by
  refine chain_holds (U := fun start stop => start ≤ stop) (fun cut => ?_) (fun start => ?_) (fun first second => ?_) chain
  · obtain ⟨rfl,forward,_⟩ := cut
    exact ⟨bareRows_fragment ok _ _,forward⟩
  · exact ⟨by simp [slice,List.drop_take],Nat.le_refl _⟩
  · exact ⟨stretch_join rows first second,Nat.le_trans first second⟩

theorem chain_within {start stop : Nat} (inside : start ≤ rows.length)
    (chain : Chain (Cuts h r rows) start fragments stop) : stop ≤ rows.length := by
  induction chain with
  | nil => exact inside
  | cons cut _ ih => exact ih cut.2.2.1

/-! Where a position is accepted. -/

/-- A request with this position goes through to the rows. -/
def Accepts (h : Host) (r : Request) (supplied : String) (start : Nat) : Prop :=
  r.position = some supplied ∧ admission h r = .ok () ∧ startOf h r = .ok start

def positionJson (h : Host) (r : Request) (offset : Nat) : Json := .arr [.str "DecadansNeurobro/standing-history-source/v1",
  .str "position",scopeJson r.intent,.obj [("pageMaterialRef",.str (pageMaterialRef h r)),("offset",int offset)]]

def materialJson (r : Request) : Json := .arr [.str "DecadansNeurobro/standing-history-source/v1",.str "page-material",
  scopeJson r.intent,.obj [("intent",r.intent.canonical),("stored",r.storedPage.json)]]

/-- The code tells two values under two keys apart. -/
def Separates (h : Host) (key key' : String) (value value' : Json) : Prop :=
  h.mac key value = h.mac key' value' → key = key' ∧ canonicalText utf16Order value = canonicalText utf16Order value'

theorem scope_exact (i : Intent) : Exact (scopeJson i) := by
  cases is_ : i.source with
  | none => simp [scopeJson,is_,Exact,ExactItems]
  | some s =>
    have source := observedSource_exact s
    simpa [scopeJson,is_,Exact,ExactItems] using source

theorem admitted_valid (admitted : admission h r = .ok ()) : ValidIntent h r.intent ∧ r.WellFormed := by
  unfold admission at admitted
  obtain ⟨valid,admitted⟩ := guard_eq_ok.mp admitted
  cases taken : snapshotPage r.intent r.storedPage.result with
  | error e => simp [taken] at admitted
  | ok t =>
    simp only [taken] at admitted
    exact ⟨not_not.mp valid,not_not.mp (guard_eq_ok.mp admitted).1⟩

theorem material_exact (admitted : admission h r = .ok ()) : Exact (materialJson r) := by
  obtain ⟨valid,low,high,_⟩ := admitted_valid admitted
  have index : natural r.storedPage.index = true := natural_iff.mpr (by omega)
  have stored : Exact r.storedPage.json := by
    refine exact_obj ["index","hash","result"] (by decide) rfl ?_
    simp only [ExactFields]
    exact ⟨exact_int index,trivial,taskPage_exact (admission_page admitted),trivial⟩
  have both : Exact (.obj [("intent",r.intent.canonical),("stored",r.storedPage.json)]) := by
    refine exact_obj ["intent","stored"] (by decide) rfl ?_
    simp only [ExactFields]
    exact ⟨intent_exact valid,stored,trivial⟩
  exact ⟨trivial,trivial,scope_exact _,both,trivial⟩

theorem position_exact (small : offset < 100) : Exact (positionJson h r offset) := by
  have offset_ : natural (offset : Int) = true := natural_iff.mpr (by omega)
  have pair : Exact (.obj [("pageMaterialRef",.str (pageMaterialRef h r)),("offset",int offset)]) := by
    refine exact_obj ["pageMaterialRef","offset"] (by decide) rfl ?_
    simp only [ExactFields]
    exact ⟨trivial,exact_int offset_,trivial⟩
  exact ⟨trivial,trivial,scope_exact _,pair,trivial⟩

theorem accepts_start {start : Nat} (accepted : Accepts h r supplied start) :
    1 ≤ start ∧ start < r.storedPage.result.sources.length ∧ start < 100 ∧ supplied = position h r start := by
  obtain ⟨given,admitted,started⟩ := accepted
  have few := (admission_page admitted).few
  unfold startOf at started
  simp only [given] at started
  obtain ⟨fits,same⟩ := guard_eq_ok.mp started
  rw [Except.ok.injEq] at same
  rw [same] at fits
  simp only [not_or,Nat.not_lt,Nat.not_le,ne_eq,not_not] at fits
  exact ⟨fits.1,fits.2.1,by omega,fits.2.2.symm⟩

/-- Two requests that accept one position are of the same task, key and page, and it stands for
the same row in both. -/
theorem accepts_same {start start' : Nat} (first : Accepts h r supplied start)
    (second : Accepts h r' supplied start')
    (positions : Separates h r.referenceKey r'.referenceKey (positionJson h r start) (positionJson h r' start'))
    (pages : Separates h r.referenceKey r'.referenceKey (materialJson r) (materialJson r')) :
    r.intent = r'.intent ∧ r.referenceKey = r'.referenceKey ∧ r.storedPage = r'.storedPage ∧ start = start' := by
  obtain ⟨_,_,small,is_⟩ := accepts_start first
  obtain ⟨_,_,small',is_'⟩ := accepts_start second
  have read := position_read (h := h) (r := r) small
  rw [← is_,is_',position_read small',Option.some.injEq,List.cons.injEq] at read
  obtain rfl := read.1
  have codes : h.mac r.referenceKey (positionJson h r start') = h.mac r'.referenceKey (positionJson h r' start') :=
    writeToken_inj (is_.symm.trans is_')
  obtain ⟨keys,texts⟩ := positions codes
  have alike := alike_of_canonicalText (position_exact small) (position_exact small') texts
  simp only [positionJson,alike_cons] at alike
  have fields := alike_obj ["pageMaterialRef","offset"] (by decide) rfl rfl alike.2.2.2.1
  have names : h.mac r.referenceKey (materialJson r) = h.mac r'.referenceKey (materialJson r') := alike_str.mp fields.1
  have alike' := alike_of_canonicalText (material_exact first.2.1) (material_exact second.2.1) (pages names).2
  simp only [materialJson,alike_cons] at alike'
  have parts := alike_obj ["intent","stored"] (by decide) rfl rfl alike'.2.2.2.1
  exact ⟨intent_inj parts.1,keys,storedPage_inj parts.2.1,rfl⟩

end

/-- The fragment is what lies between two rows, and it takes a row if there is one. -/
structure Piece (rows : List SourceRow) (start : Nat) (f : Fragment) (stop : Nat) : Prop where
  from_ : f.fromRow = start
  to_ : f.toRow = stop
  total : f.totalRows = rows.length
  within : stop ≤ rows.length
  forward : rows ≠ [] → start < stop
  held : bareRows f = slice rows start stop

theorem cuts_piece (ok : Rows rows) {start stop : Nat} (cut : Cuts h r rows start f stop) : Piece rows start f stop:= by
  obtain ⟨rfl,_,within,forward⟩ := cut
  exact ⟨rfl,rfl,rfl,within,forward,bareRows_fragment ok _ _⟩

end Neurobro.Projection
