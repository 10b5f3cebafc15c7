import Neurobro.Data.JsonText

/-! The tree of a JSON text as it is written, where an object keeps a key as often as it is
given, and the value that is made of it, where the last one counts. -/
namespace Neurobro.JsonText

open List

mutual
def writtenValue : Nat → List Char → Option (Json × List Char)
  | 0,_ => none
  | fuel + 1,text =>
    match skip text with
    | [] => none
    | c :: rest =>
      if c = '"' then (readChars fuel rest).map fun r => (.str (String.ofList r.1),r.2)
      else if c = '[' then
        if (skip rest).head? = some ']' then some (.arr [],(skip rest).tail)
        else (writtenItems fuel rest).map fun r => (.arr r.1,r.2)
      else if c = '\x7b' then
        if (skip rest).head? = some '\x7d' then some (.obj [],(skip rest).tail)
        else (writtenMembers fuel rest).map fun r => (.obj r.1,r.2)
      else if c = 'n' then readWord ['u','l','l'] .null rest
      else if c = 't' then readWord ['r','u','e'] (.bool true) rest
      else if c = 'f' then readWord ['a','l','s','e'] (.bool false) rest
      else (readNumber (c :: rest)).map fun r => (.num r.1,r.2)

def writtenItems : Nat → List Char → Option (List Json × List Char)
  | 0,_ => none
  | fuel + 1,text => do
    let (item,rest) ← writtenValue fuel text
    let (last,rest) ← closing ']' rest
    if last then some ([item],rest)
    else do
      let (items,rest) ← writtenItems fuel rest
      some (item :: items,rest)

def writtenMembers : Nat → List Char → Option (List (String × Json) × List Char)
  | 0,_ => none
  | fuel + 1,text => do
    let (key,rest) ← readKey fuel text
    let (value,rest) ← writtenValue fuel rest
    let (last,rest) ← closing '\x7d' rest
    if last then some ([(key,value)],rest)
    else do
      let (members,rest) ← writtenMembers fuel rest
      some ((key,value) :: members,rest)
end

/-- The tree of a JSON text, and nothing for another text. -/
def written (text : String) : Option Json := do
  let (tree,rest) ← writtenValue (2 * text.toList.length + 2) text.toList
  if skip rest = [] then some tree else none

mutual
/-- The value that a tree stands for. -/
def made : Json → Json
  | .arr items => .arr (madeItems items)
  | .obj members => .obj (create [] (madeMembers members))
  | .null => .null
  | .bool b => .bool b
  | .num x => .num x
  | .str s => .str s

def madeItems : List Json → List Json
  | [] => []
  | item :: rest => made item :: madeItems rest

def madeMembers : List (String × Json) → List (String × Json)
  | [] => []
  | (key,value) :: rest => (key,made value) :: madeMembers rest
end

mutual
/-- How many members the objects have, at every level. -/
def pairs : Json → Nat
  | .arr items => pairsItems items
  | .obj members => pairsMembers members
  | .null | .bool _ | .num _ | .str _ => 0

def pairsItems : List Json → Nat
  | [] => 0
  | item :: rest => pairs item + pairsItems rest

def pairsMembers : List (String × Json) → Nat
  | [] => 0
  | (_,value) :: rest => 1 + pairs value + pairsMembers rest
end

mutual
/-- No object has a key twice, at any level. -/
def Once : Json → Prop
  | .arr items => OnceItems items
  | .obj members => (members.map Prod.fst).Nodup ∧ OnceMembers members
  | .null | .bool _ | .num _ | .str _ => True

def OnceItems : List Json → Prop
  | [] => True
  | item :: rest => Once item ∧ OnceItems rest

def OnceMembers : List (String × Json) → Prop
  | [] => True
  | (_,value) :: rest => Once value ∧ OnceMembers rest
end

/-! ## The parse is the tree with later members in the place of earlier ones -/

def madeOf : Json × List Char → Json × List Char := fun r => (made r.1,r.2)

def itemsMadeOf : List Json × List Char → List Json × List Char := fun r => (madeItems r.1,r.2)

def membersMadeOf : List (String × Json) × List Char → List (String × Json) × List Char := fun r => (madeMembers r.1,r.2)

theorem readWord_made (word : List Char) {value : Json} (plain : made value = value) (text : List Char) :
    readWord word value text = (readWord word value text).map madeOf := by
  unfold readWord
  split
  · simp [madeOf,plain]
  · rfl

theorem read_made (fuel : Nat) :
    (∀ text, readValue fuel text = (writtenValue fuel text).map madeOf) ∧
      (∀ text, readItems fuel text = (writtenItems fuel text).map itemsMadeOf) ∧
      ∀ text, readMembers fuel text = (writtenMembers fuel text).map membersMadeOf := by
  induction fuel with
  | zero => exact ⟨fun _ => rfl,fun _ => rfl,fun _ => rfl⟩
  | succ fuel ih =>
    obtain ⟨values,items,members⟩ := ih
    refine ⟨fun text => ?_,fun text => ?_,fun text => ?_⟩
    · rw [readValue,writtenValue]
      cases skip text with
      | nil => rfl
      | cons c rest =>
        simp only [items,members]
        split
        · simp [Function.comp_def,madeOf,made]
        · split
          · split
            · simp [madeOf,made,madeItems]
            · simp [Function.comp_def,madeOf,made,itemsMadeOf]
          · split
            · split
              · simp [madeOf,made,madeMembers,create]
              · simp [Function.comp_def,madeOf,made,membersMadeOf]
            · split
              · exact readWord_made _ rfl _
              · split
                · exact readWord_made _ rfl _
                · split
                  · exact readWord_made _ rfl _
                  · simp [Function.comp_def,madeOf,made]
    · rw [readItems,writtenItems]
      simp only [values,items]
      cases writtenValue fuel text with
      | none => rfl
      | some first =>
        cases closed : closing ']' first.2 with
        | none => simp [madeOf,closed]
        | some after =>
          obtain ⟨last,rest⟩ := after
          cases last with
          | true => simp [madeOf,closed,itemsMadeOf,madeItems]
          | false =>
            cases others : writtenItems fuel rest <;>
              simp [madeOf,closed,others,itemsMadeOf,madeItems]
    · rw [readMembers,writtenMembers]
      simp only [values,members]
      cases key : readKey fuel text with
      | none => rfl
      | some k =>
        cases value : writtenValue fuel k.2 with
        | none => simp [value]
        | some first =>
          cases closed : closing '\x7d' first.2 with
          | none => simp [value,madeOf,closed]
          | some after =>
            obtain ⟨last,rest⟩ := after
            cases last with
            | true => simp [value,madeOf,closed,membersMadeOf,madeMembers]
            | false =>
              cases others : writtenMembers fuel rest <;>
                simp [value,madeOf,closed,others,membersMadeOf,madeMembers]

theorem parse_written (text : String) : parse text = (written text).map made := by
  unfold parse written
  rw [(read_made _).1]
  cases writtenValue (2 * text.toList.length + 2) text.toList with
  | none => rfl
  | some r =>
    by_cases ended : skip r.2 = [] <;> simp [madeOf,ended]

/-! ## What the later members cost -/

theorem madeMembers_keys (members : List (String × Json)) : (madeMembers members).map Prod.fst = members.map Prod.fst := by
  induction members with
  | nil => rfl
  | cons m rest ih => simp [madeMembers,ih]

@[simp] theorem pairsMembers_append (first rest : List (String × Json)) :
    pairsMembers (first ++ rest) = pairsMembers first + pairsMembers rest := by
  induction first with
  | nil => simp [pairsMembers]
  | cons m first ih =>
    simp only [cons_append,pairsMembers,ih]
    omega

theorem perm_pairs (perm : a.Perm b) : pairsMembers a = pairsMembers b := by
  induction perm with
  | nil => rfl
  | cons m _ ih => rw [pairsMembers,pairsMembers,ih]
  | swap m n rest =>
    simp only [pairsMembers]
    omega
  | trans _ _ first second => exact first.trans second

/-- A later value in the place of an earlier one. -/
def replaced (key : String) (value : Json) (members : List (String × Json)) : List (String × Json) :=
  members.map fun m => if m.1 = key then (key,value) else m

theorem replaced_keys (key : String) (value : Json) (members : List (String × Json)) :
    (replaced key value members).map Prod.fst = members.map Prod.fst := by
  induction members with
  | nil => rfl
  | cons m rest ih =>
    by_cases same : m.1 = key
    · simpa [replaced,same] using ih
    · simpa [replaced,same] using ih

theorem replaced_absent {key : String} {members : List (String × Json)} (new : key ∉ members.map Prod.fst) (value : Json) :
    replaced key value members = members := by
  induction members with
  | nil => rfl
  | cons m rest ih =>
    rw [map_cons,mem_cons,not_or] at new
    have other : m.1 ≠ key := fun same => new.1 same.symm
    simpa [replaced,other] using ih new.2

theorem pairsMembers_replaced {members : List (String × Json)} (once : (members.map Prod.fst).Nodup) (key : String) (value : Json) :
    pairsMembers (replaced key value members) ≤ pairsMembers members + pairs value := by
  induction members with
  | nil => simp [replaced,pairsMembers]
  | cons m rest ih =>
    rw [map_cons,nodup_cons] at once
    by_cases same : m.1 = key
    · have rest_ : replaced key value rest = rest := replaced_absent (same ▸ once.1) value
      have step : replaced key value (m :: rest) = (key,value) :: replaced key value rest := by simp [replaced,same]
      rw [step,rest_,pairsMembers,pairsMembers]
      omega
    · have step : replaced key value (m :: rest) = m :: replaced key value rest := by simp [replaced,same]
      have := ih once.2
      rw [step,pairsMembers,pairsMembers]
      omega

/-- Every member that is overwritten is a pair less. -/
theorem create_pairs (kept members : List (String × Json)) (once : (kept.map Prod.fst).Nodup) :
    pairsMembers (create kept members) ≤ pairsMembers kept + pairsMembers members ∧
      (pairsMembers (create kept members) = pairsMembers kept + pairsMembers members →
        ((kept ++ members).map Prod.fst).Nodup) := by
  induction members generalizing kept with
  | nil => simpa [create,pairsMembers] using once
  | cons m rest ih =>
    obtain ⟨key,value⟩ := m
    by_cases twice : key ∈ kept.map Prod.fst
    · have step : create kept ((key,value) :: rest) = create (replaced key value kept) rest := by
        rw [create,if_pos twice,replaced]
      have next := (ih (replaced key value kept) ((replaced_keys key value kept).symm ▸ once)).1
      have less := pairsMembers_replaced once key value
      rw [step,pairsMembers]
      exact ⟨by omega,fun same => absurd same (by omega)⟩
    · have step : create kept ((key,value) :: rest) = create (kept ++ [(key,value)]) rest := by
        rw [create,if_neg twice]
      have distinct : ((kept ++ [(key,value)]).map Prod.fst).Nodup := by
        rw [map_append,nodup_append]
        refine ⟨once,by simp,?_⟩
        intro a there b is_ same
        rw [map_cons,map_nil,mem_singleton] at is_
        subst same is_
        exact twice there
      have next := ih (kept ++ [(key,value)]) distinct
      simp only [pairsMembers_append,pairsMembers,Nat.add_zero] at next
      rw [step,pairsMembers]
      refine ⟨by omega,fun same => ?_⟩
      simpa using next.2 (by omega)

mutual
theorem made_pairs : ∀ tree, pairs (made tree) ≤ pairs tree ∧ (pairs (made tree) = pairs tree → Once tree)
  | .null | .bool _ | .num _ | .str _ => ⟨Nat.le_refl _,fun _ => trivial⟩
  | .arr items => madeItems_pairs items
  | .obj members => by
    have inner := madeMembers_pairs members
    have here := create_pairs [] (madeMembers members) nodup_nil
    simp only [pairsMembers,Nat.zero_add,nil_append,madeMembers_keys] at here
    refine ⟨Nat.le_trans here.1 inner.1,fun same => ?_⟩
    rw [made,pairs,pairs] at same
    exact ⟨here.2 (by omega),inner.2 (by omega)⟩

theorem madeItems_pairs : ∀ items, pairsItems (madeItems items) ≤ pairsItems items ∧
    (pairsItems (madeItems items) = pairsItems items → OnceItems items)
  | [] => ⟨Nat.le_refl _,fun _ => trivial⟩
  | item :: rest => by
    have first := made_pairs item
    have others := madeItems_pairs rest
    rw [madeItems,pairsItems,pairsItems]
    exact ⟨by omega,fun same => ⟨first.2 (by omega),others.2 (by omega)⟩⟩

theorem madeMembers_pairs : ∀ members, pairsMembers (madeMembers members) ≤ pairsMembers members ∧
    (pairsMembers (madeMembers members) = pairsMembers members → OnceMembers members)
  | [] => ⟨Nat.le_refl _,fun _ => trivial⟩
  | (key,value) :: rest => by
    have first := made_pairs value
    have others := madeMembers_pairs rest
    rw [madeMembers,pairsMembers,pairsMembers]
    exact ⟨by omega,fun same => ⟨first.2 (by omega),others.2 (by omega)⟩⟩
end

mutual
/-- Where no key is given twice the value is the tree itself. -/
theorem made_once : ∀ tree, Once tree → made tree = tree
  | .null,_ | .bool _,_ | .num _,_ | .str _,_ => rfl
  | .arr items,once => congrArg Json.arr (madeItems_once items once)
  | .obj members,once => by
    rw [made,madeMembers_once members once.2,create_distinct [] members (by simpa using once.1),nil_append]

theorem madeItems_once : ∀ items, OnceItems items → madeItems items = items
  | [],_ => rfl
  | item :: rest,once => by rw [madeItems,made_once item once.1,madeItems_once rest once.2]

theorem madeMembers_once : ∀ members, OnceMembers members → madeMembers members = members
  | [],_ => rfl
  | (key,value) :: rest,once => by rw [madeMembers,made_once value once.1,madeMembers_once rest once.2]
end

/-- A tree has as many pairs as its value exactly when no key is given twice. -/
theorem once_iff (tree : Json) : Once tree ↔ pairs (made tree) = pairs tree :=
  ⟨fun once => by rw [made_once tree once],(made_pairs tree).2⟩

end Neurobro.JsonText
