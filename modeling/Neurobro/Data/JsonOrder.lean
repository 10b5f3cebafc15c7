import Neurobro.Data.JsonText
import Neurobro.Data.JsonSize

/-! Canonical texts: keys in one order at every level, and what two writers with
different key orders have in common. -/
namespace Neurobro

open List

/-! ## Orders of keys -/

theorem unitsLe_either (a b : List Nat) : unitsLe a b = true ∨ unitsLe b a = true := by
  induction a generalizing b with
  | nil => simp [unitsLe]
  | cons x xs ih =>
    cases b with
    | nil => simp [unitsLe]
    | cons y ys =>
      by_cases same : x = y
      · simpa [unitsLe,same] using ih ys
      · have other : y ≠ x := Ne.symm same
        simp only [unitsLe,same,other,if_false,decide_eq_true_eq]
        omega

theorem unitsLe_through (ab : unitsLe a b = true) (bc : unitsLe b c = true) : unitsLe a c = true := by
  induction a generalizing b c with
  | nil => simp [unitsLe]
  | cons x xs ih =>
    cases b with
    | nil => simp [unitsLe] at ab
    | cons y ys =>
      cases c with
      | nil => simp [unitsLe] at bc
      | cons z zs =>
        simp only [unitsLe] at ab bc ⊢
        by_cases xy : x = y
        · subst xy
          by_cases xz : x = z
          · simp only [xz,if_true] at ab bc ⊢
            exact ih ab bc
          · simpa [xz] using bc
        · simp only [xy,if_false,decide_eq_true_eq] at ab
          by_cases yz : y = z
          · subst yz
            simpa [xy] using ab
          · simp only [yz,if_false,decide_eq_true_eq] at bc
            have xz : x ≠ z := by omega
            simp only [xz,if_false,decide_eq_true_eq]
            omega

theorem unitsLe_antisymm (ab : unitsLe a b = true) (ba : unitsLe b a = true) : a = b := by
  induction a generalizing b with
  | nil =>
    cases b with
    | nil => rfl
    | cons y ys => simp [unitsLe] at ba
  | cons x xs ih =>
    cases b with
    | nil => simp [unitsLe] at ab
    | cons y ys =>
      by_cases same : x = y
      · subst same
        simp only [unitsLe,if_true] at ab ba
        rw [ih ab ba]
      · have other : y ≠ x := Ne.symm same
        simp only [unitsLe,same,other,if_false,decide_eq_true_eq] at ab ba
        omega

theorem utf16_cases (c : Char) : (utf16 c = [c.toNat] ∧ c.toNat < 0x10000 ∧ (c.toNat < 0xD800 ∨ 0xDFFF < c.toNat)) ∨
    (utf16 c = [0xD800 + (c.toNat - 0x10000) / 0x400,0xDC00 + (c.toNat - 0x10000) % 0x400] ∧
      0x10000 ≤ c.toNat ∧ c.toNat < 0x110000) := by
  have valid := c.valid
  by_cases small : c.toNat < 0x10000
  · refine .inl ⟨by simp [utf16,small],small,?_⟩
    rcases valid with low | ⟨high,_⟩
    · exact .inl low
    · exact .inr high
  · refine .inr ⟨by simp [utf16,small],by omega,?_⟩
    rcases valid with low | ⟨_,high⟩
    · have : c.toNat < 0xD800 := low
      omega
    · exact high

theorem utf16_injective (same : utf16 a ++ as = utf16 b ++ bs) : a = b ∧ as = bs := by
  have char (eq : a.toNat = b.toNat) : a = b := Char.toNat_inj.mp eq
  rcases utf16_cases a with ⟨ua,_,_⟩ | ⟨ua,_,_⟩ <;> rcases utf16_cases b with ⟨ub,_,_⟩ | ⟨ub,_,_⟩
  · rw [ua,ub] at same
    simp only [cons_append,nil_append,List.cons.injEq] at same
    exact ⟨char same.1,same.2⟩
  · rw [ua,ub] at same
    simp only [cons_append,nil_append,List.cons.injEq] at same
    omega
  · rw [ua,ub] at same
    simp only [cons_append,nil_append,List.cons.injEq] at same
    omega
  · rw [ua,ub] at same
    simp only [cons_append,nil_append,List.cons.injEq] at same
    exact ⟨char (by omega),same.2.2⟩

theorem utf16Units_injective (same : utf16Units a = utf16Units b) : a = b := by
  have lists : ∀ as bs : List Char, as.flatMap utf16 = bs.flatMap utf16 → as = bs := by
    intro as
    induction as with
    | nil =>
      intro bs none_
      cases bs with
      | nil => rfl
      | cons b bs => rcases utf16_cases b with ⟨ub,_⟩ | ⟨ub,_⟩ <;> simp [ub] at none_
    | cons a as ih =>
      intro bs eq
      cases bs with
      | nil => rcases utf16_cases a with ⟨ua,_⟩ | ⟨ua,_⟩ <;> simp [ua] at eq
      | cons b bs =>
        simp only [flatMap_cons] at eq
        obtain ⟨rfl,rest⟩ := utf16_injective eq
        rw [ih bs rest]
  exact String.toList_inj.mp (lists _ _ same)

/-- A total order on keys that tells every two of them apart. -/
structure KeyOrder where
  le : String → String → Bool
  either : ∀ a b, le a b = true ∨ le b a = true
  through : ∀ a b c, le a b = true → le b c = true → le a c = true
  antisymm : ∀ a b, le a b = true → le b a = true → a = b

/-- The default sort of strings where they are sequences of UTF-16 units. -/
def utf16Order : KeyOrder where
  le a b := unitsLe (utf16Units a) (utf16Units b)
  either _ _ := unitsLe_either _ _
  through _ _ _ := unitsLe_through
  antisymm _ _ ab ba := utf16Units_injective (unitsLe_antisymm ab ba)

def scalars (s : String) : List Nat := s.toList.map Char.toNat

theorem scalars_injective (same : scalars a = scalars b) : a = b :=
  String.toList_inj.mp ((map_injective_iff.mpr fun _ _ => Char.toNat_inj.mp) same)

/-- The order of scalar values, which is that of the UTF-8 bytes. -/
def scalarOrder : KeyOrder where
  le a b := unitsLe (scalars a) (scalars b)
  either _ _ := unitsLe_either _ _
  through _ _ _ := unitsLe_through
  antisymm _ _ ab ba := scalars_injective (unitsLe_antisymm ab ba)

/-- No character of the key needs a pair of units. -/
def flatKey (s : String) : Bool := s.toList.all fun c => decide (c.toNat < 0x10000)

theorem utf16Units_flat (flat : flatKey s = true) : utf16Units s = scalars s := by
  have small : ∀ c ∈ s.toList, c.toNat < 0x10000 := by simpa [flatKey] using flat
  rw [utf16Units,scalars]
  generalize s.toList = cs at small
  induction cs with
  | nil => rfl
  | cons c cs ih =>
    simp only [forall_mem_cons] at small
    simp [utf16,small.1,ih small.2]

namespace Json
open JsonText

section order
variable (o : KeyOrder)

def keyLe (a b : String × Json) : Prop := o.le a.1 b.1 = true

instance : DecidableRel (keyLe o) := fun a b => inferInstanceAs (Decidable (o.le a.1 b.1 = true))
instance : Std.Total (keyLe o) := ⟨fun _ _ => o.either _ _⟩
instance : IsTrans (String × Json) (keyLe o) := ⟨fun _ _ _ => o.through _ _ _⟩

mutual
/-- Keys in order at every level. -/
def arrange : Json → Json
  | .arr items => .arr (arrangeItems items)
  | .obj fields => .obj ((arrangeFields fields).insertionSort (keyLe o))
  | value => value

def arrangeItems : List Json → List Json
  | [] => []
  | item :: rest => arrange item :: arrangeItems rest

def arrangeFields : List (String × Json) → List (String × Json)
  | [] => []
  | (key,value) :: rest => (key,arrange value) :: arrangeFields rest
end

end order

variable {o : KeyOrder}

theorem arrangeFields_map (fields : List (String × Json)) :
    arrangeFields o fields = fields.map fun f => (f.1,arrange o f.2) := by
  induction fields with
  | nil => rfl
  | cons f rest ih => simp [arrangeFields,ih]

theorem arrange_perm (fields : List (String × Json)) :
    ((arrangeFields o fields).insertionSort (keyLe o)).Perm (fields.map fun f => (f.1,arrange o f.2)) := by
  rw [← arrangeFields_map]
  exact perm_insertionSort _ _

mutual
/-- Every key of the value passes a test. -/
def keysAll (p : String → Bool) : Json → Bool
  | .arr items => keysAllItems p items
  | .obj fields => keysAllFields p fields
  | _ => true

def keysAllItems (p : String → Bool) : List Json → Bool
  | [] => true
  | item :: rest => keysAll p item && keysAllItems p rest

def keysAllFields (p : String → Bool) : List (String × Json) → Bool
  | [] => true
  | (key,value) :: rest => p key && keysAll p value && keysAllFields p rest
end

theorem keysAllFields_keys {fields : List (String × Json)} (all : keysAllFields p fields = true) :
    ∀ f ∈ fields, p f.1 = true := by
  induction fields with
  | nil => simp
  | cons f rest ih =>
    simp only [keysAllFields,Bool.and_eq_true] at all
    simp only [forall_mem_cons]
    exact ⟨all.1.1,ih all.2⟩

theorem insertionSort_congr {a : List (String × Json)} (same : ∀ f ∈ a, ∀ g ∈ a, o.le f.1 g.1 = o'.le f.1 g.1) :
    a.insertionSort (keyLe o) = a.insertionSort (keyLe o') := by
  have insert (f : String × Json) (b : List (String × Json)) (same : ∀ g ∈ b, o.le f.1 g.1 = o'.le f.1 g.1) :
      b.orderedInsert (keyLe o) f = b.orderedInsert (keyLe o') f := by
    induction b with
    | nil => rfl
    | cons g b ih =>
      simp only [forall_mem_cons] at same
      by_cases before : o'.le f.1 g.1 = true
      · simp [List.orderedInsert,keyLe,same.1,before]
      · simp [List.orderedInsert,keyLe,same.1,before,ih same.2]
  induction a with
  | nil => rfl
  | cons f rest ih =>
    have inner := ih fun g inG h inH => same g (mem_cons_of_mem _ inG) h (mem_cons_of_mem _ inH)
    rw [insertionSort_cons,insertionSort_cons,inner]
    refine insert f _ fun g inG => same f mem_cons_self g (mem_cons_of_mem _ ?_)
    exact (perm_insertionSort _ _).mem_iff.mp inG

theorem le_flat (flatA : flatKey a = true) (flatB : flatKey b = true) : utf16Order.le a b = scalarOrder.le a b:= by
  simp only [utf16Order,scalarOrder,utf16Units_flat flatA,utf16Units_flat flatB]

mutual
/-- Both orders arrange a value alike whose keys need no pairs of units. -/
theorem arrange_flat : ∀ value, keysAll flatKey value = true → arrange utf16Order value = arrange scalarOrder value
  | .null,_ => rfl
  | .bool _,_ => rfl
  | .num _,_ => rfl
  | .str _,_ => rfl
  | .arr items,flat => by rw [arrange,arrange,arrangeItems_flat items flat]
  | .obj fields,flat => by
    rw [arrange,arrange,arrangeFields_flat fields flat]
    refine congrArg Json.obj (insertionSort_congr fun f inF g inG => le_flat ?_ ?_)
    · rw [arrangeFields_map] at inF
      obtain ⟨f',in_,rfl⟩ := mem_map.mp inF
      exact keysAllFields_keys flat f' in_
    · rw [arrangeFields_map] at inG
      obtain ⟨g',in_,rfl⟩ := mem_map.mp inG
      exact keysAllFields_keys flat g' in_

theorem arrangeItems_flat : ∀ items, keysAllItems flatKey items = true →
    arrangeItems utf16Order items = arrangeItems scalarOrder items
  | [],_ => rfl
  | item :: rest,flat => by
    simp only [keysAllItems,Bool.and_eq_true] at flat
    rw [arrangeItems,arrangeItems,arrange_flat item flat.1,arrangeItems_flat rest flat.2]

theorem arrangeFields_flat : ∀ fields, keysAllFields flatKey fields = true →
    arrangeFields utf16Order fields = arrangeFields scalarOrder fields
  | [],_ => rfl
  | (key,value) :: rest,flat => by
    simp only [keysAllFields,Bool.and_eq_true] at flat
    rw [arrangeFields,arrangeFields,arrange_flat value flat.1.2,arrangeFields_flat rest flat.2]
end

/-! ## Texts of whole numbers -/

/-- A safe integer, and no negative zero. -/
def wholeNumber : JsNumber → Bool
  | .finite q => safe (.finite q)
  | _ => false

mutual
/-- Numbers are safe integers with one zero, and no object has a key twice. -/
def Exact : Json → Prop
  | .num n => wholeNumber n = true
  | .arr items => ExactItems items
  | .obj fields => (fields.map Prod.fst).Nodup ∧ ExactFields fields
  | _ => True

def ExactItems : List Json → Prop
  | [] => True
  | item :: rest => Exact item ∧ ExactItems rest

def ExactFields : List (String × Json) → Prop
  | [] => True
  | (_,value) :: rest => Exact value ∧ ExactFields rest
end

theorem exactItems_all (items : List Json) : ExactItems items ↔ ∀ item ∈ items, Exact item := by
  induction items with
  | nil => simp [ExactItems]
  | cons item rest ih => simp [ExactItems,ih]

theorem exactFields_all (fields : List (String × Json)) : ExactFields fields ↔ ∀ f ∈ fields, Exact f.2 := by
  induction fields with
  | nil => simp [ExactFields]
  | cons f rest ih => simp [ExactFields,ih]

theorem wholeNumber_finite (whole : wholeNumber n = true) : ∃ q, n = .finite q ∧ safe (.finite q) = true := by
  cases n with
  | finite q => exact ⟨q,rfl,whole⟩
  | _ => simp [wholeNumber] at whole

mutual
theorem plain_of_exact : ∀ value, Exact value → Plain value ∧ unsigned value = value
  | .null,_ => ⟨trivial,rfl⟩
  | .bool _,_ => ⟨trivial,rfl⟩
  | .str _,_ => ⟨trivial,rfl⟩
  | .num n,exact_ => by
    obtain ⟨q,rfl,good⟩ := wholeNumber_finite exact_
    exact ⟨good,rfl⟩
  | .arr items,exact_ => by
    obtain ⟨plain,same⟩ := plainItems_of_exact items exact_
    exact ⟨plain,by rw [unsigned,same]⟩
  | .obj fields,⟨once,exact_⟩ => by
    obtain ⟨plain,same⟩ := plainFields_of_exact fields exact_
    exact ⟨⟨once,plain⟩,by rw [unsigned,same]⟩

theorem plainItems_of_exact : ∀ items, ExactItems items → PlainItems items ∧ unsignedItems items = items
  | [],_ => ⟨trivial,rfl⟩
  | item :: rest,⟨first,others⟩ => by
    obtain ⟨plain,same⟩ := plain_of_exact item first
    obtain ⟨plains,sames⟩ := plainItems_of_exact rest others
    exact ⟨⟨plain,plains⟩,by rw [unsignedItems,same,sames]⟩

theorem plainFields_of_exact : ∀ fields, ExactFields fields → PlainFields fields ∧ unsignedFields fields = fields
  | [],_ => ⟨trivial,rfl⟩
  | (key,value) :: rest,⟨first,others⟩ => by
    obtain ⟨plain,same⟩ := plain_of_exact value first
    obtain ⟨plains,sames⟩ := plainFields_of_exact rest others
    exact ⟨⟨plain,plains⟩,by rw [unsignedFields,same,sames]⟩
end

mutual
theorem exact_arrange : ∀ value, Exact value → Exact (arrange o value)
  | .null,_ => trivial
  | .bool _,_ => trivial
  | .str _,_ => trivial
  | .num _,exact_ => exact_
  | .arr items,exact_ => exactItems_arrange items exact_
  | .obj fields,⟨once,exact_⟩ => by
    have inner := (exactFields_all _).mp (exactFields_arrange fields exact_)
    have perm := perm_insertionSort (keyLe o) (arrangeFields o fields)
    refine ⟨?_,(exactFields_all _).mpr fun f inF => inner f (perm.mem_iff.mp inF)⟩
    rw [(perm.map Prod.fst).nodup_iff,arrangeFields_map,map_map]
    exact once

theorem exactItems_arrange : ∀ items, ExactItems items → ExactItems (arrangeItems o items)
  | [],_ => trivial
  | item :: rest,⟨first,others⟩ => ⟨exact_arrange item first,exactItems_arrange rest others⟩

theorem exactFields_arrange : ∀ fields, ExactFields fields → ExactFields (arrangeFields o fields)
  | [],_ => trivial
  | (_,value) :: rest,⟨first,others⟩ => ⟨exact_arrange value first,exactFields_arrange rest others⟩
end

mutual
/-- Every number of the value passes a test. -/
def numbersAll (p : JsNumber → Bool) : Json → Bool
  | .num n => p n
  | .arr items => numbersAllItems p items
  | .obj fields => numbersAllFields p fields
  | _ => true

def numbersAllItems (p : JsNumber → Bool) : List Json → Bool
  | [] => true
  | item :: rest => numbersAll p item && numbersAllItems p rest

def numbersAllFields (p : JsNumber → Bool) : List (String × Json) → Bool
  | [] => true
  | (_,value) :: rest => numbersAll p value && numbersAllFields p rest
end

section numbers
variable {p : JsNumber → Bool} (whole : ∀ n, wholeNumber n = true → p n = true)
include whole

mutual
theorem numbersAll_exact : ∀ value, Exact value → numbersAll p value = true
  | .null,_ => rfl
  | .bool _,_ => rfl
  | .str _,_ => rfl
  | .num n,exact_ => whole n exact_
  | .arr items,exact_ => numbersAllItems_exact items exact_
  | .obj fields,⟨_,exact_⟩ => numbersAllFields_exact fields exact_

theorem numbersAllItems_exact : ∀ items, ExactItems items → numbersAllItems p items = true
  | [],_ => rfl
  | item :: rest,⟨first,others⟩ => by
    rw [numbersAllItems,numbersAll_exact item first,numbersAllItems_exact rest others]
    rfl

theorem numbersAllFields_exact : ∀ fields, ExactFields fields → numbersAllFields p fields = true
  | [],_ => rfl
  | (_,value) :: rest,⟨first,others⟩ => by
    rw [numbersAllFields,numbersAll_exact value first,numbersAllFields_exact rest others]
    rfl
end

end numbers

/-- The text of a value with its keys in order. -/
def canonicalText (o : KeyOrder) (value : Json) : String := stringify decimal (arrange o value)

/-- A canonical text is read back, with its keys in order. -/
theorem parse_canonicalText {value : Json} (exact_ : Exact value) :
    parse (canonicalText o value) = some (arrange o value) := by
  obtain ⟨plain,same⟩ := plain_of_exact _ (exact_arrange (o := o) value exact_)
  have read := parse_text (arrange o value) "" plain (by decide) (by simp [Stops])
  rw [same] at read
  simpa [canonicalText] using read

theorem canonicalText_flat {value : Json} (flat : keysAll flatKey value = true) :
    canonicalText utf16Order value = canonicalText scalarOrder value := by
  rw [canonicalText,canonicalText,arrange_flat value flat]

/-- Where no key stands twice, a field is read as it stands. -/
theorem field?_eq_some {fields : List (String × Json)} (once : (fields.map Prod.fst).Nodup) {key : String} {value : Json} :
    field? key (.obj fields) = some value ↔ (key,value) ∈ fields := by
  rw [field?,Option.map_eq_some_iff]
  constructor
  · rintro ⟨f,found,rfl⟩
    have named : f.1 = key := by simpa using List.find?_some found
    subst named
    exact mem_of_find?_eq_some found
  · intro in_
    cases found : fields.find? (fun f => f.1 = key) with
    | none => exact absurd (List.find?_eq_none.mp found _ in_) (by simp)
    | some f =>
      have named : f.1 = key := by simpa using List.find?_some found
      have same := inj_on_of_nodup_map once (mem_of_find?_eq_some found) in_ named
      exact ⟨f,rfl,by rw [same]⟩

theorem keys_arrange (fields : List (String × Json)) :
    (arrange o (.obj fields)).keys.Perm (fields.map Prod.fst) := by
  have perm := (arrange_perm (o := o) fields).map Prod.fst
  simpa [arrange,keys,map_map,Function.comp_def] using perm

/-! ## Sizes -/

section size
variable {render : Rat → String}

/-- What the fields take, each with its key, its colon and a comma. -/
def memberSizes (render : Rat → String) : List (String × Json) → Nat
  | [] => 0
  | f :: rest => (quote f.1).utf8ByteSize + 2 + size render f.2 + memberSizes render rest

theorem memberSizes_nil : memberSizes render [] = 0 := by rw [memberSizes]

theorem memberSizes_cons (key : String) (value : Json) (rest : List (String × Json)) :
    memberSizes render ((key,value) :: rest) = (quote key).utf8ByteSize + 2 + size render value + memberSizes render rest := by
  rw [memberSizes]

@[simp] theorem memberSizes_append (a b : List (String × Json)) :
    memberSizes render (a ++ b) = memberSizes render a + memberSizes render b := by
  induction a with
  | nil => simp [memberSizes]
  | cons f a ih =>
    simp only [cons_append,memberSizes,ih]
    omega

theorem joined_members (fields : List (String × Json)) :
    (joined "," (stringifyFields render fields)).utf8ByteSize = memberSizes render fields - 1 := by
  have comma : ",".utf8ByteSize = 1 := rfl
  have colon : ":".utf8ByteSize = 1 := rfl
  induction fields with
  | nil => rfl
  | cons f rest ih =>
    obtain ⟨key,value⟩ := f
    cases rest with
    | nil =>
      simp only [stringifyFields,joined,memberSizes,size,String.utf8ByteSize_append,colon]
      omega
    | cons f' rest =>
      obtain ⟨key',value'⟩ := f'
      simp only [stringifyFields,joined,memberSizes,size,String.utf8ByteSize_append,comma,colon] at ih ⊢
      omega

theorem size_obj_eq (fields : List (String × Json)) : size render (.obj fields) = 2 + (memberSizes render fields - 1) := by
  have left : "\x7b".utf8ByteSize = 1 := rfl
  have right : "\x7d".utf8ByteSize = 1 := rfl
  simp only [size,stringify,String.utf8ByteSize_append,left,right,joined_members]
  omega

theorem size_arr_eq (items : List Json) : size render (.arr items) = 2 + (itemSizes render items - 1) := by
  have left : "[".utf8ByteSize = 1 := rfl
  have right : "]".utf8ByteSize = 1 := rfl
  simp only [size,stringify,String.utf8ByteSize_append,left,right,joined_items]
  omega

theorem memberSizes_perm (perm : a.Perm b) : memberSizes render a = memberSizes render b := by
  induction perm with
  | nil => rfl
  | cons f _ ih => simp only [memberSizes,ih]
  | swap f g rest =>
    simp only [memberSizes]
    omega
  | trans _ _ first second => exact first.trans second

mutual
/-- The order of the keys takes no room. -/
theorem size_arrange : ∀ value, size render (arrange o value) = size render value
  | .null => rfl
  | .bool _ => rfl
  | .num _ => rfl
  | .str _ => rfl
  | .arr items => by rw [arrange,size_arr_eq,size_arr_eq,itemSizes_arrange items]
  | .obj fields => by
    rw [arrange,size_obj_eq,size_obj_eq,memberSizes_perm (perm_insertionSort _ _),memberSizes_arrange fields]

theorem itemSizes_arrange : ∀ items, itemSizes render (arrangeItems o items) = itemSizes render items
  | [] => rfl
  | item :: rest => by rw [arrangeItems,itemSizes,itemSizes,size_arrange item,itemSizes_arrange rest]

theorem memberSizes_arrange : ∀ fields, memberSizes render (arrangeFields o fields) = memberSizes render fields
  | [] => rfl
  | (key,value) :: rest => by rw [arrangeFields,memberSizes,memberSizes,size_arrange value,memberSizes_arrange rest]
end

theorem canonicalText_size (value : Json) : (canonicalText o value).utf8ByteSize = size decimal value := by
  rw [← size_arrange (o := o),size,canonicalText]

theorem size_item_le {item : Json} (in_ : item ∈ items) : size render item ≤ size render (.arr items) := by
  have grows : size render item + 1 ≤ itemSizes render items := by
    induction items with
    | nil => simp at in_
    | cons first rest ih =>
      simp only [itemSizes]
      rcases mem_cons.mp in_ with rfl | later
      · omega
      · have := ih later
        omega
  rw [size_arr_eq]
  omega

theorem memberSizes_mem {fields : List (String × Json)} (in_ : f ∈ fields) :
    (quote f.1).utf8ByteSize + 2 + size render f.2 ≤ memberSizes render fields := by
  induction fields with
  | nil => simp at in_
  | cons first rest ih =>
    simp only [memberSizes]
    rcases mem_cons.mp in_ with rfl | later
    · omega
    · have := ih later
      omega

theorem size_field_le {fields : List (String × Json)} (in_ : f ∈ fields) : size render f.2 ≤ size render (.obj fields):= by
  have grows : (quote f.1).utf8ByteSize + 2 + size render f.2 ≤ memberSizes render fields := memberSizes_mem in_
  rw [size_obj_eq]
  omega

/-- A visible character of one byte that JSON leaves as it is. -/
def plainChar (c : Char) : Bool := decide (32 ≤ c.toNat ∧ c.toNat ≤ 126) && c ≠ '"' && c ≠ '\\'

theorem quoteChar_plain (plain : plainChar c = true) : quoteChar c = [c] := by
  simp only [plainChar,Bool.and_eq_true,decide_eq_true_eq] at plain
  obtain ⟨⟨⟨low,high⟩,quote⟩,slash⟩ := plain
  have control : ¬c.toNat < 32 := by omega
  have eight : c.toNat ≠ 8 := by omega
  have nine : c.toNat ≠ 9 := by omega
  have ten : c.toNat ≠ 10 := by omega
  have twelve : c.toNat ≠ 12 := by omega
  have thirteen : c.toNat ≠ 13 := by omega
  simp [quoteChar,quote,slash,eight,nine,ten,twelve,thirteen,control]

theorem charBytes_plain (plain : ∀ c ∈ cs, plainChar c = true) : charBytes cs = cs.length := by
  induction cs with
  | nil => rfl
  | cons c cs ih =>
    simp only [forall_mem_cons] at plain
    have here := plain.1
    simp only [plainChar,Bool.and_eq_true,decide_eq_true_eq] at here
    have whole : c.toNat = c.val.toNat := rfl
    have one : c.utf8Size = 1 := by
      apply Char.utf8Size_eq_one_iff.mpr
      rw [UInt32.le_iff_toNat_le]
      simp
      omega
    rw [charBytes,one,ih plain.2,length_cons]
    omega

theorem flatMap_plain {cs : List Char} (plain : ∀ c ∈ cs, plainChar c = true) : cs.flatMap quoteChar = cs := by
  induction cs with
  | nil => rfl
  | cons c cs ih =>
    simp only [forall_mem_cons] at plain
    rw [flatMap_cons,quoteChar_plain plain.1,ih plain.2,singleton_append]

/-- Such a text takes two bytes more than it has characters. -/
theorem quote_plain {s : String} (plain : ∀ c ∈ s.toList, plainChar c = true) :
    (quote s).utf8ByteSize = s.toList.length + 2 := by
  rw [quote_bytes,flatMap_plain plain,charBytes_plain plain]

theorem size_plain (plain : ∀ c ∈ s.toList, plainChar c = true) : size render (.str s) = s.toList.length + 2:= by
  rw [size,stringify]
  exact quote_plain plain

theorem digits_plain (n : Nat) : ∀ c ∈ n.repr.toList, plainChar c = true := by
  intro c in_
  rw [Nat.toList_repr] at in_
  have digit := Nat.isDigit_of_mem_toDigits (by omega) (by omega) in_
  have whole : c.toNat = c.val.toNat := rfl
  have bounds : (decide (c.val ≥ 48) && decide (c.val ≤ 57)) = true := digit
  simp only [Bool.and_eq_true,decide_eq_true_eq,ge_iff_le,UInt32.le_iff_toNat_le] at bounds
  simp at bounds
  simp only [plainChar,Bool.and_eq_true,decide_eq_true_eq]
  refine ⟨⟨⟨by omega,by omega⟩,?_⟩,?_⟩
  · rintro rfl
    simp at bounds
  · rintro rfl
    simp at bounds

/-- A safe integer takes at most seventeen bytes. -/
theorem size_whole {n : Int} (is_ : safe (.finite n) = true) : size decimal (.num (.finite n)) ≤ 17 := by
  have digits (m : Nat) (small : m ≤ 9007199254740991) : m.repr.utf8ByteSize ≤ 16 := by
    rw [utf8ByteSize_toList,charBytes_plain (digits_plain m),Nat.toList_repr]
    apply (Nat.length_toDigits_le_iff (by omega) (by omega)).mpr
    exact Nat.lt_of_le_of_lt small (by decide)
  simp only [safe,Rat.den_intCast,Rat.num_intCast,decide_eq_true_eq] at is_
  rw [size,stringify,numberJson,decimal,Rat.num_intCast,Int.repr_eq_if]
  split
  · have := digits n.toNat (by omega)
    omega
  · have := digits (-n).toNat (by omega)
    have sign : ("-" : String).utf8ByteSize = 1 := by decide
    rw [String.utf8ByteSize_append,sign]
    omega

end size

end Json

end Neurobro
