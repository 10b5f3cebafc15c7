import Neurobro.Wsl.Contract

/-! What the writing of a value comes to: the leaves that may be written, the budget of depth
and of values, and one text for all orders of the keys. -/
namespace Neurobro.Wsl
open JsonText List

mutual
/-- How deep the values of a value lie. -/
def height : Json → Nat
  | .arr items => heightItems items
  | .obj fields => heightFields fields
  | _ => 0

def heightItems : List Json → Nat
  | [] => 0
  | item :: rest => max (height item + 1) (heightItems rest)

def heightFields : List (String × Json) → Nat
  | [] => 0
  | (_,value) :: rest => max (height value + 1) (heightFields rest)
end

mutual
/-- How many values a value holds, itself among them. -/
def nodes : Json → Nat
  | .arr items => nodesItems items + 1
  | .obj fields => nodesFields fields + 1
  | _ => 1

def nodesItems : List Json → Nat
  | [] => 0
  | item :: rest => nodes item + nodesItems rest

def nodesFields : List (String × Json) → Nat
  | [] => 0
  | (_,value) :: rest => nodes value + nodesFields rest
end

mutual
/-- The leaves and the keys that may be written. -/
def sound : Json → Bool
  | .num q => safe q
  | .str s => boundedText s 32768
  | .arr items => soundItems items
  | .obj fields => soundFields fields
  | _ => true

def soundItems : List Json → Bool
  | [] => true
  | item :: rest => sound item && soundItems rest

def soundFields : List (String × Json) → Bool
  | [] => true
  | (key,value) :: rest => fieldKey key && sound value && soundFields rest
end

theorem charge_ok : charge depth n = .ok m ↔ (depth ≤ 12 ∧ n + 1 ≤ 4096) ∧ m = n + 1 := by
  simp only [charge]
  split
  · rename_i fits
    simp [fits,eq_comm]
  · rename_i no
    constructor
    · intro done
      contradiction
    · rintro ⟨fits,_⟩
      exact absurd fits no

/-- What the writing of a value comes to. -/
def Written (value : Json) : Prop := ∀ depth n text m, canonicalValue value depth n = .ok (text,m) ↔
  sound value = true ∧ depth + height value ≤ 12 ∧ n + nodes value ≤ 4096 ∧ text = Json.stringify decimal value ∧ m = n + nodes value

def ItemsWritten (items : List Json) : Prop := ∀ depth n texts m, depth ≤ 12 → n ≤ 4096 →
  (canonicalItems items (depth + 1) n = .ok (texts,m) ↔ soundItems items = true ∧ depth + heightItems items ≤ 12 ∧
    n + nodesItems items ≤ 4096 ∧ texts = Json.stringifyItems decimal items ∧ m = n + nodesItems items)

def FieldsWritten (fields : List (String × Json)) : Prop := ∀ depth n texts m, depth ≤ 12 → n ≤ 4096 →
  (canonicalFields fields (depth + 1) n = .ok (texts,m) ↔ soundFields fields = true ∧ depth + heightFields fields ≤ 12 ∧
    n + nodesFields fields ≤ 4096 ∧ texts = Json.stringifyFields decimal fields ∧ m = n + nodesFields fields)

theorem written_null : Written .null := by
  intro depth n text m
  simp only [canonicalValue,bind_eq_ok,charge_ok,sound,height,nodes,Json.stringify]
  constructor
  · rintro ⟨a,⟨⟨deep,many⟩,rfl⟩,done⟩
    cases done
    exact ⟨trivial,deep,many,rfl,rfl⟩
  · rintro ⟨_,deep,many,rfl,rfl⟩
    exact ⟨n + 1,⟨⟨deep,many⟩,rfl⟩,rfl⟩

theorem written_bool (b : Bool) : Written (.bool b) := by
  intro depth n text m
  simp only [canonicalValue,bind_eq_ok,charge_ok,sound,height,nodes,Json.stringify]
  constructor
  · rintro ⟨a,⟨⟨deep,many⟩,rfl⟩,done⟩
    cases done
    exact ⟨trivial,deep,many,rfl,rfl⟩
  · rintro ⟨_,deep,many,rfl,rfl⟩
    exact ⟨n + 1,⟨⟨deep,many⟩,rfl⟩,rfl⟩

theorem written_num (q : JsNumber) : Written (.num q) := by
  intro depth n text m
  simp only [canonicalValue,bind_eq_ok,charge_ok,requireBroker_ok,sound,height,nodes,Json.stringify]
  constructor
  · rintro ⟨a,⟨⟨deep,many⟩,rfl⟩,_,good,done⟩
    cases done
    exact ⟨good,deep,many,rfl,rfl⟩
  · rintro ⟨good,deep,many,rfl,rfl⟩
    exact ⟨n + 1,⟨⟨deep,many⟩,rfl⟩,(),good,rfl⟩

theorem written_str (s : String) : Written (.str s) := by
  intro depth n text m
  simp only [canonicalValue,bind_eq_ok,charge_ok,requireBroker_ok,sound,height,nodes,Json.stringify]
  constructor
  · rintro ⟨a,⟨⟨deep,many⟩,rfl⟩,_,good,done⟩
    cases done
    exact ⟨good,deep,many,rfl,rfl⟩
  · rintro ⟨good,deep,many,rfl,rfl⟩
    exact ⟨n + 1,⟨⟨deep,many⟩,rfl⟩,(),good,rfl⟩

theorem written_arr (items : List Json) (each : ItemsWritten items) : Written (.arr items) := by
  intro depth n text m
  simp only [canonicalValue,bind_eq_ok,charge_ok,sound,height,nodes,Json.stringify]
  constructor
  · rintro ⟨a,⟨⟨deep,many⟩,rfl⟩,⟨texts,m'⟩,inner,done⟩
    obtain ⟨good,deep,many,rfl,rfl⟩ := (each depth (n + 1) texts m' deep many).mp inner
    cases done
    exact ⟨good,deep,by omega,rfl,by omega⟩
  · rintro ⟨good,deep,many,rfl,rfl⟩
    exact ⟨n + 1,⟨⟨by omega,by omega⟩,rfl⟩,⟨_,_⟩,
      (each depth (n + 1) _ _ (by omega) (by omega)).mpr ⟨good,deep,by omega,rfl,rfl⟩,by rw [Nat.add_right_comm]; rfl⟩

theorem written_obj (fields : List (String × Json)) (each : FieldsWritten fields) : Written (.obj fields) := by
  intro depth n text m
  simp only [canonicalValue,bind_eq_ok,charge_ok,sound,height,nodes,Json.stringify]
  constructor
  · rintro ⟨a,⟨⟨deep,many⟩,rfl⟩,⟨texts,m'⟩,inner,done⟩
    obtain ⟨good,deep,many,rfl,rfl⟩ := (each depth (n + 1) texts m' deep many).mp inner
    cases done
    exact ⟨good,deep,by omega,rfl,by omega⟩
  · rintro ⟨good,deep,many,rfl,rfl⟩
    exact ⟨n + 1,⟨⟨by omega,by omega⟩,rfl⟩,⟨_,_⟩,
      (each depth (n + 1) _ _ (by omega) (by omega)).mpr ⟨good,deep,by omega,rfl,rfl⟩,by rw [Nat.add_right_comm]; rfl⟩

theorem itemsWritten_cons (item : Json) (items : List Json) (first : Written item) (others : ItemsWritten items) :
    ItemsWritten (item :: items) := by
  intro depth n texts m deep many
  simp only [canonicalItems,bind_eq_ok,soundItems,heightItems,nodesItems,Json.stringifyItems,Bool.and_eq_true]
  constructor
  · rintro ⟨⟨text,n'⟩,write,⟨texts',m'⟩,more,done⟩
    obtain ⟨good,deep',many',rfl,rfl⟩ := (first _ _ _ _).mp write
    obtain ⟨good',deep'',many'',rfl,rfl⟩ := (others depth _ _ _ deep (by omega)).mp more
    cases done
    exact ⟨⟨good,good'⟩,by omega,by omega,rfl,by omega⟩
  · rintro ⟨⟨good,good'⟩,deep',many',rfl,rfl⟩
    refine ⟨⟨_,_⟩,(first _ _ _ _).mpr ⟨good,by omega,by omega,rfl,rfl⟩,⟨_,_⟩,
      (others depth _ _ _ deep (by omega)).mpr ⟨good',by omega,by omega,rfl,rfl⟩,?_⟩
    rw [Nat.add_assoc]

theorem fieldsWritten_cons (key : String) (value : Json) (fields : List (String × Json)) (first : Written value)
    (others : FieldsWritten fields) : FieldsWritten ((key,value) :: fields) := by
  intro depth n texts m deep many
  simp only [canonicalFields,bind_eq_ok,requireBroker_ok,soundFields,heightFields,nodesFields,Json.stringifyFields,
    Bool.and_eq_true]
  constructor
  · rintro ⟨_,named,⟨text,n'⟩,write,⟨texts',m'⟩,more,done⟩
    obtain ⟨good,deep',many',rfl,rfl⟩ := (first _ _ _ _).mp write
    obtain ⟨good',deep'',many'',rfl,rfl⟩ := (others depth _ _ _ deep (by omega)).mp more
    cases done
    exact ⟨⟨⟨named,good⟩,good'⟩,by omega,by omega,rfl,by omega⟩
  · rintro ⟨⟨⟨named,good⟩,good'⟩,deep',many',rfl,rfl⟩
    refine ⟨(),named,⟨_,_⟩,(first _ _ _ _).mpr ⟨good,by omega,by omega,rfl,rfl⟩,⟨_,_⟩,
      (others depth _ _ _ deep (by omega)).mpr ⟨good',by omega,by omega,rfl,rfl⟩,?_⟩
    rw [Nat.add_assoc]

mutual
theorem written : ∀ value, Written value
  | .null => written_null
  | .bool b => written_bool b
  | .num q => written_num q
  | .str s => written_str s
  | .arr items => written_arr items (itemsWritten items)
  | .obj fields => written_obj fields (fieldsWritten fields)

theorem itemsWritten : ∀ items, ItemsWritten items
  | [] => fun depth n texts m _ _ => by
    simp only [canonicalItems,soundItems,heightItems,nodesItems,Json.stringifyItems]
    constructor
    · intro done
      cases done
      exact ⟨trivial,by omega,by omega,rfl,rfl⟩
    · rintro ⟨_,_,_,rfl,rfl⟩
      rfl
  | item :: items => itemsWritten_cons item items (written item) (itemsWritten items)

theorem fieldsWritten : ∀ fields, FieldsWritten fields
  | [] => fun depth n texts m _ _ => by
    simp only [canonicalFields,soundFields,heightFields,nodesFields,Json.stringifyFields]
    constructor
    · intro done
      cases done
      exact ⟨trivial,by omega,by omega,rfl,rfl⟩
    · rintro ⟨_,_,_,rfl,rfl⟩
      rfl
  | (key,value) :: fields => fieldsWritten_cons key value fields (written value) (fieldsWritten fields)
end

/-! ## The order of keys -/

def keyLe (a b : String × Json) : Prop := unitsLe (utf16Units a.1) (utf16Units b.1) = true

instance : DecidableRel keyLe := fun a b => inferInstanceAs (Decidable (unitsLe (utf16Units a.1) (utf16Units b.1) = true))

theorem unitsLe_total (a b : List Nat) : unitsLe a b = true ∨ unitsLe b a = true := by
  induction a generalizing b with
  | nil => simp [unitsLe]
  | cons x xs ih =>
    cases b with
    | nil => simp [unitsLe]
    | cons y ys =>
      by_cases same : x = y
      · simpa [unitsLe,same] using ih ys
      · have other : y ≠ x := Ne.symm same
        simp only [unitsLe,same,other,if_false,decide_eq_true_eq]
        omega

theorem unitsLe_trans (a b c : List Nat) (ab : unitsLe a b = true) (bc : unitsLe b c = true) : unitsLe a c = true := by
  induction a generalizing b c with
  | nil => simp [unitsLe]
  | cons x xs ih =>
    cases b with
    | nil => simp [unitsLe] at ab
    | cons y ys =>
      cases c with
      | nil => simp [unitsLe] at bc
      | cons z zs =>
        simp only [unitsLe] at ab bc ⊢
        by_cases xy : x = y
        · subst xy
          by_cases xz : x = z
          · simp only [xz,if_true] at ab bc ⊢
            exact ih ys zs ab bc
          · simpa [xz] using bc
        · simp only [xy,if_false,decide_eq_true_eq] at ab
          by_cases yz : y = z
          · subst yz
            simpa [xy] using ab
          · simp only [yz,if_false,decide_eq_true_eq] at bc
            have xz : x ≠ z := by omega
            simp only [xz,if_false,decide_eq_true_eq]
            omega

instance : Std.Total keyLe := ⟨fun _ _ => unitsLe_total _ _⟩

instance : IsTrans (String × Json) keyLe := ⟨fun _ _ _ ab bc => unitsLe_trans _ _ _ ab bc⟩

/-- Fields in order, as `ordered` puts them. -/
def sortFields (fields : List (String × Json)) : List (String × Json) := fields.insertionSort keyLe

theorem ordered_obj (fields : List (String × Json)) : ordered (.obj fields) = .obj (sortFields (orderedFields fields)) := rfl

theorem sortFields_sorted (fields : List (String × Json)) : (sortFields fields).Pairwise keyLe :=
  pairwise_insertionSort _ _

theorem sortFields_twice (fields : List (String × Json)) : sortFields (sortFields fields) = sortFields fields :=
  (sortFields_sorted fields).insertionSort_eq

theorem sortFields_perm (fields : List (String × Json)) : (sortFields fields).Perm fields := perm_insertionSort _ _

theorem sortFields_map (f : Json → Json) (fields : List (String × Json)) :
    sortFields (fields.map fun p => (p.1,f p.2)) = (sortFields fields).map fun p => (p.1,f p.2) :=
  (map_insertionSort keyLe keyLe (fun p => (p.1,f p.2)) fields (fun _ _ _ _ => Iff.rfl)).symm

theorem orderedFields_map (fields : List (String × Json)) : orderedFields fields = fields.map fun p => (p.1,ordered p.2) := by
  induction fields with
  | nil => rfl
  | cons f rest ih => simp [orderedFields,ih]

theorem unsignedFields_map (fields : List (String × Json)) : unsignedFields fields = fields.map fun p => (p.1,unsigned p.2) := by
  induction fields with
  | nil => rfl
  | cons f rest ih => simp [unsignedFields,ih]

mutual
theorem ordered_twice : ∀ value, ordered (ordered value) = ordered value
  | .null => rfl
  | .bool _ => rfl
  | .num _ => rfl
  | .str _ => rfl
  | .arr items => by simp only [ordered,orderedItems_twice items]
  | .obj fields => by
    rw [ordered_obj,ordered_obj,orderedFields_map (sortFields _),← sortFields_map,← orderedFields_map,
      orderedFields_twice fields,sortFields_twice]

theorem orderedItems_twice : ∀ items, orderedItems (orderedItems items) = orderedItems items
  | [] => rfl
  | item :: rest => by simp only [orderedItems,ordered_twice item,orderedItems_twice rest]

theorem orderedFields_twice : ∀ fields, orderedFields (orderedFields fields) = orderedFields fields
  | [] => rfl
  | (key,value) :: rest => by simp only [orderedFields,ordered_twice value,orderedFields_twice rest]
end

mutual
theorem ordered_unsigned : ∀ value, ordered (unsigned value) = unsigned (ordered value)
  | .null => rfl
  | .bool _ => rfl
  | .num (.finite _) => rfl
  | .num .negativeZero => rfl
  | .num .nan => rfl
  | .num (.infinity _) => rfl
  | .str _ => rfl
  | .arr items => by simp only [ordered,unsigned,orderedItems_unsigned items]
  | .obj fields => by
    simp only [unsigned,ordered_obj]
    rw [orderedFields_unsigned fields,unsignedFields_map,sortFields_map,← unsignedFields_map]

theorem orderedItems_unsigned : ∀ items, orderedItems (unsignedItems items) = unsignedItems (orderedItems items)
  | [] => rfl
  | item :: rest => by simp only [orderedItems,unsignedItems,ordered_unsigned item,orderedItems_unsigned rest]

theorem orderedFields_unsigned : ∀ fields, orderedFields (unsignedFields fields) = unsignedFields (orderedFields fields)
  | [] => rfl
  | (key,value) :: rest => by simp only [orderedFields,unsignedFields,ordered_unsigned value,orderedFields_unsigned rest]
end

mutual
theorem unsigned_twice : ∀ value, unsigned (unsigned value) = unsigned value
  | .null => rfl
  | .bool _ => rfl
  | .num (.finite _) => rfl
  | .num .negativeZero => rfl
  | .num .nan => rfl
  | .num (.infinity _) => rfl
  | .str _ => rfl
  | .arr items => by simp only [unsigned,unsignedItems_twice items]
  | .obj fields => by simp only [unsigned,unsignedFields_twice fields]

theorem unsignedItems_twice : ∀ items, unsignedItems (unsignedItems items) = unsignedItems items
  | [] => rfl
  | item :: rest => by simp only [unsignedItems,unsigned_twice item,unsignedItems_twice rest]

theorem unsignedFields_twice : ∀ fields, unsignedFields (unsignedFields fields) = unsignedFields fields
  | [] => rfl
  | (key,value) :: rest => by simp only [unsignedFields,unsigned_twice value,unsignedFields_twice rest]
end

/-! A value and the same with one zero have one text and pass the same checks. -/

/-- What a check or a text does not tell apart. -/
def SameWriting (a b : Json) : Prop := sound a = sound b ∧ height a = height b ∧ nodes a = nodes b ∧
  Json.stringify decimal a = Json.stringify decimal b

mutual
theorem unsigned_writing : ∀ value, SameWriting (unsigned value) value
  | .null => ⟨rfl,rfl,rfl,rfl⟩
  | .bool _ => ⟨rfl,rfl,rfl,rfl⟩
  | .num (.finite _) => ⟨rfl,rfl,rfl,rfl⟩
  | .num .negativeZero => ⟨by decide,rfl,rfl,rfl⟩
  | .num .nan => ⟨rfl,rfl,rfl,rfl⟩
  | .num (.infinity _) => ⟨rfl,rfl,rfl,rfl⟩
  | .str _ => ⟨rfl,rfl,rfl,rfl⟩
  | .arr items => by
    obtain ⟨good,deep,many,text⟩ := unsignedItems_writing items
    exact ⟨good,deep,congrArg (· + 1) many,by simp only [unsigned,Json.stringify,text]⟩
  | .obj fields => by
    obtain ⟨good,deep,many,text⟩ := unsignedFields_writing fields
    exact ⟨good,deep,congrArg (· + 1) many,by simp only [unsigned,Json.stringify,text]⟩

theorem unsignedItems_writing : ∀ items, soundItems (unsignedItems items) = soundItems items ∧
    heightItems (unsignedItems items) = heightItems items ∧ nodesItems (unsignedItems items) = nodesItems items ∧
    Json.stringifyItems decimal (unsignedItems items) = Json.stringifyItems decimal items
  | [] => ⟨rfl,rfl,rfl,rfl⟩
  | item :: rest => by
    obtain ⟨good,deep,many,text⟩ := unsigned_writing item
    obtain ⟨goods,deeps,manys,texts⟩ := unsignedItems_writing rest
    simp only [unsignedItems,soundItems,heightItems,nodesItems,Json.stringifyItems,good,deep,many,text,goods,deeps,manys,
      texts,and_self]

theorem unsignedFields_writing : ∀ fields, soundFields (unsignedFields fields) = soundFields fields ∧
    heightFields (unsignedFields fields) = heightFields fields ∧ nodesFields (unsignedFields fields) = nodesFields fields ∧
    Json.stringifyFields decimal (unsignedFields fields) = Json.stringifyFields decimal fields
  | [] => ⟨rfl,rfl,rfl,rfl⟩
  | (key,value) :: rest => by
    obtain ⟨good,deep,many,text⟩ := unsigned_writing value
    obtain ⟨goods,deeps,manys,texts⟩ := unsignedFields_writing rest
    simp only [unsignedFields,soundFields,heightFields,nodesFields,Json.stringifyFields,good,deep,many,text,goods,deeps,
      manys,texts,and_self]
end

theorem soundFields_all (fields : List (String × Json)) :
    soundFields fields = fields.all fun f => fieldKey f.1 && sound f.2 := by
  induction fields with
  | nil => rfl
  | cons f rest ih => simp [soundFields,ih]

theorem heightFields_perm (perm : a.Perm b) : heightFields a = heightFields b := by
  induction perm with
  | nil => rfl
  | cons f _ ih => simp only [heightFields,ih]
  | swap f g rest =>
    simp only [heightFields]
    omega
  | trans _ _ first second => exact first.trans second

theorem nodesFields_perm (perm : a.Perm b) : nodesFields a = nodesFields b := by
  induction perm with
  | nil => rfl
  | cons f _ ih => simp only [nodesFields,ih]
  | swap f g rest =>
    simp only [nodesFields]
    omega
  | trans _ _ first second => exact first.trans second

theorem soundFields_perm (perm : a.Perm b) : soundFields a = soundFields b := by
  rw [soundFields_all,soundFields_all]
  exact perm.all_eq

mutual
/-- The order of keys passes the same checks. -/
theorem ordered_checks : ∀ value, sound (ordered value) = sound value ∧ height (ordered value) = height value ∧
    nodes (ordered value) = nodes value
  | .null => ⟨rfl,rfl,rfl⟩
  | .bool _ => ⟨rfl,rfl,rfl⟩
  | .num _ => ⟨rfl,rfl,rfl⟩
  | .str _ => ⟨rfl,rfl,rfl⟩
  | .arr items => by
    obtain ⟨good,deep,many⟩ := orderedItems_checks items
    exact ⟨good,deep,congrArg (· + 1) many⟩
  | .obj fields => by
    obtain ⟨good,deep,many⟩ := orderedFields_checks fields
    have perm := sortFields_perm (orderedFields fields)
    rw [ordered_obj]
    simp only [sound,height,nodes,soundFields_perm perm,heightFields_perm perm,nodesFields_perm perm,good,deep,many,and_self]

theorem orderedItems_checks : ∀ items, soundItems (orderedItems items) = soundItems items ∧
    heightItems (orderedItems items) = heightItems items ∧ nodesItems (orderedItems items) = nodesItems items
  | [] => ⟨rfl,rfl,rfl⟩
  | item :: rest => by
    obtain ⟨good,deep,many⟩ := ordered_checks item
    obtain ⟨goods,deeps,manys⟩ := orderedItems_checks rest
    simp only [orderedItems,soundItems,heightItems,nodesItems,good,deep,many,goods,deeps,manys,and_self]

theorem orderedFields_checks : ∀ fields, soundFields (orderedFields fields) = soundFields fields ∧
    heightFields (orderedFields fields) = heightFields fields ∧ nodesFields (orderedFields fields) = nodesFields fields
  | [] => ⟨rfl,rfl,rfl⟩
  | (key,value) :: rest => by
    obtain ⟨good,deep,many⟩ := ordered_checks value
    obtain ⟨goods,deeps,manys⟩ := orderedFields_checks rest
    simp only [orderedFields,soundFields,heightFields,nodesFields,good,deep,many,goods,deeps,manys,and_self]
end

/-- The canonical text of a value, whether or not it may be written. -/
def canonicalText (value : Json) : String := Json.stringify decimal (ordered value)

/-- What the source admits into a canonical text. -/
structure Writable (value : Json) : Prop where
  good : sound value = true
  shallow : height value ≤ 12
  few : nodes value ≤ 4096

theorem canonicalJson_ok {value : Json} {text : String} :
    canonicalJson value = .ok text ↔ Writable value ∧ text = canonicalText value := by
  obtain ⟨good,deep,many⟩ := ordered_checks value
  constructor
  · intro done
    obtain ⟨⟨text',n⟩,wrote,same⟩ := map_ok done
    obtain ⟨good',deep',many',rfl,_⟩ := (written _ _ _ _ _).mp wrote
    rw [good] at good'
    exact ⟨⟨good',by omega,by omega⟩,same.symm⟩
  · rintro ⟨⟨good',deep',many'⟩,rfl⟩
    have wrote := (written (ordered value) 0 0 _ _).mpr ⟨good.trans good',by omega,by omega,rfl,rfl⟩
    rw [canonicalJson,wrote]
    rfl

/-! ## One value for all orders of its keys -/

/-- The value with its keys in order and one zero: two values are equal when they settle to
the same. -/
def settled (value : Json) : Json := unsigned (ordered value)

theorem settled_twice (value : Json) : settled (settled value) = settled value := by
  rw [settled,settled,ordered_unsigned,ordered_twice,unsigned_twice]

theorem writable_settled (value : Json) : Writable (settled value) ↔ Writable value := by
  obtain ⟨good,deep,many⟩ := ordered_checks value
  obtain ⟨good',deep',many',_⟩ := unsigned_writing (ordered value)
  constructor
  · rintro ⟨a,b,c⟩
    rw [settled,good',good] at a
    rw [settled,deep',deep] at b
    rw [settled,many',many] at c
    exact ⟨a,b,c⟩
  · rintro ⟨a,b,c⟩
    exact ⟨by rw [settled,good',good,a],by rw [settled,deep',deep]; exact b,by rw [settled,many',many]; exact c⟩

theorem canonicalText_settled (value : Json) : canonicalText (settled value) = canonicalText value := by
  rw [canonicalText,settled,ordered_unsigned,ordered_twice]
  exact (unsigned_writing (ordered value)).2.2.2

theorem canonicalJson_settled {value : Json} {text : String} :
    canonicalJson (settled value) = .ok text ↔ canonicalJson value = .ok text := by
  rw [canonicalJson_ok,canonicalJson_ok,writable_settled,canonicalText_settled]

mutual
/-- No object has a key twice. -/
def Distinct : Json → Prop
  | .arr items => DistinctItems items
  | .obj fields => (fields.map Prod.fst).Nodup ∧ DistinctFields fields
  | _ => True

def DistinctItems : List Json → Prop
  | [] => True
  | item :: rest => Distinct item ∧ DistinctItems rest

def DistinctFields : List (String × Json) → Prop
  | [] => True
  | (_,value) :: rest => Distinct value ∧ DistinctFields rest
end

theorem plainFields_all (fields : List (String × Json)) : PlainFields fields ↔ ∀ f ∈ fields, Plain f.2 := by
  induction fields with
  | nil => simp [PlainFields]
  | cons f rest ih => simp [PlainFields,ih]

mutual
theorem plain_ordered : ∀ value, sound value = true → Distinct value → Plain (ordered value)
  | .null,_,_ => trivial
  | .bool _,_,_ => trivial
  | .num _,good,_ => good
  | .str _,_,_ => trivial
  | .arr items,good,once => plainItems_ordered items good once
  | .obj fields,good,⟨once,each⟩ => by
    have perm := sortFields_perm (orderedFields fields)
    have plain := plainFields_ordered fields good each
    rw [ordered_obj]
    refine ⟨?_,?_⟩
    · rw [(perm.map Prod.fst).nodup_iff,orderedFields_map,map_map]
      exact once
    · rw [plainFields_all] at plain ⊢
      intro f in_
      exact plain f (perm.mem_iff.mp in_)

theorem plainItems_ordered : ∀ items, soundItems items = true → DistinctItems items → PlainItems (orderedItems items)
  | [],_,_ => trivial
  | item :: rest,good,⟨first,others⟩ => by
    simp only [soundItems,Bool.and_eq_true] at good
    exact ⟨plain_ordered item good.1 first,plainItems_ordered rest good.2 others⟩

theorem plainFields_ordered : ∀ fields, soundFields fields = true → DistinctFields fields → PlainFields (orderedFields fields)
  | [],_,_ => trivial
  | (key,value) :: rest,good,⟨first,others⟩ => by
    simp only [soundFields,Bool.and_eq_true] at good
    exact ⟨plain_ordered value good.1.2 first,plainFields_ordered rest good.2 others⟩
end

/-- A canonical line is read back, settled. -/
theorem parse_canonical {value : Json} {text : String} (once : Distinct value) (wrote : canonicalJson value = .ok text) :
    parse (text ++ "\n") = some (settled value) := by
  obtain ⟨may,rfl⟩ := canonicalJson_ok.mp wrote
  exact parse_text (ordered value) "\n" (plain_ordered value may.good once) (by decide) (by intro c is_; simp at is_; subst is_; decide)

/-! ## What a parse makes -/

theorem distinctFields_all (fields : List (String × Json)) : DistinctFields fields ↔ ∀ f ∈ fields, Distinct f.2 := by
  induction fields with
  | nil => simp [DistinctFields]
  | cons f rest ih => simp [DistinctFields,ih]

theorem create_nodup (made members : List (String × Json)) (once : (made.map Prod.fst).Nodup) :
    ((create made members).map Prod.fst).Nodup := by
  induction members generalizing made with
  | nil => exact once
  | cons f rest ih =>
    obtain ⟨key,value⟩ := f
    rw [create]
    apply ih
    split
    · have same : (made.map fun f => if f.1 = key then (key,value) else f).map Prod.fst = made.map Prod.fst := by
        rw [map_map]
        apply map_congr_left
        intro f _
        by_cases is_ : f.1 = key <;> simp [is_]
      rw [same]
      exact once
    · rename_i fresh
      rw [map_append]
      exact nodup_append.mpr ⟨once,by simp,by
        intro a in_ b is_
        simp only [map_cons,map_nil,mem_singleton] at is_
        subst is_
        intro same
        subst same
        exact fresh in_⟩

theorem create_from (made members : List (String × Json)) : ∀ f ∈ create made members, f ∈ made ∨ f ∈ members := by
  induction members generalizing made with
  | nil => exact fun f in_ => .inl in_
  | cons g rest ih =>
    obtain ⟨key,value⟩ := g
    intro f in_
    rw [create] at in_
    rcases ih _ f in_ with from_ | from_
    · split at from_
      · obtain ⟨g,was,made_⟩ := mem_map.mp from_
        by_cases is_ : g.1 = key
        · rw [if_pos is_] at made_
          exact .inr (by simp [made_])
        · rw [if_neg is_] at made_
          exact .inl (made_ ▸ was)
      · rcases mem_append.mp from_ with was | new
        · exact .inl was
        · exact .inr (by simp [mem_singleton.mp new])
    · exact .inr (mem_cons_of_mem _ from_)

theorem readWord_value {word : List Char} {value made : Json} {text rest : List Char}
    (read : readWord word value text = some (made,rest)) : made = value := by
  simp only [readWord] at read
  split at read
  · simp at read
    exact read.1.symm
  · contradiction

/-- What each reader makes at one fuel has no key twice. -/
structure MakesDistinct (fuel : Nat) : Prop where
  value : ∀ text v rest, readValue fuel text = some (v,rest) → Distinct v
  items : ∀ text vs rest, readItems fuel text = some (vs,rest) → DistinctItems vs
  members : ∀ text fs rest, readMembers fuel text = some (fs,rest) → DistinctFields fs

theorem makesDistinct (fuel : Nat) : MakesDistinct fuel := by
  induction fuel with
  | zero => exact ⟨by simp [readValue],by simp [readItems],by simp [readMembers]⟩
  | succ fuel ih =>
    refine ⟨?_,?_,?_⟩
    · intro text v rest read
      rw [readValue] at read
      split at read
      · contradiction
      · rename_i c more _
        by_cases string : c = '"'
        · rw [if_pos string] at read
          obtain ⟨r,_,made⟩ := Option.map_eq_some_iff.mp read
          cases made
          trivial
        rw [if_neg string] at read
        by_cases array : c = '['
        · rw [if_pos array] at read
          split at read
          · cases read
            trivial
          · obtain ⟨r,inner,made⟩ := Option.map_eq_some_iff.mp read
            cases made
            exact ih.items _ _ _ inner
        rw [if_neg array] at read
        by_cases object : c = '\x7b'
        · rw [if_pos object] at read
          split at read
          · cases read
            exact ⟨by simp,trivial⟩
          · obtain ⟨r,inner,made⟩ := Option.map_eq_some_iff.mp read
            cases made
            refine ⟨create_nodup [] r.1 (by simp),(distinctFields_all _).mpr ?_⟩
            intro f in_
            rcases create_from [] r.1 f in_ with no | from_
            · contradiction
            · exact (distinctFields_all _).mp (ih.members _ _ _ inner) f from_
        rw [if_neg object] at read
        by_cases n : c = 'n'
        · rw [if_pos n] at read
          rw [readWord_value read]
          trivial
        rw [if_neg n] at read
        by_cases t : c = 't'
        · rw [if_pos t] at read
          rw [readWord_value read]
          trivial
        rw [if_neg t] at read
        by_cases f : c = 'f'
        · rw [if_pos f] at read
          rw [readWord_value read]
          trivial
        rw [if_neg f] at read
        obtain ⟨r,_,made⟩ := Option.map_eq_some_iff.mp read
        cases made
        trivial
    · intro text vs rest read
      rw [readItems] at read
      obtain ⟨⟨item,after⟩,first,read⟩ := Option.bind_eq_some_iff.mp read
      obtain ⟨⟨last,after'⟩,_,read⟩ := Option.bind_eq_some_iff.mp read
      simp only at read
      split at read
      · cases read
        exact ⟨ih.value _ _ _ first,trivial⟩
      · obtain ⟨⟨others,end_⟩,more,read⟩ := Option.bind_eq_some_iff.mp read
        cases read
        exact ⟨ih.value _ _ _ first,ih.items _ _ _ more⟩
    · intro text fs rest read
      rw [readMembers] at read
      obtain ⟨⟨key,colon⟩,_,read⟩ := Option.bind_eq_some_iff.mp read
      obtain ⟨⟨value,after⟩,first,read⟩ := Option.bind_eq_some_iff.mp read
      obtain ⟨⟨last,after'⟩,_,read⟩ := Option.bind_eq_some_iff.mp read
      simp only at read
      split at read
      · cases read
        exact ⟨ih.value _ _ _ first,trivial⟩
      · obtain ⟨⟨others,end_⟩,more,read⟩ := Option.bind_eq_some_iff.mp read
        cases read
        exact ⟨ih.value _ _ _ first,ih.members _ _ _ more⟩

theorem parse_distinct {text : String} {value : Json} (read : parse text = some value) : Distinct value := by
  obtain ⟨⟨v,rest⟩,read,made⟩ := Option.bind_eq_some_iff.mp read
  simp only at made
  split at made
  · cases made
    exact (makesDistinct _).value _ _ _ read
  · contradiction

/-- A value whose own canonical line is what it was parsed from is settled. -/
theorem settled_of_parse {value : Json} {text : String} (wrote : canonicalJson value = .ok text)
    (read : parse (text ++ "\n") = some value) : settled value = value := by
  rw [parse_canonical (parse_distinct read) wrote] at read
  exact Option.some.inj read

end Neurobro.Wsl
