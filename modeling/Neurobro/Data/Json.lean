import Mathlib.Data.List.Sort
import Mathlib.Data.Rat.Defs

/-! JSON values and the canonical text that names an effect. Strings are sequences
of Unicode scalar values; their UTF-16 code units order object keys, as the sort of
the source language does. -/
namespace Neurobro

/-- A number value: the finite ones by their value, the rest by name. -/
inductive JsNumber where
  | finite (value : Rat)
  | negativeZero
  | nan
  | infinity (negative : Bool)
  deriving DecidableEq

inductive Json where
  | null
  | bool (value : Bool)
  | num (value : JsNumber)
  | str (value : String)
  | arr (items : List Json)
  | obj (fields : List (String × Json))

def utf16 (c : Char) : List Nat :=
  if c.toNat < 0x10000 then [c.toNat]
  else [0xD800 + (c.toNat - 0x10000) / 0x400,0xDC00 + (c.toNat - 0x10000) % 0x400]

def utf16Units (s : String) : List Nat := s.toList.flatMap utf16

/-- Length as the source language counts it. -/
def utf16Length (s : String) : Nat := (utf16Units s).length

/-- The order of unsigned code units, shorter first on a common prefix. -/
def unitsLe : List Nat → List Nat → Bool
  | [],_ => true
  | _ :: _,[] => false
  | a :: as,b :: bs => if a = b then unitsLe as bs else a < b

def hexDigit (n : Nat) : Char := "0123456789abcdef".toList.getD n '0'

/-- How a character stands inside a quoted JSON string. -/
def quoteChar (c : Char) : List Char :=
  if c = '"' then ['\\','"']
  else if c = '\\' then ['\\','\\']
  else if c.toNat = 8 then ['\\','b']
  else if c.toNat = 9 then ['\\','t']
  else if c.toNat = 10 then ['\\','n']
  else if c.toNat = 12 then ['\\','f']
  else if c.toNat = 13 then ['\\','r']
  else if c.toNat < 32 then ['\\','u','0','0',hexDigit (c.toNat / 16),hexDigit (c.toNat % 16)]
  else [c]

def quote (s : String) : String := String.ofList (['"'] ++ s.toList.flatMap quoteChar ++ ['"'])

def joined (separator : String) : List String → String
  | [] => ""
  | [s] => s
  | s :: rest => s ++ separator ++ joined separator rest

/-- JSON text of an array of strings, as the record keys use it. -/
def stringArray (items : List String) : String := "[" ++ joined "," (items.map quote) ++ "]"

namespace Json

def field? (key : String) : Json → Option Json
  | .obj fields => (fields.find? fun f => f.1 = key).map Prod.snd
  | _ => none

def keys : Json → List String
  | .obj fields => fields.map Prod.fst
  | _ => []

def without (key : String) : Json → Json
  | .obj fields => .obj (fields.filter fun f => f.1 ≠ key)
  | value => value

def str? : Json → Option String
  | .str s => some s
  | _ => none

/-- How a condition of the source language reads a value. -/
def truthy : Json → Bool
  | .null => false
  | .bool b => b
  | .num (.finite q) => q ≠ 0
  | .num .negativeZero | .num .nan => false
  | .str s => s ≠ ""
  | _ => true

def sameNumber : JsNumber → JsNumber → Bool
  | .nan,_ => false
  | .negativeZero,b => b = .negativeZero || b = .finite 0
  | .finite p,.negativeZero => p = 0
  | a,b => a = b

/-- Strict equality of values read from different records: arrays and objects are
never the same object. -/
def same : Json → Json → Bool
  | .null,.null => true
  | .bool a,.bool b => a = b
  | .str a,.str b => a = b
  | .num a,.num b => sameNumber a b
  | _,_ => false

/-- An absent value equals only an absent one. -/
def strictEq : Option Json → Option Json → Bool
  | none,none => true
  | some a,some b => same a b
  | _,_ => false

/-- Reading a property: `null` has none and throws. -/
def property (key : String) : Json → Except String (Option Json)
  | .null => .error ("Cannot read properties of null (reading '" ++ key ++ "')")
  | value => .ok (value.field? key)

/-- Numbers whose text is not defined refuse, as the source refuses them. -/
def numberText (render : Rat → String) : JsNumber → Except String String
  | .finite q => .ok (render q)
  | .negativeZero => .ok (render 0)
  | _ => .error "Effect payload contains non-finite number"

mutual
/-- Stable text of a value: object keys are sorted, so insertion order is lost. -/
def canonicalJson (render : Rat → String) : Json → Except String String
  | .null => .ok "null"
  | .bool b => .ok (if b then "true" else "false")
  | .num n => numberText render n
  | .str s => .ok (quote s)
  | .arr items => do .ok ("[" ++ joined "," (← canonicalItems render items) ++ "]")
  | .obj fields => do
    let texts ← canonicalFields render fields
    let sorted := texts.insertionSort fun a b => unitsLe (utf16Units a.1) (utf16Units b.1)
    .ok ("\x7b" ++ joined "," (sorted.map fun f => quote f.1 ++ ":" ++ f.2) ++ "\x7d")

def canonicalItems (render : Rat → String) : List Json → Except String (List String)
  | [] => .ok []
  | item :: rest => do
    let text ← canonicalJson render item
    let texts ← canonicalItems render rest
    .ok (text :: texts)

def canonicalFields (render : Rat → String) : List (String × Json) → Except String (List (String × String))
  | [] => .ok []
  | (key,value) :: rest => do
    let text ← canonicalJson render value
    let texts ← canonicalFields render rest
    .ok ((key,text) :: texts)
end

/-! ## The language's own texts of a value -/

def numberDisplay (render : Rat → String) : JsNumber → String
  | .finite q => render q
  | .negativeZero => render 0
  | .nan => "NaN"
  | .infinity negative => if negative then "-Infinity" else "Infinity"

mutual
/-- What `String` makes of a value: no array inside an array is marked as one. -/
def display (render : Rat → String) : Json → String
  | .null => "null"
  | .bool b => if b then "true" else "false"
  | .num n => numberDisplay render n
  | .str s => s
  | .arr items => joined "," (displayItems render items)
  | .obj _ => "[object Object]"

def displayItems (render : Rat → String) : List Json → List String
  | [] => []
  | .null :: rest => "" :: displayItems render rest
  | item :: rest => display render item :: displayItems render rest
end

/-- Inside JSON, what is not a finite number is null. -/
def numberJson (render : Rat → String) : JsNumber → String
  | .finite q => render q
  | .negativeZero => render 0
  | _ => "null"

mutual
/-- `JSON.stringify`, keys in the order of the value. -/
def stringify (render : Rat → String) : Json → String
  | .null => "null"
  | .bool b => if b then "true" else "false"
  | .num n => numberJson render n
  | .str s => quote s
  | .arr items => "[" ++ joined "," (stringifyItems render items) ++ "]"
  | .obj fields => "\x7b" ++ joined "," (stringifyFields render fields) ++ "\x7d"

def stringifyItems (render : Rat → String) : List Json → List String
  | [] => []
  | item :: rest => stringify render item :: stringifyItems render rest

def stringifyFields (render : Rat → String) : List (String × Json) → List String
  | [] => []
  | (key,value) :: rest => (quote key ++ ":" ++ stringify render value) :: stringifyFields render rest
end

/-- A key that reads as an array index. -/
def indexKey (key : String) : Option Nat :=
  let digits := key.toList
  let value := digits.foldl (fun n c => 10 * n + (c.toNat - 48)) 0
  if digits.isEmpty || !digits.all Char.isDigit || (digits.head? = some '0' && digits.length ≠ 1) ||
      value ≥ 4294967295 then none
  else some value

/-- Objects list their index keys first, in the order of the numbers. -/
def propertyOrder (fields : List (String × Json)) : List (String × Json) :=
  let (indexed,named) := fields.partition fun f => (indexKey f.1).isSome
  indexed.insertionSort (fun a b => (indexKey a.1).getD 0 ≤ (indexKey b.1).getD 0) ++ named

mutual
/-- Keys sorted by a collation at every level; equal ones stay as they were. -/
def sortedKeys (compare : String → String → Ordering) : Json → Json
  | .arr items => .arr (sortedItems compare items)
  | .obj fields =>
    .obj (propertyOrder ((sortedFields compare fields).insertionSort fun a b => compare a.1 b.1 ≠ .gt))
  | value => value

def sortedItems (compare : String → String → Ordering) : List Json → List Json
  | [] => []
  | item :: rest => sortedKeys compare item :: sortedItems compare rest

def sortedFields (compare : String → String → Ordering) : List (String × Json) → List (String × Json)
  | [] => []
  | (key,value) :: rest => (key,sortedKeys compare value) :: sortedFields compare rest
end

end Json

end Neurobro
