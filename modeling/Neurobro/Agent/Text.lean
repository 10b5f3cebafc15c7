import Neurobro.Data.Json

/-! Reading the owner's text: the anchored expressions of the controller, the test
for quoted authority and the splitting of a delivery. A pattern returns every rest
it can leave, which is what backtracking explores. -/
namespace Neurobro.Agent

/-- White space of the source language's expressions and trimming. -/
def isSpace (c : Char) : Bool :=
  let n := c.toNat
  (9 ≤ n && n ≤ 13) || n = 32 || n = 0xa0 || n = 0x1680 || (0x2000 ≤ n && n ≤ 0x200a) ||
    n = 0x2028 || n = 0x2029 || n = 0x202f || n = 0x205f || n = 0x3000 || n = 0xfeff

def trimStart (cs : List Char) : List Char := cs.dropWhile isSpace

def trimChars (cs : List Char) : List Char := (trimStart (trimStart cs).reverse).reverse

def trim (s : String) : String := String.ofList (trimChars s.toList)

abbrev Pattern := List Char → List (List Char)

namespace Pattern

def seq (first second : Pattern) : Pattern := fun cs => (first cs).flatMap second

def alt (options : List Pattern) : Pattern := fun cs => options.flatMap fun p => p cs

def opt (p : Pattern) : Pattern := fun cs => p cs ++ [cs]

def empty : Pattern := fun cs => [cs]

/-- Input end, as `$` without the multiline flag. -/
def eoi : Pattern := fun cs => if cs.isEmpty then [[]] else []

def charIf (ok : Char → Bool) : Pattern
  | c :: cs => if ok c then [cs] else []
  | [] => []

def spaces : Pattern
  | c :: cs => if isSpace c then cs :: spaces cs else []
  | [] => []

/-- Literal text up to case folding. -/
def word (fold : Char → Char) (text : String) : Pattern := go text.toList
where
  go : List Char → Pattern
  | [],cs => [cs]
  | p :: ps,c :: cs => if fold p = fold c then go ps cs else []
  | _ :: _,[] => []

def words (fold : Char → Char) (texts : List String) : Pattern := alt (texts.map (word fold))

def all : List Pattern → Pattern
  | [] => empty
  | p :: rest => seq p (all rest)

def matches? (p : Pattern) (text : String) : Bool := !(p text.toList).isEmpty

end Pattern

open Pattern

/-- What follows the command prefix, when the text starts with it as a word. -/
def afterPrefix (fold : Char → Char) (commandPrefix text : String) : Option String :=
  ((word fold commandPrefix text.toList).find? fun rest =>
    rest.isEmpty || rest.head?.any isSpace).map fun rest => String.ofList (trimStart rest)

def isStatus (fold : Char → Char) (command : String) : Bool :=
  (seq (words fold ["статус","как там","чё там","че там","status"])
    (alt [charIf isSpace,eoi,charIf (· = '?')])).matches? command

def isStop (fold : Char → Char) (command : String) : Bool :=
  (seq (words fold ["стоп","отмени","cancel","stop"]) (alt [charIf isSpace,eoi])).matches? command

def isCorrect (fold : Char → Char) (command : String) : Bool :=
  (seq (words fold ["исправь","поправь","correct"]) (alt [charIf isSpace,eoi])).matches? command

def isDigit (c : Char) : Bool := 48 ≤ c.toNat && c.toNat ≤ 57

def isTagChar (c : Char) : Bool :=
  isDigit c || (65 ≤ c.toNat && c.toNat ≤ 90) || (97 ≤ c.toNat && c.toNat ≤ 122) || c = '_' || c = '-'

/-- The first `#tag` of a command. -/
def taskTag (command : String) : Option String := go command.toList
where
  go : List Char → Option String
  | [] => none
  | c :: cs =>
    let tag := cs.takeWhile isTagChar
    if c = '#' ∧ tag ≠ [] then some (String.ofList tag) else go cs

/-- The command with every `#tag` removed. -/
def withoutTags (command : String) : String := trim (String.ofList (go false command.toList))
where
  go : Bool → List Char → List Char
  | _,[] => []
  | inTag,c :: cs =>
    if inTag && isTagChar c then go true cs
    else if c = '#' ∧ cs.head?.any isTagChar then go true cs
    else c :: go false cs

def numeral? (s : String) : Option Nat :=
  if s.toList ≠ [] ∧ s.toList.all isDigit then
    some (s.toList.foldl (fun n c => 10 * n + (c.toNat - 48)) 0)
  else none

def saysHere (fold : Char → Char) (directive : String) : Bool :=
  (alt [all [words fold ["--","—","–"],word fold "here",alt [charIf isSpace,eoi]],
    all [words fold ["ответь здесь","reply here"],opt spaces,word fold ":"]]).matches? directive

def saysOrigin (fold : Char → Char) (directive : String) : Bool :=
  (alt [all [words fold ["--","—","–"],word fold "origin",alt [charIf isSpace,eoi]],
    all [alt [word fold "в исходный чат",all [word fold "to ",opt (word fold "the "),word fold "origin",
      opt (word fold "al"),word fold " chat"]],opt spaces,word fold ":"]]).matches? directive

/-- Complete cadence amendments only; this never interprets approval or external-send requests. -/
def isCadenceFollowup (fold : Char → Char) (command : String) : Bool :=
  if utf16Length command > 256 then false else
  let digit := charIf isDigit
  let mark := opt (charIf fun c => c = '.' || c = '!')
  (all [
    opt (all [opt (seq (word fold "давай") spaces),word fold "только",spaces,word fold "эт",
      opt (word fold "о"),mark,opt spaces]),
    opt (seq (words fold ["проверяй","проверять","сводку","сводка","обновляй","обновлять"]) spaces),
    word fold "раз",spaces,word fold "в",spaces,
    alt [words fold ["пару","два","две","три","четыре","пять","шесть"],all [digit,opt digit,opt digit]],
    spaces,
    alt [seq (word fold "час") (opt (words fold ["а","ов"])),
      seq (word fold "минут") (opt (words fold ["у","ы"])),
      seq (word fold "дн") (words fold ["я","ей"])],
    mark,eoi]).matches? (trim command)

/-! ## Quoted authority -/

inductive SpanKind where
  | quote
  | code
  | other
  deriving DecidableEq

/-- A native entity span, in UTF-16 code units. -/
structure TextSpan where
  offset : Int
  length : Int
  kind : SpanKind
  deriving DecidableEq

def TextSpan.covers (span : TextSpan) (offset : Nat) : Bool :=
  span.offset ≤ offset && (offset : Int) < span.offset + span.length

/-- Malformed provenance has no ranges and fails closed. -/
def ranges (spans : Option (List TextSpan)) (text : Option String) : Option (List TextSpan) :=
  match spans with
  | none => some []
  | some spans =>
    let length := utf16Length (text.getD "")
    if spans.any fun s => s.offset < 0 || s.length ≤ 0 || s.offset + s.length > length || s.kind = .other
    then none else some spans

/-- Offset of the first character that is not white space, and the text from there. -/
def firstInk : List Char → Nat → Option (Nat × List Char)
  | [],_ => none
  | c :: cs,offset =>
    if isSpace c then firstInk cs (offset + (utf16 c).length) else some (offset,c :: cs)

/-- Ordinary analysis may include quoted material, but the command itself must begin outside it. -/
def beginsWithQuotedCommand (spans : Option (List TextSpan)) (text : Option String)
    (commandPrefix : String) : Bool :=
  match ranges spans text with
  | none => true
  | some spans =>
    match firstInk (text.getD "").toList 0 with
    | none => false
    | some (offset,rest) =>
      if spans.any (·.covers offset) then true
      else match commandPrefix.toList.isPrefixOf rest,rest.drop commandPrefix.toList.length with
        | true,[] => false
        | true,c :: cs =>
          if isSpace c then
            match firstInk (c :: cs) (offset + utf16Length commandPrefix) with
            | none => false
            | some (content,_) => spans.any (·.covers content)
          else false
        | false,_ => false

/-! ## Delivery text -/

def splitParts (limit : Nat) : List Char → List Char → Nat → List String
  | [],part,_ => if part.isEmpty then [] else [String.ofList part.reverse]
  | c :: cs,part,length =>
    if length + (utf16 c).length > limit then
      String.ofList part.reverse :: splitParts limit cs [c] (utf16 c).length
    else splitParts limit cs (c :: part) (length + (utf16 c).length)

def deliveryParts (text : String) (limit : Nat) : List String := splitParts limit text.toList [] 0

end Neurobro.Agent
