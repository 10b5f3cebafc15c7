import Neurobro.Agent.Text

/-! Complete, direct commands of the owner. A text as a whole is one of them or none;
who wrote it and what it answers is established elsewhere. -/
namespace Neurobro.OwnerControls

open Agent (Pattern trimStart trimChars isDigit isTagChar isSpace)
open Agent.Pattern

inductive SourceCommand where
  | observe
  | read
  | unsubscribe
  deriving DecidableEq

inductive DirectOwnerDirective where
  | source (kind : SourceCommand) (selectors : List String) (forwardedSource : Bool := false)
  | approve (proposalId : Option String) (selectedIds : Option (List String))
  | reject (proposalId : Option String)
  deriving DecidableEq

def maxInputLength : Nat := 4096
def maxSelectors : Nat := 32

/-- Control and format characters, which no command may hold. -/
def hidden (c : Char) : Bool :=
  let n := c.toNat
  n ≤ 0x1f || (0x7f ≤ n && n ≤ 0x9f) || n = 0xad || (0x200b ≤ n && n ≤ 0x200f) ||
    (0x2028 ≤ n && n ≤ 0x202e) || (0x2060 ≤ n && n ≤ 0x206f) || n = 0xfeff

def isLetter (c : Char) : Bool := (65 ≤ c.toNat && c.toNat ≤ 90) || (97 ≤ c.toNat && c.toNat ≤ 122)

/-- One or more spaces. -/
def blanks : Pattern
  | c :: cs => if c = ' ' then cs :: blanks cs else []
  | [] => []

def dropBlanks (cs : List Char) : List Char := cs.dropWhile (· = ' ')

/-- An identifier is read to its end: nothing that may follow it is part of one. -/
def ident (cs : List Char) : Option (String × List Char) :=
  let taken := cs.takeWhile isTagChar
  if taken.head?.any (fun c => isLetter c || isDigit c) && taken.length ≤ 64 then
    some (String.ofList taken,cs.drop taken.length)
  else none

section patterns

-- how characters compare when case is ignored, and lower case
variable (fold : Char → Char) (lower : String → String)

/-! ## Selectors -/

def site : Pattern := seq (opt (word fold "https://")) (word fold "t.me/")

/-- The end of a selector, with at most one slash. -/
def closes (rest : List Char) : Bool := rest.isEmpty || rest = ['/']

def publicSelector (token : String) : Option String :=
  (alt [word fold "@",site fold] token.toList).findSome? fun rest =>
    let name := rest.takeWhile fun c => isLetter c || isDigit c || c = '_'
    if name.head?.any isLetter && 4 ≤ name.length && name.length ≤ 32 && closes (rest.drop name.length) then
      some (String.ofList name)
    else none

/-- A positive decimal of at most twenty digits. -/
def postNumber (cs : List Char) : Option (String × List Char) :=
  let digits := cs.takeWhile isDigit
  if digits.head?.any (· ≠ '0') && digits.length ≤ 20 then some (String.ofList digits,cs.drop digits.length)
  else none

def privatePostSelector (token : String) : Option String :=
  (seq (site fold) (word fold "c/") token.toList).findSome? fun rest =>
    (postNumber rest).bind fun chat =>
      if chat.2.head? = some '/' then
        (postNumber chat.2.tail).bind fun post =>
          if closes post.2 then some ("https://t.me/c/" ++ chat.1 ++ "/" ++ post.1) else none
      else none

/-- A slash may end a link, but never a bare username. -/
def parseSelector (token : String) : Option String :=
  if token.toList.head? = some '@' && token.toList.getLast? = some '/' then none
  else ((publicSelector fold token).map fun name => "@" ++ name).or (privatePostSelector fold token)

/-! ## Commands -/

def namesThisSource (command : List Char) : Bool :=
  !(seq (words fold ["наблюдай этот источник","monitor this source","watch this source"]) eoi command).isEmpty

def sourceVerbs : List String :=
  ["наблюдай","monitor","watch","читай","read","перестань наблюдать","unsubscribe"]

/-- The verb as it was written, and what follows the spaces after it. -/
def sourceCommand (command : List Char) : Option (String × List Char) :=
  (words fold sourceVerbs command).findSome? fun rest =>
    if rest.head? = some ' ' && !(dropBlanks rest).isEmpty then
      some (String.ofList (command.take (command.length - rest.length)),dropBlanks rest)
    else none

def verbKind (verb : String) : SourceCommand :=
  if lower verb = "читай" || lower verb = "read" then .read
  else if lower verb = "перестань наблюдать" || lower verb = "unsubscribe" then .unsubscribe
  else .observe

/-- The pieces between runs of spaces, of a text that neither begins nor ends with one. -/
def tokens (cs : List Char) : List String := ((cs.splitOn ' ').filter (· ≠ [])).map String.ofList

def selectSources (verb : String) (body : List Char) : Option DirectOwnerDirective :=
  let selectors := (tokens body).map (parseSelector fold)
  if (tokens body).length > maxSelectors || selectors.contains none then none
  else some (.source (verbKind lower verb) (selectors.filterMap id).eraseDups)

/-- An optional `#id`. -/
def taggedId (cs : List Char) : List (Option String × List Char) :=
  (blanks cs).filterMap (fun rest =>
    if rest.head? = some '#' then (ident rest.tail).map fun found => (some found.1,found.2) else none) ++
    [(none,cs)]

/-- Further identifiers, each after a comma. -/
def moreIds : Nat → List Char → List String × List Char
  | 0,cs => ([],cs)
  | fuel + 1,cs =>
    if (dropBlanks cs).head? = some ',' then
      match ident (dropBlanks (dropBlanks cs).tail) with
      | some found =>
        let rest := moreIds fuel found.2
        (found.1 :: rest.1,rest.2)
      | none => ([],cs)
    else ([],cs)

/-- An optional choice of recipients. -/
def selection (cs : List Char) : List (Option (List String) × List Char) :=
  (all [blanks,words fold ["только","only"],blanks] cs).filterMap (fun rest =>
    (ident rest).map fun first =>
      let more := moreIds first.2.length first.2
      (some (first.1 :: more.1),more.2)) ++ [(none,cs)]

def approvalWords : Pattern :=
  alt [all [word fold "да",opt (all [word fold ",",blanks,word fold "делай"])],
    words fold ["ага","ок","давай","подтверждаю","подтвердить","approve","yes"]]

def approval (command : List Char) : Option (Option String × Option (List String)) :=
  (approvalWords fold command).findSome? fun rest =>
    (taggedId rest).findSome? fun tag =>
      (selection fold tag.2).findSome? fun chosen =>
        if chosen.2.isEmpty || chosen.2 = ['.'] then some (tag.1,chosen.1) else none

def rejection (command : List Char) : Option (Option String) :=
  (words fold ["нет","отклонить","отклоняю","reject","no"] command).findSome? fun rest =>
    (taggedId rest).findSome? fun tag => if tag.2.isEmpty then some tag.1 else none

/-- What is left of a text without its command prefix. -/
def commandText (text : String) : List Char :=
  let command := trimChars text.toList
  match word fold "/бро " command with
  | rest :: _ => trimStart rest
  | [] => command

def tooMany (ids : List String) : Bool := ids.length > maxSelectors || !decide ids.Nodup

def decide? (command : List Char) : Option DirectOwnerDirective :=
  match approval fold command with
  | some found => if found.2.any tooMany then none else some (.approve found.1 found.2)
  | none => (rejection fold command).map .reject

def parseOwnerDirective (text : String) : Option DirectOwnerDirective :=
  if utf16Length text > maxInputLength || text.toList.any hidden then none
  else
    let command := commandText fold text
    if command.isEmpty then none
    else if namesThisSource fold command then some (.source .observe [] true)
    else match sourceCommand fold command with
      | some found => selectSources fold lower found.1 found.2
      | none => decide? fold command

end patterns

/-! ## Quoted text -/

/-- Something other than white space lies in a range of code units. -/
def inked (first last : Int) : List Char → Nat → Bool
  | [],_ => false
  | c :: cs,offset =>
    let next := offset + (utf16 c).length
    (!isSpace c && decide ((offset : Int) < last) && decide (first < next)) || inked first last cs next

/-- Complete authority directives may not incorporate any native quoted or code text. -/
def hasQuotedAuthorityText (spans : Option (List Agent.TextSpan)) (text : Option String) : Bool :=
  match Agent.ranges spans text with
  | none => true
  | some spans => spans.any fun span => inked span.offset (span.offset + span.length) (text.getD "").toList 0

example : parseOwnerDirective id id "approve #p-1 only a, b." = some (.approve (some "p-1") (some ["a","b"])) := by
  decide +kernel

example : parseOwnerDirective id id "/бро read @alpha  t.me/bravo/" = some (.source .read ["@alpha","@bravo"]) := by
  decide +kernel

end Neurobro.OwnerControls
