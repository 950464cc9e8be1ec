import Vetting.Decimal.Literal
import Vetting.Json.Basic

/-! Reading documents: a text is cut into tokens, and the tokens build up the value. -/

namespace Vetting

/-- A whole number that a document can hold stays one; minus zero, and every numeral with a point
or an exponent, is a double. -/
def Number.ofLiteral (l : Decimal.Literal) : Number :=
  match l.toInt? with
  | some n =>
    if Number.inRange n && !(l.negative && l.digits = 0) then .integer n else .double l.toDouble
  | none => .double l.toDouble

namespace Json

inductive Token where
  | openArray
  | closeArray
  | openObject
  | closeObject
  | comma
  | colon
  | text (value : String)
  | word (letters : List Char)

/-- Where the lexer stands. What has been seen of a token is kept last character first; a text also
keeps the first half of a surrogate pair until the second has come. -/
inductive Lexing where
  | between
  | word (seen : List Char)
  | text (seen : List Char) (half : Option Nat)
  | escape (seen : List Char) (half : Option Nat)
  | code (seen : List Char) (half : Option Nat) (missing : Nat) (value : Nat)

def hexDigit? (c : Char) : Option Nat :=
  if '0' ≤ c && c ≤ '9' then some (c.toNat - '0'.toNat)
  else if 'a' ≤ c && c ≤ 'f' then some (c.toNat - 'a'.toNat + 10)
  else if 'A' ≤ c && c ≤ 'F' then some (c.toNat - 'A'.toNat + 10)
  else none

def punctuation? : Char → Option Token
  | '[' => some .openArray
  | ']' => some .closeArray
  | '\x7b' => some .openObject
  | '\x7d' => some .closeObject
  | ',' => some .comma
  | ':' => some .colon
  | _ => none

def escaped? : Char → Option Char
  | '"' => some '"'
  | '\\' => some '\\'
  | '/' => some '/'
  | 'b' => some '\x08'
  | 'f' => some '\x0c'
  | 'n' => some '\n'
  | 'r' => some '\r'
  | 't' => some '\t'
  | _ => none

def isSpace (c : Char) : Bool := c = ' ' || c = '\n' || c = '\r' || c = '\t'

def wordOf (seen : List Char) : Token := .word seen.reverse

/-- A UTF-16 unit completes a pair, opens one, or stands alone. -/
def Lexing.unit (seen : List Char) (half : Option Nat) (value : Nat) : Option Lexing :=
  match half with
  | some high =>
    if 0xdc00 ≤ value && value < 0xe000 then
      some (.text (Char.ofNat (0x10000 + (high - 0xd800) * 0x400 + (value - 0xdc00)) :: seen) none)
    else none
  | none =>
    if 0xd800 ≤ value && value < 0xdc00 then some (.text seen (some value))
    else if 0xdc00 ≤ value && value < 0xe000 then none
    else some (.text (Char.ofNat value :: seen) none)

def Lexing.step (mode : Lexing) (c : Char) : Option (List Token × Lexing) :=
  match mode with
  | between =>
    if isSpace c then some ([], between)
    else if c = '"' then some ([], text [] none)
    else match punctuation? c with
      | some t => some ([t], between)
      | none => some ([], word [c])
  | word seen =>
    if isSpace c then some ([wordOf seen], between)
    else if c = '"' then none
    else match punctuation? c with
      | some t => some ([wordOf seen, t], between)
      | none => some ([], word (c :: seen))
  | text seen half =>
    if c = '\\' then some ([], escape seen half)
    else if half.isSome || c < ' ' then none
    else if c = '"' then some ([.text (String.ofList seen.reverse)], between)
    else some ([], text (c :: seen) none)
  | escape seen half =>
    if c = 'u' then some ([], code seen half 3 0)
    else if half.isSome then none
    else (escaped? c).map fun d => ([], text (d :: seen) none)
  | code seen half missing value =>
    match hexDigit? c, missing with
    | none, _ => none
    | some d, 0 => (Lexing.unit seen half (16 * value + d)).map ([], ·)
    | some d, m + 1 => some ([], code seen half m (16 * value + d))

def tokens? : Lexing → List Char → Option (List Token)
  | .between, [] => some []
  | .word seen, [] => some [wordOf seen]
  | _, [] => none
  | mode, c :: cs =>
    match mode.step c with
    | none => none
    | some (ts, mode) => (tokens? mode cs).map (ts ++ ·)

def ofWord? (letters : List Char) : Option Json :=
  if letters = ['n', 'u', 'l', 'l'] then some null
  else if letters = ['t', 'r', 'u', 'e'] then some (bool true)
  else if letters = ['f', 'a', 'l', 's', 'e'] then some (bool false)
  else (Decimal.Literal.ofChars? letters).map fun l => number (Number.ofLiteral l)

inductive Frame where
  | array (items : List Json)
  | object (members : List (String × Json)) (name : String)

inductive Awaiting where
  | value
  | valueOrClose
  | name (members : List (String × Json))
  | nameOrClose
  | colon (members : List (String × Json)) (name : String)
  | next
  | done (value : Json)

structure Building where
  frames : List Frame
  awaiting : Awaiting

namespace Building

def start : Building := ⟨[], .value⟩

def give (frames : List Frame) (value : Json) : Building :=
  match frames with
  | [] => ⟨[], .done value⟩
  | .array items :: outer => ⟨.array (value :: items) :: outer, .next⟩
  | .object members name :: outer => ⟨.object ((name, value) :: members) name :: outer, .next⟩

def value (frames : List Frame) : Token → Option Building
  | .openArray => some ⟨.array [] :: frames, .valueOrClose⟩
  | .openObject => some ⟨frames, .nameOrClose⟩
  | .text s => some (give frames (Json.text s))
  | .word letters => (ofWord? letters).map (give frames)
  | _ => none

def step (b : Building) (t : Token) : Option Building :=
  match b.awaiting, t, b.frames with
  | .valueOrClose, .closeArray, .array items :: outer => some (give outer (array items.reverse))
  | .valueOrClose, t, frames => value frames t
  | .value, t, frames => value frames t
  | .nameOrClose, .closeObject, frames => some (give frames (object []))
  | .nameOrClose, .text s, frames => some ⟨frames, .colon [] s⟩
  | .name members, .text s, frames => some ⟨frames, .colon members s⟩
  | .colon members name, .colon, frames => some ⟨.object members name :: frames, .value⟩
  | .next, .comma, .array items :: outer => some ⟨.array items :: outer, .value⟩
  | .next, .closeArray, .array items :: outer => some (give outer (array items.reverse))
  | .next, .comma, .object members _ :: outer => some ⟨outer, .name members⟩
  | .next, .closeObject, .object members _ :: outer => some (give outer (ofMembers members.reverse))
  | _, _, _ => none

def result? (b : Building) : Option Json :=
  match b.awaiting with
  | .done value => some value
  | _ => none

end Building

def ofString? (s : String) : Option Json := do
  let ts ← tokens? .between s.toList
  let b ← ts.foldlM Building.step Building.start
  b.result?

end Json

end Vetting
