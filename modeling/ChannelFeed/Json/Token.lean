namespace ChannelFeed.Json

/-- A part of a string literal: a character, or a code unit given by its number. -/
inductive Piece where
  | char (c : Char)
  | unit (code : Nat)
  deriving DecidableEq, Repr

/-- A number as it is written. -/
structure Numeral where
  negative : Bool
  whole : List Nat
  fraction : List Nat
  /-- The sign and the digits of the power of ten. -/
  power : Option (Bool × List Nat)
  deriving DecidableEq, Repr

/-- A lexeme. Literals keep their escaped code units and numbers their digits: what they stand for
is decided by whoever uses them, so that a member nobody reads is only checked for its form. -/
inductive Token where
  | openArray
  | closeArray
  | openObject
  | closeObject
  | comma
  | colon
  | null
  | bool (b : Bool)
  | text (pieces : List Piece)
  | number (n : Numeral)
  deriving DecidableEq, Repr

/-- How far a number has been read. -/
inductive NumeralPlace where
  | sign
  | zero
  | whole
  | point
  | fraction
  | mark
  | markSign
  | power
  deriving DecidableEq, Repr

/-- What the reader is in the middle of. Pieces are kept last first. -/
inductive Lexing where
  | between
  | word (rest : List Char) (token : Token)
  | text (done : List Piece)
  | escape (done : List Piece)
  | hex (done : List Piece) (value missing : Nat)
  | number (place : NumeralPlace) (n : Numeral)
  deriving DecidableEq, Repr

def digit? (c : Char) : Option Nat :=
  if '0' ≤ c ∧ c ≤ '9' then some (c.toNat - '0'.toNat) else none

def hexDigit? (c : Char) : Option Nat :=
  if '0' ≤ c ∧ c ≤ '9' then some (c.toNat - '0'.toNat)
  else if 'a' ≤ c ∧ c ≤ 'f' then some (c.toNat - 'a'.toNat + 10)
  else if 'A' ≤ c ∧ c ≤ 'F' then some (c.toNat - 'A'.toNat + 10)
  else none

/-- Space, tabulator, line feed and carriage return. -/
def isBlank (c : Char) : Bool := c = ' ' || c = '\t' || c = '\n' || c = '\r'

/-- The character behind a one-letter escape. -/
def escaped? (c : Char) : Option Char :=
  if c = '"' then some '"'
  else if c = '\\' then some '\\'
  else if c = '/' then some '/'
  else if c = 'b' then some (Char.ofNat 8)
  else if c = 'f' then some (Char.ofNat 12)
  else if c = 'n' then some '\n'
  else if c = 'r' then some '\r'
  else if c = 't' then some '\t'
  else none

/-- Starts a lexeme: the tokens it completes and what is read next. -/
def startToken (c : Char) : Option (List Token × Lexing) :=
  if isBlank c then some ([], .between)
  else if c = '[' then some ([.openArray], .between)
  else if c = ']' then some ([.closeArray], .between)
  else if c = '\x7b' then some ([.openObject], .between)
  else if c = '\x7d' then some ([.closeObject], .between)
  else if c = ',' then some ([.comma], .between)
  else if c = ':' then some ([.colon], .between)
  else if c = '"' then some ([], .text [])
  else if c = 'n' then some ([], .word ['u', 'l', 'l'] .null)
  else if c = 't' then some ([], .word ['r', 'u', 'e'] (.bool true))
  else if c = 'f' then some ([], .word ['a', 'l', 's', 'e'] (.bool false))
  else if c = '-' then some ([], .number .sign ⟨true, [], [], none⟩)
  else (digit? c).map (fun d =>
    ([], .number (if d = 0 then .zero else .whole) ⟨false, [d], [], none⟩))

namespace Numeral

def pushWhole (n : Numeral) (d : Nat) : Numeral := { n with whole := n.whole ++ [d] }

def pushFraction (n : Numeral) (d : Nat) : Numeral := { n with fraction := n.fraction ++ [d] }

/-- Adds a digit to the power of ten, which is positive unless a sign said otherwise. -/
def pushPower (n : Numeral) (d : Nat) : Numeral :=
  match n.power with
  | none => { n with power := some (false, [d]) }
  | some (negative, digits) => { n with power := some (negative, digits ++ [d]) }

end Numeral

/-- Goes on with a number; at a character that is no part of it the number is complete. -/
def stepNumber (place : NumeralPlace) (n : Numeral) (c : Char) : Option (List Token × Lexing) :=
  let complete := (startToken c).map (fun (tokens, next) => (.number n :: tokens, next))
  let afterWhole :=
    if c = '.' then some ([], .number .point n)
    else if c = 'e' || c = 'E' then some ([], .number .mark n)
    else complete
  match place, digit? c with
  | .sign, some d => some ([], .number (if d = 0 then .zero else .whole) (n.pushWhole d))
  | .sign, none => none
  | .zero, _ => afterWhole
  | .whole, some d => some ([], .number .whole (n.pushWhole d))
  | .whole, none => afterWhole
  | .point, some d => some ([], .number .fraction (n.pushFraction d))
  | .point, none => none
  | .fraction, some d => some ([], .number .fraction (n.pushFraction d))
  | .fraction, none => if c = 'e' || c = 'E' then some ([], .number .mark n) else complete
  | .mark, some d => some ([], .number .power (n.pushPower d))
  | .mark, none =>
    if c = '+' then some ([], .number .markSign { n with power := some (false, []) })
    else if c = '-' then some ([], .number .markSign { n with power := some (true, []) })
    else none
  | .markSign, some d => some ([], .number .power (n.pushPower d))
  | .markSign, none => none
  | .power, some d => some ([], .number .power (n.pushPower d))
  | .power, none => complete

/-- One character: the tokens it completes and what is read next. -/
def stepToken : Lexing → Char → Option (List Token × Lexing)
  | .between, c => startToken c
  | .word [] token, c => (startToken c).map (fun (tokens, next) => (token :: tokens, next))
  | .word (expected :: rest) token, c => if c = expected then some ([], .word rest token) else none
  | .text done, c =>
    if c = '"' then some ([.text done.reverse], .between)
    else if c = '\\' then some ([], .escape done)
    else if c.toNat < 32 then none
    else some ([], .text (.char c :: done))
  | .escape done, c =>
    if c = 'u' then some ([], .hex done 0 4)
    else (escaped? c).map (fun e => ([], .text (.char e :: done)))
  | .hex done value missing, c =>
    (hexDigit? c).map (fun d =>
      if missing ≤ 1 then ([], .text (.unit (16 * value + d) :: done))
      else ([], .hex done (16 * value + d) (missing - 1)))
  | .number place n, c => stepNumber place n c

/-- What the end of the text completes. -/
def finishToken : Lexing → Option (List Token)
  | .between => some []
  | .word [] token => some [token]
  | .number .zero n => some [.number n]
  | .number .whole n => some [.number n]
  | .number .fraction n => some [.number n]
  | .number .power n => some [.number n]
  | _ => none

def tokensFrom : Lexing → List Char → Option (List Token)
  | lexing, [] => finishToken lexing
  | lexing, c :: rest => do
    let (tokens, next) ← stepToken lexing c
    let more ← tokensFrom next rest
    some (tokens ++ more)

/-- The lexemes of a whole text, if it consists of lexemes. -/
def tokens? (text : List Char) : Option (List Token) := tokensFrom .between text

/-- The characters of a literal; a surrogate has to have its partner. -/
def decode? : List Piece → Option (List Char)
  | [] => some []
  | .char c :: rest => (decode? rest).map (c :: ·)
  | .unit high :: .unit low :: rest =>
    if 0xD800 ≤ high ∧ high < 0xDC00 then
      if 0xDC00 ≤ low ∧ low < 0xE000 then
        (decode? rest).map
          (Char.ofNat (0x10000 + (high - 0xD800) * 0x400 + (low - 0xDC00)) :: ·)
      else none
    else if 0xDC00 ≤ high ∧ high < 0xE000 then none
    else (decode? (.unit low :: rest)).map (Char.ofNat high :: ·)
  | .unit code :: rest =>
    if 0xD800 ≤ code ∧ code < 0xE000 then none
    else (decode? rest).map (Char.ofNat code :: ·)

end ChannelFeed.Json
