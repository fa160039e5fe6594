import CfdiVault.Library.Dictionary
import CfdiVault.Library.JsonWriter

/-!
# The decoder

`json.loads` on a text of code points, as a machine that takes one code point at a time: what is open
stands on a stack, the innermost value first, and the mode says what may come next.  A key that comes
again replaces the value of the first.  Two escapes that spell a pair of surrogates are one character;
any other escaped surrogate stands by itself.
-/

namespace CfdiVault

namespace JsonReader

/-- Why a text is refused: a `JSONDecodeError` with its message, or the `ValueError` of an integer
with too many digits. -/
inductive Fault where
  | decode (message : String)
  | digits
  deriving DecidableEq

/-- An array or an object that is open, with what has been read of it. -/
inductive Frame where
  | arr (items : List Document)
  | obj (members : Members)
  | member (members : Members) (key : CodeText)

/-- How much of a number has been read. -/
inductive Phase where
  | minus
  | zero
  | whole
  | point
  | fraction
  | exponent
  | sign
  | power
  deriving DecidableEq

/-- What comes next.  A string knows the high surrogate that an escape has just put at its end, and an
escape the digits that are missing. -/
inductive Mode where
  | value (first : Bool)
  | key (first : Bool)
  | colon (key : CodeText)
  | string (isKey : Bool) (read : CodeText) (high : Option Nat)
  | escape (isKey : Bool) (read : CodeText) (high : Option Nat)
  | unit (isKey : Bool) (read : CodeText) (high : Option Nat) (missing : Nat) (unit : Nat)
  | literal (rest : List Char) (result : Document)
  | number (phase : Phase) (text : List Char)
  | after
  | done (result : Document)

structure Reader where
  stack : List Frame
  mode : Mode

/-- The reader in front of a text. -/
def Reader.start : Reader := ⟨[], .value false⟩

def isBlank (c : Char) : Bool := c == ' ' || c == '\t' || c == '\n' || c == '\r'

def isDigit (c : Char) : Bool := '0' ≤ c && c ≤ '9'

/-- The reader behind a value. -/
def complete (value : Document) : List Frame → Reader
  | [] => ⟨[], .done value⟩
  | .arr items :: stack => ⟨.arr (items ++ [value]) :: stack, .after⟩
  | .obj members :: stack => ⟨.obj members :: stack, .after⟩
  | .member members key :: stack => ⟨.obj (Dictionary.assign members key value) :: stack, .after⟩

/-- The reader behind a string. -/
def completeString (isKey : Bool) (text : CodeText) (stack : List Frame) : Reader :=
  if isKey then ⟨stack, .colon text⟩ else complete (.str text) stack

/-! ## Numbers -/

/-- The phase that a character brings a number to. -/
def advance : Phase → Char → Option Phase
  | .minus, c => if c = '0' then some .zero else if isDigit c then some .whole else none
  | .zero, c => if c = '.' then some .point else if c = 'e' ∨ c = 'E' then some .exponent else none
  | .whole, c =>
      if isDigit c then some .whole
      else if c = '.' then some .point
      else if c = 'e' ∨ c = 'E' then some .exponent
      else none
  | .point, c => if isDigit c then some .fraction else none
  | .fraction, c => if isDigit c then some .fraction else if c = 'e' ∨ c = 'E' then some .exponent else none
  | .exponent, c => if isDigit c then some .power else if c = '+' ∨ c = '-' then some .sign else none
  | .sign, c => if isDigit c then some .power else none
  | .power, c => if isDigit c then some .power else none

/-- The phase of a number that begins with a character. -/
def firstPhase (c : Char) : Option Phase :=
  if c = '-' then some .minus else if c = '0' then some .zero else if isDigit c then some .whole else none

/-- The integer of a text of digits with a sign or none. -/
def intOf : List Char → Int
  | '-' :: digits => -(Nat.ofDigitChars 10 digits 0 : Int)
  | digits => Nat.ofDigitChars 10 digits 0

/-- The number of digits of an integer's text. -/
def countDigits : List Char → Nat
  | '-' :: digits => digits.length
  | digits => digits.length

/-- What is said of something else than a comma behind a value. -/
def delimiterFault (stack : List Frame) : Fault :=
  .decode (if stack.isEmpty then "Extra data" else "Expecting ',' delimiter")

/-- The value of a number that ends. -/
def finishNumber (host : JsonHost) (stack : List Frame) (phase : Phase) (text : List Char) :
    Except Fault Document :=
  match phase with
  | .zero | .whole => if countDigits text ≤ host.maxDigits then .ok (.int (intOf text)) else .error .digits
  | .fraction | .power => .ok (.float (host.floatText text))
  | .minus => .error (.decode "Expecting value")
  | .point | .exponent | .sign => .error (delimiterFault stack)

/-! ## Strings -/

def hexDigit? (c : Char) : Option Nat :=
  if isDigit c then some (c.toNat - 48)
  else if 'a' ≤ c ∧ c ≤ 'f' then some (c.toNat - 87)
  else if 'A' ≤ c ∧ c ≤ 'F' then some (c.toNat - 55)
  else none

def isHigh (unit : Nat) : Bool := 0xD800 ≤ unit && unit < 0xDC00

def isLow (unit : Nat) : Bool := 0xDC00 ≤ unit && unit < 0xE000

/-- The string behind an escaped code unit, which may complete a pair of surrogates. -/
def pushUnit (isKey : Bool) (read : CodeText) (high : Option Nat) (unit : Nat) : Mode :=
  if isLow unit then
    match high with
    | some first => .string isKey
        (read.dropLast ++ [.scalar (Char.ofNat (0x10000 + (first - 0xD800) * 1024 + (unit - 0xDC00)))]) none
    | none => .string isKey (read ++ [.surrogate (Fin.ofNat 2048 (unit - 0xD800))]) none
  else if isHigh unit then .string isKey (read ++ [.surrogate (Fin.ofNat 2048 (unit - 0xD800))]) (some unit)
  else .string isKey (read ++ [.scalar (Char.ofNat unit)]) none

/-- The character that a letter behind a backslash stands for. -/
def unescape? (c : Char) : Option Char :=
  if c = '"' then some '"'
  else if c = '\\' then some '\\'
  else if c = '/' then some '/'
  else if c = 'b' then some (Char.ofNat 8)
  else if c = 'f' then some (Char.ofNat 12)
  else if c = 'n' then some '\n'
  else if c = 'r' then some '\r'
  else if c = 't' then some '\t'
  else none

/-! ## Steps -/

/-- The literals that begin with a letter. -/
def literal? (c : Char) : Option (List Char × Document) :=
  if c = 'n' then some ("ull".toList, .null)
  else if c = 't' then some ("rue".toList, .bool true)
  else if c = 'f' then some ("alse".toList, .bool false)
  else if c = 'N' then some ("aN".toList, .float "NaN".toList)
  else if c = 'I' then some ("nfinity".toList, .float "Infinity".toList)
  else none

/-- Where a value is expected. -/
def stepValue (stack : List Frame) (first : Bool) (c : Char) : Except Fault Reader :=
  if isBlank c then .ok ⟨stack, .value first⟩
  else if c = '"' then .ok ⟨stack, .string false [] none⟩
  else if c = '\x7b' then .ok ⟨.obj [] :: stack, .key true⟩
  else if c = '[' then .ok ⟨.arr [] :: stack, .value true⟩
  else if c = ']' ∧ first then
    match stack with
    | .arr items :: rest => .ok (complete (.arr items) rest)
    | _ => .error (.decode "Expecting value")
  else
    match literal? c, firstPhase c with
    | some (rest, result), _ => .ok ⟨stack, .literal rest result⟩
    | none, some phase => .ok ⟨stack, .number phase [c]⟩
    | none, none => .error (.decode "Expecting value")

/-- Where a key is expected. -/
def stepKey (stack : List Frame) (first : Bool) (c : Char) : Except Fault Reader :=
  if isBlank c then .ok ⟨stack, .key first⟩
  else if c = '"' then .ok ⟨stack, .string true [] none⟩
  else if c = '\x7d' ∧ first then
    match stack with
    | .obj members :: rest => .ok (complete (.obj members) rest)
    | _ => .error (.decode "Expecting property name enclosed in double quotes")
  else .error (.decode "Expecting property name enclosed in double quotes")

/-- Behind a key. -/
def stepColon (stack : List Frame) (key : CodeText) (c : Char) : Except Fault Reader :=
  if isBlank c then .ok ⟨stack, .colon key⟩
  else if c = ':' then
    match stack with
    | .obj members :: rest => .ok ⟨.member members key :: rest, .value false⟩
    | _ => .error (.decode "Expecting ':' delimiter")
  else .error (.decode "Expecting ':' delimiter")

/-- Behind a value. -/
def stepAfter (r : Reader) (c : Char) : Except Fault Reader :=
  if isBlank c then .ok r
  else
    match r.stack with
    | .arr items :: rest =>
        if c = ',' then .ok ⟨.arr items :: rest, .value false⟩
        else if c = ']' then .ok (complete (.arr items) rest)
        else .error (delimiterFault r.stack)
    | .obj members :: rest =>
        if c = ',' then .ok ⟨.obj members :: rest, .key false⟩
        else if c = '\x7d' then .ok (complete (.obj members) rest)
        else .error (delimiterFault r.stack)
    | _ => .error (delimiterFault r.stack)

/-- In a number, which ends where a character does not belong to it. -/
def stepNumber (host : JsonHost) (stack : List Frame) (phase : Phase) (text : List Char) (c : Char) :
    Except Fault Reader :=
  match advance phase c with
  | some next => .ok ⟨stack, .number next (text ++ [c])⟩
  | none =>
      if phase = .minus ∧ c = 'I' then .ok ⟨stack, .literal "nfinity".toList (.float "-Infinity".toList)⟩
      else do
        let value ← finishNumber host stack phase text
        stepAfter (complete value stack) c

/-- One character. -/
def stepChar (host : JsonHost) (r : Reader) (c : Char) : Except Fault Reader :=
  match r.mode with
  | .value first => stepValue r.stack first c
  | .key first => stepKey r.stack first c
  | .colon key => stepColon r.stack key c
  | .string isKey read high =>
      if c = '"' then .ok (completeString isKey read r.stack)
      else if c = '\\' then .ok ⟨r.stack, .escape isKey read high⟩
      else if c.toNat < 32 then .error (.decode "Invalid control character at")
      else .ok ⟨r.stack, .string isKey (read ++ [.scalar c]) none⟩
  | .escape isKey read high =>
      if c = 'u' then .ok ⟨r.stack, .unit isKey read high 4 0⟩
      else
        match unescape? c with
        | some d => .ok ⟨r.stack, .string isKey (read ++ [.scalar d]) none⟩
        | none => .error (.decode "Invalid \\escape")
  | .unit isKey read high missing unit =>
      match hexDigit? c with
      | none => .error (.decode "Invalid \\uXXXX escape")
      | some digit =>
          if missing = 1 then .ok ⟨r.stack, pushUnit isKey read high (unit * 16 + digit)⟩
          else .ok ⟨r.stack, .unit isKey read high (missing - 1) (unit * 16 + digit)⟩
  | .literal [] result => stepAfter (complete result r.stack) c
  | .literal (d :: rest) result =>
      if c = d then .ok (if rest = [] then complete result r.stack else ⟨r.stack, .literal rest result⟩)
      else .error (.decode "Expecting value")
  | .number phase text => stepNumber host r.stack phase text c
  | .after | .done _ => stepAfter r c

/-- One code point: a surrogate stands in strings only. -/
def step (host : JsonHost) (r : Reader) : CodePoint → Except Fault Reader
  | .scalar c => stepChar host r c
  | .surrogate n =>
      match r.mode with
      | .string isKey read _ => .ok ⟨r.stack, .string isKey (read ++ [.surrogate n]) none⟩
      | .escape .. => .error (.decode "Invalid \\escape")
      | .unit .. => .error (.decode "Invalid \\uXXXX escape")
      | .key _ => .error (.decode "Expecting property name enclosed in double quotes")
      | .colon _ => .error (.decode "Expecting ':' delimiter")
      | .value _ | .literal .. => .error (.decode "Expecting value")
      | .number phase text => do
          let _ ← finishNumber host r.stack phase text
          .error (delimiterFault r.stack)
      | .after | .done _ => .error (delimiterFault r.stack)

/-- The code points of a text. -/
def run (host : JsonHost) (r : Reader) (text : CodeText) : Except Fault Reader := text.foldlM (step host) r

section Run

variable {host : JsonHost} {r r' : Reader} {text : CodeText}

theorem run_nil : run host r [] = .ok r := rfl

theorem run_cons {point : CodePoint} :
    run host r (point :: text) = step host r point >>= fun r' => run host r' text := List.foldlM_cons

theorem run_append {rest : CodeText} :
    run host r (text ++ rest) = run host r text >>= fun r' => run host r' rest := List.foldlM_append

/-- A text in two parts, of which the first has been read. -/
theorem run_append_of_ok {rest : CodeText} (h : run host r text = .ok r') :
    run host r (text ++ rest) = run host r' rest := by
  rw [run_append, h]
  rfl

theorem run_cons_of_ok {point : CodePoint} (h : step host r point = .ok r') :
    run host r (point :: text) = run host r' text := by
  rw [run_cons, h]
  rfl

end Run

/-- The document of a reader at the end of its text. -/
def finish (host : JsonHost) (r : Reader) : Except Fault Document :=
  match r.mode with
  | .done result => .ok result
  | .number phase text => do
      let value ← finishNumber host r.stack phase text
      if r.stack.isEmpty then .ok value else .error (delimiterFault r.stack)
  | .value _ | .literal .. => .error (.decode "Expecting value")
  | .key _ => .error (.decode "Expecting property name enclosed in double quotes")
  | .colon _ => .error (.decode "Expecting ':' delimiter")
  | .string .. | .escape .. => .error (.decode "Unterminated string starting at")
  | .unit .. => .error (.decode "Invalid \\uXXXX escape")
  | .after => .error (delimiterFault r.stack)

/-- `json.loads` -/
def loads (host : JsonHost) (text : CodeText) : Except Fault Document :=
  if text.head? = some (.scalar '\uFEFF') then
    .error (.decode "Unexpected UTF-8 BOM (decode using utf-8-sig)")
  else do
    let r ← run host .start text
    finish host r

end JsonReader

end CfdiVault
