import OmarchyYolo.Lib.PyStr

/-!
# OmarchyYolo.Lib.Json — Python's `json` module

Values, the encoder (`json.dumps`) and the scanner (`JSONDecoder.raw_decode`),
as CPython computes them:

* objects are `dict`s: a repeated key overwrites the value and keeps the first
  position (`Members.put`);
* floats are a parameter (`PyFloat`) of which only the documented contract of
  `repr` and `float` is used;
* the scanner is strict, accepts `NaN`, `Infinity` and `-Infinity`, joins an
  escaped surrogate pair into one character and leaves a lone one alone.

The interpreter's own resource limits (recursion depth, digits of an integer)
are not modelled. Recursion is on fuel; `rawDecode` supplies more than the text
can use up.
-/

namespace PyJson

open Py

/-! ## Values -/

mutual

/-- A JSON value as Python holds it. -/
inductive Json (F : Type) where
  | null
  | bool (b : Bool)
  | int (n : Int)
  | float (x : F)
  | str (s : Str)
  | arr (xs : Elems F)
  | obj (ms : Members F)

/-- The elements of a `list`. -/
inductive Elems (F : Type) where
  | nil
  | cons (x : Json F) (xs : Elems F)

/-- The items of a `dict`, in insertion order. -/
inductive Members (F : Type) where
  | nil
  | cons (k : Str) (x : Json F) (ms : Members F)

end

deriving instance DecidableEq for Json

variable {F : Type}

instance [DecidableEq F] : DecidableEq (Members F) := fun a b =>
  decidable_of_iff (Json.obj a = Json.obj b) ⟨fun h => by injection h, fun h => by rw [h]⟩

/-- Induction on the elements alone, the values in them left whole. -/
@[induction_eliminator]
theorem Elems.listInduction {motive : Elems F → Prop} (nil : motive .nil)
    (cons : ∀ x xs, motive xs → motive (.cons x xs)) : ∀ xs, motive xs
  | .nil => nil
  | .cons x xs => cons x xs (Elems.listInduction nil cons xs)

/-- Induction on the members alone, the values in them left whole. -/
@[induction_eliminator]
theorem Members.listInduction {motive : Members F → Prop} (nil : motive .nil)
    (cons : ∀ k x ms, motive ms → motive (.cons k x ms)) : ∀ ms, motive ms
  | .nil => nil
  | .cons k x ms => cons k x ms (Members.listInduction nil cons ms)

/-- A list of values as elements. -/
def Elems.ofList : List (Json F) → Elems F
  | [] => .nil
  | x :: xs => .cons x (ofList xs)

/-- The elements as a list. -/
def Elems.toList : Elems F → List (Json F)
  | .nil => []
  | .cons x xs => x :: xs.toList

/-- A list of items as members. -/
def Members.ofList : List (Str × Json F) → Members F
  | [] => .nil
  | (k, x) :: ms => .cons k x (ofList ms)

/-- The keys, in order. -/
def Members.keys : Members F → List Str
  | .nil => []
  | .cons k _ ms => k :: ms.keys

/-- `dict.get(key)`. -/
def Members.get? (key : Str) : Members F → Option (Json F)
  | .nil => none
  | .cons k x ms => if k = key then some x else ms.get? key

/-- `d[key] = value`. -/
def Members.put (key : Str) (value : Json F) : Members F → Members F
  | .nil => .cons key value .nil
  | .cons k x ms => if k = key then .cons k value ms else .cons k x (ms.put key value)

mutual

/-- No object holds a key twice: what makes members a `dict`. -/
def Json.WF : Json F → Prop
  | .arr xs => xs.WF
  | .obj ms => ms.WF
  | _ => True

def Elems.WF : Elems F → Prop
  | .nil => True
  | .cons x xs => x.WF ∧ xs.WF

def Members.WF : Members F → Prop
  | .nil => True
  | .cons k x ms => k ∉ ms.keys ∧ x.WF ∧ ms.WF

end

/-! ## Floats -/

/-- The text of a float literal: sign, integer digits, fraction digits and
exponent part, at least one of the last two present. -/
structure FloatLit where
  neg : Bool
  whole : List Char
  frac : List Char
  exp : List Char

/-- `e` or `E`, a sign or none, and digits. -/
def IsExponent (t : List Char) : Prop :=
  ∃ e sign ds, t = e :: (sign ++ ds) ∧ (e = 'e' ∨ e = 'E') ∧
    (sign = [] ∨ sign = ['+'] ∨ sign = ['-']) ∧ ds ≠ [] ∧ ∀ c ∈ ds, c.isDigit = true

/-- The integer part of a number: no superfluous leading zero. -/
def IsWhole (ds : List Char) : Prop :=
  ds = ['0'] ∨ ∃ d ds', ds = d :: ds' ∧ d ≠ '0' ∧ ∀ c ∈ ds, c.isDigit = true

structure FloatLit.Valid (l : FloatLit) : Prop where
  whole : IsWhole l.whole
  frac : ∀ c ∈ l.frac, c.isDigit = true
  exp : l.exp = [] ∨ IsExponent l.exp
  float : l.frac ≠ [] ∨ l.exp ≠ []

def FloatLit.text (l : FloatLit) : List Char :=
  (if l.neg then ['-'] else []) ++ l.whole ++ (if l.frac = [] then [] else '.' :: l.frac) ++ l.exp

/-- What the codec needs of floats: `spell`, the text `json.dumps` writes, and
`float`, the value of a literal. Each float is one of the three non-finite ones
or is spelled by a literal that reads back as it. -/
class PyFloat (F : Type) where
  nan : F
  inf : F
  negInf : F
  spell : F → List Char
  float : FloatLit → F
  spelled : ∀ x, (x = nan ∧ spell x = "NaN".toList) ∨
    (x = inf ∧ spell x = "Infinity".toList) ∨ (x = negInf ∧ spell x = "-Infinity".toList) ∨
    ∃ l : FloatLit, l.Valid ∧ spell x = l.text ∧ float l = x

/-- The floats no literal spells: a codec for texts without float literals. -/
inductive NonFinite where
  | nan
  | inf
  | negInf
deriving DecidableEq, Repr

instance : PyFloat NonFinite where
  nan := .nan
  inf := .inf
  negInf := .negInf
  spell
    | .nan => "NaN".toList
    | .inf => "Infinity".toList
    | .negInf => "-Infinity".toList
  float _ := .nan
  spelled x := by cases x <;> simp

/-! ## Sorted keys -/

/-- An item at its place among sorted members. -/
def Members.insertSorted (k : Str) (x : Json F) : Members F → Members F
  | .nil => .cons k x .nil
  | .cons k' x' ms =>
    if strLe k k' then .cons k x (.cons k' x' ms) else .cons k' x' (ms.insertSorted k x)

mutual

/-- The value `json.dumps(..., sort_keys=True)` writes. -/
def Json.sortKeys : Json F → Json F
  | .arr xs => .arr xs.sortKeys
  | .obj ms => .obj ms.sortKeys
  | v => v

def Elems.sortKeys : Elems F → Elems F
  | .nil => .nil
  | .cons x xs => .cons x.sortKeys xs.sortKeys

def Members.sortKeys : Members F → Members F
  | .nil => .nil
  | .cons k x ms => ms.sortKeys.insertSorted k x.sortKeys

end

/-! ## Encoding -/

/-- The keyword arguments of `json.dumps` in use: `separators=(",", ":")`
(`compact`) instead of `(", ", ": ")`, and `ensure_ascii`. -/
structure Style where
  compact : Bool
  ensureAscii : Bool
deriving DecidableEq, Repr

/-- `json.dumps(value)` without keyword arguments. -/
def Style.default : Style := ⟨false, true⟩

def Style.itemSep (st : Style) : Str := if st.compact then lit "," else lit ", "

def Style.keySep (st : Style) : Str := if st.compact then lit ":" else lit ": "

/-- `\uXXXX` of a code unit. -/
def uEscape (u : Nat) : Str :=
  ofChars ['\\', 'u', Nat.digitChar (u / 4096 % 16), Nat.digitChar (u / 256 % 16),
    Nat.digitChar (u / 16 % 16), Nat.digitChar (u % 16)]

/-- The two-character escapes. -/
def shortEscape (c : Char) : Option Char :=
  if c = '"' then some '"'
  else if c = '\\' then some '\\'
  else if c = '\n' then some 'n'
  else if c = '\r' then some 'r'
  else if c = '\t' then some 't'
  else if c = '\x0c' then some 'f'
  else if c = '\x08' then some 'b'
  else none

/-- The code units of a surrogate half. -/
def surrogateUnit (low : Bool) (bits : Nat) : Nat :=
  (if low then 0xdc00 else 0xd800) + bits

/-- One character inside a string literal. -/
def escape (st : Style) : PyChar → Str
  | .surrogate low bits =>
    if st.ensureAscii then uEscape (surrogateUnit low bits) else [.surrogate low bits]
  | .scalar c =>
    match shortEscape c with
    | some e => [.scalar '\\', .scalar e]
    | none =>
      if c.toNat < 0x20 then uEscape c.toNat
      else if c.toNat < 0x7f ∨ st.ensureAscii = false then [.scalar c]
      else if c.toNat < 0x10000 then uEscape c.toNat
      else uEscape (surrogateUnit false ((c.toNat - 0x10000) / 1024)) ++
        uEscape (surrogateUnit true ((c.toNat - 0x10000) % 1024))

/-- A string literal. -/
def dumpsStr (st : Style) (s : Str) : Str :=
  .scalar '"' :: (s.flatMap (escape st) ++ [.scalar '"'])

/-- `int.__repr__`. -/
def dumpsInt : Int → Str
  | .ofNat n => ofChars (Nat.toDigits 10 n)
  | .negSucc n => .scalar '-' :: ofChars (Nat.toDigits 10 (n + 1))

mutual

/-- `json.dumps`. -/
def dumps [PyFloat F] (st : Style) : Json F → Str
  | .null => lit "null"
  | .bool true => lit "true"
  | .bool false => lit "false"
  | .int n => dumpsInt n
  | .float x => ofChars (PyFloat.spell x)
  | .str s => dumpsStr st s
  | .arr .nil => lit "[]"
  | .arr (.cons x xs) => .scalar '[' :: (dumps st x ++ (dumpsElems st xs ++ [.scalar ']']))
  | .obj .nil => lit "{}"
  | .obj (.cons k x ms) =>
    .scalar '{' ::
      (dumpsStr st k ++ (st.keySep ++ (dumps st x ++ (dumpsMembers st ms ++ [.scalar '}']))))

/-- The elements after the first, each behind a separator. -/
def dumpsElems [PyFloat F] (st : Style) : Elems F → Str
  | .nil => []
  | .cons x xs => st.itemSep ++ (dumps st x ++ dumpsElems st xs)

/-- The members after the first, each behind a separator. -/
def dumpsMembers [PyFloat F] (st : Style) : Members F → Str
  | .nil => []
  | .cons k x ms =>
    st.itemSep ++ (dumpsStr st k ++ (st.keySep ++ (dumps st x ++ dumpsMembers st ms)))

end

/-! ## Scanning -/

/-- A piece of a string literal: a character as it stands, or a `\uXXXX` code unit. -/
inductive Piece where
  | raw (c : PyChar)
  | unit (u : Nat)
deriving DecidableEq, Repr

def hexVal : PyChar → Option Nat
  | .surrogate _ _ => none
  | .scalar c =>
    if '0' ≤ c ∧ c ≤ '9' then some (c.toNat - '0'.toNat)
    else if 'a' ≤ c ∧ c ≤ 'f' then some (c.toNat - 'a'.toNat + 10)
    else if 'A' ≤ c ∧ c ≤ 'F' then some (c.toNat - 'A'.toNat + 10)
    else none

/-- Four hexadecimal digits. -/
def hex4 (a b c d : PyChar) : Option Nat :=
  match hexVal a, hexVal b, hexVal c, hexVal d with
  | some w, some x, some y, some z => some (4096 * w + 256 * x + 16 * y + z)
  | _, _, _, _ => none

/-- The character a two-character escape stands for. -/
def shortUnescape : PyChar → Option Char
  | .surrogate _ _ => none
  | .scalar c =>
    if c = '"' then some '"'
    else if c = '\\' then some '\\'
    else if c = '/' then some '/'
    else if c = 'n' then some '\n'
    else if c = 'r' then some '\r'
    else if c = 't' then some '\t'
    else if c = 'f' then some '\x0c'
    else if c = 'b' then some '\x08'
    else none

/-- A control character, refused inside a literal (`strict=True`). -/
def isControl : PyChar → Bool
  | .surrogate _ _ => false
  | .scalar c => c.toNat < 0x20

/-- The body of a string literal, up to and without the closing quote. -/
def scanBody : Str → Option (List Piece × Str)
  | [] => none
  | .scalar '"' :: rest => some ([], rest)
  | .scalar '\\' :: .scalar 'u' :: a :: b :: c :: d :: rest =>
    match hex4 a b c d with
    | none => none
    | some u => (scanBody rest).map fun p => (.unit u :: p.1, p.2)
  | .scalar '\\' :: e :: rest =>
    match shortUnescape e with
    | none => none
    | some c => (scanBody rest).map fun p => (.raw (.scalar c) :: p.1, p.2)
  | c :: rest =>
    if isControl c then none else (scanBody rest).map fun p => (.raw c :: p.1, p.2)

def isHighUnit (u : Nat) : Bool := 0xd800 ≤ u && u < 0xdc00

def isLowUnit (u : Nat) : Bool := 0xdc00 ≤ u && u < 0xe000

/-- The character of one code unit. -/
def ofUnit (u : Nat) : PyChar :=
  if isHighUnit u then .surrogate false (Fin.ofNat 1024 (u - 0xd800))
  else if isLowUnit u then .surrogate true (Fin.ofNat 1024 (u - 0xdc00))
  else .scalar (Char.ofNat u)

/-- The character of a surrogate pair. -/
def joinUnits (hi lo : Nat) : Char :=
  Char.ofNat (0x10000 + (hi - 0xd800) * 1024 + (lo - 0xdc00))

/-- The string of the scanned pieces: an escaped high unit directly followed by
an escaped low unit is one character. -/
def joinPieces : List Piece → Str
  | [] => []
  | .raw c :: ps => c :: joinPieces ps
  | .unit hi :: .unit lo :: ps =>
    if isHighUnit hi && isLowUnit lo then .scalar (joinUnits hi lo) :: joinPieces ps
    else ofUnit hi :: joinPieces (.unit lo :: ps)
  | .unit u :: ps => ofUnit u :: joinPieces ps

/-- A string literal after its opening quote. -/
def scanString (text : Str) : Option (Str × Str) :=
  (scanBody text).map fun p => (joinPieces p.1, p.2)

def isWs : PyChar → Bool
  | .surrogate _ _ => false
  | .scalar c => c == ' ' || c == '\t' || c == '\n' || c == '\r'

def skipWs (text : Str) : Str := text.dropWhile isWs

/-- The leading ASCII digits, and the rest. -/
def spanDigits : Str → List Char × Str
  | .scalar c :: rest =>
    if c.isDigit then ((c :: (spanDigits rest).1), (spanDigits rest).2) else ([], .scalar c :: rest)
  | rest => ([], rest)

/-- The integer part: `0`, or digits not starting with `0`. -/
def scanWhole (text : Str) : Option (List Char × Str) :=
  match text with
  | .scalar c :: rest =>
    if c = '0' then some (['0'], rest)
    else if c.isDigit then some (c :: (spanDigits rest).1, (spanDigits rest).2)
    else none
  | _ => none

/-- `.` and at least one digit, or nothing. -/
def scanFrac (text : Str) : List Char × Str :=
  match text with
  | .scalar '.' :: rest =>
    match spanDigits rest with
    | ([], _) => ([], text)
    | (ds, rest') => (ds, rest')
  | _ => ([], text)

/-- The sign of an exponent. -/
def scanSign (text : Str) : List Char × Str :=
  match text with
  | .scalar c :: rest => if c = '+' ∨ c = '-' then ([c], rest) else ([], text)
  | _ => ([], text)

/-- An exponent part, or nothing. -/
def scanExp (text : Str) : List Char × Str :=
  match text with
  | .scalar e :: rest =>
    if e = 'e' ∨ e = 'E' then
      match spanDigits (scanSign rest).2 with
      | ([], _) => ([], text)
      | (ds, rest') => (e :: ((scanSign rest).1 ++ ds), rest')
    else ([], text)
  | _ => ([], text)

/-- The value of the digits read: a float if there is a fraction or an exponent. -/
def numberValue [PyFloat F] (neg : Bool) (whole frac exp : List Char) : Json F :=
  if frac = [] ∧ exp = [] then
    .int (if neg then -(Nat.ofDigitChars 10 whole 0 : Int) else Nat.ofDigitChars 10 whole 0)
  else .float (PyFloat.float ⟨neg, whole, frac, exp⟩)

/-- A number behind its sign. -/
def scanUnsigned [PyFloat F] (neg : Bool) (text : Str) : Option (Json F × Str) :=
  (scanWhole text).map fun w =>
    (numberValue neg w.1 (scanFrac w.2).1 (scanExp (scanFrac w.2).2).1,
      (scanExp (scanFrac w.2).2).2)

def scanNumber [PyFloat F] (text : Str) : Option (Json F × Str) :=
  match text with
  | .scalar '-' :: rest => scanUnsigned true rest
  | _ => scanUnsigned false text

/-- The text behind a fixed word. -/
def afterWord : List Char → Str → Option Str
  | [], text => some text
  | c :: cs, .scalar d :: rest => if c = d then afterWord cs rest else none
  | _ :: _, _ => none

/-- A constant or a number. -/
def scanAtom [PyFloat F] (text : Str) : Option (Json F × Str) :=
  match afterWord ['n', 'u', 'l', 'l'] text with
  | some rest => some (.null, rest)
  | none =>
  match afterWord ['t', 'r', 'u', 'e'] text with
  | some rest => some (.bool true, rest)
  | none =>
  match afterWord ['f', 'a', 'l', 's', 'e'] text with
  | some rest => some (.bool false, rest)
  | none =>
  match afterWord ['N', 'a', 'N'] text with
  | some rest => some (.float PyFloat.nan, rest)
  | none =>
  match afterWord ['I', 'n', 'f', 'i', 'n', 'i', 't', 'y'] text with
  | some rest => some (.float PyFloat.inf, rest)
  | none =>
  match afterWord ['-', 'I', 'n', 'f', 'i', 'n', 'i', 't', 'y'] text with
  | some rest => some (.float PyFloat.negInf, rest)
  | none => scanNumber text

/-- Elements read so far, most recent first, as an array. -/
def arrOfRev (acc : List (Json F)) : Json F := .arr (Elems.ofList acc.reverse)

mutual

/-- `scan_once`: one value at the start of the text. -/
def scanValue [PyFloat F] : Nat → Str → Option (Json F × Str)
  | 0, _ => none
  | n + 1, text =>
    match text with
    | .scalar '"' :: rest => (scanString rest).map fun p => (.str p.1, p.2)
    | .scalar '{' :: rest =>
      match skipWs rest with
      | .scalar '}' :: rest' => some (.obj .nil, rest')
      | rest' => scanMembers n .nil rest'
    | .scalar '[' :: rest =>
      match skipWs rest with
      | .scalar ']' :: rest' => some (.arr .nil, rest')
      | rest' => scanElems n [] rest'
    | _ => scanAtom text

/-- The members of an object, from a key on. -/
def scanMembers [PyFloat F] : Nat → Members F → Str → Option (Json F × Str)
  | 0, _, _ => none
  | n + 1, acc, text =>
    match text with
    | .scalar '"' :: rest =>
      match scanString rest with
      | none => none
      | some (k, rest) =>
        match skipWs rest with
        | .scalar ':' :: rest =>
          match scanValue n (skipWs rest) with
          | none => none
          | some (x, rest) => scanMembersRest n (acc.put k x) (skipWs rest)
        | _ => none
    | _ => none

/-- What follows a member: the closing brace, or a comma and the next member. -/
def scanMembersRest [PyFloat F] : Nat → Members F → Str → Option (Json F × Str)
  | 0, _, _ => none
  | n + 1, acc, text =>
    match text with
    | .scalar '}' :: rest => some (.obj acc, rest)
    | .scalar ',' :: rest => scanMembers n acc (skipWs rest)
    | _ => none

/-- The elements of an array, from a value on. -/
def scanElems [PyFloat F] : Nat → List (Json F) → Str → Option (Json F × Str)
  | 0, _, _ => none
  | n + 1, acc, text =>
    match scanValue n text with
    | none => none
    | some (x, rest) => scanElemsRest n (x :: acc) (skipWs rest)

/-- What follows an element: the closing bracket, or a comma and the next element. -/
def scanElemsRest [PyFloat F] : Nat → List (Json F) → Str → Option (Json F × Str)
  | 0, _, _ => none
  | n + 1, acc, text =>
    match text with
    | .scalar ']' :: rest => some (arrOfRev acc, rest)
    | .scalar ',' :: rest => scanElems n acc (skipWs rest)
    | _ => none

end

/-- `JSONDecoder().raw_decode(text, index)` on the text from `index` on. -/
def rawDecode [PyFloat F] (text : Str) : Option (Json F × Str) :=
  scanValue (2 * text.length + 1) text

end PyJson
