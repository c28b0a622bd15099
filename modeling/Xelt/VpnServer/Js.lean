import Mathlib.Data.Rat.Floor

/-!
# JavaScript values

The request bodies are JSON that nobody checks against the declared types.
A field can hold any value; the operators of the handlers tell them apart as
JavaScript does. A finite double is the rational it stands for; infinities and
`NaN` are `none`.
-/

namespace Xelt.VpnServer

/-- The value of a field of a JSON object. -/
inductive JsValue
  | undefined
  | null
  | boolean (b : Bool)
  | number (q : ℚ)
  | string (s : String)
  /-- An array, an object, or a number too large for a double. `String(value)`
  throws where an object, also one in an array, has a field `toString`. -/
  | other (printable : Bool)
  deriving DecidableEq

namespace JsValue

def truthy : JsValue → Bool
  | undefined | null => false
  | boolean b => b
  | number q => q ≠ 0
  | string s => s ≠ ""
  | other _ => true

/-- A template string takes the value. -/
def printable : JsValue → Bool
  | other printable => printable
  | _ => true

/-- `a || b`. -/
def or (a b : JsValue) : JsValue := if a.truthy then a else b

/-- `a ?? b`. -/
def orElse : JsValue → JsValue → JsValue
  | undefined, b | null, b => b
  | a, _ => a

end JsValue

-- ---------------------------------------------------------------------------
-- Doubles
-- ---------------------------------------------------------------------------

def pow2 : Int → ℚ
  | .ofNat n => (2 ^ n : Nat)
  | .negSucc n => 1 / (2 ^ (n + 1) : Nat)

/-- The nearest integer, of two the even one. -/
def roundEven (q : ℚ) : Int :=
  let below := q.floor
  if q - below < 1 / 2 ∨ q - below = 1 / 2 ∧ below % 2 = 0 then below else below + 1

/-- The exponent of a number, `2 ^ e ≤ |q| < 2 ^ (e + 1)`. -/
def exponent (q : ℚ) : Int :=
  let e : Int := q.num.natAbs.log2 - q.den.log2
  if pow2 e ≤ max q (-q) then e else e - 1

/-- The double nearest to a number. -/
def toDouble (q : ℚ) : Option ℚ :=
  -- below the least normal double the doubles keep their distance
  let ulp := pow2 (max (exponent q) (-1022) - 52)
  let rounded := roundEven (q / ulp) * ulp
  if max rounded (-rounded) < pow2 1024 then some rounded else none

/-- `Math.round`. -/
def mathRound (q : ℚ) : Int := (q + 1 / 2).floor

-- ---------------------------------------------------------------------------
-- Texts
-- ---------------------------------------------------------------------------

/-- What JavaScript calls white space or a line end. -/
def isSpace (c : Char) : Bool :=
  c.val ∈ [0x09, 0x0a, 0x0b, 0x0c, 0x0d, 0x20, 0xa0, 0x1680, 0x2028, 0x2029, 0x202f, 0x205f, 0x3000,
    0xfeff] ∨ (0x2000 ≤ c.val ∧ c.val ≤ 0x200a)

def trimChars (cs : List Char) : List Char :=
  ((cs.dropWhile isSpace).reverse.dropWhile isSpace).reverse

def trim (s : String) : String := String.ofList (trimChars s.toList)

/-- The text of every `TypeError` here; the engine's own says more. -/
def typeError : String := "TypeError"

/-- `value?.trim()`: only strings have the method. -/
def trim? : JsValue → Except String (Option String)
  | .undefined | .null => .ok none
  | .string s => .ok (some (trim s))
  | _ => .error typeError

/-- Lower case, of the ASCII text of an address or a topic. -/
def toLowerCase (s : String) : String := String.ofList (s.toList.map Char.toLower)

def padStart (cs : List Char) (n : Nat) (c : Char) : List Char :=
  List.replicate (n - cs.length) c ++ cs

def hexDigit (c : Char) : Option Nat :=
  if '0' ≤ c ∧ c ≤ '9' then some (c.toNat - '0'.toNat)
  else if 'a' ≤ c ∧ c ≤ 'f' then some (c.toNat - 'a'.toNat + 10)
  else if 'A' ≤ c ∧ c ≤ 'F' then some (c.toNat - 'A'.toNat + 10)
  else none

/-- The value of digits below the radix, of which there is at least one. -/
def digits (radix : Nat) (cs : List Char) : Option Nat :=
  if cs = [] then none
  else cs.foldlM (fun n c => do
    let d ← hexDigit c
    if d < radix then some (n * radix + d) else none) 0

/-- `BigInt(text)`; `none` is its `SyntaxError`. -/
def bigInt (text : String) : Option Int :=
  match trimChars text.toList with
  | [] => some 0
  | '0' :: 'x' :: cs | '0' :: 'X' :: cs => (digits 16 cs).map Int.ofNat
  | '0' :: 'o' :: cs | '0' :: 'O' :: cs => (digits 8 cs).map Int.ofNat
  | '0' :: 'b' :: cs | '0' :: 'B' :: cs => (digits 2 cs).map Int.ofNat
  | '-' :: cs => (digits 10 cs).map fun n => -Int.ofNat n
  | '+' :: cs => (digits 10 cs).map Int.ofNat
  | cs => (digits 10 cs).map Int.ofNat

end Xelt.VpnServer
