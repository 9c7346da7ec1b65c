import Mathlib.Data.String.Basic

/-!
# Text

What the modelled functions use of `str`, and the compact text serde_json writes. An object's
fields come in the order of their names (its map is a B-tree map), as the callers list them.
-/

namespace Inim

def infixOf (needle : List Char) : List Char → Bool
  | [] => needle.isEmpty
  | c :: cs => needle.isPrefixOf (c :: cs) || infixOf needle cs

/-- `kind.contains(needle)`. -/
def textContains (kind needle : String) : Bool := infixOf needle.toList kind.toList

/-- `char::is_whitespace`: the code points with the property `White_Space`. -/
def isWhitespace (c : Char) : Bool :=
  let n := c.toNat
  (9 ≤ n && n ≤ 13) || n == 0x20 || n == 0x85 || n == 0xA0 || n == 0x1680
    || (0x2000 ≤ n && n ≤ 0x200A) || n == 0x2028 || n == 0x2029 || n == 0x202F || n == 0x205F
    || n == 0x3000

/-- `s.trim().is_empty()`. -/
def trimBlank (s : String) : Bool := s.toList.all isWhitespace

/-- `str::trim`. -/
def trim (s : String) : String :=
  String.ofList ((s.toList.dropWhile isWhitespace).reverse.dropWhile isWhitespace).reverse

/-- `str::split_whitespace`. -/
def splitWhitespace (s : String) : List String :=
  ((s.toList.splitOnP isWhitespace).filter (· ≠ [])).map String.ofList

/-! ## Numbers -/

def parseDigits (cs : List Char) : Option Nat :=
  if cs.isEmpty || cs.any (!·.isDigit) then none
  else some (cs.foldl (fun n c => 10 * n + (c.toNat - '0'.toNat)) 0)

/-- `s.parse::<u32>()`, for texts too short to overflow. -/
def parseU32 : List Char → Option Nat
  | '+' :: cs => parseDigits cs
  | cs => parseDigits cs

/-- `s.parse::<u64>()`. -/
def parseU64 (s : String) : Option Nat := (parseU32 s.toList).filter (· < 2 ^ 64)

/-- `s.parse::<i32>()`, for texts too short to overflow. -/
def parseI32 : List Char → Option Int
  | '-' :: cs => (parseDigits cs).map fun n => -(n : Int)
  | cs => (parseU32 cs).map Int.ofNat

/-! ## JSON -/

def hexDigit (n : Nat) : Char := ("0123456789abcdef".toList[n]?).getD '0'

def jsonChar (c : Char) : List Char :=
  match c.toNat with
  | 8 => "\\b".toList
  | 9 => "\\t".toList
  | 10 => "\\n".toList
  | 12 => "\\f".toList
  | 13 => "\\r".toList
  | 34 => "\\\"".toList
  | 92 => "\\\\".toList
  | n => if n < 32 then "\\u00".toList ++ [hexDigit (n / 16), hexDigit (n % 16)] else [c]

def jsonString (s : String) : String := "\"" ++ String.ofList (s.toList.flatMap jsonChar) ++ "\""

def jsonOption (f : α → String) : Option α → String
  | none => "null"
  | some a => f a

def jsonArray (items : List String) : String := "[" ++ String.intercalate "," items ++ "]"

def jsonObject (fields : List (String × String)) : String :=
  "\x7b" ++ String.intercalate "," (fields.map fun f => jsonString f.1 ++ ":" ++ f.2) ++ "\x7d"

example : jsonObject [("a", jsonOption jsonString none), ("b", jsonArray [jsonString "x\"y", "1"])]
    = "\x7b\"a\":null,\"b\":[\"x\\\"y\",1]\x7d" := by decide

end Inim
